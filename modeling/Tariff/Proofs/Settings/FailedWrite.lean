import Tariff.Proofs.Json.CutTexts
import Tariff.Proofs.Settings.Reopening

/-!
# Changes that cannot be saved

A store makes a change to its entries before it saves them.  Saving is refused, and then the path leads
where it led when the directories on the way had been made, or it is broken off, and then a part of
the text is in the file.  The main statement says after which failed changes all questions are still
answered as before: after one for which the entries could not be loaded, on a store that reloads after
one that left its file as it was, or without entries where there were none, and on a store that does
not after one that gave a key the value it had.
-/

namespace Tariff

namespace SettingsFile

/-- All questions after a call are answered as they would have been before it. -/
def Undisturbed (store : SettingsFile) (host : Host) (reply : Reply SettingsFile Unit) : Prop :=
  ∀ questions, reply.store.answers reply.host questions =
    questions.map fun question => (store.ask host question).answer

/-- What a store that reloads answers from stays: its path leads to the same as before, or there are no
entries before and none afterwards. -/
def FileStays (store : SettingsFile) (files files' : Files) : Prop :=
  (∃ path, Path.ofText store.path = .ok path ∧ files'.node path = files.node path) ∨
    entriesIn files store.path = .ok .empty ∧ entriesIn files' store.path = .ok .empty

/-- Files hold the first bytes of the text of entries at a path, so many of them and not all. -/
def HoldsPart (files : Files) (s : String) (saved : SortedMap String Json) (count : Nat) : Prop :=
  ∃ path, Path.ofText s = .ok path ∧
    count < (HostText.text (Json.object saved.entries).indented).bytes.size ∧
    files.node path = .ok (.file ((HostText.text (Json.object saved.entries).indented).take count))

variable {store next : SettingsFile} {host : Host} {files files' : Files}
  {entries : SortedMap String Json} {e : StoreError}

/-! ### Files that could not be saved -/

/-- The text of entries is not blank from its first character on, so that no part of it is blank but the
empty one. -/
theorem eq_empty_of_isAllBlank {content : String} {more : List Char}
    (joined : content.toList ++ more = (Json.object entries.entries).indented.toList)
    (blank : Text.isAllBlank content = true) :
  content = ""
  := by
  obtain ⟨cs, starts⟩ := indented_starts entries.entries
  rw [starts] at joined
  cases content_eq : content.toList with
  | nil => exact String.toList_eq_nil_iff.mp content_eq
  | cons c rest =>
    rw [content_eq] at joined
    obtain ⟨rfl, -⟩ := List.cons.inj joined
    have not_blank : Text.isBlank '\x7b' = false := by decide
    simp [Text.isAllBlank, content_eq, not_blank] at blank

/-- From a part of the text of entries something is loaded only if the part is empty, and then there are
no entries. -/
theorem HoldsPart.entriesIn_eq_ok_iff {s : String} {count : Nat} {found : SortedMap String Json}
    (part : HoldsPart files s entries count) (sorted : ∀ e ∈ entries.entries, e.2.Sorted) :
  entriesIn files s = .ok found ↔ count = 0 ∧ found = .empty
  := by
  obtain ⟨path, parsed, lt, node_eq⟩ := part
  constructor
  · intro loaded
    cases cut : (HostText.text (Json.object entries.entries).indented).take count with
    | other bytes =>
      obtain ⟨path', parsed', there⟩ := of_entriesIn loaded
      obtain rfl := Except.ok.inj (parsed.symm.trans parsed')
      rw [Files.isThere, node_eq, cut] at there
      rcases there with ⟨missing, -⟩ | ⟨content, node_eq'⟩
      · cases missing
      · cases node_eq'
    | text content =>
      obtain ⟨more, more_ne, joined, empty_iff⟩ := HostText.exists_append_of_take cut lt
      have text_eq : (Json.object entries.entries).indented.toList =
          Json.Layout.indented.chars 0 (.object entries.entries) := String.toList_ofList
      have refused : Json.Reader.members.run content ≠ .ok found :=
        Json.Reader.run_members_ne_ok_of_cut .indented 0 more_ne sorted (joined.trans text_eq)
      rw [cut] at node_eq
      rw [entriesIn_of_text parsed node_eq] at loaded
      split at loaded
      case isTrue blank =>
        exact ⟨empty_iff.mp (eq_empty_of_isAllBlank joined blank), (Except.ok.inj loaded).symm⟩
      case isFalse => exact absurd (Except.mapError_eq_ok.mp loaded) refused
  · rintro ⟨rfl, rfl⟩
    rw [HostText.take_zero] at node_eq
    exact entriesIn_of_text parsed node_eq

/-- From a part of the text of entries no entries are loaded, or it cannot be read. -/
theorem HoldsPart.entriesIn_cases {s : String} {count : Nat} (part : HoldsPart files s entries count)
    (sorted : ∀ e ∈ entries.entries, e.2.Sorted) :
  entriesIn files s = .ok .empty ∨ ∃ e, entriesIn files s = .error e
  := by
  cases loaded : entriesIn files s with
  | error e => exact .inr ⟨e, rfl⟩
  | ok found =>
    left
    rw [((part.entriesIn_eq_ok_iff sorted).mp loaded).2]

/-- Where entries could not be saved nothing has changed, if there were any, or there is a part of their
text. -/
theorem of_save_error (reload : store.autoReload = true)
    (loaded : store.loaded host.files = .ok next)
    (failed : (next.save entries host).answer = .error e) :
  next.entries = .empty ∨
    (∃ path, Path.ofText store.path = .ok path ∧
      (next.save entries host).host.files.node path = host.files.node path) ∨
    ∃ count, HoldsPart (next.save entries host).host.files store.path entries count
  := by
  have view_eq := view_of_loaded loaded
  rw [view_of_autoReload reload] at view_eq
  obtain ⟨path, parsed, ⟨-, empty⟩ | ⟨content, there⟩⟩ := of_entriesIn view_eq
  · exact .inl empty
  · right
    rw [save_eq ((of_loaded loaded).1 ▸ parsed)] at failed ⊢
    rcases saved : FileAction.save path (.text (Json.object entries.entries).indented) host.files with
      ⟨answer, files'⟩
    rw [saved] at failed
    cases answer with
    | ok _ => cases failed
    | error e =>
      rcases FileAction.node_of_save_error saved with same | ⟨count, lt, part⟩
      · rw [FileAction.makeParents_of_node there] at same
        exact .inl ⟨path, parsed, same⟩
      · exact .inr ⟨count, path, parsed, lt, part⟩

/-! ### What questions find -/

/-- Nothing new is found in entries with a value set exactly if the key had a value with the same
text. -/
theorem finding_insert_iff {key : String} {value : Json} :
  (∀ question, finding (entries.insert key value) question = finding entries question) ↔
    (entries.find? key).map valueText = some (valueText value)
  := by
  constructor
  · intro same
    have same_value := same (.value key)
    simp only [finding, SortedMap.find?_insert_self, Finding.value.injEq] at same_value
    apply same_value.symm
  · intro same_text question
    cases question with
    | value key' =>
      by_cases h : key' = key
      · rw [h, finding, finding, SortedMap.find?_insert_self, same_text]
        rfl
      · rw [finding, finding, SortedMap.find?_insert_of_ne entries h]
    | keys start =>
      obtain ⟨old, there, -⟩ := Option.map_eq_some_iff.mp same_text
      rw [finding, finding, SortedMap.keys_insert there]

/-- A key that has been removed is missed. -/
theorem finding_erase_ne {key : String} {value : Json} (there : entries.find? key = some value) :
  finding (entries.erase key) (.value key) ≠ finding entries (.value key)
  := by
  simp [finding, SortedMap.find?_erase_self, there]

/-- Without entries there are no keys, and without keys no entries. -/
theorem eq_empty_of_finding (same : finding entries (.keys "") = finding .empty (.keys "")) :
  entries = .empty
  := by
  obtain ⟨members, ascending⟩ := entries
  cases members with
  | nil => rfl
  | cons e members => cases same

/-- Questions are answered as before if a single one always is. -/
theorem undisturbed_iff {reply : Reply SettingsFile Unit} :
  Undisturbed store host reply ↔
    ∀ question, (reply.store.view reply.host.files).map (finding · question) =
      (store.view host.files).map (finding · question)
  := by
  constructor
  · intro same question
    have same_one := same [question]
    rw [answers_eq, List.map_singleton, List.map_singleton, answer_ask] at same_one
    apply List.head_eq_of_cons_eq same_one
  · intro same questions
    rw [answers_eq]
    apply List.map_congr_left
    intro question _
    rw [same, answer_ask]

/-! ### Failed changes -/

/-- A store that does not reload answers from the entries that it has kept. -/
theorem undisturbed_save_of_cached {c : Change} (reload : store.autoReload = false)
    (loaded : store.loaded host.files = .ok next)
    (applied : c.result? next.entries = some entries) :
  Undisturbed store host (next.save entries host) ↔
    ∃ key value, c = .set key value ∧
      (store.ask host (.value key)).answer = .ok (.value (some (valueText (valueOf value))))
  := by
  have view_eq : (next.save entries host).store.view (next.save entries host).host.files =
      .ok entries := by
    rw [save_store]
    exact view_of_cached ((of_loaded loaded).2.1.trans reload) rfl
  rw [undisturbed_iff, view_eq, view_of_loaded loaded]
  simp only [Except.map, Except.ok.injEq]
  cases c with
  | set key value =>
    obtain rfl := Option.some.inj applied
    rw [finding_insert_iff]
    constructor
    · intro same_text
      use key, value, rfl
      rw [answer_ask, view_of_loaded loaded, Except.map, finding, same_text]
    · rintro ⟨_, _, set_eq, answer_eq⟩
      cases set_eq
      rw [answer_ask, view_of_loaded loaded, Except.map, finding] at answer_eq
      apply Finding.value.inj (Except.ok.inj answer_eq)
  | delete key =>
    constructor
    · intro same
      rw [Change.result?] at applied
      split at applied
      case isTrue there =>
        cases applied
        obtain ⟨value, there⟩ := Option.isSome_iff_exists.mp there
        exact absurd (same _) (finding_erase_ne there)
      case isFalse => cases applied
    · rintro ⟨_, _, impossible, -⟩
      cases impossible

/-- A store that reloads answers from its file, which could not be saved. -/
theorem undisturbed_save_of_autoReload {c : Change} (reload : store.autoReload = true)
    (loaded : store.loaded host.files = .ok next)
    (applied : c.result? next.entries = some entries)
    (failed : (next.save entries host).answer = .error e) :
  Undisturbed store host (next.save entries host) ↔
    store.FileStays host.files (next.save entries host).host.files
  := by
  have before := view_of_loaded loaded
  have file_before := before
  rw [view_of_autoReload reload] at file_before
  rw [undisturbed_iff, view_save_of_autoReload reload loaded, before, FileStays, file_before]
  constructor
  · intro same
    have same_keys := same (.keys "")
    cases file_after : entriesIn (next.save entries host).host.files store.path with
    | error e =>
      rw [file_after] at same_keys
      cases same_keys
    | ok found =>
      rw [file_after] at same_keys
      have same_keys : finding found (.keys "") = finding next.entries (.keys "") :=
        Except.ok.inj same_keys
      rcases of_save_error reload loaded failed with empty | still | ⟨count, part⟩
      · right
        rw [empty] at same_keys ⊢
        rw [eq_empty_of_finding same_keys]
        exact ⟨rfl, rfl⟩
      · exact .inl still
      · right
        have sorted := sorted_of_result? (sorted_of_entriesIn file_before) applied
        rcases part.entriesIn_cases sorted with nothing | ⟨e, unread⟩
        · obtain rfl := Except.ok.inj (file_after.symm.trans nothing)
          rw [eq_empty_of_finding same_keys.symm]
          exact ⟨rfl, rfl⟩
        · cases file_after.symm.trans unread
  · rintro (⟨path, parsed, still⟩ | ⟨empty, nothing⟩) question
    · rw [← file_before, entriesIn_of_node parsed still]
    · rw [nothing, empty]

/-- All questions after a failed change are answered as before exactly if the entries could not be
loaded, or if the file of a store that reloads stays, or if a store that does not reload was to give a
key the value it had. -/
theorem undisturbed_change_iff (c : Change) (failed : (store.change host c).answer = .error e) :
  Undisturbed store host (store.change host c) ↔
    (∃ e, store.view host.files = .error e) ∨
    (store.autoReload = true ∧ store.FileStays host.files (store.change host c).host.files) ∨
    (store.autoReload = false ∧ ∃ key value, c = .set key value ∧
      (store.ask host (.value key)).answer = .ok (.value (some (valueText (valueOf value)))))
  := by
  cases loaded : store.loaded host.files with
  | error e =>
    rw [change_of_error c loaded, undisturbed_iff]
    constructor
    · intro _
      left
      use e
      rw [view, loaded]
      rfl
    · intro _ question
      rfl
  | ok next =>
    rw [view_of_loaded loaded]
    cases applied : c.result? next.entries with
    | none =>
      rw [change_of_none loaded applied] at failed
      cases failed
    | some entries =>
      rw [change_of_some loaded applied] at failed ⊢
      cases reload : store.autoReload with
      | false =>
        rw [undisturbed_save_of_cached reload loaded applied]
        simp
      | true =>
        rw [undisturbed_save_of_autoReload reload loaded applied failed]
        simp

/-- A host with a single entry in its root, of the name `s.json`, and what becomes of writing there. -/
def hostWith (node : Node) (access : WriteAccess) : Host :=
  ⟨{ nodes := [(.root, .directory), (⟨0, ["s.json"]⟩, node)], access := fun _ => access }, .empty⟩

/-- The content of a file with one entry. -/
def oneEntry : Node :=
  .file (.text "\x7b\"a\":1\x7d")

/-- A store with the number `1` under a key, which it has read from its file. -/
def readOnce : SettingsFile :=
  ⟨"s.json", false, some (.ofList [("a", .number (.integer 1))])⟩

/-- A value that could not be saved is found nevertheless by a store that does not reload.  One that
reloads answers as before if its file is not opened, and not if the writing is broken off. -/
theorem not_undisturbed_set :
  (let host := hostWith .directory .free
    let reply := readOnce.change host (.set "a" "2")
    reply.answer = .error (.file .isDirectory) ∧ ¬ Undisturbed readOnce host reply) ∧
  (let host := hostWith oneEntry (.refused "denied")
    let reply := (opened "s.json" true).change host (.set "a" "2")
    reply.answer = .error (.file (.other "denied")) ∧ Undisturbed (opened "s.json" true) host reply) ∧
  (let host := hostWith oneEntry (.limited 0 "full")
    let reply := (opened "s.json" true).change host (.delete "a")
    reply.answer = .error (.file (.other "full")) ∧ ¬ Undisturbed (opened "s.json" true) host reply)
  := by
  refine ⟨?_, ?_, ?_⟩
  · have failed : (readOnce.change (hostWith .directory .free) (.set "a" "2")).answer =
        .error (.file .isDirectory) := by
      decide +kernel
    use failed
    rw [undisturbed_change_iff _ failed]
    rintro (⟨e, unloaded⟩ | ⟨reload, -⟩ | ⟨-, key, value, set_eq, same_text⟩)
    · rw [view_of_cached rfl rfl] at unloaded
      cases unloaded
    · cases reload
    · cases set_eq
      revert same_text
      decide +kernel
  · have failed : ((opened "s.json" true).change (hostWith oneEntry (.refused "denied"))
        (.set "a" "2")).answer = .error (.file (.other "denied")) := by
      decide +kernel
    use failed
    rw [undisturbed_change_iff _ failed]
    right
    left
    exact ⟨rfl, .inl ⟨⟨[.enter "s.json"], .bare⟩, rfl, by decide +kernel⟩⟩
  · have failed : ((opened "s.json" true).change (hostWith oneEntry (.limited 0 "full"))
        (.delete "a")).answer = .error (.file (.other "full")) := by
      decide +kernel
    use failed
    rw [undisturbed_change_iff _ failed]
    have before : (entriesIn (hostWith oneEntry (.limited 0 "full")).files "s.json").toOption.map
        SortedMap.keys = some ["a"] := by
      decide +kernel
    rintro (⟨e, unloaded⟩ | ⟨-, ⟨path, parsed, still⟩ | ⟨empty, -⟩⟩ | ⟨reload, -⟩)
    · rw [view_opened] at unloaded
      rw [unloaded] at before
      cases before
    · have parsed' : Path.ofText "s.json" = .ok ⟨[.enter "s.json"], .bare⟩ := rfl
      obtain rfl := Except.ok.inj (parsed'.symm.trans parsed)
      revert still
      decide +kernel
    · change entriesIn _ "s.json" = _ at empty
      rw [empty] at before
      cases before
    · cases reload

/-- A failed change can change what later questions find: a store reads its file, a directory takes
the place of the file, and a value is set. -/
theorem not_forall_undisturbed :
  ¬ ∀ (path : String) (autoReload : Bool) (before after : Host) (question : Question) (c : Change)
      (e : StoreError),
    let store := ((opened path autoReload).ask before question).store
    (store.change after c).answer = .error e → Undisturbed store after (store.change after c)
  := by
  intro undisturbed
  have same := undisturbed "s.json" false (hostWith oneEntry .free)
    (hostWith .directory .free) (.value "a") (.set "a" "2") (.file .isDirectory) (by decide +kernel)
    [.value "a"]
  revert same
  decide +kernel

end SettingsFile

end Tariff
