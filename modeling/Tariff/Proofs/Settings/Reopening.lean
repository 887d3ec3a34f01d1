import Tariff.Proofs.Json.RereadText
import Tariff.Proofs.Settings.Changes

/-!
# Stores that are opened again

Changes that all succeed are made to a store whose path leads nowhere at first.  The main statement
says when another store on the path answers all questions as the first one does: when the saved
values nest less deeply than may be read and their numbers are read back, with the same text if the
first store answers from the entries that it has kept.
-/

namespace Tariff

/-- A store, its host and the entries that have last been saved. -/
structure Session where
  store : SettingsFile
  host : Host
  saved : SortedMap String Json

open SettingsFile

/-- Files hold saved entries at a path: as text, or as nothing if there are none. -/
def Holds (files : Files) (s : String) (saved : SortedMap String Json) : Prop :=
  ∃ path, Path.ofText s = .ok path ∧
    ((files.isThere path = .ok false ∧ saved = .empty) ∨
      files.node path = .ok (.file (.text (Json.object saved.entries).indented)))

namespace Session

/-- A store that has just been opened. -/
def start (path : String) (autoReload : Bool) (host : Host) : Session :=
  ⟨opened path autoReload, host, .empty⟩

/-- The entries that a change saves, if it saves any. -/
def saves? (s : Session) (c : Change) : Option (SortedMap String Json) :=
  (s.store.loaded s.host.files).toOption.bind fun next => c.result? next.entries

/-- The session after a change, if the change succeeds. -/
def make? (s : Session) (c : Change) : Option Session :=
  let reply := s.store.change s.host c
  match reply.answer with
  | .ok _ => some ⟨reply.store, reply.host, (s.saves? c).getD s.saved⟩
  | .error _ => none

/-- The session after changes, if they all succeed. -/
def makeAll? (s : Session) (changes : List Change) : Option Session :=
  changes.foldlM make? s

/-- Another store on a path loads its entries and answers all questions as the first one does. -/
def Reopens (s : Session) (path : String) (again : Bool) : Prop :=
  (∃ loaded, (opened path again).loaded s.host.files = .ok loaded) ∧
    ∀ questions, (opened path again).answers s.host questions = s.store.answers s.host questions

/-- What holds throughout a session with a store: its file holds what has been saved, the saved
values are sorted, and a store that does not reload answers from them. -/
structure Sound (path : String) (autoReload : Bool) (s : Session) : Prop where
  path_eq : s.store.path = path
  autoReload_eq : s.store.autoReload = autoReload
  holds : Holds s.host.files path s.saved
  sorted : ∀ e ∈ s.saved.entries, e.2.Sorted
  kept : autoReload = false → s.store.view s.host.files = .ok s.saved

end Session

namespace SettingsFile

variable {store : SettingsFile} {files : Files} {path : String}
  {entries saved : SortedMap String Json}

/-! ### Sorted values -/

/-- The value of a text is sorted. -/
theorem sorted_valueOf (s : String) :
  (valueOf s).Sorted
  := by
  unfold valueOf
  split
  case h_1 v read =>
    obtain ⟨rest, read, -⟩ := Json.Reader.run_eq_ok.mp read
    apply Json.Reader.yields_value _ _ _ _ read
  case h_2 => exact .string s

/-- The value of the text of a value is what it is read back as. -/
theorem valueOf_compact {v v' : Json} (sorted : v.Sorted)
    (read : Json.reread? Json.nestingLimit v = some v') :
  valueOf v.compact = v'
  := by
  rw [← Json.Reader.toOption_ofText_compact sorted] at read
  unfold valueOf
  cases parsed : Json.ofText v.compact with
  | ok w =>
    rw [parsed] at read
    apply Option.some.inj read
  | error fault =>
    rw [parsed] at read
    cases read

/-- What holds of the values of all maps that are read holds of those of entries that have been
loaded. -/
theorem forall_of_entriesIn {P : Json → Prop}
    (yields : Json.Reader.Yields (fun map : SortedMap String Json => ∀ e ∈ map.entries, P e.2)
      Json.Reader.members)
    (loaded : entriesIn files path = .ok entries) :
  ∀ e ∈ entries.entries, P e.2
  := by
  have none_held : ∀ e ∈ (SortedMap.empty : SortedMap String Json).entries, P e.2 := by
    intro e e_mem
    cases e_mem
  unfold entriesIn at loaded
  obtain ⟨path, -, loaded⟩ := Except.bind_eq_ok.mp loaded
  obtain ⟨there, -, loaded⟩ := Except.bind_eq_ok.mp loaded
  split at loaded
  case isTrue =>
    obtain ⟨content, -, loaded⟩ := Except.bind_eq_ok.mp loaded
    split at loaded
    case isTrue =>
      cases Except.pure_eq_ok.mp loaded
      apply none_held
    case isFalse =>
      obtain ⟨rest, read, -⟩ := Json.Reader.run_eq_ok.mp (Except.mapError_eq_ok.mp loaded)
      apply yields _ _ _ read
  case isFalse =>
    cases Except.pure_eq_ok.mp loaded
    apply none_held

/-- Entries that have been loaded hold sorted values. -/
theorem sorted_of_entriesIn (loaded : entriesIn files path = .ok entries) :
  ∀ e ∈ entries.entries, e.2.Sorted
  := forall_of_entriesIn Json.Reader.yields_members loaded

/-- A change keeps values sorted. -/
theorem sorted_of_result? {c : Change} {next : SortedMap String Json}
    (sorted : ∀ e ∈ entries.entries, e.2.Sorted) (applied : c.result? entries = some next) :
  ∀ e ∈ next.entries, e.2.Sorted
  := by
  cases c with
  | set key value =>
    cases applied
    have both : Json.Reader.MembersOf Json.Sorted entries.entries := ⟨entries.ascending, sorted⟩
    apply (both.insert key (sorted_valueOf value)).2
  | delete key =>
    rw [Change.result?] at applied
    split at applied
    case isTrue =>
      cases applied
      intro e e_mem
      apply sorted e ((Assoc.erase_sublist key entries.entries).subset e_mem)
    case isFalse => cases applied

/-! ### Loading what has been saved -/

/-- The text of an object starts with its bracket. -/
theorem indented_starts (members : List (String × Json)) :
  ∃ cs, (Json.object members).indented.toList = '\x7b' :: cs
  := by
  rw [Json.indented, String.toList_ofList]
  cases members with
  | nil => exact ⟨_, Json.Layout.indented.chars_object_nil 0⟩
  | cons m members => exact ⟨_, Json.Layout.indented.chars_object 0 m members⟩

/-- The text of an object is not blank. -/
theorem isAllBlank_indented (members : List (String × Json)) :
  Text.isAllBlank (Json.object members).indented = false
  := by
  obtain ⟨cs, starts⟩ := indented_starts members
  have not_blank : Text.isBlank '\x7b' = false := by decide
  simp [Text.isAllBlank, starts, not_blank]

/-- The text of saved entries gives what they are read back as. -/
theorem run_members_indented (sorted : ∀ e ∈ saved.entries, e.2.Sorted) :
  Json.Reader.members.run (Json.object saved.entries).indented = .ok entries ↔
    Json.rereadMap? (Json.nestingLimit - 1) saved = some entries
  := by
  have read := Json.Reader.members_written .indented 0 saved sorted []
  rw [List.append_nil] at read
  have text_eq : (Json.object saved.entries).indented.toList =
      Json.Layout.indented.chars 0 (.object saved.entries) := String.toList_ofList
  rw [Json.Reader.run_eq_ok, text_eq, read]
  cases Json.rereadMap? (Json.nestingLimit - 1) saved with
  | none =>
    constructor
    · rintro ⟨rest, impossible, -⟩
      cases impossible
    · intro impossible
      cases impossible
  | some found =>
    constructor
    · rintro ⟨rest, ok_eq, -⟩
      cases ok_eq
      rfl
    · intro some_eq
      cases some_eq
      exact ⟨[], rfl, rfl⟩

/-- What is loaded from files is what the entries that they hold are read back as. -/
theorem entriesIn_eq_ok_iff (holds : Holds files path saved)
    (sorted : ∀ e ∈ saved.entries, e.2.Sorted) :
  entriesIn files path = .ok entries ↔
    Json.rereadMap? (Json.nestingLimit - 1) saved = some entries
  := by
  obtain ⟨p, parsed, ⟨missing, rfl⟩ | node⟩ := holds
  · have is_missing : (opened path true).IsMissing files := ⟨p, parsed, missing⟩
    have loaded : entriesIn files path = .ok .empty := is_missing.entriesIn
    rw [loaded, Except.ok.injEq]
    apply Option.some_inj.symm
  · rw [entriesIn_of_text parsed node, isAllBlank_indented, if_neg Bool.false_ne_true,
      Except.mapError_eq_ok, run_members_indented sorted]

/-- The entries that another store on a path answers from. -/
theorem view_opened (again : Bool) :
  (opened path again).view files = entriesIn files path
  := by
  cases loaded : entriesIn files path <;>
    simp [view, opened, SettingsFile.loaded, reloaded, loaded, Except.map, bind, Except.bind, pure,
      Except.pure, SettingsFile.entries]

/-! ### What questions find in entries that are read back -/

/-- A value gives the same text once it has been read back exactly if its numbers are steady. -/
theorem valueText_eq_iff {depth : Nat} {v v' : Json} (read : Json.reread? depth v = some v') :
  valueText v' = valueText v ↔ ∀ n ∈ v.numbers, n.IsSteady
  := by
  have compact_iff := Json.compact_eq_iff read
  cases v with
  | string s =>
    cases read
    simp [Json.numbers]
  | _ =>
    rw [← compact_iff]
    cases v' with
    | string s => cases Json.Reader.eq_string_of_reread? read
    | _ => apply eq_comm

/-- Questions find the same in entries that are read back exactly if all numbers are steady. -/
theorem finding_reread_iff {depth : Nat}
    (read : Json.rereadMap? depth saved = some entries) :
  (∀ question, finding entries question = finding saved question) ↔
    ∀ e ∈ saved.entries, ∀ n ∈ e.2.numbers, n.IsSteady
  := by
  have found := Json.find?_of_rereadMap? read
  have each : ∀ e ∈ saved.entries, ∃ v, Json.reread? depth e.2 = some v := by
    intro e e_mem
    apply Option.isSome_iff_exists.mp (Json.isSome_of_rereadMap? read e e_mem)
  constructor
  · intro same e e_mem
    obtain ⟨v, read_v⟩ := each e e_mem
    have there : saved.find? e.1 = some e.2 := Assoc.find?_of_mem saved.ascending e_mem
    have same_text := Finding.value.inj (same (.value e.1))
    rw [found, there, Option.bind_some, read_v] at same_text
    apply (valueText_eq_iff read_v).mp (Option.some.inj same_text)
  · intro steady question
    cases question with
    | value key =>
      rw [finding, finding, found]
      cases there : saved.find? key with
      | none => rfl
      | some v =>
        obtain ⟨e, e_mem, rfl⟩ := Assoc.exists_mem_of_find? there
        obtain ⟨v, read_v⟩ := each e e_mem
        rw [Option.bind_some, read_v, Option.map_some, Option.map_some,
          (valueText_eq_iff read_v).mpr (steady e e_mem)]
    | keys start =>
      have keys_eq : entries.keys = saved.keys := Json.keys_of_rereadMap? read
      rw [finding, finding, keys_eq]

end SettingsFile

namespace Session

variable {s s' : Session} {path : String} {autoReload : Bool} {host : Host}

/-! ### Sessions -/

/-- A change that succeeds either saves nothing or saves the entries that it leaves. -/
theorem of_make? {c : Change} (made : s.make? c = some s') :
  ∃ next, s.store.loaded s.host.files = .ok next ∧
    ((c.result? next.entries = none ∧ s' = ⟨next, s.host, s.saved⟩) ∨
      ∃ entries files p, c.result? next.entries = some entries ∧ Path.ofText next.path = .ok p ∧
        FileAction.save p (.text (Json.object entries.entries).indented) s.host.files =
          (.ok (), files) ∧
        s' = ⟨{ next with cached := some entries }, { s.host with files }, entries⟩)
  := by
  unfold make? saves? at made
  cases loaded : s.store.loaded s.host.files with
  | error e =>
    rw [change_of_error c loaded] at made
    cases made
  | ok next =>
    refine ⟨next, rfl, ?_⟩
    rw [loaded] at made
    cases applied : c.result? next.entries with
    | none =>
      left
      simp only [change_of_none loaded applied, Except.toOption, Option.bind_some, applied,
        Option.getD_none, Option.some.injEq] at made
      exact ⟨rfl, made.symm⟩
    | some entries =>
      right
      simp only [change_of_some loaded applied, Except.toOption, Option.bind_some, applied,
        Option.getD_some] at made
      cases parsed : Path.ofText next.path with
      | error e => simp [save, parsed] at made
      | ok p =>
        rcases saved : FileAction.save p (.text (Json.object entries.entries).indented)
          s.host.files with ⟨answer, files⟩
        rw [save_eq parsed, saved] at made
        cases answer with
        | error e => cases made
        | ok _ =>
          cases made
          exact ⟨entries, files, p, rfl, rfl, saved, rfl⟩

/-- A session is sound when the store has just been opened on a path that leads nowhere. -/
theorem sound_start (missing : (opened path autoReload).IsMissing host.files) :
  (start path autoReload host).Sound path autoReload where
  path_eq := rfl
  autoReload_eq := rfl
  holds := by
    obtain ⟨p, parsed, nothing⟩ := missing
    exact ⟨p, parsed, .inl ⟨nothing, rfl⟩⟩
  sorted := by
    intro e e_mem
    cases e_mem
  kept := by
    intro _
    apply (view_opened autoReload).trans missing.entriesIn

/-- A change that succeeds keeps a session sound. -/
theorem Sound.make? {c : Change} (sound : s.Sound path autoReload)
    (made : s.make? c = some s') :
  s'.Sound path autoReload
  := by
  obtain ⟨next, loaded, ⟨-, rfl⟩ | ⟨entries, files, p, applied, parsed, saved, rfl⟩⟩ :=
    of_make? made
  · obtain ⟨path_eq, autoReload_eq, -⟩ := of_loaded loaded
    exact {
      path_eq := path_eq.trans sound.path_eq
      autoReload_eq := autoReload_eq.trans sound.autoReload_eq
      holds := sound.holds
      sorted := sound.sorted
      kept := by
        intro reload
        rw [view_loaded loaded, ← view_of_loaded loaded]
        apply sound.kept reload }
  · obtain ⟨path_eq, autoReload_eq, -⟩ := of_loaded loaded
    have path_eq := path_eq.trans sound.path_eq
    have autoReload_eq := autoReload_eq.trans sound.autoReload_eq
    -- What was loaded before the change is what was saved, or what the file gave again.
    have sorted_next : ∀ e ∈ next.entries.entries, e.2.Sorted := by
      have view_eq := view_of_loaded loaded
      cases reload : autoReload with
      | false =>
        rw [sound.kept reload] at view_eq
        rw [← Except.ok.inj view_eq]
        apply sound.sorted
      | true =>
        rw [view_of_autoReload (sound.autoReload_eq.trans reload)] at view_eq
        apply sorted_of_entriesIn view_eq
    exact {
      path_eq := path_eq
      autoReload_eq := autoReload_eq
      holds := ⟨p, path_eq ▸ parsed, .inr (FileAction.node_of_save saved)⟩
      sorted := sorted_of_result? sorted_next applied
      kept := fun reload => view_of_cached (autoReload_eq.trans reload) rfl }

/-- A session stays sound as long as all changes succeed. -/
theorem Sound.makeAll? {changes : List Change} (sound : s.Sound path autoReload)
    (made : s.makeAll? changes = some s') :
  s'.Sound path autoReload
  := by
  induction changes generalizing s with
  | nil =>
    cases made
    apply sound
  | cons c changes ih =>
    rw [Session.makeAll?, List.foldlM_cons] at made
    obtain ⟨next, first, others⟩ := Option.bind_eq_some_iff.mp made
    apply ih (sound.make? first) others

/-- A path is opened again as it was if what it holds is read back, as entries in which questions
find the same if the first store answers from those it has kept. -/
theorem Sound.reopens_iff_exists (sound : s.Sound path autoReload) (again : Bool) :
  s.Reopens path again ↔
    ∃ found, Json.rereadMap? (Json.nestingLimit - 1) s.saved = some found ∧
      (autoReload = false → ∀ question, finding found question = finding s.saved question)
  := by
  have loaded_iff (found : SortedMap String Json) : entriesIn s.host.files path = .ok found ↔
      Json.rereadMap? (Json.nestingLimit - 1) s.saved = some found :=
    entriesIn_eq_ok_iff sound.holds sound.sorted
  constructor
  · rintro ⟨⟨store, loaded⟩, same⟩
    have view_eq := view_of_loaded loaded
    refine ⟨store.entries, (loaded_iff _).mp ((view_opened again).symm.trans view_eq), ?_⟩
    intro reload question
    have same_one := same [question]
    rw [answers_eq, answers_eq, view_eq, sound.kept reload] at same_one
    apply Except.ok.inj (List.head_eq_of_cons_eq same_one)
  · rintro ⟨found, read, same⟩
    have view_eq : (opened path again).view s.host.files = .ok found :=
      (view_opened again).trans ((loaded_iff found).mpr read)
    constructor
    · cases loaded : (opened path again).loaded s.host.files with
      | ok store => exact ⟨store, rfl⟩
      | error e =>
        rw [view, loaded] at view_eq
        cases view_eq
    · intro questions
      rw [answers_eq, answers_eq, view_eq]
      cases reload : autoReload with
      | false =>
        rw [sound.kept reload]
        apply List.map_congr_left
        intro question _
        apply congrArg Except.ok (same reload question)
      | true =>
        rw [view_of_autoReload (sound.autoReload_eq.trans reload), sound.path_eq,
          (loaded_iff found).mpr read]

/-- After changes that all succeed another store on the path answers all questions as the first one
exactly if the saved values nest less deeply than may be read and each of their numbers is read
back, with the same text if the first store does not reload. -/
theorem reopens_iff {changes : List Change} (again : Bool)
    (missing : (opened path autoReload).IsMissing host.files)
    (made : (start path autoReload host).makeAll? changes = some s) :
  s.Reopens path again ↔
    ∀ e ∈ s.saved.entries, e.2.nesting < Json.nestingLimit ∧
      ∀ n ∈ e.2.numbers, n.reread?.isSome = true ∧ (autoReload = false → n.IsSteady)
  := by
  rw [((sound_start missing).makeAll? made).reopens_iff_exists again]
  constructor
  · rintro ⟨found, read, same⟩ e e_mem
    obtain ⟨nesting_le, numbers_read⟩ := Json.isSome_rereadMap?_iff.mp
      (Option.isSome_iff_exists.mpr ⟨found, read⟩) e e_mem
    refine ⟨Nat.lt_of_le_pred (by decide) nesting_le, ?_⟩
    intro n n_mem
    refine ⟨numbers_read n n_mem, ?_⟩
    intro reload
    apply (finding_reread_iff read).mp (same reload) e e_mem n n_mem
  · intro all
    have read_all : (Json.rereadMap? (Json.nestingLimit - 1) s.saved).isSome = true := by
      apply Json.isSome_rereadMap?_iff.mpr
      intro e e_mem
      obtain ⟨nesting_lt, numbers⟩ := all e e_mem
      exact ⟨Nat.le_pred_of_lt nesting_lt, fun n n_mem => (numbers n n_mem).1⟩
    obtain ⟨found, read⟩ := Option.isSome_iff_exists.mp read_all
    refine ⟨found, read, ?_⟩
    intro reload
    apply (finding_reread_iff read).mpr
    intro e e_mem n n_mem
    apply ((all e e_mem).2 n n_mem).2 reload

/-- A host without files. -/
def bareHost : Host :=
  ⟨.empty, .empty⟩

/-- A store with an array of a number is opened again as it was. -/
theorem reopens_array :
  ∃ s, (start "s.json" false bareHost).makeAll? [.set "a" "[1]", .delete "b"] = some s ∧
    s.Reopens "s.json" true
  := by
  have all : ((start "s.json" false bareHost).makeAll? [.set "a" "[1]", .delete "b"]).any
      (fun s => decide (∀ e ∈ s.saved.entries, e.2.nesting < Json.nestingLimit ∧
        ∀ n ∈ e.2.numbers, n.reread?.isSome = true ∧ (false = false → n.IsSteady))) = true := by
    decide +kernel
  obtain ⟨s, made, all⟩ := (Option.any_eq_true _ _).mp all
  have missing : (opened "s.json" false).IsMissing bareHost.files :=
    ⟨_, rfl, by decide +kernel⟩
  exact ⟨s, made, (reopens_iff true missing made).mpr (of_decide_eq_true all)⟩

/-- An array in an array and so on. -/
def nestedArrays : Nat → Json
  | 0 => .array []
  | n + 1 => .array [nestedArrays n]

/-- Nested arrays are read back if they are not too many. -/
theorem reread?_nestedArrays {depth n : Nat} :
  Json.reread? depth (nestedArrays n) = if n < depth then some (nestedArrays n) else none
  := by
  induction n generalizing depth with
  | zero => cases depth <;> rfl
  | succ n ih =>
    cases depth with
    | zero => rfl
    | succ depth =>
      simp only [nestedArrays, Json.reread?, Json.rereadItems?, ih]
      split <;> simp_all

/-- There are no members in nested arrays. -/
theorem sorted_nestedArrays (n : Nat) :
  (nestedArrays n).Sorted
  := by
  induction n with
  | zero => exact .array [] (by simp)
  | succ n ih => exact .array _ (by simpa using ih)

/-- What a store accepts can be lost when its path is opened again: a value nests as deeply as may
be read alone, and is then one of those in a file. -/
theorem not_forall_reopens :
  ¬ ∀ (path : String) (autoReload again : Bool) (host : Host) (changes : List Change) (s : Session),
    (opened path autoReload).IsMissing host.files →
      (start path autoReload host).makeAll? changes = some s → s.Reopens path again
  := by
  intro reopens
  have missing : (opened "s.json" false).IsMissing bareHost.files :=
    ⟨_, rfl, by decide +kernel⟩
  have succeeds : ((start "s.json" false bareHost).make?
      (.set "a" (nestedArrays (Json.nestingLimit - 1)).compact)).isSome = true := by
    decide +kernel
  obtain ⟨s, made⟩ := Option.isSome_iff_exists.mp succeeds
  have made_all : (start "s.json" false bareHost).makeAll?
      [.set "a" (nestedArrays (Json.nestingLimit - 1)).compact] = some s := by
    rw [makeAll?, List.foldlM_cons, made]
    rfl
  have sound := (sound_start missing).make? made
  obtain ⟨found, read, -⟩ :=
    (sound.reopens_iff_exists false).mp (reopens _ _ _ _ _ _ missing made_all)
  obtain ⟨next, -, ⟨idle, -⟩ | ⟨entries, _, _, applied, -, -, rfl⟩⟩ := of_make? made
  · cases idle
  · cases applied
    have inserted := next.entries.find?_insert_self "a"
      (valueOf (nestedArrays (Json.nestingLimit - 1)).compact)
    obtain ⟨e, e_mem, e_eq⟩ := Assoc.exists_mem_of_find? inserted
    have read_e := Json.isSome_of_rereadMap? read e e_mem
    have alone : Json.reread? Json.nestingLimit (nestedArrays (Json.nestingLimit - 1)) = some _ :=
      reread?_nestedArrays.trans (if_pos (by decide))
    rw [e_eq, valueOf_compact (sorted_nestedArrays _) alone, reread?_nestedArrays] at read_e
    cases read_e

end Session

end Tariff
