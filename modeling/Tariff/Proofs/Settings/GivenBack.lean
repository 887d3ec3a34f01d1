import Tariff.Proofs.Json.RereadNumbers
import Tariff.Proofs.Settings.Flattening
import Tariff.Proofs.Settings.Reopening
import Tariff.Settings.Store

/-!
# What stores give back

A text that is set in layers lands in the first store that can be written.  A store in memory gives
it back as it is; a store in a file gives the text of the value that it is read as, and if the store
reloads then of the value that this is read back as.  Whatever else the file holds has been read, so
that it is read back as well and the store loads.
-/

namespace Tariff

/-- How a store keeps what is set. -/
inductive Keeping where
  /-- As a text, in memory. -/
  | text
  /-- As the value that the text is read as. -/
  | value
  /-- As that value, read back from a file. -/
  | reloaded
deriving DecidableEq

namespace Keeping

/-- The value of a text that is set; a text that is kept as it is counts as a string. -/
def valueOf : Keeping → String → Json
  | .text, raw => .string raw
  | _, raw => SettingsFile.valueOf raw

/-- A value after the store has been changed. -/
def kept : Keeping → Json → Json
  | .reloaded, v => (Json.reread? (Json.nestingLimit - 1) v).getD v
  | _, v => v

/-- A value can be loaded again once it has been saved. -/
def Keeps : Keeping → Json → Prop
  | .reloaded, v => (Json.reread? (Json.nestingLimit - 1) v).isSome = true
  | _, _ => True

/-- The text that is given back for one that has been set. -/
def givenBack (keeping : Keeping) (raw : String) : String :=
  SettingsFile.valueText (keeping.kept (keeping.valueOf raw))

/-- How often a value is read from its text before it is given back. -/
def rereadings : Keeping → Nat
  | .text => 0
  | .value => 1
  | .reloaded => 2

/-! ### Texts of values -/

variable {keeping : Keeping} {v v' v'' : Json}

/-- The text of a value is kept as it is, or as what the value is read back as. -/
theorem valueOf_compact (sorted : v.Sorted) (first : Json.RereadAs v v') :
  keeping.valueOf v.compact = if keeping = .text then .string v.compact else v'
  := by
  have read : SettingsFile.valueOf v.compact = v' :=
    SettingsFile.valueOf_compact sorted (first _ (by decide))
  cases keeping with
  | text => rfl
  | value => exact read
  | reloaded => exact read

/-- The text of a value that is read back twice can be loaded again. -/
theorem keeps_compact (sorted : v.Sorted) (first : Json.RereadAs v v')
    (second : Json.RereadAs v' v'') :
  keeping.Keeps (keeping.valueOf v.compact)
  := by
  rw [valueOf_compact sorted first]
  cases keeping with
  | text => trivial
  | value => trivial
  | reloaded => exact Option.isSome_of_eq_some (second _ (by decide))

/-- The text of a value is given back as it is, or as the text of what the value is read back
as. -/
theorem givenBack_compact (sorted : v.Sorted) (first : Json.RereadAs v v')
    (second : Json.RereadAs v' v'') :
  keeping.givenBack v.compact =
    match keeping with
    | .text => v.compact
    | .value => SettingsFile.valueText v'
    | .reloaded => SettingsFile.valueText v''
  := by
  rw [givenBack, valueOf_compact sorted first]
  cases keeping with
  | text => rfl
  | value => rfl
  | reloaded =>
    rw [if_neg (by decide), kept, second _ (by decide)]
    rfl

/-- The text of a value that is read back as it is, is given back as it is if the value is no
string. -/
theorem givenBack_steady (sorted : v.Sorted) (steady : Json.RereadAs v v)
    (no_string : v.string? = none) :
  keeping.givenBack v.compact = v.compact
  := by
  have text_eq : SettingsFile.valueText v = v.compact := by
    cases v with
    | string s => cases no_string
    | _ => rfl
  rw [givenBack_compact sorted steady steady]
  cases keeping with
  | text => rfl
  | value => exact text_eq
  | reloaded => exact text_eq

/-- The text of a string is given back with quotes only by a store in memory. -/
theorem givenBack_string (s : String) :
  keeping.givenBack (Json.string s).compact =
    if keeping = .text then (Json.string s).compact else s
  := by
  rw [givenBack_compact (.string s) (Json.rereadAs_string s) (Json.rereadAs_string s)]
  cases keeping <;> rfl

/-- The digits of a finite number are given back as those of what it is read back as. -/
theorem givenBack_real {x : Binary64} (finite : x.isFinite = true) :
  keeping.givenBack (Json.number (.real x)).compact =
    (Json.Number.real (Json.rereadReal^[keeping.rereadings] x)).toText
  := by
  rw [givenBack_compact (.number _) (Json.rereadAs_real finite)
    (Json.rereadAs_real (Json.isFinite_rereadReal finite))]
  cases keeping <;> rfl

/-- Numbers stay finite however often they are read back. -/
theorem isFinite_rereadings {x : Binary64} (finite : x.isFinite = true) (count : Nat) :
  (Json.rereadReal^[count] x).isFinite = true
  := by
  induction count generalizing x with
  | zero => exact finite
  | succ count ih => exact ih (Json.isFinite_rereadReal finite)

end Keeping

namespace SettingsFile

variable {store store' : SettingsFile} {host host' : Host} {key raw : String}
  {entries : SortedMap String Json}

/-! ### Files -/

/-- How a store in a file keeps what is set. -/
def keeping (store : SettingsFile) : Keeping :=
  if store.autoReload then .reloaded else .value

/-- What has been set is saved among the entries that were loaded. -/
theorem of_set (set : store.set key raw host = ⟨.ok (), store', host'⟩) :
  ∃ entries, store.view host.files = .ok entries ∧
    store' = { store with cached := some (entries.insert key (valueOf raw)) } ∧
    host'.environment = host.environment ∧
    Holds host'.files store.path (entries.insert key (valueOf raw))
  := by
  have made : (Session.mk store host .empty).make? (.set key raw) =
      some ⟨store', host', ((Session.mk store host .empty).saves? (.set key raw)).getD .empty⟩ := by
    simp only [Session.make?, change, set]
  obtain ⟨next, loaded, ⟨idle, -⟩ | ⟨saved, files, p, applied, parsed, file_saved, made_eq⟩⟩ :=
    Session.of_make? made
  · cases idle
  · obtain ⟨path_eq, autoReload_eq, -⟩ := of_loaded loaded
    cases applied
    simp only [Session.mk.injEq] at made_eq
    obtain ⟨rfl, rfl, -⟩ := made_eq
    refine ⟨next.entries, view_of_loaded loaded, ?_, rfl, ?_⟩
    · rw [path_eq, autoReload_eq]
    · exact ⟨p, path_eq ▸ parsed, .inr (FileAction.node_of_save file_saved)⟩

/-- Values that have been read back are found as they are kept. -/
theorem find?_of_read_back {saved found : SortedMap String Json}
    (read : Json.rereadMap? (Json.nestingLimit - 1) saved = some found) (key : String) :
  found.find? key = (saved.find? key).map Keeping.reloaded.kept
  := by
  rw [Json.find?_of_rereadMap? read]
  cases there : saved.find? key with
  | none => rfl
  | some w =>
    obtain ⟨e, e_mem, rfl⟩ := Assoc.exists_mem_of_find? there
    obtain ⟨w', read_w⟩ := Option.isSome_iff_exists.mp (Json.isSome_of_rereadMap? read e e_mem)
    rw [Option.bind_some, Option.map_some, Keeping.kept, read_w, Option.getD_some]

/-- Values that can all be read back are read back when they are saved, each as it is kept. -/
theorem exists_rereadMap {saved : SortedMap String Json}
    (all_read : ∀ e ∈ saved.entries, (Json.reread? (Json.nestingLimit - 1) e.2).isSome = true) :
  ∃ found, Json.rereadMap? (Json.nestingLimit - 1) saved = some found ∧
    ∀ key', found.find? key' = (saved.find? key').map Keeping.reloaded.kept
  := by
  obtain ⟨found, read⟩ := Option.isSome_iff_exists.mp
    (Json.isSome_rereadMap?_iff_forall.mpr all_read)
  exact ⟨found, read, find?_of_read_back read⟩

/-- Values that have been loaded from a file can be read back. -/
theorem readsBack_of_entriesIn {files : Files} {path : String}
    (loaded : entriesIn files path = .ok entries) :
  ∀ e ∈ entries.entries, e.2.Sorted ∧ (Json.reread? (Json.nestingLimit - 1) e.2).isSome = true
  := by
  intro e e_mem
  exact ⟨sorted_of_entriesIn loaded e e_mem, forall_of_entriesIn
    (Json.Reader.yields_members_of (Json.Reader.yields_isSome_reread _)) loaded e e_mem⟩

/-- A store that has saved its entries answers from them, each as it is kept. -/
theorem view_of_saved (store : SettingsFile) {files : Files} {saved : SortedMap String Json}
    (cached : store.cached = some saved) (holds : Holds files store.path saved)
    (reads : store.autoReload = true → ∀ e ∈ saved.entries,
      e.2.Sorted ∧ (Json.reread? (Json.nestingLimit - 1) e.2).isSome = true) :
  ∃ found, store.view files = .ok found ∧
    ∀ key', found.find? key' = (saved.find? key').map store.keeping.kept
  := by
  unfold keeping
  cases reload : store.autoReload with
  | false =>
    have same : Keeping.value.kept = id := rfl
    refine ⟨saved, view_of_cached reload cached, ?_⟩
    intro key'
    rw [if_neg Bool.false_ne_true, same, Option.map_id, id]
  | true =>
    obtain ⟨found, read, find_eq⟩ := exists_rereadMap fun e e_mem => (reads reload e e_mem).2
    refine ⟨found, (view_of_autoReload reload).trans ?_, find_eq⟩
    exact (entriesIn_eq_ok_iff holds fun e e_mem => (reads reload e e_mem).1).mpr read

/-- After a text has been set a store answers from the entries with its value, each as it is
kept. -/
theorem view_of_set (set : store.set key raw host = ⟨.ok (), store', host'⟩)
    (keeps : store.keeping.Keeps (valueOf raw)) :
  ∃ entries entries', store.view host.files = .ok entries ∧ store'.view host'.files = .ok entries' ∧
    ∀ key', entries'.find? key' =
      ((entries.insert key (valueOf raw)).find? key').map store.keeping.kept
  := by
  obtain ⟨entries, view_eq, rfl, -, holds⟩ := of_set set
  refine ⟨entries, ?_⟩
  obtain ⟨found, found_eq, find_eq⟩ :=
    view_of_saved { store with cached := some (entries.insert key (valueOf raw)) } rfl holds <| by
      intro reload e e_mem
      change store.autoReload = true at reload
      rcases (Assoc.eq_or_mem_of_mem_insert e_mem).2 with eq | e_mem
      · rw [keeping, reload, if_pos rfl] at keeps
        rw [eq]
        exact ⟨sorted_valueOf raw, keeps⟩
      · rw [view_of_autoReload reload] at view_eq
        exact readsBack_of_entriesIn view_eq e e_mem
  exact ⟨found, view_eq, found_eq, find_eq⟩

/-- A key is read from the entries that the store answers from, and the store goes on to answer
from them. -/
theorem get_eq (view_eq : store.view host.files = .ok entries) (key : String) :
  ∃ next, store.get key host = ⟨.ok ((entries.find? key).map valueText), next, host⟩ ∧
    next.view host.files = .ok entries ∧ next.keeping = store.keeping
  := by
  cases loaded : store.loaded host.files with
  | error e =>
    rw [view, loaded] at view_eq
    cases view_eq
  | ok next =>
    obtain rfl := Except.ok.inj ((view_of_loaded loaded).symm.trans view_eq)
    refine ⟨next, ?_, view_loaded loaded, ?_⟩
    · simp only [get, withLoaded, loaded]
    · rw [keeping, keeping, (of_loaded loaded).2.1]

end SettingsFile

namespace BasicStore

variable {store store' : BasicStore} {host host' : Host} {key raw : String} {keeping : Keeping}
  {values : String → Option Json}

/-! ### Basic stores -/

/-- How a store keeps what is set, if it can be written. -/
def keeping? : BasicStore → Option Keeping
  | .memory _ _ => some .text
  | .environment _ => none
  | .file store => some store.keeping

/-- The values that a store that can be written answers from. -/
def contents (store : BasicStore) (host : Host) : Except StoreError (String → Option Json) :=
  match store with
  | .memory _ entries => .ok fun key => (entries.find? key).map .string
  | .environment start => .error (.readOnly start)
  | .file store => (store.view host.files).map fun entries key => entries.find? key

/-- A store that has been set answered before. -/
theorem exists_contents_of_set (set : store.set key raw host = ⟨.ok (), store', host'⟩) :
  ∃ values, store.contents host = .ok values
  := by
  cases store with
  | memory name entries => exact ⟨_, rfl⟩
  | environment start => cases set
  | file file =>
    rcases set_file : file.set key raw host with ⟨answer, file', host''⟩
    simp only [BasicStore.set, set_file, Reply.mapStore, Reply.mk.injEq] at set
    obtain ⟨rfl, -, -⟩ := set
    obtain ⟨entries, view_eq, -⟩ := SettingsFile.of_set set_file
    refine ⟨fun key' => entries.find? key', ?_⟩
    rw [contents, view_eq]
    rfl

/-- After a text has been set a store answers from the values with its value, each as it is
kept. -/
theorem contents_of_set (set : store.set key raw host = ⟨.ok (), store', host'⟩)
    (writable : store.keeping? = some keeping) (contents_eq : store.contents host = .ok values)
    (keeps : keeping.Keeps (keeping.valueOf raw)) :
  store'.keeping? = some keeping ∧ host'.environment = host.environment ∧
    store'.contents host' = .ok fun key' =>
      (if key' = key then some (keeping.valueOf raw) else values key').map keeping.kept
  := by
  cases store with
  | memory name entries =>
    cases writable
    obtain rfl := Except.ok.inj contents_eq
    simp only [BasicStore.set, Reply.mk.injEq] at set
    obtain ⟨-, rfl, rfl⟩ := set
    have kept_eq : Keeping.text.kept = id := rfl
    refine ⟨rfl, rfl, ?_⟩
    rw [contents]
    congr 1
    funext key'
    rw [SortedMap.find?_insert, kept_eq, Option.map_id, id]
    simp only [Std.LawfulEqCmp.compare_eq_iff_eq]
    split <;> rfl
  | environment start => cases writable
  | file file =>
    obtain rfl := Option.some.inj writable
    rcases set_file : file.set key raw host with ⟨answer, file', host''⟩
    simp only [BasicStore.set, set_file, Reply.mapStore, Reply.mk.injEq] at set
    obtain ⟨rfl, rfl, rfl⟩ := set
    have valueOf_eq : file.keeping.valueOf raw = SettingsFile.valueOf raw := by
      unfold SettingsFile.keeping
      split <;> rfl
    rw [valueOf_eq] at keeps ⊢
    obtain ⟨_, _, same_store, same_environment, _⟩ := SettingsFile.of_set set_file
    obtain ⟨entries, entries', view_eq, view_eq', find_eq⟩ := SettingsFile.view_of_set set_file keeps
    rw [contents, view_eq] at contents_eq
    obtain rfl := Except.ok.inj contents_eq
    refine ⟨?_, same_environment, ?_⟩
    · rw [same_store]
      rfl
    · rw [contents, view_eq']
      apply congrArg Except.ok
      funext key'
      dsimp only
      rw [find_eq, SortedMap.find?_insert]
      simp only [Std.LawfulEqCmp.compare_eq_iff_eq]

/-- A key is read from the values that a store answers from, and the store goes on to answer from
them. -/
theorem get_eq (writable : store.keeping? = some keeping)
    (contents_eq : store.contents host = .ok values) (key : String) :
  ∃ next, store.get key host = ⟨.ok ((values key).map SettingsFile.valueText), next, host⟩ ∧
    next.keeping? = some keeping ∧ next.contents host = .ok values
  := by
  cases store with
  | memory name entries =>
    obtain rfl := Except.ok.inj contents_eq
    refine ⟨.memory name entries, ?_, writable, rfl⟩
    have text_eq : SettingsFile.valueText ∘ Json.string = id := rfl
    rw [BasicStore.get, Option.map_map, text_eq, Option.map_id, id]
  | environment start => cases writable
  | file file =>
    cases view_eq : file.view host.files with
    | error e =>
      rw [contents, view_eq] at contents_eq
      cases contents_eq
    | ok entries =>
      rw [contents, view_eq] at contents_eq
      obtain rfl := Except.ok.inj contents_eq
      obtain ⟨next, get_eq, view_next, keeping_next⟩ := SettingsFile.get_eq view_eq key
      refine ⟨.file next, ?_, ?_, ?_⟩
      · rw [BasicStore.get, get_eq]
        rfl
      · rw [← writable, keeping?, keeping?, keeping_next]
      · rw [contents, view_next]
        rfl

end BasicStore

end Tariff
