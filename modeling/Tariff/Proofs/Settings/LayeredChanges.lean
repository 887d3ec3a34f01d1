import Tariff.Proofs.Settings.OwnFiles

/-!
# Changes to layers

What is set in layers lands in the first store that can be written, and what is removed is removed
from every store that can be written.  The main statement says that nothing else changes: no other
value of any store, nor what the layers give for another key.
-/

namespace Tariff

namespace Keeping

variable {keeping : Keeping}

/-- Unless it is read back, a value is kept as it is. -/
theorem kept_of_ne (ne : keeping ≠ .reloaded) :
  keeping.kept = id
  := by
  cases keeping with
  | reloaded => exact absurd rfl ne
  | _ => rfl

/-- Unless it is read back, every value keeps. -/
theorem keeps_of_ne (ne : keeping ≠ .reloaded) (v : Json) :
  keeping.Keeps v
  := by
  cases keeping with
  | reloaded => exact absurd rfl ne
  | _ => trivial

end Keeping

namespace SettingsFile

/-- Removing a key does not fail for what can only be read. -/
theorem delete_ne_readOnly (store : SettingsFile) (key : String) (host : Host) (name : String) :
  (store.delete key host).answer ≠ .error (.readOnly name)
  := by
  apply withLoaded_ne_readOnly
  intro next
  split
  case h_1 => nofun
  case h_2 =>
    intro refused
    rcases saved : (next.save (next.entries.erase key) host).answer with e | _
    · simp only [Reply.map, saved] at refused
      cases refused
      exact next.save_ne_readOnly _ host name saved
    · simp only [Reply.map, saved] at refused
      cases refused

end SettingsFile

namespace BasicStore

variable {store store' s s' : BasicStore} {host mid host' : Host} {key key' raw : String}
  {keeping : Keeping} {value? : Keeping → Option Json} {there : Bool}

/-! ### Values that change -/

/-- A store that can be written finds the texts of its values. -/
theorem found_of_keeping (writable : store.keeping? = some keeping) (key : String) :
  store.found host key =
    (store.contents host).map fun values => (values key).map SettingsFile.valueText
  := by
  cases store with
  | memory name entries =>
    have text_eq : SettingsFile.valueText ∘ Json.string = id := rfl
    change Except.ok (entries.find? key) =
      Except.ok (((entries.find? key).map Json.string).map SettingsFile.valueText)
    rw [Option.map_map, text_eq, Option.map_id, id]
  | environment start => cases writable
  | file file =>
    rw [found_file, contents]
    cases file.view host.files <;> rfl

/-- A store that cannot be written finds what the environment gives. -/
theorem found_of_readOnly (readOnly : store.keeping? = none)
    (same_environment : host'.environment = host.environment) (key : String) :
  store.found host' key = store.found host key
  := by
  rw [found, get_of_readOnly readOnly same_environment, found]

/-- A store has a value for a key. -/
def Holds (host : Host) (key : String) (store : BasicStore) : Prop :=
  ∃ values, store.contents host = .ok values ∧ (values key).isSome

/-- A store that cannot be written has no values. -/
theorem not_holds_of_readOnly (readOnly : store.keeping? = none) :
  ¬ store.Holds host key
  := by
  cases store with
  | environment start =>
    rintro ⟨values, contents_eq, -⟩
    cases contents_eq
  | memory name entries => cases readOnly
  | file file => cases readOnly

/-- The value of a key has changed in a store that can be written, and no other value has. -/
def Becomes (key : String) (value? : Keeping → Option Json) (host host' : Host)
    (s s' : BasicStore) : Prop :=
  ∃ keeping values, s.keeping? = some keeping ∧ s'.keeping? = some keeping ∧
    s.contents host = .ok values ∧
    s'.contents host' = .ok (Function.update values key (value? keeping))

/-- The text of the new value is found. -/
theorem Becomes.found_self (becomes : Becomes key value? host host' s s') :
  ∃ keeping, s.keeping? = some keeping ∧
    s'.found host' key = .ok ((value? keeping).map SettingsFile.valueText)
  := by
  obtain ⟨keeping, values, writable, writable', -, contents_eq⟩ := becomes
  refine ⟨keeping, writable, ?_⟩
  rw [found_of_keeping writable', contents_eq]
  change Except.ok ((Function.update values key (value? keeping) key).map _) = _
  rw [Function.update_self]

/-- For another key the same is found. -/
theorem Becomes.found_ne (becomes : Becomes key value? host host' s s') (ne : key' ≠ key) :
  s'.found host' key' = s.found host key'
  := by
  obtain ⟨keeping, values, writable, writable', contents_eq, contents_eq'⟩ := becomes
  rw [found_of_keeping writable', found_of_keeping writable, contents_eq, contents_eq']
  change Except.ok ((Function.update values key (value? keeping) key').map _) = _
  rw [Function.update_of_ne ne]
  rfl

/-! ### Setting -/

/-- A store that keeps the entries it has read does not read values back. -/
theorem IsStatic.keeping_ne (static : store.IsStatic) (writable : store.keeping? = some keeping) :
  keeping ≠ .reloaded
  := by
  cases store with
  | memory name entries =>
    cases writable
    decide
  | environment start => cases writable
  | file file =>
    have not_reload : file.autoReload = false := static
    obtain rfl := Option.some.inj writable
    rw [SettingsFile.keeping, not_reload]
    decide

/-- Setting a key changes its value and no other. -/
theorem becomes_of_set (static : store.IsStatic)
    (set : store.set key raw host = ⟨.ok (), store', host'⟩) :
  Becomes key (fun keeping => some (keeping.valueOf raw)) host host' store store'
  := by
  obtain ⟨keeping, writable⟩ := Option.isSome_iff_exists.mp (isSome_keeping?_of_set set)
  obtain ⟨values, contents_eq⟩ := exists_contents_of_set set
  have ne := static.keeping_ne writable
  obtain ⟨writable', -, contents_eq'⟩ :=
    contents_of_set set writable contents_eq (Keeping.keeps_of_ne ne _)
  refine ⟨keeping, values, writable, writable', contents_eq, ?_⟩
  rw [contents_eq', Keeping.kept_of_ne ne]
  congr 1
  funext key'
  rw [Option.map_id, id, Function.update_apply]

/-- Setting a key changes nothing but the file at the store's path and the way to it. -/
theorem growsAt_set (store : BasicStore) (key raw : String) (host : Host) :
  host.GrowsAt store.path? (store.set key raw host).host
  := by
  cases store with
  | memory name entries => exact .refl host
  | environment start => exact .refl host
  | file file => exact file.growsAt_set key raw host

/-! ### Removing -/

/-- Removing a key changes nothing but the file at the store's path and the way to it. -/
theorem growsAt_delete (store : BasicStore) (key : String) (host : Host) :
  host.GrowsAt store.path? (store.delete key host).host
  := by
  cases store with
  | memory name entries => exact .refl host
  | environment start => exact .refl host
  | file file => exact file.growsAt_delete key host

/-- A store as it is once a key has been removed, if it can be written. -/
def Removed (key : String) (host host' : Host) (s s' : BasicStore) : Prop :=
  (s.keeping? = none ∧ s' = s) ∨ Becomes key (fun _ => none) host host' s s'

/-- Removing a key from a store that can be written changes its value and no other, and nothing comes
to be where nothing was. -/
theorem of_delete (static : store.IsStatic) (hasFile : store.HasFile host key)
    (deleted : store.delete key host = ⟨.ok there, store', host'⟩) :
  (there = true ↔ store.Holds host key) ∧
    (∀ later, Becomes key (fun _ => none) host later store store') ∧
    ∀ path, host.files.node path = .error .notFound → host'.files.node path = .error .notFound
  := by
  cases store with
  | memory name entries =>
    simp only [BasicStore.delete, Reply.mk.injEq, Except.ok.injEq] at deleted
    obtain ⟨rfl, rfl, rfl⟩ := deleted
    refine ⟨?_, fun _ => ⟨.text, _, rfl, rfl, rfl, ?_⟩, fun _ missing => missing⟩
    · simp [Holds, contents]
    · rw [contents]
      congr 1
      funext key'
      rw [SortedMap.find?_erase, Function.update_apply]
      simp only [Std.LawfulEqCmp.compare_eq_iff_eq]
      split <;> rfl
  | environment start => cases deleted
  | file file =>
    rcases delete_file : file.delete key host with ⟨answer, file', host''⟩
    simp only [BasicStore.delete, delete_file, Reply.mapStore, Reply.mk.injEq] at deleted
    obtain ⟨rfl, rfl, rfl⟩ := deleted
    obtain ⟨entries, entries', view_eq, there_eq, rfl, find_eq, steady⟩ :=
      SettingsFile.of_delete static hasFile delete_file
    have contents_eq : (BasicStore.file file).contents host = .ok fun key => entries.find? key := by
      rw [contents, view_eq]
      rfl
    refine ⟨?_, fun later => ⟨file.keeping, _, rfl, rfl, contents_eq, ?_⟩, steady⟩
    · rw [there_eq, Holds, contents_eq]
      simp
    · have view_eq' : SettingsFile.view { file with cached := some entries' } later.files =
          .ok entries' := SettingsFile.view_of_cached static rfl
      rw [contents, view_eq']
      apply congrArg Except.ok
      funext key'
      dsimp only
      rw [find_eq, Function.update_apply]

/-- A store that cannot be written refuses to remove a key. -/
theorem delete_of_readOnly (readOnly : store.keeping? = none) (key : String) (host : Host) :
  store.delete key host = ⟨.error environmentReadOnly, store, host⟩
  := by
  cases store with
  | environment start => rfl
  | memory name entries => cases readOnly
  | file file => cases readOnly

/-- A store that refuses to remove a key because it is read-only cannot be written. -/
theorem keeping?_of_delete_readOnly {name : String}
    (refused : (store.delete key host).answer = .error (.readOnly name)) :
  store.keeping? = none
  := by
  cases store with
  | environment start => rfl
  | memory name entries => cases refused
  | file file => exact absurd refused (file.delete_ne_readOnly key host name)

/-- A store that others follow when a key is removed says whether it was there, and has it no
longer. -/
theorem removed_of_next {f : Except StoreError Bool → Except StoreError Bool}
    (static : s.IsStatic) (hasFile : s.HasFile host key)
    (next : Layered.deleteSweep.next (s.delete key host).answer = some f) :
  ∃ there, f = Except.map (there || ·) ∧ (there = true ↔ s.Holds host key) ∧
    (∀ later, Removed key host later s (s.delete key host).store) ∧
    ∀ path, host.files.node path = .error .notFound →
      (s.delete key host).host.files.node path = .error .notFound
  := by
  rcases deleted : s.delete key host with ⟨answer, s', mid⟩
  rw [deleted] at next
  simp only [Layered.deleteSweep] at next
  split at next
  case h_1 there =>
    obtain ⟨there_iff, becomes, steady⟩ := of_delete static hasFile deleted
    exact ⟨there, (Option.some.inj next).symm, there_iff, fun later => .inr (becomes later), steady⟩
  case h_2 name =>
    have readOnly := keeping?_of_delete_readOnly (congrArg (·.answer) deleted)
    rw [delete_of_readOnly readOnly] at deleted
    cases deleted
    refine ⟨false, ?_, ?_, fun _ => .inl ⟨readOnly, rfl⟩, fun _ missing => missing⟩
    · rw [← Option.some.inj next]
      exact Except.map_id.symm
    · exact (iff_false_left Bool.false_ne_true).mpr (not_holds_of_readOnly readOnly)
  case h_3 => cases next

/-- What others do leaves the file of a store there if they do not write it. -/
theorem HasFile.of_grows {written made : Place → Prop} (hasFile : s.HasFile host key)
    (grows : host.Grows written made mid) (unwritten : ∀ path ∈ s.path?, ¬ written path.place) :
  s.HasFile mid key
  := by
  cases s with
  | memory name entries => trivial
  | environment start => trivial
  | file file =>
    intro found
    obtain ⟨path, content, path_eq, there⟩ := hasFile found
    refine ⟨path, content, path_eq, ?_⟩
    rw [grows.files.node_eq (there ▸ nofun) (unwritten path path_eq), there]

/-- A store whose file was missing misses it where nothing comes to be where nothing was. -/
theorem IsMissing.of_steady (missing : s.IsMissing host)
    (steady : ∀ path, host.files.node path = .error .notFound →
      host'.files.node path = .error .notFound) :
  s.IsMissing host'
  := by
  cases s with
  | memory name entries => cases missing
  | environment start => cases missing
  | file file =>
    obtain ⟨unread, path, parsed, nothing⟩ := missing
    rw [Files.isThere_eq_false_iff] at nothing
    exact ⟨unread, path, parsed, Files.isThere_eq_false_iff.mpr (steady path nothing)⟩

/-- For another key the same is found as before. -/
theorem Removed.found_ne (removed : Removed key host host' s s')
    (same_environment : host'.environment = host.environment) (ne : key' ≠ key) :
  s'.found host' key' = s.found host key'
  := by
  rcases removed with ⟨readOnly, rfl⟩ | becomes
  · exact found_of_readOnly readOnly same_environment key'
  · exact becomes.found_ne ne

/-- Nothing is found for the key unless the store cannot be written and has it. -/
theorem Removed.found_self (removed : Removed key host host' s s')
    (same_environment : host'.environment = host.environment)
    (uncovered : s.keeping? = none → s.found host key = .ok none) :
  s'.found host' key = .ok none
  := by
  rcases removed with ⟨readOnly, rfl⟩ | becomes
  · rw [found_of_readOnly readOnly same_environment, uncovered readOnly]
  · obtain ⟨keeping, -, found_eq⟩ := becomes.found_self
    rw [found_eq, Option.map_none]

/-- What becomes of a store does not depend on what others did before to the host. -/
theorem Removed.of_unchanged (removed : Removed key mid host' s s') (unchanged : s.Unchanged host mid) :
  Removed key host host' s s'
  := by
  apply removed.imp_right
  rintro ⟨keeping, values, writable, writable', contents_eq, contents_eq'⟩
  exact ⟨keeping, values, writable, writable', unchanged.contents_eq.symm.trans contents_eq,
    contents_eq'⟩

/-- Stores that are apart from one that is changed answer as before and have their files, if nothing
comes to be where nothing was. -/
theorem others_of_steady {stores : List BasicStore} (static : ∀ t ∈ stores, t.IsStatic)
    (apart : ∀ t ∈ stores, s.Apart t) (hasFile : ∀ t ∈ stores, t.HasFile host key)
    (grows : host.GrowsAt s.path? mid)
    (steady : ∀ path, host.files.node path = .error .notFound →
      mid.files.node path = .error .notFound) :
  ∀ t ∈ stores, t.Unchanged host mid ∧ t.HasFile mid key
  := by
  intro t t_mem
  constructor
  · apply unchanged_of_apart (apart t t_mem) grows
    rw [lacksFile_iff (static t t_mem), lacksFile_iff (static t t_mem)]
    intro missing
    exact missing.of_steady steady
  · exact (hasFile t t_mem).of_grows grows (apart t t_mem).unwritten

/-- A key is removed from each of several stores that can be written, and nothing else changes. -/
theorem removed_of_run {stores stores' : List BasicStore} (static : ∀ s ∈ stores, s.IsStatic)
    (apart : stores.Pairwise Apart) (hasFile : ∀ s ∈ stores, s.HasFile host key)
    (run_eq : Layered.deleteSweep.run (BasicStore.delete key) host stores =
      ⟨.ok there, stores', host'⟩) :
  host'.environment = host.environment ∧ (there = true ↔ ∃ s ∈ stores, s.Holds host key) ∧
    List.Forall₂ (Removed key host host') stores stores'
  := by
  induction stores generalizing host there stores' with
  | nil =>
    cases run_eq
    exact ⟨rfl, by simp, .nil⟩
  | cons s stores ih =>
    obtain ⟨static_s, static_stores⟩ := List.forall_mem_cons.mp static
    obtain ⟨apart_s, apart_stores⟩ := List.pairwise_cons.mp apart
    obtain ⟨hasFile_s, hasFile_stores⟩ := List.forall_mem_cons.mp hasFile
    rw [Sweep.run] at run_eq
    dsimp only at run_eq
    cases next : Layered.deleteSweep.next (s.delete key host).answer with
    | none =>
      rw [next] at run_eq
      obtain ⟨answer_eq, -, -⟩ := (Reply.mk.injEq ..).mp run_eq
      rw [answer_eq] at next
      cases next
    | some f =>
      obtain ⟨there_s, rfl, there_s_iff, removed_s, steady⟩ :=
        removed_of_next static_s hasFile_s next
      have grows := s.growsAt_delete key host
      rw [next] at run_eq
      generalize s.delete key host = reply at run_eq removed_s steady grows
      obtain ⟨answer, s', mid⟩ := reply
      dsimp only at run_eq removed_s steady grows
      rcases others : Layered.deleteSweep.run (BasicStore.delete key) mid stores with
        ⟨answer', stores'', host''⟩
      rw [others] at run_eq
      dsimp only at run_eq
      obtain ⟨answer_eq, rfl, rfl⟩ := (Reply.mk.injEq ..).mp run_eq
      obtain ⟨there', rfl, rfl⟩ := Except.map_eq_ok.mp answer_eq
      obtain ⟨unchanged, hasFile_mid⟩ := forall₂_and.mp
        (others_of_steady static_stores apart_s hasFile_stores grows steady)
      obtain ⟨environment_eq, there_iff, removed⟩ := ih static_stores apart_stores hasFile_mid others
      refine ⟨environment_eq.trans grows.environment_eq, ?_, .cons (removed_s _) ?_⟩
      · rw [Bool.or_eq_true, there_s_iff, there_iff, List.exists_mem_cons_iff]
        apply or_congr_right
        apply exists_congr
        intro t
        apply and_congr_right
        intro t_mem
        rw [Holds, Holds, (unchanged t t_mem).contents_eq]
      · apply ((List.forall₂_and_left stores stores'').mpr ⟨unchanged, removed⟩).imp
        rintro t t' ⟨unchanged_t, removed_t⟩
        exact removed_t.of_unchanged unchanged_t

end BasicStore

namespace Layered

variable {host host' : Host} {key : String}

/-- Stores one after the other find what they found when a key was read, if each of those that have
been reached then does: none of these has a missing file that it has not read. -/
theorem firstFound_of_run_get {stores stores' : List BasicStore}
    (related : List.Forall₂ (fun s s' => ¬ s.IsMissing host → s'.found host' key = s.found host key)
      (getSweep.run (StoreKind.get key) host stores).store stores') :
  firstFound (stores'.map fun s => s.found host' key) =
    firstFound (stores.map fun s => s.found host key)
  := by
  induction stores generalizing stores' with
  | nil =>
    cases related
    rfl
  | cons s stores ih =>
    have head_eq {s' : BasicStore} (head_related : ¬ (s.get key host).store.IsMissing host →
        s'.found host' key = (s.get key host).store.found host key) :
        s'.found host' key = s.found host key :=
      (head_related (s.not_isMissing_get key host)).trans (s.alike_get key)
    rw [List.map_cons]
    by_cases nothing : s.found host key = .ok none
    · rw [run_get_of_nothing nothing] at related
      obtain ⟨s', stores', head_related, others_related, rfl⟩ :=
        List.forall₂_cons_left_iff.mp related
      rw [List.map_cons, head_eq head_related, nothing]
      exact ih others_related
    · rw [run_get_of_found nothing] at related
      obtain ⟨s', stores', head_related, -, rfl⟩ := List.forall₂_cons_left_iff.mp related
      rw [List.map_cons, head_eq head_related, firstFound_cons_of_ne nothing,
        firstFound_cons_of_ne nothing]

end Layered

namespace Store

variable {store store' : Store} {host host' : Host} {key key' raw : String} {there : Bool}

/-- The paths of all stores consist of names, or at least no store that has not read its file comes to
find it where it was missing. -/
def StayMissing (store store' : Store) (host host' : Host) : Prop :=
  (host.files.IsTree ∧ ∀ s ∈ store.leaves, s.IsPlain) ∨
  ∀ s ∈ store'.leaves, s.IsMissing host → s.IsMissing host'

/-- A text has been set in the first store that can be written.  Nothing else has changed if files stay
missing, and what a key that was just read gives has not changed in any case. -/
structure SetAlone (key raw : String) (host host' : Host) (store store' : Store) : Prop where
  exists_leaf : ∃ leaf leaf' below, store.leaves = store.inFront ++ leaf :: below ∧
    store'.leaves = store.inFront ++ leaf' :: below ∧
    BasicStore.Becomes key (fun keeping => some (keeping.valueOf raw)) host host' leaf leaf' ∧
    (store.Uncovered [key] host → store'.found host' key = leaf'.found host' key) ∧
    (StayMissing store store' host host' → ∀ s ∈ store.inFront ++ below, s.Unchanged host host')
  found_ne {key' : String} : key' ≠ key → StayMissing store store' host host' →
    store'.found host' key' = store.found host key'
  found_read {key' : String} {before : Store} : key' ≠ key →
    (before.get key' host).store = store → store'.found host' key' = before.found host key'

/-- A key has been removed from all stores that can be written, and nothing else has changed. -/
structure RemovedAlone (key : String) (there : Bool) (host host' : Host) (store store' : Store) :
    Prop where
  there_iff : there = true ↔ ∃ s ∈ store.leaves, s.Holds host key
  removed : List.Forall₂ (BasicStore.Removed key host host') store.leaves store'.leaves
  found_self :
    (∀ s ∈ store.leaves, s.keeping? = none → s.found host key = .ok none) →
      store'.found host' key = .ok none
  found_ne (key' : String) : key' ≠ key → store'.found host' key' = store.found host key'

/-! ### What setting leaves -/

/-- The value of a key has been set in one of the layers, behind those that cannot be written, and on
the host nothing has changed but at the path of that layer. -/
structure LeafSet (key raw : String) (host host' : Host) (store store' : Store)
    (leaf leaf' : BasicStore) (below : List BasicStore) : Prop where
  leaves_eq : store.leaves = store.inFront ++ leaf :: below
  leaves_eq' : store'.leaves = store.inFront ++ leaf' :: below
  becomes : BasicStore.Becomes key (fun keeping => some (keeping.valueOf raw)) host host' leaf leaf'
  grows : host.GrowsAt leaf.path? host'

/-- Setting a key that succeeds sets it in one of the layers. -/
theorem exists_leafSet (static : ∀ s ∈ store.leaves, s.IsStatic)
    (set : store.set key raw host = ⟨.ok (), store', host'⟩) :
  ∃ leaf leaf' below, LeafSet key raw host host' store store' leaf leaf' below
  := by
  obtain ⟨leaf, leaf', below, leaves_eq, leaves_eq', set_leaf⟩ := of_set set
  have leaf_mem : leaf ∈ store.leaves := by simp [leaves_eq]
  have grows := leaf.growsAt_set key raw host
  rw [set_leaf] at grows
  exact ⟨leaf, leaf', below, leaves_eq, leaves_eq',
    BasicStore.becomes_of_set (static leaf leaf_mem) set_leaf, grows⟩

namespace LeafSet

variable {leaf leaf' s : BasicStore} {below : List BasicStore}

/-- The other layers are there before and afterwards. -/
theorem mem_leaves (leafSet : LeafSet key raw host host' store store' leaf leaf' below)
    (s_mem : s ∈ store.inFront ++ below) :
  s ∈ store.leaves ∧ s ∈ store'.leaves
  := by
  rw [List.mem_append] at s_mem
  rw [leafSet.leaves_eq, leafSet.leaves_eq', List.mem_append, List.mem_append]
  exact ⟨s_mem.imp_right (List.mem_cons_of_mem _), s_mem.imp_right (List.mem_cons_of_mem _)⟩

/-- The layer that is set is apart from the others if all layers are apart. -/
theorem apart (leafSet : LeafSet key raw host host' store store' leaf leaf' below)
    (apart : store.leaves.Pairwise BasicStore.Apart) (s_mem : s ∈ store.inFront ++ below) :
  leaf.Apart s
  := by
  rw [leafSet.leaves_eq] at apart
  obtain ⟨-, behind, across⟩ := List.pairwise_append.mp apart
  rcases List.mem_append.mp s_mem with s_mem | s_mem
  · exact (across s s_mem leaf List.mem_cons_self).symm
  · exact (List.pairwise_cons.mp behind).1 s s_mem

/-- Another layer answers as before unless its file comes to be there. -/
theorem unchanged (leafSet : LeafSet key raw host host' store store' leaf leaf' below)
    (static : ∀ s ∈ store.leaves, s.IsStatic) (apart : store.leaves.Pairwise BasicStore.Apart)
    (s_mem : s ∈ store.inFront ++ below) (stays : s.IsMissing host → s.IsMissing host') :
  s.Unchanged host host'
  := by
  apply BasicStore.unchanged_of_apart (leafSet.apart apart s_mem) leafSet.grows
  have static_s := static s (leafSet.mem_leaves s_mem).1
  rw [BasicStore.lacksFile_iff static_s, BasicStore.lacksFile_iff static_s]
  exact stays

/-- The other layers answer as before if files stay missing. -/
theorem unchanged_of_stay (leafSet : LeafSet key raw host host' store store' leaf leaf' below)
    (static : ∀ s ∈ store.leaves, s.IsStatic) (apart : store.leaves.Pairwise BasicStore.Apart)
    (stay : StayMissing store store' host host') :
  ∀ s ∈ store.inFront ++ below, s.Unchanged host host'
  := by
  intro s s_mem
  obtain ⟨s_mem_before, s_mem_after⟩ := leafSet.mem_leaves s_mem
  have leaf_mem : leaf ∈ store.leaves := by simp [leafSet.leaves_eq]
  apply leafSet.unchanged static apart s_mem
  rcases stay with ⟨tree, plain⟩ | stay
  · exact BasicStore.isMissing_of_plain tree leafSet.grows (plain leaf leaf_mem)
      (plain s s_mem_before) (leafSet.apart apart s_mem)
  · exact stay s s_mem_after

/-- What relates the layer before and afterwards and each other one to itself relates all layers. -/
theorem related (leafSet : LeafSet key raw host host' store store' leaf leaf' below)
    {R : BasicStore → BasicStore → Prop} (leaf_related : R leaf leaf')
    (others_related : ∀ s ∈ store.inFront ++ below, R s s) :
  List.Forall₂ R store.leaves store'.leaves
  := by
  obtain ⟨front_related, below_related⟩ := List.forall_mem_append.mp others_related
  rw [leafSet.leaves_eq, leafSet.leaves_eq']
  exact List.rel_append (List.forall₂_same.mpr front_related)
    (.cons leaf_related (List.forall₂_same.mpr below_related))

/-- The layer that has been set gives what is found, unless it is covered. -/
theorem found_self (leafSet : LeafSet key raw host host' store store' leaf leaf' below)
    (uncovered : store.Uncovered [key] host) :
  store'.found host' key = leaf'.found host' key
  := by
  obtain ⟨keeping, -, found_leaf⟩ := leafSet.becomes.found_self
  rw [found_eq, leafSet.leaves_eq', List.map_append, Layered.firstFound_append, List.map_cons,
    found_leaf]
  · rfl
  · intro found found_mem
    obtain ⟨s, s_mem, rfl⟩ := List.mem_map.mp found_mem
    rw [BasicStore.found_of_readOnly (readOnly_of_mem_inFront s_mem) leafSet.grows.environment_eq]
    exact uncovered s s_mem key List.mem_cons_self

end LeafSet

/-- Setting a key that succeeds changes its value in one store, and nothing else. -/
theorem setAlone_of_set (static : ∀ s ∈ store.leaves, s.IsStatic)
    (apart : store.leaves.Pairwise BasicStore.Apart)
    (set : store.set key raw host = ⟨.ok (), store', host'⟩) :
  SetAlone key raw host host' store store'
  := by
  obtain ⟨leaf, leaf', below, leafSet⟩ := exists_leafSet static set
  constructor
  case exists_leaf =>
    exact ⟨leaf, leaf', below, leafSet.leaves_eq, leafSet.leaves_eq', leafSet.becomes,
      leafSet.found_self, leafSet.unchanged_of_stay static apart⟩
  case found_ne =>
    intro key' ne stay
    rw [found_eq, found_eq]
    apply Layered.firstFound_congr
    exact leafSet.related (leafSet.becomes.found_ne ne) fun s s_mem =>
      (leafSet.unchanged_of_stay static apart stay s s_mem).found_eq key'
  case found_read =>
    intro key' before ne read
    rw [found_eq, found_eq]
    apply Layered.firstFound_of_run_get
    rw [Layered.leaves_get]
    dsimp only [Reply.mapStore]
    rw [read]
    -- A layer whose file is missing and that has not read it has not been reached.
    exact leafSet.related (fun _ => leafSet.becomes.found_ne ne) fun s s_mem there =>
      (leafSet.unchanged static apart s_mem fun missing => absurd missing there).found_eq key'

/-! ### What removing leaves -/

/-- Removing a key that succeeds takes its value from each store that can be written, and changes
nothing else. -/
theorem removedAlone_of_delete (static : ∀ s ∈ store.leaves, s.IsStatic)
    (apart : store.leaves.Pairwise BasicStore.Apart)
    (hasFile : ∀ s ∈ store.leaves, s.HasFile host key)
    (deleted : store.delete key host = ⟨.ok there, store', host'⟩) :
  RemovedAlone key there host host' store store'
  := by
  have run_eq := (Layered.sweeps_delete key).run_leaves host [] store
  simp only [List.append_nil, Layered.followed, deleted, Reply.mapStore, Layered.deleteSweep,
    Sweep.run, Except.map, Bool.or_false] at run_eq
  obtain ⟨environment_eq, there_iff, removed⟩ :=
    BasicStore.removed_of_run static apart hasFile run_eq
  constructor
  · exact there_iff
  · exact removed
  · intro uncovered
    have nothing :
        ∀ found ∈ store.leaves.map fun _ => (.ok none : Except StoreError (Option String)),
          found = .ok none := by
      simp
    rw [found_eq, Layered.firstFound_congr (f := fun _ => .ok none),
      ← List.append_nil (store.leaves.map _), Layered.firstFound_append nothing]
    · rfl
    · apply ((List.forall₂_and_left store.leaves store'.leaves).mpr ⟨uncovered, removed⟩).imp
      rintro s s' ⟨uncovered_s, removed_s⟩
      exact removed_s.found_self environment_eq uncovered_s
  · intro key' ne
    rw [found_eq, found_eq]
    apply Layered.firstFound_congr
    exact removed.imp fun _ _ removed_s => removed_s.found_ne environment_eq ne

/-- What a successful change of layers changes, if each store keeps the entries it has read and no two
stores have their files in the same place or one in the other.  A text that is set becomes the value of
its key in the first store that can be written, and a key that is removed, if the file of each store
that has read it is still there, has no value in any store that can be written.  No other value of a
store and nothing that is found for another key changes. -/
theorem changes_alone (static : ∀ s ∈ store.leaves, s.IsStatic)
    (apart : store.leaves.Pairwise BasicStore.Apart) (host : Host) (key : String) :
  (∀ raw store' host', store.set key raw host = ⟨.ok (), store', host'⟩ →
    SetAlone key raw host host' store store') ∧
  (∀ there store' host', store.delete key host = ⟨.ok there, store', host'⟩ →
    (∀ s ∈ store.leaves, s.HasFile host key) → RemovedAlone key there host host' store store')
  := by
  constructor
  · intro raw store' host' set
    exact setAlone_of_set static apart set
  · intro there store' host' deleted hasFile
    exact removedAlone_of_delete static apart hasFile deleted

/-- An environment, two files and a store in memory. -/
def fourLayers : Store :=
  .layered [Store.environment "TARIFF_", .layered [Store.file (.opened "d/a.json" false),
    Store.file (.opened "b.json" false)], Store.ofEntries "memory" [("a", "1"), ("k", "0")]]

/-- A key that is set in a new file and one that is removed from memory leave the other keys. -/
theorem changes_alone_fourLayers :
  let set := fourLayers.set "k" "1" Session.bareHost
  let deleted := fourLayers.delete "k" Session.bareHost
  set.answer = .ok () ∧ SetAlone "k" "1" Session.bareHost set.host fourLayers set.store ∧
    StayMissing fourLayers set.store Session.bareHost set.host ∧ deleted.answer = .ok true ∧
    RemovedAlone "k" true Session.bareHost deleted.host fourLayers deleted.store
  := by
  intro set deleted
  have static : ∀ s ∈ fourLayers.leaves, s.IsStatic := by decide +kernel
  have apart : fourLayers.leaves.Pairwise BasicStore.Apart := by decide +kernel
  have plain : ∀ s ∈ fourLayers.leaves, s.IsPlain := by decide +kernel
  have hasFile : ∀ s ∈ fourLayers.leaves, s.HasFile Session.bareHost "k" := by
    change ∀ s ∈ [_, _, _, _], _
    simp only [List.forall_mem_cons]
    exact ⟨trivial, BasicStore.hasFile_opened _ _ _ _, BasicStore.hasFile_opened _ _ _ _, trivial, by simp⟩
  have set_ok : set.answer = .ok () := by decide +kernel
  have deleted_ok : deleted.answer = .ok true := by decide +kernel
  have set_eq : set = ⟨.ok (), set.store, set.host⟩ := by rw [← set_ok]
  have deleted_eq : deleted = ⟨.ok true, deleted.store, deleted.host⟩ := by rw [← deleted_ok]
  obtain ⟨set_alone, removed_alone⟩ := changes_alone static apart Session.bareHost "k"
  exact ⟨set_ok, set_alone _ _ _ set_eq, .inl ⟨Files.isTree_empty, plain⟩, deleted_ok,
    removed_alone _ _ _ deleted_eq hasFile⟩

/-- A text that is set in one store can change what is found for another key: the directory that is
made for its file is on the way to the file of another store. -/
theorem not_forall_found_of_set :
  ¬ ∀ (store : Store) (host : Host) (key raw key' : String), (∀ s ∈ store.leaves, s.IsStatic) →
    store.leaves.Pairwise BasicStore.Apart → (∀ s ∈ store.leaves, s.HasFile host key) →
      (store.set key raw host).answer = .ok () → key' ≠ key →
        Store.found (store.set key raw host).store (store.set key raw host).host key' =
          store.found host key'
  := by
  intro all
  have same := all
    (.layered [Store.file (.opened "d/a.json" false), Store.file (.opened "d/../b.json" false)])
    ⟨{ nodes := [(.root, .directory), (⟨0, ["b.json"]⟩, .file (.text "\x7b\"x\":1\x7d"))] }, .empty⟩
    "k" "1" "x"
    (by decide +kernel) (by decide +kernel)
    (by simp [Layered.leaves, Layered.leavesOf, BasicStore.hasFile_opened])
    (by decide +kernel) (by decide)
  revert same
  decide +kernel

end Store

end Tariff
