import Mathlib.Data.List.Nodup
import Tariff.Proofs.Settings.FoundTexts
import Tariff.Proofs.Settings.VariableKeys

/-!
# Keys that are listed

Stores in memory and in files list the keys that they have, in ascending order and each once, and so
do layers of them.  An environment lists the names of variables in lower case, and looks up keys in
upper case.  The main statement says for which variables all keys that are listed can be read, in
whatever layers the environments stand.
-/

namespace Tariff

namespace SettingsFile

variable {store : SettingsFile} {host : Host} {start : String}

/-- The keys are listed that are in the entries which the store answers from. -/
theorem answer_list :
  (store.list start host).answer =
    (store.view host.files).map fun entries =>
      entries.keys.filter fun key => start.toList.isPrefixOf key.toList
  := by
  rw [list, withLoaded, view]
  cases store.loaded host.files <;> rfl

/-- Listing keys leaves the host. -/
theorem host_list :
  (store.list start host).host = host
  := by
  rw [list, withLoaded]
  cases store.loaded host.files <;> rfl

/-- Listing keys leaves the entries that the store answers from. -/
theorem view_list :
  (store.list start host).store.view host.files = store.view host.files
  := by
  rw [list, withLoaded]
  cases loaded : store.loaded host.files with
  | error e => rfl
  | ok next => rw [view_of_loaded loaded, view_loaded loaded]

end SettingsFile

namespace BasicStore

variable {host : Host} {start prefixed name : String} {s : BasicStore} {keys : List String}

/-! ### Sorted texts -/

/-- Sorted texts are the texts. -/
@[simp] theorem mem_sorted {texts : List String} {s : String} :
  s ∈ sorted texts ↔ s ∈ texts
  := List.mem_mergeSort

/-- Sorted texts ascend. -/
theorem pairwise_sorted (texts : List String) :
  (sorted texts).Pairwise fun s t => (compare s t).isLE = true
  := by
  apply List.pairwise_mergeSort
  · intro a b c ab bc
    exact Std.TransCmp.isLE_trans ab bc
  · intro a b
    have swap : compare b a = (compare a b).swap := Std.OrientedCmp.eq_swap
    rw [swap]
    cases compare a b <;> rfl

/-- Sorted texts ascend strictly exactly if none occurs twice. -/
theorem pairwise_sorted_iff {texts : List String} :
  ((sorted texts).Pairwise fun s t => compare s t = .lt) ↔ texts.Nodup
  := by
  have perm : (sorted texts).Perm texts := List.mergeSort_perm ..
  have weakly := pairwise_sorted texts
  rw [← perm.nodup_iff]
  constructor
  · intro ascending
    apply ascending.imp
    rintro s t lt rfl
    rw [Std.ReflOrd.compare_self] at lt
    cases lt
  · intro nodup
    apply (weakly.and nodup).imp
    rintro s t ⟨le, ne⟩
    cases order : compare s t with
    | lt => rfl
    | eq => exact absurd (Std.LawfulEqCmp.eq_of_compare order) ne
    | gt =>
      rw [order] at le
      cases le

/-- Texts are sorted the same in any order. -/
theorem sorted_eq_of_perm {texts texts' : List String} (perm : texts.Perm texts') :
  sorted texts = sorted texts'
  := by
  have sorted_perm : (sorted texts).Perm (sorted texts') :=
    ((List.mergeSort_perm ..).trans perm).trans (List.mergeSort_perm ..).symm
  apply sorted_perm.eq_of_pairwise _ (pairwise_sorted _) (pairwise_sorted _)
  intro s t _ _ le ge
  exact Std.LawfulEqCmp.eq_of_compare (Std.OrientedCmp.isLE_antisymm le ge)

/-! ### Keys of one store -/

/-- A store has a text for a key. -/
def HasText (host : Host) (key : String) (s : BasicStore) : Prop :=
  ∃ text, s.found host key = .ok (some text)

/-- The names of the variables that an environment lists. -/
def listedNames (prefixed start : String) (environment : Environment) : List String :=
  (environment.names?.getD []).filter (startsWith (variableName prefixed start))

/-- Variables that are listed are among all that can be listed. -/
theorem mem_of_mem_listedNames {environment : Environment}
    (name_mem : name ∈ listedNames prefixed start environment) :
  ∃ names, environment.names? = some names ∧ name ∈ names
  := by
  have there := List.mem_of_mem_filter name_mem
  cases names_eq : environment.names? with
  | none =>
    rw [names_eq] at there
    cases there
  | some names =>
    rw [names_eq] at there
    exact ⟨names, rfl, there⟩

/-- Listing keys leaves the host. -/
theorem host_list (s : BasicStore) :
  (s.list start host).host = host
  := by
  cases s with
  | memory name entries => rfl
  | environment prefixed => rfl
  | file store => exact SettingsFile.host_list

/-- Listing keys leaves what is found. -/
theorem alike_list (s : BasicStore) :
  Alike host s (s.list start host).store
  := by
  intro key
  cases s with
  | memory name entries => rfl
  | environment prefixed => rfl
  | file store =>
    have found_eq := found_file (store.list start host).store host key
    rwa [SettingsFile.view_list, ← found_file] at found_eq

/-- A store that can list keys can be asked for any. -/
theorem exists_found_of_list (listed : (s.list start host).answer = .ok keys) (key : String) :
  ∃ text?, s.found host key = .ok text?
  := by
  cases s with
  | memory name entries => exact ⟨_, rfl⟩
  | environment prefixed =>
    change variableKeys prefixed start host.environment = .ok keys at listed
    rw [variableKeys] at listed
    cases names_eq : host.environment.names? with
    | none =>
      rw [names_eq] at listed
      cases listed
    | some names =>
      obtain ⟨value?, get_eq⟩ := Environment.exists_get names_eq (variableName prefixed key)
      exact ⟨value?, by rw [found, BasicStore.get, get_eq]; rfl⟩
  | file store =>
    have answer_eq : (store.list start host).answer = .ok keys := listed
    rw [SettingsFile.answer_list] at answer_eq
    obtain ⟨entries, view_eq, -⟩ := Except.map_eq_ok.mp answer_eq
    rw [found_file, view_eq]
    exact ⟨_, rfl⟩

/-- A store lists keys that it has in strictly ascending order, unless it is an environment, which lists
those of variables. -/
theorem of_list (listed : (s.list start host).answer = .ok keys) :
  ((∀ prefixed, s ≠ .environment prefixed) ∧ (keys.Pairwise fun k l => compare k l = .lt) ∧
    ∀ k ∈ keys, s.HasText host k) ∨
  ∃ prefixed, s = .environment prefixed ∧
    keys = sorted ((listedNames prefixed start host.environment).map (variableKey prefixed))
  := by
  cases s with
  | memory name entries =>
    left
    obtain rfl := Except.ok.inj listed
    refine ⟨nofun, entries.pairwise_keys.filter _, ?_⟩
    intro k k_mem
    obtain ⟨text, find_eq⟩ := SortedMap.exists_find?_of_mem_keys (List.mem_of_mem_filter k_mem)
    exact ⟨text, congrArg Except.ok find_eq⟩
  | environment prefixed =>
    right
    refine ⟨prefixed, rfl, ?_⟩
    change variableKeys prefixed start host.environment = .ok keys at listed
    rw [variableKeys] at listed
    rw [listedNames]
    cases names_eq : host.environment.names? with
    | none =>
      rw [names_eq] at listed
      cases listed
    | some names =>
      rw [names_eq] at listed
      exact (Except.ok.inj listed).symm
  | file store =>
    left
    have answer_eq : (store.list start host).answer = .ok keys := listed
    rw [SettingsFile.answer_list] at answer_eq
    obtain ⟨entries, view_eq, rfl⟩ := Except.map_eq_ok.mp answer_eq
    refine ⟨nofun, entries.pairwise_keys.filter _, ?_⟩
    intro k k_mem
    obtain ⟨value, find_eq⟩ := SortedMap.exists_find?_of_mem_keys (List.mem_of_mem_filter k_mem)
    refine ⟨SettingsFile.valueText value, ?_⟩
    rw [found_file, view_eq, Except.map, find_eq]
    rfl

end BasicStore

namespace Layered

variable {start key : String} {host host' : Host} {stores stores' : List BasicStore}
  {keys : List String}

/-! ### Keys of several stores -/

/-- Stores one after the other list the keys of each, and leave the host and whatever each of them
finds. -/
theorem of_run_list
    (run_eq : listSweep.run (BasicStore.list start) host stores = ⟨.ok keys, stores', host'⟩) :
  host' = host ∧ List.Forall₂ (BasicStore.Alike host) stores stores' ∧
    (∀ s ∈ stores, ∃ own, (s.list start host).answer = .ok own) ∧
    ∀ k, k ∈ keys ↔ ∃ s ∈ stores, ∃ own, (s.list start host).answer = .ok own ∧ k ∈ own
  := by
  induction stores generalizing keys stores' with
  | nil =>
    cases run_eq
    exact ⟨rfl, .nil, nofun, by simp⟩
  | cons s stores ih =>
    have alike : BasicStore.Alike host s (s.list start host).store := s.alike_list
    rw [Sweep.run] at run_eq
    dsimp only at run_eq
    rw [s.host_list] at run_eq
    cases listed : (s.list start host).answer with
    | error e =>
      rw [listed] at run_eq
      cases run_eq
    | ok own =>
      rw [listed] at run_eq
      dsimp only [listSweep] at run_eq
      obtain ⟨answer_eq, rfl, rfl⟩ := (Reply.mk.injEq ..).mp run_eq
      obtain ⟨others, others_eq, rfl⟩ := Except.map_eq_ok.mp answer_eq
      obtain ⟨host_eq, others_alike, others_listed, mem_iff⟩ :=
        ih (congrArg (Reply.mk · _ _) others_eq)
      refine ⟨host_eq, .cons alike others_alike,
        List.forall_mem_cons.mpr ⟨⟨own, listed⟩, others_listed⟩, ?_⟩
      intro k
      rw [mem_distinct, List.mem_append, mem_iff, List.exists_mem_cons_iff, listed]
      simp only [Except.ok.injEq, exists_eq_left']

/-- Among things found that are no errors the first that is found is a text if there is one. -/
theorem exists_firstFound_iff {all : List (Except StoreError (Option String))}
    (no_error : ∀ found ∈ all, ∃ text?, found = .ok text?) :
  (∃ text, firstFound all = .ok (some text)) ↔ ∃ text, Except.ok (some text) ∈ all
  := by
  induction all with
  | nil => simp [firstFound]
  | cons found all ih =>
    obtain ⟨⟨text?, rfl⟩, no_error_all⟩ := List.forall_mem_cons.mp no_error
    cases text? with
    | none => simpa [firstFound] using ih no_error_all
    | some text => simp [firstFound]

end Layered

namespace Store

variable {store store' : Store} {start : String} {host host' : Host} {keys names : List String}

/-! ### Keys of layers -/

/-- Keys ascend strictly, and each of them has a text. -/
def Readable (store : Store) (host : Host) (keys : List String) : Prop :=
  (keys.Pairwise fun k l => compare k l = .lt) ∧
    ∀ k ∈ keys, ∃ text, store.found host k = .ok (some text)

/-- An environment that stands alone lists variables with different keys, and the key of every variable
that is listed has a text in one of the layers. -/
structure VariablesReadable (start : String) (host : Host) (store : Store) : Prop where
  different : ∀ prefixed, store = .environment prefixed →
    ((BasicStore.listedNames prefixed start host.environment).map
      (BasicStore.variableKey prefixed)).Nodup
  found : ∀ prefixed, .environment prefixed ∈ store.leaves →
    ∀ name ∈ BasicStore.listedNames prefixed start host.environment,
      ∃ s ∈ store.leaves, s.HasText host (BasicStore.variableKey prefixed name)

/-- Different variables, whose names go on with capitals. -/
structure VariablesPlain (start : String) (host : Host) (store : Store) : Prop where
  different : ∀ names, host.environment.names? = some names → names.Nodup
  plain : ∀ prefixed, .environment prefixed ∈ store.leaves →
    ∀ name ∈ BasicStore.listedNames prefixed start host.environment,
      BasicStore.IsPlainName prefixed name

/-- Listing the keys of layers leaves what is found, no key is an error, and the keys are those of the
leaves. -/
theorem of_list (listed : store.list start host = ⟨.ok keys, store', host'⟩) :
  host' = host ∧ (∀ key, store'.found host key = store.found host key) ∧
    (∀ s ∈ store.leaves, ∃ own, (s.list start host).answer = .ok own) ∧
    ∀ k, k ∈ keys ↔ ∃ s ∈ store.leaves, ∃ own, (s.list start host).answer = .ok own ∧ k ∈ own
  := by
  have run_eq := (Layered.sweeps_list start).run_leaves host [] store
  simp only [List.append_nil, Layered.followed, listed, Reply.mapStore, Layered.listSweep,
    Sweep.run, Except.map] at run_eq
  obtain ⟨host_eq, alike, leaves_listed, mem_iff⟩ := Layered.of_run_list run_eq
  refine ⟨host_eq, fun key => found_congr alike key, leaves_listed, ?_⟩
  intro k
  rw [← mem_iff, Layered.mem_distinct]

/-- Layers whose leaves can list their keys have a text for a key if one of the leaves has. -/
theorem exists_found_iff
    (listed : ∀ s ∈ store.leaves, ∃ own, (s.list start host).answer = .ok own) (key : String) :
  (∃ text, store.found host key = .ok (some text)) ↔ ∃ s ∈ store.leaves, s.HasText host key
  := by
  have no_error : ∀ found ∈ store.leaves.map fun s => s.found host key, ∃ text?, found = .ok text? := by
    intro found found_mem
    obtain ⟨s, s_mem, rfl⟩ := List.mem_map.mp found_mem
    obtain ⟨own, listed_s⟩ := listed s s_mem
    exact BasicStore.exists_found_of_list listed_s key
  rw [found_eq, Layered.exists_firstFound_iff no_error]
  simp only [List.mem_map, BasicStore.HasText]
  constructor
  · rintro ⟨text, s, s_mem, found_eq⟩
    exact ⟨s, s_mem, text, found_eq⟩
  · rintro ⟨s, s_mem, text, found_eq⟩
    exact ⟨text, s, s_mem, found_eq⟩

/-- Keys that are listed ascend strictly unless an environment stands alone and lists two variables
with one key. -/
theorem pairwise_list_iff (listed : store.list start host = ⟨.ok keys, store', host'⟩) :
  (keys.Pairwise fun k l => compare k l = .lt) ↔ ∀ prefixed, store = .environment prefixed →
    ((BasicStore.listedNames prefixed start host.environment).map
      (BasicStore.variableKey prefixed)).Nodup
  := by
  cases store with
  | layered layers =>
    rw [Layered.list] at listed
    obtain ⟨answer_eq, -, -⟩ := (Reply.mk.injEq ..).mp listed
    obtain ⟨all, -, rfl⟩ := Except.map_eq_ok.mp answer_eq
    refine ⟨?_, fun _ => SortedMap.pairwise_keys _⟩
    rintro - _ ⟨⟩
  | single s =>
    rw [Layered.list] at listed
    obtain ⟨answer_eq, -, -⟩ := (Reply.mk.injEq ..).mp listed
    rcases BasicStore.of_list answer_eq with ⟨no_environment, ascending, -⟩ | ⟨prefixed, rfl, rfl⟩
    · refine ⟨fun _ prefixed same => ?_, fun _ => ascending⟩
      exact absurd (Layered.single.inj same) (no_environment prefixed)
    · rw [BasicStore.pairwise_sorted_iff]
      refine ⟨?_, fun different => different prefixed rfl⟩
      rintro nodup _ ⟨⟩
      exact nodup

/-- The keys that layers list can be read exactly if the keys of the variables can. -/
theorem forall_mem_list_iff (listed : store.list start host = ⟨.ok keys, store', host'⟩) :
  (∀ k ∈ keys, ∃ text, store'.found host' k = .ok (some text)) ↔
    ∀ prefixed, .environment prefixed ∈ store.leaves →
      ∀ name ∈ BasicStore.listedNames prefixed start host.environment,
        ∃ s ∈ store.leaves, s.HasText host (BasicStore.variableKey prefixed name)
  := by
  obtain ⟨rfl, alike, leaves_listed, mem_iff⟩ := of_list listed
  simp only [alike, exists_found_iff leaves_listed]
  constructor
  · intro readable prefixed leaf_mem name name_mem
    obtain ⟨own, own_listed⟩ := leaves_listed _ leaf_mem
    apply readable
    rw [mem_iff]
    refine ⟨_, leaf_mem, own, own_listed, ?_⟩
    rcases BasicStore.of_list own_listed with ⟨no_environment, -⟩ | ⟨_, ⟨⟩, rfl⟩
    · exact absurd rfl (no_environment prefixed)
    · exact BasicStore.mem_sorted.mpr (List.mem_map_of_mem name_mem)
  · intro variables_readable k k_mem
    obtain ⟨s, s_mem, own, own_listed, k_mem_own⟩ := (mem_iff k).mp k_mem
    rcases BasicStore.of_list own_listed with ⟨-, -, readable⟩ | ⟨prefixed, rfl, rfl⟩
    · exact ⟨s, s_mem, readable k k_mem_own⟩
    · obtain ⟨name, name_mem, rfl⟩ := List.mem_map.mp (BasicStore.mem_sorted.mp k_mem_own)
      exact variables_readable prefixed s_mem name name_mem

/-- Different variables whose names go on with capitals can be read. -/
theorem VariablesPlain.readable (plain : VariablesPlain start host store) :
  VariablesReadable start host store
  := by
  constructor
  case different =>
    rintro prefixed rfl
    have names_nodup : (BasicStore.listedNames prefixed start host.environment).Nodup := by
      rw [BasicStore.listedNames]
      apply List.Nodup.filter
      cases names_eq : host.environment.names? with
      | none => exact List.nodup_nil
      | some names => exact plain.different names names_eq
    apply names_nodup.map_on
    intro name name_mem name' name_mem' same
    have leaf_mem : BasicStore.environment prefixed ∈ Layered.leaves (Store.environment prefixed) :=
      List.mem_singleton_self _
    rw [← BasicStore.variableName_variableKey (plain.plain prefixed leaf_mem name name_mem), same,
      BasicStore.variableName_variableKey (plain.plain prefixed leaf_mem name' name_mem')]
  case found =>
    intro prefixed leaf_mem name name_mem
    obtain ⟨names, names_eq, there⟩ := BasicStore.mem_of_mem_listedNames name_mem
    obtain ⟨text, get_eq⟩ := BasicStore.found_variableKey names_eq there
      (plain.plain prefixed leaf_mem name name_mem)
    refine ⟨_, leaf_mem, text, ?_⟩
    rw [BasicStore.found, BasicStore.get, get_eq]
    rfl

/-- Keys that are listed ascend strictly and can be read exactly if this holds of those of variables,
and it does if the names of the variables go on with capitals. -/
theorem readable_list_iff (listed : store.list start host = ⟨.ok keys, store', host'⟩) :
  (store'.Readable host' keys ↔ VariablesReadable start host store) ∧
    (VariablesPlain start host store → store'.Readable host' keys)
  := by
  have readable_iff : store'.Readable host' keys ↔ VariablesReadable start host store := by
    rw [Readable, pairwise_list_iff listed, forall_mem_list_iff listed]
    exact ⟨fun ⟨different, found⟩ => ⟨different, found⟩, fun ⟨different, found⟩ => ⟨different, found⟩⟩
  exact ⟨readable_iff, fun plain => readable_iff.mpr plain.readable⟩

/-- A host with a single variable and no files. -/
def hostWith (name value : String) : Host :=
  ⟨.empty, ⟨[(.text name, .text value)]⟩⟩

/-- A variable in capitals is listed in layers with a store in memory, and can be read. -/
theorem readable_list_capitals :
  let layers : Store := .layered [Store.environment "APP_", Store.ofEntries "memory" [("b.c", "2")]]
  let host := hostWith "APP_RATE" "1"
  let reply := layers.list "" host
  reply.answer = .ok ["b.c", "rate"] ∧ VariablesPlain "" host layers ∧
    Readable reply.store reply.host ["b.c", "rate"]
  := by
  intro layers host reply
  have listed : reply.answer = .ok ["b.c", "rate"] := by decide +kernel
  have plain : VariablesPlain "" host layers := by
    constructor
    case different =>
      rintro names ⟨⟩
      exact List.nodup_singleton _
    case plain =>
      intro prefixed leaf_mem name name_mem
      obtain ⟨rfl⟩ : prefixed = "APP_" := by
        simpa [layers, Store.ofEntries, Layered.leaves, Layered.leavesOf] using leaf_mem
      have listed_eq : BasicStore.listedNames "APP_" "" host.environment = ["APP_RATE"] := by
        decide +kernel
      rw [listed_eq, List.mem_singleton] at name_mem
      subst name_mem
      exact ⟨by decide, ['R', 'A', 'T', 'E'], by decide, List.all_eq_true.mp rfl⟩
  exact ⟨listed, plain, (readable_list_iff (congrArg (Reply.mk · _ _) listed)).2 plain⟩

/-- A variable in small letters is listed, and not found under its key. -/
theorem not_forall_readable_list :
  ¬ ∀ (store : Store) (host : Host) (start : String) (keys : List String),
    (host.environment.names?).isSome → (store.list start host).answer = .ok keys →
      Readable (store.list start host).store (store.list start host).host keys
  := by
  intro all
  obtain ⟨-, found⟩ := all (.environment "") (hostWith "path" "x") "" ["path"] (by decide +kernel)
    (by decide +kernel)
  obtain ⟨text, found_path⟩ := found "path" List.mem_cons_self
  have nothing : Store.found ((Store.environment "").list "" (hostWith "path" "x")).store
      ((Store.environment "").list "" (hostWith "path" "x")).host "path" = .ok none := by
    decide +kernel
  cases nothing.symm.trans found_path

end Store

end Tariff
