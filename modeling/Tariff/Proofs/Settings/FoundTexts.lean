import Mathlib.Data.List.Forall2
import Tariff.Proofs.Settings.Flattening
import Tariff.Proofs.Settings.Reads
import Tariff.Settings.Store

/-!
# Texts that are found in layers

A key is looked up in the stores at the leaves of a tree one after the other, and the first of them
with a text for it, or with an error, answers.  Hence what is found in the tree is told by what is
found in each of its leaves, and as a look at a file reads its entries at most as they are, looking
up a key leaves the host and everything that is found as it is.
-/

namespace Tariff

namespace SettingsFile

variable {store : SettingsFile} {host : Host} {key : String}

/-- A key is looked up in the entries that the store answers from. -/
theorem answer_get :
  (store.get key host).answer =
    (store.view host.files).map fun entries => (entries.find? key).map valueText
  := by
  rw [get, withLoaded, view]
  cases store.loaded host.files <;> rfl

/-- Looking up a key leaves the host. -/
theorem host_get :
  (store.get key host).host = host
  := by
  rw [get, withLoaded]
  cases store.loaded host.files <;> rfl

/-- Looking up a key leaves the entries that the store answers from. -/
theorem view_get :
  (store.get key host).store.view host.files = store.view host.files
  := by
  rw [get, withLoaded]
  cases loaded : store.loaded host.files with
  | error e => rfl
  | ok next => rw [view_of_loaded loaded, view_loaded loaded]

end SettingsFile

namespace BasicStore

variable {host : Host} {key : String}

/-- What a store finds for a key. -/
def found (store : BasicStore) (host : Host) (key : String) : Except StoreError (Option String) :=
  (store.get key host).answer

/-- Two stores find the same for every key. -/
def Alike (host : Host) (store store' : BasicStore) : Prop :=
  ∀ key, store'.found host key = store.found host key

/-- A store finds what it finds. -/
theorem Alike.refl (store : BasicStore) :
  Alike host store store
  := fun _ => rfl

/-- A store in a file finds what is in the entries that it answers from. -/
theorem found_file (store : SettingsFile) (host : Host) (key : String) :
  (BasicStore.file store).found host key =
    (store.view host.files).map fun entries => (entries.find? key).map SettingsFile.valueText
  := SettingsFile.answer_get

/-- Looking up a key leaves the host. -/
theorem host_get (store : BasicStore) :
  (store.get key host).host = host
  := by
  cases store with
  | memory name entries => rfl
  | environment start => rfl
  | file store => exact SettingsFile.host_get

/-- A store replies with what it finds, and leaves the host. -/
theorem reply_get (store : BasicStore) (key : String) (host : Host) :
  store.get key host = ⟨store.found host key, (store.get key host).store, host⟩
  := by
  have host_eq : (store.get key host).host = host := store.host_get
  unfold found
  generalize store.get key host = reply at host_eq ⊢
  obtain ⟨answer, next, host'⟩ := reply
  obtain rfl : host' = host := host_eq
  rfl

/-- Looking up a key leaves what is found. -/
theorem alike_get (store : BasicStore) :
  Alike host store (store.get key host).store
  := by
  intro key'
  cases store with
  | memory name entries => rfl
  | environment start => rfl
  | file store =>
    have found_eq := found_file (store.get key host).store host key'
    rwa [SettingsFile.view_get, ← found_file] at found_eq

end BasicStore

namespace Layered

/-- The first of several things found that is a text or an error. -/
def firstFound : List (Except StoreError (Option String)) → Except StoreError (Option String)
  | [] => .ok none
  | .ok none :: others => firstFound others
  | found :: _ => found

/-- Stores of which each finds the same find the same one after the other. -/
theorem firstFound_congr {stores stores' : List BasicStore}
    {f g : BasicStore → Except StoreError (Option String)}
    (same : List.Forall₂ (fun s s' => g s' = f s) stores stores') :
  firstFound (stores'.map g) = firstFound (stores.map f)
  := by
  congr 1
  induction same with
  | nil => rfl
  | cons first _ ih => rw [List.map_cons, List.map_cons, first, ih]

/-- Stores that find nothing are passed by. -/
theorem firstFound_append {passed others : List (Except StoreError (Option String))}
    (nothing : ∀ found ∈ passed, found = .ok none) :
  firstFound (passed ++ others) = firstFound others
  := by
  induction passed with
  | nil => rfl
  | cons found passed ih =>
    obtain ⟨rfl, nothing_passed⟩ := List.forall_mem_cons.mp nothing
    exact ih nothing_passed

/-- A text or an error that is found is the first. -/
theorem firstFound_cons_of_ne {found : Except StoreError (Option String)}
    {others : List (Except StoreError (Option String))} (ne : found ≠ .ok none) :
  firstFound (found :: others) = found
  := by
  rcases found with e | _ | text
  · rfl
  · exact absurd rfl ne
  · rfl

variable {key : String} {host : Host} {s : BasicStore}

/-- Behind a store that finds nothing the others are asked. -/
theorem run_get_of_nothing (nothing : s.found host key = .ok none) (stores : List BasicStore) :
  getSweep.run (StoreKind.get key) host (s :: stores) =
    (getSweep.run (StoreKind.get key) host stores).mapStore ((s.get key host).store :: ·)
  := by
  have reply : StoreKind.get key host s = ⟨.ok none, (s.get key host).store, host⟩ := by
    rw [← nothing]
    exact s.reply_get key host
  rw [Sweep.run, reply]
  rfl

/-- Behind a store that finds something no other is asked. -/
theorem run_get_of_found (found : s.found host key ≠ .ok none) (stores : List BasicStore) :
  getSweep.run (StoreKind.get key) host (s :: stores) =
    ⟨s.found host key, (s.get key host).store :: stores, host⟩
  := by
  have reply : StoreKind.get key host s = ⟨s.found host key, (s.get key host).store, host⟩ :=
    s.reply_get key host
  rw [Sweep.run, reply]
  rcases answer : s.found host key with e | _ | text
  · rfl
  · exact absurd answer found
  · rfl

/-- Stores one after the other find what the first of them finds that finds something, and leave
the host and whatever each of them finds. -/
theorem run_get (key : String) (host : Host) (stores : List BasicStore) :
  let reply := getSweep.run (StoreKind.get key) host stores
  reply.answer = firstFound (stores.map fun s => s.found host key) ∧ reply.host = host ∧
    List.Forall₂ (BasicStore.Alike host) stores reply.store
  := by
  induction stores with
  | nil => exact ⟨rfl, rfl, .nil⟩
  | cons s stores ih =>
    have alike : BasicStore.Alike host s (s.get key host).store := BasicStore.alike_get s
    rw [List.map_cons]
    by_cases nothing : s.found host key = .ok none
    · obtain ⟨answer_eq, host_eq, others_alike⟩ := ih
      rw [run_get_of_nothing nothing, nothing]
      exact ⟨answer_eq, host_eq, .cons alike others_alike⟩
    · rw [run_get_of_found nothing, firstFound_cons_of_ne nothing]
      refine ⟨rfl, rfl, .cons alike ?_⟩
      exact List.forall₂_same.mpr fun s _ => BasicStore.Alike.refl s

/-- A tree finds what its leaves find one after the other. -/
theorem leaves_get (key : String) (host : Host) (store : Store) :
  getSweep.run (StoreKind.get key) host store.leaves = (get key host store).mapStore leaves
  := by
  have through := (sweeps_get key).run_leaves host [] store
  rw [List.append_nil, followed] at through
  rw [through]
  rcases get key host store with ⟨e | _ | text, next, host'⟩
  · simp only [Reply.mapStore, getSweep, List.append_nil]
  · simp only [Reply.mapStore, getSweep, List.append_nil, Sweep.run, id]
  · simp only [Reply.mapStore, getSweep, List.append_nil]

end Layered

namespace Store

variable {store store' : Store} {host : Host}

/-- What a tree of layers finds for a key. -/
def found (store : Store) (host : Host) (key : String) : Except StoreError (Option String) :=
  (store.get key host).answer

/-- What a tree finds is told by what its leaves find. -/
theorem found_eq (key : String) :
  store.found host key = Layered.firstFound (store.leaves.map fun s => s.found host key)
  := by
  have answer_eq := (Layered.run_get key host store.leaves).1
  rwa [Layered.leaves_get] at answer_eq

/-- Trees find the same if their leaves do. -/
theorem found_congr (alike : List.Forall₂ (BasicStore.Alike host) store.leaves store'.leaves)
    (key : String) :
  store'.found host key = store.found host key
  := by
  rw [found_eq, found_eq]
  apply Layered.firstFound_congr
  exact alike.imp fun _ _ alike => alike key

/-- Looking up a key leaves the host. -/
theorem host_get (key : String) :
  (store.get key host).host = host
  := by
  have host_eq := (Layered.run_get key host store.leaves).2.1
  rwa [Layered.leaves_get] at host_eq

/-- Looking up a key leaves what is found. -/
theorem found_get (key key' : String) :
  Store.found (store.get key host).store host key' = store.found host key'
  := by
  have alike := (Layered.run_get key host store.leaves).2.2
  rw [Layered.leaves_get] at alike
  exact found_congr alike key'

end Store

end Tariff
