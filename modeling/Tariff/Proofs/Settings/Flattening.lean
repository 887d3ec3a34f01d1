import Tariff.Proofs.Except
import Tariff.Proofs.SortedMap
import Tariff.Settings.Layered

/-!
# Layers in layers

Whatever is asked of layers, they are gone through one after the other until one of them settles
the answer.  The main statement says that it makes no difference whether some of the layers are
layers themselves: any sequence of calls is answered by a tree of layers as by the stores at its
leaves, put in layers from left to right, and leaves each of these stores as it does there.
-/

namespace Tariff

/-- How the answers of several stores make up one answer. -/
structure Sweep (α : Type) where
  /-- The answer if no store settles it. -/
  base : Except StoreError α
  /-- What becomes of the answer of the stores behind one that gives an answer; nothing if that
  settles it. -/
  next : Except StoreError α → Option (Except StoreError α → Except StoreError α)

namespace Sweep

variable {α τ υ : Type}

/-- Goes through stores from the first on. -/
def run (sweep : Sweep α) (call : Host → τ → Reply τ α) (host : Host) :
    List τ → Reply (List τ) α
  | [] => ⟨sweep.base, [], host⟩
  | store :: stores =>
    let reply := call host store
    match sweep.next reply.answer with
    | none => ⟨reply.answer, reply.store :: stores, reply.host⟩
    | some f =>
      let others := sweep.run call reply.host stores
      ⟨f others.answer, reply.store :: others.store, others.host⟩

/-- The answers that stores can make up. -/
inductive Given (sweep : Sweep α) : Except StoreError α → Prop
  | base : Given sweep sweep.base
  | settled {a : Except StoreError α} : sweep.next a = none → Given sweep a
  | followed {a r : Except StoreError α} {f : Except StoreError α → Except StoreError α} :
    sweep.next a = some f → Given sweep r → Given sweep (f r)

/-- Answers may be put together in groups. -/
structure Lawful (sweep : Sweep α) : Prop where
  next_comp {a r : Except StoreError α} {f : Except StoreError α → Except StoreError α} :
    sweep.next a = some f → sweep.Given r → sweep.next (f r) = (sweep.next r).map (f ∘ ·)
  next_base : ∃ g, sweep.next sweep.base = some g ∧ g sweep.base = sweep.base ∧
    (∀ a, sweep.next a = none → g a = a) ∧ ∀ a f, sweep.next a = some f → g ∘ f = f

variable {sweep : Sweep α} {call : Host → τ → Reply τ α}

/-- Stores that answer alike are gone through alike. -/
theorem run_map (f : υ → τ) {inner : Host → υ → Reply υ α}
    (alike : ∀ host store, call host (f store) = (inner host store).mapStore f) (host : Host)
    (stores : List υ) :
  sweep.run call host (stores.map f) = (sweep.run inner host stores).mapStore (List.map f)
  := by
  induction stores generalizing host with
  | nil => rfl
  | cons store stores ih =>
    rw [List.map_cons, run, run, alike]
    dsimp only [Reply.mapStore]
    cases sweep.next (inner host store).answer with
    | none => rfl
    | some g =>
      dsimp only
      rw [ih]
      rfl

/-- Going through stores gives an answer that they can make up. -/
theorem given_run (host : Host) (stores : List τ) :
  sweep.Given (sweep.run call host stores).answer
  := by
  induction stores generalizing host with
  | nil => exact .base
  | cons store stores ih =>
    rw [run]
    cases next : sweep.next (call host store).answer with
    | none => exact .settled next
    | some f => exact .followed next (ih _)

/-- What is done with the answer of no stores at all changes no answer. -/
theorem Lawful.base_run (lawful : sweep.Lawful) {g : Except StoreError α → Except StoreError α}
    (next_base : sweep.next sweep.base = some g) (host : Host) (stores : List τ) :
  g (sweep.run call host stores).answer = (sweep.run call host stores).answer
  := by
  obtain ⟨g', next_base', keeps_base, keeps_settled, keeps_open⟩ := lawful.next_base
  rw [next_base] at next_base'
  obtain rfl := Option.some.inj next_base'
  cases stores with
  | nil => apply keeps_base
  | cons store stores =>
    rw [run]
    cases next : sweep.next (call host store).answer with
    | none => apply keeps_settled _ next
    | some f => apply congrFun (keeps_open _ f next)

/-- An answer that settles nothing is what becomes of the answer of no stores at all. -/
theorem Lawful.run_eq_base (lawful : sweep.Lawful) {host : Host} {stores : List τ}
    {f : Except StoreError α → Except StoreError α}
    (next : sweep.next (sweep.run call host stores).answer = some f) :
  f sweep.base = (sweep.run call host stores).answer
  := by
  induction stores generalizing host f with
  | nil =>
    obtain ⟨g, next_base, keeps_base, -⟩ := lawful.next_base
    rw [run, next_base] at next
    obtain rfl := Option.some.inj next
    apply keeps_base
  | cons store stores ih =>
    rw [run] at next ⊢
    cases first : sweep.next (call host store).answer with
    | none =>
      rw [first] at next
      cases first.symm.trans next
    | some g =>
      rw [first] at next
      dsimp only at next ⊢
      rw [lawful.next_comp first (given_run _ _)] at next
      obtain ⟨h, next_others, rfl⟩ := Option.map_eq_some_iff.mp next
      apply congrArg g (ih next_others)

/-- Stores that answer nothing and stay as they are are passed by; the next store that settles the
answer is the one that answers. -/
theorem run_passed {host : Host} {store : τ} {above below : List τ}
    (passed : ∀ s ∈ above, ∃ a, call host s = ⟨a, s, host⟩ ∧ sweep.next a = some id)
    (settled : sweep.next (call host store).answer = none) :
  sweep.run call host (above ++ store :: below) =
    (call host store).mapStore fun store' => above ++ store' :: below
  := by
  induction above with
  | nil =>
    rw [List.nil_append, run]
    simp only [settled]
    rfl
  | cons s above ih =>
    obtain ⟨a, reply, next⟩ := passed s List.mem_cons_self
    have others := ih fun t t_mem => passed t (List.mem_cons_of_mem _ t_mem)
    rw [List.cons_append, run]
    simp only [reply, next, others]
    rfl

end Sweep

namespace Layered

variable {σ : Type}

mutual

/-- The stores at the leaves of a tree of layers, from left to right. -/
def leaves : Layered σ → List σ
  | .single store => [store]
  | .layered layers => leavesOf layers

/-- The stores at the leaves of several trees, from left to right. -/
def leavesOf : List (Layered σ) → List σ
  | [] => []
  | store :: layers => leaves store ++ leavesOf layers

end

/-- The stores at the leaves of a tree of layers, as the layers of one. -/
def flat (store : Layered σ) : Layered σ :=
  .layered (store.leaves.map .single)

mutual

/-- A tree of layers without what the stores at its leaves are. -/
def shape : Layered σ → Layered Unit
  | .single _ => .single ()
  | .layered layers => .layered (shapes layers)

/-- Trees of layers without what the stores at their leaves are. -/
def shapes : List (Layered σ) → List (Layered Unit)
  | [] => []
  | store :: layers => shape store :: shapes layers

end

/-- What has the shape of layers is layers. -/
theorem exists_layered_of_shape {store : Layered σ} {layers : List (Layered σ)}
    (shape_eq : store.shape = (layered layers).shape) :
  ∃ layers', store = .layered layers'
  := by
  cases store with
  | single store =>
    rw [shape, shape] at shape_eq
    cases shape_eq
  | layered layers' => exact ⟨layers', rfl⟩

/-! ### Sweeping through trees -/

section Sweep

variable {α : Type} {sweep : Sweep α} {call : Host → Layered σ → Reply (Layered σ) α}
  {basic : Host → σ → Reply σ α}

/-- A call that goes through layers one after the other. -/
structure Sweeps (sweep : Sweep α) (call : Host → Layered σ → Reply (Layered σ) α)
    (basic : Host → σ → Reply σ α) : Prop where
  lawful : sweep.Lawful
  single (host : Host) (store : σ) : call host (.single store) = (basic host store).mapStore .single
  layered (host : Host) (layers : List (Layered σ)) :
    call host (.layered layers) = (sweep.run call host layers).mapStore .layered

/-- The reply of the first of several stores, and of the others unless it settles the answer. -/
def followed (sweep : Sweep α) (basic : Host → σ → Reply σ α) (first : Reply (List σ) α)
    (others : List σ) : Reply (List σ) α :=
  match sweep.next first.answer with
  | none => ⟨first.answer, first.store ++ others, first.host⟩
  | some f =>
    let reply := sweep.run basic first.host others
    ⟨f reply.answer, first.store ++ reply.store, reply.host⟩

mutual

/-- The leaves of a tree answer one after the other as the tree does, whatever stores follow. -/
theorem Sweeps.run_leaves (sweeps : Sweeps sweep call basic) (host : Host) (others : List σ) :
    ∀ store : Layered σ, sweep.run basic host (leaves store ++ others) =
      followed sweep basic ((call host store).mapStore leaves) others
  | .single store => by
    rw [sweeps.single, leaves, List.singleton_append, Sweep.run]
    rfl
  | .layered layers => by
    rw [sweeps.layered, leaves, sweeps.run_leavesOf host others layers]
    rfl

/-- The leaves of several trees answer one after the other as the trees do, whatever stores
follow. -/
theorem Sweeps.run_leavesOf (sweeps : Sweeps sweep call basic) (host : Host) (others : List σ) :
    ∀ layers : List (Layered σ), sweep.run basic host (leavesOf layers ++ others) =
      followed sweep basic ((sweep.run call host layers).mapStore leavesOf) others
  | [] => by
    obtain ⟨g, next_base, -⟩ := sweeps.lawful.next_base
    have kept : g (sweep.run basic host others).answer = (sweep.run basic host others).answer :=
      sweeps.lawful.base_run next_base host others
    simp only [leavesOf, List.nil_append, Sweep.run, followed, Reply.mapStore, next_base, kept]
  | store :: layers => by
    rw [leavesOf, List.append_assoc, sweeps.run_leaves host _ store, Sweep.run, followed, followed]
    dsimp only [Reply.mapStore]
    cases first : sweep.next (call host store).answer with
    | none => simp only [first, leavesOf, List.append_assoc]
    | some f =>
      dsimp only
      rw [sweeps.run_leavesOf _ others layers, sweeps.lawful.next_comp first (Sweep.given_run _ _),
        followed]
      dsimp only [Reply.mapStore]
      cases sweep.next (sweep.run call (call host store).host layers).answer with
      | none => simp only [Option.map_none, leavesOf, List.append_assoc]
      | some g => simp only [Option.map_some, Function.comp_apply, leavesOf, List.append_assoc]

end

/-- The leaves of a tree answer one after the other as the tree does, if that settles the answer. -/
theorem Sweeps.run_eq_of_settled (sweeps : Sweeps sweep call basic) {host : Host}
    {store : Layered σ} (settled : sweep.next (call host store).answer = none) :
  sweep.run basic host store.leaves = (call host store).mapStore leaves
  := by
  have through := sweeps.run_leaves host [] store
  rw [List.append_nil, followed] at through
  dsimp only [Reply.mapStore] at through ⊢
  rw [settled, List.append_nil] at through
  exact through

/-- A tree settles the answer if its leaves do one after the other. -/
theorem Sweeps.settled_of_run (sweeps : Sweeps sweep call basic) {host : Host}
    {store : Layered σ} (settled : sweep.next (sweep.run basic host store.leaves).answer = none) :
  sweep.next (call host store).answer = none
  := by
  have through := sweeps.run_leaves host [] store
  rw [List.append_nil, followed] at through
  dsimp only [Reply.mapStore] at through
  cases next : sweep.next (call host store).answer with
  | none => rfl
  | some f =>
    obtain ⟨g, next_base, -⟩ := sweeps.lawful.next_base
    rw [next] at through
    dsimp only [Sweep.run] at through
    rw [through, sweeps.lawful.next_comp next .base, next_base] at settled
    cases settled

/-- Layers answer as the stores at their leaves, put in layers, and leave them alike. -/
theorem Sweeps.flat_eq (sweeps : Sweeps sweep call basic) (host : Host)
    (layers : List (Layered σ)) :
  call host (flat (.layered layers)) = (call host (.layered layers)).mapStore flat
  := by
  have through := sweeps.run_leavesOf host [] layers
  rw [List.append_nil, followed] at through
  have leaves_eq : sweep.run basic host (leavesOf layers) =
      (sweep.run call host layers).mapStore leavesOf := by
    rw [through]
    dsimp only [Reply.mapStore]
    cases next : sweep.next (sweep.run call host layers).answer with
    | none => rw [List.append_nil]
    | some f => simp only [Sweep.run, List.append_nil, sweeps.lawful.run_eq_base next]
  rw [flat, leaves, sweeps.layered, sweeps.layered, Sweep.run_map Layered.single sweeps.single,
    leaves_eq]
  rfl

mutual

/-- A tree keeps its shape. -/
theorem Sweeps.shape_eq (sweeps : Sweeps sweep call basic) (host : Host) :
    ∀ store : Layered σ, shape (call host store).store = shape store
  | .single store => by
    rw [sweeps.single, Reply.mapStore, shape, shape]
  | .layered layers => by
    rw [sweeps.layered, Reply.mapStore, shape, shape, sweeps.shapes_eq host layers]

/-- Several trees keep their shapes. -/
theorem Sweeps.shapes_eq (sweeps : Sweeps sweep call basic) (host : Host) :
    ∀ layers : List (Layered σ), shapes (sweep.run call host layers).store = shapes layers
  | [] => rfl
  | store :: layers => by
    rw [Sweep.run]
    cases sweep.next (call host store).answer with
    | none =>
      dsimp only
      rw [shapes, shapes, sweeps.shape_eq host store]
    | some f =>
      dsimp only
      rw [shapes, shapes, sweeps.shape_eq host store, sweeps.shapes_eq _ layers]

end

end Sweep

/-! ### The four calls -/

variable [StoreKind σ]

/-- The first text that is found settles the answer, and so does an error. -/
def getSweep : Sweep (Option String) where
  base := .ok none
  next
    | .ok none => some id
    | _ => none

/-- The first store that can be written settles the answer, and so does another error. -/
def setSweep : Sweep Unit where
  base := .error (.readOnly layersName)
  next
    | .error (.readOnly _) => some id
    | _ => none

/-- Nothing but an error settles whether a key was there. -/
def deleteSweep : Sweep Bool where
  base := .ok false
  next
    | .ok there => some (Except.map (there || ·))
    | .error (.readOnly _) => some id
    | .error _ => none

/-- Nothing but an error settles which keys there are. -/
def listSweep : Sweep (List String) where
  base := .ok []
  next
    | .ok keys => some (Except.map fun others => distinct (keys ++ others))
    | .error _ => none

/-! #### Answers in groups -/

/-- Nothing is lost or added when each text is given once. -/
@[simp] theorem mem_distinct {texts : List String} {s : String} :
  s ∈ distinct texts ↔ s ∈ texts
  := by
  simp [distinct, SortedMap.mem_keys_ofList]

/-- Distinct texts depend on the members alone. -/
theorem distinct_eq_iff {texts texts' : List String} :
  distinct texts = distinct texts' ↔ ∀ s, s ∈ texts ↔ s ∈ texts'
  := by
  constructor
  · intro eq s
    rw [← mem_distinct, eq, mem_distinct]
  · intro same
    apply SortedMap.eq_of_ascending (SortedMap.pairwise_keys _) (SortedMap.pairwise_keys _)
    intro s
    rw [← distinct, ← distinct, mem_distinct, mem_distinct, same]

/-- Texts that are found in groups are found in the whole. -/
theorem lawful_getSweep :
  getSweep.Lawful
  := by
  have next_eq_id {a : Except StoreError (Option String)} {f}
      (next : getSweep.next a = some f) : f = id := by
    simp only [getSweep] at next
    split at next
    case h_1 => exact (Option.some.inj next).symm
    case h_2 => cases next
  constructor
  · intro a r f next _
    rw [next_eq_id next]
    exact (Option.map_id' ..).symm
  · exact ⟨id, rfl, rfl, fun _ _ => rfl, fun _ _ _ => rfl⟩

/-- Stores that are written in groups are written in the whole. -/
theorem lawful_setSweep :
  setSweep.Lawful
  := by
  have next_eq_id {a : Except StoreError Unit} {f} (next : setSweep.next a = some f) :
      f = id := by
    simp only [setSweep] at next
    split at next
    case h_1 => exact (Option.some.inj next).symm
    case h_2 => cases next
  constructor
  · intro a r f next _
    rw [next_eq_id next]
    exact (Option.map_id' ..).symm
  · exact ⟨id, rfl, rfl, fun _ _ => rfl, fun _ _ _ => rfl⟩

/-- Several stores that a key is removed from are never read-only together. -/
theorem ne_readOnly_of_given {r : Except StoreError Bool} (given : deleteSweep.Given r)
    (name : String) :
  r ≠ .error (.readOnly name)
  := by
  induction given with
  | base => nofun
  | settled next =>
    rintro rfl
    cases next
  | @followed a r f next _ ih =>
    simp only [deleteSweep] at next
    split at next
    case h_1 there =>
      obtain rfl := Option.some.inj next
      cases r with
      | ok => nofun
      | error => exact ih
    case h_2 =>
      obtain rfl := Option.some.inj next
      exact ih
    case h_3 => cases next

/-- Removals in groups are removals in the whole. -/
theorem lawful_deleteSweep :
  deleteSweep.Lawful
  := by
  constructor
  · intro a r f next given
    simp only [deleteSweep] at next
    split at next
    case h_1 there =>
      obtain rfl := Option.some.inj next
      obtain e | there' := r
      · have closed : deleteSweep.next (.error e) = none := by
          simp only [deleteSweep]
          split
          case h_1 eq => cases eq
          case h_2 name eq => exact absurd eq (ne_readOnly_of_given given name)
          case h_3 => rfl
        rw [closed]
        exact closed
      · have assoc : (fun b => (there || there') || b) =
            (there || ·) ∘ (there' || ·) := funext fun b => Bool.or_assoc ..
        change some (Except.map fun b => (there || there') || b) =
          some (Except.map (there || ·) ∘ Except.map (there' || ·))
        rw [assoc, Except.map_comp_map]
    case h_2 =>
      obtain rfl := Option.some.inj next
      exact (Option.map_id' ..).symm
    case h_3 => cases next
  · have kept : (Except.map (false || ·) : Except StoreError Bool → _) = id := Except.map_id
    refine ⟨_, rfl, ?_⟩
    rw [kept]
    exact ⟨rfl, fun _ _ => rfl, fun _ _ _ => rfl⟩

/-- Keys that are listed in groups are listed in the whole. -/
theorem lawful_listSweep :
  listSweep.Lawful
  := by
  have distinct_append (keys keys' : List String) :
      (fun others => distinct (distinct (keys ++ keys') ++ others)) =
        (fun others => distinct (keys ++ others)) ∘ fun others => distinct (keys' ++ others) := by
    funext others
    apply distinct_eq_iff.mpr
    intro s
    simp [or_assoc]
  constructor
  · intro a r f next _
    obtain e | keys := a
    · cases next
    obtain rfl := Option.some.inj next
    obtain e | keys' := r
    · rfl
    change some (Except.map fun others => distinct (distinct (keys ++ keys') ++ others)) =
      some (Except.map (fun others => distinct (keys ++ others)) ∘
        Except.map fun others => distinct (keys' ++ others))
    rw [distinct_append, Except.map_comp_map]
  · refine ⟨_, rfl, rfl, ?_, ?_⟩
    · rintro (e | keys) next
      · rfl
      · cases next
    · rintro (e | keys) f next
      · cases next
      · obtain rfl := Option.some.inj next
        rw [Except.map_comp_map]
        congr 1
        funext others
        apply distinct_eq_iff.mpr
        intro s
        simp

/-! #### The calls are sweeps -/

/-- Reading a key is a sweep. -/
theorem sweeps_get (key : String) :
  Sweeps getSweep (get (σ := σ) key) (StoreKind.get key)
  := by
  have first (host : Host) (layers : List (Layered σ)) :
      getFirst key host layers = getSweep.run (get key) host layers := by
    induction layers generalizing host with
    | nil => rfl
    | cons store layers ih =>
      rw [getFirst, Sweep.run]
      split
      case h_1 reply =>
        simp only [reply, getSweep, Reply.mapStore, ih, id]
      case h_2 answer _ _ settled reply =>
        have closed : getSweep.next answer = none := by simp only [getSweep]
        simp only [reply, closed]
  constructor
  · exact lawful_getSweep
  · intro host store
    rw [get]
  · intro host layers
    rw [get, first]

/-- Setting a key is a sweep. -/
theorem sweeps_set (key value : String) :
  Sweeps setSweep (set (σ := σ) key value) (StoreKind.set key value)
  := by
  have first (host : Host) (layers : List (Layered σ)) :
      setFirst key value host layers = setSweep.run (set key value) host layers := by
    induction layers generalizing host with
    | nil => rfl
    | cons store layers ih =>
      rw [setFirst, Sweep.run]
      split
      case h_1 reply => simp only [reply, setSweep, Reply.mapStore, ih, id]
      case h_2 answer _ _ settled reply =>
        have closed : setSweep.next answer = none := by simp only [setSweep]
        simp only [reply, closed]
  constructor
  · exact lawful_setSweep
  · intro host store
    rw [set]
  · intro host layers
    rw [set, first]

/-- Removing a key is a sweep. -/
theorem sweeps_delete (key : String) :
  Sweeps deleteSweep (delete (σ := σ) key) (StoreKind.delete key)
  := by
  have all (host : Host) (layers : List (Layered σ)) :
      deleteAll key host layers = deleteSweep.run (delete key) host layers := by
    induction layers generalizing host with
    | nil => rfl
    | cons store layers ih =>
      rw [deleteAll, Sweep.run]
      split
      case h_1 reply => simp only [reply, deleteSweep, Reply.mapStore, Reply.map, ih]
      case h_2 reply => simp only [reply, deleteSweep, Reply.mapStore, ih, id]
      case h_3 e _ _ writable reply =>
        have closed : deleteSweep.next (.error e) = none := by simp only [deleteSweep]
        simp only [reply, closed]
  constructor
  · exact lawful_deleteSweep
  · intro host store
    rw [delete]
  · intro host layers
    rw [delete, all]

/-- Listing keys is a sweep. -/
theorem sweeps_list (start : String) :
  Sweeps listSweep (list (σ := σ) start) (StoreKind.list start)
  := by
  have all (host : Host) (layers : List (Layered σ)) :
      (listAll start host layers).map distinct = listSweep.run (list start) host layers := by
    induction layers generalizing host with
    | nil => rfl
    | cons store layers ih =>
      rw [listAll, Sweep.run]
      split
      case h_1 keys store host reply =>
        have next : listSweep.next (.ok keys) =
          some (Except.map fun others => distinct (keys ++ others)) := rfl
        simp only [reply, next, ← ih, Reply.mapStore, Reply.map]
        cases (listAll start host layers).answer with
        | error e => rfl
        | ok others =>
          have once : distinct (keys ++ others) = distinct (keys ++ distinct others) := by
            apply distinct_eq_iff.mpr
            intro s
            simp
          simp only [Except.map, once]
      case h_2 reply => simp only [reply, listSweep, Reply.map, Except.map]
  constructor
  · exact lawful_listSweep
  · intro host store
    rw [list]
  · intro host layers
    rw [list, all]

/-! ### Sequences of calls -/

/-- A call on a store. -/
inductive Call where
  | get (key : String)
  | set (key value : String)
  | delete (key : String)
  | list (start : String)

/-- What a call answers if it does not fail. -/
inductive Answer where
  | text (value : Option String)
  | done
  | removed (there : Bool)
  | keys (keys : List String)

/-- What a sequence of calls leaves: their answers, the store and the host. -/
structure Replies (σ : Type) where
  answers : List (Except StoreError Answer)
  store : Layered σ
  host : Host

/-- The reply to a call. -/
def reply (call : Call) (host : Host) (store : Layered σ) : Reply (Layered σ) Answer :=
  match call with
  | .get key => (get key host store).map .text
  | .set key value => (set key value host store).map fun _ => .done
  | .delete key => (delete key host store).map .removed
  | .list start => (list start host store).map .keys

/-- The replies to calls, one after the other. -/
def replies (calls : List Call) (host : Host) (store : Layered σ) : Replies σ :=
  match calls with
  | [] => ⟨[], store, host⟩
  | call :: calls =>
    let first := reply call host store
    let others := replies calls first.host first.store
    ⟨first.answer :: others.answers, others.store, others.host⟩

/-- A call is answered by layers as by the stores at their leaves, and leaves them alike. -/
theorem reply_flat (call : Call) (host : Host) (layers : List (Layered σ)) :
  reply call host (flat (.layered layers)) = (reply call host (.layered layers)).mapStore flat
  := by
  cases call with
  | get key => exact congrArg (Reply.map _) ((sweeps_get key).flat_eq host layers)
  | set key value => exact congrArg (Reply.map _) ((sweeps_set key value).flat_eq host layers)
  | delete key => exact congrArg (Reply.map _) ((sweeps_delete key).flat_eq host layers)
  | list start => exact congrArg (Reply.map _) ((sweeps_list start).flat_eq host layers)

/-- A call leaves a tree of layers its shape. -/
theorem shape_reply (call : Call) (host : Host) (store : Layered σ) :
  (reply call host store).store.shape = store.shape
  := by
  cases call with
  | get key => exact (sweeps_get key).shape_eq host store
  | set key value => exact (sweeps_set key value).shape_eq host store
  | delete key => exact (sweeps_delete key).shape_eq host store
  | list start => exact (sweeps_list start).shape_eq host store

/-- Calls are answered by a tree of layers as by the layers of the stores at its leaves; they
change the host alike, the tree keeps its shape, and each store is left as it is in the tree. -/
theorem replies_flat (calls : List Call) (host : Host) (layers : List (Layered σ)) :
  let tree := replies calls host (.layered layers)
  replies calls host (flat (.layered layers)) = ⟨tree.answers, flat tree.store, tree.host⟩ ∧
    tree.store.shape = (layered layers).shape
  := by
  induction calls generalizing host layers with
  | nil => exact ⟨rfl, rfl⟩
  | cons call calls ih =>
    have shape_eq := shape_reply call host (.layered layers)
    obtain ⟨layers', store_eq⟩ := exists_layered_of_shape shape_eq
    obtain ⟨others, others_shape⟩ := ih (reply call host (.layered layers)).host layers'
    rw [replies, replies, reply_flat]
    dsimp only [Reply.mapStore]
    rw [store_eq]
    refine ⟨?_, ?_⟩
    · rw [others]
    · rw [others_shape, ← store_eq, shape_eq]

end Layered

end Tariff
