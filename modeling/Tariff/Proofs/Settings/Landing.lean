import Mathlib.Data.List.TakeWhile
import Tariff.Proofs.Settings.GivenBack
import Tariff.Settings.Access

/-!
# Where layers write

What is set in a tree of layers lands in the first store at its leaves that can be written.  A key
that no store in front of that one has is then read from the values that this store answers from.
-/

namespace Tariff

namespace SettingsFile

/-- Reading a file does not fail for what can only be read. -/
theorem entriesIn_ne_readOnly (files : Files) (path name : String) :
  entriesIn files path ≠ .error (.readOnly name)
  := by
  have mapped {ε α : Type} {x : Except ε α} {f : ε → StoreError} (f_ne : ∀ e, f e ≠ .readOnly name) :
      x.mapError f ≠ .error (.readOnly name) := by
    intro eq
    obtain ⟨e, -, f_eq⟩ := Except.mapError_eq_error.mp eq
    exact f_ne e f_eq
  intro eq
  rcases Except.bind_eq_error.mp eq with eq | ⟨p, -, eq⟩
  · exact mapped nofun eq
  rcases Except.bind_eq_error.mp eq with eq | ⟨there, -, eq⟩
  · exact mapped nofun eq
  split at eq
  case isFalse => cases eq
  case isTrue =>
    rcases Except.bind_eq_error.mp eq with eq | ⟨content, -, eq⟩
    · exact mapped nofun eq
    split at eq
    case isTrue => cases eq
    case isFalse => exact mapped nofun eq

/-- Saving entries does not fail for what can only be read. -/
theorem save_ne_readOnly (store : SettingsFile) (entries : SortedMap String Json) (host : Host)
    (name : String) :
  (store.save entries host).answer ≠ .error (.readOnly name)
  := by
  dsimp only [save]
  cases Path.ofText store.path with
  | error e => nofun
  | ok path =>
    intro eq
    obtain ⟨e, -, e_eq⟩ := Except.mapError_eq_error.mp eq
    cases e_eq

/-- A call that loads the entries does not fail for what can only be read if what follows does not. -/
theorem withLoaded_ne_readOnly {α : Type} {store : SettingsFile} {host : Host}
    {call : SettingsFile → Reply SettingsFile α} {name : String}
    (each : ∀ next, (call next).answer ≠ .error (.readOnly name)) :
  (store.withLoaded host call).answer ≠ .error (.readOnly name)
  := by
  rw [withLoaded]
  cases loaded : store.loaded host.files with
  | error e =>
    rintro ⟨⟩
    rw [SettingsFile.loaded] at loaded
    split at loaded
    case isTrue =>
      rcases Except.bind_eq_error.mp loaded with eq | ⟨entries, -, eq⟩
      · exact entriesIn_ne_readOnly _ _ _ eq
      · cases eq
    case isFalse => cases loaded
  | ok next => exact each next

/-- Setting a key in a file does not fail for what can only be read. -/
theorem set_ne_readOnly (store : SettingsFile) (key raw : String) (host : Host) (name : String) :
  (store.set key raw host).answer ≠ .error (.readOnly name)
  := withLoaded_ne_readOnly fun next => next.save_ne_readOnly _ host name

end SettingsFile

namespace BasicStore

variable {store : BasicStore} {host host' : Host} {key raw : String}

/-! ### Stores that cannot be written -/

/-- A store that cannot be written refuses what is set. -/
theorem set_of_readOnly (readOnly : store.keeping? = none) (key raw : String) (host : Host) :
  store.set key raw host = ⟨.error environmentReadOnly, store, host⟩
  := by
  cases store with
  | environment start => rfl
  | memory name entries => cases readOnly
  | file file => cases readOnly

/-- A store that cannot be written stays as it is when it is read, and answers by the environment
alone. -/
theorem get_of_readOnly (readOnly : store.keeping? = none)
    (same_environment : host'.environment = host.environment) :
  store.get key host' = ⟨(store.get key host).answer, store, host'⟩
  := by
  cases store with
  | environment start => rw [get, get, same_environment]
  | memory name entries => cases readOnly
  | file file => cases readOnly

/-- A store that has been set can be written. -/
theorem isSome_keeping?_of_set {store' : BasicStore}
    (set : store.set key raw host = ⟨.ok (), store', host'⟩) :
  store.keeping?.isSome = true
  := by
  cases keeping : store.keeping? with
  | none =>
    rw [set_of_readOnly keeping] at set
    cases set
  | some keeping => rfl

/-- A store that refuses what is set because it is read-only cannot be written. -/
theorem keeping?_of_set_readOnly {name : String}
    (refused : (store.set key raw host).answer = .error (.readOnly name)) :
  store.keeping? = none
  := by
  cases store with
  | environment start => rfl
  | memory name entries => cases refused
  | file file => exact absurd refused (file.set_ne_readOnly key raw host name)

/-- What is set in several stores lands in the first that can be written. -/
theorem of_run_set {stores stores' : List BasicStore}
    (run_eq : Layered.setSweep.run (BasicStore.set key raw) host stores =
      ⟨.ok (), stores', host'⟩) :
  ∃ above leaf leaf' below, stores = above ++ leaf :: below ∧ stores' = above ++ leaf' :: below ∧
    (∀ s ∈ above, s.keeping? = none) ∧ leaf.set key raw host = ⟨.ok (), leaf', host'⟩
  := by
  induction stores generalizing stores' with
  | nil => cases run_eq
  | cons store stores ih =>
    rw [Sweep.run] at run_eq
    rcases reply : store.set key raw host with ⟨answer, store', host''⟩
    rw [reply] at run_eq
    dsimp only at run_eq
    cases next : Layered.setSweep.next answer with
    | none =>
      rw [next] at run_eq
      cases run_eq
      exact ⟨[], store, store', stores, rfl, rfl, nofun, reply⟩
    | some f =>
      have refused : f = id ∧ ∃ name, answer = .error (.readOnly name) := by
        simp only [Layered.setSweep] at next
        split at next
        case h_1 name => exact ⟨(Option.some.inj next).symm, name, rfl⟩
        case h_2 => cases next
      obtain ⟨rfl, name, rfl⟩ := refused
      have readOnly : store.keeping? = none := keeping?_of_set_readOnly (congrArg (·.answer) reply)
      rw [set_of_readOnly readOnly] at reply
      cases reply
      rw [next] at run_eq
      rcases others : Layered.setSweep.run (BasicStore.set key raw) host stores with ⟨_, stores'', _⟩
      rw [others] at run_eq
      cases run_eq
      obtain ⟨above, leaf, leaf', below, stores_eq, stores_eq', above_readOnly, set_leaf⟩ := ih others
      refine ⟨store :: above, leaf, leaf', below, ?_, ?_, ?_, set_leaf⟩
      · rw [stores_eq, List.cons_append]
      · rw [stores_eq', List.cons_append]
      · exact List.forall_mem_cons.mpr ⟨readOnly, above_readOnly⟩

end BasicStore

namespace Store

variable {store store' : Store} {host host' : Host} {keys : List String} {key raw : String}
  {keeping : Keeping} {values : String → Option Json}

/-! ### Trees of layers -/

/-- How the first store that can be written keeps what is set, if there is one. -/
def keeping? (store : Store) : Option Keeping :=
  store.leaves.findSome? BasicStore.keeping?

/-- The stores in front of the first one that can be written. -/
def inFront (store : Store) : List BasicStore :=
  store.leaves.takeWhile fun s => s.keeping?.isNone

/-- None of the stores in front of the first one that can be written has any of some keys. -/
def Uncovered (store : Store) (keys : List String) (host : Host) : Prop :=
  ∀ s ∈ store.inFront, ∀ key ∈ keys, (s.get key host).answer = .ok none

/-- A store in front cannot be written. -/
theorem readOnly_of_mem_inFront {s : BasicStore} (s_mem : s ∈ store.inFront) :
  s.keeping? = none
  := by
  have none : s.keeping?.isNone = true :=
    List.mem_takeWhile_imp (p := fun s : BasicStore => s.keeping?.isNone) s_mem
  exact Option.isNone_iff_eq_none.mp none

/-- The stores in front of one that can be written, if they cannot be written themselves. -/
theorem inFront_of_leaves {above below : List BasicStore} {leaf : BasicStore}
    (leaves_eq : store.leaves = above ++ leaf :: below) (readOnly : ∀ s ∈ above, s.keeping? = none)
    (writable : leaf.keeping?.isSome = true) :
  store.inFront = above
  := by
  rw [inFront, leaves_eq, List.takeWhile_append_of_pos, List.takeWhile_cons_of_neg,
    List.append_nil]
  · simpa using Option.isSome_iff_ne_none.mp writable
  · simpa using readOnly

/-- The first store that can be written is behind those in front of it. -/
theorem keeping?_of_leaves {leaf : BasicStore} {below : List BasicStore}
    (leaves_eq : store.leaves = store.inFront ++ leaf :: below)
    (writable : leaf.keeping? = some keeping) :
  store.keeping? = some keeping
  := List.findSome?_eq_some_iff.mpr
    ⟨store.inFront, leaf, below, leaves_eq, writable, fun _ => readOnly_of_mem_inFront⟩

/-- What is set lands in the first store that can be written. -/
theorem of_set (set : store.set key raw host = ⟨.ok (), store', host'⟩) :
  ∃ leaf leaf' below, store.leaves = store.inFront ++ leaf :: below ∧
    store'.leaves = store.inFront ++ leaf' :: below ∧
    leaf.set key raw host = ⟨.ok (), leaf', host'⟩
  := by
  have settled : Layered.setSweep.next (store.set key raw host).answer = none := by
    rw [set]
    rfl
  have run_eq := (Layered.sweeps_set key raw).run_eq_of_settled settled
  rw [set] at run_eq
  obtain ⟨above, leaf, leaf', below, leaves_eq, leaves_eq', readOnly, set_leaf⟩ :=
    BasicStore.of_run_set run_eq
  obtain rfl := inFront_of_leaves leaves_eq readOnly (BasicStore.isSome_keeping?_of_set set_leaf)
  exact ⟨leaf, leaf', below, leaves_eq, leaves_eq', set_leaf⟩

/-- A tree answers for some keys from the values of the first store at its leaves that can be
written. -/
structure Answers (store : Store) (keys : List String) (host : Host) (keeping : Keeping)
    (values : String → Option Json) : Prop where
  exists_leaf : ∃ leaf below, store.leaves = store.inFront ++ leaf :: below ∧
    leaf.keeping? = some keeping ∧ leaf.contents host = .ok values
  uncovered : store.Uncovered keys host

/-- While the stores in front and the environment stay as they are, a tree answers from whatever
store takes the place of the first that can be written. -/
theorem answers_of_leaves {leaf : BasicStore} {below : List BasicStore}
    (leaves_eq : store'.leaves = store.inFront ++ leaf :: below)
    (writable : leaf.keeping? = some keeping) (contents_eq : leaf.contents host' = .ok values)
    (uncovered : store.Uncovered keys host)
    (same_environment : host'.environment = host.environment) :
  store'.Answers keys host' keeping values
  := by
  have inFront_eq : store'.inFront = store.inFront :=
    inFront_of_leaves leaves_eq (fun _ => readOnly_of_mem_inFront) (writable ▸ rfl)
  refine ⟨⟨leaf, below, ?_, writable, contents_eq⟩, ?_⟩
  · rw [inFront_eq, leaves_eq]
  · intro s s_mem key key_mem
    rw [inFront_eq] at s_mem
    rw [BasicStore.get_of_readOnly (readOnly_of_mem_inFront s_mem) same_environment]
    exact uncovered s s_mem key key_mem

/-- A tree in which a key has been set answered before. -/
theorem exists_answers_of_set (set : store.set key raw host = ⟨.ok (), store', host'⟩)
    (uncovered : store.Uncovered keys host) :
  ∃ keeping values, store.keeping? = some keeping ∧ store.Answers keys host keeping values
  := by
  obtain ⟨leaf, leaf', below, leaves_eq, -, set_leaf⟩ := of_set set
  obtain ⟨keeping, writable⟩ :=
    Option.isSome_iff_exists.mp (BasicStore.isSome_keeping?_of_set set_leaf)
  obtain ⟨values, contents_eq⟩ := BasicStore.exists_contents_of_set set_leaf
  exact ⟨keeping, values, keeping?_of_leaves leaves_eq writable,
    ⟨leaf, below, leaves_eq, writable, contents_eq⟩, uncovered⟩

/-- After a key has been set a tree answers from the values with that of the text, each as it is
kept. -/
theorem Answers.set (answers : store.Answers keys host keeping values)
    (set : store.set key raw host = ⟨.ok (), store', host'⟩)
    (keeps : keeping.Keeps (keeping.valueOf raw)) :
  store'.Answers keys host' keeping fun key' =>
    (if key' = key then some (keeping.valueOf raw) else values key').map keeping.kept
  := by
  obtain ⟨⟨leaf, below, leaves_eq, writable, contents_eq⟩, uncovered⟩ := answers
  obtain ⟨leaf₂, leaf', below₂, leaves_eq₂, leaves_eq', set_leaf⟩ := of_set set
  obtain ⟨rfl, rfl⟩ := List.cons.inj (List.append_cancel_left (leaves_eq.symm.trans leaves_eq₂))
  obtain ⟨writable', same_environment, contents_set⟩ :=
    BasicStore.contents_of_set set_leaf writable contents_eq keeps
  exact answers_of_leaves leaves_eq' writable' contents_set uncovered same_environment

/-- A key that is there is read from the values that a tree answers from, and the tree goes on to
answer from them. -/
theorem Answers.get (answers : store.Answers keys host keeping values) (key_mem : key ∈ keys)
    {v : Json} (there : values key = some v) :
  ∃ next, store.get key host = ⟨.ok (some (SettingsFile.valueText v)), next, host⟩ ∧
    Store.Answers next keys host keeping values
  := by
  obtain ⟨⟨leaf, below, leaves_eq, writable, contents_eq⟩, uncovered⟩ := answers
  obtain ⟨leaf', get_leaf, writable', contents_eq'⟩ := BasicStore.get_eq writable contents_eq key
  rw [there, Option.map_some] at get_leaf
  have get_leaf : StoreKind.get key host leaf = _ := get_leaf
  have passed : ∀ s ∈ store.inFront, ∃ a, StoreKind.get key host s = ⟨a, s, host⟩ ∧
      Layered.getSweep.next a = some id := by
    intro s s_mem
    refine ⟨.ok none, ?_, rfl⟩
    rw [← uncovered s s_mem key key_mem]
    exact BasicStore.get_of_readOnly (readOnly_of_mem_inFront s_mem) rfl
  have settled_leaf : Layered.getSweep.next (StoreKind.get key host leaf).answer = none := by
    rw [get_leaf]
    rfl
  have run_eq : Layered.getSweep.run (StoreKind.get key) host (store.inFront ++ leaf :: below) = _ :=
    Sweep.run_passed passed settled_leaf
  rw [get_leaf, ← leaves_eq] at run_eq
  have settled : Layered.getSweep.next (store.get key host).answer = none := by
    apply (Layered.sweeps_get key).settled_of_run
    rw [run_eq]
    rfl
  rw [(Layered.sweeps_get key).run_eq_of_settled settled] at run_eq
  rcases reply : store.get key host with ⟨answer, next, host'⟩
  simp only [reply, Reply.mapStore, Reply.mk.injEq] at run_eq
  obtain ⟨rfl, next_leaves, rfl⟩ := run_eq
  exact ⟨next, rfl, answers_of_leaves next_leaves writable' contents_eq' uncovered rfl⟩

/-- A text that has been set is read as it is given back. -/
theorem get_of_set (set : store.set key raw host = ⟨.ok (), store', host'⟩)
    (uncovered : store.Uncovered [key] host) (writable : store.keeping? = some keeping)
    (keeps : keeping.Keeps (keeping.valueOf raw)) :
  ∃ next, store'.get key host' = ⟨.ok (some (keeping.givenBack raw)), next, host'⟩
  := by
  obtain ⟨keeping', values, writable', answers⟩ := exists_answers_of_set set uncovered
  obtain rfl := Option.some.inj (writable'.symm.trans writable)
  have there : (if key = key then some (keeping'.valueOf raw) else values key).map keeping'.kept =
      some (keeping'.kept (keeping'.valueOf raw)) := by
    rw [if_pos rfl]
    rfl
  obtain ⟨next, get_eq, -⟩ := (answers.set set keeps).get List.mem_cons_self there
  exact ⟨next, get_eq⟩

/-- A store that is not in layers has none in front of it if it can be written. -/
theorem uncovered_single {leaf : BasicStore} (writable : leaf.keeping? = some keeping)
    (keys : List String) (host : Host) :
  Uncovered (.single leaf) keys host
  := by
  have leaves_eq : Layered.leaves (.single leaf) = [] ++ [leaf] := rfl
  have none_in_front : inFront (.single leaf) = [] :=
    inFront_of_leaves leaves_eq nofun (writable ▸ rfl)
  intro s s_mem
  rw [none_in_front] at s_mem
  cases s_mem

end Store

namespace Access

variable {store store' : Store} {host host' : Host} {key text : String}

/-! ### Actions -/

/-- A sequence of actions goes on where the first one ends. -/
theorem bind_of_ok {α β : Type} {x : Access α} {f : α → Access β} {a : α} {s s' : Store × Host}
    (done : x s = (.ok a, s')) :
  (x >>= f) s = f a s'
  := by
  change (match x s with | (r, s') => ExceptT.bindCont f r s') = _
  rw [done]
  rfl

/-- A sequence of actions ends where the first one fails. -/
theorem bind_of_error {α β : Type} {x : Access α} {f : α → Access β} {e : StoreError}
    {s s' : Store × Host} (failed : x s = (.error e, s')) :
  (x >>= f) s = (.error e, s')
  := by
  change (match x s with | (r, s') => ExceptT.bindCont f r s') = _
  rw [failed]
  rfl

/-- A sequence of actions succeeds when each of them does. -/
theorem bind_eq_ok {α β : Type} {x : Access α} {f : α → Access β} {b : β} {s s'' : Store × Host} :
  (x >>= f) s = (.ok b, s'') ↔ ∃ a s', x s = (.ok a, s') ∧ f a s' = (.ok b, s'')
  := by
  constructor
  · intro done
    rcases first : x s with ⟨e | a, s'⟩
    · cases (bind_of_error first).symm.trans done
    · exact ⟨a, s', rfl, (bind_of_ok first).symm.trans done⟩
  · rintro ⟨a, s', first, done⟩
    rw [bind_of_ok first, done]

/-- A text has been set in a store if the action that sets it succeeds. -/
theorem set_of_set {raw : String}
    (saved : Access.set key raw (store, host) = (.ok (), store', host')) :
  store.set key raw host = ⟨.ok (), store', host'⟩
  := by
  cases reply : store.set key raw host with
  | mk answer next host'' =>
    have saved_eq : Access.set key raw (store, host) = (answer, next, host'') := by
      simp only [Access.set, Access.ofCall, reply]
    cases saved_eq.symm.trans saved
    rfl

/-- A value has been set if its text has. -/
theorem set_of_setAs {v : Json}
    (saved : Access.setAs key v (store, host) = (.ok (), store', host')) :
  store.set key v.compact host = ⟨.ok (), store', host'⟩
  := set_of_set saved

/-- The text of a key is read. -/
theorem get_of_get {text : Option String}
    (get_eq : store.get key host = ⟨.ok text, store', host'⟩) :
  Access.get key (store, host) = (.ok text, store', host')
  := by
  simp only [Access.get, ofCall, get_eq]

/-- A value is read from the text of its key. -/
theorem getAs_of_get {α : Type} {reader : Json.Reader α}
    (get_eq : store.get key host = ⟨.ok (some text), store', host'⟩) :
  (Access.getAs reader key (store, host)).1 = ((reader.run text).mapError fun fault =>
    StoreError.invalidValue key fault.describe).map some
  := by
  rw [getAs, bind_of_ok (get_of_get get_eq)]
  dsimp only
  cases reader.run text <;> rfl

end Access

end Tariff
