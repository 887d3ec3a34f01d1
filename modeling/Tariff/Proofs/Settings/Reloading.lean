import Tariff.Proofs.Settings.Flattening
import Tariff.Proofs.Settings.Reads

/-!
# Stores that reload

A store that reloads its file has entries in memory like any other, but reads them anew for every
call.  The main statement says that they make no difference: whatever calls have been made before,
whether or not they failed, and whatever has become of the files in the meantime, every call gives
the answer and leaves the host that it would on a store that has just been opened.
-/

namespace Tariff

/-- The answer to a call and the host that it leaves. -/
def Reply.outcome {σ α : Type} (reply : Reply σ α) : Except StoreError α × Host :=
  (reply.answer, reply.host)

/-- The outcome is kept when a function is applied to the answer on both sides. -/
theorem Reply.outcome_map {σ τ α β : Type} {reply : Reply σ α} {reply' : Reply τ α}
    (same : reply.outcome = reply'.outcome) (f : α → β) :
  (reply.map f).outcome = (reply'.map f).outcome
  := by
  obtain ⟨answer_eq, host_eq⟩ := Prod.mk.inj same
  rw [outcome, outcome, map, map, answer_eq, host_eq]

/-- A function of the answer does nothing to the store. -/
@[simp] theorem Reply.store_map {σ α β : Type} (reply : Reply σ α) (f : α → β) :
  (reply.map f).store = reply.store
  := rfl

namespace SettingsFile

/-- A call on a store in a file. -/
inductive Call where
  | get (key : String)
  | set (key value : String)
  | delete (key : String)
  | list (start : String)
  | reload

/-- The reply to a call. -/
def reply (store : SettingsFile) (host : Host) : Call → Reply SettingsFile Layered.Answer
  | .get key => (store.get key host).map .text
  | .set key value => (store.set key value host).map fun _ => .done
  | .delete key => (store.delete key host).map .removed
  | .list start => (store.list start host).map .keys
  | .reload => (store.reload host).map fun _ => .done

/-- What happens while a store is in use. -/
inductive Event where
  /-- A call on the store. -/
  | call (call : Call)
  /-- A call on another store, in whatever state that is, be it on the same path. -/
  | otherCall (store : SettingsFile) (call : Call)
  /-- A change of the files from outside. -/
  | change (f : Files → Files)

/-- The outcomes of the calls on a store. -/
def outcomes (store : SettingsFile) (host : Host) :
    List Event → List (Except StoreError Layered.Answer × Host)
  | [] => []
  | .call call :: events =>
    let reply := store.reply host call
    reply.outcome :: reply.store.outcomes reply.host events
  | .otherCall other call :: events => store.outcomes (other.reply host call).host events
  | .change f :: events => store.outcomes { host with files := f host.files } events

/-- The outcomes of calls each of which is made on a store that has just been opened on a path. -/
def freshOutcomes (path : String) (autoReload : Bool) (host : Host) :
    List Event → List (Except StoreError Layered.Answer × Host)
  | [] => []
  | .call call :: events =>
    let reply := (opened path autoReload).reply host call
    reply.outcome :: freshOutcomes path autoReload reply.host events
  | .otherCall other call :: events =>
    freshOutcomes path autoReload (other.reply host call).host events
  | .change f :: events => freshOutcomes path autoReload { host with files := f host.files } events

variable {store : SettingsFile} {path : String} {host : Host} {files : Files}

/-! ### Loading anew -/

/-- A store that reads its entries for the next call. -/
def Rereads (store : SettingsFile) : Prop :=
  (store.cached.isNone || store.autoReload) = true

/-- A store that reloads reads its entries for every call. -/
theorem rereads_reloading (path : String) (cached : Option (SortedMap String Json)) :
  Rereads ⟨path, true, cached⟩
  := Bool.or_true _

/-- A store that has just been opened reads its entries. -/
theorem rereads_opened (path : String) (autoReload : Bool) :
  (opened path autoReload).Rereads
  := rfl

/-- A store that reads its entries loads them from its file. -/
theorem Rereads.loaded_eq (rereads : store.Rereads) (files : Files) :
  store.loaded files = store.reloaded files
  := if_pos rereads

/-- What a call does with the entries of two stores that read them from one path has the same
outcome, if it does not depend on what else the stores are. -/
theorem outcome_withLoaded {α : Type} {other : SettingsFile}
    {call : SettingsFile → Reply SettingsFile α} (rereads : store.Rereads)
    (rereads' : other.Rereads) (same_path : other.path = store.path)
    (alike : ∀ entries, (call { store with cached := some entries }).outcome =
      (call { other with cached := some entries }).outcome) :
  (store.withLoaded host call).outcome = (other.withLoaded host call).outcome
  := by
  have same_entries : entriesIn host.files other.path = entriesIn host.files store.path := by
    rw [same_path]
  rw [withLoaded, withLoaded, rereads.loaded_eq, rereads'.loaded_eq, reloaded, reloaded, same_entries]
  cases entriesIn host.files store.path with
  | error e => rfl
  | ok entries => exact alike entries

/-- Entries are saved to a path, whatever else the store is. -/
theorem outcome_save {other : SettingsFile} (same_path : other.path = store.path)
    (entries : SortedMap String Json) (host : Host) :
  (store.save entries host).outcome = (other.save entries host).outcome
  := by
  rw [save, save]
  dsimp only
  rw [same_path]
  cases Path.ofText store.path <;> rfl

/-- Two stores that read their entries from one path reply to a call with the same outcome. -/
theorem outcome_reply {other : SettingsFile} (rereads : store.Rereads) (rereads' : other.Rereads)
    (same_path : other.path = store.path) (host : Host) (call : Call) :
  (store.reply host call).outcome = (other.reply host call).outcome
  := by
  cases call with
  | get key =>
    apply Reply.outcome_map
    apply outcome_withLoaded rereads rereads' same_path
    intro entries
    rfl
  | set key value =>
    apply Reply.outcome_map
    apply outcome_withLoaded rereads rereads' same_path
    intro entries
    apply outcome_save same_path
  | delete key =>
    apply Reply.outcome_map
    apply outcome_withLoaded rereads rereads' same_path
    intro entries
    dsimp only [SettingsFile.entries, Option.getD_some]
    cases entries.find? key with
    | none => rfl
    | some value =>
      apply Reply.outcome_map
      apply outcome_save same_path
  | list start =>
    apply Reply.outcome_map
    apply outcome_withLoaded rereads rereads' same_path
    intro entries
    rfl
  | reload =>
    apply Reply.outcome_map
    rw [reload, reload, reloaded, reloaded, same_path]
    cases entriesIn host.files store.path <;> rfl

/-! ### What a call leaves of a store -/

/-- Two stores have one path, and both reload or none of them does. -/
structure SameForm (store other : SettingsFile) : Prop where
  path_eq : other.path = store.path
  autoReload_eq : other.autoReload = store.autoReload

/-- A store keeps its form if what is done with its entries keeps it. -/
theorem sameForm_withLoaded {α : Type} {call : SettingsFile → Reply SettingsFile α}
    (kept : ∀ next, store.SameForm next → store.SameForm (call next).store) :
  store.SameForm (store.withLoaded host call).store
  := by
  rw [withLoaded]
  cases loaded : store.loaded host.files with
  | error e => exact ⟨rfl, rfl⟩
  | ok next =>
    obtain ⟨path_eq, autoReload_eq, -⟩ := of_loaded loaded
    apply kept next ⟨path_eq, autoReload_eq⟩

/-- A store keeps its form when entries are saved. -/
theorem sameForm_save {next : SettingsFile} (same : store.SameForm next)
    (entries : SortedMap String Json) (host : Host) :
  store.SameForm (next.save entries host).store
  := by
  rw [save]
  dsimp only
  cases Path.ofText next.path <;> exact ⟨same.path_eq, same.autoReload_eq⟩

/-- A store keeps its form whatever call is made. -/
theorem sameForm_reply (store : SettingsFile) (host : Host) (call : Call) :
  store.SameForm (store.reply host call).store
  := by
  cases call with
  | get key =>
    rw [reply, Reply.store_map, get]
    apply sameForm_withLoaded
    intro next same
    exact same
  | set key value =>
    rw [reply, Reply.store_map, set]
    apply sameForm_withLoaded
    intro next same
    exact sameForm_save same _ host
  | delete key =>
    rw [reply, Reply.store_map, delete]
    apply sameForm_withLoaded
    intro next same
    cases next.entries.find? key with
    | none => exact same
    | some value => exact sameForm_save same _ host
  | list start =>
    rw [reply, Reply.store_map, list]
    apply sameForm_withLoaded
    intro next same
    exact same
  | reload =>
    rw [reply, Reply.store_map, reload, reloaded]
    cases entriesIn host.files store.path <;> exact ⟨rfl, rfl⟩

/-! ### Whatever happens -/

/-- A store that reloads gives the same outcomes as if a store were opened for every call, whether
or not that one reloads, and whatever its entries in memory are at first. -/
theorem outcomes_eq_freshOutcomes (path : String) (autoReload : Bool)
    (cached : Option (SortedMap String Json)) (host : Host) (events : List Event) :
  (SettingsFile.mk path true cached).outcomes host events =
    freshOutcomes path autoReload host events
  := by
  induction events generalizing cached host with
  | nil => rfl
  | cons event events ih =>
    cases event with
    | call call =>
      have same := outcome_reply (rereads_reloading path cached) (rereads_opened path autoReload)
        rfl host call
      obtain ⟨path_eq, autoReload_eq⟩ := sameForm_reply ⟨path, true, cached⟩ host call
      rw [outcomes, freshOutcomes]
      rcases reply_eq : SettingsFile.reply ⟨path, true, cached⟩ host call with
        ⟨answer, ⟨path', autoReload', cached'⟩, host'⟩
      rw [reply_eq] at same path_eq autoReload_eq
      cases path_eq
      cases autoReload_eq
      have host_eq : host' = ((opened path autoReload).reply host call).host :=
        congrArg Prod.snd same
      dsimp only
      rw [ih, same, host_eq]
    | otherCall other call => apply ih
    | change f => apply ih

end SettingsFile

end Tariff
