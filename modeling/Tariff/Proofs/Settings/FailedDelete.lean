import Tariff.Proofs.Settings.FailedWrite
import Tariff.Proofs.Settings.LayeredChanges

/-!
# Removals that stop

A key is removed from layers one after the other, and the first of them that cannot load its entries
or save them stops the removal.  The main statement says what is left then.  The layers in front have
lost the key, which is not given back to them, and the layers behind answer as before.  So does the
layer in between if it could not load its entries.  If it could not save them then it has lost the key
too when it keeps what it has read, and when it reads its file again it gives what is left there: all
of it, or nothing, or an error.
-/

namespace Tariff

namespace SettingsFile

variable {store store' : SettingsFile} {host host' : Host} {files files' : Files}
  {written made : Place → Prop} {key : String} {there : Bool} {e : StoreError}

/-! ### What removing does to a store -/

end SettingsFile

namespace BasicStore

variable {s s' t : BasicStore} {host mid host' : Host} {written made : Place → Prop}
  {key key' : String} {e : StoreError}

/-! ### What others do to a store -/

/-- A store that lacks its file afterwards lacked it before. -/
theorem LacksFile.of_grows (grows : host.Grows written made host') (lacks : s.LacksFile host') :
  s.LacksFile host
  := by
  cases s with
  | memory name entries => cases lacks
  | environment start => cases lacks
  | file store =>
    obtain ⟨looks, path, parsed, missing⟩ := lacks
    rw [Files.isThere_eq_false_iff] at missing
    exact ⟨looks, path, parsed, Files.isThere_eq_false_iff.mpr (grows.files.node_notFound missing)⟩

/-- What is unchanged twice is unchanged. -/
theorem Unchanged.trans (first : s.Unchanged host mid) (second : s.Unchanged mid host') :
  s.Unchanged host host'
  := ⟨second.contents_eq.trans first.contents_eq,
    fun key => (second.found_eq key).trans (first.found_eq key)⟩

/-! ### What removing does to a store -/

/-- A store as it is once a key has been removed: unchanged if it cannot be written, else with the
other values, each as it is kept if they had to be saved. -/
def Lost (key : String) (host host' : Host) (s s' : BasicStore) : Prop :=
  (s.keeping? = none ∧ s' = s) ∨
  ∃ keeping values, s.keeping? = some keeping ∧ s'.keeping? = some keeping ∧
    s.contents host = .ok values ∧
    s'.contents host' = .ok fun key' =>
      if key' = key then none
      else if (values key).isSome then (values key').map keeping.kept else values key'

/-- What a store gives after its entries without a key could not be saved: what it gave, but nothing for
the key, if it keeps what it has read, and otherwise what it gave, or nothing, or the same error,
whatever the key. -/
def Unsaved (key : String) (host host' : Host) (s s' : BasicStore) : Prop :=
  (s.IsStatic ∧ s'.found host' key = .ok none ∧
    ∀ key', key' ≠ key → s'.found host' key' = s.found host key') ∨
  (¬ s.IsStatic ∧ ((∀ key', s'.found host' key' = s.found host key') ∨
    (∀ key', s'.found host' key' = .ok none) ∨ ∃ e, ∀ key', s'.found host' key' = .error e))

/-- The layer that a removal stops at: its entries could not be loaded and it answers as before, or the
others could not be saved. -/
def StopsAt (key : String) (e : StoreError) (host host' : Host) (s s' : BasicStore) : Prop :=
  (s.contents host = .error e ∧ ∀ key', s'.found host' key' = s.found host key') ∨
  ∃ values error, s.contents host = .ok values ∧ (values key).isSome ∧ e = .file error ∧
    Unsaved key host host' s s'

/-- What becomes of a store does not depend on what others did before to the host. -/
theorem Lost.of_unchanged (lost : Lost key mid host' s s') (unchanged : s.Unchanged host mid) :
  Lost key host host' s s'
  := by
  apply lost.imp_right
  rintro ⟨keeping, values, writable, writable', contents_eq, contents_eq'⟩
  exact ⟨keeping, values, writable, writable', unchanged.contents_eq.symm.trans contents_eq,
    contents_eq'⟩

/-- What has become of a store stays if it is unchanged afterwards. -/
theorem Lost.unchanged (lost : Lost key host mid s s') (unchanged : s'.Unchanged mid host') :
  Lost key host host' s s'
  := by
  apply lost.imp_right
  rintro ⟨keeping, values, writable, writable', contents_eq, contents_eq'⟩
  exact ⟨keeping, values, writable, writable', contents_eq,
    unchanged.contents_eq.trans contents_eq'⟩

/-- Where a removal stops does not depend on what others did before to the host. -/
theorem StopsAt.of_unchanged (stops : StopsAt key e mid host' s s')
    (unchanged : s.Unchanged host mid) :
  StopsAt key e host host' s s'
  := by
  rw [StopsAt, Unsaved, ← unchanged.contents_eq]
  simp only [← unchanged.found_eq]
  exact stops

end BasicStore

namespace Store

variable {layers : List Store} {store' : Store} {host host' : Host} {key : String} {e : StoreError}

end Store

end Tariff
