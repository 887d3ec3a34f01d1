import Tariff.Proofs.Host.Files
import Tariff.Proofs.Settings.Reads

/-!
# Changes to a settings file

A change is made to the entries that are loaded, which are then saved.  What is loaded from a file
depends on what its path leads to, and on nothing else in the tree.
-/

namespace Tariff

/-- A change to a store. -/
inductive Change where
  | set (key value : String)
  | delete (key : String)

/-- The entries after a change, if they have to be saved. -/
def Change.result? (entries : SortedMap String Json) : Change → Option (SortedMap String Json)
  | .set key value => some (entries.insert key (SettingsFile.valueOf value))
  | .delete key => if (entries.find? key).isSome then some (entries.erase key) else none

namespace SettingsFile

/-- Makes a change to a store. -/
def change (store : SettingsFile) (host : Host) : Change → Reply SettingsFile Unit
  | .set key value => store.set key value host
  | .delete key => (store.delete key host).map fun _ => ()

/-- The path of a store leads nowhere. -/
def IsMissing (store : SettingsFile) (files : Files) : Prop :=
  ∃ path, Path.ofText store.path = .ok path ∧ files.isThere path = .ok false

variable {store next : SettingsFile} {host : Host} {files files' : Files}
  {entries : SortedMap String Json} {e : StoreError}

/-! ### Changes -/

/-- A change is made to the loaded entries and then saved. -/
theorem change_eq (c : Change) :
  store.change host c =
    match store.loaded host.files with
    | .error e => ⟨.error e, store, host⟩
    | .ok next =>
      match c.result? next.entries with
      | none => ⟨.ok (), next, host⟩
      | some entries => next.save entries host
  := by
  cases c with
  | set key value =>
    simp only [change, set, withLoaded, Change.result?]
    cases store.loaded host.files <;> rfl
  | delete key =>
    simp only [change, delete, withLoaded, Change.result?]
    cases store.loaded host.files with
    | error e => rfl
    | ok next =>
      dsimp only
      cases h : next.entries.find? key with
      | none =>
        rw [if_neg (by simp)]
        rfl
      | some value =>
        rw [if_pos (by simp)]
        dsimp only [Reply.map]
        rcases next.save (next.entries.erase key) host with ⟨_ | _, _, _⟩ <;> rfl

/-- Nothing is changed when the entries cannot be loaded. -/
theorem change_of_error (c : Change) (unloaded : store.loaded host.files = .error e) :
  store.change host c = ⟨.error e, store, host⟩
  := by
  simp only [change_eq, unloaded]

/-- Nothing is saved for a change that leaves the entries. -/
theorem change_of_none {c : Change} (loaded : store.loaded host.files = .ok next)
    (idle : c.result? next.entries = none) :
  store.change host c = ⟨.ok (), next, host⟩
  := by
  simp only [change_eq, loaded, idle]

/-- A change of the entries is saved. -/
theorem change_of_some {c : Change} (loaded : store.loaded host.files = .ok next)
    (applied : c.result? next.entries = some entries) :
  store.change host c = next.save entries host
  := by
  simp only [change_eq, loaded, applied]

/-- The store after a change has the entries that were to be saved. -/
theorem save_store (entries : SortedMap String Json) :
  (store.save entries host).store = { store with cached := some entries }
  := by
  unfold save
  dsimp only
  cases Path.ofText store.path <;> rfl

/-- What saving does to the files at a path. -/
theorem save_eq {path : Path} (parsed : Path.ofText store.path = .ok path)
    (entries : SortedMap String Json) :
  store.save entries host =
    match FileAction.save path (.text (Json.object entries.entries).indented) host.files with
    | (answer, files) =>
      ⟨answer.mapError .file, { store with cached := some entries }, { host with files }⟩
  := by
  unfold save
  dsimp only
  cases parsed' : Path.ofText store.path with
  | error e => cases parsed'.symm.trans parsed
  | ok path' =>
    cases parsed'.symm.trans parsed
    rfl

/-! ### Loading -/

/-- Entries are loaded from a file with text, or there is nothing to load. -/
theorem of_entriesIn {s : String} (loaded : entriesIn files s = .ok entries) :
  ∃ path, Path.ofText s = .ok path ∧
    ((files.isThere path = .ok false ∧ entries = .empty) ∨
      ∃ content, files.node path = .ok (.file (.text content)))
  := by
  unfold entriesIn at loaded
  obtain ⟨path, parsed, loaded⟩ := Except.bind_eq_ok.mp loaded
  obtain ⟨there, checked, loaded⟩ := Except.bind_eq_ok.mp loaded
  use path, Except.mapError_eq_ok.mp parsed
  cases there with
  | false => exact .inl ⟨Except.mapError_eq_ok.mp checked, (Except.pure_eq_ok.mp loaded).symm⟩
  | true =>
    rw [if_pos rfl] at loaded
    obtain ⟨content, read, -⟩ := Except.bind_eq_ok.mp loaded
    obtain ⟨node, found, read⟩ := Except.bind_eq_ok.mp (Except.mapError_eq_ok.mp read)
    right
    use content
    split at read
    · cases Except.pure_eq_ok.mp read
      apply found
    · exact absurd read Except.throw_ne_ok
    · exact absurd read Except.throw_ne_ok

/-- There are no entries at a path that leads nowhere. -/
theorem IsMissing.entriesIn (missing : store.IsMissing files) :
  entriesIn files store.path = .ok .empty
  := by
  obtain ⟨path, parsed, nothing⟩ := missing
  simp [SettingsFile.entriesIn, parsed, nothing, Except.mapError_ok, bind, Except.bind, pure,
    Except.pure]

/-- What is loaded from a file is what its text gives. -/
theorem entriesIn_of_text {s content : String} {path : Path} (parsed : Path.ofText s = .ok path)
    (node_eq : files.node path = .ok (.file (.text content))) :
  entriesIn files s =
    if Text.isAllBlank content then .ok .empty
    else (Json.Reader.members.run content).mapError .json
  := by
  have there : files.isThere path = .ok true := by
    rw [Files.isThere, node_eq]
  have read : files.read path = .ok content := by
    simp [Files.read, node_eq, bind, Except.bind, pure, Except.pure]
  simp [entriesIn, parsed, there, read, bind, Except.bind, pure, Except.pure, Except.mapError_ok]

/-- What is loaded from a path depends on what the path leads to. -/
theorem entriesIn_congr {s : String}
    (same : ∀ path, Path.ofText s = .ok path → files'.node path = files.node path) :
  entriesIn files' s = entriesIn files s
  := by
  unfold entriesIn
  cases parsed : Path.ofText s with
  | error e => rfl
  | ok path =>
    have there_eq : files'.isThere path = files.isThere path := by
      rw [Files.isThere, Files.isThere, same path parsed]
    have read_eq : files'.read path = files.read path := by
      rw [Files.read, Files.read, same path parsed]
    change ((files'.isThere path).mapError _ >>= _) = ((files.isThere path).mapError _ >>= _)
    rw [there_eq, read_eq]

/-- The same is loaded from a path that leads to the same. -/
theorem entriesIn_of_node {s : String} {path : Path} (parsed : Path.ofText s = .ok path)
    (same : files'.node path = files.node path) :
  entriesIn files' s = entriesIn files s
  := by
  apply entriesIn_congr
  intro path' parsed'
  obtain rfl := Except.ok.inj (parsed.symm.trans parsed')
  exact same

/-- A store that reloads answers from its file after saving too. -/
theorem view_save_of_autoReload (reload : store.autoReload = true)
    (loaded : store.loaded host.files = .ok next) (entries : SortedMap String Json) (files : Files) :
  (next.save entries host).store.view files = entriesIn files store.path
  := by
  obtain ⟨path_eq, autoReload_eq, -⟩ := of_loaded loaded
  rw [save_store, ← path_eq]
  exact view_of_autoReload (autoReload_eq.trans reload)

end SettingsFile

end Tariff
