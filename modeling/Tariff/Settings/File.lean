import Tariff.Json.Printing
import Tariff.Json.Reading
import Tariff.Settings.Error
import Tariff.Text.Blank
import Tariff.Text.Quoted

/-!
# Settings files

A settings file holds one JSON object.  Its entries are read when they are first needed, and with
`autoReload` before every access; a change is made to the entries and then saved to the file.
String values are given as they are and other values in JSON.
-/

namespace Tariff

/-- What a call on a store leaves: its answer, the store and the host. -/
structure Reply (σ α : Type) where
  answer : Except StoreError α
  store : σ
  host : Host

namespace Reply

/-- The reply with a function applied to the store. -/
def mapStore {σ τ α : Type} (f : σ → τ) (reply : Reply σ α) : Reply τ α :=
  ⟨reply.answer, f reply.store, reply.host⟩

/-- The reply with a function applied to an answer that is no error. -/
def map {σ α β : Type} (f : α → β) (reply : Reply σ α) : Reply σ β :=
  ⟨reply.answer.map f, reply.store, reply.host⟩

end Reply

/-- A store of settings in a file; `cached` are its entries once they have been read. -/
structure SettingsFile where
  path : String
  autoReload : Bool
  cached : Option (SortedMap String Json)

namespace SettingsFile

/-- A store that has not read its file. -/
def opened (path : String) (autoReload : Bool) : SettingsFile :=
  ⟨path, autoReload, none⟩

/-- The entries that have been read. -/
def entries (store : SettingsFile) : SortedMap String Json :=
  store.cached.getD .empty

/-- The entries in a file: none if it is missing or blank. -/
def entriesIn (files : Files) (path : String) : Except StoreError (SortedMap String Json) := do
  let path ← (Path.ofText path).mapError .file
  if ← (files.isThere path).mapError .file then
    let content ← (files.read path).mapError .file
    if Text.isAllBlank content then return .empty
    else (Json.Reader.members.run content).mapError .json
  else return .empty

/-- The store with the entries that its file has now. -/
def reloaded (store : SettingsFile) (files : Files) : Except StoreError SettingsFile := do
  return { store with cached := some (← entriesIn files store.path) }

/-- The store with entries that are read: those it has, unless it has none or reloads always. -/
def loaded (store : SettingsFile) (files : Files) : Except StoreError SettingsFile :=
  if store.cached.isNone || store.autoReload then store.reloaded files else .ok store

/-- A call that first loads the entries; if they cannot be loaded the store is unchanged. -/
def withLoaded {α : Type} (store : SettingsFile) (host : Host)
    (call : SettingsFile → Reply SettingsFile α) : Reply SettingsFile α :=
  match store.loaded host.files with
  | .ok loaded => call loaded
  | .error e => ⟨.error e, store, host⟩

/-- The store reads its file again. -/
def reload (store : SettingsFile) (host : Host) : Reply SettingsFile Unit :=
  match store.reloaded host.files with
  | .ok loaded => ⟨.ok (), loaded, host⟩
  | .error e => ⟨.error e, store, host⟩

/-- Saves entries to the file and keeps them, whether or not they could be saved. -/
def save (store : SettingsFile) (entries : SortedMap String Json) (host : Host) :
    Reply SettingsFile Unit :=
  let store := { store with cached := some entries }
  match Path.ofText store.path with
  | .error e => ⟨.error (.file e), store, host⟩
  | .ok path =>
    let (answer, files) :=
      FileAction.save path (.text (Json.object entries.entries).indented) host.files
    ⟨answer.mapError .file, store, { host with files }⟩

/-- The text of a value. -/
def valueText : Json → String
  | .string s => s
  | value => value.compact

/-- The value of a text: the JSON value in it, or a string. -/
def valueOf (s : String) : Json :=
  match Json.ofText s with
  | .ok value => value
  | .error _ => .string s

/-- The text of a key's value. -/
def get (store : SettingsFile) (key : String) (host : Host) : Reply SettingsFile (Option String) :=
  store.withLoaded host fun store =>
    ⟨.ok ((store.entries.find? key).map valueText), store, host⟩

/-- Sets the value of a key. -/
def set (store : SettingsFile) (key value : String) (host : Host) : Reply SettingsFile Unit :=
  store.withLoaded host fun store =>
    store.save (store.entries.insert key (valueOf value)) host

/-- Removes a key; nothing is saved if it is not there. -/
def delete (store : SettingsFile) (key : String) (host : Host) : Reply SettingsFile Bool :=
  store.withLoaded host fun store =>
    match store.entries.find? key with
    | none => ⟨.ok false, store, host⟩
    | some _ => (store.save (store.entries.erase key) host).map fun _ => true

/-- The keys that start with a text. -/
def list (store : SettingsFile) (start : String) (host : Host) : Reply SettingsFile (List String) :=
  store.withLoaded host fun store =>
    ⟨.ok (store.entries.keys.filter fun key => start.toList.isPrefixOf key.toList), store, host⟩

/-- The store's path and whether it reloads, in words. -/
def describe (store : SettingsFile) : String :=
  "FileStore \x7b path: " ++ Text.quote store.path ++ ", auto_reload: " ++
    (if store.autoReload then "true" else "false") ++ " \x7d"

end SettingsFile

end Tariff
