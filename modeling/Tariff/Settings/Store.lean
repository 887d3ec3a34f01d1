import Tariff.Settings.Layered
import Tariff.Text.CaseMap

/-!
# Stores of settings

Settings are texts with keys, kept in memory, in the environment, in a file, or in layers of
stores.  The environment is read only.
-/

namespace Tariff

/-- A store that is not made of others. -/
inductive BasicStore where
  /-- Entries in memory. -/
  | memory (name : String) (entries : SortedMap String String)
  /-- The variables whose names start with a text. -/
  | environment (start : String)
  /-- The entries of a file. -/
  | file (store : SettingsFile)

namespace BasicStore

/-- The name of a store. -/
def name : BasicStore → String
  | .memory name _ => name
  | .environment _ => "env"
  | .file _ => "file"

/-- The error of a write to the environment. -/
def environmentReadOnly : StoreError :=
  .readOnly "env"

/-- The name of the variable that holds a key: the key in upper case with underscores for
dots. -/
def variableName (start key : String) : String :=
  start ++ String.ofList ((Text.upper key).toList.map fun c => if c = '.' then '_' else c)

/-- The key of a variable: what follows `start` in its name, in lower case. -/
def variableKey (start name : String) : String :=
  Text.lower (String.ofList (name.toList.drop start.toList.length))

/-- One text is the start of another. -/
def startsWith (start s : String) : Bool :=
  start.toList.isPrefixOf s.toList

/-- Texts in ascending order. -/
def sorted (texts : List String) : List String :=
  texts.mergeSort fun s t => (compare s t).isLE

/-- The keys of the variables whose names start with that of `prefixKey`, in ascending order. -/
def variableKeys (start prefixKey : String) (environment : Environment) :
    Except StoreError (List String) :=
  match environment.names? with
  | none => .error .unlistable
  | some names =>
    .ok (sorted
      ((names.filter (startsWith (variableName start prefixKey))).map (variableKey start)))

/-- The text of a key. -/
def get (key : String) (host : Host) : BasicStore → Reply BasicStore (Option String)
  | .memory name entries => ⟨.ok (entries.find? key), .memory name entries, host⟩
  | .environment start =>
    ⟨(host.environment.get (variableName start key)).mapError .environment,
      .environment start, host⟩
  | .file store => (store.get key host).mapStore .file

/-- The keys that start with a text. -/
def list (start : String) (host : Host) : BasicStore → Reply BasicStore (List String)
  | .memory name entries =>
    ⟨.ok (entries.keys.filter (startsWith start)), .memory name entries, host⟩
  | .environment prefixed =>
    ⟨variableKeys prefixed start host.environment, .environment prefixed, host⟩
  | .file store => (store.list start host).mapStore .file

/-- Sets the text of a key. -/
def set (key value : String) (host : Host) : BasicStore → Reply BasicStore Unit
  | .memory name entries => ⟨.ok (), .memory name (entries.insert key value), host⟩
  | .environment start => ⟨.error environmentReadOnly, .environment start, host⟩
  | .file store => (store.set key value host).mapStore .file

/-- Removes a key; the answer is whether it was there. -/
def delete (key : String) (host : Host) : BasicStore → Reply BasicStore Bool
  | .memory name entries =>
    ⟨.ok (entries.find? key).isSome, .memory name (entries.erase key), host⟩
  | .environment start => ⟨.error environmentReadOnly, .environment start, host⟩
  | .file store => (store.delete key host).mapStore .file

instance : StoreKind BasicStore where
  name := name
  get := get
  list := list
  set := set
  delete := delete

end BasicStore

/-- A store of settings: one of the basic stores, or layers of stores. -/
abbrev Store := Layered BasicStore

namespace Store

/-- A store in memory. -/
@[match_pattern]
abbrev memory (name : String) (entries : SortedMap String String) : Store :=
  .single (.memory name entries)

/-- A store of the variables whose names start with a text. -/
@[match_pattern]
abbrev environment (start : String) : Store :=
  .single (.environment start)

/-- A store in a file. -/
@[match_pattern]
abbrev file (store : SettingsFile) : Store :=
  .single (.file store)

/-- A store in memory with the given entries, the last of several with one key. -/
def ofEntries (name : String) (entries : List (String × String)) : Store :=
  memory name (.ofList entries)

/-! ### Places in a tree of layers -/

/-- The store at a place, given by positions in layers from the outside in. -/
def at? (store : Store) : List Nat → Option Store
  | [] => some store
  | position :: place =>
    match store with
    | .layered layers => layers[position]?.bind fun layer => at? layer place
    | _ => none

/-- A place in a store at a place is a place in the whole. -/
theorem at?_append (store : Store) (p q : List Nat) :
  store.at? (p ++ q) = (store.at? p).bind fun inner => Store.at? inner q
  := by
  induction p generalizing store with
  | nil => rfl
  | cons position p ih =>
    cases store with
    | layered layers =>
      cases h : layers[position]? with
      | none => simp [at?, h]
      | some layer => simp [at?, h, ih]
    | _ => rfl

/-- The store with another one put at a place. -/
def replaceAt (store : Store) (inner : Store) : List Nat → Store
  | [] => inner
  | position :: place =>
    match store with
    | .layered layers => .layered (layers.modify position fun layer => replaceAt layer inner place)
    | store => store

/-- The names of layers, in words. -/
def describeLayers (layers : List Store) : String :=
  "LayeredStore \x7b store_names: [" ++
    ", ".intercalate (layers.map fun store => Text.quote store.name) ++ "] \x7d"

end Store

end Tariff
