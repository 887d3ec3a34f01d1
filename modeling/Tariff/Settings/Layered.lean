import Tariff.Settings.File

/-!
# Layers of stores

What can be done with a store does not depend on where it keeps its settings.  Stores of any kind
are put in layers, and layers in layers: the first of them with a key gives its value.  Layers
write to the first store that can be written and delete from all of them.
-/

namespace Tariff

/-- A kind of stores, with what they are called and what calls do to them. -/
class StoreKind (σ : Type) where
  /-- The name of a store. -/
  name : σ → String
  /-- The text of a key. -/
  get : String → Host → σ → Reply σ (Option String)
  /-- The keys that start with a text. -/
  list : String → Host → σ → Reply σ (List String)
  /-- Sets the text of a key. -/
  set : String → String → Host → σ → Reply σ Unit
  /-- Removes a key; the answer is whether it was there. -/
  delete : String → Host → σ → Reply σ Bool

/-- A store of a kind, or several such stores, the first of them first. -/
inductive Layered (σ : Type) where
  | single (store : σ)
  | layered (layers : List (Layered σ))

namespace Layered

/-- The name of layers. -/
def layersName : String :=
  "layered"

/-- Texts in ascending order, each of them once. -/
def distinct (texts : List String) : List String :=
  (SortedMap.ofList (texts.map fun s => (s, ()))).keys

variable {σ : Type} [StoreKind σ]

/-- The name of a store. -/
def name : Layered σ → String
  | .single store => StoreKind.name store
  | .layered _ => layersName

/-! ### Reading -/

mutual

/-- The text of a key. -/
def get (key : String) (host : Host) : Layered σ → Reply (Layered σ) (Option String)
  | .single store => (StoreKind.get key host store).mapStore .single
  | .layered layers => (getFirst key host layers).mapStore .layered

/-- The text of a key in the first of several stores that has one. -/
def getFirst (key : String) (host : Host) :
    List (Layered σ) → Reply (List (Layered σ)) (Option String)
  | [] => ⟨.ok none, [], host⟩
  | store :: layers =>
    match get key host store with
    | ⟨.ok none, store, host⟩ => (getFirst key host layers).mapStore (store :: ·)
    | ⟨answer, store, host⟩ => ⟨answer, store :: layers, host⟩

end

mutual

/-- The keys that start with a text. -/
def list (start : String) (host : Host) : Layered σ → Reply (Layered σ) (List String)
  | .single store => (StoreKind.list start host store).mapStore .single
  | .layered layers => ((listAll start host layers).map distinct).mapStore .layered

/-- The keys of several stores that start with a text. -/
def listAll (start : String) (host : Host) :
    List (Layered σ) → Reply (List (Layered σ)) (List String)
  | [] => ⟨.ok [], [], host⟩
  | store :: layers =>
    match list start host store with
    | ⟨.ok keys, store, host⟩ =>
      ((listAll start host layers).map (keys ++ ·)).mapStore (store :: ·)
    | ⟨.error e, store, host⟩ => ⟨.error e, store :: layers, host⟩

end

/-! ### Writing -/

mutual

/-- Sets the text of a key. -/
def set (key value : String) (host : Host) : Layered σ → Reply (Layered σ) Unit
  | .single store => (StoreKind.set key value host store).mapStore .single
  | .layered layers => (setFirst key value host layers).mapStore .layered

/-- Sets the text of a key in the first of several stores that can be written. -/
def setFirst (key value : String) (host : Host) :
    List (Layered σ) → Reply (List (Layered σ)) Unit
  | [] => ⟨.error (.readOnly layersName), [], host⟩
  | store :: layers =>
    match set key value host store with
    | ⟨.error (.readOnly _), store, host⟩ =>
      (setFirst key value host layers).mapStore (store :: ·)
    | ⟨answer, store, host⟩ => ⟨answer, store :: layers, host⟩

end

mutual

/-- Removes a key; the answer is whether it was there. -/
def delete (key : String) (host : Host) : Layered σ → Reply (Layered σ) Bool
  | .single store => (StoreKind.delete key host store).mapStore .single
  | .layered layers => (deleteAll key host layers).mapStore .layered

/-- Removes a key from all of several stores that can be written, up to the first error. -/
def deleteAll (key : String) (host : Host) :
    List (Layered σ) → Reply (List (Layered σ)) Bool
  | [] => ⟨.ok false, [], host⟩
  | store :: layers =>
    match delete key host store with
    | ⟨.ok there, store, host⟩ =>
      ((deleteAll key host layers).map (there || ·)).mapStore (store :: ·)
    | ⟨.error (.readOnly _), store, host⟩ =>
      (deleteAll key host layers).mapStore (store :: ·)
    | ⟨.error e, store, host⟩ => ⟨.error e, store :: layers, host⟩

end

end Layered

end Tariff
