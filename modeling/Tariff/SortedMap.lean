import Tariff.Assoc

/-!
# Sorted maps

A finite map is a list of entries whose keys ascend, so that no key occurs twice and two maps with
the same keys list them alike.  The main statements say which value a key has after an insertion
and after a removal.
-/

namespace Tariff

/-- A finite map: its entries in ascending order of their keys. -/
structure SortedMap (κ α : Type) [Ord κ] where
  entries : List (κ × α)
  ascending : Assoc.Ascending entries

namespace SortedMap

variable {κ α : Type} [Ord κ]

/-- The map without entries. -/
def empty : SortedMap κ α := ⟨[], List.Pairwise.nil⟩

/-- The value of a key. -/
def find? (map : SortedMap κ α) (k : κ) : Option α :=
  Assoc.find? k map.entries

/-- The keys in ascending order. -/
def keys (map : SortedMap κ α) : List κ :=
  map.entries.map (·.1)

/-- The number of keys. -/
def size (map : SortedMap κ α) : Nat :=
  map.entries.length

/-- The map without the key `k`. -/
def erase (map : SortedMap κ α) (k : κ) : SortedMap κ α :=
  ⟨Assoc.erase k map.entries, Assoc.ascending_erase k map.ascending⟩

/-- The keys of a map ascend. -/
theorem pairwise_keys (map : SortedMap κ α) :
  map.keys.Pairwise fun k l => compare k l = .lt
  := List.pairwise_map.mpr map.ascending

/-- No key has a value in the empty map. -/
@[simp] theorem find?_empty (k : κ) :
  (empty : SortedMap κ α).find? k = none
  := rfl

variable [Std.TransOrd κ]

/-- The map with `k` mapped to `a`. -/
def insert (map : SortedMap κ α) (k : κ) (a : α) : SortedMap κ α :=
  ⟨Assoc.insert k a map.entries, Assoc.ascending_insert k a map.ascending⟩

/-- The map of a list of pairs, the last of several with one key. -/
def ofList (pairs : List (κ × α)) : SortedMap κ α :=
  pairs.foldl (fun map pair => map.insert pair.1 pair.2) empty

/-- Insertion gives the inserted key its value and leaves the other keys theirs. -/
theorem find?_insert (map : SortedMap κ α) (k l : κ) (a : α) :
  (map.insert k a).find? l = if compare l k = .eq then some a else map.find? l
  := by
  split
  · rename_i h
    rw [find?, Assoc.find?_congr h]
    apply Assoc.find?_insert_self
  · rename_i h
    apply Assoc.find?_insert_of_ne h

/-- Removal takes the removed key's value and leaves the other keys theirs. -/
theorem find?_erase (map : SortedMap κ α) (k l : κ) :
  (map.erase k).find? l = if compare l k = .eq then none else map.find? l
  := by
  split
  · rename_i h
    rw [find?, Assoc.find?_congr h]
    apply Assoc.find?_erase_self k map.ascending
  · rename_i h
    apply Assoc.find?_erase_of_ne h

end SortedMap

end Tariff
