import Mathlib.Data.List.Induction
import Mathlib.Data.List.Pairwise
import Mathlib.Tactic.Tauto
import Tariff.SortedMap

/-!
# Keys of sorted maps

Entries with different keys are all there after they have been inserted, in whatever order.  A
change of the value of a key that is there leaves the keys of a map as they are.
-/

namespace Tariff

variable {κ α : Type} [Ord κ]

namespace Assoc

/-- Whether entries ascend can be told from their keys. -/
theorem ascending_iff {entries : List (κ × α)} :
  Ascending entries ↔ (entries.map (·.1)).Pairwise fun k l => compare k l = .lt
  := by
  rw [Ascending, List.pairwise_map]

/-- A key above all others is inserted behind them. -/
theorem insert_of_forall_lt [Std.OrientedOrd κ] {k : κ} {a : α} {entries : List (κ × α)}
    (last : ∀ e ∈ entries, compare e.1 k = .lt) :
  insert k a entries = entries ++ [(k, a)]
  := by
  induction entries with
  | nil => rfl
  | cons e entries ih =>
    have gt : compare k e.1 = .gt := Std.OrientedCmp.gt_of_lt (last e List.mem_cons_self)
    rw [insert, gt]
    dsimp only
    rw [ih fun e e_mem => last e (List.mem_cons_of_mem _ e_mem), List.cons_append]

/-- That two keys are not in the same place of the order goes both ways. -/
theorem compare_ne_symm [Std.OrientedOrd κ] {k l : κ} (ne : compare k l ≠ .eq) :
  compare l k ≠ .eq
  := fun eq => ne (Std.OrientedCmp.eq_symm eq)

/-- Keys that do not occur twice differ in their order. -/
theorem pairwise_ne_of_nodup [Std.LawfulEqOrd κ] {entries : List (κ × α)}
    (distinct : (entries.map (·.1)).Nodup) :
  entries.Pairwise fun e f => compare e.1 f.1 ≠ .eq
  := by
  apply (List.pairwise_map.mp distinct).imp
  intro e f ne eq
  exact ne (Std.LawfulEqCmp.eq_of_compare eq)

/-- Ascending keys differ in their order. -/
theorem Ascending.pairwise_ne {entries : List (κ × α)} (ascending : Ascending entries) :
  entries.Pairwise fun e f => compare e.1 f.1 ≠ .eq
  := by
  apply ascending.imp
  intro e f lt eq
  cases lt.symm.trans eq

/-- A new key is inserted among the entries that are there. -/
theorem insert_perm {k : κ} {a : α} {entries : List (κ × α)}
    (new : ∀ e ∈ entries, compare k e.1 ≠ .eq) :
  (insert k a entries).Perm ((k, a) :: entries)
  := by
  induction entries with
  | nil => apply List.Perm.refl _
  | cons e entries ih =>
    obtain ⟨k', b⟩ := e
    unfold insert
    split
    case h_1 => apply List.Perm.refl _
    case h_2 eq => exact absurd eq (new _ List.mem_cons_self)
    case h_3 =>
      have inserted := ih fun e e_mem => new e (List.mem_cons_of_mem _ e_mem)
      apply (inserted.cons _).trans (List.Perm.swap ..)

/-- Entries with different keys are all there after they have been inserted one by one. -/
theorem foldl_insert_perm [Std.OrientedOrd κ] {pairs entries : List (κ × α)}
    (distinct : (entries ++ pairs).Pairwise fun e f => compare e.1 f.1 ≠ .eq) :
  (pairs.foldl (fun entries pair => insert pair.1 pair.2 entries) entries).Perm (entries ++ pairs)
  := by
  induction pairs generalizing entries with
  | nil =>
    rw [List.append_nil]
    apply List.Perm.refl _
  | cons pair pairs ih =>
    have new : ∀ e ∈ entries, compare pair.1 e.1 ≠ .eq := by
      intro e e_mem
      exact compare_ne_symm ((List.pairwise_append.mp distinct).2.2 e e_mem pair List.mem_cons_self)
    have moved : (insert pair.1 pair.2 entries ++ pairs).Perm (entries ++ pair :: pairs) :=
      ((insert_perm new).append_right pairs).trans List.perm_middle.symm
    rw [List.foldl_cons]
    apply (ih ((moved.pairwise_iff compare_ne_symm).mpr distinct)).trans moved

/-- A value that is found is that of an entry. -/
theorem exists_mem_of_find? {k : κ} {a : α} {entries : List (κ × α)}
    (found : find? k entries = some a) :
  ∃ e ∈ entries, e.2 = a
  := by
  induction entries with
  | nil => cases found
  | cons e entries ih =>
    simp only [find?] at found
    split at found
    case isTrue => exact ⟨e, List.mem_cons_self, Option.some.inj found⟩
    case isFalse =>
      obtain ⟨e, e_mem, eq⟩ := ih found
      exact ⟨e, List.mem_cons_of_mem _ e_mem, eq⟩

/-- The keys with a value are those of the entries. -/
theorem isSome_find?_iff {k : κ} {entries : List (κ × α)} :
  (find? k entries).isSome = true ↔ ∃ e ∈ entries, compare k e.1 = .eq
  := by
  induction entries with
  | nil => simp [find?]
  | cons e entries ih =>
    rw [find?]
    split
    case isTrue eq => simp [eq]
    case isFalse ne => simp [ne, ih]

/-- The key of an entry has its value. -/
theorem find?_of_mem [Std.ReflOrd κ] [Std.OrientedOrd κ] {e : κ × α} {entries : List (κ × α)}
    (ascending : Ascending entries) (e_mem : e ∈ entries) :
  find? e.1 entries = some e.2
  := by
  induction entries with
  | nil => cases e_mem
  | cons f entries ih =>
    obtain ⟨f_lt, ascending⟩ := List.pairwise_cons.mp ascending
    rcases List.mem_cons.mp e_mem with rfl | e_mem
    · simp [find?, Std.ReflOrd.compare_self]
    · have gt : compare e.1 f.1 = .gt := Std.OrientedCmp.gt_of_lt (f_lt e e_mem)
      simp only [find?, gt, reduceCtorEq, if_false]
      apply ih ascending e_mem

/-- The keys after an insertion are those before it and the inserted one. -/
theorem mem_map_fst_insert [Std.LawfulEqOrd κ] {k l : κ} {a : α} {entries : List (κ × α)} :
  l ∈ (insert k a entries).map (·.1) ↔ l = k ∨ l ∈ entries.map (·.1)
  := by
  induction entries with
  | nil => simp [insert]
  | cons e entries ih =>
    obtain ⟨k', b⟩ := e
    unfold insert
    split
    case h_1 => simp
    case h_2 eq =>
      obtain rfl := Std.LawfulEqCmp.eq_of_compare eq
      simp
    case h_3 =>
      rw [List.map_cons, List.mem_cons, ih, List.map_cons, List.mem_cons]
      apply or_left_comm

variable [Std.TransOrd κ]

/-- A key that is not above the first one and not equal to it has no value. -/
theorem find?_eq_none_of_ascending {k : κ} {e : κ × α} {entries : List (κ × α)}
    (ascending : Ascending (e :: entries)) (lt : compare k e.1 = .lt) :
  find? k (e :: entries) = none
  := by
  obtain ⟨head_lt, -⟩ := List.pairwise_cons.mp ascending
  apply find?_eq_none_of_lt
  intro f f_mem
  rcases List.mem_cons.mp f_mem with rfl | f_mem
  · apply lt
  · apply Std.TransCmp.lt_trans lt (head_lt f f_mem)

/-- A key that is there keeps its place when it is given another value. -/
theorem map_fst_insert {k : κ} {a b : α} {entries : List (κ × α)} (ascending : Ascending entries)
    (there : find? k entries = some b) :
  (insert k a entries).map (·.1) = entries.map (·.1)
  := by
  induction entries with
  | nil => cases there
  | cons e entries ih =>
    obtain ⟨k', b'⟩ := e
    unfold insert
    split
    case h_1 lt =>
      rw [find?_eq_none_of_ascending ascending lt] at there
      cases there
    case h_2 => rfl
    case h_3 gt =>
      simp only [find?, gt, reduceCtorEq, if_false] at there
      rw [List.map_cons, List.map_cons, ih ascending.tail there]

end Assoc

namespace SortedMap

/-- A map is given by its entries. -/
theorem eq_of_entries {map map' : SortedMap κ α} (eq : map.entries = map'.entries) :
  map = map'
  := by
  cases map
  cases eq
  rfl

variable [Std.TransOrd κ]

/-- The keys of a map have values. -/
theorem exists_find?_of_mem_keys {map : SortedMap κ α} {k : κ} (k_mem : k ∈ map.keys) :
  ∃ a, map.find? k = some a
  := by
  obtain ⟨e, e_mem, rfl⟩ := List.mem_map.mp k_mem
  exact ⟨e.2, Assoc.find?_of_mem map.ascending e_mem⟩

/-- The keys of a map stay when a key that is there is given another value. -/
theorem keys_insert {map : SortedMap κ α} {k : κ} {a b : α} (there : map.find? k = some b) :
  (map.insert k a).keys = map.keys
  := Assoc.map_fst_insert map.ascending there

/-- An inserted key has the inserted value. -/
theorem find?_insert_self (map : SortedMap κ α) (k : κ) (a : α) :
  (map.insert k a).find? k = some a
  := Assoc.find?_insert_self k a map.entries

/-- A removed key has no value. -/
theorem find?_erase_self (map : SortedMap κ α) (k : κ) :
  (map.erase k).find? k = none
  := Assoc.find?_erase_self k map.ascending

/-- Another key keeps its value when one is inserted. -/
theorem find?_insert_of_ne [Std.LawfulEqOrd κ] (map : SortedMap κ α) {k l : κ} (h : l ≠ k)
    (a : α) :
  (map.insert k a).find? l = map.find? l
  := Assoc.find?_insert_of_ne (fun eq => h (Std.LawfulEqCmp.eq_of_compare eq)) a map.entries

/-- Ascending lists with the same members are equal. -/
theorem eq_of_ascending {keys keys' : List κ}
    (ascending : keys.Pairwise fun k l => compare k l = .lt)
    (ascending' : keys'.Pairwise fun k l => compare k l = .lt)
    (same : ∀ k, k ∈ keys ↔ k ∈ keys') :
  keys = keys'
  := by
  have ne_of_lt (k l : κ) (lt : compare k l = .lt) : k ≠ l := by
    rintro rfl
    rw [Std.ReflOrd.compare_self] at lt
    cases lt
  have perm : keys.Perm keys' := (List.perm_ext_iff_of_nodup
    (ascending.imp fun {k l} => ne_of_lt k l) (ascending'.imp fun {k l} => ne_of_lt k l)).mpr same
  apply perm.eq_of_pairwise _ ascending ascending'
  intro k l _ _ lt gt
  rw [Std.OrientedCmp.gt_of_lt lt] at gt
  cases gt

/-- Pairs are inserted in a map as in its entries. -/
theorem entries_foldl_insert (pairs : List (κ × α)) (map : SortedMap κ α) :
  (pairs.foldl (fun map pair => map.insert pair.1 pair.2) map).entries =
    pairs.foldl (fun entries pair => Assoc.insert pair.1 pair.2 entries) map.entries
  := by
  induction pairs generalizing map with
  | nil => rfl
  | cons pair pairs ih => apply ih

/-- The last of the pairs with a key gives the key its value. -/
theorem find?_ofList (pairs : List (κ × α)) (k : κ) :
  (ofList pairs).find? k = (pairs.reverse.find? fun p => compare k p.1 = .eq).map (·.2)
  := by
  induction pairs using List.reverseRecOn with
  | nil => rfl
  | append_singleton pairs p ih =>
    have last : ofList (pairs ++ [p]) = (ofList pairs).insert p.1 p.2 := by
      rw [ofList, List.foldl_append]
      rfl
    rw [last, find?_insert, List.reverse_append, List.reverse_singleton, List.singleton_append,
      List.find?_cons, ih]
    split
    case isTrue eq => simp [eq]
    case isFalse ne => simp [ne]

/-- Pairs with different keys are the entries of their map. -/
theorem entries_ofList_perm {pairs : List (κ × α)}
    (distinct : pairs.Pairwise fun e f => compare e.1 f.1 ≠ .eq) :
  (ofList pairs).entries.Perm pairs
  := by
  rw [ofList, entries_foldl_insert]
  exact Assoc.foldl_insert_perm distinct

/-- The entries of a map give the map, in whatever order. -/
theorem ofList_eq_of_perm {pairs : List (κ × α)} {map : SortedMap κ α}
    (perm : pairs.Perm map.entries) :
  ofList pairs = map
  := by
  have distinct := (perm.pairwise_iff Assoc.compare_ne_symm).mpr map.ascending.pairwise_ne
  have entries_eq : (ofList pairs).entries = map.entries := by
    apply ((entries_ofList_perm distinct).trans perm).eq_of_pairwise _ (ofList pairs).ascending
      map.ascending
    intro e f _ _ lt gt
    rw [Std.OrientedCmp.gt_of_lt lt] at gt
    cases gt
  exact eq_of_entries entries_eq

/-- The keys of a list of pairs are those of its members. -/
theorem mem_keys_ofList [Std.LawfulEqOrd κ] {k : κ} {pairs : List (κ × α)} :
  k ∈ (ofList pairs).keys ↔ k ∈ pairs.map (·.1)
  := by
  have inserted (map : SortedMap κ α) : k ∈ (pairs.foldl
      (fun map pair => map.insert pair.1 pair.2) map).keys ↔ k ∈ map.keys ∨ k ∈ pairs.map (·.1) := by
    induction pairs generalizing map with
    | nil => simp
    | cons pair pairs ih =>
      have first : k ∈ (map.insert pair.1 pair.2).keys ↔ k = pair.1 ∨ k ∈ map.keys :=
        Assoc.mem_map_fst_insert
      rw [List.foldl_cons, ih, first, List.map_cons, List.mem_cons]
      tauto
  rw [ofList, inserted]
  simp [keys, empty]

end SortedMap

end Tariff
