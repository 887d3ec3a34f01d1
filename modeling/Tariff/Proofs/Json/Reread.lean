import Mathlib.Data.List.Forall2
import Tariff.Proofs.Json.Structure

/-!
# Values that are read back

A number is read back from its text, which may give another number or none.  A value is read back
as the same value with its numbers read back, unless it nests too deeply.
-/

namespace Tariff.Json

/-- What a number is read back as from its text. -/
def Number.reread? (n : Number) : Option Json :=
  (ofText n.toText).toOption

mutual

/-- The value with its numbers read back, if it nests as deep as may be read. -/
def reread? (depth : Nat) : Json → Option Json
  | .null => some .null
  | .bool b => some (.bool b)
  | .number n => n.reread?
  | .string s => some (.string s)
  | .array items =>
    match depth with
    | 0 => none
    | depth + 1 => (rereadItems? depth items).map .array
  | .object members =>
    match depth with
    | 0 => none
    | depth + 1 => (rereadMembers? depth members).map .object

/-- Items with their numbers read back. -/
def rereadItems? (depth : Nat) : List Json → Option (List Json)
  | [] => some []
  | v :: items => (reread? depth v).bind fun v => (rereadItems? depth items).map (v :: ·)

/-- Members with their numbers read back. -/
def rereadMembers? (depth : Nat) : List (String × Json) → Option (List (String × Json))
  | [] => some []
  | (name, v) :: members =>
    (reread? depth v).bind fun v => (rereadMembers? depth members).map ((name, v) :: ·)

end

variable {depth : Nat}

/-- All items are read back if each of them is. -/
theorem isSome_rereadItems?_iff {items : List Json} :
  (rereadItems? depth items).isSome = true ↔ ∀ v ∈ items, (reread? depth v).isSome = true
  := by
  induction items with
  | nil => simp [rereadItems?]
  | cons v items ih =>
    rw [rereadItems?, List.forall_mem_cons, ← ih]
    cases reread? depth v <;> simp

/-- All members are read back if the value of each of them is. -/
theorem isSome_rereadMembers?_iff {members : List (String × Json)} :
  (rereadMembers? depth members).isSome = true ↔
    ∀ m ∈ members, (reread? depth m.2).isSome = true
  := by
  induction members with
  | nil => simp [rereadMembers?]
  | cons m members ih =>
    rw [rereadMembers?, List.forall_mem_cons, ← ih]
    cases reread? depth m.2 <;> simp

/-- Parts are all read back if none of them nests too deeply and all their numbers are read back. -/
theorem forall_isSome_iff {α : Type} {parts : List α} {value : α → Json}
    (each : ∀ a ∈ parts, (reread? depth (value a)).isSome = true ↔
      (value a).nesting ≤ depth ∧ ∀ n ∈ (value a).numbers, n.reread?.isSome = true) :
  (∀ a ∈ parts, (reread? depth (value a)).isSome = true) ↔
    (∀ a ∈ parts, (value a).nesting ≤ depth) ∧
      ∀ n, (∃ a ∈ parts, n ∈ (value a).numbers) → n.reread?.isSome = true
  := by
  constructor
  · intro all
    constructor
    · intro a a_mem
      apply ((each a a_mem).mp (all a a_mem)).1
    · rintro n ⟨a, a_mem, n_mem⟩
      apply ((each a a_mem).mp (all a a_mem)).2 n n_mem
  · rintro ⟨shallow, all⟩ a a_mem
    apply (each a a_mem).mpr
    exact ⟨shallow a a_mem, fun n n_mem => all n ⟨a, a_mem, n_mem⟩⟩

/-- A value is read back if it does not nest too deeply and its numbers are read back. -/
theorem isSome_reread?_iff {v : Json} :
  (reread? depth v).isSome = true ↔
    v.nesting ≤ depth ∧ ∀ n ∈ v.numbers, n.reread?.isSome = true
  := by
  induction v using Json.ind generalizing depth with
  | null => simp [reread?, nesting, numbers]
  | bool b => simp [reread?, nesting, numbers]
  | number n => simp [reread?, nesting, numbers]
  | string s => simp [reread?, nesting, numbers]
  | array items ih =>
    cases depth with
    | zero => simp [reread?, nesting]
    | succ depth =>
      rw [reread?, Option.isSome_map, isSome_rereadItems?_iff, nesting, Nat.succ_le_succ_iff,
        nestingItems_le_iff, numbers]
      simp only [mem_numbersInItems]
      apply forall_isSome_iff fun v v_mem => ih v v_mem
  | object members ih =>
    cases depth with
    | zero => simp [reread?, nesting]
    | succ depth =>
      rw [reread?, Option.isSome_map, isSome_rereadMembers?_iff, nesting, Nat.succ_le_succ_iff,
        nestingMembers_le_iff, numbers]
      simp only [mem_numbersInMembers]
      apply forall_isSome_iff fun m m_mem => ih m m_mem

/-! ### Parts -/

/-- What holds of each item and what it is read back as holds of them one by one. -/
theorem forall₂_of_rereadItems? {R : Json → Json → Prop} {items items' : List Json}
    (each : ∀ v ∈ items, ∀ v', reread? depth v = some v' → R v v')
    (read : rereadItems? depth items = some items') :
  List.Forall₂ R items items'
  := by
  induction items generalizing items' with
  | nil =>
    cases read
    exact .nil
  | cons v items ih =>
    obtain ⟨first, others⟩ := List.forall_mem_cons.mp each
    obtain ⟨v', read_v, read⟩ := Option.bind_eq_some_iff.mp read
    obtain ⟨items', read_items, rfl⟩ := Option.map_eq_some_iff.mp read
    exact .cons (first v' read_v) (ih others read_items)

/-- What holds of each member and what it is read back as holds of them one by one. -/
theorem forall₂_of_rereadMembers? {R : String × Json → String × Json → Prop}
    {members members' : List (String × Json)}
    (each : ∀ m ∈ members, ∀ v', reread? depth m.2 = some v' → R m (m.1, v'))
    (read : rereadMembers? depth members = some members') :
  List.Forall₂ R members members'
  := by
  induction members generalizing members' with
  | nil =>
    cases read
    exact .nil
  | cons m members ih =>
    obtain ⟨first, others⟩ := List.forall_mem_cons.mp each
    obtain ⟨v', read_v, read⟩ := Option.bind_eq_some_iff.mp read
    obtain ⟨members', read_members, rfl⟩ := Option.map_eq_some_iff.mp read
    exact .cons (first v' read_v) (ih others read_members)

/-- Items are added to those before with their numbers read back. -/
theorem foldlM_rereadItems? (items before : List Json) :
  items.foldlM (fun before v => (reread? depth v).map (· :: before)) before =
    (rereadItems? depth items).map (·.reverse ++ before)
  := by
  induction items generalizing before with
  | nil => rfl
  | cons v items ih =>
    rw [List.foldlM_cons, rereadItems?]
    cases reread? depth v with
    | none => rfl
    | some v =>
      change items.foldlM _ (v :: before) = _
      rw [ih]
      cases rereadItems? depth items <;> simp

/-- Ascending members are added to those before with their numbers read back. -/
theorem foldlM_rereadMembers? (members before : List (String × Json))
    (ascending : Assoc.Ascending (before ++ members)) :
  members.foldlM (fun before m => (reread? depth m.2).map (Assoc.insert m.1 · before)) before =
    (rereadMembers? depth members).map (before ++ ·)
  := by
  induction members generalizing before with
  | nil => simp [rereadMembers?]
  | cons m members ih =>
    obtain ⟨name, v⟩ := m
    -- As the names ascend, each member is inserted behind all those before.
    rw [List.foldlM_cons, rereadMembers?]
    cases reread? depth v with
    | none => rfl
    | some v' =>
      have last : ∀ e ∈ before, compare e.1 name = .lt :=
        fun e e_mem => (List.pairwise_append.mp ascending).2.2 e e_mem _ List.mem_cons_self
      have ascending' : Assoc.Ascending ((before ++ [(name, v')]) ++ members) := by
        rw [Assoc.ascending_iff] at ascending ⊢
        simpa using ascending
      change members.foldlM _ (Assoc.insert name v' before) = _
      rw [Assoc.insert_of_forall_lt last, ih _ ascending']
      cases rereadMembers? depth members <;> simp

/-- What is found in members that have been read back is what was found before, read back. -/
theorem find?_of_rereadMembers? {members found : List (String × Json)}
    (read : rereadMembers? depth members = some found) (key : String) :
  Assoc.find? key found = (Assoc.find? key members).bind (reread? depth)
  := by
  induction members generalizing found with
  | nil =>
    cases read
    rfl
  | cons m members ih =>
    obtain ⟨v, read_v, read⟩ := Option.bind_eq_some_iff.mp read
    obtain ⟨others, read_others, rfl⟩ := Option.map_eq_some_iff.mp read
    simp only [Assoc.find?]
    split
    · apply read_v.symm
    · apply ih read_others

/-- Members that have been read back have the names they had. -/
theorem names_of_rereadMembers? {members found : List (String × Json)}
    (read : rereadMembers? depth members = some found) :
  found.map (·.1) = members.map (·.1)
  := by
  induction members generalizing found with
  | nil =>
    cases read
    rfl
  | cons m members ih =>
    obtain ⟨v, read_v, read⟩ := Option.bind_eq_some_iff.mp read
    obtain ⟨others, read_others, rfl⟩ := Option.map_eq_some_iff.mp read
    rw [List.map_cons, List.map_cons, ih read_others]

/-! ### Maps -/

/-- The entries of a map with their numbers read back. -/
def rereadMap? (depth : Nat) (map : SortedMap String Json) : Option (SortedMap String Json) :=
  map.entries.foldlM (fun found m => (reread? depth m.2).map fun v => found.insert m.1 v) .empty

/-- Entries are inserted in a map as in a list. -/
theorem map_entries_foldlM (members : List (String × Json)) (found : SortedMap String Json) :
  (members.foldlM (fun found m => (reread? depth m.2).map fun v => found.insert m.1 v) found).map
      (·.entries) =
    members.foldlM (fun before m => (reread? depth m.2).map (Assoc.insert m.1 · before))
      found.entries
  := by
  induction members generalizing found with
  | nil => rfl
  | cons m members ih =>
    rw [List.foldlM_cons, List.foldlM_cons]
    cases reread? depth m.2 with
    | none => rfl
    | some v => apply ih (found.insert m.1 v)

/-- The entries of a map are read back one by one. -/
theorem map_entries_rereadMap? (map : SortedMap String Json) :
  (rereadMap? depth map).map (·.entries) = rereadMembers? depth map.entries
  := by
  rw [rereadMap?, map_entries_foldlM]
  apply (foldlM_rereadMembers? map.entries [] map.ascending).trans
  simp

/-- A map is read back if all its values are. -/
theorem isSome_rereadMap?_iff_forall {map : SortedMap String Json} :
  (rereadMap? depth map).isSome = true ↔ ∀ e ∈ map.entries, (reread? depth e.2).isSome = true
  := by
  rw [← Option.isSome_map, map_entries_rereadMap?, isSome_rereadMembers?_iff]

/-- All values of a map that is read back are read back. -/
theorem isSome_of_rereadMap? {map found : SortedMap String Json}
    (read : rereadMap? depth map = some found) :
  ∀ e ∈ map.entries, (reread? depth e.2).isSome = true
  := isSome_rereadMap?_iff_forall.mp (Option.isSome_iff_exists.mpr ⟨found, read⟩)

/-- What is found in a map that has been read back is what was found before, read back. -/
theorem find?_of_rereadMap? {map found : SortedMap String Json}
    (read : rereadMap? depth map = some found) (key : String) :
  found.find? key = (map.find? key).bind (reread? depth)
  := by
  apply find?_of_rereadMembers?
  rw [← map_entries_rereadMap?, read]
  rfl

/-- A map that has been read back has the keys it had. -/
theorem keys_of_rereadMap? {map found : SortedMap String Json}
    (read : rereadMap? depth map = some found) :
  found.keys = map.keys
  := by
  apply names_of_rereadMembers?
  rw [← map_entries_rereadMap?, read]
  rfl

/-- A map is read back if its values do not nest too deeply and their numbers are read back. -/
theorem isSome_rereadMap?_iff {map : SortedMap String Json} :
  (rereadMap? depth map).isSome = true ↔
    ∀ e ∈ map.entries, e.2.nesting ≤ depth ∧ ∀ n ∈ e.2.numbers, n.reread?.isSome = true
  := by
  simp only [isSome_rereadMap?_iff_forall, isSome_reread?_iff]

end Tariff.Json
