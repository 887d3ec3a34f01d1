import Tariff.Proofs.Json.Values
import Tariff.Proofs.SortedMap

/-!
# The structure of values

A value is a tree whose leaves are numbers, strings and words.  Values that have been read have the
members of their objects in ascending order.
-/

namespace Tariff.Json

/-- What holds of a value if it holds of its parts holds of all values. -/
@[elab_as_elim]
theorem ind {P : Json → Prop} (null : P .null) (bool : ∀ b, P (.bool b))
    (number : ∀ n, P (.number n)) (string : ∀ s, P (.string s))
    (array : ∀ items, (∀ v ∈ items, P v) → P (.array items))
    (object : ∀ members, (∀ m ∈ members, P m.2) → P (.object members)) :
    ∀ v, P v
  | .null => null
  | .bool b => bool b
  | .number n => number n
  | .string s => string s
  | .array items => array items fun v v_mem =>
    have smaller : sizeOf v < sizeOf (Json.array items) :=
      Nat.lt_of_lt_of_le (List.sizeOf_lt_of_mem v_mem) (by simp)
    ind null bool number string array object v
  | .object members => object members fun m m_mem =>
    have smaller : sizeOf m.2 < sizeOf (Json.object members) := by
      obtain ⟨name, v⟩ := m
      have pair_lt := List.sizeOf_lt_of_mem m_mem
      simp only [Prod.mk.sizeOf_spec, Json.object.sizeOf_spec] at pair_lt ⊢
      omega
    ind null bool number string array object m.2
termination_by v => sizeOf v
decreasing_by
  · apply smaller
  · apply smaller

mutual

/-- The number of containers that are open at once inside a value. -/
def nesting : Json → Nat
  | .array items => nestingItems items + 1
  | .object members => nestingMembers members + 1
  | _ => 0

/-- The highest number of containers that are open at once inside an item. -/
def nestingItems : List Json → Nat
  | [] => 0
  | item :: items => max (nesting item) (nestingItems items)

/-- The highest number of containers that are open at once inside a member. -/
def nestingMembers : List (String × Json) → Nat
  | [] => 0
  | (_, value) :: members => max (nesting value) (nestingMembers members)

end

mutual

/-- The numbers inside a value. -/
def numbers : Json → List Number
  | .number n => [n]
  | .array items => numbersInItems items
  | .object members => numbersInMembers members
  | _ => []

/-- The numbers inside items. -/
def numbersInItems : List Json → List Number
  | [] => []
  | item :: items => numbers item ++ numbersInItems items

/-- The numbers inside members. -/
def numbersInMembers : List (String × Json) → List Number
  | [] => []
  | (_, value) :: members => numbers value ++ numbersInMembers members

end

/-- The members of all objects inside a value are in ascending order. -/
inductive Sorted : Json → Prop where
  | null : Sorted .null
  | bool (b : Bool) : Sorted (.bool b)
  | number (n : Number) : Sorted (.number n)
  | string (s : String) : Sorted (.string s)
  | array (items : List Json) : (∀ v ∈ items, Sorted v) → Sorted (.array items)
  | object (members : List (String × Json)) :
    Assoc.Ascending members → (∀ m ∈ members, Sorted m.2) → Sorted (.object members)

/-- All items nest as little as the one that nests most. -/
theorem nestingItems_le_iff {depth : Nat} (items : List Json) :
  nestingItems items ≤ depth ↔ ∀ v ∈ items, v.nesting ≤ depth
  := by
  induction items with
  | nil => simp [nestingItems]
  | cons v items ih => rw [nestingItems, Nat.max_le, ih, List.forall_mem_cons]

/-- All members nest as little as the one that nests most. -/
theorem nestingMembers_le_iff {depth : Nat} (members : List (String × Json)) :
  nestingMembers members ≤ depth ↔ ∀ m ∈ members, m.2.nesting ≤ depth
  := by
  induction members with
  | nil => simp [nestingMembers]
  | cons m members ih => rw [nestingMembers, Nat.max_le, ih, List.forall_mem_cons]

/-- The numbers inside items are those inside one of them. -/
theorem mem_numbersInItems {n : Number} (items : List Json) :
  n ∈ numbersInItems items ↔ ∃ v ∈ items, n ∈ v.numbers
  := by
  induction items with
  | nil => simp [numbersInItems]
  | cons v items ih => simp [numbersInItems, ih]

/-- The numbers inside members are those inside one of them. -/
theorem mem_numbersInMembers {n : Number} (members : List (String × Json)) :
  n ∈ numbersInMembers members ↔ ∃ m ∈ members, n ∈ m.2.numbers
  := by
  induction members with
  | nil => simp [numbersInMembers]
  | cons m members ih => simp [numbersInMembers, ih]

/-! ### Values that have been read -/

namespace Reader

variable {α β σ : Type} {P : α → Prop} {Q : β → Prop}

/-- Whatever is read has a property. -/
def Yields (P : α → Prop) (r : Reader α) : Prop :=
  ∀ cs a rest, r cs = .ok (a, rest) → P a

/-- What a sequence yields is what its last member yields behind what the first one yields. -/
theorem Yields.bind {r : Reader α} {f : α → Reader β} (first : Yields P r)
    (second : ∀ a, P a → Yields Q (f a)) :
  Yields Q (r >>= f)
  := by
  intro cs b rest read
  obtain ⟨a, mid, read_a, read_b⟩ := bind_eq_ok.mp read
  apply second a (first cs a mid read_a) mid b rest read_b

/-- A function is applied to what a reader yields. -/
theorem Yields.map {r : Reader α} {f : α → β} (first : Yields P r) (h : ∀ a, P a → Q (f a)) :
  Yields Q (f <$> r)
  := by
  intro cs b rest read
  obtain ⟨a, read_a, rfl⟩ := map_eq_ok.mp read
  apply h a (first cs a rest read_a)

/-- A property that every part keeps is kept by further parts. -/
theorem yields_moreParts {P : σ → Prop} {close : Char} {part : σ → Reader σ} {count : Nat}
    (yields_part : ∀ s, P s → Yields P (part s)) {s : σ} (h : P s) :
  Yields P (moreParts close part count s)
  := by
  induction count generalizing s with
  | zero =>
    intro cs s' rest read
    cases read
  | succ count ih =>
    intro cs s' rest read
    unfold moreParts at read
    split at read
    case h_1 => cases read
    case h_2 c mid _ =>
      split at read
      case isTrue =>
        cases read
        apply h
      case isFalse =>
        split at read
        case isTrue => apply (yields_part s h).bind (fun s h => ih h) mid s' rest read
        case isFalse => cases read

/-- A property that every part keeps is kept by all parts of a container. -/
theorem yields_parts {P : σ → Prop} {close : Char} {part : σ → Reader σ}
    (yields_part : ∀ s, P s → Yields P (part s)) {s : σ} (h : P s) :
  Yields P (parts close part s)
  := by
  intro cs s' rest read
  unfold parts at read
  split at read
  case h_1 => cases read
  case h_2 c mid _ =>
    split at read
    case isTrue =>
      cases read
      apply h
    case isFalse =>
      apply (yields_part s h).bind (fun s h => yields_moreParts yields_part h) _ s' rest read

/-- Members in ascending order whose values have a property. -/
def MembersOf (P : Json → Prop) (members : List (String × Json)) : Prop :=
  Assoc.Ascending members ∧ ∀ m ∈ members, P m.2

/-- Members stay in order and keep a property when one with that property is inserted. -/
theorem MembersOf.insert {P : Json → Prop} {members : List (String × Json)}
    (held : MembersOf P members) (name : String) {v : Json} (h : P v) :
  MembersOf P (Assoc.insert name v members)
  := by
  constructor
  · apply Assoc.ascending_insert name v held.1
  · intro m m_mem
    rcases (Assoc.eq_or_mem_of_mem_insert m_mem).2 with eq | m_mem
    · rw [eq]
      apply h
    · apply held.2 m m_mem

/-- Members keep a property of all values when one is read. -/
theorem yields_objectMember {P : Json → Prop} {depth : Nat} {members : List (String × Json)}
    (yields_value : Yields P (value depth)) (held : MembersOf P members) :
  Yields (MembersOf P) (objectMember .wanted depth members)
  := by
  intro cs members' rest read
  obtain ⟨name, mid, -, read⟩ := bind_eq_ok.mp read
  obtain ⟨v, mid', read_v, pure_eq⟩ := bind_eq_ok.mp read
  cases pure_eq
  apply held.insert name (yields_value _ _ _ read_v)

/-- What holds of all values without parts, and of containers if it holds of what they contain,
holds of what is read.  Numbers have been read from their digits. -/
theorem yields_value_of {P : Nat → Json → Prop}
    (leaf : ∀ depth v, isContainer v = false →
      (∀ n, v = .number n → ∃ negative digits rest, number negative digits = .ok (n, rest)) →
        P depth v)
    (array : ∀ depth items, (∀ v ∈ items, P depth v) → P (depth + 1) (.array items))
    (object : ∀ depth members, MembersOf (P depth) members → P (depth + 1) (.object members))
    (depth : Nat) :
  Yields (P depth) (value depth)
  := by
  induction depth using Nat.strongRecOn with
  | ind depth ih =>
    intro cs v rest read
    obtain ⟨c, mid, -, -, cases⟩ := of_value read
    rcases cases with ⟨-, d, all, rfl, rfl, read_items⟩ | ⟨-, d, members, rfl, rfl, read_members⟩ |
      ⟨-, -, no_container, read_number⟩
    · have yields_items : Yields (fun items => ∀ v ∈ items, P d v)
          (parts ']' (fun items => (· :: items) <$> value d) []) := by
        apply yields_parts
        · intro items held
          exact (ih d (Nat.lt_succ_self d)).map fun v h => List.forall_mem_cons.mpr ⟨h, held⟩
        · simp
      apply array
      intro v v_mem
      exact yields_items _ _ _ read_items v (List.mem_reverse.mp v_mem)
    · have yields_members : Yields (MembersOf (P d)) (parts '\x7d' (objectMember .wanted d) []) := by
        apply yields_parts
        · intro members
          apply yields_objectMember (ih d (Nat.lt_succ_self d))
        · exact ⟨List.Pairwise.nil, by simp⟩
      apply object
      apply yields_members _ _ _ read_members
    · apply leaf _ _ no_container
      intro n v_eq
      obtain ⟨negative, digits, read_n⟩ := read_number n v_eq
      exact ⟨negative, digits, rest, read_n⟩

/-- Values that have been read are sorted. -/
theorem yields_value (depth : Nat) :
  Yields Sorted (value depth)
  := by
  apply yields_value_of (P := fun _ => Sorted)
  · intro _ v no_container _
    cases v with
    | null => exact .null
    | bool b => exact .bool b
    | number n => exact .number n
    | string s => exact .string s
    | array items => cases no_container
    | object members => cases no_container
  · exact fun _ => .array
  · exact fun _ members held => .object members held.1 held.2

/-- What holds of all values that are read holds of those of a map that is read. -/
theorem yields_members_of {P : Json → Prop} (yields_value : Yields P (value (nestingLimit - 1))) :
  Yields (fun map : SortedMap String Json => ∀ e ∈ map.entries, P e.2) members
  := by
  intro cs map rest read
  unfold members at read
  split at read
  case h_1 mid _ =>
    have yields_entry (map : SortedMap String Json) (held : ∀ e ∈ map.entries, P e.2) :
        Yields (fun map : SortedMap String Json => ∀ e ∈ map.entries, P e.2)
          (memberName unitCharacter >>= fun name => value (nestingLimit - 1) >>= fun v =>
            pure (map.insert name v)) := by
      intro cs map' rest read
      obtain ⟨name, mid, -, read⟩ := bind_eq_ok.mp read
      obtain ⟨v, mid', read_v, pure_eq⟩ := bind_eq_ok.mp read
      cases pure_eq
      have both : MembersOf P map.entries := ⟨map.ascending, held⟩
      apply (both.insert name (yields_value _ _ _ read_v)).2
    have held_empty : ∀ e ∈ (SortedMap.empty : SortedMap String Json).entries, P e.2 := by
      intro e e_mem
      cases e_mem
    apply yields_parts yields_entry held_empty mid map rest read
  case h_2 =>
    have refused := toOption_scalar_none (α := SortedMap String Json) (dropBlanks cs)
    rw [read] at refused
    cases refused

/-- Maps that have been read hold sorted values. -/
theorem yields_members :
  Yields (fun map : SortedMap String Json => ∀ e ∈ map.entries, e.2.Sorted) members
  := yields_members_of (yields_value _)

end Reader

end Tariff.Json
