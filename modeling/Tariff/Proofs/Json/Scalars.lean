import Tariff.Proofs.Json.WrittenValues

/-!
# Values without parts

What is read of a value without parts is what the value is, if that is wanted.  Such a value is read
from its own text as what it is read back as.  A string is shorter than any text that it is read
from, so that no string is read from itself.
-/

namespace Tariff.Json.Reader

variable {α : Type} {cs rest : List Char} {convert : Json → Option α}

/-- Blanks are dropped only once. -/
theorem dropBlanks_dropBlanks (cs : List Char) :
  dropBlanks (dropBlanks cs) = dropBlanks cs
  := by
  cases front : dropBlanks cs with
  | nil => rfl
  | cons c mid => exact dropBlanks_cons (isBlank_of_dropBlanks front) mid

/-- Values are read from where the blanks end. -/
theorem value_dropBlanks (depth : Nat) (cs : List Char) :
  value depth (dropBlanks cs) = value depth cs
  := by
  rw [value, valueWith_eq, valueWith_eq, dropBlanks_dropBlanks]

/-- A value without parts is read if it is wanted. -/
theorem scalar_eq_ok {a : α} :
  scalar convert cs = .ok (a, rest) ↔ ∃ v, value 0 cs = .ok (v, rest) ∧ convert v = some a
  := by
  have refused {c : Char} {mid : List Char} (front : dropBlanks cs = c :: mid)
      (bracket : c = '[' ∨ c = '\x7b') (v : Json) (rest : List Char) : value 0 cs ≠ .ok (v, rest) := by
    intro read
    obtain ⟨c', mid', front', -, ⟨-, d, all, depth_eq, -⟩ | ⟨-, d, members, depth_eq, -⟩ |
      ⟨no_array, no_object, -⟩⟩ := of_value read
    · cases depth_eq
    · cases depth_eq
    · rw [front] at front'
      cases front'
      rcases bracket with rfl | rfl
      · exact no_array rfl
      · exact no_object rfl
  unfold scalar
  split
  case h_1 mid front =>
    constructor
    · nofun
    · rintro ⟨v, read, -⟩
      exact absurd read (refused front (.inl rfl) v rest)
  case h_2 mid front =>
    constructor
    · nofun
    · rintro ⟨v, read, -⟩
      exact absurd read (refused front (.inr rfl) v rest)
  case h_3 =>
    rw [bind_eq_ok, value_dropBlanks]
    constructor
    · rintro ⟨v, mid, read, converted⟩
      cases wanted : convert v with
      | none =>
        rw [wanted] at converted
        cases converted
      | some b =>
        rw [wanted] at converted
        cases converted
        exact ⟨v, read, wanted⟩
    · rintro ⟨v, read, eq⟩
      refine ⟨v, rest, read, ?_⟩
      rw [eq]
      rfl

/-- A value without parts is read alike whatever the bound on open containers. -/
theorem value_of_scalar {depth : Nat} {v : Json} (read : value depth cs = .ok (v, rest))
    (no_container : isContainer v = false) (depth' : Nat) :
  value depth' cs = .ok (v, rest)
  := by
  obtain ⟨c, mid, front, no_array, no_object⟩ := of_value_scalar read no_container
  have from_eq : valueFrom .wanted depth' c = valueFrom .wanted depth c := by
    unfold valueFrom
    simp only [if_neg no_array, if_neg no_object]
  rw [value, valueWith_eq, front] at read ⊢
  dsimp only at read ⊢
  rw [from_eq]
  exact read

/-- A value that is wanted only without parts is read as any value and then converted. -/
theorem scalar_of_value {depth : Nat} {v : Json} (read : value depth cs = .ok (v, rest))
    (refuses : isContainer v = true → convert v = none) :
  scalar convert cs = answer .mismatched rest (convert v)
  := by
  cases container : isContainer v with
  | true =>
    rw [refuses container]
    obtain ⟨c, mid, front, -, ⟨rfl, -⟩ | ⟨rfl, -⟩ | ⟨-, -, no_container, -⟩⟩ := of_value read
    · simp [scalar, front, answer]
    · simp [scalar, front, answer]
    · rw [container] at no_container
      cases no_container
  | false =>
    obtain ⟨c, mid, front, no_array, no_object⟩ := of_value_scalar read container
    have read_scalar := value_of_scalar read container 0
    rw [← value_dropBlanks] at read_scalar
    unfold scalar
    split
    case h_1 front' => exact absurd (List.cons.inj (front.symm.trans front')).1 no_array
    case h_2 front' => exact absurd (List.cons.inj (front.symm.trans front')).1 no_object
    case h_3 =>
      rw [bind_of_ok read_scalar]
      cases convert v <;> rfl

/-- A value without parts is read from its own text as what it is read back as. -/
theorem run_scalar_compact {v v' : Json} {a : α} (sorted : v.Sorted)
    (read : reread? 0 v = some v') (wanted : convert v' = some a) :
  (scalar convert).run v.compact = .ok a
  := by
  have no_more : EndsNumeral [] := by simp [EndsNumeral]
  have text_eq : v.compact.toList = Layout.compact.chars 0 v ++ [] := by
    rw [List.append_nil]
    exact String.toList_ofList
  refine run_eq_ok.mpr ⟨[], scalar_eq_ok.mpr ⟨v', ?_, wanted⟩, rfl⟩
  rw [text_eq, value_chars .compact sorted 0 no_more, read]
  rfl

/-- A function is applied to what is read from a whole text. -/
theorem run_map {β : Type} {r : Reader α} {text : String} {a : α} (f : α → β)
    (read : r.run text = .ok a) :
  (f <$> r).run text = .ok (f a)
  := by
  obtain ⟨rest, read, blank⟩ := run_eq_ok.mp read
  exact run_eq_ok.mpr ⟨rest, map_eq_ok.mpr ⟨a, read, rfl⟩, blank⟩

/-! ### Names -/

/-- A constant is read from its name between quotes. -/
theorem run_constant_compact {ofName? : String → Option α} {name : String} {a : α}
    (named : ofName? name = some a) :
  (constant ofName?).run (Json.string name).compact = .ok a
  := by
  have text_eq : (Json.string name).compact.toList = '"' :: (name.toList.flatMap escape ++ ['"']) :=
    String.toList_ofList
  have read_name : constantName ofName? ('"' :: (name.toList.flatMap escape ++ ['"'])) =
      .ok (a, []) := by
    have quote : mark '"' ('"' :: (name.toList.flatMap escape ++ ['"'])) = .ok ((), _) := rfl
    unfold constantName
    rw [bind_of_ok quote, bind_of_ok (stringTail_quoted name []), named]
    rfl
  refine run_eq_ok.mpr ⟨[], ?_, rfl⟩
  rw [text_eq, ← read_name]
  rfl

/-- A constant is read from behind a quote or a bracket. -/
theorem of_run_constant {ofName? : String → Option α} {text : String} {a : α}
    (read : (constant ofName?).run text = .ok a) :
  ∃ c mid, dropBlanks text.toList = c :: mid ∧ (c = '"' ∨ c = '\x7b')
  := by
  obtain ⟨rest, read, -⟩ := run_eq_ok.mp read
  unfold constant at read
  split at read
  case h_1 mid front => exact ⟨_, mid, front, .inr rfl⟩
  case h_2 =>
    obtain ⟨_, mid, read_mark, -⟩ := bind_eq_ok.mp read
    unfold mark at read_mark
    rw [dropBlanks_dropBlanks] at read_mark
    split at read_mark
    case h_1 => cases read_mark
    case h_2 c mid front =>
      split at read_mark
      case isTrue eq => exact ⟨c, mid, front, .inl eq.symm⟩
      case isFalse => cases read_mark

/-! ### Strings -/

/-- A character is read from at least one. -/
theorem length_lt_of_character {c : Char}
    (read : character unitCharacter cs = .ok (some c, rest)) :
  rest.length < cs.length
  := by
  obtain ⟨-, mid, -, mid_lt, rfl | ⟨rest_lt, -⟩⟩ := character_skipped read
  · exact mid_lt
  · exact Nat.lt_trans rest_lt mid_lt

/-- Characters and the quote behind them are read from more characters. -/
theorem length_lt_of_characters {count : Nat} {s : List Char}
    (read : characters unitCharacter count cs = .ok (s, rest)) :
  s.length + rest.length < cs.length
  := by
  induction count generalizing cs s with
  | zero => cases read
  | succ count ih =>
    obtain ⟨c?, mid, read_c, read_more⟩ := bind_eq_ok.mp read
    cases c? with
    | none =>
      cases read_more
      rw [of_character_none read_c]
      simp
    | some c =>
      obtain ⟨s', _, read_s, pure_eq⟩ := bind_eq_ok.mp read_more
      cases pure_eq
      have mid_lt := length_lt_of_character read_c
      have s_lt := ih read_s
      rw [List.length_cons]
      omega

/-- A string is read from behind its quote. -/
theorem of_value_string {depth : Nat} {s : String} (read : value depth cs = .ok (.string s, rest)) :
  ∃ mid, dropBlanks cs = '"' :: mid ∧ stringTail unitCharacter mid = .ok (s, rest)
  := by
  rw [value, valueWith_eq] at read
  split at read
  case h_1 => cases read
  case h_2 c mid front =>
    split at read
    case isTrue =>
      obtain ⟨m, -, eq⟩ := map_eq_ok.mp read
      cases eq
    case isFalse =>
      unfold valueFrom at read
      split at read
      · cases of_word read
      split at read
      · cases of_word read
      split at read
      · cases of_word read
      split at read
      case isTrue eq =>
        subst eq
        obtain ⟨s', read_s, eq⟩ := map_eq_ok.mp read
        cases eq
        exact ⟨mid, front, read_s⟩
      split at read
      · obtain ⟨m, -, eq⟩ := map_eq_ok.mp read
        cases eq
      split at read
      · cases depth with
        | zero => cases read
        | succ depth =>
          rw [arrayTail_succ] at read
          obtain ⟨all, -, eq⟩ := map_eq_ok.mp read
          cases eq
      split at read
      · cases depth with
        | zero => cases read
        | succ depth =>
          obtain ⟨members, -, eq⟩ := map_eq_ok.mp read
          cases eq
      · cases read

/-- A string is shorter than a text that it is read from. -/
theorem length_lt_of_string {text s : String} (read : Reader.string.run text = .ok s) :
  s.length < text.length
  := by
  obtain ⟨rest, read, -⟩ := run_eq_ok.mp read
  obtain ⟨v, read_v, string_eq⟩ := scalar_eq_ok.mp read
  cases v with
  | string s' =>
    cases string_eq
    obtain ⟨mid, front, read_s⟩ := of_value_string read_v
    obtain ⟨chars, read_chars, rfl⟩ := map_eq_ok.mp read_s
    have chars_lt := length_lt_of_characters read_chars
    have front_le := length_dropBlanks_le text.toList
    rw [front, List.length_cons] at front_le
    rw [← String.length_toList, ← String.length_toList, String.toList_ofList]
    omega
  | _ => cases string_eq

end Tariff.Json.Reader
