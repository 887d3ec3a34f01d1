import Tariff.Proofs.Json.Numerals
import Tariff.Proofs.Json.Strings
import Tariff.Text.Blank

/-!
# Reading values

What a value is can be told from its first character.  A value is read alike with more text behind,
unless it may go on with a numeral at the end, and with a higher bound on the containers that are open
at once, and where a value can be read it can also be skipped.
-/

namespace Tariff.Json.Reader

/-- Reads an array behind its opening bracket. -/
def arrayTail (leaves : Leaves) : Nat → Reader Json
  | 0 => fail .malformed
  | depth + 1 => do
    let items ← parts ']' (fun items => (· :: items) <$> valueWith leaves depth) []
    pure (.array items.reverse)

/-- Reads a member of an object and adds it to those before. -/
def objectMember (leaves : Leaves) (depth : Nat) (members : List (String × Json)) :
    Reader (List (String × Json)) := do
  let name ← memberName leaves.unit
  let value ← valueWith leaves depth
  pure (Assoc.insert name value members)

/-- Reads a member of an object. -/
def member (depth : Nat) : Reader (String × Json) := do
  let name ← memberName unitCharacter
  let value ← value depth
  pure (name, value)

/-- Reads an object behind its opening bracket. -/
def objectTail (leaves : Leaves) : Nat → Reader Json
  | 0 => fail .malformed
  | depth + 1 => .object <$> parts '\x7d' (objectMember leaves depth) []

/-- Reads a value that is no number without sign behind its first character. -/
def valueFrom (leaves : Leaves) (depth : Nat) (c : Char) : Reader Json :=
  if c = 'n' then word .null "ull".toList
  else if c = 't' then word (.bool true) "rue".toList
  else if c = 'f' then word (.bool false) "alse".toList
  else if c = '"' then .string <$> stringTail leaves.unit
  else if c = '-' then .number <$> leaves.number true
  else if c = '[' then arrayTail leaves depth
  else if c = '\x7b' then objectTail leaves depth
  else fail .malformed

/-- A member is read and then inserted. -/
theorem objectMember_eq (depth : Nat) (members : List (String × Json)) :
  objectMember .wanted depth members = (fun m => Assoc.insert m.1 m.2 members) <$> member depth
  := by
  simp [objectMember, member, Leaves.wanted, value]

/-- The items of an array are read one after the other, and are then in reverse order. -/
theorem arrayTail_succ (depth : Nat) :
  arrayTail .wanted (depth + 1) =
    (fun all => .array all.reverse) <$> parts ']' (fun items => (· :: items) <$> value depth) []
  := by
  rw [map_eq_pure_bind]
  rfl

/-- The members of an object are read one after the other. -/
theorem objectTail_succ (depth : Nat) :
  objectTail .wanted (depth + 1) = .object <$>
    parts '\x7d' (fun members => (fun m => Assoc.insert m.1 m.2 members) <$> member depth) []
  := by
  have members_eq := funext (objectMember_eq depth)
  rw [← members_eq]
  rfl

/-- The first character that is not blank tells what a value is. -/
theorem valueWith_eq (leaves : Leaves) (depth : Nat) (cs : List Char) :
  valueWith leaves depth cs =
    match dropBlanks cs with
    | [] => .error .truncated
    | c :: rest =>
      if c.isDigit then (.number <$> leaves.number false) (c :: rest)
      else valueFrom leaves depth c rest
  := by
  unfold valueWith
  split
  case h_1 eq => simp only [eq]
  case h_2 eq => simp [eq, valueFrom]
  case h_3 eq => simp [eq, valueFrom]
  case h_4 eq => simp [eq, valueFrom]
  case h_5 eq => simp [eq, valueFrom]
  case h_6 eq => simp [eq, valueFrom]
  case h_7 eq =>
    simp only [eq, valueFrom]
    cases depth <;> rfl
  case h_8 eq =>
    simp only [eq, valueFrom]
    cases depth <;> rfl
  case h_9 not_n not_t not_f not_quote not_minus not_array not_object eq =>
    simp only [eq, valueFrom, if_neg not_n, if_neg not_t, if_neg not_f, if_neg not_quote,
      if_neg not_minus, if_neg not_array, if_neg not_object]
    rfl

variable {settled : Prop} {n : Nat} {tail cs rest : List Char} {same : Prop} {leaves leaves' : Leaves}

/-- What is read is the same, if that is promised. -/
def Same (same : Prop) {α : Type} (a b : α) : Prop :=
  same → a = b

/-- The strings and numbers of one way of reading follow those of another. -/
structure LeavesFollow (settled : Prop) (tail : List Char) (same : Prop) (leaves leaves' : Leaves) :
    Prop where
  string (n : Nat) : Follows settled n tail (Same same) (stringTail leaves.unit) (stringTail leaves'.unit)
  number (n : Nat) (negative : Bool) :
    Follows settled n tail (Same same) (leaves.number negative) (leaves'.number negative)

/-- Wanted leaves are read alike with more text behind. -/
theorem leavesFollow_wanted (ends : settled → EndsNumeral tail) :
  LeavesFollow settled tail True .wanted .wanted where
  string n := by
    intro cs s rest short read
    obtain ⟨rest_le, s', read', rfl⟩ :=
      follows_stringTail (fun _ => follows_unitCharacter) cs s rest short read
    exact ⟨rest_le, s, read', fun _ => rfl⟩
  number n negative := by
    intro cs m rest short read
    obtain ⟨rest_le, m', read', rfl⟩ := (follows_number negative).mono ends cs m rest short read
    exact ⟨rest_le, m, read', fun _ => rfl⟩

/-- Where leaves can be read they can be skipped. -/
theorem leavesFollow_skipped :
  LeavesFollow settled [] False .wanted .skipped where
  string n := by
    intro cs s rest short read
    obtain ⟨rest_le, s', read', -⟩ := follows_skipped_stringTail cs s rest short read
    exact ⟨rest_le, s', read', False.elim⟩
  number n negative := by
    have ends : EndsNumeral [] := by simp [EndsNumeral]
    apply ((follows_numeral .truncated .malformed).mono fun _ => ends).bind
    rintro numeral _ -
    split
    · exact .pure False.elim
    · exact .fail

/-- Arrays are read alike if their items are. -/
theorem follows_arrayTail {depth depth' : Nat}
    (inner : Follows False n tail (Same same) (valueWith leaves depth) (valueWith leaves' depth')) :
  Follows settled n tail (Same same) (arrayTail leaves (depth + 1)) (arrayTail leaves' (depth' + 1))
  := by
  have follows_items : Follows settled n tail (Same same)
      (parts ']' (fun items => (· :: items) <$> valueWith leaves depth) [])
      (parts ']' (fun items => (· :: items) <$> valueWith leaves' depth') []) := by
    apply follows_parts
    · intro items items' same_items
      apply inner.map
      intro item item' same_item promised
      rw [same_item promised, same_items promised]
    · exact fun _ => rfl
  apply follows_items.bind
  intro items items' same_items
  apply Follows.pure
  intro promised
  rw [same_items promised]

/-- Objects are read alike if their names and the values of their members are. -/
theorem follows_objectTail {depth depth' : Nat}
    (string : Follows False n tail (Same same) (stringTail leaves.unit) (stringTail leaves'.unit))
    (inner : Follows False n tail (Same same) (valueWith leaves depth) (valueWith leaves' depth')) :
  Follows settled n tail (Same same) (objectTail leaves (depth + 1)) (objectTail leaves' (depth' + 1))
  := by
  have follows_members : Follows settled n tail (Same same)
      (parts '\x7d' (objectMember leaves depth) []) (parts '\x7d' (objectMember leaves' depth') [])
      := by
    apply follows_parts
    · intro members members' same_members
      apply (follows_memberName string).bind
      intro name name' same_name
      apply inner.bind
      intro value value' same_value
      apply Follows.pure
      intro promised
      rw [same_name promised, same_value promised, same_members promised]
    · exact fun _ => rfl
  apply follows_members.map
  intro members members' same_members promised
  rw [same_members promised]

/-- A value behind its first character is read alike if values inside it are. -/
theorem follows_valueFrom {depth depth' : Nat} (follow : LeavesFollow settled tail same leaves leaves')
    (inner : ∀ d d', depth = d + 1 → depth' = d' + 1 →
      Follows settled n tail (Same same) (valueWith leaves d) (valueWith leaves' d'))
    (enough : depth ≤ depth' ∨ n < depth') (c : Char) :
  Follows settled n tail (Same same) (valueFrom leaves depth c) (valueFrom leaves' depth' c)
  := by
  unfold valueFrom
  split
  · apply follows_word (fun _ => rfl) _
  split
  · apply follows_word (fun _ => rfl) _
  split
  · apply follows_word (fun _ => rfl) _
  split
  · apply (follow.string n).map
    intro s s' eq promised
    rw [eq promised]
  split
  · apply (follow.number n true).map
    intro m m' eq promised
    rw [eq promised]
  split
  · cases depth with
    | zero => exact .fail
    | succ d =>
      obtain ⟨d', rfl⟩ : ∃ d', depth' = d' + 1 := Nat.exists_eq_add_one_of_ne_zero (by omega)
      apply follows_arrayTail ((inner d d' rfl rfl).mono False.elim)
  split
  · cases depth with
    | zero => exact .fail
    | succ d =>
      obtain ⟨d', rfl⟩ : ∃ d', depth' = d' + 1 := Nat.exists_eq_add_one_of_ne_zero (by omega)
      apply follows_objectTail ((follow.string n).mono False.elim)
        ((inner d d' rfl rfl).mono False.elim)
  · exact .fail

/-- Values are read alike if the values inside them are. -/
theorem follows_valueWith_of_inner {depth depth' : Nat}
    (follow : LeavesFollow settled tail same leaves leaves')
    (inner : ∀ n d d', depth = d + 1 → d ≤ d' ∨ n ≤ d' →
      Follows settled n tail (Same same) (valueWith leaves d) (valueWith leaves' d'))
    (enough : depth ≤ depth' ∨ n ≤ depth') :
  Follows settled n tail (Same same) (valueWith leaves depth) (valueWith leaves' depth')
  := by
  intro cs v rest short read
  rw [valueWith_eq] at read ⊢
  split at read
  case h_1 => cases read
  case h_2 c mid front =>
    have mid_lt : (c :: mid).length ≤ cs.length := front ▸ length_dropBlanks_le cs
    rw [List.length_cons] at mid_lt
    rw [dropBlanks_append front tail]
    dsimp only
    split at read
    case isTrue digit =>
      rw [if_pos digit]
      have follows_digits : Follows settled n tail (Same same) (Json.number <$> leaves.number false)
          (Json.number <$> leaves'.number false) := by
        apply (follow.number n false).map
        intro m m' eq promised
        rw [eq promised]
      obtain ⟨rest_le, read'⟩ := follows_digits (c :: mid) v rest
        (by rw [List.length_cons]; omega) read
      rw [List.length_cons] at rest_le
      exact ⟨by omega, read'⟩
    case isFalse no_digit =>
      rw [if_neg no_digit]
      -- The bracket is one character less for what is inside.
      have follows_inside : Follows settled mid.length tail (Same same) (valueFrom leaves depth c)
          (valueFrom leaves' depth' c) := by
        apply follows_valueFrom follow
        · rintro d d' rfl rfl
          apply inner _ _ _ rfl
          omega
        · omega
      obtain ⟨rest_le, read'⟩ := follows_inside mid v rest (Nat.le_refl _) read
      exact ⟨by omega, read'⟩

/-- Values are read alike with more text behind and with as high a bound on the containers that are
open at once, or with one that a text so short does not reach. -/
theorem follows_valueWith {depth depth' : Nat} (follow : LeavesFollow settled tail same leaves leaves')
    (enough : depth ≤ depth' ∨ n ≤ depth') :
  Follows settled n tail (Same same) (valueWith leaves depth) (valueWith leaves' depth')
  := by
  induction depth generalizing depth' n with
  | zero =>
    apply follows_valueWith_of_inner follow _ enough
    intro n d d' impossible
    cases impossible
  | succ depth ih =>
    apply follows_valueWith_of_inner follow _ enough
    intro n d d' eq enough
    cases eq
    apply ih enough

/-! ### Consequences -/

/-- A value is read as it is alone with more text behind and with a higher bound on the containers
that are open at once. -/
theorem value_append {depth depth' : Nat} {v : Json} (ends : EndsNumeral tail)
    (depth_le : depth ≤ depth') (read : value depth cs = .ok (v, rest)) :
  value depth' (cs ++ tail) = .ok (v, rest ++ tail)
  := by
  have follows : Follows True cs.length tail (Same True) (value depth) (value depth') :=
    follows_valueWith (leavesFollow_wanted fun _ => ends) (.inl depth_le)
  obtain ⟨-, v', read', same⟩ := follows cs v rest (Nat.le_refl _) read
  rw [same trivial]
  apply read' fun _ => trivial

/-- A value that can be read can be skipped. -/
theorem skip_of_value {depth : Nat} {v : Json} (read : value depth cs = .ok (v, rest)) :
  skip cs = .ok ((), rest)
  := by
  have follows : Follows True cs.length [] (Same False) (value depth)
      (valueWith .skipped cs.length) :=
    follows_valueWith leavesFollow_skipped (.inr (Nat.le_refl _))
  obtain ⟨-, v', read', -⟩ := follows cs v rest (Nat.le_refl _) read
  rw [List.append_nil, List.append_nil] at read'
  apply map_eq_ok.mpr ⟨v', read' fun _ => trivial, rfl⟩

/-! ### What has been read -/

/-- A value with parts of its own. -/
def isContainer : Json → Bool
  | .array _ => true
  | .object _ => true
  | _ => false

/-- What is read as a word is the word's value. -/
theorem of_word {α : Type} {a b : α} {letters : List Char}
    (read : word a letters cs = .ok (b, rest)) :
  b = a
  := by
  induction letters generalizing cs with
  | nil =>
    cases read
    rfl
  | cons c letters ih =>
    cases cs with
    | nil => cases read
    | cons c' cs =>
      simp only [word] at read
      split at read
      · apply ih read
      · cases read

/-- A value starts with a character that is not blank in any script, and with a bracket exactly if
it is a container.  A number has been read from its digits. -/
theorem of_value {depth : Nat} {v : Json} (read : value depth cs = .ok (v, rest)) :
  ∃ c mid, dropBlanks cs = c :: mid ∧ Text.isBlank c = false ∧
    ((c = '[' ∧ ∃ d all, depth = d + 1 ∧ v = .array all.reverse ∧
        parts ']' (fun items => (· :: items) <$> value d) [] mid = .ok (all, rest)) ∨
      (c = '\x7b' ∧ ∃ d members, depth = d + 1 ∧ v = .object members ∧
        parts '\x7d' (objectMember .wanted d) [] mid = .ok (members, rest)) ∨
      (c ≠ '[' ∧ c ≠ '\x7b' ∧ isContainer v = false ∧
        ∀ n, v = .number n → ∃ negative digits, number negative digits = .ok (n, rest)))
  := by
  rw [value, valueWith_eq] at read
  split at read
  case h_1 => cases read
  case h_2 c mid front =>
    refine ⟨c, mid, front, ?_⟩
    split at read
    case isTrue digit =>
      obtain ⟨m, read_m, rfl⟩ := map_eq_ok.mp read
      refine ⟨Text.isBlank_of_isDigit digit, .inr (.inr ⟨?_, ?_, rfl, ?_⟩)⟩
      · rintro rfl
        exact absurd digit (by decide)
      · rintro rfl
        exact absurd digit (by decide)
      · rintro _ ⟨⟩
        exact ⟨false, _, read_m⟩
    case isFalse =>
      unfold valueFrom at read
      split at read
      case isTrue eq =>
        subst eq
        rw [of_word read]
        exact ⟨by decide, .inr (.inr ⟨by decide, by decide, rfl, nofun⟩)⟩
      split at read
      case isTrue eq =>
        subst eq
        rw [of_word read]
        exact ⟨by decide, .inr (.inr ⟨by decide, by decide, rfl, nofun⟩)⟩
      split at read
      case isTrue eq =>
        subst eq
        rw [of_word read]
        exact ⟨by decide, .inr (.inr ⟨by decide, by decide, rfl, nofun⟩)⟩
      split at read
      case isTrue eq =>
        subst eq
        obtain ⟨s, -, rfl⟩ := map_eq_ok.mp read
        exact ⟨by decide, .inr (.inr ⟨by decide, by decide, rfl, nofun⟩)⟩
      split at read
      case isTrue eq =>
        subst eq
        obtain ⟨m, read_m, rfl⟩ := map_eq_ok.mp read
        refine ⟨by decide, .inr (.inr ⟨by decide, by decide, rfl, ?_⟩)⟩
        rintro _ ⟨⟩
        exact ⟨true, _, read_m⟩
      split at read
      case isTrue eq =>
        subst eq
        cases depth with
        | zero => cases read
        | succ d =>
          obtain ⟨all, mid', read_all, pure_eq⟩ := bind_eq_ok.mp read
          cases pure_eq
          exact ⟨by decide, .inl ⟨rfl, d, all, rfl, rfl, read_all⟩⟩
      split at read
      case isTrue eq =>
        subst eq
        cases depth with
        | zero => cases read
        | succ d =>
          obtain ⟨members, read_members, rfl⟩ := map_eq_ok.mp read
          exact ⟨by decide, .inr (.inl ⟨rfl, d, members, rfl, rfl, read_members⟩)⟩
      case isFalse => cases read

/-- An object is read from behind its bracket. -/
theorem of_value_object {depth : Nat} {members : List (String × Json)}
    (read : value depth cs = .ok (.object members, rest)) :
  ∃ d mid, depth = d + 1 ∧ dropBlanks cs = '\x7b' :: mid ∧
    parts '\x7d' (objectMember .wanted d) [] mid = .ok (members, rest)
  := by
  obtain ⟨c, mid, front, -, cases⟩ := of_value read
  rcases cases with ⟨-, d, all, -, object_eq, -⟩ | ⟨rfl, d, _, depth_eq, object_eq, read_members⟩ |
    ⟨-, -, container, -⟩
  · cases object_eq
  · cases object_eq
    exact ⟨d, mid, depth_eq, front, read_members⟩
  · cases container

/-- An array is read from behind its bracket. -/
theorem of_value_array {depth : Nat} {items : List Json}
    (read : value depth cs = .ok (.array items, rest)) :
  ∃ d mid all, depth = d + 1 ∧ dropBlanks cs = '[' :: mid ∧ items = all.reverse ∧
    parts ']' (fun items => (· :: items) <$> value d) [] mid = .ok (all, rest)
  := by
  obtain ⟨c, mid, front, -, cases⟩ := of_value read
  rcases cases with ⟨rfl, d, all, depth_eq, array_eq, read_items⟩ | ⟨-, d, _, -, array_eq, -⟩ |
    ⟨-, -, container, -⟩
  · cases array_eq
    exact ⟨d, mid, all, depth_eq, front, rfl, read_items⟩
  · cases array_eq
  · cases container

/-- A value that is no container starts with no bracket. -/
theorem of_value_scalar {depth : Nat} {v : Json} (read : value depth cs = .ok (v, rest))
    (no_container : isContainer v = false) :
  ∃ c mid, dropBlanks cs = c :: mid ∧ c ≠ '[' ∧ c ≠ '\x7b'
  := by
  obtain ⟨c, mid, front, -, cases⟩ := of_value read
  rcases cases with ⟨-, d, all, -, rfl, -⟩ | ⟨-, d, _, -, rfl, -⟩ | ⟨no_array, no_object, -, -⟩
  · cases no_container
  · cases no_container
  · exact ⟨c, mid, front, no_array, no_object⟩

/-- Nothing is read where every value is refused. -/
theorem toOption_scalar_none {α : Type} (cs : List Char) :
  (scalar (fun _ => (none : Option α)) cs).toOption = none
  := by
  unfold scalar
  split
  · rfl
  · rfl
  · cases read : value 0 (dropBlanks cs) with
    | error fault => rw [bind_of_error read]; rfl
    | ok p =>
      obtain ⟨v, mid⟩ := p
      rw [bind_of_ok read]
      rfl

end Tariff.Json.Reader
