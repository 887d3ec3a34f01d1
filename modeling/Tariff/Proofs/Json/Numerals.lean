import Tariff.Proofs.Json.Follows

/-!
# Reading numerals

A numeral is read alike with more text behind, if it ends before that or the text does not go on with it.
-/

namespace Tariff.Json

/-- The characters of numerals. -/
def isNumeric (c : Char) : Bool :=
  c.isDigit || c = '.' || c = 'e' || c = 'E' || c = '+' || c = '-'

/-- No numeral goes on in the characters. -/
def EndsNumeral (cs : List Char) : Prop :=
  ∀ c ∈ cs.head?, isNumeric c = false

namespace Reader

variable {n : Nat} {tail : List Char}

/-- The digits in front are the same with more text behind, if something else is behind them or the
text does not go on with one. -/
theorem span_isDigit_append {cs : List Char}
    (ends : cs.dropWhile Char.isDigit = [] → EndsNumeral tail) :
  (cs ++ tail).takeWhile Char.isDigit = cs.takeWhile Char.isDigit ∧
    (cs ++ tail).dropWhile Char.isDigit = cs.dropWhile Char.isDigit ++ tail
  := by
  induction cs with
  | nil =>
    cases tail with
    | nil => simp
    | cons c tail =>
      have numeric := ends rfl c rfl
      have digit : c.isDigit = false := by
        simp only [isNumeric, Bool.or_eq_false_iff] at numeric
        apply numeric.1.1.1.1.1
      simp [digit]
  | cons c cs ih =>
    cases digit : c.isDigit with
    | false => simp [digit]
    | true =>
      rw [List.dropWhile_cons_of_pos digit] at ends
      simp [digit, ih ends]

/-- Digits are read alike with more text behind. -/
theorem follows_digits (early early' : Fault) :
  Follows (EndsNumeral tail) n tail Eq (digits early) (digits early')
  := by
  intro cs ds rest _ read
  cases cs with
  | nil => cases read
  | cons c cs =>
    simp only [digits, List.cons_append] at read ⊢
    split at read
    case isTrue digit =>
      cases read
      refine ⟨(List.dropWhile_suffix _).length_le, _, fun ends => ?_, rfl⟩
      obtain ⟨taken, dropped⟩ := span_isDigit_append ends
      rw [List.cons_append] at taken dropped
      rw [if_pos digit, taken, dropped]
    case isFalse => cases read

/-- Integer parts are read alike with more text behind. -/
theorem follows_wholeDigits (early early' : Fault) :
  Follows (EndsNumeral tail) n tail Eq (wholeDigits early) (wholeDigits early')
  := by
  apply (follows_digits early early').bind
  rintro ds _ rfl
  split
  · exact .fail
  · exact .pure rfl

/-- Fractions are read alike with more text behind. -/
theorem follows_fraction (early early' : Fault) :
  Follows (EndsNumeral tail) n tail Eq (fraction early) (fraction early')
  := by
  intro cs ds rest short read
  cases cs with
  | nil =>
    cases read
    refine ⟨Nat.le_refl _, none, fun ends => ?_, rfl⟩
    cases tail with
    | nil => rfl
    | cons c tail =>
      have c_ne : c ≠ '.' := by
        rintro rfl
        exact absurd (ends rfl _ rfl) (by decide)
      simp [fraction, c_ne]
  | cons c cs =>
    by_cases point : c = '.'
    · subst point
      have digits_follow : Follows (EndsNumeral tail) n tail Eq (some <$> digits early) (some <$> digits early') :=
        (follows_digits early early').map fun _ _ => congrArg some
      obtain ⟨rest_le, read'⟩ := digits_follow cs ds rest (Nat.le_of_succ_le short) read
      exact ⟨Nat.le_succ_of_le rest_le, read'⟩
    · have no_point (rest : List Char) : fraction early (c :: rest) = .ok (none, c :: rest) ∧
          fraction early' (c :: rest) = .ok (none, c :: rest) := by
        simp [fraction, point]
      rw [(no_point cs).1] at read
      cases read
      exact ⟨Nat.le_refl _, none, fun _ => (no_point (cs ++ tail)).2, rfl⟩

/-- Signs of exponents are read alike with more text behind. -/
theorem follows_exponentSign :
  Follows (EndsNumeral tail) n tail Eq exponentSign exponentSign
  := by
  intro cs negative rest _ read
  cases cs with
  | nil =>
    cases read
    refine ⟨Nat.le_refl _, false, fun ends => ?_, rfl⟩
    cases tail with
    | nil => rfl
    | cons c tail =>
      have c_ne_minus : c ≠ '-' := by
        rintro rfl
        exact absurd (ends rfl _ rfl) (by decide)
      have c_ne_plus : c ≠ '+' := by
        rintro rfl
        exact absurd (ends rfl _ rfl) (by decide)
      simp [exponentSign, c_ne_minus, c_ne_plus]
  | cons c cs =>
    unfold exponentSign at read ⊢
    split at read
    case h_1 eq =>
      cases eq
      cases read
      exact ⟨Nat.le_succ _, true, fun _ => rfl, rfl⟩
    case h_2 eq =>
      cases eq
      cases read
      exact ⟨Nat.le_succ _, false, fun _ => rfl, rfl⟩
    case h_3 not_minus not_plus =>
      cases read
      refine ⟨Nat.le_refl _, false, fun _ => ?_, rfl⟩
      split
      · rename_i eq
        cases eq
        exact absurd rfl (not_minus _)
      · rename_i eq
        cases eq
        exact absurd rfl (not_plus _)
      · rfl

/-- Exponents are read alike with more text behind. -/
theorem follows_exponent (early early' : Fault) :
  Follows (EndsNumeral tail) n tail Eq (exponent early) (exponent early')
  := by
  intro cs size rest short read
  cases cs with
  | nil =>
    cases read
    refine ⟨Nat.le_refl _, none, fun ends => ?_, rfl⟩
    cases tail with
    | nil => rfl
    | cons c tail =>
      have no_mark : ¬ (c = 'e' ∨ c = 'E') := by
        rintro (rfl | rfl) <;> exact absurd (ends rfl _ rfl) (by decide)
      simp [exponent, no_mark]
  | cons c cs =>
    simp only [exponent, List.cons_append] at read ⊢
    split at read
    case isTrue mark =>
      rw [if_pos mark]
      have size_follows : Follows (EndsNumeral tail) n tail Eq
          (do
            let negative ← exponentSign
            let size := (Text.numeralValue (← digits early) : Int)
            return some (if negative then -size else size) : Reader (Option Int))
          (do
            let negative ← exponentSign
            let size := (Text.numeralValue (← digits early') : Int)
            return some (if negative then -size else size) : Reader (Option Int)) := by
        apply follows_exponentSign.bind
        rintro negative _ rfl
        apply (follows_digits early early').bind
        rintro ds _ rfl
        exact .pure rfl
      obtain ⟨rest_le, read'⟩ := size_follows cs size rest (Nat.le_of_succ_le short) read
      exact ⟨Nat.le_succ_of_le rest_le, read'⟩
    case isFalse no_mark =>
      rw [if_neg no_mark]
      cases read
      exact ⟨Nat.le_refl _, none, fun _ => rfl, rfl⟩

/-- Numerals are read alike with more text behind. -/
theorem follows_numeral (early early' : Fault) :
  Follows (EndsNumeral tail) n tail Eq (numeral early) (numeral early')
  := by
  apply (follows_wholeDigits early early').bind
  rintro whole _ rfl
  apply (follows_fraction early early').bind
  rintro fraction _ rfl
  apply (follows_exponent early early').bind
  rintro exponent _ rfl
  exact .pure rfl

/-- Numbers are read alike with more text behind. -/
theorem follows_number (negative : Bool) :
  Follows (EndsNumeral tail) n tail Eq (number negative) (number negative)
  := by
  apply (follows_numeral .truncated .truncated).bind
  rintro numeral _ rfl
  split
  · exact .pure rfl
  · exact .fail

end Reader

end Tariff.Json
