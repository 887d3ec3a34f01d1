import Mathlib.Data.List.DropRight
import Tariff.FixedText
import Tariff.Proofs.FixedNumerals

/-!
# Trimmed texts

A numeral in fixed-point form is cut behind the last of its places that is not zero.  What is left is
such a numeral again, of a number of the same size, and is not cut any further.  The integer part
minus zero loses its sign, which is superfluous only if no place is left.  Any other text in ASCII
stays as it is.
-/

namespace Tariff

namespace Text

/-! ### Digits -/

/-- The decimal digits of ASCII are the ten digits. -/
theorem isDecimalDigit_eq {c : Char} (ascii : c.toNat < 128) :
  isDecimalDigit c = c.isDigit
  := by
  have table : ∀ n < 128, isDecimalDigit (Char.ofNat n) = (Char.ofNat n).isDigit := by
    decide +kernel
  have same := table c.toNat ascii
  rwa [Char.ofNat_toNat] at same

/-- The ten digits are decimal digits. -/
theorem isDecimalDigit_of_isDigit {c : Char} (digit : c.isDigit = true) :
  isDecimalDigit c = true
  := by
  have ascii : c.toNat < 128 := Nat.lt_of_le_of_lt (Char.isDigit_iff_toNat.mp digit).2 (by decide)
  rw [isDecimalDigit_eq ascii, digit]

/-- Digits denote zero exactly if all of them are zeros. -/
theorem numeralValue_eq_zero_iff {ds : List Char} (digits : ∀ c ∈ ds, c.isDigit = true) :
  numeralValue ds = 0 ↔ ∀ c ∈ ds, c = '0'
  := by
  induction ds with
  | nil => simp [numeralValue]
  | cons c ds ih =>
    obtain ⟨digit, others⟩ := List.forall_mem_cons.mp digits
    have first : numeralValue [c] = 0 ↔ c = '0' := by
      have value_eq : numeralValue [c] = c.toNat - '0'.toNat := by
        simp [numeralValue, Nat.ofDigitChars]
      rw [value_eq, ← Char.toNat_inj]
      have := (Char.isDigit_iff_toNat.mp digit).1
      omega
    rw [← List.singleton_append, numeralValue_append, Nat.add_eq_zero_iff, Nat.mul_eq_zero, first,
      ih others, List.singleton_append, List.forall_mem_cons]
    simp [(pow10_pos _).ne']

/-- Zeros behind digits count as as many powers of ten. -/
theorem numeralValue_append_zeros (ds : List Char) (n : Nat) :
  numeralValue (ds ++ List.replicate n '0') = numeralValue ds * pow10 n
  := by
  have zero : numeralValue (List.replicate n '0') = 0 := by
    rw [numeralValue_eq_zero_iff]
    · exact fun c => List.eq_of_mem_replicate
    · intro c c_mem
      rw [List.eq_of_mem_replicate c_mem]
      rfl
  rw [numeralValue_append, zero, List.length_replicate, Nat.add_zero]

end Text

namespace FixedNumeral

/-! ### The parts of a numeral -/

/-- A numeral is found to have its integer part with the sign, and its places. -/
theorem fixedParts?_chars (n : FixedNumeral) :
  fixedParts? n.chars = some (Text.signed n.negative n.whole, n.places)
  := by
  obtain ⟨negative, whole, fraction, whole_digits, fraction_digits⟩ := n
  have whole_decimal : ∀ c ∈ whole, Text.isDecimalDigit c = true :=
    fun c c_mem => Text.isDecimalDigit_of_isDigit (whole_digits.isDigit c c_mem)
  have sign_eq : (Text.signed negative (whole ++ fractionChars fraction)).takeWhile (· = '-') =
      Text.signed negative [] := by
    obtain ⟨c, cs, rfl⟩ := List.exists_cons_of_ne_nil whole_digits.ne_nil
    have c_ne : c ≠ '-' := by
      rintro rfl
      cases whole_digits.isDigit '-' List.mem_cons_self
    cases negative <;> simp [Text.signed, c_ne]
  have body_eq : (Text.signed negative (whole ++ fractionChars fraction)).drop
      (Text.signed negative []).length = whole ++ fractionChars fraction := by
    cases negative <;> rfl
  have whole_eq : (whole ++ fractionChars fraction).takeWhile Text.isDecimalDigit = whole := by
    rw [List.takeWhile_append_of_pos whole_decimal]
    cases fraction with
    | none => exact List.append_nil whole
    | some ds => rw [fractionChars, List.takeWhile_cons_of_neg (by decide), List.append_nil]
  have rest_eq : (whole ++ fractionChars fraction).dropWhile Text.isDecimalDigit =
      fractionChars fraction := by
    rw [List.dropWhile_append_of_pos whole_decimal]
    cases fraction with
    | none => rfl
    | some ds => rw [fractionChars, List.dropWhile_cons_of_neg (by decide)]
  have sign_length : ¬ 1 < (Text.signed negative []).length := by
    cases negative <;> decide
  have parts_eq : Text.signed negative [] ++ whole = Text.signed negative whole := by
    cases negative <;> rfl
  unfold fixedParts?
  dsimp only [chars, places]
  rw [sign_eq, body_eq, whole_eq, rest_eq, List.isEmpty_eq_false_iff.mpr whole_digits.ne_nil,
    decide_eq_false sign_length, if_neg (by decide), parts_eq]
  cases fraction with
  | none => rfl
  | some ds =>
    have decimal : ds.all Text.isDecimalDigit = true := List.all_eq_true.mpr fun c c_mem =>
      Text.isDecimalDigit_of_isDigit (fraction_digits ds rfl c c_mem)
    exact if_pos decimal

/-- A text in ASCII with such parts is a numeral. -/
theorem exists_chars_eq {cs : List Char} (ascii : ∀ c ∈ cs, c.toNat < 128)
    (found : (fixedParts? cs).isSome = true) :
  ∃ n : FixedNumeral, cs = n.chars
  := by
  have digits {ds : List Char} (decimal : ∀ c ∈ ds, Text.isDecimalDigit c = true)
      (of_cs : ∀ c ∈ ds, c ∈ cs) : ∀ c ∈ ds, c.isDigit = true := by
    intro c c_mem
    rw [← Text.isDecimalDigit_eq (ascii c (of_cs c c_mem)), decimal c c_mem]
  have cs_eq := List.prefix_iff_eq_append.mp (List.takeWhile_prefix (l := cs) (· = '-'))
  have minus : ∀ c ∈ cs.takeWhile (· = '-'), c = '-' :=
    fun c c_mem => by simpa using List.mem_takeWhile_imp c_mem
  unfold fixedParts? at found
  dsimp only at found
  -- The text is a row of signs, a row of digits and the rest; the check leaves one sign at most.
  generalize cs.takeWhile (· = '-') = sign at *
  generalize cs.drop sign.length = body at *
  have body_eq := List.takeWhile_append_dropWhile (p := Text.isDecimalDigit) (l := body)
  have decimal : ∀ c ∈ body.takeWhile Text.isDecimalDigit, Text.isDecimalDigit c = true :=
    fun c => List.mem_takeWhile_imp
  generalize body.takeWhile Text.isDecimalDigit = whole at *
  generalize body.dropWhile Text.isDecimalDigit = rest at *
  subst body_eq
  split at found
  case isTrue => cases found
  case isFalse shaped =>
    simp only [Bool.or_eq_true, List.isEmpty_iff, decide_eq_true_eq, not_or] at shaped
    obtain ⟨negative, rfl⟩ : ∃ negative, sign = Text.signed negative [] := by
      rcases sign with _ | ⟨c, _ | ⟨c', sign⟩⟩
      · exact ⟨false, rfl⟩
      · exact ⟨true, by rw [minus c List.mem_cons_self]; rfl⟩
      · exact absurd shaped.2 (by simp)
    have whole_digits : Json.IsDigits whole :=
      ⟨shaped.1, digits decimal fun c c_mem => by simp [← cs_eq, c_mem]⟩
    have chars_eq (fraction : Option (List Char)) :
        Text.signed negative [] ++ (whole ++ fractionChars fraction) =
          Text.signed negative (whole ++ fractionChars fraction) := by
      cases negative <;> rfl
    split at found
    · exact ⟨⟨negative, whole, none, whole_digits, by simp⟩, cs_eq.symm.trans (chars_eq none)⟩
    · rename_i fraction
      split at found
      case isTrue all_decimal =>
        have fraction_digits : ∀ ds ∈ some fraction, ∀ c ∈ ds, c.isDigit = true := by
          intro ds ds_mem
          cases ds_mem
          exact digits (List.all_eq_true.mp all_decimal) fun c c_mem => by simp [← cs_eq, c_mem]
        exact ⟨⟨negative, whole, some fraction, whole_digits, fraction_digits⟩,
          cs_eq.symm.trans (chars_eq (some fraction))⟩
      case isFalse => cases found
    · cases found

/-- An integer part has no sign of its own. -/
theorem whole_ne_minus (n : FixedNumeral) (cs : List Char) :
  n.whole ≠ '-' :: cs
  := by
  intro whole_eq
  have digit := n.whole_digits.isDigit '-' (by rw [whole_eq]; exact List.mem_cons_self)
  cases digit

/-- A text denotes one number at most. -/
theorem value_eq_of_text_eq {n m : FixedNumeral} (text_eq : n.text = m.text) :
  n.value = m.value
  := by
  have parts_eq : fixedParts? n.chars = fixedParts? m.chars :=
    congrArg fixedParts? (String.ofList_injective text_eq)
  rw [fixedParts?_chars, fixedParts?_chars, Option.some.injEq, Prod.mk.injEq] at parts_eq
  obtain ⟨front_eq, places_eq⟩ := parts_eq
  have same : n.negative = m.negative ∧ n.whole = m.whole := by
    cases negative_n : n.negative with
    | false =>
      cases negative_m : m.negative with
      | false =>
        rw [negative_n, negative_m] at front_eq
        exact ⟨rfl, front_eq⟩
      | true =>
        rw [negative_n, negative_m] at front_eq
        exact absurd front_eq (n.whole_ne_minus m.whole)
    | true =>
      cases negative_m : m.negative with
      | false =>
        rw [negative_n, negative_m] at front_eq
        exact absurd front_eq.symm (m.whole_ne_minus n.whole)
      | true =>
        rw [negative_n, negative_m] at front_eq
        exact ⟨rfl, (List.cons.inj front_eq).2⟩
  rw [value, value, same.1, same.2, places_eq]

/-- The places of a numeral are digits. -/
theorem isDigit_of_mem_places {n : FixedNumeral} {c : Char} (c_mem : c ∈ n.places) :
  c.isDigit = true
  := by
  rw [places] at c_mem
  cases fraction_eq : n.fraction with
  | none =>
    rw [fraction_eq] at c_mem
    cases c_mem
  | some ds =>
    rw [fraction_eq] at c_mem
    exact n.fraction_digits ds fraction_eq c c_mem

/-- The integer part and the places of a numeral are digits. -/
theorem isDigit_of_mem {n : FixedNumeral} {c : Char} (c_mem : c ∈ n.whole ++ n.places) :
  c.isDigit = true
  := by
  rcases List.mem_append.mp c_mem with c_mem | c_mem
  · exact n.whole_digits.isDigit c c_mem
  · exact isDigit_of_mem_places c_mem

/-- A numeral has no characters beside its digits but a minus sign and a point. -/
theorem mem_chars_iff (n : FixedNumeral) (c : Char) :
  c ∈ n.chars ↔
    (n.negative = true ∧ c = '-') ∨ (n.fraction.isSome = true ∧ c = '.') ∨
      c ∈ n.whole ++ n.places
  := by
  rw [chars, Text.signed, places]
  cases n.negative with
  | true =>
    cases n.fraction with
    | none => simp [fractionChars]
    | some ds => simp [fractionChars, or_left_comm]
  | false =>
    cases n.fraction with
    | none => simp [fractionChars]
    | some ds => simp [fractionChars, or_left_comm]

/-- A numeral denotes zero exactly if all its digits are zeros. -/
theorem value_eq_zero_iff (n : FixedNumeral) :
  n.value = 0 ↔ ∀ c ∈ n.chars, c.isDigit = true → c = '0'
  := by
  rw [value, Decimal.scaled_eq_zero_iff, Text.numeralValue_eq_zero_iff fun c => isDigit_of_mem]
  constructor
  · intro zeros c c_mem digit
    rcases (n.mem_chars_iff c).mp c_mem with ⟨-, rfl⟩ | ⟨-, rfl⟩ | c_mem
    · cases digit
    · cases digit
    · apply zeros c c_mem
  · intro zeros c c_mem
    apply zeros c _ (isDigit_of_mem c_mem)
    apply (n.mem_chars_iff c).mpr (.inr (.inr c_mem))

/-! ### Cutting zeros -/

/-- The zeros at the end and what is in front of them. -/
theorem exists_append_zeros (cs : List Char) :
  ∃ k, cs = dropFinalZeros cs ++ List.replicate k '0'
  := by
  have zeros_eq : cs.rtakeWhile (· = '0') =
      List.replicate (cs.rtakeWhile (· = '0')).length '0' := by
    apply List.eq_replicate_iff.mpr
    exact ⟨rfl, fun c c_mem => by simpa using List.mem_rtakeWhile_imp c_mem⟩
  refine ⟨(cs.rtakeWhile (· = '0')).length, ?_⟩
  rw [← zeros_eq]
  exact List.rdropWhile_append_rtakeWhile.symm

/-- The numeral without the zeros at the end of its places; the integer part minus zero loses its
sign. -/
def trimmed (n : FixedNumeral) : FixedNumeral where
  negative := n.negative && n.whole ≠ ['0']
  whole := n.whole
  fraction := if dropFinalZeros n.places = [] then none else some (dropFinalZeros n.places)
  whole_digits := n.whole_digits
  fraction_digits := by
    intro ds ds_mem c c_mem
    split at ds_mem
    case isTrue => cases ds_mem
    case isFalse =>
      cases ds_mem
      exact isDigit_of_mem_places ((List.rdropWhile_prefix _ _).subset c_mem)

/-- The last place of a numeral is not zero, and there is one behind the point. -/
def IsTrimmed (n : FixedNumeral) : Prop :=
  ∀ ds ∈ n.fraction, ∃ c, ds.getLast? = some c ∧ c ≠ '0'

/-- The numeral starts with minus zero and does not stand for zero. -/
def LosesSign (n : FixedNumeral) : Prop :=
  n.negative = true ∧ n.whole = ['0'] ∧ ∃ c ∈ n.places, c ≠ '0'

variable (n : FixedNumeral)

/-- There is no point where no place is left. -/
theorem fraction_trimmed :
  n.trimmed.fraction =
    if dropFinalZeros n.places = [] then none else some (dropFinalZeros n.places)
  := rfl

/-- The places that are left when zeros are cut. -/
theorem places_trimmed :
  n.trimmed.places = dropFinalZeros n.places
  := by
  rw [places, fraction_trimmed]
  split
  case isTrue none_left => rw [none_left, Option.getD_none]
  case isFalse => rw [Option.getD_some]

/-- The text of a numeral is cut to that of the numeral without zeros. -/
theorem trimZeros_text :
  trimZeros n.text = n.trimmed.text
  := by
  have front_eq : (if Text.signed n.negative n.whole = ['-', '0'] then ['0']
      else Text.signed n.negative n.whole) = Text.signed n.trimmed.negative n.whole := by
    unfold trimmed
    cases n.negative with
    | false => exact if_neg (n.whole_ne_minus ['0'])
    | true =>
      by_cases zero : n.whole = ['0']
      · simp [Text.signed, zero]
      · simp [Text.signed, zero]
  unfold trimZeros
  rw [toList_text, fixedParts?_chars]
  dsimp only
  rw [front_eq, text, chars, trimmed]
  dsimp only
  congr 1
  by_cases none_left : dropFinalZeros n.places = []
  · rw [if_pos (List.isEmpty_iff.mpr none_left), if_pos none_left, fractionChars, List.append_nil]
  · rw [if_neg (mt List.isEmpty_iff.mp none_left), if_neg none_left, fractionChars]
    unfold Text.signed
    split <;> rfl

/-- The number that is left has all digits, and loses its sign with the integer part. -/
theorem value_trimmed :
  n.trimmed.value = Decimal.scaled n.trimmed.negative (Text.numeralValue (n.whole ++ n.places))
    n.places.length
  := by
  have whole_eq : n.trimmed.whole = n.whole := rfl
  obtain ⟨k, places_eq⟩ := exists_append_zeros n.places
  rw [value, places_trimmed, whole_eq]
  apply Decimal.scaled_eq_of_mul_eq
  generalize dropFinalZeros n.places = ds at *
  rw [places_eq, ← List.append_assoc, Text.numeralValue_append_zeros, List.length_append,
    List.length_replicate, pow10_add]
  ring

/-- The number that is left has the same size. -/
theorem abs_value_trimmed :
  |n.trimmed.value| = |n.value|
  := by
  rw [value_trimmed, value, Decimal.abs_scaled, Decimal.abs_scaled]

/-- The number that is left is the same exactly if no sign is lost. -/
theorem value_trimmed_eq_iff :
  n.trimmed.value = n.value ↔ ¬ n.LosesSign
  := by
  rw [value_trimmed, value, Decimal.scaled_eq_iff, LosesSign, Ne,
    Text.numeralValue_eq_zero_iff fun c => isDigit_of_mem, trimmed]
  dsimp only
  cases n.negative with
  | false => simp
  | true =>
    by_cases zero : n.whole = ['0']
    · simp [zero]
    · simp [zero]

/-- A number that is not negative is left the same. -/
theorem value_trimmed_of_nonneg (nonneg : 0 ≤ n.value) :
  n.trimmed.value = n.value
  := by
  apply n.value_trimmed_eq_iff.mpr
  rintro ⟨negative, -, c, c_mem, c_ne⟩
  have zero : n.value = 0 := by
    apply le_antisymm _ nonneg
    rw [value, Decimal.scaled, negative, if_pos rfl, neg_div]
    apply neg_nonpos.mpr (div_nonneg (Nat.cast_nonneg _) (Nat.cast_nonneg _))
  apply c_ne
  apply n.value_eq_zero_iff.mp zero c _ (isDigit_of_mem_places c_mem)
  apply (n.mem_chars_iff c).mpr (.inr (.inr (List.mem_append_right _ c_mem)))

/-- Zeros that have been cut leave none. -/
theorem trimmed_trimmed :
  n.trimmed.trimmed = n.trimmed
  := by
  have places_eq : dropFinalZeros n.trimmed.places = dropFinalZeros n.places := by
    rw [places_trimmed]
    exact List.rdropWhile_idempotent _ _
  apply FixedNumeral.ext
  case negative => simp [trimmed]
  case whole => rfl
  case fraction => rw [fraction_trimmed, fraction_trimmed, places_eq]

/-- No zero is left at the end. -/
theorem isTrimmed_trimmed :
  n.trimmed.IsTrimmed
  := by
  intro ds ds_mem
  rw [fraction_trimmed] at ds_mem
  split at ds_mem
  case isTrue => cases ds_mem
  case isFalse some_left =>
    cases ds_mem
    have last_ne := List.rdropWhile_last_not (fun c => decide (c = '0')) n.places some_left
    exact ⟨_, List.getLast?_eq_some_getLast some_left, fun zero => last_ne (decide_eq_true zero)⟩

end FixedNumeral

/-! ### Texts of any form -/

/-- A numeral is cut to one of a number of the same size, from which nothing is cut; it denotes the
same number exactly if no sign is lost.  No other text in ASCII is changed. -/
theorem value_trimZeros_iff (s : String) (ascii : ∀ c ∈ s.toList, c.toNat < 128) :
  (∀ n : FixedNumeral, s = n.text →
    ∃ m : FixedNumeral, trimZeros s = m.text ∧ m.IsTrimmed ∧ trimZeros m.text = m.text ∧
      |m.value| = |n.value| ∧ (m.value = n.value ↔ ¬ n.LosesSign)) ∧
  ((∀ n : FixedNumeral, s ≠ n.text) → trimZeros s = s)
  := by
  constructor
  · rintro n rfl
    refine ⟨n.trimmed, n.trimZeros_text, n.isTrimmed_trimmed, ?_, ?_, n.value_trimmed_eq_iff⟩
    · rw [FixedNumeral.trimZeros_text, FixedNumeral.trimmed_trimmed]
    · rw [FixedNumeral.abs_value_trimmed]
  · intro other
    cases parts_eq : fixedParts? s.toList with
    | none => rw [trimZeros, parts_eq]
    | some parts =>
      obtain ⟨n, chars_eq⟩ := FixedNumeral.exists_chars_eq ascii (by rw [parts_eq]; rfl)
      have text_eq : s = n.text := by rw [FixedNumeral.text, ← chars_eq, String.ofList_toList]
      exact absurd text_eq (other n)

/-- The numeral minus one half. -/
def FixedNumeral.minusHalf : FixedNumeral where
  negative := true
  whole := ['0']
  fraction := some ['5']
  whole_digits := ⟨by simp, by simp⟩
  fraction_digits := by simp

/-- Minus one half loses its sign, and a text with an exponent is not changed. -/
theorem value_trimZeros_iff_minusHalf :
  (∃ m : FixedNumeral, trimZeros "-0.5" = m.text ∧ |m.value| = 1 / 2 ∧ m.value ≠ -1 / 2) ∧
    trimZeros "1.5e-7" = "1.5e-7"
  := by
  constructor
  · have ascii : ("-0.5".toList.all fun c => c.toNat < 128) = true := by decide +kernel
    have value_eq : FixedNumeral.minusHalf.value = -1 / 2 := by decide +kernel
    have loses : FixedNumeral.minusHalf.LosesSign := ⟨rfl, rfl, '5', by decide, by decide⟩
    obtain ⟨numeral, -⟩ := value_trimZeros_iff "-0.5" fun c c_mem =>
      of_decide_eq_true (List.all_eq_true.mp ascii c c_mem)
    obtain ⟨m, text_eq, -, -, size_eq, same_iff⟩ := numeral .minusHalf rfl
    rw [value_eq] at size_eq same_iff
    exact ⟨m, text_eq, size_eq.trans (by norm_num), fun same => same_iff.mp same loses⟩
  · have ascii : ("1.5e-7".toList.all fun c => c.toNat < 128) = true := by decide +kernel
    obtain ⟨-, other⟩ := value_trimZeros_iff "1.5e-7" fun c c_mem =>
      of_decide_eq_true (List.all_eq_true.mp ascii c c_mem)
    apply other
    intro n text_eq
    have no_parts : fixedParts? "1.5e-7".toList = none := by decide +kernel
    rw [text_eq, FixedNumeral.text, String.toList_ofList, n.fixedParts?_chars] at no_parts
    cases no_parts

/-- Not every numeral is cut to one that denotes the same number. -/
theorem not_forall_value_trimZeros :
  ¬ ∀ n : FixedNumeral, ∃ m : FixedNumeral, trimZeros n.text = m.text ∧ m.value = n.value
  := by
  intro all
  obtain ⟨m, text_eq, same⟩ := all .minusHalf
  have trimmed_eq : m.value = FixedNumeral.minusHalf.trimmed.value :=
    FixedNumeral.value_eq_of_text_eq
      (text_eq.symm.trans (FixedNumeral.trimZeros_text .minusHalf))
  rw [trimmed_eq, FixedNumeral.value_trimmed_eq_iff] at same
  exact same ⟨rfl, rfl, '5', by decide, by decide⟩

end Tariff
