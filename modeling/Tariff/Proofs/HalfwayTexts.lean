import Tariff.Proofs.RoundedTexts
import Tariff.Proofs.TrimmedTexts

/-!
# Numbers halfway between two texts

A number halfway between two numbers of some places is halved once more often than there are places.
Up to the 28th place it is rounded as a decimal.  If the digits with one more place have 96 bits, the
decimal still has the half, which is rounded away from zero; otherwise the last digit has been cut off
before anything is rounded, so that the text does not even reach the number.  With more than 28 places
a half goes to the even digit, away from zero or not.
-/

namespace Tariff

/-- A power of ten is a power of five and one of two. -/
theorem pow10_eq (n : Nat) :
  pow10 n = 5 ^ n * pow2 n
  := Nat.mul_pow 5 2 n

/-- A whole number is not halfway between two numbers. -/
theorem natCast_mul_pow10_ne_half (n places k : Nat) :
  (n : ℚ) * pow10 places ≠ k + 1 / 2
  := by
  intro half
  have twice : 2 * ((n : ℚ) * pow10 places) = 2 * k + 1 := by linarith
  have twice_nat : 2 * (n * pow10 places) = 2 * k + 1 := by exact_mod_cast twice
  omega

namespace Decimal

variable {x : Binary64} {d : Decimal} {coefficient places halvings k : Nat}

/-! ### Halving odd numbers -/

/-- Factors of two are halved away. -/
theorem halve_mul_pow2 (coefficient places halvings j : Nat) :
  halve (coefficient * pow2 j) places (halvings + j) = halve coefficient places halvings
  := by
  induction j with
  | zero => rw [show pow2 0 = 1 from rfl, Nat.mul_one, Nat.add_zero]
  | succ j ih =>
    have even : coefficient * pow2 (j + 1) = 2 * (coefficient * pow2 j) := by
      rw [pow2_succ, Nat.mul_left_comm]
    rw [← Nat.add_assoc, halve, even, if_neg (by omega), Nat.mul_div_cancel_left _ two_pos, ih]

/-- An odd number gains a place with each halving as long as it has 96 bits. -/
theorem halve_of_fits (odd : coefficient % 2 = 1) (fits : coefficient * 5 ^ halvings < pow2 96) :
  halve coefficient places halvings = (coefficient * 5 ^ halvings, places + halvings)
  := by
  induction halvings generalizing coefficient places with
  | zero => rw [halve, Nat.pow_zero, Nat.mul_one, Nat.add_zero]
  | succ halvings ih =>
    have product_eq : coefficient * 5 ^ (halvings + 1) = 5 * coefficient * 5 ^ halvings := by
      rw [Nat.pow_succ]
      ring
    rw [product_eq] at fits ⊢
    have next_fits : 5 * coefficient < pow2 96 :=
      (Nat.le_mul_of_pos_right _ (Nat.pow_pos (by decide))).trans_lt fits
    rw [halve, if_pos ⟨by omega, next_fits⟩, ih (by omega) fits, Nat.add_right_comm,
      Nat.add_assoc]

/-- Each halving gains one place at most. -/
theorem halve_snd_le (coefficient places halvings : Nat) :
  (halve coefficient places halvings).2 ≤ places + halvings
  := by
  induction halvings generalizing coefficient places with
  | zero => exact Nat.le_refl _
  | succ halvings ih =>
    rw [halve]
    split
    case isTrue =>
      have le := ih (5 * coefficient) (places + 1)
      omega
    case isFalse =>
      have le := ih (coefficient / 2) places
      omega

/-- An odd number that would need more than 96 bits loses a digit, and gains a place less. -/
theorem halve_snd_lt (places : Nat) (odd : coefficient % 2 = 1) (narrow : coefficient < pow2 96)
    (wide : pow2 96 ≤ coefficient * 5 ^ halvings) :
  (halve coefficient places halvings).2 < places + halvings
  := by
  induction halvings generalizing coefficient places with
  | zero =>
    rw [Nat.pow_zero, Nat.mul_one] at wide
    omega
  | succ halvings ih =>
    have product_eq : coefficient * 5 ^ (halvings + 1) = 5 * coefficient * 5 ^ halvings := by
      rw [Nat.pow_succ]
      ring
    rw [product_eq] at wide
    rw [halve]
    split
    case isTrue next =>
      have lt := ih (places + 1) (by omega) next.2 wide
      omega
    case isFalse =>
      have le := halve_snd_le (coefficient / 2) places halvings
      omega

/-! ### Halfway -/

/-- A number halfway between two numbers with these places is an odd number, halved once more often
than there are places.  The digits with one more place end with a five. -/
theorem exists_odd_of_halfway (halfway : x.magnitude * pow10 places = k + 1 / 2) :
  ∃ odd j, Binary64.significandOfCode x.code = odd * pow2 j ∧
    1074 - Binary64.shiftOfCode x.code = places + 1 + j ∧ odd * 5 ^ (places + 1) = 10 * k + 5
  := by
  have halved : Binary64.shiftOfCode x.code < 1074 := by
    by_contra whole
    rw [magnitude_of_le_shift (Nat.le_of_not_lt whole)] at halfway
    exact natCast_mul_pow10_ne_half _ places k halfway
  rw [magnitude_of_shift_lt halved] at halfway
  generalize Binary64.significandOfCode x.code = significand at *
  generalize 1074 - Binary64.shiftOfCode x.code = halvings at *
  have product_eq : significand * 5 ^ places * pow2 (places + 1) = (2 * k + 1) * pow2 halvings := by
    have halvings_pos := pow2_pos_rat halvings
    have product_rat : (significand : ℚ) * pow10 places * 2 = (2 * k + 1) * pow2 halvings := by
      rw [div_mul_eq_mul_div, div_eq_iff halvings_pos.ne'] at halfway
      linarith
    have product_nat : significand * pow10 places * 2 = (2 * k + 1) * pow2 halvings := by
      exact_mod_cast product_rat
    rw [← product_nat, pow10_eq, pow2_succ]
    ring
  -- With fewer halvings the odd number would be even.
  have many : places + 1 ≤ halvings := by
    by_contra few
    obtain ⟨j, places_eq⟩ := Nat.exists_eq_add_of_lt (Nat.lt_of_not_le few)
    rw [places_eq, Nat.add_assoc, Nat.add_comm halvings, pow2_add, ← Nat.mul_assoc,
      Nat.mul_left_inj (pow2_pos halvings).ne', pow2_succ, Nat.mul_left_comm] at product_eq
    omega
  obtain ⟨j, rfl⟩ := Nat.exists_eq_add_of_le many
  rw [Nat.add_comm (places + 1), pow2_add j (places + 1), ← Nat.mul_assoc,
    Nat.mul_left_inj (pow2_pos _).ne'] at product_eq
  have coprime : Nat.Coprime (pow2 j) (5 ^ places) := Nat.Coprime.pow j places (by decide)
  obtain ⟨odd, rfl⟩ : pow2 j ∣ significand :=
    coprime.dvd_of_dvd_mul_right ⟨2 * k + 1, by rw [product_eq, Nat.mul_comm]⟩
  refine ⟨odd, j, Nat.mul_comm _ _, rfl, ?_⟩
  have odd_eq : odd * 5 ^ places = 2 * k + 1 := by
    apply Nat.eq_of_mul_eq_mul_left (pow2_pos j)
    rw [← Nat.mul_assoc, product_eq, Nat.mul_comm]
  rw [Nat.pow_succ, ← Nat.mul_assoc, odd_eq]
  ring

/-- The decimal of a number halfway between two numbers is that of an odd number, whose halvings gain
all places and one more if its digits fit. -/
theorem exists_ofBinary64?_eq (halfway : x.magnitude * pow10 places = k + 1 / 2) :
  ∃ odd, odd % 2 = 1 ∧ odd < pow2 53 ∧ odd * 5 ^ (places + 1) = 10 * k + 5 ∧
    ofBinary64? x = ofPlaces? x.negative (halve odd 0 (places + 1)).1 (halve odd 0 (places + 1)).2
  := by
  obtain ⟨odd, j, significand_eq, halvings_eq, digits_eq⟩ := exists_odd_of_halfway halfway
  have is_odd : odd % 2 = 1 := by
    by_contra even
    have factor_eq : odd = 2 * (odd / 2) := by omega
    rw [factor_eq, Nat.mul_assoc] at digits_eq
    omega
  have odd_le : odd ≤ Binary64.significandOfCode x.code :=
    significand_eq ▸ Nat.le_mul_of_pos_right _ (pow2_pos j)
  have some_digits : ¬ odd * pow2 j = 0 := (Nat.mul_pos (by omega) (pow2_pos j)).ne'
  have halved : Binary64.shiftOfCode x.code < 1074 := by omega
  refine ⟨odd, is_odd, odd_le.trans_lt (significandOfCode_lt x.code), digits_eq, ?_⟩
  rw [ofBinary64?, significand_eq, if_neg some_digits, if_pos halved, halvings_eq, halve_mul_pow2]

/-- The digits with one more place fit with up to 17 places. -/
theorem lt_of_halfway (halfway : x.magnitude * pow10 places = k + 1 / 2) (le : places ≤ 17) :
  10 * k + 5 < pow2 96
  := by
  obtain ⟨odd, -, odd_lt, digits_eq, -⟩ := exists_ofBinary64?_eq halfway
  calc 10 * k + 5 = odd * 5 ^ (places + 1) := digits_eq.symm
    _ ≤ pow2 53 * 5 ^ 18 :=
      Nat.mul_le_mul odd_lt.le (Nat.pow_le_pow_right (by decide) (by omega))
    _ < pow2 96 := by decide

/-- A coefficient with up to 28 places is kept. -/
theorem ofPlaces?_of_le (negative : Bool) (lt : coefficient < pow2 96) (le : places ≤ 28) :
  ofPlaces? negative coefficient places = some ⟨negative, coefficient, places, lt, le⟩
  := by
  have kept : dropPlaces coefficient (places - 28) = (coefficient, false) := by
    rw [Nat.sub_eq_zero_of_le le, dropPlaces]
  have few : Nat.min places 28 = places := Nat.min_eq_left le
  simp [ofPlaces?, kept, lt, few]

/-- A coefficient with a five as its 29th place is rounded up. -/
theorem ofPlaces?_of_five (negative : Bool) (pos : 0 < k) (lt : k + 1 < pow2 96) :
  ofPlaces? negative (10 * k + 5) 29 = some ⟨negative, k + 1, 28, lt, Nat.le_refl 28⟩
  := by
  have quotient_eq : (10 * k + 5) / 10 = k := by omega
  have rest_eq : (10 * k + 5) % 10 = 5 := by omega
  have dropped : dropPlaces (10 * k + 5) (29 - 28) = (k + 1, false) := by
    rw [dropPlaces, quotient_eq, rest_eq, if_neg pos.ne']
    rfl
  simp [ofPlaces?, dropped, lt]

/-- The decimal of a number halfway between two numbers is rounded away from zero if the digits with
one more place have 96 bits. -/
theorem coefficientAt_of_fits (halfway : x.magnitude * pow10 places = k + 1 / 2)
    (converted : ofBinary64? x = some d) (le : places ≤ 28) (fits : 10 * k + 5 < pow2 96) :
  d.coefficientAt places = k + 1
  := by
  obtain ⟨odd, is_odd, -, digits_eq, decimal_eq⟩ := exists_ofBinary64?_eq halfway
  rw [halve_of_fits is_odd (digits_eq.trans_lt fits), digits_eq, Nat.zero_add] at decimal_eq
  rcases Nat.eq_or_lt_of_le le with rfl | lt
  · have large : 5 ^ 29 ≤ 10 * k + 5 := digits_eq ▸ Nat.le_mul_of_pos_left _ (by omega)
    rw [ofPlaces?_of_five _ (by omega) (by omega), converted] at decimal_eq
    cases decimal_eq
    exact Nat.mul_one _
  · rw [ofPlaces?_of_le _ fits lt, converted] at decimal_eq
    cases decimal_eq
    have ten : pow10 (places + 1 - places) = 10 := by
      rw [Nat.add_sub_cancel_left]
      rfl
    rw [coefficientAt_of_lt (Nat.lt_succ_self places)]
    dsimp only
    rw [ten, roundDiv_up (by decide)]
    omega

/-- The decimal of a number halfway between two numbers is no larger than the smaller of the two if
the digits with one more place need more than 96 bits. -/
theorem coefficientAt_of_wide (halfway : x.magnitude * pow10 places = k + 1 / 2)
    (converted : ofBinary64? x = some d) (le : places ≤ 28) (wide : pow2 96 ≤ 10 * k + 5) :
  d.coefficientAt places ≤ k
  := by
  obtain ⟨odd, is_odd, odd_lt, digits_eq, decimal_eq⟩ := exists_ofBinary64?_eq halfway
  have narrow : odd < pow2 96 := odd_lt.trans (by decide)
  have fewer := halve_snd_lt 0 is_odd narrow (wide.trans_eq digits_eq.symm)
  have bounded := halve_lt 0 (places + 1) narrow
  have below := halve_le odd 0 (places + 1)
  generalize halve odd 0 (places + 1) = halved at *
  rw [ofPlaces?_of_le _ bounded (by omega), converted] at decimal_eq
  cases decimal_eq
  have few : ¬ places < halved.2 := by omega
  rw [coefficientAt, roundPlaces, dif_neg few]
  dsimp only
  have power_eq : pow10 places = pow10 halved.2 * pow10 (places - halved.2) := by
    rw [← pow10_add, Nat.add_sub_cancel' (by omega)]
  have one : pow10 0 = 1 := rfl
  -- Twice the coefficient is at most the odd number of halves.
  have twice_le : 2 * (halved.1 * pow10 (places - halved.2)) ≤ odd * 5 ^ places := by
    apply Nat.le_of_mul_le_mul_right _ (pow2_pos places)
    calc 2 * (halved.1 * pow10 (places - halved.2)) * pow2 places
        = halved.1 * pow10 0 * pow2 (places + 1) * pow10 (places - halved.2) := by
          rw [one, pow2_succ]
          ring
      _ ≤ odd * pow10 halved.2 * pow10 (places - halved.2) := Nat.mul_le_mul_right _ below
      _ = odd * 5 ^ places * pow2 places := by
        rw [Nat.mul_assoc, ← power_eq, pow10_eq, Nat.mul_assoc]
  rw [Nat.pow_succ, ← Nat.mul_assoc] at digits_eq
  omega

/-! ### Signs -/

/-- Rounding loses the sign of a decimal with the last digit only. -/
theorem scaled_coefficientAt (d : Decimal) (places : Nat) :
  scaled (d.roundPlaces places).negative (d.coefficientAt places) places =
    scaled d.negative (d.coefficientAt places) places
  := by
  apply scaled_congr
  intro not_zero
  have rounded_ne : (d.roundPlaces places).coefficient ≠ 0 := left_ne_zero_of_mul not_zero
  unfold roundPlaces at rounded_ne ⊢
  split
  case isTrue lt =>
    rw [dif_pos lt] at rounded_ne
    simp [rounded_ne]
  case isFalse => rfl

end Decimal

/-! ### Texts -/

/-- A number halfway between two numbers has a decimal. -/
theorem Decimal.ofBinary64?_ne_none_of_halfway {x : Binary64} {places k : Nat}
    (halfway : x.magnitude * pow10 places = k + 1 / 2) :
  ofBinary64? x ≠ none
  := by
  intro large
  obtain ⟨n, units_eq⟩ := Binary64.exists_units_eq large
  rw [Binary64.magnitude, units_eq, Nat.cast_mul,
    mul_div_cancel_right₀ _ (pow2_pos_rat 1074).ne'] at halfway
  exact natCast_mul_pow10_ne_half n places k halfway

/-- The exact digits of a number halfway between two numbers end with the even one of their digits. -/
theorem Binary64.roundDiv_units_of_halfway {x : Binary64} {places k : Nat}
    (halfway : x.magnitude * pow10 places = k + 1 / 2) :
  roundDiv .toEven (x.units * pow10 places) (pow2 1074) = if k % 2 = 0 then k else k + 1
  := by
  apply roundDiv_half (pow2_pos 1074)
  rw [magnitude, div_mul_eq_mul_div, div_eq_iff (pow2_pos_rat 1074).ne'] at halfway
  have twice : 2 * ((x.units : ℚ) * pow10 places) = (2 * k + 1) * pow2 1074 := by linarith
  exact_mod_cast twice

/-- The text of a number halfway between two numbers denotes one with the sign of the number, which is
the number further from zero or else no larger than the other one. -/
theorem exists_scaled_of_halfway {x : Binary64} {places k : Nat} {s : String}
    (finite : x.isFinite = true) (halfway : x.magnitude * pow10 places = k + 1 / 2)
    (text_eq : fixedText? x places = some s) :
  ∃ negative m, s = (FixedNumeral.ofScaled negative m places).text ∧
    Decimal.scaled negative m places = Decimal.scaled x.negative m places ∧
    (m = k + 1 ↔ if places ≤ 28 then 10 * k + 5 < 2 ^ 96 else k % 2 = 1) ∧ (m = k + 1 ∨ m ≤ k)
  := by
  have converted := numeral_of_fixedText? text_eq
  rw [Binary64.finitePart_of_isFinite finite] at converted
  rcases converted with ⟨d, le, converted, s_eq⟩ | ⟨other, s_eq⟩
  · refine ⟨_, _, s_eq, ?_, ?_⟩
    · rw [d.scaled_coefficientAt, Decimal.negative_ofBinary64? converted]
    · rw [if_pos le]
      rcases Nat.lt_or_ge (10 * k + 5) (2 ^ 96) with fits | wide
      · have rounded := Decimal.coefficientAt_of_fits halfway converted le fits
        exact ⟨iff_of_true rounded fits, .inl rounded⟩
      · have cut := Decimal.coefficientAt_of_wide halfway converted le wide
        omega
  · have many : 28 < places :=
      other.resolve_right (Decimal.ofBinary64?_ne_none_of_halfway halfway)
    refine ⟨_, _, s_eq, rfl, ?_⟩
    rw [if_neg (Nat.not_le_of_lt many), Binary64.roundDiv_units_of_halfway halfway]
    split <;> omega

/-- The text of a number halfway between two numbers with its places denotes the one further from zero
exactly if, with up to 28 places, the digits with one more place have 96 bits, and, with more places,
the digits of the other one are odd.  Otherwise it denotes the other one or a smaller one in size.  With
up to 17 places it always denotes the one further from zero. -/
theorem fixedText?_of_halfway {x : Binary64} {places k : Nat} {s : String}
    (finite : x.isFinite = true) (halfway : |x.toRat| * 10 ^ places = k + 1 / 2)
    (text_eq : fixedText? x places = some s) :
  ∃ n : FixedNumeral, s = n.text ∧
    n.fraction.map List.length = (if places = 0 then none else some places) ∧
    (n.value = Decimal.scaled x.negative (k + 1) places ↔
      if places ≤ 28 then 10 * k + 5 < 2 ^ 96 else k % 2 = 1) ∧
    (n.value = Decimal.scaled x.negative (k + 1) places ∨
      ∃ m ≤ k, n.value = Decimal.scaled x.negative m places) ∧
    (places ≤ 17 → n.value = Decimal.scaled x.negative (k + 1) places)
  := by
  have power_eq : (10 : ℚ) ^ places = pow10 places := by simp [pow10]
  rw [x.abs_toRat, power_eq] at halfway
  obtain ⟨negative, m, s_eq, signed_eq, further_iff, other⟩ :=
    exists_scaled_of_halfway finite halfway text_eq
  have value_eq : (FixedNumeral.ofScaled negative m places).value =
      Decimal.scaled x.negative m places := by
    rw [FixedNumeral.value_ofScaled, signed_eq]
  have value_iff : (FixedNumeral.ofScaled negative m places).value =
      Decimal.scaled x.negative (k + 1) places ↔ m = k + 1 := by
    rw [value_eq, Decimal.scaled_inj]
  refine ⟨_, s_eq, FixedNumeral.length_fraction_ofScaled negative m places, ?_, ?_, ?_⟩
  · exact value_iff.trans further_iff
  · exact other.imp value_iff.mpr fun le => ⟨m, le, value_eq⟩
  · intro few
    rw [value_iff, further_iff, if_pos (by omega)]
    exact Decimal.lt_of_halfway halfway few

/-- Eight and `2 ^ -29`, halfway between two numbers with 28 places. -/
def eightAndHalf : Binary64 :=
  Binary64.nearest false (8 + 1 / 2 ^ 29)

/-- The half of a number with too many digits is cut off, and a digit before it. -/
theorem fixedText?_of_halfway_cutOff :
  eightAndHalf.toRat * 10 ^ 28 = 80000000018626451492309570312 + 1 / 2 ∧
    fixedText? eightAndHalf 28 = some "8.0000000018626451492309570310" ∧
    ∃ n : FixedNumeral, "8.0000000018626451492309570310" = n.text ∧
      n.value ≠ 80000000018626451492309570313 / 10 ^ 28
  := by
  have exact_eq : eightAndHalf.toRat * 10 ^ 28 = 80000000018626451492309570312 + 1 / 2 := by
    decide +kernel
  have text_eq : fixedText? eightAndHalf 28 = some "8.0000000018626451492309570310" := by
    decide +kernel
  have halfway : |eightAndHalf.toRat| * 10 ^ 28 = (80000000018626451492309570312 : Nat) + 1 / 2 := by
    decide +kernel
  have further_eq : Decimal.scaled eightAndHalf.negative (80000000018626451492309570312 + 1) 28 =
      80000000018626451492309570313 / 10 ^ 28 := by
    decide +kernel
  obtain ⟨n, n_text, -, further_iff, -⟩ := fixedText?_of_halfway (by decide +kernel) halfway text_eq
  rw [further_eq] at further_iff
  refine ⟨exact_eq, text_eq, n, n_text, ?_⟩
  rw [Ne, further_iff]
  decide

/-- The number `2 ^ -30`, halfway between two numbers with 29 places. -/
def smallHalf : Binary64 :=
  Binary64.nearest false (1 / 2 ^ 30)

/-- Not every number halfway between two numbers has the text of the one further from zero. -/
theorem not_forall_further :
  ¬ ∀ (x : Binary64) (places k : Nat) (s : String), x.isFinite = true →
    |x.toRat| * 10 ^ places = k + 1 / 2 → fixedText? x places = some s →
    ∃ n : FixedNumeral, s = n.text ∧ n.value = Decimal.scaled x.negative (k + 1) places
  := by
  intro all
  have text_eq : fixedText? smallHalf 29 =
      some (FixedNumeral.ofScaled false 93132257461547851562 29).text := by
    decide +kernel
  obtain ⟨n, n_text, value_eq⟩ :=
    all smallHalf 29 93132257461547851562 _ (by decide +kernel) (by decide +kernel) text_eq
  have even_eq := FixedNumeral.value_eq_of_text_eq n_text
  rw [value_eq, FixedNumeral.value_ofScaled] at even_eq
  have positive : smallHalf.negative = false := by decide +kernel
  rw [positive, Decimal.scaled_inj] at even_eq
  omega

end Tariff
