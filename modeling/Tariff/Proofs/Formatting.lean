import Tariff.Proofs.FixedText
import Tariff.Usage.Statement

/-!
# When something cannot be shown

Amounts, prices and statements are made of fixed-point texts, and are shown exactly if every text
that they need exists.  The main statement says for each of them which numbers stand in the way;
compact magnitudes, which have one place, are always shown.
-/

namespace Tariff

/-! ### Amounts of quota -/

/-- The magnitude of a number has a text exactly if the number has one. -/
theorem noFixedText_abs_finitePart (x : Binary64) (places : Nat) :
  NoFixedText x.finitePart.abs places ↔ NoFixedText x places
  := by
  have finite := Binary64.isFinite_abs x.isFinite_finitePart
  rw [NoFixedText, Binary64.finitePart_of_isFinite finite, Overlong, Binary64.toRat_abs, abs_abs]
  rfl

/-- A magnitude has a text in every unit. -/
theorem inUnit?_ne_none (magnitude : Nat) (unit : Option (Binary64 × Binary64 × String)) :
  Quota.inUnit? magnitude unit ≠ none
  := by
  cases unit with
  | none => apply Option.some_ne_none
  | some unit =>
    rw [Quota.inUnit?, Ne, Option.map_eq_none_iff]
    apply fixedText?_ne_none (by decide)

/-- Every quota has a compact magnitude. -/
theorem compact?_ne_none (q : Quota) :
  q.compact? ≠ none
  := by
  rw [Quota.compact?, Quota.compactMagnitude?, Ne, Option.map_eq_none_iff]
  apply inUnit?_ne_none

namespace QuotaFormat

/-- Quota is not shown exactly if it is shown in currency and its amount has no text. -/
theorem show?_eq_none_iff (format : QuotaFormat) (q : Quota) (places : Nat) :
  format.show? q places = none
    ↔ format.style = .currency ∧ NoFixedText (format.amount q.magnitude) places
  := by
  rw [show?]
  cases format.style with
  | magnitude => simp [compact?_ne_none]
  | currency => simp [amountText?, fixedText?_eq_none_iff]

/-- An amount is not shown exactly if it is shown in currency and has no text. -/
theorem showAmount?_eq_none_iff (format : QuotaFormat) (amount : Binary64) (places : Nat) :
  format.showAmount? amount places = none
    ↔ format.style = .currency ∧ NoFixedText amount places
  := by
  rw [showAmount?]
  cases format.style with
  | magnitude => simp [compact?_ne_none]
  | currency => simp [fixedText?_eq_none_iff, noFixedText_abs_finitePart]

end QuotaFormat

/-! ### Prices -/

/-- A price has no digits exactly if its value has no text. -/
theorem ModelPrice.digits?_eq_none_iff (price : ModelPrice) :
  price.digits? = none ↔ NoFixedText price.value ModelPrice.places
  := by
  simp [digits?, fixedText?_eq_none_iff]

/-! ### Statements -/

namespace StatementStyle

/-- The price of the line with a ratio and a multiplier, at the ratio of a group. -/
def linePrice (style : StatementStyle) (terms : UsageTerms)
    (line : ChargeCategory × Binary64 × Option Binary64) (groupRatio : Binary64) : ModelPrice where
  ratio := line.2.1
  groupRatio
  basis := terms.basis
  basePrice := style.basePrice
  multiplier := line.2.2

/-- One of the two prices of a line has no text. -/
def LineFails (style : StatementStyle) (terms : UsageTerms)
    (line : ChargeCategory × Binary64 × Option Binary64) : Prop :=
  NoFixedText (style.linePrice terms line 1).value ModelPrice.places
    ∨ NoFixedText (style.linePrice terms line terms.groupRatio).value ModelPrice.places

/-- The total is shown in currency and its amount has no text. -/
def TotalFails (style : StatementStyle) (entry : UsageEntry) : Prop :=
  style.format.style = .currency
    ∧ NoFixedText (style.format.amount entry.charged.magnitude) style.places

/-- A statement in detail fails with one of its lines or with its total, and a plain one with its
total. -/
def StatementFails (style : StatementStyle) (entry : UsageEntry) : Prop :=
  match entry.terms.bind fun terms => terms.inputRatio.map (terms, ·) with
  | some (terms, inputRatio) =>
    (∃ line ∈ categories terms inputRatio, style.LineFails terms line) ∨ style.TotalFails entry
  | none => ¬ (entry.charged.isZero && entry.kind = .consume) ∧ style.TotalFails entry

/-- A line is not made exactly if one of its prices has no text. -/
theorem line?_eq_none_iff (style : StatementStyle) (terms : UsageTerms)
    (line : ChargeCategory × Binary64 × Option Binary64) :
  style.line? terms line.1 line.2.1 line.2.2 = none ↔ style.LineFails terms line
  := by
  rw [LineFails, ← ModelPrice.digits?_eq_none_iff, ← ModelPrice.digits?_eq_none_iff]
  change ((style.linePrice terms line 1).digits?.bind fun full =>
    (style.linePrice terms line terms.groupRatio).digits?.bind fun actual => some _) = none ↔ _
  cases (style.linePrice terms line 1).digits? with
  | none => simp
  | some full =>
    cases (style.linePrice terms line terms.groupRatio).digits? with
    | none => simp
    | some actual => simp

/-- The lines are not made exactly if one of them is not. -/
theorem lines?_eq_none_iff (style : StatementStyle) (terms : UsageTerms) (inputRatio : Binary64) :
  style.lines? terms inputRatio = none
    ↔ ∃ line ∈ categories terms inputRatio, style.LineFails terms line
  := by
  rw [lines?]
  induction categories terms inputRatio with
  | nil => simp
  | cons line lines ih =>
    simp only [List.mem_cons, exists_eq_or_imp]
    rw [← ih, ← line?_eq_none_iff, List.mapM_cons]
    cases style.line? terms line.1 line.2.1 line.2.2 with
    | none => simp
    | some made =>
      cases lines.mapM fun line => style.line? terms line.1 line.2.1 line.2.2 with
      | none => simp
      | some rest => simp

/-- A statement is not made exactly if one of the texts that it needs does not exist. -/
theorem statement?_eq_none_iff (style : StatementStyle) (entry : UsageEntry) :
  style.statement? entry = none ↔ style.StatementFails entry
  := by
  have htotal := style.format.show?_eq_none_iff entry.charged style.places
  rw [statement?, StatementFails, TotalFails, ← htotal]
  cases entry.terms.bind fun terms => terms.inputRatio.map (terms, ·) with
  | some known =>
    simp only
    rw [← lines?_eq_none_iff, breakdown?]
    cases style.lines? known.1 known.2 with
    | none => simp
    | some lines =>
      cases style.format.show? entry.charged style.places with
      | none => simp
      | some total => simp
  | none =>
    cases entry.charged.isZero && entry.kind = .consume with
    | true => simp
    | false => simp

end StatementStyle

/-! ### All formatters -/

/-- Nothing stands in the way of a text but a number that has none: a number that a decimal holds,
but not with so many places in 32 characters, or a number of places beyond all texts. -/
theorem formatters_eq_none_iff (x amount : Binary64) (places : Nat) (format : QuotaFormat)
    (q : Quota) (price : ModelPrice) (style : StatementStyle) (entry : UsageEntry) :
  (fixedText? x places = none ↔ NoFixedText x places)
    ∧ (format.amountText? q places = none ↔ NoFixedText (format.amount q) places)
    ∧ (format.show? q places = none
      ↔ format.style = .currency ∧ NoFixedText (format.amount q.magnitude) places)
    ∧ (format.showAmount? amount places = none
      ↔ format.style = .currency ∧ NoFixedText amount places)
    ∧ (price.digits? = none ↔ NoFixedText price.value ModelPrice.places)
    ∧ (price.badge? = none ↔ NoFixedText price.value ModelPrice.places)
    ∧ (style.statement? entry = none ↔ style.StatementFails entry)
  := by
  refine ⟨?_, ?_, ?_, ?_, ?_, ?_, ?_⟩
  · apply fixedText?_eq_none_iff
  · apply fixedText?_eq_none_iff
  · apply format.show?_eq_none_iff
  · apply format.showAmount?_eq_none_iff
  · apply price.digits?_eq_none_iff
  · rw [ModelPrice.badge?, Option.map_eq_none_iff]
    apply price.digits?_eq_none_iff
  · apply style.statement?_eq_none_iff

/-- One thousand has no text with 28 places. -/
theorem not_forall_fixedText? :
  ¬ ∀ (x : Binary64) (places : Nat), places ≤ 28 → fixedText? x places ≠ none
  := by
  intro h
  apply h 1000 28 (by decide)
  decide +kernel

end Tariff
