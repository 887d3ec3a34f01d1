import Tariff.Proofs.Formatting
import Tariff.Proofs.Price.Badges
import Tariff.Proofs.Quota.ShownQuota

/-!
# Forms of statements

A statement is free, plain or in detail by what is known of the entry.  The main statement says which
of them it is, what lines a statement in detail has, and that its text falls apart into these lines,
the total and the saving, with the full prices of discounted lines struck out.  Prices and totals have
no line break and nothing that is struck out.
-/

namespace Tariff

/-! ### Categories -/

namespace UsageTerms

/-- The number of tokens in a category of special tokens. -/
def specialTokens (terms : UsageTerms) : ChargeCategory → UInt64
  | .cacheWrite => terms.cacheWriteTokens
  | .cacheRead => terms.cacheReadTokens
  | .reasoning => terms.reasoningTokens
  | _ => 0

/-- What is charged for: the request or input and output, and the special tokens that occur. -/
def chargedCategories (terms : UsageTerms) : List ChargeCategory :=
  (match terms.basis with
    | .requests => [.request]
    | .tokens => [.input, .output])
  ++ [.cacheWrite, .cacheRead, .reasoning].filter fun category => 0 < terms.specialTokens category

/-- Nothing is charged for twice. -/
theorem nodup_chargedCategories (terms : UsageTerms) :
  terms.chargedCategories.Nodup
  := by
  have special : [ChargeCategory.cacheWrite, .cacheRead, .reasoning].Nodup := by decide
  rw [chargedCategories]
  cases terms.basis with
  | tokens =>
    apply List.Nodup.append (by decide) (special.filter _)
    simp
  | requests =>
    apply List.Nodup.append (by decide) (special.filter _)
    simp

end UsageTerms

/-- The lines are for the categories that are charged for. -/
theorem StatementStyle.map_fst_categories (terms : UsageTerms) (inputRatio : Binary64) :
  (categories terms inputRatio).map (·.1) = terms.chargedCategories
  := by
  have listed (p : Prop) [Decidable p] (x : ChargeCategory × Binary64 × Option Binary64) :
      (if p then [x] else []).map (·.1) = if p then [x.1] else [] := by
    split <;> rfl
  rw [categories, List.map_append, List.map_append, List.map_append, listed, listed, listed,
    UsageTerms.chargedCategories, List.append_assoc, List.append_assoc]
  congr 1
  · cases terms.basis <;> rfl
  · simp only [List.filter_cons, List.filter_nil, UsageTerms.specialTokens]
    grind

/-! ### Texts without line breaks -/

/-- A text that breaks no line and strikes nothing out. -/
def IsPlain (s : String) : Prop :=
  ∀ c ∈ s.toList, c ≠ '\n' ∧ c ≠ '~'

instance (s : String) : Decidable (IsPlain s) :=
  List.decidableBAll (fun c => c ≠ '\n' ∧ c ≠ '~') s.toList

variable {s t : String}

/-- Parts of a plain text are plain. -/
theorem isPlain_append :
  IsPlain (s ++ t) ↔ IsPlain s ∧ IsPlain t
  := by
  simp only [IsPlain, String.toList_append, List.mem_append, or_imp, forall_and]
  tauto

/-- A plain text has no line break in it. -/
theorem IsPlain.no_break (plain : IsPlain s) :
  '\n' ∉ s.toList
  := by
  intro mem
  exact (plain _ mem).1 rfl

/-- A text is plain if all its characters are digits or among some that are plain. -/
theorem isPlain_of_digits {cs : List Char} (others : String)
    (chars : ∀ c ∈ cs, c.isDigit = true ∨ c ∈ others.toList) (plain : IsPlain others) :
  IsPlain (String.ofList cs)
  := by
  intro c c_mem
  rw [String.toList_ofList] at c_mem
  rcases chars c c_mem with digit | other
  · constructor
    · rintro rfl
      cases digit
    · rintro rfl
      cases digit
  · exact plain c other

/-- Numerals are plain. -/
theorem FixedNumeral.isPlain_text (n : FixedNumeral) :
  IsPlain n.text
  := by
  apply isPlain_of_digits "-." _ (by decide)
  intro c c_mem
  rcases (n.mem_chars_iff c).mp c_mem with ⟨-, rfl⟩ | ⟨-, rfl⟩ | c_mem
  · exact .inr (by decide)
  · exact .inr (by decide)
  · exact .inl (isDigit_of_mem c_mem)

/-- Numerals with a unit are plain. -/
theorem CompactNumeral.isPlain_text (n : CompactNumeral) :
  IsPlain n.text
  := by
  rw [text, chars, String.ofList_append]
  apply isPlain_append.mpr ⟨n.numeral.isPlain_text, _⟩
  cases n.unit <;> decide

/-- Integers are plain. -/
theorem isPlain_integer (n : ℤ) :
  IsPlain (String.ofList (Text.integer n))
  := by
  apply isPlain_of_digits "-" _ (by decide)
  intro c c_mem
  rw [Text.integer, Text.signed] at c_mem
  split at c_mem
  case isTrue =>
    rcases List.mem_cons.mp c_mem with rfl | c_mem
    · exact .inr (by decide)
    · exact .inl (Text.isDigit_of_mem_numeral c_mem)
  case isFalse => exact .inl (Text.isDigit_of_mem_numeral c_mem)

/-- Badges are plain. -/
theorem ModelPrice.isPlain_badge {price : ModelPrice} (shown : price.digits? = some s)
    (basis : PricingBasis) :
  IsPlain (badge basis s)
  := by
  obtain ⟨negative, coefficient, rfl, -⟩ := exists_ofScaled_of_digits? shown
  rw [badge, FixedNumeral.fillCents_text, isPlain_append, isPlain_append]
  refine ⟨⟨by decide, FixedNumeral.isPlain_text _⟩, ?_⟩
  cases basis <;> decide

/-- Shown quota is plain. -/
theorem QuotaFormat.isPlain_of_show? {format : QuotaFormat} {q : Quota} {places : Nat}
    (shown : format.show? q places = some s) :
  IsPlain s
  := by
  rw [show?_eq_map] at shown
  obtain ⟨body, body_eq, rfl⟩ := Option.map_eq_some_iff.mp shown
  have body_plain : IsPlain body := by
    cases style_eq : format.style with
    | currency =>
      obtain ⟨coefficient, rfl, -⟩ := exists_ofScaled_of_unsigned? style_eq body_eq
      apply isPlain_append.mpr ⟨by decide, FixedNumeral.isPlain_text _⟩
    | magnitude =>
      rw [unsigned?, style_eq] at body_eq
      obtain ⟨coefficient, places, text_eq, -⟩ := Quota.exists_compactMagnitude? q.natAbs_units_le
      cases body_eq.symm.trans text_eq
      apply CompactNumeral.isPlain_text
  split
  case isTrue => exact isPlain_append.mpr ⟨by decide, body_plain⟩
  case isFalse => exact body_plain

/-! ### Lines -/

namespace StatementLine

/-- What stands between the marks that strike prices out. -/
def parts (line : StatementLine) : List String :=
  if line.discounted then
    [line.category.label ++ ": ", "", line.fullBadge, "", " " ++ line.actualBadge]
  else [line.category.label ++ ": " ++ line.actualBadge]

/-- The text of a line is its parts with the marks between them. -/
theorem toList_toText (line : StatementLine) :
  line.toText.toList = ['~'].intercalate (line.parts.map String.toList)
  := by
  rw [toText, parts]
  split
  case isTrue =>
    simp only [String.toList_append, List.map_cons, List.map_nil, List.intercalate,
      List.intersperse_cons_cons, List.intersperse_singleton, List.flatten_cons, List.flatten_nil,
      List.append_nil, List.append_assoc]
    rfl
  case isFalse => simp [List.intercalate]

/-- Labels are plain. -/
theorem isPlain_label (category : ChargeCategory) :
  IsPlain category.label
  := by
  cases category <;> decide

/-- The prices of a line that is shown are plain. -/
structure HasPlainPrices (line : StatementLine) : Prop where
  full : IsPlain line.fullBadge
  actual : IsPlain line.actualBadge

variable {line : StatementLine} (plain : line.HasPlainPrices)

include plain

/-- The parts of a line are plain. -/
theorem isPlain_of_mem_parts :
  ∀ part ∈ line.parts, IsPlain part
  := by
  have label : IsPlain (line.category.label ++ ": ") :=
    isPlain_append.mpr ⟨isPlain_label _, by decide⟩
  have blank : IsPlain (" " ++ line.actualBadge) :=
    isPlain_append.mpr ⟨by decide, plain.actual⟩
  have none : IsPlain "" := by decide
  rw [parts]
  split
  case isTrue =>
    simp only [List.forall_mem_cons, List.not_mem_nil, false_imp_iff, implies_true, and_true]
    exact ⟨label, none, plain.full, none, blank⟩
  case isFalse =>
    rw [List.forall_mem_singleton]
    apply isPlain_append.mpr ⟨label, plain.actual⟩

/-- The text of a line falls apart into its parts. -/
theorem splitOn_toText :
  line.toText.toList.splitOn '~' = line.parts.map String.toList
  := by
  rw [toList_toText]
  apply List.splitOn_intercalate
  · intro part part_mem struck
    obtain ⟨text, text_mem, rfl⟩ := List.mem_map.mp part_mem
    exact (isPlain_of_mem_parts plain text text_mem '~' struck).2 rfl
  · rw [parts]
    split <;> simp

/-- A line has no line break in it. -/
theorem no_break_toText :
  '\n' ∉ line.toText.toList
  := by
  rw [toText]
  split
  case isTrue =>
    simp only [String.toList_append, List.mem_append, not_or]
    exact ⟨⟨⟨⟨(isPlain_label _).no_break, by decide⟩, plain.full.no_break⟩, by decide⟩,
      plain.actual.no_break⟩
  case isFalse =>
    simp only [String.toList_append, List.mem_append, not_or]
    exact ⟨⟨(isPlain_label _).no_break, by decide⟩, plain.actual.no_break⟩

end StatementLine

/-! ### Statements in detail -/

namespace Breakdown

/-- The rows below the lines: the total, and the saving if there is one. -/
def closingRows (breakdown : Breakdown) : List String :=
  ("Total: " ++ breakdown.total) :: (breakdown.percentSaved.map fun percent =>
    String.ofList (Text.integer percent.toInt) ++ "% saved").toList

/-- The rows of a statement in detail. -/
def rows (breakdown : Breakdown) : List String :=
  breakdown.lines.map StatementLine.toText ++ breakdown.closingRows

variable {breakdown : Breakdown}

/-- Lines that end in line breaks are rows in front of others. -/
theorem toList_join_append (lines : List StatementLine) {others : List String}
    (ne_nil : others ≠ []) :
  (String.join (lines.map fun line => line.toText ++ "\n")).toList ++
      ['\n'].intercalate (others.map String.toList) =
    ['\n'].intercalate ((lines.map StatementLine.toText ++ others).map String.toList)
  := by
  induction lines with
  | nil => rfl
  | cons line lines ih =>
    have more : (lines.map StatementLine.toText ++ others).map String.toList ≠ [] := by
      simp [ne_nil]
    rw [List.map_cons, List.map_cons, String.join_cons, List.cons_append, List.map_cons,
      List.intercalate_cons_of_ne_nil more, ← ih, String.toList_append, String.toList_append,
      List.append_assoc]
    rfl

/-- The text of a statement in detail is its rows with line breaks between them. -/
theorem toList_toText :
  (Statement.detailed breakdown).toText.toList = ['\n'].intercalate (breakdown.rows.map String.toList)
  := by
  have some_row : breakdown.closingRows ≠ [] := List.cons_ne_nil _ _
  rw [rows, ← toList_join_append breakdown.lines some_row, Statement.toText, closingRows]
  cases breakdown.percentSaved with
  | none => simp [List.intercalate]
  | some percent => simp [List.intercalate]

/-- The text of a statement in detail falls apart into its rows. -/
theorem splitOn_toText (lines_plain : ∀ line ∈ breakdown.lines, line.HasPlainPrices)
    (total_plain : IsPlain breakdown.total) :
  (Statement.detailed breakdown).toText.toList.splitOn '\n' = breakdown.rows.map String.toList
  := by
  rw [toList_toText]
  apply List.splitOn_intercalate
  · intro row row_mem
    obtain ⟨text, text_mem, rfl⟩ := List.mem_map.mp row_mem
    rw [rows, List.mem_append, closingRows, List.mem_cons] at text_mem
    rcases text_mem with line_row | rfl | saving_row
    · obtain ⟨line, line_mem, rfl⟩ := List.mem_map.mp line_row
      exact StatementLine.no_break_toText (lines_plain line line_mem)
    · exact (isPlain_append.mpr ⟨by decide, total_plain⟩).no_break
    · obtain ⟨percent, -, rfl⟩ := Option.map_eq_some_iff.mp (Option.mem_toList.mp saving_row)
      exact (isPlain_append.mpr ⟨isPlain_integer _, by decide⟩).no_break
  · simp [rows, closingRows]

end Breakdown

/-! ### Shown statements -/

namespace UsageEntry

/-- Nothing was charged for consumption. -/
def IsFree (entry : UsageEntry) : Prop :=
  (entry.quota = none ∨ entry.quota = some .zero) ∧ entry.kind = .consume

/-- No quota is charged if none is recorded or zero. -/
theorem isFree_iff (entry : UsageEntry) :
  entry.IsFree ↔ (entry.charged.isZero && entry.kind = .consume) = true
  := by
  have zero_iff (q : Quota) : q = .zero ↔ q.units = 0 := by
    cases q
    simp [Quota.zero]
  rw [IsFree, charged, Quota.isZero, Bool.and_eq_true, decide_eq_true_iff,
    decide_eq_true_iff]
  cases entry.quota with
  | none => simp [Quota.zero]
  | some q => simp [zero_iff]

end UsageEntry

namespace StatementStyle

variable {style : StatementStyle} {entry : UsageEntry} {terms : UsageTerms} {inputRatio : Binary64}

/-- A line is made of its two prices. -/
theorem line?_eq_some {part : ChargeCategory × Binary64 × Option Binary64} {line : StatementLine}
    (made : style.line? terms part.1 part.2.1 part.2.2 = some line) :
  ∃ full actual, (style.linePrice terms part 1).digits? = some full ∧
    (style.linePrice terms part terms.groupRatio).digits? = some actual ∧
    line = { category := part.1, full, actual, basis := terms.basis,
             discounted := terms.groupRatio < 1 }
  := by
  change ((style.linePrice terms part 1).digits?.bind fun full =>
    (style.linePrice terms part terms.groupRatio).digits?.bind fun actual => some _) = _ at made
  obtain ⟨full, full_eq, made⟩ := Option.bind_eq_some_iff.mp made
  obtain ⟨actual, actual_eq, made⟩ := Option.bind_eq_some_iff.mp made
  exact ⟨full, actual, full_eq, actual_eq, (Option.some.inj made).symm⟩

/-- The lines of a charge are those of its categories, one by one. -/
theorem forall₂_lines? {lines : List StatementLine}
    (made : style.lines? terms inputRatio = some lines) :
  List.Forall₂ (fun part line => style.line? terms part.1 part.2.1 part.2.2 = some line)
    (categories terms inputRatio) lines
  := by
  rw [lines?] at made
  generalize categories terms inputRatio = parts at made ⊢
  induction parts generalizing lines with
  | nil =>
    obtain rfl : [] = lines := Option.some.inj made
    exact .nil
  | cons part parts ih =>
    rw [List.mapM_cons] at made
    obtain ⟨line, line_eq, made⟩ := Option.bind_eq_some_iff.mp made
    obtain ⟨others, others_eq, made⟩ := Option.bind_eq_some_iff.mp made
    obtain rfl : line :: others = lines := Option.some.inj made
    exact .cons line_eq (ih others_eq)

/-- Each line of a charge is that of one of its categories. -/
theorem exists_part_of_mem {lines : List StatementLine} {line : StatementLine}
    (made : style.lines? terms inputRatio = some lines) (line_mem : line ∈ lines) :
  ∃ part ∈ categories terms inputRatio, style.line? terms part.1 part.2.1 part.2.2 = some line
  := by
  have each := forall₂_lines? made
  generalize categories terms inputRatio = parts at each ⊢
  clear made
  induction each with
  | nil => cases line_mem
  | cons line_eq _ ih =>
    rcases List.mem_cons.mp line_mem with rfl | line_mem
    · exact ⟨_, List.mem_cons_self, line_eq⟩
    · obtain ⟨part, part_mem, line_eq⟩ := ih line_mem
      exact ⟨part, List.mem_cons_of_mem _ part_mem, line_eq⟩

/-- A statement in detail is made of the lines and the total. -/
theorem breakdown?_eq_some {breakdown : Breakdown}
    (made : style.breakdown? entry terms inputRatio = some breakdown) :
  ∃ lines total, style.lines? terms inputRatio = some lines ∧
    style.format.show? entry.charged style.places = some total ∧
    breakdown = { basis := terms.basis, groupRatio := terms.groupRatio, lines,
                  quota := entry.charged, fullQuota := style.fullQuota entry terms inputRatio, total,
                  percentSaved := Tariff.percentSaved entry.charged
                    (style.fullQuota entry terms inputRatio) terms.groupRatio }
  := by
  obtain ⟨lines, lines_eq, made⟩ := Option.bind_eq_some_iff.mp made
  obtain ⟨total, total_eq, made⟩ := Option.bind_eq_some_iff.mp made
  exact ⟨lines, total, lines_eq, total_eq, (Option.some.inj made).symm⟩

/-- A statement is in detail if an input ratio is known, and otherwise free or plain. -/
theorem statement?_eq_some {statement : Statement}
    (shown : style.statement? entry = some statement) :
  (∃ terms inputRatio breakdown, entry.terms = some terms ∧ terms.inputRatio = some inputRatio ∧
      style.breakdown? entry terms inputRatio = some breakdown ∧ statement = .detailed breakdown) ∨
    entry.terms.bind UsageTerms.inputRatio = none ∧
      (entry.IsFree ∧ statement = .free ∨
        ¬ entry.IsFree ∧ ∃ text, statement = .plain entry.charged text)
  := by
  rw [statement?] at shown
  split at shown
  case h_1 terms inputRatio known =>
    obtain ⟨_, terms_eq, known⟩ := Option.bind_eq_some_iff.mp known
    obtain ⟨_, ratio_eq, ⟨⟩⟩ := Option.map_eq_some_iff.mp known
    obtain ⟨breakdown, made, rfl⟩ := Option.map_eq_some_iff.mp shown
    exact .inl ⟨terms, inputRatio, breakdown, terms_eq, ratio_eq, made, rfl⟩
  case h_2 unknown =>
    right
    constructor
    · cases terms_eq : entry.terms with
      | none => rfl
      | some terms => simpa [terms_eq] using unknown
    · rw [entry.isFree_iff]
      split at shown
      case isTrue free => exact .inl ⟨free, (Option.some.inj shown).symm⟩
      case isFalse charged =>
        obtain ⟨text, -, rfl⟩ := Option.map_eq_some_iff.mp shown
        exact .inr ⟨charged, text, rfl⟩

end StatementStyle

/-- The form of a statement in detail: what its lines are for, all priced by one basis and discounted
alike, with a saving only if they are, and a text of one row for each line and the closing rows, with
the full prices of discounted lines struck out. -/
structure Breakdown.HasForm (breakdown : Breakdown) (terms : UsageTerms) : Prop where
  categories : breakdown.lines.map (·.category) = terms.chargedCategories
  nodup : (breakdown.lines.map (·.category)).Nodup
  basis : breakdown.basis = terms.basis ∧ ∀ line ∈ breakdown.lines, line.basis = terms.basis
  discounted : ∀ line ∈ breakdown.lines, line.discounted = true ↔ terms.groupRatio < 1
  saved : breakdown.percentSaved.isSome = true → ∀ line ∈ breakdown.lines, line.discounted = true
  rows : (Statement.detailed breakdown).toText.toList.splitOn '\n' = breakdown.rows.map String.toList
  parts : ∀ line ∈ breakdown.lines,
    line.toText.toList.splitOn '~' = line.parts.map String.toList

namespace StatementStyle

variable {style : StatementStyle} {entry : UsageEntry}

/-- What is made in detail has the form of a statement in detail. -/
theorem hasForm_of_breakdown? {terms : UsageTerms} {inputRatio : Binary64} {breakdown : Breakdown}
    (made : style.breakdown? entry terms inputRatio = some breakdown) :
  breakdown.HasForm terms
  := by
  obtain ⟨lines, total, lines_eq, total_eq, rfl⟩ := breakdown?_eq_some made
  have categories_eq : lines.map (·.category) = terms.chargedCategories := by
    rw [← map_fst_categories terms inputRatio, ← List.forall₂_eq_eq_eq, List.forall₂_map_left_iff,
      List.forall₂_map_right_iff]
    apply (forall₂_lines? lines_eq).flip.imp
    intro line part line_eq
    obtain ⟨full, actual, -, -, rfl⟩ := line?_eq_some line_eq
    rfl
  have of_mem : ∀ line ∈ lines, line.basis = terms.basis ∧
      line.discounted = decide (terms.groupRatio < 1) ∧ line.HasPlainPrices := by
    intro line line_mem
    obtain ⟨part, -, line_eq⟩ := exists_part_of_mem lines_eq line_mem
    obtain ⟨full, actual, full_eq, actual_eq, rfl⟩ := line?_eq_some line_eq
    exact ⟨rfl, rfl, ModelPrice.isPlain_badge full_eq _, ModelPrice.isPlain_badge actual_eq _⟩
  have discounted_iff : ∀ line ∈ lines, line.discounted = true ↔ terms.groupRatio < 1 := by
    intro line line_mem
    rw [(of_mem line line_mem).2.1, decide_eq_true_iff]
  constructor
  case categories => exact categories_eq
  case nodup =>
    rw [categories_eq]
    apply terms.nodup_chargedCategories
  case basis => exact ⟨rfl, fun line line_mem => (of_mem line line_mem).1⟩
  case discounted => exact discounted_iff
  case saved =>
    intro saved line line_mem
    rw [discounted_iff line line_mem]
    rw [Tariff.percentSaved] at saved
    split at saved
    case isTrue shares => exact shares.2.2
    case isFalse => cases saved
  case rows =>
    apply Breakdown.splitOn_toText
    · intro line line_mem
      exact (of_mem line line_mem).2.2
    · exact QuotaFormat.isPlain_of_show? total_eq
  case parts =>
    intro line line_mem
    apply StatementLine.splitOn_toText (of_mem line line_mem).2.2

/-- A statement is free if nothing was charged for consumption and no input ratio is known, in detail
if one is known, and plain otherwise; a statement in detail has the form of one. -/
theorem form_of_statement? {statement : Statement}
    (shown : style.statement? entry = some statement) :
  (statement = .free ↔ entry.IsFree ∧ entry.terms.bind UsageTerms.inputRatio = none) ∧
    ((∃ quota text, statement = .plain quota text) ↔
      ¬ entry.IsFree ∧ entry.terms.bind UsageTerms.inputRatio = none) ∧
    ((∃ breakdown, statement = .detailed breakdown) ↔
      ∃ inputRatio, entry.terms.bind UsageTerms.inputRatio = some inputRatio) ∧
    ∀ breakdown, statement = .detailed breakdown →
      ∃ terms, entry.terms = some terms ∧ breakdown.HasForm terms
  := by
  rcases statement?_eq_some shown with
    ⟨terms, inputRatio, breakdown, terms_eq, ratio_eq, made, rfl⟩ |
      ⟨unknown, ⟨free, rfl⟩ | ⟨charged, text, rfl⟩⟩
  · have known : entry.terms.bind UsageTerms.inputRatio = some inputRatio := by
      rw [terms_eq]
      exact ratio_eq
    simp only [known]
    refine ⟨by simp, by simp, by simp, ?_⟩
    rintro _ ⟨⟩
    exact ⟨terms, terms_eq, hasForm_of_breakdown? made⟩
  · simp [unknown, free]
  · simp [unknown, charged]

/-- The style of statements with nothing set. -/
def usual : StatementStyle where
  basePrice_finite :=
    decide_eq_true (by decide +kernel : ModelPrice.defaultBasePrice.code < Binary64.infinityCode)

/-- Consumption at half the price with tokens read from a cache. -/
def halfPriceEntry : UsageEntry where
  kind := .consume
  quota := some ⟨500⟩
  terms := some
    ({ inputRatio := some 1, groupRatio := some 0.5, cacheReadTokens := 7,
       fullQuota := some 1000 } : UsageDetail).terms

/-- Consumption at half the price is shown with three discounted lines and two closing rows. -/
theorem form_of_statement?_halfPrice :
  ∃ breakdown terms, usual.statement? halfPriceEntry = some (.detailed breakdown) ∧
    breakdown.HasForm terms ∧ terms.chargedCategories = [.input, .output, .cacheRead] ∧
    terms.groupRatio < 1
  := by
  have made : (usual.statement? halfPriceEntry).isSome = true := by decide +kernel
  obtain ⟨statement, shown⟩ := Option.isSome_iff_exists.mp made
  obtain ⟨-, -, detailed_iff, form⟩ := form_of_statement? shown
  obtain ⟨breakdown, rfl⟩ := detailed_iff.mpr ⟨1, rfl⟩
  obtain ⟨_, ⟨⟩, hasForm⟩ := form breakdown rfl
  exact ⟨breakdown, _, shown, hasForm, by decide, by decide +kernel⟩

end StatementStyle

end Tariff
