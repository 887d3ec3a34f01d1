import Tariff.Text.Ranges

/-!
# Blank characters

The white space of all scripts, and texts without the blanks around them.
-/

namespace Tariff.Text

/-- The ranges of the blank characters. -/
def blankRanges : List (Nat × Nat) :=
  [
    (0x0009, 0x000D), (0x0020, 0x0020), (0x0085, 0x0085), (0x00A0, 0x00A0), (0x1680, 0x1680),
    (0x2000, 0x200A), (0x2028, 0x2029), (0x202F, 0x202F), (0x205F, 0x205F), (0x3000, 0x3000)
  ]

/-- A blank character of any script. -/
def isBlank (c : Char) : Bool :=
  inRanges blankRanges c

/-- The characters without the blanks at both ends. -/
def trimChars (cs : List Char) : List Char :=
  ((cs.dropWhile isBlank).reverse.dropWhile isBlank).reverse

/-- The text without the blanks at both ends. -/
def trim (s : String) : String :=
  String.ofList (trimChars s.toList)

/-- A text of blanks only, or the empty text. -/
def isAllBlank (s : String) : Bool :=
  s.toList.all isBlank

/-- No digit is blank in any script. -/
theorem isBlank_of_isDigit {c : Char} (digit : c.isDigit = true) :
  isBlank c = false
  := by
  obtain ⟨zero_le, le_nine⟩ := Char.isDigit_iff_toNat.mp digit
  change 48 ≤ c.toNat at zero_le
  change c.toNat ≤ 57 at le_nine
  simp only [isBlank, inRanges, blankRanges, List.any_cons, List.any_nil,
    Bool.or_false, Bool.or_eq_false_iff, Bool.and_eq_false_iff, decide_eq_false_iff_not]
  omega

/-- A text without blanks stays when those around it are cut off. -/
theorem trimChars_eq {cs : List Char} (no_blank : ∀ c ∈ cs, isBlank c = false) :
  trimChars cs = cs
  := by
  have kept {cs : List Char} (no_blank : ∀ c ∈ cs, isBlank c = false) :
      cs.dropWhile isBlank = cs := by
    cases cs with
    | nil => rfl
    | cons c cs => rw [List.dropWhile_cons_of_neg (by simp [no_blank c])]
  have no_blank' : ∀ c ∈ cs.reverse, isBlank c = false :=
    fun c c_mem => no_blank c (List.mem_reverse.mp c_mem)
  rw [trimChars, kept no_blank, kept no_blank', List.reverse_reverse]

example : trim "\t 1 \u00A0" = "1" := by decide

end Tariff.Text
