import Tariff.Text.CaseTable

/-!
# Upper and lower case of texts

The full case maps.  A character may become several, and a capital sigma becomes the final form
when a letter stands before it and none after it, characters that do not count skipped on both
sides.
-/

namespace Tariff.Text

/-- The image of a code point under a list of runs, if one covers it. -/
def runImage (runs : List CaseRun) (n : Nat) : Option Nat :=
  (runs.find? (·.covers n)).map fun run => ((n : Int) + run.distance).toNat

/-- The characters that upper case puts in place of `c`. -/
def upperChars (c : Char) : List Char :=
  match longUpper.find? (·.1 == c.toNat) with
  | some (_, image) => image.map Char.ofNat
  | none =>
    match runImage upperRuns c.toNat with
    | some n => [Char.ofNat n]
    | none => [c]

/-- The text in upper case. -/
def upper (s : String) : String :=
  String.ofList (s.toList.flatMap upperChars)

/-- The first character that counts is a letter with case. -/
def meetsCased (cs : List Char) : Bool :=
  match cs.dropWhile (inRanges caseIgnorableRanges) with
  | [] => false
  | c :: _ => inRanges casedRanges c

/-- The characters that lower case puts in place of `c` between `before`, read backwards, and
`after`. -/
def lowerChars (before : List Char) (c : Char) (after : List Char) : List Char :=
  if c = 'Σ' then
    if meetsCased before && !meetsCased after then ['ς'] else ['σ']
  else if c = 'İ' then
    ['i', '\u0307']
  else
    match runImage lowerRuns c.toNat with
    | some n => [Char.ofNat n]
    | none => [c]

/-- Lower case of `cs` when `before`, read backwards, stands in front of it. -/
def lowerFrom (before : List Char) : List Char → List Char
  | [] => []
  | c :: after => lowerChars before c after ++ lowerFrom (c :: before) after

/-- The text in lower case. -/
def lower (s : String) : String :=
  String.ofList (lowerFrom [] s.toList)

end Tariff.Text
