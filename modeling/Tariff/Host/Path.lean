import Tariff.Host.FileError

/-!
# Paths

A path is a text whose parts are separated by slashes.  It is followed from a directory on: a part
is the name of an entry of the directory that has been reached, or two dots, which lead to the
directory above it.  Empty parts and single dots lead nowhere; at the end of a path they say that
it leads to a directory.
-/

namespace Tariff

/-- One part of a path. -/
inductive Move where
  /-- To the directory above. -/
  | up
  /-- To the entry with a name. -/
  | enter (name : String)
deriving DecidableEq, Repr

/-- What follows the last move of a path. -/
inductive PathEnd where
  /-- Nothing. -/
  | bare
  /-- A slash. -/
  | slash
  /-- A single dot. -/
  | dot
deriving DecidableEq, Repr

/-- The moves of a path and its end. -/
structure Path where
  moves : List Move
  ending : PathEnd
deriving DecidableEq, Repr

namespace Path

/-- The parts of a path between slashes. -/
def pieces : List Char → List (List Char)
  | [] => [[]]
  | c :: cs =>
    if c = '/' then [] :: pieces cs
    else
      match pieces cs with
      | [] => [[c]]
      | piece :: rest => (c :: piece) :: rest

/-- A part that leads nowhere. -/
def isIdle (piece : List Char) : Bool :=
  piece = [] || piece = ['.']

/-- The move of a part, unless it leads nowhere. -/
def move? (piece : List Char) : Option Move :=
  if isIdle piece then none
  else if piece = ['.', '.'] then some .up
  else some (.enter (String.ofList piece))

/-- The end of a path with these parts: slashes behind a dot do not count. -/
def endingOf (pieces : List (List Char)) : PathEnd :=
  match pieces.reverse.dropWhile (· = []) with
  | ['.'] :: _ => .dot
  | _ => if pieces.getLast? = some [] then .slash else .bare

/-- The path of characters: the moves of its parts, and its end. -/
def ofChars (cs : List Char) : Path :=
  ⟨(pieces cs).filterMap move?, endingOf (pieces cs)⟩

/-- A path has fewer bytes than this. -/
def byteLimit : Nat := 4096

/-- The path that a text denotes; it must not hold the character zero nor be too long. -/
def ofText (s : String) : Except FileError Path :=
  if s.toList.any (·.toNat = 0) then .error .invalidPath
  else if byteLimit ≤ s.utf8ByteSize then .error .nameTooLong
  else .ok (ofChars s.toList)

/-- The path to the directory that holds the end of a path, if its last part is a move. -/
def parent? (path : Path) : Option Path :=
  if path.moves.isEmpty then none else some ⟨path.moves.dropLast, .bare⟩

/-- The text of a path without the parts at its two ends that lead nowhere. -/
def trim (s : String) : String :=
  let rest := (pieces s.toList).dropWhile isIdle
  String.ofList (List.intercalate ['/'] (rest.reverse.dropWhile isIdle).reverse)

example : ofChars "p/./../s.json".toList = ⟨[.enter "p", .up, .enter "s.json"], .bare⟩ := by decide
example : ofChars "p/".toList = ⟨[.enter "p"], .slash⟩ := by decide
example : ofChars "p/./".toList = ⟨[.enter "p"], .dot⟩ := by decide
example : ofChars [] = ⟨[], .slash⟩ := by decide
example : trim "./p//s.json/." = "p//s.json" := by decide

end Path

end Tariff
