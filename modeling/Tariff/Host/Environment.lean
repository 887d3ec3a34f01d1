import Tariff.Host.Files

/-!
# The environment of the host

Variables with names and values that need not be valid text.  The host keeps a variable as its
name, an equal sign and its value, and a name that is looked up may reach over that sign into the
value.
-/

namespace Tariff

/-- What can go wrong with a variable. -/
inductive VariableError where
  | notPresent
  | notText
deriving DecidableEq, Repr

/-- The error in words. -/
def VariableError.message : VariableError → String
  | .notPresent => "environment variable not found"
  | .notText => "environment variable was not valid unicode"

/-- What follows `head` in a text that starts with it. -/
def HostText.after? (head : List Char) : HostText → Option HostText
  | .text s =>
    if head.isPrefixOf s.toList then some (.text (String.ofList (s.toList.drop head.length)))
    else none
  | .other bytes =>
    let headBytes := (String.ofList head).toUTF8.toList
    if headBytes.isPrefixOf bytes then some (.other (bytes.drop headBytes.length)) else none

/-- The character zero does not occur in a text. -/
def HostText.isFreeOfZero : HostText → Bool
  | .text s => s.toList.all (·.toNat ≠ 0)
  | .other bytes => bytes.all (· ≠ 0)

/-- The variables, each with its name. -/
structure Environment where
  bindings : List (HostText × HostText)

namespace Environment

/-- Without variables. -/
def empty : Environment := ⟨[]⟩

/-- A variable can have this name. -/
def isName (name : String) : Bool :=
  name ≠ "" && name.toList.all fun c => c ≠ '=' && c.toNat ≠ 0

/-- The environment without the variable of a name. -/
def remove (environment : Environment) (name : String) : Environment :=
  ⟨environment.bindings.filter fun entry => entry.1 ≠ .text name⟩

/-- The environment with a variable of a name set to a value. -/
def set (environment : Environment) (name : String) (value : HostText) : Environment :=
  ⟨(.text name, value) :: (environment.remove name).bindings⟩

/-- The environment without the variable of a name, if it can be one. -/
def remove? (environment : Environment) (name : String) : Option Environment :=
  if isName name then some (environment.remove name) else none

/-- The environment with a variable of a name set to a value, if it can be. -/
def set? (environment : Environment) (name : String) (value : HostText) : Option Environment :=
  if isName name && value.isFreeOfZero then some (environment.set name value) else none

/-- The name of the variable that is looked up for a name: what stands in front of the first equal sign
in it, or all of it.  A name may itself start with an equal sign, which does not count. -/
def owner (name : String) : String :=
  String.ofList (name.toList.take 1 ++ (name.toList.drop 1).takeWhile (· ≠ '='))

/-- What stands behind a name and an equal sign in the variable that the name starts with. -/
def find? (environment : Environment) (name : String) : Option HostText :=
  if name = "" then none
  else
    let value? := environment.bindings.lookup (.text (owner name))
    match (name.toList.drop 1).dropWhile (· ≠ '=') with
    | [] => value?
    | _ :: rest => value?.bind (HostText.after? (rest ++ ['=']))

/-- The value of a variable, if there is one; it has to be text. -/
def get (environment : Environment) (name : String) : Except VariableError (Option String) :=
  match environment.find? name with
  | none => .ok none
  | some (.text value) => .ok (some value)
  | some (.other _) => .error .notText

/-- The name of a variable with a name and a value that are text. -/
def textName? (entry : HostText × HostText) : Option String := do
  let name ← entry.1.text?
  let _ ← entry.2.text?
  return name

/-- The names of all variables, if all names and values are text. -/
def names? (environment : Environment) : Option (List String) :=
  environment.bindings.mapM textName?

example : ((empty.set "A" (.text "B=C")).get "A=B").toOption = some (some "C") := by
  decide +kernel

example : (get ⟨[(.text "=A", .text "B")]⟩ "=A").toOption = some (some "B") := by
  decide +kernel

end Environment

/-- The files and the environment that stores look at. -/
structure Host where
  files : Files
  environment : Environment

end Tariff
