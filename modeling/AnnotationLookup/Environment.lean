import AnnotationLookup.Entries
import AnnotationLookup.Text.Blank
import AnnotationLookup.Text.Lowercase

/-!
# Environments

Variables are looked up in tables, in the variables of the process, or in a stack of environments
of which the first that defines a variable counts.

* `Environment.get?`: the value of a variable;
* `readBoolean?`, `readBoolean`: the spellings of the truth values, and the error of any other text;
* `Environment.enabled`: the truth value of a variable, or a default where it is not defined.
-/

namespace AnnotationLookup

/-- Where settings are looked up. -/
inductive Environment
  | table (entries : Entries String)
  /-- The variables of the process. -/
  | process
  | stack (environments : List Environment)

/-- A variable is defined and spells no truth value. -/
structure InvalidBoolean where
  key : String
  value : String
deriving DecidableEq, Repr

/-- What is reported of a value that is no spelling of a truth value. -/
def InvalidBoolean.message (e : InvalidBoolean) : String :=
  "Invalid value for " ++ e.key ++ ": " ++ e.value
    ++ ". Expected one of true, 1, yes, on OR false, 0, no, off"

/-- The words for true, in lower case. -/
def trueWords : List String := ["true", "1", "yes", "on"]

/-- The words for false, in lower case. -/
def falseWords : List String := ["false", "0", "no", "off"]

/-- The truth value that a text spells, in any case and with blanks around it. -/
def readBoolean? (value : String) : Option Bool :=
  let word := String.ofList (Text.lowerChars (Text.trim value.toList))
  if trueWords.contains word then some true
  else if falseWords.contains word then some false
  else none

/-- The truth value that the text of a variable spells. -/
def readBoolean (key value : String) : Except InvalidBoolean Bool :=
  match readBoolean? value with
  | some b => .ok b
  | none => .error ⟨key, value⟩

namespace Environment

variable (process : Entries String)

mutual

/-- The value of a variable, where `process` are the variables of the process. -/
def get? (env : Environment) (key : String) : Option String :=
  match env with
  | .table entries => entries.get? key
  | .process => process.get? key
  | .stack environments => getFirst? environments key
termination_by structural env

/-- The value of a key in the first environment that has one. -/
def getFirst? (environments : List Environment) (key : String) : Option String :=
  match environments with
  | [] => none
  | env :: environments =>
    match env.get? key with
    | some value => some value
    | none => getFirst? environments key
termination_by structural environments

end

/-- The truth value of a key, with a default where the key is not set. -/
def enabled (env : Environment) (key : String) (default : Bool) : Except InvalidBoolean Bool :=
  match env.get? process key with
  | none => .ok default
  | some value => readBoolean key value

end Environment

end AnnotationLookup
