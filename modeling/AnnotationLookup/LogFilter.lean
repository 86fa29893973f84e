import AnnotationLookup.Event
import AnnotationLookup.Settings
import AnnotationLookup.Text.Alphanumeric
import AnnotationLookup.Text.Blank
import AnnotationLookup.Text.Bytes

/-!
# Log filters

A filter is a list of directives between commas. Each allows a target, or all targets, up to a
level.

* `Directive.read`: one directive; a part that is none is left out;
* `LogFilter.read`, `LogFilter.render`: the directives of a text, and their text, the most specific
  first;
* `LogOutput.install`: a filter is installed once.
-/

namespace AnnotationLookup

/-- The least severe level that passes; nothing passes where there is none. -/
abbrev Threshold := Option Level

namespace Threshold

/-- The words for thresholds. -/
def words : List (String × Threshold) :=
  [("off", none), ("error", some .error), ("warn", some .warn), ("info", some .info),
    ("debug", some .debug), ("trace", some .trace)]

/-- The word for a threshold. -/
def word : Threshold → String
  | none => "off"
  | some .error => "error"
  | some .warn => "warn"
  | some .info => "info"
  | some .debug => "debug"
  | some .trace => "trace"

/-- The number of a threshold, with an optional plus sign. -/
def number? (cs : List Char) : Option Nat :=
  let ds := if cs.head? = some '+' then cs.tail else cs
  if !ds.isEmpty && ds.all Char.isDigit then some (Nat.ofDigitChars 10 ds 0) else none

/-- A threshold by its word, in any case, or by its number. -/
def read? (cs : List Char) : Option Threshold :=
  match number? cs with
  | some n => (words[n]?).map (·.2)
  | none => words.lookup (String.ofList (cs.map Char.toLower))

end Threshold

/-- The place where a part is to be cut lies inside a character. -/
structure DividedCharacter where
  part : String
deriving DecidableEq

/-- The threshold of what a target reports, or of all that is reported if no target is given. -/
structure Directive where
  target : Option String
  threshold : Threshold
deriving DecidableEq

namespace Directive

/-- A target starts with a letter, a digit or one of three marks. -/
def startsTarget (c : Char) : Bool :=
  c == '-' || c == ':' || c == '_' || Text.isAlphanumeric c

/-- A part without `=` is a threshold for all targets, or else a target of which everything
passes. -/
def ofPart (part : List Char) : Directive :=
  match Threshold.read? part with
  | some threshold => ⟨none, threshold⟩
  | none => ⟨some (String.ofList part), some .trace⟩

/-- A target and the text of its threshold. Without a threshold everything passes. -/
def ofTarget? (target threshold : List Char) : Option Directive :=
  if threshold.isEmpty then some ⟨some (String.ofList target), some .trace⟩
  else (Threshold.read? threshold).map (⟨some (String.ofList target), ·⟩)

/-- The directive of a part. A part is looked at without the blanks around it, and cut with them:
the place of `=` counts from the first character that is no blank, and the part is cut at this place
from its beginning, which cannot be done inside a character. -/
def read (part : List Char) : Except DividedCharacter (Option Directive) :=
  let word := Text.trim part
  if !word.head?.any startsTarget then .ok none
  else if !word.contains '=' then .ok (some (ofPart part))
  else
    match Text.splitAtByte? part (Text.byteSize (word.takeWhile (· != '='))) with
    | none => .error ⟨String.ofList part⟩
    | some (target, rest) =>
      match Text.splitAtByte? rest 1 with
      | none => .error ⟨String.ofList part⟩
      | some (_, threshold) => .ok (ofTarget? target threshold)

/-- The text of a directive. -/
def render (d : Directive) : String :=
  match d.target with
  | some target => target ++ "=" ++ d.threshold.word
  | none => d.threshold.word

/-- Longer targets come first, of equally long ones the greater, and all targets together last. -/
def le (d e : Directive) : Bool :=
  match d.target, e.target with
  | some s, some t =>
    decide (t.utf8ByteSize < s.utf8ByteSize) || s.utf8ByteSize == t.utf8ByteSize && decide (t ≤ s)
  | some _, none => true
  | none, some _ => false
  | none, none => true

end Directive

/-- The directives of a filter, in order. -/
abbrev LogFilter := List Directive

namespace LogFilter

/-- The filter with a directive, in place of the one for the same target. -/
def add (filter : LogFilter) (d : Directive) : LogFilter :=
  filter.filter (·.target != d.target) ++ [d]

/-- The directives of a text; warnings pass where there are none. -/
def read (text : String) : Except DividedCharacter LogFilter := do
  let directives ← (text.splitOn ",").mapM fun part => Directive.read part.toList
  match (directives.filterMap id).foldl add [] with
  | [] => return [⟨none, some .warn⟩]
  | filter => return filter.mergeSort Directive.le

/-- The text of a filter, its directives separated by commas. -/
def render (filter : LogFilter) : String := ",".intercalate (filter.map Directive.render)

/-- The filter that an environment asks for. -/
def ofEnvironment (process : Entries String) (env : Environment) :
    Except DividedCharacter LogFilter :=
  read ((env.get? process Settings.logVariable).getD "")

end LogFilter

/-! ## Installation -/

/-- Where the log goes, once a filter is installed. -/
structure LogOutput where
  filter : Option LogFilter := none

/-- Why a filter is not installed. -/
inductive InstallError
  | alreadyInstalled

/-- The text of a failure to install. -/
def InstallError.message : InstallError → String
  | .alreadyInstalled =>
    "Could not install the tracing subscriber: a global default trace dispatcher has already been "
      ++ "set"

/-- Installs a filter unless there is one. -/
def LogOutput.install (output : LogOutput) (filter : LogFilter) : Except InstallError LogOutput :=
  match output.filter with
  | none => .ok ⟨some filter⟩
  | some _ => .error .alreadyInstalled

end AnnotationLookup
