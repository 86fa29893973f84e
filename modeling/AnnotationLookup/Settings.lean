import AnnotationLookup.Environment
import AnnotationLookup.Event

/-!
# Settings

* `Settings`: what can be configured of a lookup;
* `Settings.ofEnvironment`: the settings that variables give;
* `Settings.ofProcessWith`: the same from the variables of the process, over which others take
  precedence.
-/

namespace AnnotationLookup

/-- What can be set of a resolver. -/
structure Settings where
  /-- Report a rebinding as a warning. -/
  warnOnRebinding : Bool := false
deriving DecidableEq, Inhabited, Repr

namespace Settings

/-- How severe a rebinding is. -/
def rebindingLevel (s : Settings) : Level := if s.warnOnRebinding then .warn else .debug

/-- The variable that filters the log. -/
def logVariable : String := "IMPLGEN_LOG"

/-- The variable that makes rebindings warnings. -/
def warnVariable : String := "IMPLGEN_WARN_ON_FACTORY_REPAIR"

variable (process : Entries String)

/-- Whether rebindings are reported as warnings, as an environment says. -/
def readWarnOnRebinding (env : Environment) : Except InvalidBoolean Bool :=
  env.enabled process warnVariable false

/-- The settings that an environment gives. -/
def ofEnvironment (env : Environment) : Except InvalidBoolean Settings :=
  (readWarnOnRebinding process env).map (⟨·⟩)

/-- The settings that the variables of the process give. -/
def ofProcess : Except InvalidBoolean Settings := ofEnvironment process .process

/-- The settings of the process, where other variables come first. -/
def ofProcessWith (overrides : Environment) : Except InvalidBoolean Settings :=
  ofEnvironment process (.stack [overrides, .process])

end Settings

end AnnotationLookup
