import AnnotationLookup.CompiledClass
import AnnotationLookup.TypeReference

/-!
# Loaders

A loader finds compiled classes by name on one class path.

* `LoadError`, with its message and the chain of causes below it;
* `Host`: a family of loaders of any behaviour over a shared state;
* `Universe`: a class path held in memory;
* `Loader`: a universe whose next answers can be made to fail, and which remembers what it was
  asked for; `Loader.host` is the family of such loaders.
-/

namespace AnnotationLookup

/-- Why a class fails to load. -/
inductive LoadError
  /-- No class path belongs to the factory. -/
  | unbound (factory : Factory)
  /-- The class is there and cannot be made. -/
  | linkage (name message : String)
  | other (message : String)
deriving DecidableEq, Repr

namespace LoadError

/-- The text of a failure to load. -/
def message : LoadError → String
  | unbound factory => "No class path is bound to " ++ factory.display
  | linkage name message => "Class `" ++ name ++ "` could not be defined: " ++ message
  | other message => message

/-- The messages of the causes of an error, outermost first. -/
def causes : LoadError → List String
  | other message => [message]
  | _ => []

end LoadError

/-- The number of a loader among the loaders of the host. -/
structure LoaderId where
  index : Nat
deriving DecidableEq, Inhabited, Repr

/-- A family of loaders. Each may answer as it likes and change the state that they share. -/
structure Host (σ : Type) where
  load : LoaderId → String → σ → Except LoadError (Option CompiledClass) × σ

/-! ## Class paths held in memory -/

/-- Classes by name. -/
structure Universe where
  classes : Entries CompiledClass := []
deriving Inhabited

namespace Universe

/-- A class replaces an earlier one of its name. -/
def insert (u : Universe) (c : CompiledClass) : Universe := ⟨u.classes.insert c.name c⟩

/-- The classes of a list, of which the last of each name counts. -/
def ofList (cs : List CompiledClass) : Universe := cs.foldl insert {}

/-- The class of a name. -/
def find? (u : Universe) (name : String) : Option CompiledClass := u.classes.get? name

/-- How many classes there are. -/
def size (u : Universe) : Nat := u.classes.length

end Universe

/-- What an answer is made to be. -/
inductive Fault
  | linkage (message : String)
  | other (message : String)
  | unbound (factory : Factory)
deriving Repr

/-- The error of a fault in loading a class. -/
def Fault.error (name : String) : Fault → LoadError
  | linkage message => .linkage name message
  | other message => .other message
  | unbound factory => .unbound factory

/-- A loader of classes that fails at times, as it is planned, and keeps a record of what it is
asked. -/
structure Loader where
  classes : Universe := {}
  /-- What becomes of the next answers; after these, no answer fails. -/
  plan : List (Option Fault) := []
  /-- The names asked for. -/
  asked : List String := []
deriving Inhabited

namespace Loader

/-- The answer to one request, and the loader after it. -/
def load (l : Loader) (name : String) : Except LoadError (Option CompiledClass) × Loader :=
  let next := { l with asked := l.asked ++ [name], plan := l.plan.tail }
  match l.plan with
  | some fault :: _ => (.error (fault.error name), next)
  | _ => (.ok (l.classes.find? name), next)

/-- The loaders of a list, by position. A loader that is not there knows no class. -/
def host : Host (List Loader) where
  load id name loaders :=
    match loaders[id.index]? with
    | none => (.ok none, loaders)
    | some l =>
      let (answer, l) := l.load name
      (answer, loaders.set id.index l)

end Loader

end AnnotationLookup
