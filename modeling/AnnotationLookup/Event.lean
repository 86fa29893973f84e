import AnnotationLookup.Tree.Basic

/-!
# Reported events

What a lookup reports while it works, with a severity.

* `Level`, `Event`, `Event.message`;
* `World`: the state that a lookup works in, which is the state of its host and the events so far;
* `Task`: a computation in a world that may fail; what it reports before it fails stays reported.
-/

namespace AnnotationLookup

/-- How serious an event is. -/
inductive Level
  | trace
  | debug
  | info
  | warn
  | error
deriving DecidableEq, Repr

/-- The name of the level in a log. -/
def Level.name : Level → String
  | trace => "TRACE"
  | debug => "DEBUG"
  | info => "INFO"
  | warn => "WARN"
  | error => "ERROR"

/-- What is reported in the course of resolutions. -/
inductive Event
  /-- A use is answered without resolving it again. -/
  | known (use : UseId)
  /-- An annotation type is looked up for another factory than the one it was bound to. -/
  | rebinding (annotationType : TypeReference) (factory : Factory)
  /-- A class is asked for on a class path. -/
  | loading (type : TypeReference)
  /-- An annotation type is known, and the annotated class comes next. -/
  | resolving (annotationType : String) (siteKind : String)
  /-- A value is given to a parameter that the annotation type does not declare. -/
  | undeclared (key className : String)
deriving DecidableEq

/-- The text of an event in a log. -/
def Event.message : Event → String
  | known use => "Annotation use #" ++ toString use.index ++ " already resolved"
  | rebinding r factory =>
    "Rebinding @" ++ r.name ++ " from " ++ r.factory.display ++ " to " ++ factory.display
  | loading r => "Loading " ++ r.name ++ " from the class path of " ++ r.factory.display
  | resolving annotationType siteKind =>
    "Resolving @" ++ annotationType ++ " on a " ++ siteKind ++ " declaration"
  | undeclared key className =>
    "Ignoring value for `" ++ key ++ "`, which `" ++ className ++ "` does not declare"

/-- An event with the level that it was reported at. -/
structure LogEntry where
  level : Level
  event : Event
deriving DecidableEq

/-- The state of what lies outside of a lookup, and what has been reported. -/
structure World (σ : Type) where
  host : σ
  log : List LogEntry := []

/-- A computation in a world, which it may change also where it fails. -/
abbrev Task (σ ε α : Type) := EStateM ε (World σ) α

variable {σ ε : Type}

/-- Adds an event to the log. -/
def report (level : Level) (event : Event) : Task σ ε Unit :=
  modify fun w => { w with log := w.log ++ [⟨level, event⟩] }

end AnnotationLookup
