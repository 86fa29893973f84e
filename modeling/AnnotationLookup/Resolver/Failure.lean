import AnnotationLookup.Loader
import AnnotationLookup.Tree.Basic
import AnnotationLookup.Value.Shape

/-!
# Failures of lookups

* `Missing`: a node that is referred to and is not there;
* `Cause`: why an annotation has no value, with its message and the causes below it;
* `Failure`: a cause, with the use and the key that were asked for.
-/

namespace AnnotationLookup

/-- What is missing where an id leads nowhere. -/
inductive Missing
  | use (id : UseId)
  | method (id : MethodId)
  | type (id : TypeId)
  | siteOf (id : UseId)
deriving DecidableEq, Repr

/-- How what is missing is called in messages. -/
def Missing.text : Missing → String
  | use id => "annotation use #" ++ toString id.index
  | method id => "method #" ++ toString id.index
  | type id => "type #" ++ toString id.index
  | siteOf id => "parent of annotation use #" ++ toString id.index

/-- Why a lookup fails. -/
inductive Cause
  /-- No class of this name was found. -/
  | classMissing (name : String)
  /-- The class has no method of the signature, or several. -/
  | methodMismatch (owner method signature : String) (found : Nat)
  /-- The compiled element does not carry the annotation. -/
  | recordMissing (element annotationType : String)
  | unknownParameter (annotationType key : String)
  /-- The parameter has neither a value nor a default. -/
  | noValue (annotationType key : String)
  /-- Annotations on such a declaration are not resolved. -/
  | unsupportedSite (kind : String)
  /-- The enclosing declaration's factory is not served. -/
  | unservedFactory (factory : Factory)
  | loading (error : LoadError)
  | dangling (node : Missing)
  | unexpectedValue (error : ConversionError)
deriving DecidableEq, Repr

namespace Cause

/-- The text of a cause. -/
def message : Cause → String
  | classMissing name => "compiled artifact for `" ++ name ++ "` could not be located"
  | methodMismatch owner method signature found =>
    "expected exactly one compiled method `" ++ owner ++ "." ++ method ++ "(" ++ signature
      ++ ")`, found " ++ toString found
  | recordMissing element annotationType =>
    "`" ++ element ++ "` does not carry annotation `" ++ annotationType ++ "`"
  | unknownParameter annotationType key =>
    "annotation `" ++ annotationType ++ "` declares no parameter `" ++ key ++ "`"
  | noValue annotationType key =>
    "annotation `" ++ annotationType ++ "` has no value for `" ++ key ++ "` and no default"
  | unsupportedSite kind => "annotations on a " ++ kind ++ " declaration cannot be resolved"
  | unservedFactory factory =>
    factory.display ++ " of the enclosing declaration is not bound to any class path"
  | loading error => "introspection failed: " ++ error.message
  | dangling node => node.text ++ " is not part of the declaration tree"
  | unexpectedValue error => error.message

/-- The messages of what lies below a cause, outermost first. -/
def causes : Cause → List String
  | loading error => error.message :: error.causes
  | _ => []

/-- The cause that an error in loading a class makes. -/
def ofLoadError : LoadError → Cause
  | .unbound factory => .unservedFactory factory
  | error => .loading error

end Cause

/-- A failed lookup: the use and the key that were asked for, and the cause. -/
structure Failure where
  use : UseId
  key : String
  cause : Cause
deriving DecidableEq, Repr

namespace Failure

/-- The text of a failure. -/
def message (f : Failure) : String :=
  "Could not resolve `" ++ f.key ++ "` of annotation use #" ++ toString f.use.index ++ ": "
    ++ f.cause.message

/-- The messages of the causes of a failure, outermost first. -/
def causes (f : Failure) : List String := f.cause.message :: f.cause.causes

end Failure

end AnnotationLookup
