import AnnotationLookup.Cache
import AnnotationLookup.Provider
import AnnotationLookup.Resolver.Completed
import AnnotationLookup.Settings

/-!
# Resolution

An annotation on a method or a type is read from the compiled class of the enclosing type. Every
class on the way is looked up under the factory of that type, whatever factory a reference was
bound to.

* `Metadata.resolve`: completes the annotation of a use; `Metadata.materialize`: its last steps;
* `Metadata.complete`: the same through a cache of completed annotations. Failures are not cached;
* `Resolver`: a provider, the settings, and the cache.
-/

namespace AnnotationLookup

/-- What an annotation is read from. -/
inductive Member
  | method (owner : TypeReference) (node : MethodNode)
  | type (reference : TypeReference)

namespace Tree

variable (t : Tree)

/-- The member that a site denotes; annotations of fields and parameters are not resolved. -/
def member : Site → Except Cause Member
  | .method id =>
    match t.method? id with
    | none => .error (.dangling (.method id))
    | some m =>
      match t.referenceTo? m.owner with
      | none => .error (.dangling (.type m.owner))
      | some owner => .ok (.method owner m)
  | .type id =>
    match t.referenceTo? id with
    | none => .error (.dangling (.type id))
    | some reference => .ok (.type reference)
  | site => .error (.unsupportedSite site.kindName)

/-- The factory of the site of a use. -/
def enclosingFactory (id : UseId) : Except Cause Factory :=
  match (t.use? id).bind fun use => t.factoryOf? use.site with
  | some factory => .ok factory
  | none => .error (.dangling (.siteOf id))

end Tree

namespace CompiledClass

/-- The one method of a signature. -/
def exactMethod (c : CompiledClass) (name : String) (parameterTypes : List TypeName) :
    Except Cause CompiledMethod :=
  match c.methodsMatching name parameterTypes with
  | [m] => .ok m
  | ms => .error (.methodMismatch c.name name (signatureOf parameterTypes) ms.length)

/-- The record of an annotation type on a method of the class. -/
def recordOnMethod (c : CompiledClass) (m : CompiledMethod) (annotationType : String) :
    Except Cause AnnotationRecord :=
  match m.recordOf? annotationType with
  | some record => .ok record
  | none =>
    .error (.recordMissing (c.name ++ "." ++ m.name ++ "(" ++ m.signature ++ ")") annotationType)

/-- The record of an annotation type on the class itself. -/
def recordOnClass (c : CompiledClass) (annotationType : String) : Except Cause AnnotationRecord :=
  match c.recordOf? annotationType with
  | some record => .ok record
  | none => .error (.recordMissing c.name annotationType)

end CompiledClass

/-- An outcome as a computation that leaves the world as it is. -/
def Task.ofExcept {σ ε α : Type} : Except ε α → Task σ ε α
  | .ok a => pure a
  | .error e => throw e

namespace Metadata

variable {σ : Type} (source : Metadata σ) (t : Tree)

/-- The class that a reference names. -/
def classOf (reference : TypeReference) : Task σ Cause CompiledClass := do
  match ← EStateM.adaptExcept Cause.ofLoadError (source.load t reference) with
  | some c => pure c
  | none => throw (.classMissing reference.name)

/-- The reference to an annotation type, under the factory of the annotated declaration. -/
def rebound (settings : Settings) (annotationType : TypeReference) (factory : Factory) :
    Task σ Cause TypeReference :=
  if source.serves factory then
    if annotationType.factory = factory then
      pure annotationType
    else do
      report settings.rebindingLevel (.rebinding annotationType factory)
      pure (annotationType.rebind factory)
  else throw (.unservedFactory factory)

/-- The compiled type of a parameter. A primitive type needs no class, and an array type the class
of its elements only. -/
def parameterType (factory : Factory) (p : ParameterNode) : Task σ Cause TypeName :=
  let (element, dimensions) := p.type.typeName.splitArray
  if element.isPrimitive then pure (element.arrayOf dimensions)
  else do
    let c ← source.classOf t ⟨element.text, factory⟩
    pure (c.typeName.arrayOf dimensions)

/-- The compiled types of parameters, in order. -/
def parameterTypes (factory : Factory) : List ParameterNode → Task σ Cause (List TypeName)
  | [] => pure []
  | p :: ps => do
    let type ← source.parameterType t factory p
    let types ← parameterTypes factory ps
    pure (type :: types)

/-- The record of an annotation type on a member. -/
def recordOn (annotationType : String) (factory : Factory) : Member → Task σ Cause AnnotationRecord
  | .method owner m => do
    let c ← source.classOf t owner
    let types ← source.parameterTypes t factory m.parameters
    let compiled ← Task.ofExcept (c.exactMethod m.name types)
    Task.ofExcept (c.recordOnMethod compiled annotationType)
  | .type reference => do
    let c ← source.classOf t reference
    Task.ofExcept (c.recordOnClass annotationType)

/-- Reports the values that are given to no element. -/
def reportUndeclared (className : String) : List String → Task σ Cause Unit
  | [] => pure ()
  | key :: keys => do
    report .warn (.undeclared key className)
    reportUndeclared className keys

/-- The last steps of a resolution, once the annotation type and the record are known. -/
def materialize (annotationType : CompiledClass) (record : AnnotationRecord) :
    Task σ Cause Completed := do
  reportUndeclared annotationType.name (Completed.undeclared annotationType record)
  pure (Completed.merge annotationType record)

/-- Completes the annotation of a use. The site is examined before anything is loaded. -/
def resolve (settings : Settings) (id : UseId) : Task σ Cause Completed :=
  match t.use? id with
  | none => throw (.dangling (.use id))
  | some use => do
    let member ← Task.ofExcept (t.member use.site)
    let factory ← Task.ofExcept (t.enclosingFactory id)
    let reference ← source.rebound settings use.annotationType factory
    let annotationType ← source.classOf t reference
    report .debug (.resolving reference.name use.site.kindName)
    let record ← source.recordOn t reference.name factory member
    materialize annotationType record

/-! ## Through the cache -/

/-- The completed annotation of a use, from the cache if it is there, with the cache and the world
afterwards. -/
def complete (settings : Settings) (cache : Cache Completed) (id : UseId) (w : World σ) :
    Except Cause Completed × Cache Completed × World σ :=
  match cache.get? t.id id with
  | some a => (.ok a, cache, { w with log := w.log ++ [⟨.trace, .known id⟩] })
  | none =>
    match source.resolve t settings id w with
    | .error cause w => (.error cause, cache, w)
    | .ok a w =>
      let (cache, kept) := cache.insert t.id id a
      (.ok kept, cache, w)

end Metadata

/-- A provider with its settings, and what has been completed through it. -/
structure Resolver where
  provider : Provider
  settings : Settings := {}
  cache : Cache Completed := {}
deriving Inhabited

namespace Resolver

variable {σ : Type} (r : Resolver) (host : Host σ) (t : Tree)

/-- The completed annotation of a use, with the resolver and the world afterwards. -/
def complete (id : UseId) (w : World σ) : Except Cause Completed × Resolver × World σ :=
  let (outcome, cache, w) := (r.provider.metadata host).complete t r.settings r.cache id w
  (outcome, { r with cache }, w)

end Resolver

end AnnotationLookup
