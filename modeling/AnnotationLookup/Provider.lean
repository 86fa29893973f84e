import AnnotationLookup.Event
import AnnotationLookup.Loader
import AnnotationLookup.Tree.Description

/-!
# Providers of metadata

A provider answers references to types with compiled classes.

* `Metadata`: whether references to a factory can be answered at all, and the class that a reference
  names in its factory;
* `Provider`: class paths by factory, the source declarations of a factory, or layers of providers;
* `Provider.serves`, `Provider.load`, `Provider.metadata`: what a provider answers over a host.

Of several layers, those that serve the factory are asked in order, and the first that knows the
class, or fails, decides.
-/

namespace AnnotationLookup

/-- What answers references to types. -/
structure Metadata (σ : Type) where
  serves : Factory → Bool
  /-- The class that a reference names, or nothing if it was looked for and is not there. -/
  load : Tree → TypeReference → Task σ LoadError (Option CompiledClass)

/-- Where classes come from. Layers are asked in order. -/
inductive Provider
  /-- The loader of each factory's class path. -/
  | classPath (bindings : List (Factory × LoaderId))
  /-- The types that a tree declares under one factory and that were read from source. -/
  | source (factory : Factory)
  | layered (layers : List Provider)

instance : Inhabited Provider := ⟨.layered []⟩

namespace Provider

/-- Binds a factory to a loader, in place of the loader that it was bound to. -/
def bind (bindings : List (Factory × LoaderId)) (factory : Factory) (loader : LoaderId) :
    List (Factory × LoaderId) :=
  (factory, loader) :: bindings.filter (·.1 != factory)

/-- The class paths of a list of bindings, of which later ones replace earlier ones. -/
def ofBindings (bindings : List (Factory × LoaderId)) : Provider :=
  .classPath (bindings.foldl (fun bs (factory, loader) => bind bs factory loader) [])

mutual

/-- The provider has a class path, or source declarations, for the factory. -/
def serves (p : Provider) (factory : Factory) : Bool :=
  match p with
  | .classPath bindings => (bindings.lookup factory).isSome
  | .source own => factory == own
  | .layered layers => anyServes layers factory
termination_by structural p

/-- One of the layers serves the factory. -/
def anyServes (layers : List Provider) (factory : Factory) : Bool :=
  match layers with
  | [] => false
  | p :: layers => p.serves factory || anyServes layers factory
termination_by structural layers

end

/-- The description of the type that a reference names, if it was read from source under the
factory. -/
def sourceClass? (t : Tree) (factory : Factory) (name : String) : Option CompiledClass :=
  ((t.typeByName? name).filter fun d => d.origin == .source && d.factory == factory).map t.describe

section Load

variable {σ : Type} (host : Host σ) (t : Tree)

/-- Asks a loader. -/
def ask (loader : LoaderId) (name : String) : Task σ LoadError (Option CompiledClass) := fun w =>
  match host.load loader name w.host with
  | (.ok answer, s) => .ok answer { w with host := s }
  | (.error e, s) => .error e { w with host := s }

mutual

/-- The class that a reference names, or nothing if it is not there. -/
def load (p : Provider) (r : TypeReference) : Task σ LoadError (Option CompiledClass) :=
  match p with
  | .classPath bindings =>
    match bindings.lookup r.factory with
    | none => throw (.unbound r.factory)
    | some loader => do
      report .trace (.loading r)
      ask host loader r.name
  | .source own =>
    if r.factory = own then pure (sourceClass? t own r.name) else throw (.unbound r.factory)
  | .layered layers => loadLayers layers false r
termination_by structural p

/-- The answer of the first layer that has one, where `asked` says whether a layer before these
serves the factory. -/
def loadLayers (layers : List Provider) (asked : Bool) (r : TypeReference) :
    Task σ LoadError (Option CompiledClass) :=
  match layers with
  | [] => if asked then pure none else throw (.unbound r.factory)
  | p :: layers =>
    if p.serves r.factory then do
      match ← p.load r with
      | some c => pure (some c)
      | none => loadLayers layers true r
    else loadLayers layers asked r
termination_by structural layers

end

end Load

/-- The provider as a source of classes, over the loaders of a host. -/
def metadata {σ : Type} (p : Provider) (host : Host σ) : Metadata σ where
  serves := p.serves
  load t := p.load host t

end Provider

end AnnotationLookup
