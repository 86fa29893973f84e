import AnnotationLookup.Workspace

/-!
# Sessions

A workspace over loaders whose answers can be planned, with providers, with caches on their own, and
with the completed annotations that have been shown, each under a number.

* `Session`, `Session.step`;
* loaders: `Session.addLoader`, `Session.insertClass`, `Session.planFaults`, `Session.takeAsked`;
* providers: `Session.addProvider`, `Session.loadClass`;
* shown annotations: `Session.cached`, which numbers an annotation by the place it was stored at,
  so that two numbers are equal exactly if the annotations are one object.
-/

namespace AnnotationLookup

/-- Where a completed annotation was stored first: a resolver, a tree and a use. -/
structure Place where
  resolver : Nat
  tree : TreeId
  use : UseId
deriving DecidableEq

/-- A workspace over loaders whose answers can be planned, with what has been made or shown
besides. -/
structure Session extends Workspace (List Loader) where
  providers : List Provider := []
  /-- Caches on their own, of numbers of shown annotations. -/
  caches : List (Cache Nat) := []
  shown : List (Place × Completed) := []

namespace Session

variable (s : Session)

/-- The session in which nothing has been made yet. -/
def empty : Session where
  world := { host := [] }

/-- A command to the workspace of the session. -/
def step (c : Command) : Answer × Session :=
  let (answer, ws) := s.toWorkspace.step Loader.host c
  (answer, { s with toWorkspace := ws })

/-- The events reported so far, which are forgotten. -/
def takeLog : List LogEntry × Session :=
  (s.world.log, { s with world := { s.world with log := [] } })

/-! ## Loaders -/

/-- The loaders of the host. -/
def loaders : List Loader := s.world.host

/-- The session with other loaders. -/
def withLoaders (loaders : List Loader) : Session :=
  { s with world := { s.world with host := loaders } }

/-- Adds a loader of classes, and gives its number. -/
def addLoader (classes : Universe) : Nat × Session :=
  (s.loaders.length, s.withLoaders (s.loaders ++ [{ classes := classes }]))

/-- The number of classes of a loader after one more. -/
def insertClass (loader : Nat) (c : CompiledClass) : Option (Nat × Session) :=
  s.loaders[loader]?.map fun l =>
    let classes := l.classes.insert c
    (classes.size, s.withLoaders (s.loaders.set loader { l with classes }))

/-- Plans more answers of a loader, after those that are planned. -/
def planFaults (loader : Nat) (faults : List (Option Fault)) : Option Session :=
  s.loaders[loader]?.map fun l =>
    s.withLoaders (s.loaders.set loader { l with plan := l.plan ++ faults })

/-- The names that a loader was asked for since the last time. -/
def takeAsked (loader : Nat) : Option (List String × Session) :=
  s.loaders[loader]?.map fun l =>
    (l.asked, s.withLoaders (s.loaders.set loader { l with asked := [] }))

/-! ## Providers -/

/-- Adds a provider, and gives its number. -/
def addProvider (p : Provider) : Nat × Session :=
  (s.providers.length, { s with providers := s.providers ++ [p] })

/-- Asks a provider for a class, without a resolver. -/
def loadClass (p : Provider) (t : Tree) (r : TypeReference) :
    Except LoadError (Option CompiledClass) × Session :=
  match p.load Loader.host t r s.world with
  | .ok answer world => (.ok answer, { s with world })
  | .error e world => (.error e, { s with world })

/-! ## Shown annotations -/

/-- The number of the annotation stored at a place. -/
def numberOf (place : Place) (a : Completed) : Nat × Session :=
  match s.shown.findIdx? (·.1 == place) with
  | some n => (n, s)
  | none => (s.shown.length, { s with shown := s.shown ++ [(place, a)] })

/-- The number of the annotation that a resolver has in its cache for a use, if it has one. -/
def cached (resolver tree : Nat) (use : UseId) : Option (Option Nat × Session) := do
  let r ← s.resolvers[resolver]?
  let t ← s.trees[tree]?
  match r.cache.get? t.id use with
  | none => some (none, s)
  | some a =>
    let (n, s) := s.numberOf ⟨resolver, t.id, use⟩ a
    some (some n, s)

/-! ## Caches on their own -/

/-- Adds a cache of its own, and gives its number. -/
def addCache : Nat × Session := (s.caches.length, { s with caches := s.caches ++ [{}] })

/-- What a cache holds for a use after the number of a shown annotation was offered to it. -/
def cacheInsert (cache tree : Nat) (use : UseId) (number : Nat) : Option (Nat × Session) := do
  let c ← s.caches[cache]?
  let t ← s.trees[tree]?
  let (c, kept) := c.insert t.id use number
  some (kept, { s with caches := s.caches.set cache c })

end Session

end AnnotationLookup
