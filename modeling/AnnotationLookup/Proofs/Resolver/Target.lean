import AnnotationLookup.Proofs.Task
import AnnotationLookup.Proofs.Tree.Growth

/-!
# What a resolution reads from a tree

A resolution reads its tree once, before anything is loaded, and comes away with a target. What
follows is a function of the target and of the classes that are loaded, each of which is asked for
under the factory of the enclosing type.

* `Target`, `Tree.target`: what is read;
* `Metadata.resolveTarget`, **`Metadata.resolve_eq`**: a resolution in these two parts;
* `Tree.Grows.target`: what was read once is read again from the tree as it grows;
* `Metadata.resolveTarget_congr`, `Metadata.resolve_alike`, **`Metadata.resolveTarget_alike`**:
  resolutions of one target go alike if the loads of the enclosing factory do, whatever factory the
  annotation type was bound to.
-/

namespace AnnotationLookup

/-! ## Targets -/

/-- What the resolution of a use reads from its tree. -/
structure Target where
  annotationType : TypeReference
  siteKind : String
  /-- The type that the site belongs to, bound to its factory. -/
  enclosing : TypeReference
  /-- The name and the parameter types of the annotated method, if it is one. -/
  method? : Option (String × List TypeName)
deriving DecidableEq

/-- The target with its annotation type bound to another factory. -/
def Target.boundTo (g : Target) (factory : Factory) : Target :=
  { g with annotationType := g.annotationType.rebind factory }

namespace Member

/-- The type that the member belongs to. -/
def enclosing : Member → TypeReference
  | .method owner _ => owner
  | .type reference => reference

/-- The name and the parameter types of a method. -/
def signature? : Member → Option (String × List TypeName)
  | .method _ m => some (m.name, m.parameters.map (·.type.typeName))
  | .type _ => none

end Member

namespace Tree

/-- What a resolution of the use reads, or the cause for which it fails at once. -/
def target (t : Tree) (id : UseId) : Except Cause Target :=
  match t.use? id with
  | none => .error (.dangling (.use id))
  | some use => (t.member use.site).map fun m =>
    ⟨use.annotationType, use.site.kindName, m.enclosing, m.signature?⟩

variable {t t' : Tree} {id : UseId}

theorem target_eq_ok_iff {g : Target} : t.target id = .ok g ↔
    ∃ use m, t.use? id = some use ∧ t.member use.site = .ok m ∧
      g = ⟨use.annotationType, use.site.kindName, m.enclosing, m.signature?⟩ := by
  unfold target
  cases hu : t.use? id with
  | none => simp
  | some use => cases hm : t.member use.site <;> simp [Except.map, hm, eq_comm]

/-- A member is found in the type that its site belongs to. -/
theorem factoryOf?_of_member {site : Site} {m : Member} (h : t.member site = .ok m) :
    t.factoryOf? site = some m.enclosing.factory := by
  have ofType {i : TypeId} {r : TypeReference} (hr : t.referenceTo? i = some r) :
      (t.type? i).map (·.factory) = some r.factory := by
    obtain ⟨d, hd, rfl⟩ := Option.map_eq_some_iff.1 hr
    rw [hd, Option.map_some]
  cases site with
  | type i =>
    simp only [member] at h
    cases hr : t.referenceTo? i with
    | none => rw [hr] at h; cases h
    | some r => rw [hr] at h; cases h; exact ofType hr
  | method i =>
    simp only [member] at h
    cases hn : t.method? i with
    | none => rw [hn] at h; cases h
    | some n =>
      rw [hn] at h
      cases hr : t.referenceTo? n.owner with
      | none => simp only [hr] at h; cases h
      | some r =>
        simp only [hr] at h
        cases h
        rw [factoryOf?, enclosingType?, hn, Option.map_some, Option.bind_some]
        exact ofType hr
  | field i => cases h
  | parameter i position => cases h

theorem enclosingFactory_of_member {use : UseNode} {m : Member} (hu : t.use? id = some use)
    (hm : t.member use.site = .ok m) : t.enclosingFactory id = .ok m.enclosing.factory := by
  rw [enclosingFactory, hu, Option.bind_some, factoryOf?_of_member hm]

theorem enclosingFactory_of_target {g : Target} (h : t.target id = .ok g) :
    t.enclosingFactory id = .ok g.enclosing.factory := by
  obtain ⟨use, m, hu, hm, rfl⟩ := target_eq_ok_iff.1 h
  exact enclosingFactory_of_member hu hm

/-! ## Growth -/

theorem Grows.member (h : t.Grows t') {site : Site} {m : Member} (hm : t.member site = .ok m) :
    ∃ m', t'.member site = .ok m' ∧ m'.enclosing = m.enclosing ∧ m'.signature? = m.signature? := by
  cases site with
  | type i =>
    simp only [Tree.member] at hm
    cases hr : t.referenceTo? i with
    | none => rw [hr] at hm; cases hm
    | some r =>
      rw [hr] at hm
      cases hm
      refine ⟨_, ?_, rfl, rfl⟩
      simp only [Tree.member, h.referenceTo? hr]
  | method i =>
    simp only [Tree.member] at hm
    cases hn : t.method? i with
    | none => rw [hn] at hm; cases hm
    | some n =>
      rw [hn] at hm
      cases hr : t.referenceTo? n.owner with
      | none => simp only [hr] at hm; cases hm
      | some r =>
        simp only [hr] at hm
        cases hm
        obtain ⟨n', hn', hb⟩ := h.method? hn
        obtain ⟨hname, howner, hparameters, -⟩ := MethodNode.eq_of_bare hb
        refine ⟨.method r n', ?_, rfl, ?_⟩
        · simp only [Tree.member, hn', howner, h.referenceTo? hr]
        · have htypes := congrArg (List.map fun p : ParameterNode => p.type.typeName) hparameters
          simp only [List.map_map] at htypes
          exact congrArg some (Prod.ext hname htypes)
  | field i => cases hm
  | parameter i position => cases hm

/-- **What was read once is read again.** -/
theorem Grows.target (h : t.Grows t') {g : Target} (hg : t.target id = .ok g) :
    t'.target id = .ok g := by
  obtain ⟨use, m, hu, hm, rfl⟩ := target_eq_ok_iff.1 hg
  obtain ⟨m', hm', henclosing, hsignature⟩ := h.member hm
  exact target_eq_ok_iff.2 ⟨use, m', h.use? hu, hm', by rw [henclosing, hsignature]⟩

end Tree

/-! ## Resolutions in two parts -/

/-- Another factory than that of the annotated declaration was in the reference. -/
def Event.isRebinding : Event → Bool
  | .rebinding _ _ => true
  | _ => false

namespace Metadata

variable {σ σ' : Type} (source : Metadata σ) (t : Tree)

/-- The compiled type of a parameter of the given type. -/
def compiledType (factory : Factory) (type : TypeName) : Task σ Cause TypeName :=
  let (element, dimensions) := type.splitArray
  if element.isPrimitive then pure (element.arrayOf dimensions)
  else do
    let c ← source.classOf t ⟨element.text, factory⟩
    pure (c.typeName.arrayOf dimensions)

/-- The compiled types of parameters, from their names. -/
def compiledTypes (factory : Factory) : List TypeName → Task σ Cause (List TypeName)
  | [] => pure []
  | type :: types => do
    let compiled ← source.compiledType t factory type
    let rest ← compiledTypes factory types
    pure (compiled :: rest)

/-- The record of an annotation type on the compiled class, or on the one method of it that has the
signature of the target. -/
def recordOf (annotationType : String) (g : Target) : Task σ Cause AnnotationRecord := do
  let c ← source.classOf t g.enclosing
  match g.method? with
  | none => Task.ofExcept (c.recordOnClass annotationType)
  | some (name, types) => do
    let compiled ← source.compiledTypes t g.enclosing.factory types
    let m ← Task.ofExcept (c.exactMethod name compiled)
    Task.ofExcept (c.recordOnMethod m annotationType)

/-- Whether the enclosing factory is served at all; an annotation type that was bound to another one
is reported. -/
def permit (settings : Settings) (annotationType : TypeReference) (factory : Factory) :
    Task σ Cause Unit :=
  if source.serves factory then
    if annotationType.factory = factory then pure ()
    else report settings.rebindingLevel (.rebinding annotationType factory)
  else throw (.unservedFactory factory)

/-- What is done once the target is known. -/
def resolveTarget (settings : Settings) (g : Target) : Task σ Cause Completed := do
  source.permit settings g.annotationType g.enclosing.factory
  let annotationType ← source.classOf t (g.annotationType.rebind g.enclosing.factory)
  report .debug (.resolving g.annotationType.name g.siteKind)
  let record ← source.recordOf t g.annotationType.name g
  materialize annotationType record

theorem rebound_eq (settings : Settings) (annotationType : TypeReference) (factory : Factory) :
    source.rebound settings annotationType factory =
      source.permit settings annotationType factory >>= fun _ =>
        pure (annotationType.rebind factory) := by
  unfold rebound permit
  split
  · split
    · next h => subst h; rfl
    · rfl
  · rfl

theorem parameterTypes_eq (factory : Factory) (parameters : List ParameterNode) :
    source.parameterTypes t factory parameters =
      source.compiledTypes t factory (parameters.map (·.type.typeName)) := by
  induction parameters with
  | nil => rfl
  | cons p ps ih => simp only [parameterTypes, List.map_cons, compiledTypes, ih]; rfl

theorem recordOn_eq (annotationType : String) (m : Member) (r : TypeReference) (siteKind : String) :
    source.recordOn t annotationType m.enclosing.factory m =
      source.recordOf t annotationType ⟨r, siteKind, m.enclosing, m.signature?⟩ := by
  cases m with
  | method owner node => simp only [recordOn, parameterTypes_eq]; rfl
  | type reference => rfl

/-- **A resolution reads its tree, and then goes by what it has read.** -/
theorem resolve_eq (settings : Settings) (id : UseId) :
    source.resolve t settings id =
      Task.ofExcept (t.target id) >>= source.resolveTarget t settings := by
  unfold resolve Tree.target
  cases hu : t.use? id with
  | none => rfl
  | some use =>
    cases hm : t.member use.site with
    | error cause => simp only [hm]; rfl
    | ok m =>
      simp only [hm, Tree.enclosingFactory_of_member hu hm]
      change (do
        let reference ← source.rebound settings use.annotationType m.enclosing.factory
        let annotationType ← source.classOf t reference
        report .debug (.resolving reference.name use.site.kindName)
        let record ← source.recordOn t reference.name m.enclosing.factory m
        materialize annotationType record) = _
      simp only [rebound_eq, source.recordOn_eq t _ m use.annotationType use.site.kindName,
        bind_assoc, pure_bind]
      rfl

theorem resolve_of_target {settings : Settings} {id : UseId} {g : Target}
    (h : t.target id = .ok g) :
    source.resolve t settings id = source.resolveTarget t settings g := by
  rw [resolve_eq, h]; rfl

theorem resolve_of_target_error {settings : Settings} {id : UseId} {cause : Cause}
    (h : t.target id = .error cause) : source.resolve t settings id = throw cause := by
  rw [resolve_eq, h]; rfl

theorem exists_target_of_resolve {settings : Settings} {id : UseId} {w w' : World σ} {a : Completed}
    (h : source.resolve t settings id w = .ok a w') : ∃ g, t.target id = .ok g := by
  cases hg : t.target id with
  | ok g => exact ⟨g, rfl⟩
  | error cause => rw [source.resolve_of_target_error t hg] at h; cases h

/-! ## Resolutions that go alike -/

section Congruence

variable {source t} {source' : Metadata σ'} {t' : Tree}
  {C : ∀ {α : Type}, Task σ Cause α → Task σ' Cause α → Prop}

theorem compiledType_congr (hC : Task.Congruence @C) {factory : Factory}
    (classOf : ∀ name, C (source.classOf t ⟨name, factory⟩) (source'.classOf t' ⟨name, factory⟩))
    (type : TypeName) :
    C (source.compiledType t factory type) (source'.compiledType t' factory type) := by
  unfold compiledType
  split
  next element dimensions _ =>
    split
    · exact hC.pure _
    · exact hC.bind (classOf _) fun c => hC.pure _

theorem compiledTypes_congr (hC : Task.Congruence @C) {factory : Factory}
    (classOf : ∀ name, C (source.classOf t ⟨name, factory⟩) (source'.classOf t' ⟨name, factory⟩))
    (types : List TypeName) :
    C (source.compiledTypes t factory types) (source'.compiledTypes t' factory types) := by
  induction types with
  | nil => exact hC.pure []
  | cons type types ih =>
    exact hC.bind (compiledType_congr hC classOf type) fun _ => hC.bind ih fun _ => hC.pure _

theorem recordOf_congr (hC : Task.Congruence @C) {g g' : Target}
    (henclosing : g'.enclosing = g.enclosing) (hmethod : g'.method? = g.method?)
    (classOf : ∀ name, C (source.classOf t ⟨name, g.enclosing.factory⟩)
      (source'.classOf t' ⟨name, g.enclosing.factory⟩)) (annotationType : String) :
    C (source.recordOf t annotationType g) (source'.recordOf t' annotationType g') := by
  unfold recordOf
  rw [henclosing, hmethod]
  refine hC.bind (classOf _) fun c => ?_
  cases g.method? with
  | none => exact hC.ofExcept _
  | some method =>
    exact hC.bind (compiledTypes_congr hC classOf _) fun _ => hC.bind (hC.ofExcept _) fun _ =>
      hC.ofExcept _

theorem reportUndeclared_congr (hC : Task.Congruence @C)
    (say : ∀ level event, event.isRebinding = false → C (report level event) (report level event))
    (className : String) (keys : List String) :
    C (reportUndeclared className keys) (reportUndeclared className keys) := by
  induction keys with
  | nil => exact hC.pure ()
  | cons key keys ih => exact hC.bind (say _ _ rfl) fun _ => ih

theorem materialize_congr (hC : Task.Congruence @C)
    (say : ∀ level event, event.isRebinding = false → C (report level event) (report level event))
    (annotationType : CompiledClass) (record : AnnotationRecord) :
    C (materialize annotationType record) (materialize annotationType record) :=
  hC.bind (reportUndeclared_congr hC say _ _) fun _ => hC.pure _

theorem permit_congr (hC : Task.Congruence @C) {a a' : TypeReference} {factory : Factory}
    {settings settings' : Settings} (serves : source.serves factory = source'.serves factory)
    (say : C (if a.factory = factory then pure ()
        else report settings.rebindingLevel (.rebinding a factory))
      (if a'.factory = factory then pure ()
        else report settings'.rebindingLevel (.rebinding a' factory))) :
    C (source.permit settings a factory) (source'.permit settings' a' factory) := by
  unfold permit
  rw [serves]
  split
  · exact say
  · exact hC.throw _

/-- Resolutions of targets that differ in the binding of the annotation type only. -/
theorem resolveTarget_congr (hC : Task.Congruence @C) {settings settings' : Settings}
    {g g' : Target} (hname : g'.annotationType.name = g.annotationType.name)
    (hkind : g'.siteKind = g.siteKind) (henclosing : g'.enclosing = g.enclosing)
    (hmethod : g'.method? = g.method?)
    (say : ∀ level event, event.isRebinding = false → C (report level event) (report level event))
    (permit : C (source.permit settings g.annotationType g.enclosing.factory)
      (source'.permit settings' g'.annotationType g.enclosing.factory))
    (classOf : ∀ name, C (source.classOf t ⟨name, g.enclosing.factory⟩)
      (source'.classOf t' ⟨name, g.enclosing.factory⟩)) :
    C (source.resolveTarget t settings g) (source'.resolveTarget t' settings' g') := by
  unfold resolveTarget TypeReference.rebind
  rw [hname, hkind, henclosing]
  refine hC.bind permit fun _ => hC.bind (classOf _) fun c => hC.bind (say _ _ rfl) fun _ => ?_
  exact hC.bind (recordOf_congr hC henclosing hmethod classOf _) fun record =>
    materialize_congr hC say _ _

end Congruence

section Alike

variable {source t} {source' : Metadata σ'} {t' : Tree} {R : World σ → World σ' → Prop}

theorem classOf_alike {r : TypeReference}
    (load : Task.Alike R (source.load t r) (source'.load t' r)) :
    Task.Alike R (source.classOf t r) (source'.classOf t' r) := by
  refine (load.adaptExcept _).bind fun c => ?_
  cases c with
  | none => exact .throw _
  | some c => exact .pure c

theorem classOf_unless {B : LoadError → World σ → Prop} {B' : Cause → World σ → Prop}
    {r : TypeReference} (load : Task.AlikeUnless B R (source.load t r) (source'.load t' r))
    (hB : ∀ e w, B e w → B' (Cause.ofLoadError e) w) :
    Task.AlikeUnless B' R (source.classOf t r) (source'.classOf t' r) := by
  refine (load.adaptExcept _ hB).bind fun c => ?_
  cases c with
  | none => exact .of_alike (.throw _)
  | some c => exact .of_alike (.pure c)

theorem permit_alike_of_report (serves : source.serves = source'.serves)
    (say : ∀ level event, Task.Alike R (report level event : Task σ Cause Unit)
      (report level event)) (settings : Settings) (a : TypeReference) (factory : Factory) :
    Task.Alike R (source.permit settings a factory) (source'.permit settings a factory) := by
  refine permit_congr Task.Alike.congruence (congrFun serves factory) ?_
  split
  · exact .pure ()
  · exact say _ _

theorem resolveTarget_alike_of_permit {settings settings' : Settings} {g g' : Target}
    (hname : g'.annotationType.name = g.annotationType.name) (hkind : g'.siteKind = g.siteKind)
    (henclosing : g'.enclosing = g.enclosing) (hmethod : g'.method? = g.method?)
    (say : ∀ level event, event.isRebinding = false →
      Task.Alike R (report level event : Task σ Cause Unit) (report level event))
    (permit : Task.Alike R (source.permit settings g.annotationType g.enclosing.factory)
      (source'.permit settings' g'.annotationType g.enclosing.factory))
    (load : ∀ name, Task.Alike R (source.load t ⟨name, g.enclosing.factory⟩)
      (source'.load t' ⟨name, g.enclosing.factory⟩)) :
    Task.Alike R (source.resolveTarget t settings g) (source'.resolveTarget t' settings' g') :=
  resolveTarget_congr Task.Alike.congruence hname hkind henclosing hmethod say permit fun name =>
    classOf_alike (load name)

/-- Resolutions go alike where their trees have targets, or lack them for the same cause, and what is
done for these targets goes alike. -/
theorem resolve_alike {settings settings' : Settings} {use : UseId}
    (failed : ∀ cause, t.target use = .error cause → t'.target use = .error cause)
    (found : ∀ g, t.target use = .ok g → ∃ g', t'.target use = .ok g' ∧
      Task.Alike R (source.resolveTarget t settings g) (source'.resolveTarget t' settings' g')) :
    Task.Alike R (source.resolve t settings use) (source'.resolve t' settings' use) := by
  cases hg : t.target use with
  | error cause =>
    rw [source.resolve_of_target_error t hg, source'.resolve_of_target_error t' (failed cause hg)]
    exact .throw cause
  | ok g =>
    obtain ⟨g', hg', halike⟩ := found g hg
    rw [source.resolve_of_target t hg, source'.resolve_of_target t' hg']
    exact halike

variable {H : σ → σ' → Prop}

theorem permit_alike {settings settings' : Settings} {a a' : TypeReference} {factory : Factory}
    (serves : source.serves factory = source'.serves factory) :
    Task.Alike (World.Hosts H) (source.permit settings a factory)
      (source'.permit settings' a' factory) := by
  refine permit_congr Task.Alike.congruence serves ?_
  split <;> split
  · exact .pure ()
  · exact fun _ _ h => .ok () h
  · exact fun _ _ h => .ok () h
  · exact .report _ _ _ _

/-- **Resolutions of one target go alike** in worlds whose hosts are related, if the loads of the
enclosing factory do. -/
theorem resolveTarget_alike {settings settings' : Settings} {g : Target} (factory : Factory)
    (serves : source.serves g.enclosing.factory = source'.serves g.enclosing.factory)
    (load : ∀ name, Task.Alike (World.Hosts H) (source.load t ⟨name, g.enclosing.factory⟩)
      (source'.load t' ⟨name, g.enclosing.factory⟩)) :
    Task.Alike (World.Hosts H) (source.resolveTarget t settings g)
      (source'.resolveTarget t' settings' (g.boundTo factory)) :=
  resolveTarget_alike_of_permit rfl rfl rfl rfl (fun _ _ _ => .report _ _ _ _) (permit_alike serves)
    load

end Alike

end Metadata

end AnnotationLookup
