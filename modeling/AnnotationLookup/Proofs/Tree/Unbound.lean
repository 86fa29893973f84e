import AnnotationLookup.Provider
import AnnotationLookup.Proofs.Resolver.Target

/-!
# Trees up to the bindings of their references

A tree stores references to annotation types and to the types of parameters and fields, each bound
to some factory. What such a factory is matters to nothing that a resolution reads, apart from the
report that the annotation type had to be rebound.

* `Tree.unbound`: a tree without the factories of these references;
* **`Tree.target_unbound`**: the target of a use, up to the binding of its annotation type;
* `Provider.sourceClass?_unbound`: the descriptions of source declarations.
-/

namespace AnnotationLookup

/-! ## Nodes -/

/-- The reference, bound to a factory that is the same for all. -/
def TypeReference.unbound (r : TypeReference) : TypeReference := r.rebind default

/-- The parameter with its type unbound. -/
def ParameterNode.unbound (p : ParameterNode) : ParameterNode := { p with type := p.type.unbound }

/-- The method with the types of its parameters unbound. -/
def MethodNode.unbound (m : MethodNode) : MethodNode :=
  { m with parameters := m.parameters.map ParameterNode.unbound }

/-- The field with its type unbound. -/
def FieldNode.unbound (f : FieldNode) : FieldNode := { f with type := f.type.unbound }

/-- The use with its annotation type unbound. -/
def UseNode.unbound (u : UseNode) : UseNode := { u with annotationType := u.annotationType.unbound }

theorem MethodNode.parameterTypes_unbound (m : MethodNode) :
    m.unbound.parameters.map (·.type.typeName) = m.parameters.map (·.type.typeName) := by
  rw [unbound, List.map_map]
  rfl

namespace Arena

variable {α : Type}

/-- The arena with the values in its slots mapped. -/
def map (f : α → α) (a : Arena α) : Arena α := ⟨a.slots.map (·.map f)⟩

theorem get?_map (f : α → α) (a : Arena α) (i : Nat) : (a.map f).get? i = (a.get? i).map f := by
  rw [get?, get?, map, List.getElem?_map]
  cases a.slots[i]? with
  | none => rfl
  | some slot => rfl

end Arena

/-- The member with the types of its parameters unbound. -/
def Member.unbound : Member → Member
  | .method owner m => .method owner m.unbound
  | .type reference => .type reference

theorem Member.enclosing_unbound (m : Member) : m.unbound.enclosing = m.enclosing := by
  cases m <;> rfl

theorem Member.signature?_unbound (m : Member) : m.unbound.signature? = m.signature? := by
  cases m with
  | method owner node =>
    exact congrArg (fun types => some (node.name, types)) node.parameterTypes_unbound
  | type reference => rfl

/-! ## Trees -/

namespace Tree

/-- The tree without the factories that its references to annotation types and to the types of
parameters and fields are bound to. The declared types keep their factories. -/
def unbound (t : Tree) : Tree :=
  { t with
    methods := t.methods.map MethodNode.unbound
    fields := t.fields.map FieldNode.unbound
    uses := t.uses.map UseNode.unbound }

variable (t : Tree)

theorem use?_unbound (id : UseId) : t.unbound.use? id = (t.use? id).map UseNode.unbound :=
  Arena.get?_map _ _ _

theorem method?_unbound (id : MethodId) :
    t.unbound.method? id = (t.method? id).map MethodNode.unbound :=
  Arena.get?_map _ _ _

theorem field?_unbound (id : FieldId) : t.unbound.field? id = (t.field? id).map FieldNode.unbound :=
  Arena.get?_map _ _ _

theorem factoryOf?_unbound (site : Site) : t.unbound.factoryOf? site = t.factoryOf? site := by
  have henclosing : t.unbound.enclosingType? site = t.enclosingType? site := by
    cases site <;> simp only [enclosingType?, method?_unbound, field?_unbound, Option.map_map] <;>
      rfl
  rw [factoryOf?, henclosing]
  rfl

theorem enclosingFactory_unbound (id : UseId) :
    t.unbound.enclosingFactory id = t.enclosingFactory id := by
  have hfactory : (t.unbound.use? id).bind (fun use => t.unbound.factoryOf? use.site) =
      (t.use? id).bind fun use => t.factoryOf? use.site := by
    rw [use?_unbound, Option.bind_map]
    simp only [factoryOf?_unbound]
    rfl
  rw [enclosingFactory, hfactory]
  rfl

theorem member_unbound (site : Site) :
    t.unbound.member site = (t.member site).map Member.unbound := by
  have hreference (id : TypeId) : t.unbound.referenceTo? id = t.referenceTo? id := rfl
  cases site with
  | type id =>
    simp only [member, hreference]
    cases t.referenceTo? id <;> rfl
  | method id =>
    simp only [member, method?_unbound, hreference]
    cases t.method? id with
    | none => rfl
    | some m =>
      have howner : m.unbound.owner = m.owner := rfl
      simp only [Option.map_some, howner]
      cases t.referenceTo? m.owner <;> rfl
  | field id => rfl
  | parameter id position => rfl

/-- **The target of a use does not depend on the bindings**, apart from that of its annotation
type. -/
theorem target_unbound (id : UseId) :
    t.unbound.target id = (t.target id).map (·.boundTo default) := by
  unfold target
  rw [use?_unbound]
  cases t.use? id with
  | none => rfl
  | some use =>
    have hsite : use.unbound.site = use.site := rfl
    simp only [Option.map_some, hsite, member_unbound]
    cases t.member use.site with
    | error cause => rfl
    | ok m =>
      simp only [Except.map, m.enclosing_unbound, m.signature?_unbound]
      rfl

/-! ## Source declarations -/

theorem records_unbound (ids : List UseId) : t.unbound.records ids = t.records ids := by
  have hrecord (id : UseId) : t.unbound.record? id = t.record? id := by
    unfold record?
    rw [use?_unbound]
    cases t.use? id with
    | none => rfl
    | some use => rfl
  exact congrArg (List.filterMap · ids) (funext hrecord)

theorem describeMethod_unbound (m : MethodNode) :
    t.unbound.describeMethod m.unbound = t.describeMethod m := by
  simp only [describeMethod, records_unbound, m.parameterTypes_unbound]
  rfl

theorem describe_unbound (d : TypeNode) : t.unbound.describe d = t.describe d := by
  have hmethods : (d.methods.filterMap t.unbound.method?).map t.unbound.describeMethod =
      (d.methods.filterMap t.method?).map t.describeMethod := by
    simp only [List.map_filterMap, method?_unbound, Option.map_map]
    refine congrArg (List.filterMap · d.methods) (funext fun id => ?_)
    exact congrArg (Option.map · (t.method? id)) (funext t.describeMethod_unbound)
  simp only [describe, records_unbound, hmethods]

end Tree

theorem Provider.sourceClass?_unbound (t : Tree) (factory : Factory) (name : String) :
    sourceClass? t.unbound factory name = sourceClass? t factory name := by
  have htype : t.unbound.typeByName? name = t.typeByName? name := rfl
  rw [sourceClass?, htype, funext t.describe_unbound]
  rfl

/-! ## Trees that differ in bindings only -/

section Same

variable {t t' : Tree}

theorem Tree.id_of_unbound (h : t.unbound = t'.unbound) : t.id = t'.id :=
  show t.unbound.id = t'.unbound.id by rw [h]

theorem Tree.enclosingFactory_of_unbound (h : t.unbound = t'.unbound) (id : UseId) :
    t.enclosingFactory id = t'.enclosingFactory id := by
  rw [← t.enclosingFactory_unbound, h, t'.enclosingFactory_unbound]

theorem Provider.sourceClass?_of_unbound (h : t.unbound = t'.unbound) (factory : Factory)
    (name : String) : sourceClass? t factory name = sourceClass? t' factory name := by
  rw [← sourceClass?_unbound, h, sourceClass?_unbound]

/-- The targets of a use in two such trees differ in the binding of the annotation type only. -/
theorem Tree.target_of_unbound (h : t.unbound = t'.unbound) (id : UseId) :
    ∃ factory, t'.target id = (t.target id).map (·.boundTo factory) := by
  have htarget : (t.target id).map (·.boundTo default) = (t'.target id).map (·.boundTo default) := by
    rw [← t.target_unbound, h, t'.target_unbound]
  cases hg : t.target id with
  | error cause =>
    rw [hg] at htarget
    cases hg' : t'.target id with
    | error cause' =>
      rw [hg'] at htarget
      exact ⟨default, htarget.symm⟩
    | ok g' =>
      rw [hg'] at htarget
      cases htarget
  | ok g =>
    rw [hg] at htarget
    cases hg' : t'.target id with
    | error cause' =>
      rw [hg'] at htarget
      cases htarget
    | ok g' =>
      rw [hg'] at htarget
      have hbound : g.boundTo default = g'.boundTo default := Except.ok.inj htarget
      refine ⟨g'.annotationType.factory, congrArg Except.ok ?_⟩
      -- binding the annotation type back to its factory undoes the erasure
      change (g'.boundTo default).boundTo g'.annotationType.factory = _
      rw [← hbound]
      rfl

end Same

end AnnotationLookup
