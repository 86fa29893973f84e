import AnnotationLookup.Proofs.Arena.Names
import AnnotationLookup.Proofs.Tree.Coherence
import AnnotationLookup.Provider

/-!
# Names of declared types

Whatever edits a tree has come from, refused ones and such as add annotated parameters included, its
index leads from the name of each type to the type and from no other name anywhere.

* **`Edit.indexes_apply`**, `Tree.indexes_foldl_apply`: the index of names after edits;
* `Tree.typeByName?_eq_some_iff`, `Provider.sourceClass?_eq_some_iff`: what is found under a name.
-/

namespace AnnotationLookup

/-! ## The index after edits -/

/-- **Every edit keeps the index of names**, also one that is refused. -/
theorem Edit.indexes_apply {t : Tree} (h : t.types.Indexes TypeNode.name) (e : Edit) :
    (e.apply t).1.types.Indexes TypeNode.name := by
  have hmethod (owner : TypeId) (name : String) (parameters : List ParameterNode) :
      (t.addMethod owner name parameters).1.types.Indexes TypeNode.name := by
    cases ht : t.type? owner with
    | none =>
      rw [Tree.addMethod_of_vacant ht]
      exact h
    | some d =>
      rw [Tree.addMethod_of_type? ht]
      exact h.modify _ fun _ => rfl
  cases e with
  | addType name kind origin factory =>
    let d : TypeNode := { name := name, kind := kind, origin := origin, factory := factory }
    exact h.insert d
  | addMethodNode owner name parameters => exact hmethod owner name parameters
  | addElement owner name defaultValue =>
    have helement : (t.addElement owner name defaultValue).1.types =
        (t.addMethod owner name []).1.types := by
      cases ht : t.type? owner with
      | none => rw [Tree.addElement_of_vacant ht]
      | some d => rw [Tree.addElement_of_type? ht]
    change (t.addElement owner name defaultValue).1.types.Indexes TypeNode.name
    rw [helement]
    exact hmethod owner name []
  | addField owner name type =>
    change (t.addField owner name type).1.types.Indexes TypeNode.name
    cases ht : t.type? owner with
    | none =>
      rw [Tree.addField_of_vacant ht]
      exact h
    | some d =>
      rw [Tree.addField_of_type? ht]
      exact h.modify _ fun _ => rfl
  | annotate site annotationType values =>
    change (t.annotate site annotationType values).1.types.Indexes TypeNode.name
    by_cases hsite : t.HasSite site
    · rw [Tree.annotate_of_hasSite hsite]
      cases site with
      | type id => exact h.modify _ fun _ => rfl
      | _ => exact h
    · obtain ⟨refusal, hrefused⟩ := Tree.annotate_of_not_hasSite hsite annotationType values
      rw [hrefused]
      exact h

namespace Tree

theorem indexes_foldl_apply {t : Tree} (h : t.types.Indexes TypeNode.name) (edits : List Edit) :
    (edits.foldl (fun t e => (e.apply t).1) t).types.Indexes TypeNode.name := by
  induction edits generalizing t with
  | nil => exact h
  | cons e edits ih => exact ih (e.indexes_apply h)

/-! ## Types by name -/

variable {t : Tree}

theorem typeByName?_eq_some_iff (h : t.types.Indexes TypeNode.name) {name : String} {d : TypeNode} :
    t.typeByName? name = some d ↔ ∃ id, t.type? id = some d ∧ d.name = name := by
  simp only [typeByName?, NamedArena.getByName?, Option.bind_eq_some_iff, h.idOf?_iff]
  constructor
  · rintro ⟨i, ⟨e, he, hname⟩, hd⟩
    obtain rfl : e = d := Option.some.inj (he.symm.trans hd)
    exact ⟨⟨i⟩, hd, hname⟩
  · rintro ⟨id, hd, hname⟩
    exact ⟨id.index, ⟨d, hd, hname⟩, hd⟩

theorem eq_of_name_eq (h : t.types.Indexes TypeNode.name) {id id' : TypeId} {d d' : TypeNode}
    (hd : t.type? id = some d) (hd' : t.type? id' = some d') (hname : d.name = d'.name) :
    d = d' := by
  have hfound := (typeByName?_eq_some_iff h).2 ⟨id, hd, hname⟩
  exact Option.some.inj (hfound.symm.trans ((typeByName?_eq_some_iff h).2 ⟨id', hd', rfl⟩))

end Tree

theorem Provider.sourceClass?_eq_some_iff {t : Tree} (h : t.types.Indexes TypeNode.name)
    {factory : Factory} {name : String} {c : CompiledClass} :
    sourceClass? t factory name = some c ↔ ∃ id d, t.type? id = some d ∧ d.name = name ∧
      d.origin = .source ∧ d.factory = factory ∧ c = t.describe d := by
  simp only [sourceClass?, Option.map_eq_some_iff, Option.filter_eq_some_iff,
    Tree.typeByName?_eq_some_iff h, Bool.and_eq_true, beq_iff_eq]
  constructor
  · rintro ⟨d, ⟨⟨id, hd, hname⟩, horigin, hfactory⟩, rfl⟩
    exact ⟨id, d, hd, hname, horigin, hfactory, rfl⟩
  · rintro ⟨id, d, hd, hname, horigin, hfactory, rfl⟩
    exact ⟨d, ⟨⟨id, hd, hname⟩, horigin, hfactory⟩, rfl⟩

end AnnotationLookup
