import AnnotationLookup.Proofs.Tree.Grown

/-!
# Trees without refused edits

In a tree none of whose edits was refused, the methods are listed by the types that they name, and the
annotations that declarations list are there. Parameters are left aside: they come in with a method and
may list anything.

* `Edit.usesAt?_apply`, `Tree.usesAt?_annotate`: what a declaration lists after an edit;
* `Tree.Linked`: the invariant; **`Edit.linked_apply`**: an edit that is not refused keeps it;
* **`Tree.Unrefused.linked`**: the trees without refused edits have it.
-/

namespace AnnotationLookup

/-- What methods and declarations are linked to is there, and the links of methods go both ways. -/
structure Tree.Linked (t : Tree) : Prop where
  methods : Lists t.methodsOf? t.methodOwner?
  uses : ∀ {site ids}, site.IsDeclaration → t.usesAt? site = some ids →
    ∀ id ∈ ids, ∃ u, t.use? id = some u
  types : t.types.Indexes TypeNode.name

namespace Edit

variable {t : Tree} {e : Edit} {i : Nat}

theorem lists_methods_apply (h : Lists t.methodsOf? t.methodOwner?) (hi : (e.apply t).2 = .ok i) :
    Lists (e.apply t).1.methodsOf? (e.apply t).1.methodOwner? := by
  cases e with
  | addType name kind origin factory => exact Tree.lists_methods_addType h name kind origin factory
  | addMethodNode owner name parameters =>
    obtain ⟨d, hd⟩ := hasSite_of_ok hi rfl
    exact Tree.lists_methods_addMethod h hd name parameters
  | addElement owner name defaultValue =>
    obtain ⟨d, hd⟩ := hasSite_of_ok hi rfl
    exact Tree.lists_methods_addElement h hd name defaultValue
  | addField owner name type =>
    obtain ⟨d, hd⟩ := hasSite_of_ok hi rfl
    exact Tree.lists_methods_addField h hd name type
  | annotate site annotationType values =>
    exact Tree.lists_methods_annotate h (hasSite_of_ok hi rfl) annotationType values

/-- **What a declaration lists is changed by its own annotations only**, except that a new one comes in
with an empty list. -/
theorem usesAt?_apply (hi : (e.apply t).2 = .ok i) {site : Site} (hdeclaration : site.IsDeclaration)
    (hother : ∀ annotationType values, e ≠ .annotate site annotationType values) :
    (e.apply t).1.usesAt? site = t.usesAt? site ∨
      t.usesAt? site = none ∧ (e.apply t).1.usesAt? site = some [] := by
  cases e with
  | addType name kind origin factory => exact Tree.usesAt?_addType name kind origin factory site
  | addMethodNode owner name parameters =>
    obtain ⟨d, hd⟩ := hasSite_of_ok hi rfl
    exact Tree.usesAt?_addMethod hd name site (.inl hdeclaration)
  | addElement owner name defaultValue =>
    obtain ⟨d, hd⟩ := hasSite_of_ok hi rfl
    exact Tree.usesAt?_addElement hd name defaultValue site
  | addField owner name type =>
    obtain ⟨d, hd⟩ := hasSite_of_ok hi rfl
    exact Tree.usesAt?_addField hd name type site
  | annotate site' annotationType values =>
    have hne : site ≠ site' := by
      rintro rfl
      exact hother annotationType values rfl
    have hlisted := Tree.usesAt?_annotate (hasSite_of_ok hi rfl) annotationType values site
    exact .inl (hlisted.trans (if_neg hne))

end Edit

namespace Tree

variable {t t' : Tree}

theorem use?_annotate {site : Site} (hsite : t.HasSite site) (annotationType : TypeReference)
    (values : Option (Entries Value)) (id : UseId) :
    (t.annotate site annotationType values).1.use? id =
      if id = ⟨t.uses.freeIndex⟩ then some ⟨annotationType, site, values⟩ else t.use? id := by
  obtain ⟨j⟩ := id
  have huses (t' : Tree) (use : UseId) : (t'.listUse use site).uses = t'.uses := by
    cases site <;> rfl
  rw [annotate_of_hasSite hsite, use?, huses, Arena.get?_insert]
  simp only [NodeId.mk.injEq]
  rfl

theorem linked_new (id : TreeId) : ({ id } : Tree).Linked where
  methods := (coherent_new id).methods
  uses {site ids} _ hids use huse := by
    obtain ⟨site', hsite'⟩ : ∃ site', ({ id } : Tree).siteOf? use = some site' :=
      ⟨_, (coherent_new id).uses.owned hids huse⟩
    obtain ⟨u, hu, -⟩ := Option.map_eq_some_iff.1 hsite'
    exact ⟨u, hu⟩
  types := NamedArena.indexes_empty

theorem Linked.of_mirrors (h : t.Linked) (hm : t.Mirrors t') : t'.Linked where
  methods := lists_methods_of_mirrors h.methods hm
  uses {site ids} hsite hids use huse := by
    rw [hm.usesAt?] at hids
    obtain ⟨u, hu⟩ := h.uses hsite hids use huse
    have hthere : (t'.use? use).map (fun _ => ()) = (t.use? use).map fun _ => () :=
      hm.map_use? use fun _ => rfl
    rw [hu, Option.map_some] at hthere
    obtain ⟨u', hu', -⟩ := Option.map_eq_some_iff.1 hthere
    exact ⟨u', hu'⟩
  types := by
    rw [hm.types]
    exact h.types

end Tree

/-- **An edit that is not refused keeps a tree linked.** -/
theorem Edit.linked_apply {t : Tree} (h : t.Linked) {e : Edit} {i : Nat}
    (hi : (e.apply t).2 = .ok i) : (e.apply t).1.Linked where
  methods := lists_methods_apply h.methods hi
  uses {site ids} hdeclaration hids use huse := by
    have hgrows := e.grows_apply t
    by_cases hown : ∃ annotationType values, e = .annotate site annotationType values
    · obtain ⟨annotationType, values, rfl⟩ := hown
      have hsite : t.HasSite site := hasSite_of_ok hi rfl
      rw [show ((Edit.annotate site annotationType values).apply t).1 =
        (t.annotate site annotationType values).1 from rfl, Tree.usesAt?_annotate hsite,
        if_pos rfl] at hids
      obtain ⟨before, hbefore, rfl⟩ := Option.map_eq_some_iff.1 hids
      rcases List.mem_append.1 huse with hold | hnew
      · obtain ⟨u, hu⟩ := h.uses hdeclaration hbefore use hold
        exact ⟨u, hgrows.use? hu⟩
      · rw [List.mem_singleton.1 hnew]
        exact ⟨_, (Tree.use?_annotate hsite annotationType values _).trans (if_pos rfl)⟩
    · rcases usesAt?_apply hi hdeclaration fun annotationType values he =>
        hown ⟨annotationType, values, he⟩ with hsame | ⟨-, hempty⟩
      · obtain ⟨u, hu⟩ := h.uses hdeclaration (hsame.symm.trans hids) use huse
        exact ⟨u, hgrows.use? hu⟩
      · rw [hempty] at hids
        cases hids
        cases huse
  types := indexes_apply h.types e

/-- **A tree without refused edits is linked.** -/
theorem Tree.Unrefused.linked {t : Tree} (h : t.Unrefused) : t.Linked :=
  h.keeps linked_new (fun h he => he.elim fun _ hi => Edit.linked_apply h hi) Linked.of_mirrors

end AnnotationLookup
