import AnnotationLookup.Proofs.Tree.Linked

/-!
# Trees in which nothing dangles

In a tree none of whose edits was refused, what a node names is there: the owner of a method or of a
field, and the site of an annotation.

* `Tree.Anchored`: the invariant;
* `Tree.Grows.hasSite`, `Tree.Mirrors.hasSite`: what keeps a site;
* `Tree.Anchored.exists_factoryOf?`: each site has a factory;
* `Edit.methodOwner?_apply`, `Edit.fieldOwner?_apply`, `Edit.siteOf?_apply`: a new node names what its
  edit needs;
* **`Edit.anchored_apply`**, **`Tree.Unrefused.anchored`**: edits that are not refused keep it;
* `Tree.Issued`: the ids that annotations have come to; **`Tree.Issued.use?`**: they stay in the tree.
-/

namespace AnnotationLookup

namespace Tree

/-- What a node names is there. -/
structure Anchored (t : Tree) : Prop where
  methods : ∀ {id k}, t.methodOwner? id = some k → t.HasSite (.type k)
  fields : ∀ {id k}, t.fieldOwner? id = some k → t.HasSite (.type k)
  uses : ∀ {id site}, t.siteOf? id = some site → t.HasSite site

variable {t t' : Tree}

/-! ## Sites that stay -/

theorem Grows.hasSite (h : t.Grows t') {site : Site} (hsite : t.HasSite site) : t'.HasSite site := by
  cases site with
  | type id =>
    obtain ⟨d, hd⟩ := hsite
    obtain ⟨d', hd', -⟩ := h.type? hd
    exact ⟨d', hd'⟩
  | method id =>
    obtain ⟨m, hm⟩ := hsite
    obtain ⟨m', hm', -⟩ := h.method? hm
    exact ⟨m', hm'⟩
  | field id =>
    obtain ⟨f, hf⟩ := hsite
    obtain ⟨f', hf', -⟩ := h.field? hf
    exact ⟨f', hf'⟩
  | parameter id position =>
    obtain ⟨m, hm, hlt⟩ := hsite
    obtain ⟨m', hm', hbare⟩ := h.method? hm
    have hlength := congrArg List.length (MethodNode.eq_of_bare hbare).2.2.1
    rw [List.length_map, List.length_map] at hlength
    exact ⟨m', hm', by omega⟩

/-- A site is there exactly if it lists annotations. -/
theorem hasSite_iff {site : Site} : t.HasSite site ↔ ∃ ids, t.usesAt? site = some ids := by
  refine ⟨exists_usesAt?, ?_⟩
  rintro ⟨ids, hids⟩
  cases site with
  | parameter id position =>
    obtain ⟨m, hm, hids⟩ := Option.bind_eq_some_iff.1 hids
    obtain ⟨p, hp, -⟩ := Option.map_eq_some_iff.1 hids
    exact ⟨m, hm, (List.getElem?_eq_some_iff.1 hp).1⟩
  | _ =>
    obtain ⟨d, hd, -⟩ := Option.map_eq_some_iff.1 hids
    exact ⟨d, hd⟩

theorem Mirrors.hasSite (hm : t.Mirrors t') {site : Site} (hsite : t.HasSite site) :
    t'.HasSite site := by
  rw [hasSite_iff, hm.usesAt?]
  exact hasSite_iff.1 hsite

theorem anchored_new (id : TreeId) : ({ id } : Tree).Anchored where
  methods {id k} h := by
    rw [methodOwner?, method?, Arena.get?_empty] at h
    cases h
  fields {id k} h := by
    rw [fieldOwner?, field?, Arena.get?_empty] at h
    cases h
  uses {id site} h := by
    rw [siteOf?, use?, Arena.get?_empty] at h
    cases h

theorem Anchored.of_mirrors (h : t.Anchored) (hm : t.Mirrors t') : t'.Anchored where
  methods {id k} hk := hm.hasSite (h.methods ((hm.map_method? id fun _ => rfl).symm.trans hk))
  fields {id k} hk := by
    rw [fieldOwner?, hm.field?] at hk
    exact hm.hasSite (h.fields hk)
  uses {id site} hs := hm.hasSite (h.uses ((hm.map_use? id fun _ => rfl).symm.trans hs))

theorem Anchored.exists_factoryOf? (h : t.Anchored) {site : Site} (hsite : t.HasSite site) :
    ∃ factory, t.factoryOf? site = some factory := by
  have ofType {k : TypeId} (hk : t.HasSite (.type k)) :
      ∃ factory, (t.type? k).map (·.factory) = some factory := by
    obtain ⟨d, hd⟩ := hk
    exact ⟨d.factory, by rw [hd, Option.map_some]⟩
  have ofMethod {k : MethodId} {m : MethodNode} (hm : t.method? k = some m) :
      ∃ factory, t.factoryOf? (.method k) = some factory := by
    obtain ⟨factory, hfactory⟩ := ofType (h.methods (by rw [methodOwner?, hm, Option.map_some]))
    exact ⟨factory, by rw [factoryOf?, enclosingType?, hm, Option.map_some, Option.bind_some, hfactory]⟩
  cases site with
  | type k => exact ofType hsite
  | method k =>
    obtain ⟨m, hm⟩ := hsite
    exact ofMethod hm
  | parameter k position =>
    obtain ⟨m, hm, -⟩ := hsite
    exact ofMethod hm
  | field k =>
    obtain ⟨f, hf⟩ := hsite
    obtain ⟨factory, hfactory⟩ := ofType (h.fields (by rw [fieldOwner?, hf, Option.map_some]))
    exact ⟨factory, by rw [factoryOf?, enclosingType?, hf, Option.map_some, Option.bind_some, hfactory]⟩

end Tree

/-! ## Edits -/

namespace Edit

variable {t : Tree} {e : Edit} {i : Nat}

theorem eq_or_of_map_get?_insert {α β : Type} {sort : NodeSort} {a : Arena α} {view : α → β} {x : α}
    {id : NodeId sort} {y : β} (h : ((a.insert x).1.get? id.index).map view = some y) :
    (a.get? id.index).map view = some y ∨ view x = y := by
  rw [Arena.map_get?_insert] at h
  split at h
  · exact .inr (Option.some.inj h)
  · exact .inl h

theorem methodOwner?_apply (hi : (e.apply t).2 = .ok i) {id : MethodId} {k : TypeId}
    (h : (e.apply t).1.methodOwner? id = some k) :
    t.methodOwner? id = some k ∨ e.site? = some (.type k) := by
  have hadded {owner : TypeId} {name : String} {parameters : List ParameterNode}
      (hsite : t.HasSite (.type owner))
      (h : (t.addMethod owner name parameters).1.methodOwner? id = some k) :
      t.methodOwner? id = some k ∨ some (Site.type owner) = some (.type k) := by
    obtain ⟨d, hd⟩ := hsite
    rw [Tree.addMethod_of_type? hd] at h
    exact (eq_or_of_map_get?_insert h).imp_right fun (howner : owner = k) => by rw [howner]
  cases e with
  | addType name kind origin factory => exact .inl h
  | addMethodNode owner name parameters => exact hadded (hasSite_of_ok hi rfl) h
  | addElement owner name defaultValue =>
    refine @hadded owner name [] (hasSite_of_ok hi rfl) ?_
    obtain ⟨d, hd⟩ := hasSite_of_ok hi rfl
    simp only [apply, Tree.addElement_of_type? hd] at h
    exact (Arena.map_get?_modify_of_eq _ (fun _ => by rfl) _ _).symm.trans h
  | addField owner name type =>
    obtain ⟨d, hd⟩ := hasSite_of_ok hi rfl
    simp only [apply, Tree.addField_of_type? hd] at h
    exact .inl h
  | annotate site annotationType values =>
    simp only [apply, Tree.annotate_of_hasSite (hasSite_of_ok hi rfl)] at h
    refine .inl (Eq.trans (Eq.symm ?_) h)
    exact Tree.map_method?_listUse _ _ id fun _ _ _ => rfl

theorem fieldOwner?_apply (hi : (e.apply t).2 = .ok i) {id : FieldId} {k : TypeId}
    (h : (e.apply t).1.fieldOwner? id = some k) :
    t.fieldOwner? id = some k ∨ e.site? = some (.type k) := by
  cases e with
  | addType name kind origin factory => exact .inl h
  | addMethodNode owner name parameters =>
    obtain ⟨d, hd⟩ := hasSite_of_ok hi rfl
    simp only [apply, Tree.addMethod_of_type? hd] at h
    exact .inl h
  | addElement owner name defaultValue =>
    obtain ⟨d, hd⟩ := hasSite_of_ok hi rfl
    simp only [apply, Tree.addElement_of_type? hd, Tree.addMethod_of_type? hd] at h
    exact .inl h
  | addField owner name type =>
    obtain ⟨d, hd⟩ := hasSite_of_ok hi rfl
    simp only [apply, Tree.addField_of_type? hd] at h
    exact (eq_or_of_map_get?_insert h).imp_right fun (howner : owner = k) => by rw [site?, howner]
  | annotate site annotationType values =>
    simp only [apply, Tree.annotate_of_hasSite (hasSite_of_ok hi rfl)] at h
    refine .inl (Eq.trans (Eq.symm ?_) h)
    exact Tree.map_field?_listUse _ _ id fun _ => rfl

theorem siteOf?_apply (hi : (e.apply t).2 = .ok i) {id : UseId} {site : Site}
    (h : (e.apply t).1.siteOf? id = some site) : t.siteOf? id = some site ∨ e.site? = some site := by
  cases e with
  | addType name kind origin factory => exact .inl h
  | addMethodNode owner name parameters =>
    obtain ⟨d, hd⟩ := hasSite_of_ok hi rfl
    simp only [apply, Tree.addMethod_of_type? hd] at h
    exact .inl h
  | addElement owner name defaultValue =>
    obtain ⟨d, hd⟩ := hasSite_of_ok hi rfl
    simp only [apply, Tree.addElement_of_type? hd, Tree.addMethod_of_type? hd] at h
    exact .inl h
  | addField owner name type =>
    obtain ⟨d, hd⟩ := hasSite_of_ok hi rfl
    simp only [apply, Tree.addField_of_type? hd] at h
    exact .inl h
  | annotate site' annotationType values =>
    have hadded : ((t.annotate site' annotationType values).1.use? id).map (·.site) = some site := h
    rw [Tree.use?_annotate (hasSite_of_ok hi rfl)] at hadded
    split at hadded
    · exact .inr hadded
    · exact .inl hadded

/-- **An edit that is not refused keeps a tree anchored.** -/
theorem anchored_apply (h : t.Anchored) (hi : (e.apply t).2 = .ok i) : (e.apply t).1.Anchored := by
  have hgrows := e.grows_apply t
  have hneeded {site : Site} (hsite : e.site? = some site) : (e.apply t).1.HasSite site :=
    hgrows.hasSite (hasSite_of_ok hi hsite)
  constructor
  · intro id k hk
    exact (methodOwner?_apply hi hk).elim (fun hold => hgrows.hasSite (h.methods hold)) hneeded
  · intro id k hk
    exact (fieldOwner?_apply hi hk).elim (fun hold => hgrows.hasSite (h.fields hold)) hneeded
  · intro id site hsite
    exact (siteOf?_apply hi hsite).elim (fun hold => hgrows.hasSite (h.uses hold)) hneeded

end Edit

namespace Tree

variable {t t' : Tree} {use : UseId}

/-- **A tree without refused edits is anchored.** -/
theorem Unrefused.anchored (h : t.Unrefused) : t.Anchored :=
  h.keeps anchored_new (fun h he => he.elim fun _ hi => Edit.anchored_apply h hi) Anchored.of_mirrors

/-! ## Ids that are issued -/

/-- An annotation of a tree without refused edits has come to the id, in the tree itself or in one that
it was edited, cloned or copied from. -/
inductive Issued : Tree → UseId → Prop
  | annotate {t : Tree} {site : Site} {annotationType : TypeReference} {values : Option (Entries Value)}
    {i : Nat} (h : t.Unrefused) (hi : ((Edit.annotate site annotationType values).apply t).2 = .ok i) :
    Issued ((Edit.annotate site annotationType values).apply t).1 ⟨i⟩
  | edit {t : Tree} {e : Edit} {i : Nat} {use : UseId} (h : Issued t use) (hi : (e.apply t).2 = .ok i) :
    Issued (e.apply t).1 use
  | clone {t : Tree} {use : UseId} (h : Issued t use) (id : TreeId) : Issued { t with id } use
  | copy {t t' : Tree} {id : TreeId} {medium : Medium} {depth : Nat} {use : UseId} (h : Issued t use)
    (hcopy : decode medium id depth t.toJson = some t') : Issued t' use

theorem Issued.unrefused (h : t.Issued use) : t.Unrefused := by
  induction h with
  | annotate h hi => exact h.edit ⟨_, hi⟩
  | edit _ hi ih => exact ih.edit ⟨_, hi⟩
  | clone _ id ih => exact ih.clone id
  | copy _ hcopy ih => exact ih.copy hcopy

/-- **An id that was issued stays in the tree.** -/
theorem Issued.use? (h : t.Issued use) : ∃ u, t.use? use = some u := by
  induction h with
  | @annotate t site annotationType values i h hi =>
    have hsite : t.HasSite site := Edit.hasSite_of_ok hi rfl
    simp only [Edit.apply, annotate_of_hasSite hsite] at hi
    cases hi
    exact ⟨_, (use?_annotate hsite annotationType values _).trans (if_pos rfl)⟩
  | edit _ hi ih =>
    obtain ⟨u, hu⟩ := ih
    exact ⟨u, (Edit.grows_apply _ _).use? hu⟩
  | clone _ id ih => exact ih
  | @copy t t' id medium depth use h hcopy ih =>
    obtain ⟨u, hu⟩ := ih
    have hmirrors : t.Mirrors t' := mirrors_of_decode h.unrefused.indexes.sorted hcopy
    have hthere : (t'.use? use).map (fun _ => ()) = (t.use? use).map fun _ => () :=
      hmirrors.map_use? use fun _ => rfl
    rw [hu, Option.map_some] at hthere
    obtain ⟨u', hu', -⟩ := Option.map_eq_some_iff.1 hthere
    exact ⟨u', hu'⟩

end Tree

end AnnotationLookup
