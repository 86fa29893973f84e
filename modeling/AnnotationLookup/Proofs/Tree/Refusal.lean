import AnnotationLookup.Tree.Edit

/-!
# Edits that are refused

An edit is refused exactly if the tree lacks what the edit is about. A refused annotation leaves the
tree as it was. A refused member does not: it has been stored by then, in a slot that was free, and
names an owner that is not there.

* `Tree.HasSite`, `Edit.site?`: what is there, and what an edit needs;
* `Tree.addMethod_of_type?`, `Tree.addMethod_of_vacant` and the like: what each edit comes to;
* `Tree.withStray`: what a refused edit leaves behind;
* **`Edit.refused_iff_and_remains`**: the main statement.
-/

namespace AnnotationLookup

/-! ## Arenas -/

namespace Arena

variable {α : Type} (a : Arena α)

theorem insert_ne_self (x : α) : (a.insert x).1 ≠ a := by
  intro h
  have hfree := a.get?_freeIndex
  rw [← h, get?_insert, h, if_pos rfl] at hfree
  cases hfree

end Arena

/-! ## What an edit needs -/

/-- The tree has the site: its node is there, and its position is one of the method's parameters. -/
def Tree.HasSite (t : Tree) : Site → Prop
  | .type id => ∃ d, t.type? id = some d
  | .method id => ∃ m, t.method? id = some m
  | .field id => ∃ f, t.field? id = some f
  | .parameter id position => ∃ m, t.method? id = some m ∧ position < m.parameters.length

/-- The site that an edit adds something to. A new type is added to none. -/
def Edit.site? : Edit → Option Site
  | .addType _ _ _ _ => none
  | .addMethodNode owner _ _ => some (.type owner)
  | .addElement owner _ _ => some (.type owner)
  | .addField owner _ _ => some (.type owner)
  | .annotate site _ _ => some site

namespace Tree

variable {t : Tree}

theorem refusal?_eq_none_iff {site : Site} : t.refusal? site = none ↔ t.HasSite site := by
  cases site with
  | type id => simp [refusal?, HasSite, Option.isSome_iff_exists]
  | method id => simp [refusal?, HasSite, Option.isSome_iff_exists]
  | field id => simp [refusal?, HasSite, Option.isSome_iff_exists]
  | parameter id position =>
    simp only [refusal?, HasSite]
    cases t.method? id with
    | none => simp
    | some m => by_cases h : position < m.parameters.length <;> simp [h]

/-! ## What each edit comes to -/

theorem addMethod_of_type? {owner : TypeId} {d : TypeNode} (h : t.type? owner = some d)
    (name : String) (parameters : List ParameterNode) :
    t.addMethod owner name parameters =
      ({ t with
          methods := (t.methods.insert ⟨name, owner, parameters, none, []⟩).1
          types := t.types.modify owner.index fun d =>
            { d with methods := d.methods ++ [⟨t.methods.freeIndex⟩] } },
        .ok ⟨t.methods.freeIndex⟩) := by
  have htype (methods : Arena MethodNode) : ({ t with methods } : Tree).type? owner = some d := h
  simp only [addMethod, editType, htype, Arena.snd_insert]
  rfl

theorem addMethod_of_vacant {owner : TypeId} (h : t.type? owner = none) (name : String)
    (parameters : List ParameterNode) :
    t.addMethod owner name parameters =
      ({ t with methods := (t.methods.insert ⟨name, owner, parameters, none, []⟩).1 },
        .error .vacant) := by
  have htype (methods : Arena MethodNode) : ({ t with methods } : Tree).type? owner = none := h
  simp only [addMethod, editType, htype]
  rfl

theorem addField_of_type? {owner : TypeId} {d : TypeNode} (h : t.type? owner = some d)
    (name : String) (type : TypeReference) :
    t.addField owner name type =
      ({ t with
          fields := (t.fields.insert ⟨name, owner, type, []⟩).1
          types := t.types.modify owner.index fun d =>
            { d with fields := d.fields ++ [⟨t.fields.freeIndex⟩] } },
        .ok ⟨t.fields.freeIndex⟩) := by
  have htype (fields : Arena FieldNode) : ({ t with fields } : Tree).type? owner = some d := h
  simp only [addField, editType, htype, Arena.snd_insert]
  rfl

theorem addField_of_vacant {owner : TypeId} (h : t.type? owner = none) (name : String)
    (type : TypeReference) :
    t.addField owner name type =
      ({ t with fields := (t.fields.insert ⟨name, owner, type, []⟩).1 }, .error .vacant) := by
  have htype (fields : Arena FieldNode) : ({ t with fields } : Tree).type? owner = none := h
  simp only [addField, editType, htype]
  rfl

theorem addElement_of_type? {owner : TypeId} {d : TypeNode} (h : t.type? owner = some d)
    (name : String) (defaultValue : Option Value) :
    t.addElement owner name defaultValue =
      ({ (t.addMethod owner name []).1 with
          methods := (t.addMethod owner name []).1.methods.modify t.methods.freeIndex
            ({ · with defaultValue }) },
        .ok ⟨t.methods.freeIndex⟩) := by
  simp only [addElement, addMethod_of_type? h]

theorem addElement_of_vacant {owner : TypeId} (h : t.type? owner = none) (name : String)
    (defaultValue : Option Value) :
    t.addElement owner name defaultValue = t.addMethod owner name [] := by
  simp only [addElement, addMethod_of_vacant h]

theorem annotate_of_hasSite {site : Site} (h : t.HasSite site) (annotationType : TypeReference)
    (values : Option (Entries Value)) :
    t.annotate site annotationType values =
      (({ t with uses := (t.uses.insert ⟨annotationType, site, values⟩).1 } : Tree).listUse
        ⟨t.uses.freeIndex⟩ site, .ok ⟨t.uses.freeIndex⟩) := by
  simp only [annotate, refusal?_eq_none_iff.2 h, Arena.snd_insert]

theorem annotate_of_not_hasSite {site : Site} (h : ¬ t.HasSite site)
    (annotationType : TypeReference) (values : Option (Entries Value)) :
    ∃ refusal, t.annotate site annotationType values = (t, .error refusal) := by
  obtain ⟨refusal, hrefusal⟩ := Option.ne_none_iff_exists'.1 (mt refusal?_eq_none_iff.1 h)
  refine ⟨refusal, ?_⟩
  simp only [annotate, hrefusal]

theorem type?_eq_none_iff {id : TypeId} : t.type? id = none ↔ ¬ t.HasSite (.type id) := by
  simp only [HasSite, Option.eq_none_iff_forall_ne_some, ne_eq, not_exists]

end Tree

/-! ## What a refused edit leaves behind -/

/-- The tree with the member that the edit adds, which no type lists. A member that was to be an
element has no default yet. -/
def Tree.withStray (t : Tree) : Edit → Tree
  | .addMethodNode owner name parameters =>
    { t with methods := (t.methods.insert ⟨name, owner, parameters, none, []⟩).1 }
  | .addElement owner name _ =>
    { t with methods := (t.methods.insert ⟨name, owner, [], none, []⟩).1 }
  | .addField owner name type =>
    { t with fields := (t.fields.insert ⟨name, owner, type, []⟩).1 }
  | .addType _ _ _ _ => t
  | .annotate _ _ _ => t

namespace Edit

variable {t : Tree}

theorem apply_of_lacking {e : Edit} {site : Site} (hneeds : e.site? = some site)
    (h : ¬ t.HasSite site) : ∃ refusal, e.apply t = (t.withStray e, .error refusal) := by
  cases e with
  | addType name kind origin factory => cases hneeds
  | addMethodNode owner name parameters =>
    cases hneeds
    have hvacant : t.type? owner = none := Tree.type?_eq_none_iff.2 h
    exact ⟨.vacant, by rw [apply, Tree.addMethod_of_vacant hvacant]; rfl⟩
  | addElement owner name defaultValue =>
    cases hneeds
    have hvacant : t.type? owner = none := Tree.type?_eq_none_iff.2 h
    refine ⟨.vacant, ?_⟩
    rw [apply, Tree.addElement_of_vacant hvacant, Tree.addMethod_of_vacant hvacant]
    rfl
  | addField owner name type =>
    cases hneeds
    have hvacant : t.type? owner = none := Tree.type?_eq_none_iff.2 h
    exact ⟨.vacant, by rw [apply, Tree.addField_of_vacant hvacant]; rfl⟩
  | annotate site annotationType values =>
    cases hneeds
    obtain ⟨refusal, hrefused⟩ := Tree.annotate_of_not_hasSite h annotationType values
    exact ⟨refusal, by rw [apply, hrefused]; rfl⟩

theorem apply_of_having {e : Edit} (h : ∀ site, e.site? = some site → t.HasSite site) :
    ∃ i, (e.apply t).2 = .ok i := by
  cases e with
  | addType name kind origin factory => exact ⟨_, rfl⟩
  | addMethodNode owner name parameters =>
    obtain ⟨d, hd⟩ := h _ rfl
    exact ⟨_, by rw [apply, Tree.addMethod_of_type? hd]; rfl⟩
  | addElement owner name defaultValue =>
    obtain ⟨d, hd⟩ := h _ rfl
    exact ⟨_, by rw [apply, Tree.addElement_of_type? hd]; rfl⟩
  | addField owner name type =>
    obtain ⟨d, hd⟩ := h _ rfl
    exact ⟨_, by rw [apply, Tree.addField_of_type? hd]; rfl⟩
  | annotate site annotationType values =>
    exact ⟨_, by rw [apply, Tree.annotate_of_hasSite (h _ rfl)]; rfl⟩

/-- An edit is refused exactly if the tree lacks the site that it needs. -/
theorem refused_iff {e : Edit} : (∃ refusal, (e.apply t).2 = .error refusal) ↔
    ∃ site, e.site? = some site ∧ ¬ t.HasSite site := by
  constructor
  · rintro ⟨refusal, hrefused⟩
    refine Classical.byContradiction fun hnone => ?_
    obtain ⟨i, hi⟩ := apply_of_having (t := t) fun site hneeds =>
      Classical.byContradiction fun hlacks => hnone ⟨site, hneeds, hlacks⟩
    rw [hi] at hrefused
    cases hrefused
  · rintro ⟨site, hneeds, hlacks⟩
    obtain ⟨refusal, happly⟩ := apply_of_lacking hneeds hlacks
    exact ⟨refusal, by rw [happly]⟩

theorem withStray_eq_self_iff {e : Edit} {site : Site} (hneeds : e.site? = some site) :
    t.withStray e = t ↔ ∃ annotationType values, e = .annotate site annotationType values := by
  cases e with
  | addType name kind origin factory => cases hneeds
  | addMethodNode owner name parameters =>
    refine iff_of_false (fun h => ?_) fun ⟨_, _, h⟩ => by cases h
    exact t.methods.insert_ne_self _ (congrArg Tree.methods h)
  | addElement owner name defaultValue =>
    refine iff_of_false (fun h => ?_) fun ⟨_, _, h⟩ => by cases h
    exact t.methods.insert_ne_self _ (congrArg Tree.methods h)
  | addField owner name type =>
    refine iff_of_false (fun h => ?_) fun ⟨_, _, h⟩ => by cases h
    exact t.fields.insert_ne_self _ (congrArg Tree.fields h)
  | annotate site' annotationType values =>
    cases hneeds
    exact iff_of_true rfl ⟨annotationType, values, rfl⟩

/-- **When an edit is refused, and what it leaves behind.** It is refused exactly if the type, the
method or the field that it names is not there, or the position is past the method's parameters. What
a refused edit leaves is the tree with a stray member, so that the tree is as it was if the edit was
an annotation, and only then. -/
theorem refused_iff_and_remains (t : Tree) (e : Edit) :
    ((∃ refusal, (e.apply t).2 = .error refusal) ↔
      ∃ site, e.site? = some site ∧ ¬ t.HasSite site) ∧
    ∀ refusal, (e.apply t).2 = .error refusal →
      (e.apply t).1 = t.withStray e ∧
      ((e.apply t).1 = t ↔ ∃ site annotationType values, e = .annotate site annotationType values) := by
  refine ⟨refused_iff, fun refusal hrefused => ?_⟩
  obtain ⟨site, hneeds, hlacks⟩ := refused_iff.1 ⟨refusal, hrefused⟩
  obtain ⟨_, happly⟩ := apply_of_lacking hneeds hlacks
  have hremains : (e.apply t).1 = t.withStray e := by rw [happly]
  refine ⟨hremains, ?_⟩
  rw [hremains, withStray_eq_self_iff hneeds]
  constructor
  · rintro ⟨annotationType, values, rfl⟩
    exact ⟨site, annotationType, values, rfl⟩
  · rintro ⟨site', annotationType, values, rfl⟩
    cases hneeds
    exact ⟨annotationType, values, rfl⟩

/-- A method of a type that is not there is refused, and is in the tree from then on. -/
theorem not_unchanged_of_refused :
    ¬ ∀ (t : Tree) (e : Edit), (∃ refusal, (e.apply t).2 = .error refusal) → (e.apply t).1 = t := by
  intro h
  have hrefused : ∃ refusal,
      ((Edit.addMethod ⟨0⟩ "run" []).apply { id := ⟨0⟩ }).2 = .error refusal := ⟨.vacant, rfl⟩
  have hstray : (((Edit.addMethod ⟨0⟩ "run" []).apply { id := ⟨0⟩ }).1.method? ⟨0⟩).isSome = true := by
    decide
  rw [h _ _ hrefused] at hstray
  exact absurd hstray (by decide)

end Edit

end AnnotationLookup
