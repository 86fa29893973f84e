import AnnotationLookup.Proofs.Tree.Growth
import AnnotationLookup.Proofs.Tree.Names

/-!
# Runs of edits

A tree that is edited step by step, where an edit that is refused is a step as well.

* `Tree.run`: the outcomes of edits and the tree after them; `Tree.getElem?_run`: the outcome of one of
  them;
* `Tree.grows_run`, `Tree.indexes_run`: what every edit keeps, a run keeps;
* `Tree.idOf?_run`, `Tree.idOf?_of_run`: where the names of types lead after a run;
* `Gathers`: lists that only grow, by items which name their owner;
* **`Edit.membersStep_apply`**: what becomes of the members of a type in an edit;
* **`Tree.gathers_methods_run`**, **`Tree.gathers_fields_run`**: the members that types list after a
  run;
* `Tree.mem_methods_of_run`, `Tree.mem_fields_of_run`: members that were added are listed.
-/

namespace AnnotationLookup

namespace Tree

/-- The outcomes of edits, in order, and the tree after them. -/
def run (t : Tree) : List Edit → List (Except Refusal Nat) × Tree
  | [] => ([], t)
  | e :: es => ((e.apply t).2 :: ((e.apply t).1.run es).1, ((e.apply t).1.run es).2)

variable {t : Tree}

/-- An edit of a run comes to what it comes to after the edits before it, and is followed by those
after it. -/
theorem getElem?_run {es : List Edit} {m : Nat} {e : Edit} (h : es[m]? = some e) :
    (t.run es).1[m]? = some (e.apply (t.run (es.take m)).2).2 ∧
      (t.run es).2 = ((e.apply (t.run (es.take m)).2).1.run (es.drop (m + 1))).2 := by
  induction es generalizing t m with
  | nil => cases h
  | cons d es ih =>
    cases m with
    | zero =>
      obtain rfl : d = e := Option.some.inj h
      exact ⟨rfl, rfl⟩
    | succ m => exact ih (t := (d.apply t).1) h

theorem grows_run (t : Tree) (es : List Edit) : t.Grows (t.run es).2 := by
  induction es generalizing t with
  | nil => exact .refl
  | cons e es ih => exact (e.grows_apply t).trans (ih _)

theorem indexes_run (h : t.types.Indexes TypeNode.name) (es : List Edit) :
    (t.run es).2.types.Indexes TypeNode.name := by
  induction es generalizing t with
  | nil => exact h
  | cons e es ih => exact ih (e.indexes_apply h)

theorem Grows.idOf? {t' : Tree} (h : t.Grows t') (ht : t.types.Indexes TypeNode.name)
    (ht' : t'.types.Indexes TypeNode.name) {name : String} {i : Nat}
    (hi : t.types.idOf? name = some i) : t'.types.idOf? name = some i := by
  obtain ⟨d, hd, rfl⟩ := (ht.idOf?_iff _ _).1 hi
  obtain ⟨d', hd', hbare⟩ := h.types i d hd
  exact (ht'.idOf?_iff _ _).2 ⟨d', hd', (TypeNode.eq_of_bare hbare).1⟩

theorem idOf?_apply {e : Edit} {name : String}
    (he : ∀ kind origin factory, e ≠ .addType name kind origin factory) :
    (e.apply t).1.types.idOf? name = t.types.idOf? name := by
  have hmethod (owner : TypeId) (name' : String) (parameters : List ParameterNode) :
      (t.addMethod owner name' parameters).1.types.byName = t.types.byName := by
    simp only [addMethod, editType]
    split <;> rfl
  cases e with
  | addType name' kind origin factory =>
    have hne : name' ≠ name := by
      rintro rfl
      exact he kind origin factory rfl
    exact (NamedArena.idOf?_insert _ _ _ _).trans (if_neg hne)
  | addMethodNode owner name' parameters =>
    exact congrArg (Entries.get? · name) (hmethod owner name' parameters)
  | addElement owner name' defaultValue =>
    refine congrArg (Entries.get? · name) (Eq.trans ?_ (hmethod owner name' []))
    simp only [Edit.apply, addElement]
    generalize t.addMethod owner name' [] = added
    obtain ⟨t', outcome⟩ := added
    cases outcome <;> rfl
  | addField owner name' type =>
    refine congrArg (Entries.get? · name) ?_
    simp only [Edit.apply, addField, editType]
    split <;> rfl
  | annotate site annotationType values =>
    refine congrArg (Entries.get? · name) ?_
    simp only [Edit.apply, annotate]
    split
    · rfl
    · cases site <;> rfl

theorem idOf?_run {name : String} {es : List Edit}
    (hes : ∀ kind origin factory, Edit.addType name kind origin factory ∉ es) :
    (t.run es).2.types.idOf? name = t.types.idOf? name := by
  induction es generalizing t with
  | nil => rfl
  | cons e es ih =>
    have hrest := ih (t := (e.apply t).1) fun kind origin factory hmem =>
      hes kind origin factory (.tail e hmem)
    refine hrest.trans (idOf?_apply fun kind origin factory heq => ?_)
    exact hes kind origin factory (heq ▸ .head es)

/-- The declaration of a type comes to what its name leads to, also at the end of the run. -/
theorem idOf?_of_run (ht : t.types.Indexes TypeNode.name) {es : List Edit} {m : Nat} {name : String}
    {kind : ClassKind} {origin : Origin} {factory : Factory}
    (hm : es[m]? = some (.addType name kind origin factory)) :
    ∃ i, (t.run es).1[m]? = some (.ok i) ∧ (t.run es).2.types.idOf? name = some i := by
  obtain ⟨houtcome, hend⟩ := t.getElem?_run hm
  have hbefore := indexes_run ht (es.take m)
  have hafter := Edit.indexes_apply hbefore (.addType name kind origin factory)
  refine ⟨_, houtcome, ?_⟩
  rw [hend]
  refine (grows_run _ _).idOf? hafter (indexes_run hafter _) ?_
  exact (NamedArena.idOf?_insert _ _ _ _).trans (if_pos rfl)

end Tree

/-! ## Members -/

section Gathers

variable {κ ι : Type}

/-- The owner lists the item. -/
def Listed (list? : κ → Option (List ι)) (k : κ) (i : ι) : Prop :=
  ∃ items, list? k = some items ∧ i ∈ items

/-- What is listed stays listed, and what comes to be listed names its owner. -/
structure Gathers (list? list?' : κ → Option (List ι)) (owner?' : ι → Option κ) : Prop where
  kept : ∀ {k i}, Listed list? k i → Listed list?' k i
  gained : ∀ {k i}, Listed list?' k i → Listed list? k i ∨ owner?' i = some k

namespace Gathers

variable {list? list?' list?'' : κ → Option (List ι)} {owner?' owner?'' : ι → Option κ}

theorem refl : Gathers list? list? owner?' := ⟨id, .inl⟩

theorem trans (h : Gathers list? list?' owner?') (h' : Gathers list?' list?'' owner?'')
    (howner : ∀ i k, owner?' i = some k → owner?'' i = some k) :
    Gathers list? list?'' owner?'' where
  kept hi := h'.kept (h.kept hi)
  gained hi := by
    rcases h'.gained hi with hi | hi
    · exact (h.gained hi).imp_right (howner _ _)
    · exact .inr hi

/-- A list may stay as it is, it may come in empty, or an item may be appended to the list of its
owner. -/
theorem of_forall (h : ∀ k, list?' k = list? k ∨ list? k = none ∧ list?' k = some [] ∨
    ∃ items i, list? k = some items ∧ list?' k = some (items ++ [i]) ∧ owner?' i = some k) :
    Gathers list? list?' owner?' where
  kept {k i} hlisted := by
    obtain ⟨items, hitems, hmem⟩ := hlisted
    rcases h k with heq | ⟨hnone, -⟩ | ⟨items₀, j, hitems₀, happend, -⟩
    · exact ⟨items, heq.trans hitems, hmem⟩
    · rw [hnone] at hitems
      cases hitems
    · obtain rfl : items₀ = items := Option.some.inj (hitems₀.symm.trans hitems)
      exact ⟨_, happend, List.mem_append_left _ hmem⟩
  gained {k i} hlisted := by
    obtain ⟨items, hitems, hmem⟩ := hlisted
    rcases h k with heq | ⟨-, hempty⟩ | ⟨items₀, j, hitems₀, happend, howner⟩
    · exact .inl ⟨items, heq.symm.trans hitems, hmem⟩
    · rw [hempty] at hitems
      cases hitems
      cases hmem
    · obtain rfl : items₀ ++ [j] = items := Option.some.inj (happend.symm.trans hitems)
      rcases List.mem_append.1 hmem with hmem | hmem
      · exact .inl ⟨items₀, hitems₀, hmem⟩
      · obtain rfl := List.mem_singleton.1 hmem
        exact .inr howner

theorem eq_of_listed (h : Gathers list? list?' owner?') (hnew : ∀ k, list? k = none) {k k' : κ} {i : ι}
    (hi : Listed list?' k i) (hi' : Listed list?' k' i) : k = k' := by
  have howner {k : κ} (hi : Listed list?' k i) : owner?' i = some k := by
    refine (h.gained hi).resolve_left fun ⟨items, hitems, _⟩ => ?_
    rw [hnew] at hitems
    cases hitems
  exact Option.some.inj ((howner hi).symm.trans (howner hi'))

end Gathers

end Gathers

namespace Tree

variable {t t' : Tree}

theorem Grows.methodOwner? (h : t.Grows t') {i : MethodId} {k : TypeId}
    (hi : t.methodOwner? i = some k) : t'.methodOwner? i = some k := by
  obtain ⟨m, hm, rfl⟩ := Option.map_eq_some_iff.1 hi
  obtain ⟨m', hm', hbare⟩ := h.method? hm
  rw [Tree.methodOwner?, hm', Option.map_some, (MethodNode.eq_of_bare hbare).2.1]

theorem Grows.fieldOwner? (h : t.Grows t') {i : FieldId} {k : TypeId}
    (hi : t.fieldOwner? i = some k) : t'.fieldOwner? i = some k := by
  obtain ⟨f, hf, rfl⟩ := Option.map_eq_some_iff.1 hi
  obtain ⟨f', hf', hbare⟩ := h.field? hf
  rw [Tree.fieldOwner?, hf', Option.map_some, (FieldNode.eq_of_bare hbare).2.1]

/-- The methods and the fields that a type lists. -/
def members? (t : Tree) (k : TypeId) : Option (List MethodId × List FieldId) :=
  (t.type? k).map fun d => (d.methods, d.fields)

/-- What becomes of the members of a type in an edit. -/
inductive MembersStep (t t' : Tree) (k : TypeId) : Prop
  | same (h : t'.members? k = t.members? k)
  | type (h : t.members? k = none) (h' : t'.members? k = some ([], []))
  | method {methods : List MethodId} {fields : List FieldId} (i : MethodId)
    (h : t.members? k = some (methods, fields)) (h' : t'.members? k = some (methods ++ [i], fields))
    (howner : t'.methodOwner? i = some k)
  | field {methods : List MethodId} {fields : List FieldId} (i : FieldId)
    (h : t.members? k = some (methods, fields)) (h' : t'.members? k = some (methods, fields ++ [i]))
    (howner : t'.fieldOwner? i = some k)

theorem membersStep_addMethod (t : Tree) (owner : TypeId) (name : String)
    (parameters : List ParameterNode) (k : TypeId) :
    t.MembersStep (t.addMethod owner name parameters).1 k := by
  cases ht : t.type? owner with
  | none =>
    rw [addMethod_of_vacant ht]
    exact .same rfl
  | some d =>
    rw [addMethod_of_type? ht]
    let i : MethodId := ⟨t.methods.freeIndex⟩
    have hmembers : ({ t with
          methods := (t.methods.insert ⟨name, owner, parameters, none, []⟩).1
          types := t.types.modify owner.index fun d =>
            { d with methods := d.methods ++ [i] } } : Tree).members? k =
        if k = owner then (t.members? k).map fun p => (p.1 ++ [i], p.2) else t.members? k :=
      t.types.values.map_get?_modify (fun _ => by rfl) owner k
    by_cases hk : k = owner
    · subst hk
      have hbefore : t.members? k = some (d.methods, d.fields) := by rw [members?, ht, Option.map_some]
      rw [if_pos rfl, hbefore] at hmembers
      exact .method i hbefore hmembers ((t.methods.map_get?_insert _ _ _).trans (if_pos rfl))
    · exact .same (hmembers.trans (if_neg hk))

theorem membersStep_addField (t : Tree) (owner : TypeId) (name : String) (type : TypeReference)
    (k : TypeId) : t.MembersStep (t.addField owner name type).1 k := by
  cases ht : t.type? owner with
  | none =>
    rw [addField_of_vacant ht]
    exact .same rfl
  | some d =>
    rw [addField_of_type? ht]
    let i : FieldId := ⟨t.fields.freeIndex⟩
    have hmembers : ({ t with
          fields := (t.fields.insert ⟨name, owner, type, []⟩).1
          types := t.types.modify owner.index fun d =>
            { d with fields := d.fields ++ [i] } } : Tree).members? k =
        if k = owner then (t.members? k).map fun p => (p.1, p.2 ++ [i]) else t.members? k :=
      t.types.values.map_get?_modify (fun _ => by rfl) owner k
    by_cases hk : k = owner
    · subst hk
      have hbefore : t.members? k = some (d.methods, d.fields) := by rw [members?, ht, Option.map_some]
      rw [if_pos rfl, hbefore] at hmembers
      exact .field i hbefore hmembers ((t.fields.map_get?_insert _ _ _).trans (if_pos rfl))
    · exact .same (hmembers.trans (if_neg hk))

theorem MembersStep.of_addMethod {owner : TypeId} {name : String} {k : TypeId}
    (h : t.MembersStep (t.addMethod owner name []).1 k) (defaultValue : Option Value) :
    t.MembersStep (t.addElement owner name defaultValue).1 k := by
  cases ht : t.type? owner with
  | none =>
    rw [addElement_of_vacant ht]
    exact h
  | some d =>
    rw [addElement_of_type? ht]
    cases h with
    | same h => exact .same h
    | type h h' => exact .type h h'
    | field i h h' howner => exact .field i h h' howner
    | method i h h' howner =>
      refine .method i h h' (Eq.trans ?_ howner)
      exact Arena.map_get?_modify_of_eq _ (fun _ => by rfl) _ _

theorem membersStep_addType (t : Tree) (name : String) (kind : ClassKind) (origin : Origin)
    (factory : Factory) (k : TypeId) : t.MembersStep (t.addType name kind origin factory).1 k := by
  cases hknown : t.types.idOf? name with
  | some i =>
    simp only [addType, NamedArena.insert_of_idOf? _ hknown]
    exact .same rfl
  | none =>
    let d : TypeNode := { name := name, kind := kind, origin := origin, factory := factory }
    have hmembers : (t.addType name kind origin factory).1.members? k =
        if k = ⟨t.types.values.freeIndex⟩ then some ([], []) else t.members? k := by
      simp only [addType, NamedArena.insert_of_new _ hknown]
      exact t.types.values.map_get?_insert _ d k
    by_cases hk : k = ⟨t.types.values.freeIndex⟩
    · subst hk
      refine .type ?_ (hmembers.trans (if_pos rfl))
      rw [members?, type?, NamedArena.get?, Arena.get?_freeIndex, Option.map_none]
    · exact .same (hmembers.trans (if_neg hk))

theorem membersStep_annotate (t : Tree) (site : Site) (annotationType : TypeReference)
    (values : Option (Entries Value)) (k : TypeId) :
    t.MembersStep (t.annotate site annotationType values).1 k := by
  by_cases hsite : t.HasSite site
  · rw [annotate_of_hasSite hsite]
    exact .same (map_type?_listUse _ _ k fun _ => rfl)
  · obtain ⟨refusal, hrefused⟩ := annotate_of_not_hasSite hsite annotationType values
    rw [hrefused]
    exact .same rfl

end Tree

/-- **An edit adds one member to one type**, or a type without members, or no member at all. -/
theorem Edit.membersStep_apply (t : Tree) (e : Edit) (k : TypeId) :
    t.MembersStep (e.apply t).1 k := by
  cases e with
  | addType name kind origin factory => exact t.membersStep_addType name kind origin factory k
  | addMethodNode owner name parameters => exact t.membersStep_addMethod owner name parameters k
  | addElement owner name defaultValue =>
    exact (t.membersStep_addMethod owner name [] k).of_addMethod defaultValue
  | addField owner name type => exact t.membersStep_addField owner name type k
  | annotate site annotationType values => exact t.membersStep_annotate site annotationType values k

namespace Tree

variable {t t' : Tree}

theorem methodsOf?_eq (t : Tree) (k : TypeId) : t.methodsOf? k = (t.members? k).map (·.1) := by
  rw [methodsOf?, members?, Option.map_map]
  rfl

theorem fieldsOf?_eq (t : Tree) (k : TypeId) : t.fieldsOf? k = (t.members? k).map (·.2) := by
  rw [fieldsOf?, members?, Option.map_map]
  rfl

theorem gathers_methods_of_step (h : ∀ k, t.MembersStep t' k) :
    Gathers t.methodsOf? t'.methodsOf? t'.methodOwner? := by
  refine .of_forall fun k => ?_
  simp only [methodsOf?_eq]
  cases h k with
  | same h => exact .inl (by rw [h])
  | type h h' => exact .inr (.inl (by rw [h, h']; exact ⟨rfl, rfl⟩))
  | method i h h' howner => exact .inr (.inr ⟨_, i, by rw [h]; rfl, by rw [h']; rfl, howner⟩)
  | field i h h' howner => exact .inl (by rw [h, h']; rfl)

theorem gathers_fields_of_step (h : ∀ k, t.MembersStep t' k) :
    Gathers t.fieldsOf? t'.fieldsOf? t'.fieldOwner? := by
  refine .of_forall fun k => ?_
  simp only [fieldsOf?_eq]
  cases h k with
  | same h => exact .inl (by rw [h])
  | type h h' => exact .inr (.inl (by rw [h, h']; exact ⟨rfl, rfl⟩))
  | method i h h' howner => exact .inl (by rw [h, h']; rfl)
  | field i h h' howner => exact .inr (.inr ⟨_, i, by rw [h]; rfl, by rw [h']; rfl, howner⟩)

/-- **The methods that types list after a run** were listed before it, or name the type. -/
theorem gathers_methods_run (t : Tree) (es : List Edit) :
    Gathers t.methodsOf? (t.run es).2.methodsOf? (t.run es).2.methodOwner? := by
  induction es generalizing t with
  | nil => exact .refl
  | cons e es ih =>
    exact (gathers_methods_of_step (e.membersStep_apply t)).trans (ih _) fun _ _ h =>
      (grows_run _ es).methodOwner? h

/-- **The fields that types list after a run** were listed before it, or name the type. -/
theorem gathers_fields_run (t : Tree) (es : List Edit) :
    Gathers t.fieldsOf? (t.run es).2.fieldsOf? (t.run es).2.fieldOwner? := by
  induction es generalizing t with
  | nil => exact .refl
  | cons e es ih =>
    exact (gathers_fields_of_step (e.membersStep_apply t)).trans (ih _) fun _ _ h =>
      (grows_run _ es).fieldOwner? h

end Tree

/-! ### Members that were added -/

namespace Edit

/-- The type that the edit adds a method to. -/
def methodOwner? : Edit → Option TypeId
  | .addMethodNode owner _ _ => some owner
  | .addElement owner _ _ => some owner
  | _ => none

/-- The type that the edit adds a field to. -/
def fieldOwner? : Edit → Option TypeId
  | .addField owner _ _ => some owner
  | _ => none

variable {t : Tree} {e : Edit} {owner : TypeId} {j : Nat}

theorem listed_addMethod {d : TypeNode} (hd : t.type? owner = some d) (name : String)
    (parameters : List ParameterNode) :
    Listed (t.addMethod owner name parameters).1.methodsOf? owner ⟨t.methods.freeIndex⟩ := by
  have hget : t.types.get? owner.index = some d := hd
  rw [Tree.addMethod_of_type? hd]
  refine ⟨d.methods ++ [⟨t.methods.freeIndex⟩], ?_, List.mem_append_right _ (.head _)⟩
  simp only [Tree.methodsOf?, Tree.type?, NamedArena.get?_modify, hget, if_true, Option.map_some]

theorem listed_method (he : e.methodOwner? = some owner) (hj : (e.apply t).2 = .ok j) :
    Listed (e.apply t).1.methodsOf? owner ⟨j⟩ := by
  have hsite : e.site? = some (.type owner) := by
    cases e with
    | addMethodNode _ _ _ | addElement _ _ _ => exact congrArg (Option.map Site.type) he
    | _ => cases he
  cases ht : t.type? owner with
  | none =>
    obtain ⟨refusal, hrefused⟩ := apply_of_lacking hsite (Tree.type?_eq_none_iff.1 ht)
    rw [hrefused] at hj
    cases hj
  | some d =>
    cases e with
    | addMethodNode owner' name parameters =>
      cases he
      simp only [apply, Tree.addMethod_of_type? ht] at hj
      cases hj
      exact listed_addMethod ht name parameters
    | addElement owner' name defaultValue =>
      cases he
      simp only [apply, Tree.addElement_of_type? ht] at hj ⊢
      cases hj
      exact listed_addMethod ht name []
    | _ => cases he

theorem listed_field (he : e.fieldOwner? = some owner) (hj : (e.apply t).2 = .ok j) :
    Listed (e.apply t).1.fieldsOf? owner ⟨j⟩ := by
  cases e with
  | addField owner' name type =>
    cases he
    cases ht : t.type? owner with
    | none =>
      simp only [apply, Tree.addField_of_vacant ht] at hj
      cases hj
    | some d =>
      have hget : t.types.get? owner.index = some d := ht
      simp only [apply, Tree.addField_of_type? ht] at hj ⊢
      cases hj
      refine ⟨d.fields ++ [⟨t.fields.freeIndex⟩], ?_, List.mem_append_right _ (.head _)⟩
      simp only [Tree.fieldsOf?, Tree.type?, NamedArena.get?_modify, hget, if_true, Option.map_some]
  | _ => cases he

end Edit

namespace Tree

variable {t : Tree} {es : List Edit} {m : Nat} {e : Edit} {owner : TypeId} {j : Nat}

theorem mem_methods_of_run (hm : es[m]? = some e) (he : e.methodOwner? = some owner)
    (hj : (t.run es).1[m]? = some (.ok j)) : Listed (t.run es).2.methodsOf? owner ⟨j⟩ := by
  obtain ⟨houtcome, hend⟩ := t.getElem?_run hm
  rw [hend]
  refine (gathers_methods_run _ _).kept (e.listed_method he ?_)
  exact Option.some.inj (houtcome.symm.trans hj)

theorem mem_fields_of_run (hm : es[m]? = some e) (he : e.fieldOwner? = some owner)
    (hj : (t.run es).1[m]? = some (.ok j)) : Listed (t.run es).2.fieldsOf? owner ⟨j⟩ := by
  obtain ⟨houtcome, hend⟩ := t.getElem?_run hm
  rw [hend]
  refine (gathers_fields_run _ _).kept (e.listed_field he ?_)
  exact Option.some.inj (houtcome.symm.trans hj)

end Tree

end AnnotationLookup
