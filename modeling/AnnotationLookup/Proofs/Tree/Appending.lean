import AnnotationLookup.Proofs.Tree.Run

/-!
# Edits append

An edit fills one slot that was free. If it is not refused, it appends the id of the new node to one
list, except that a new type is listed nowhere. All else that was in the tree is in it as it was,
whatever the tree came from.

* `Tree.Retains`: what was in a tree is in another as it was, lists of ids included;
* `Listing`, `Tree.listAt?`, `Tree.enlist`: the lists of ids in a tree, and an id that is appended to one
  of them; `Tree.listAt?_enlist`: the other lists stay as they are;
* `Edit.retains_of_refused`, **`Edit.retains_of_ok`**: what an edit leaves of the tree before it;
* `Edit.vacant_of_ok`: the slot that an edit fills;
* `Edit.listAt?_apply`, `Tree.listAt?_run`: a list only gets longer, in an edit and in a run;
* **`Edit.only_appends`**: the main statement.
-/

namespace AnnotationLookup

/-! ## What a tree retains -/

namespace Arena

variable {α : Type} {a : Arena α} {i : Nat} {y : α}

theorem ne_freeIndex (hy : a.get? i = some y) : i ≠ a.freeIndex := by
  rintro rfl
  rw [get?_freeIndex] at hy
  cases hy

theorem get?_insert_of_some (hy : a.get? i = some y) (x : α) : (a.insert x).1.get? i = some y := by
  rw [get?_insert, if_neg (ne_freeIndex hy), hy]

end Arena

namespace Tree

/-- Every node of `t` is in `t'` as it is, under the same id, and every name leads where it led. -/
structure Retains (t t' : Tree) : Prop where
  id : t'.id = t.id
  type? : ∀ {id d}, t.type? id = some d → t'.type? id = some d
  idOf? : ∀ {name i}, t.types.idOf? name = some i → t'.types.idOf? name = some i
  method? : ∀ {id m}, t.method? id = some m → t'.method? id = some m
  field? : ∀ {id f}, t.field? id = some f → t'.field? id = some f
  use? : ∀ {id u}, t.use? id = some u → t'.use? id = some u

variable {t t' : Tree}

theorem Retains.refl : t.Retains t :=
  ⟨rfl, fun h => h, fun h => h, fun h => h, fun h => h, fun h => h⟩

theorem Retains.modify_method (h : t.Retains t') (f : MethodNode → MethodNode) :
    t.Retains { t' with methods := t'.methods.modify t.methods.freeIndex f } where
  id := h.id
  type? := h.type?
  idOf? := h.idOf?
  method? hm := by
    rw [Tree.method?, Arena.get?_modify, if_neg (Arena.ne_freeIndex hm).symm]
    exact h.method? hm
  field? := h.field?
  use? := h.use?

theorem retains_addType (t : Tree) (name : String) (kind : ClassKind) (origin : Origin)
    (factory : Factory) : t.Retains (t.addType name kind origin factory).1 := by
  cases hknown : t.types.idOf? name with
  | some i =>
    simp only [addType, NamedArena.insert_of_idOf? _ hknown]
    exact .refl
  | none =>
    refine ⟨rfl, fun hd => ?_, fun {key i} hi => ?_, fun h => h, fun h => h, fun h => h⟩
    · simp only [addType, NamedArena.insert_of_new _ hknown]
      exact Arena.get?_insert_of_some hd _
    · refine (NamedArena.idOf?_insert _ _ _ _).trans ((if_neg ?_).trans hi)
      rintro rfl
      rw [hknown] at hi
      cases hi

theorem retains_withStray (t : Tree) (e : Edit) : t.Retains (t.withStray e) := by
  cases e with
  | addMethodNode owner name parameters =>
    exact ⟨rfl, fun h => h, fun h => h, fun h => Arena.get?_insert_of_some h _, fun h => h, fun h => h⟩
  | addElement owner name defaultValue =>
    exact ⟨rfl, fun h => h, fun h => h, fun h => Arena.get?_insert_of_some h _, fun h => h, fun h => h⟩
  | addField owner name type =>
    exact ⟨rfl, fun h => h, fun h => h, fun h => h, fun h => Arena.get?_insert_of_some h _, fun h => h⟩
  | addType name kind origin factory => exact .refl
  | annotate site annotationType values => exact .refl

end Tree

/-! ## Lists of ids -/

/-- A list of ids in a tree. -/
inductive Listing
  | methods (owner : TypeId)
  | fields (owner : TypeId)
  | annotations (site : Site)
deriving DecidableEq

/-- The list that an edit appends to. A new type is listed nowhere. -/
def Edit.listing? : Edit → Option Listing
  | .addType _ _ _ _ => none
  | .addMethodNode owner _ _ => some (.methods owner)
  | .addElement owner _ _ => some (.methods owner)
  | .addField owner _ _ => some (.fields owner)
  | .annotate site _ _ => some (.annotations site)

namespace Tree

/-- The indices in a list, if what lists them is there. -/
def listAt? (t : Tree) : Listing → Option (List Nat)
  | .methods owner => (t.methodsOf? owner).map (·.map NodeId.index)
  | .fields owner => (t.fieldsOf? owner).map (·.map NodeId.index)
  | .annotations site => (t.usesAt? site).map (·.map NodeId.index)

/-- Appends an index to one list and changes nothing else. -/
def enlist (t : Tree) (i : Nat) : Listing → Tree
  | .methods owner =>
    { t with types := t.types.modify owner.index fun d => { d with methods := d.methods ++ [⟨i⟩] } }
  | .fields owner =>
    { t with types := t.types.modify owner.index fun d => { d with fields := d.fields ++ [⟨i⟩] } }
  | .annotations site => t.listUse ⟨i⟩ site

variable {t t' : Tree}

theorem idOf?_types_enlist (t : Tree) (i : Nat) (l : Listing) :
    (t.enlist i l).types.idOf? = t.types.idOf? := by
  cases l with
  | annotations site => cases site <;> rfl
  | _ => rfl

theorem map_index_append {sort : NodeSort} {p q : Prop} [Decidable p] [Decidable q] (hpq : p ↔ q)
    (ids : Option (List (NodeId sort))) (i : Nat) :
    (if p then ids.map (· ++ [⟨i⟩]) else ids).map (·.map NodeId.index) =
      if q then (ids.map (·.map NodeId.index)).map (· ++ [i]) else ids.map (·.map NodeId.index) := by
  by_cases hp : p
  · rw [if_pos hp, if_pos (hpq.1 hp)]
    cases ids <;> simp
  · rw [if_neg hp, if_neg (mt hpq.2 hp)]

/-- **What is appended to one list is in no other.** -/
theorem listAt?_enlist (t : Tree) (i : Nat) (l l' : Listing) :
    (t.enlist i l).listAt? l' =
      if l' = l then (t.listAt? l').map (· ++ [i]) else t.listAt? l' := by
  have other {sort : NodeSort} {ids ids' : Option (List (NodeId sort))} (h : ids' = ids)
      (hne : l' ≠ l) : ids'.map (·.map NodeId.index) =
        if l' = l then (ids.map (·.map NodeId.index)).map (· ++ [i])
        else ids.map (·.map NodeId.index) := by
    rw [if_neg hne, h]
  cases l with
  | methods owner =>
    cases l' with
    | methods k =>
      have h : (t.enlist i (.methods owner)).methodsOf? k =
          if k = owner then (t.methodsOf? k).map (· ++ [⟨i⟩]) else t.methodsOf? k :=
        t.types.values.map_get?_modify (fun _ => by rfl) owner k
      rw [listAt?, h]
      exact map_index_append (by simp) _ _
    | fields k => exact other (t.types.values.map_get?_modify_of_eq (fun _ => by rfl) _ _) nofun
    | annotations site =>
      cases site with
      | type k => exact other (t.types.values.map_get?_modify_of_eq (fun _ => by rfl) _ _) nofun
      | _ => exact other rfl nofun
  | fields owner =>
    cases l' with
    | methods k => exact other (t.types.values.map_get?_modify_of_eq (fun _ => by rfl) _ _) nofun
    | fields k =>
      have h : (t.enlist i (.fields owner)).fieldsOf? k =
          if k = owner then (t.fieldsOf? k).map (· ++ [⟨i⟩]) else t.fieldsOf? k :=
        t.types.values.map_get?_modify (fun _ => by rfl) owner k
      rw [listAt?, h]
      exact map_index_append (by simp) _ _
    | annotations site =>
      cases site with
      | type k => exact other (t.types.values.map_get?_modify_of_eq (fun _ => by rfl) _ _) nofun
      | _ => exact other rfl nofun
  | annotations site =>
    cases l' with
    | methods k => exact other (map_type?_listUse _ _ k fun _ => rfl) nofun
    | fields k => exact other (map_type?_listUse _ _ k fun _ => rfl) nofun
    | annotations site' =>
      rw [listAt?, enlist, usesAt?_listUse]
      exact map_index_append (by simp) _ _

theorem Retains.listAt? (h : t.Retains t') {l : Listing} {ids : List Nat}
    (hids : t.listAt? l = some ids) : t'.listAt? l = some ids := by
  have ofType {β : Type} {view : TypeNode → β} {k : TypeId} {y : β}
      (hy : (t.type? k).map view = some y) : (t'.type? k).map view = some y := by
    obtain ⟨d, hd, rfl⟩ := Option.map_eq_some_iff.1 hy
    rw [h.type? hd, Option.map_some]
  cases l with
  | methods owner =>
    obtain ⟨listed, hlisted, rfl⟩ := Option.map_eq_some_iff.1 hids
    rw [Tree.listAt?, methodsOf?, ofType hlisted, Option.map_some]
  | fields owner =>
    obtain ⟨listed, hlisted, rfl⟩ := Option.map_eq_some_iff.1 hids
    rw [Tree.listAt?, fieldsOf?, ofType hlisted, Option.map_some]
  | annotations site =>
    obtain ⟨listed, hlisted, rfl⟩ := Option.map_eq_some_iff.1 hids
    suffices hkept : t'.usesAt? site = some listed by rw [Tree.listAt?, hkept, Option.map_some]
    cases site with
    | type k => exact ofType hlisted
    | method k =>
      obtain ⟨m, hm, rfl⟩ := Option.map_eq_some_iff.1 hlisted
      rw [usesAt?, h.method? hm, Option.map_some]
    | field k =>
      obtain ⟨f, hf, rfl⟩ := Option.map_eq_some_iff.1 hlisted
      rw [usesAt?, h.field? hf, Option.map_some]
    | parameter k position =>
      obtain ⟨m, hm, hparameter⟩ := Option.bind_eq_some_iff.1 hlisted
      rw [usesAt?, h.method? hm, Option.bind_some, hparameter]

end Tree

/-! ## Edits -/

namespace Edit

variable {t : Tree} {e : Edit} {i : Nat} {l : Listing}

/-- A refused edit leaves what was there as it was. -/
theorem retains_of_refused {refusal : Refusal} (h : (e.apply t).2 = .error refusal) :
    t.Retains (e.apply t).1 := by
  obtain ⟨site, hneeds, hlacks⟩ := refused_iff.1 ⟨refusal, h⟩
  obtain ⟨_, happly⟩ := apply_of_lacking hneeds hlacks
  rw [happly]
  exact t.retains_withStray e

theorem retains_of_unlisted (hl : e.listing? = none) : t.Retains (e.apply t).1 := by
  cases e with
  | addType name kind origin factory => exact t.retains_addType name kind origin factory
  | _ => cases hl

/-- **An edit that is not refused leaves what was there as it was, but for one list.** -/
theorem retains_of_ok (hi : (e.apply t).2 = .ok i) (hl : e.listing? = some l) :
    (t.enlist i l).Retains (e.apply t).1 := by
  cases e with
  | addType name kind origin factory => cases hl
  | addMethodNode owner name parameters =>
    cases hl
    obtain ⟨d, hd⟩ := hasSite_of_ok hi rfl
    simp only [apply, Tree.addMethod_of_type? hd] at hi ⊢
    cases hi
    exact (t.enlist _ (.methods owner)).retains_withStray (.addMethodNode owner name parameters)
  | addElement owner name defaultValue =>
    cases hl
    obtain ⟨d, hd⟩ := hasSite_of_ok hi rfl
    simp only [apply, Tree.addElement_of_type? hd, Tree.addMethod_of_type? hd] at hi ⊢
    cases hi
    -- the default goes into the slot that the method has just taken
    exact ((t.enlist _ (.methods owner)).retains_withStray
      (.addElement owner name defaultValue)).modify_method _
  | addField owner name type =>
    cases hl
    obtain ⟨d, hd⟩ := hasSite_of_ok hi rfl
    simp only [apply, Tree.addField_of_type? hd] at hi ⊢
    cases hi
    exact (t.enlist _ (.fields owner)).retains_withStray (.addField owner name type)
  | annotate site annotationType values =>
    cases hl
    have huses (t' : Tree) (use : UseId) : (t'.listUse use site).uses = t'.uses := by
      cases site <;> rfl
    simp only [apply, Tree.annotate_of_hasSite (hasSite_of_ok hi rfl)] at hi ⊢
    cases hi
    have hsame (uses : Arena UseNode) (use : UseId) :
        ({ t with uses } : Tree).listUse use site = { t.listUse use site with uses } := by
      cases site <;> rfl
    rw [hsame]
    refine ⟨rfl, fun h => h, fun h => h, fun h => h, fun h => h, fun {id u} hu => ?_⟩
    rw [Tree.enlist, Tree.use?, huses] at hu
    exact Arena.get?_insert_of_some hu _

theorem exists_listAt? (hi : (e.apply t).2 = .ok i) (hl : e.listing? = some l) :
    ∃ ids, t.listAt? l = some ids := by
  have ofType {β : Type} (view : TypeNode → β) {owner : TypeId} (h : t.HasSite (.type owner)) :
      ∃ y, (t.type? owner).map view = some y := by
    obtain ⟨d, hd⟩ := h
    exact ⟨view d, by rw [hd, Option.map_some]⟩
  cases e with
  | addType name kind origin factory => cases hl
  | addMethodNode owner name parameters =>
    cases hl
    obtain ⟨ids, hids⟩ := ofType (·.methods) (hasSite_of_ok hi rfl)
    exact ⟨_, by rw [Tree.listAt?, Tree.methodsOf?, hids, Option.map_some]⟩
  | addElement owner name defaultValue =>
    cases hl
    obtain ⟨ids, hids⟩ := ofType (·.methods) (hasSite_of_ok hi rfl)
    exact ⟨_, by rw [Tree.listAt?, Tree.methodsOf?, hids, Option.map_some]⟩
  | addField owner name type =>
    cases hl
    obtain ⟨ids, hids⟩ := ofType (·.fields) (hasSite_of_ok hi rfl)
    exact ⟨_, by rw [Tree.listAt?, Tree.fieldsOf?, hids, Option.map_some]⟩
  | annotate site annotationType values =>
    cases hl
    obtain ⟨ids, hids⟩ := Tree.exists_usesAt? (hasSite_of_ok hi rfl)
    exact ⟨_, by rw [Tree.listAt?, hids, Option.map_some]⟩

theorem appended (hi : (e.apply t).2 = .ok i) (hl : e.listing? = some l) :
    ∃ ids, t.listAt? l = some ids ∧ (e.apply t).1.listAt? l = some (ids ++ [i]) := by
  obtain ⟨ids, hids⟩ := exists_listAt? hi hl
  refine ⟨ids, hids, (retains_of_ok hi hl).listAt? ?_⟩
  rw [Tree.listAt?_enlist, if_pos rfl, hids, Option.map_some]

theorem listAt?_of_ne (hi : (e.apply t).2 = .ok i) (hl : e.listing? = some l) {l' : Listing}
    (hne : l' ≠ l) {ids : List Nat} (hids : t.listAt? l' = some ids) :
    (e.apply t).1.listAt? l' = some ids := by
  refine (retains_of_ok hi hl).listAt? ?_
  rw [Tree.listAt?_enlist, if_neg hne, hids]

theorem idOf?_apply_of_some (t : Tree) (e : Edit) {name : String} {j : Nat}
    (hj : t.types.idOf? name = some j) : (e.apply t).1.types.idOf? name = some j := by
  cases hi : (e.apply t).2 with
  | error refusal => exact (retains_of_refused hi).idOf? hj
  | ok i =>
    cases hl : e.listing? with
    | none => exact (retains_of_unlisted hl).idOf? hj
    | some l =>
      refine (retains_of_ok hi hl).idOf? ?_
      rw [Tree.idOf?_types_enlist, hj]

/-- **A list only gets longer**, whatever is done to the tree. -/
theorem listAt?_apply (t : Tree) (e : Edit) {ids : List Nat} (hids : t.listAt? l = some ids) :
    ∃ ids', (e.apply t).1.listAt? l = some ids' ∧ ids <+: ids' := by
  cases hi : (e.apply t).2 with
  | error refusal => exact ⟨ids, (retains_of_refused hi).listAt? hids, List.prefix_refl _⟩
  | ok i =>
    cases hl : e.listing? with
    | none => exact ⟨ids, (retains_of_unlisted hl).listAt? hids, List.prefix_refl _⟩
    | some grown =>
      by_cases heq : l = grown
      · subst heq
        obtain ⟨before, hbefore, hafter⟩ := appended hi hl
        obtain rfl : before = ids := Option.some.inj (hbefore.symm.trans hids)
        exact ⟨_, hafter, List.prefix_append _ _⟩
      · exact ⟨ids, listAt?_of_ne hi hl heq hids, List.prefix_refl _⟩

/-! ### The slot that is filled -/

/-- The sort of node that the edit makes. -/
def sort : Edit → NodeSort
  | .addType _ _ _ _ => .type
  | .addMethodNode _ _ _ => .method
  | .addElement _ _ _ => .method
  | .addField _ _ _ => .field
  | .annotate _ _ _ => .use

/-- The type that the edit finds under its name, instead of making one. -/
def found? (t : Tree) : Edit → Option Nat
  | .addType name _ _ _ => t.types.idOf? name
  | _ => none

end Edit

/-- The tree has no node of the sort at the index. -/
def Tree.Vacant (t : Tree) (i : Nat) : NodeSort → Prop
  | .type => t.type? ⟨i⟩ = none
  | .method => t.method? ⟨i⟩ = none
  | .field => t.field? ⟨i⟩ = none
  | .use => t.use? ⟨i⟩ = none

namespace Edit

variable {t : Tree} {e : Edit} {i : Nat} {l : Listing}

/-- A type that is found leaves the whole tree as it is. -/
theorem apply_of_found (hi : e.found? t = some i) : e.apply t = (t, .ok i) := by
  cases e with
  | addType name kind origin factory => simp only [apply, Tree.addType, NamedArena.insert_of_idOf? _ hi]
  | _ => cases hi

theorem vacant_of_ok (hi : (e.apply t).2 = .ok i) (hnew : e.found? t = none) : t.Vacant i e.sort := by
  cases e with
  | addType name kind origin factory =>
    simp only [apply, Tree.addType, NamedArena.insert_of_new _ hnew] at hi
    cases hi
    exact Arena.get?_freeIndex _
  | addMethodNode owner name parameters =>
    obtain ⟨d, hd⟩ := hasSite_of_ok hi rfl
    simp only [apply, Tree.addMethod_of_type? hd] at hi
    cases hi
    exact Arena.get?_freeIndex _
  | addElement owner name defaultValue =>
    obtain ⟨d, hd⟩ := hasSite_of_ok hi rfl
    simp only [apply, Tree.addElement_of_type? hd] at hi
    cases hi
    exact Arena.get?_freeIndex _
  | addField owner name type =>
    obtain ⟨d, hd⟩ := hasSite_of_ok hi rfl
    simp only [apply, Tree.addField_of_type? hd] at hi
    cases hi
    exact Arena.get?_freeIndex _
  | annotate site annotationType values =>
    simp only [apply, Tree.annotate_of_hasSite (hasSite_of_ok hi rfl)] at hi
    cases hi
    exact Arena.get?_freeIndex _

end Edit

/-! ## Runs -/

namespace Tree

theorem idOf?_run_of_some (t : Tree) (es : List Edit) {name : String} {i : Nat}
    (hi : t.types.idOf? name = some i) : (t.run es).2.types.idOf? name = some i := by
  induction es generalizing t with
  | nil => exact hi
  | cons e es ih => exact ih _ (e.idOf?_apply_of_some t hi)

/-- **A list only gets longer in a run**, with edits that are refused among others. -/
theorem listAt?_run (t : Tree) (es : List Edit) {l : Listing} {ids : List Nat}
    (hids : t.listAt? l = some ids) :
    ∃ ids', (t.run es).2.listAt? l = some ids' ∧ ids <+: ids' := by
  induction es generalizing t ids with
  | nil => exact ⟨ids, hids, List.prefix_refl _⟩
  | cons e es ih =>
    obtain ⟨next, hnext, hgrown⟩ := e.listAt?_apply t hids
    obtain ⟨ids', hids', hmore⟩ := ih _ hnext
    exact ⟨ids', hids', hgrown.trans hmore⟩

end Tree

/-- **Edits append and do nothing else**, whatever tree they are applied to. A refused edit leaves each
node as it was. An edit that is not refused leaves them so, too, but for one list, which gets the id of
the new node as its last: the list of methods or of fields of the type that the edit names, or the list
of annotations of the site. The declaration of a type leaves all lists as they are. The id was free
before, unless a type is declared under a name that leads somewhere: this comes to where it leads, and
the whole tree stays as it is. Names lead where they led. After a run, each id therefore means what it
meant, the lists begin as they were, and a site that has a factory has the same one. -/
theorem Edit.only_appends (t : Tree) (e : Edit) :
    (∀ refusal, (e.apply t).2 = .error refusal → t.Retains (e.apply t).1) ∧
    (∀ i, (e.apply t).2 = .ok i →
      (e.listing? = none → t.Retains (e.apply t).1) ∧
      (∀ l, e.listing? = some l →
        (t.enlist i l).Retains (e.apply t).1 ∧
        (∃ ids, t.listAt? l = some ids ∧ (e.apply t).1.listAt? l = some (ids ++ [i])) ∧
        ∀ l' ids, l' ≠ l → t.listAt? l' = some ids →
          (e.apply t).1.listAt? l' = some ids) ∧
      (e.found? t = none → t.Vacant i e.sort)) ∧
    (∀ i, e.found? t = some i → e.apply t = (t, .ok i)) ∧
    (∀ name i, t.types.idOf? name = some i → (e.apply t).1.types.idOf? name = some i) ∧
    ∀ es, t.Grows (t.run es).2 ∧
      (∀ name i, t.types.idOf? name = some i → (t.run es).2.types.idOf? name = some i) ∧
      (∀ l ids, t.listAt? l = some ids →
        ∃ ids', (t.run es).2.listAt? l = some ids' ∧ ids <+: ids') ∧
      ∀ site factory, t.factoryOf? site = some factory →
        (t.run es).2.factoryOf? site = some factory := by
  refine ⟨fun refusal => retains_of_refused, fun i hi => ⟨retains_of_unlisted, fun l hl => ?_,
    vacant_of_ok hi⟩, fun i => apply_of_found, fun name i => e.idOf?_apply_of_some t, fun es => ?_⟩
  · exact ⟨retains_of_ok hi hl, appended hi hl, fun l' ids hne => listAt?_of_ne hi hl hne⟩
  · have hgrows := t.grows_run es
    exact ⟨hgrows, fun name i => t.idOf?_run_of_some es, fun l ids => t.listAt?_run es,
      fun site factory => hgrows.factoryOf?⟩

end AnnotationLookup
