import AnnotationLookup.Proofs.Tree.Mirror
import AnnotationLookup.Proofs.Tree.Refusal

/-!
# Coherence of declaration trees

What is listed and what it says of itself agree: a type lists its methods and fields, each of which
names the type, a site lists the annotations applied to it, each of which names the site, and the
index of names leads to the type of each name.

* `Lists`: lists and owners that agree, with one lemma for each way in which they grow;
  `Lists.mem_iff`, `Lists.nodup`: what is listed is what is owned, each item once;
* `NamedArena.Indexes`: an index of the names of what is stored;
* `Tree.Coherent`: the invariant of a tree, field by field;
* `Tree.lists_methods_addMethod`, `Tree.usesAt?_addMethod` and the like: what is listed after each edit;
* **`Edit.coherent_apply`**: every edit that is not refused keeps it.
-/

namespace AnnotationLookup

/-! ## Lists and owners -/

/-- Each item is listed once by its owner, and by nothing else. -/
structure Lists {κ ι : Type} [DecidableEq ι] (list? : κ → Option (List ι)) (owner? : ι → Option κ) :
    Prop where
  /-- The owner of an item is there and lists the item once. -/
  listed : ∀ {i k}, owner? i = some k → ∃ items, list? k = some items ∧ items.count i = 1
  /-- What lists an item is its owner. -/
  owned : ∀ {k items i}, list? k = some items → i ∈ items → owner? i = some k

namespace Lists

variable {κ ι : Type} [DecidableEq ι] {list? list?' : κ → Option (List ι)}
  {owner? owner?' : ι → Option κ}

theorem of_empty (hlist : ∀ k, list? k = none) (howner : ∀ i, owner? i = none) :
    Lists list? owner? where
  listed h := by
    rw [howner] at h
    cases h
  owned h _ := by
    rw [hlist] at h
    cases h

/-- Something new, which lists nothing yet, may come in. -/
theorem extend (h : Lists list? owner?)
    (hlist : ∀ k, list?' k = list? k ∨ list? k = none ∧ list?' k = some [])
    (howner : ∀ i, owner?' i = owner? i) : Lists list?' owner?' where
  listed {i k} hi := by
    obtain ⟨items, hitems, hcount⟩ := h.listed ((howner i).symm.trans hi)
    rcases hlist k with heq | ⟨hnone, -⟩
    · exact ⟨items, heq.trans hitems, hcount⟩
    · rw [hnone] at hitems
      cases hitems
  owned {k items i} hk hmem := by
    rw [howner]
    rcases hlist k with heq | ⟨-, hempty⟩
    · exact h.owned (heq.symm.trans hk) hmem
    · rw [hempty] at hk
      cases hk
      cases hmem

/-- An item without an owner may be appended to a list. -/
theorem append [DecidableEq κ] (h : Lists list? owner?) {i : ι} {k : κ} {items : List ι}
    (hfree : owner? i = none) (hk : list? k = some items)
    (hlist : ∀ k', list?' k' = if k' = k then (list? k').map (· ++ [i]) else list? k')
    (howner : ∀ j, owner?' j = if j = i then some k else owner? j) : Lists list?' owner?' := by
  have hunlisted {k' js} (hk' : list? k' = some js) : i ∉ js := fun hmem => by
    rw [h.owned hk' hmem] at hfree
    cases hfree
  have hthere : list?' k = some (items ++ [i]) := by rw [hlist, if_pos rfl, hk, Option.map_some]
  constructor
  · intro j k' hj
    rw [howner] at hj
    by_cases hji : j = i
    · subst hji
      obtain rfl : k = k' := Option.some.inj ((if_pos rfl).symm.trans hj)
      refine ⟨_, hthere, ?_⟩
      rw [List.count_append, List.count_eq_zero_of_not_mem (hunlisted hk),
        List.count_singleton_self]
    · rw [if_neg hji] at hj
      obtain ⟨js, hjs, hcount⟩ := h.listed hj
      by_cases hkk : k' = k
      · subst hkk
        obtain rfl : items = js := Option.some.inj (hk.symm.trans hjs)
        refine ⟨_, hthere, ?_⟩
        rw [List.count_append, hcount, List.count_eq_zero_of_not_mem (by simpa using hji)]
      · exact ⟨js, by rw [hlist, if_neg hkk, hjs], hcount⟩
  · -- what was listed before is not the new item, so that its owner is as before
    have hold {k' js j} (hk' : list? k' = some js) (hmem : j ∈ js) : owner?' j = some k' := by
      have hji : j ≠ i := by
        rintro rfl
        exact hunlisted hk' hmem
      rw [howner, if_neg hji]
      exact h.owned hk' hmem
    intro k' js j hk' hmem
    by_cases hkk : k' = k
    · subst hkk
      obtain rfl : items ++ [i] = js := Option.some.inj (hthere.symm.trans hk')
      rcases List.mem_append.1 hmem with hmem | hmem
      · exact hold hk hmem
      · rw [howner, if_pos (List.mem_singleton.1 hmem)]
    · rw [hlist, if_neg hkk] at hk'
      exact hold hk' hmem

theorem mem_iff (h : Lists list? owner?) {k : κ} {items : List ι} (hk : list? k = some items) {i : ι} :
    i ∈ items ↔ owner? i = some k := by
  refine ⟨h.owned hk, fun hi => ?_⟩
  obtain ⟨items', hitems', hcount⟩ := h.listed hi
  obtain rfl : items = items' := Option.some.inj (hk.symm.trans hitems')
  exact List.count_pos_iff.1 (by omega)

theorem nodup (h : Lists list? owner?) {k : κ} {items : List ι} (hk : list? k = some items) :
    items.Nodup := by
  refine List.nodup_iff_count.2 fun i => ?_
  by_cases hi : i ∈ items
  · obtain ⟨items', hitems', hcount⟩ := h.listed (h.owned hk hi)
    obtain rfl : items = items' := Option.some.inj (hk.symm.trans hitems')
    omega
  · rw [List.count_eq_zero_of_not_mem hi]
    omega

end Lists

/-! ## What is listed after each operation -/

namespace Arena

variable {α β : Type} {sort : NodeSort} (a : Arena α)

theorem map_get?_insert (view : α → β) (x : α) (id : NodeId sort) :
    ((a.insert x).1.get? id.index).map view =
      if id = ⟨a.freeIndex⟩ then some (view x) else (a.get? id.index).map view := by
  obtain ⟨i⟩ := id
  simp only [get?_insert, NodeId.mk.injEq]
  split <;> rfl

theorem extend_insert {view : α → List β} {x : α} (hx : view x = []) (id : NodeId sort) :
    ((a.insert x).1.get? id.index).map view = (a.get? id.index).map view ∨
      (a.get? id.index).map view = none ∧ ((a.insert x).1.get? id.index).map view = some [] := by
  rw [map_get?_insert]
  split
  · next hid =>
    subst hid
    exact .inr ⟨by rw [get?_freeIndex, Option.map_none], congrArg some hx⟩
  · exact .inl rfl

theorem map_get?_modify {view : α → β} {f : α → α} {g : β → β} (hf : ∀ x, view (f x) = g (view x))
    (id id' : NodeId sort) : ((a.modify id.index f).get? id'.index).map view =
      if id' = id then ((a.get? id'.index).map view).map g else (a.get? id'.index).map view := by
  obtain ⟨i⟩ := id
  obtain ⟨j⟩ := id'
  simp only [get?_modify, NodeId.mk.injEq, eq_comm]
  split
  · cases a.get? j <;> simp [hf]
  · rfl

theorem map_get?_modify_of_eq {view : α → β} {f : α → α} (hf : ∀ x, view (f x) = view x) (i j : Nat) :
    ((a.modify i f).get? j).map view = (a.get? j).map view :=
  map_get?_of_viewSlots (viewSlots_modify i hf) j

end Arena

/-! ## The index of names -/

namespace NamedArena

variable {α : Type} {nameOf : α → String} {a : NamedArena α}

/-- The index leads from the name of each thing stored to its slot, and from no other name anywhere.
-/
structure Indexes (nameOf : α → String) (a : NamedArena α) : Prop where
  sorted : Entries.Sorted a.byName
  idOf?_iff : ∀ name i, a.idOf? name = some i ↔ ∃ x, a.get? i = some x ∧ nameOf x = name

theorem indexes_empty : Indexes nameOf (empty : NamedArena α) where
  sorted := List.Pairwise.nil
  idOf?_iff name i := by
    refine iff_of_false (fun h => by cases h) ?_
    rintro ⟨x, hx, -⟩
    rw [get?, empty, Arena.get?_empty] at hx
    cases hx

theorem Indexes.insert (h : Indexes nameOf a) (x : α) : Indexes nameOf (a.insert (nameOf x) x).1 := by
  cases hknown : a.idOf? (nameOf x) with
  | some i =>
    rw [insert_of_idOf? a hknown]
    exact h
  | none =>
    have hget (i : Nat) : (a.insert (nameOf x) x).1.get? i =
        if i = a.values.freeIndex then some x else a.get? i := by
      rw [insert_of_new a hknown]
      exact a.values.get?_insert x i
    refine ⟨?_, fun name i => ?_⟩
    · rw [insert_of_new a hknown]
      exact h.sorted.insert _ _
    · rw [idOf?_insert, hget, insert_of_new a hknown]
      by_cases hi : i = a.values.freeIndex
      · subst hi
        -- no name led to the free slot before
        have hfree : a.idOf? name ≠ some a.values.freeIndex := fun hname => by
          obtain ⟨y, hy, -⟩ := (h.idOf?_iff _ _).1 hname
          rw [get?, Arena.get?_freeIndex] at hy
          cases hy
        by_cases hname : nameOf x = name
        · simp [hname]
        · simp [hname, hfree]
      · by_cases hname : nameOf x = name
        · subst hname
          have hnone := mt (h.idOf?_iff (nameOf x) i).2 (by simp [hknown])
          simpa [hi, Ne.symm hi] using hnone
        · simpa [hi, hname] using h.idOf?_iff name i

theorem Indexes.modify (h : Indexes nameOf a) (i : Nat) {f : α → α}
    (hf : ∀ x, nameOf (f x) = nameOf x) : Indexes nameOf (a.modify i f) where
  sorted := h.sorted
  idOf?_iff name j := by
    have hname (y : Option α) : (∃ x, y.map f = some x ∧ nameOf x = name) ↔
        ∃ x, y = some x ∧ nameOf x = name := by
      cases y <;> simp [hf]
    change a.idOf? name = some j ↔ _
    rw [h.idOf?_iff, get?_modify]
    split
    · exact (hname _).symm
    · rfl

end NamedArena

/-! ## Trees -/

/-- A type, a method or a field, and not a parameter. -/
def Site.IsDeclaration : Site → Prop
  | .parameter _ _ => False
  | _ => True

namespace Tree

/-- The methods that a type lists. -/
def methodsOf? (t : Tree) (id : TypeId) : Option (List MethodId) := (t.type? id).map (·.methods)

theorem methodsOf?_eq_some {t : Tree} {id : TypeId} {d : TypeNode} (hd : t.type? id = some d) :
    t.methodsOf? id = some d.methods := by
  rw [methodsOf?, hd, Option.map_some]

/-- The type that a method names as its owner. -/
def methodOwner? (t : Tree) (id : MethodId) : Option TypeId := (t.method? id).map (·.owner)

/-- The fields that a type lists. -/
def fieldsOf? (t : Tree) (id : TypeId) : Option (List FieldId) := (t.type? id).map (·.fields)

/-- The type that a field names as its owner. -/
def fieldOwner? (t : Tree) (id : FieldId) : Option TypeId := (t.field? id).map (·.owner)

/-- The annotations that a site lists. -/
def usesAt? (t : Tree) : Site → Option (List UseId)
  | .type id => (t.type? id).map (·.annotations)
  | .method id => (t.method? id).map (·.annotations)
  | .field id => (t.field? id).map (·.annotations)
  | .parameter id position =>
    (t.method? id).bind fun m => (m.parameters[position]?).map (·.annotations)

/-- The site that an annotation is applied to. -/
def siteOf? (t : Tree) (id : UseId) : Option Site := (t.use? id).map (·.site)

/-- What is listed and what it says of itself agree. -/
structure Coherent (t : Tree) : Prop where
  methods : Lists t.methodsOf? t.methodOwner?
  fields : Lists t.fieldsOf? t.fieldOwner?
  uses : Lists t.usesAt? t.siteOf?
  types : t.types.Indexes TypeNode.name

variable {t t' : Tree}

theorem coherent_new (id : TreeId) : ({ id } : Tree).Coherent where
  methods := .of_empty (fun id => by rw [methodsOf?, type?, NamedArena.get?, NamedArena.empty,
    Arena.get?_empty, Option.map_none]) fun id => by rw [methodOwner?, method?, Arena.get?_empty,
    Option.map_none]
  fields := .of_empty (fun id => by rw [fieldsOf?, type?, NamedArena.get?, NamedArena.empty,
    Arena.get?_empty, Option.map_none]) fun id => by rw [fieldOwner?, field?, Arena.get?_empty,
    Option.map_none]
  uses := .of_empty (fun site => by
    cases site <;> simp [usesAt?, type?, method?, field?, NamedArena.get?, NamedArena.empty,
      Arena.get?_empty]) fun id => by rw [siteOf?, use?, Arena.get?_empty, Option.map_none]
  types := NamedArena.indexes_empty

theorem Mirrors.usesAt? (hm : t.Mirrors t') (site : Site) : t'.usesAt? site = t.usesAt? site := by
  cases site with
  | type id => rw [Tree.usesAt?, hm.type?]; rfl
  | method id => exact hm.map_method? id fun _ => rfl
  | field id => rw [Tree.usesAt?, hm.field?]; rfl
  | parameter id position =>
    have hjoin (m : Option MethodNode) : (m.bind fun m =>
        (m.parameters[position]?).map (·.annotations)) = (m.map fun m =>
          (m.parameters[position]?).map (·.annotations)).join := by
      cases m <;> rfl
    rw [Tree.usesAt?, Tree.usesAt?, hjoin, hjoin, hm.map_method? id fun _ => rfl]

theorem lists_methods_of_mirrors (h : Lists t.methodsOf? t.methodOwner?) (hm : t.Mirrors t') :
    Lists t'.methodsOf? t'.methodOwner? :=
  h.extend (fun id => .inl (by rw [methodsOf?, hm.type?]; rfl)) fun id => hm.map_method? id fun _ => rfl

/-- Nothing of it depends on default values and source values. -/
theorem Coherent.of_mirrors (h : t.Coherent) (hm : t.Mirrors t') : t'.Coherent where
  methods := lists_methods_of_mirrors h.methods hm
  fields := h.fields.extend (fun id => .inl (by rw [fieldsOf?, hm.type?]; rfl))
    fun id => by rw [fieldOwner?, hm.field?]; rfl
  uses := h.uses.extend (fun site => .inl (hm.usesAt? site)) fun id => hm.map_use? id fun _ => rfl
  types := by
    rw [hm.types]
    exact h.types

/-! ### Edits -/

theorem mirrors_setDefault (t : Tree) (i : Nat) (defaultValue : Option Value) :
    t.Mirrors { t with methods := t.methods.modify i ({ · with defaultValue }) } :=
  ⟨rfl, Arena.viewSlots_modify _ fun _ => rfl, rfl, rfl⟩

theorem extend_addType {β : Type} {view : TypeNode → List β} (name : String) (kind : ClassKind)
    (origin : Origin) (factory : Factory) (hview : view ⟨name, kind, origin, factory, [], [], []⟩ = [])
    (id : TypeId) :
    ((t.addType name kind origin factory).1.type? id).map view = (t.type? id).map view ∨
      (t.type? id).map view = none ∧
        ((t.addType name kind origin factory).1.type? id).map view = some [] := by
  cases hknown : t.types.idOf? name with
  | some i =>
    have hsame : (t.addType name kind origin factory).1 = t := by
      simp only [addType, NamedArena.insert_of_idOf? _ hknown]
    exact .inl (by rw [hsame])
  | none =>
    let d : TypeNode := { name := name, kind := kind, origin := origin, factory := factory }
    have hvalues : (t.addType name kind origin factory).1.types.values = (t.types.values.insert d).1 := by
      simp only [addType, NamedArena.insert_of_new _ hknown, d]
    rw [type?, NamedArena.get?, hvalues]
    exact Arena.extend_insert _ hview id

theorem methodsOf?_addMethod {owner : TypeId} {d : TypeNode} (hd : t.type? owner = some d)
    (name : String) (parameters : List ParameterNode) (id : TypeId) :
    (t.addMethod owner name parameters).1.methodsOf? id =
      if id = owner then (t.methodsOf? id).map (· ++ [⟨t.methods.freeIndex⟩])
      else t.methodsOf? id := by
  rw [addMethod_of_type? hd]
  exact t.types.values.map_get?_modify (fun _ => by rfl) owner id

theorem methodsOf?_addType (name : String) (kind : ClassKind) (origin : Origin) (factory : Factory)
    (id : TypeId) : (t.addType name kind origin factory).1.methodsOf? id = t.methodsOf? id ∨
      t.methodsOf? id = none ∧ (t.addType name kind origin factory).1.methodsOf? id = some [] :=
  extend_addType name kind origin factory rfl id

section Methods

variable (h : Lists t.methodsOf? t.methodOwner?)
include h

theorem lists_methods_addType (name : String) (kind : ClassKind) (origin : Origin)
    (factory : Factory) : Lists (t.addType name kind origin factory).1.methodsOf?
      (t.addType name kind origin factory).1.methodOwner? :=
  h.extend (methodsOf?_addType name kind origin factory) fun _ => rfl

theorem lists_methods_addMethod {owner : TypeId} {d : TypeNode} (hd : t.type? owner = some d)
    (name : String) (parameters : List ParameterNode) :
    Lists (t.addMethod owner name parameters).1.methodsOf?
      (t.addMethod owner name parameters).1.methodOwner? := by
  refine h.append ?_ (methodsOf?_eq_some hd) (methodsOf?_addMethod hd name parameters) fun id => ?_
  · rw [methodOwner?, method?, Arena.get?_freeIndex, Option.map_none]
  · rw [addMethod_of_type? hd]
    exact t.methods.map_get?_insert _ _ id

theorem lists_methods_addElement {owner : TypeId} {d : TypeNode} (hd : t.type? owner = some d)
    (name : String) (defaultValue : Option Value) :
    Lists (t.addElement owner name defaultValue).1.methodsOf?
      (t.addElement owner name defaultValue).1.methodOwner? := by
  rw [addElement_of_type? hd]
  exact lists_methods_of_mirrors (lists_methods_addMethod h hd name []) (mirrors_setDefault _ _ _)

theorem lists_methods_addField {owner : TypeId} {d : TypeNode} (hd : t.type? owner = some d)
    (name : String) (type : TypeReference) : Lists (t.addField owner name type).1.methodsOf?
      (t.addField owner name type).1.methodOwner? := by
  rw [addField_of_type? hd]
  refine h.extend (fun id => .inl ?_) fun _ => rfl
  exact t.types.values.map_get?_modify_of_eq (fun _ => by rfl) _ _

end Methods

/-! #### Lists of annotations -/

theorem usesAt?_addType (name : String) (kind : ClassKind) (origin : Origin) (factory : Factory)
    (site : Site) : (t.addType name kind origin factory).1.usesAt? site = t.usesAt? site ∨
      t.usesAt? site = none ∧ (t.addType name kind origin factory).1.usesAt? site = some [] := by
  cases site with
  | type id => exact extend_addType name kind origin factory rfl id
  | _ => exact .inl rfl

/-- A new method lists nothing, and its parameters list what they list already. -/
theorem usesAt?_addMethod {owner : TypeId} {d : TypeNode} (hd : t.type? owner = some d)
    (name : String) {parameters : List ParameterNode} (site : Site)
    (hbare : site.IsDeclaration ∨ ∀ p ∈ parameters, p.annotations = []) :
    (t.addMethod owner name parameters).1.usesAt? site = t.usesAt? site ∨
      t.usesAt? site = none ∧ (t.addMethod owner name parameters).1.usesAt? site = some [] := by
  rw [addMethod_of_type? hd]
  cases site with
  | type id => exact .inl (t.types.values.map_get?_modify_of_eq (fun _ => by rfl) _ _)
  | method id => exact t.methods.extend_insert rfl id
  | field id => exact .inl rfl
  | parameter id position =>
    have hfree : t.methods.get? t.methods.freeIndex = none := Arena.get?_freeIndex _
    obtain ⟨i⟩ := id
    simp only [usesAt?, method?, Arena.get?_insert]
    split
    · next hi =>
      subst hi
      rw [hfree, Option.bind_some, Option.bind_none]
      cases hp : parameters[position]? with
      | none => exact .inl rfl
      | some p =>
        exact .inr ⟨rfl, congrArg some (hbare.resolve_left (fun h => h) p (List.mem_of_getElem? hp))⟩
    · exact .inl rfl

theorem usesAt?_addElement {owner : TypeId} {d : TypeNode} (hd : t.type? owner = some d)
    (name : String) (defaultValue : Option Value) (site : Site) :
    (t.addElement owner name defaultValue).1.usesAt? site = t.usesAt? site ∨
      t.usesAt? site = none ∧ (t.addElement owner name defaultValue).1.usesAt? site = some [] := by
  rw [addElement_of_type? hd, (mirrors_setDefault _ _ _).usesAt?]
  exact usesAt?_addMethod hd name site (.inr (List.forall_mem_nil _))

theorem usesAt?_addField {owner : TypeId} {d : TypeNode} (hd : t.type? owner = some d)
    (name : String) (type : TypeReference) (site : Site) :
    (t.addField owner name type).1.usesAt? site = t.usesAt? site ∨
      t.usesAt? site = none ∧ (t.addField owner name type).1.usesAt? site = some [] := by
  rw [addField_of_type? hd]
  cases site with
  | type id => exact .inl (t.types.values.map_get?_modify_of_eq (fun _ => by rfl) _ _)
  | field id => exact t.fields.extend_insert rfl id
  | _ => exact .inl rfl

theorem Coherent.addType (h : t.Coherent) (name : String) (kind : ClassKind) (origin : Origin)
    (factory : Factory) : (t.addType name kind origin factory).1.Coherent where
  methods := lists_methods_addType h.methods name kind origin factory
  fields := h.fields.extend (extend_addType name kind origin factory rfl) fun _ => rfl
  uses := h.uses.extend (usesAt?_addType name kind origin factory) fun _ => rfl
  types :=
    let d : TypeNode := { name := name, kind := kind, origin := origin, factory := factory }
    h.types.insert d

theorem Coherent.addMethod (h : t.Coherent) {owner : TypeId} {d : TypeNode}
    (hd : t.type? owner = some d) (name : String) {parameters : List ParameterNode}
    (hbare : ∀ p ∈ parameters, p.annotations = []) :
    (t.addMethod owner name parameters).1.Coherent := by
  have hmethods := lists_methods_addMethod h.methods hd name parameters
  have huses (site : Site) := usesAt?_addMethod hd name site (.inr hbare)
  rw [addMethod_of_type? hd] at hmethods huses ⊢
  refine {
    methods := hmethods
    fields := h.fields.extend (fun id => .inl ?_) fun _ => rfl
    uses := h.uses.extend huses fun _ => rfl
    types := h.types.modify owner.index fun _ => rfl }
  exact t.types.values.map_get?_modify_of_eq (fun _ => by rfl) _ _

theorem Coherent.addElement (h : t.Coherent) {owner : TypeId} {d : TypeNode}
    (hd : t.type? owner = some d) (name : String) (defaultValue : Option Value) :
    (t.addElement owner name defaultValue).1.Coherent := by
  rw [addElement_of_type? hd]
  exact (h.addMethod hd name (List.forall_mem_nil _)).of_mirrors (mirrors_setDefault _ _ _)

theorem Coherent.addField (h : t.Coherent) {owner : TypeId} {d : TypeNode}
    (hd : t.type? owner = some d) (name : String) (type : TypeReference) :
    (t.addField owner name type).1.Coherent := by
  have hmethods := lists_methods_addField h.methods hd name type
  have huses (site : Site) := usesAt?_addField hd name type site
  rw [addField_of_type? hd] at hmethods huses ⊢
  have hlisted : t.fieldsOf? owner = some d.fields := by rw [fieldsOf?, hd, Option.map_some]
  refine {
    methods := hmethods
    fields := h.fields.append (i := ⟨t.fields.freeIndex⟩) ?_ hlisted ?_ ?_
    uses := h.uses.extend huses fun _ => rfl
    types := h.types.modify owner.index fun _ => rfl }
  · rw [fieldOwner?, field?, Arena.get?_freeIndex, Option.map_none]
  · exact fun id => t.types.values.map_get?_modify (fun _ => by rfl) owner id
  · exact fun id => t.fields.map_get?_insert _ _ id

theorem exists_usesAt? {site : Site} (h : t.HasSite site) : ∃ ids, t.usesAt? site = some ids := by
  cases site with
  | parameter id position =>
    obtain ⟨m, hm, hlt⟩ := h
    exact ⟨_, by rw [usesAt?, hm, Option.bind_some, List.getElem?_eq_getElem hlt, Option.map_some]⟩
  | _ =>
    obtain ⟨d, hd⟩ := h
    exact ⟨_, by rw [usesAt?, hd, Option.map_some]⟩

/-- An annotation is listed at its site and nowhere else. -/
theorem usesAt?_listUse (use : UseId) (site site' : Site) :
    (t.listUse use site).usesAt? site' =
      if site' = site then (t.usesAt? site').map (· ++ [use]) else t.usesAt? site' := by
  cases site with
  | type id =>
    cases site' with
    | type id' =>
      simp only [Site.type.injEq]
      exact t.types.values.map_get?_modify (fun _ => by rfl) id id'
    | _ => rfl
  | method id =>
    cases site' with
    | method id' =>
      simp only [Site.method.injEq]
      exact t.methods.map_get?_modify (fun _ => by rfl) id id'
    | parameter id' position =>
      obtain ⟨i⟩ := id
      obtain ⟨j⟩ := id'
      simp only [usesAt?, listUse, method?, Arena.get?_modify, reduceCtorEq, if_false]
      split
      · cases t.methods.get? j <;> rfl
      · rfl
    | _ => rfl
  | field id =>
    cases site' with
    | field id' =>
      simp only [Site.field.injEq]
      exact t.fields.map_get?_modify (fun _ => by rfl) id id'
    | _ => rfl
  | parameter id position =>
    cases site' with
    | method id' =>
      exact t.methods.map_get?_modify_of_eq (fun _ => by rfl) id.index id'.index
    | parameter id' position' =>
      obtain ⟨i⟩ := id
      obtain ⟨j⟩ := id'
      simp only [usesAt?, listUse, method?, Arena.get?_modify, Site.parameter.injEq, NodeId.mk.injEq]
      by_cases hij : i = j
      · subst hij
        cases t.methods.get? i with
        | none => simp
        | some m =>
          by_cases hposition : position' = position
          · subst hposition
            cases hp : m.parameters[position']? <;> simp [hp]
          · simp [hposition, Ne.symm hposition]
      · simp [hij, Ne.symm hij]
    | _ => rfl

/-! Nothing but lists of annotations is changed. -/

theorem map_type?_listUse {β : Type} {view : TypeNode → β} (use : UseId) (site : Site) (id : TypeId)
    (hview : ∀ d, view { d with annotations := d.annotations ++ [use] } = view d) :
    ((t.listUse use site).type? id).map view = (t.type? id).map view := by
  cases site with
  | type id' => exact t.types.values.map_get?_modify_of_eq hview _ _
  | _ => rfl

theorem map_method?_listUse {β : Type} {view : MethodNode → β} (use : UseId) (site : Site)
    (id : MethodId)
    (hview : ∀ m parameters annotations,
      view { m with parameters := parameters, annotations := annotations } = view m) :
    ((t.listUse use site).method? id).map view = (t.method? id).map view := by
  cases site with
  | method id' => exact t.methods.map_get?_modify_of_eq (fun _ => hview ..) _ _
  | parameter id' position => exact t.methods.map_get?_modify_of_eq (fun _ => hview ..) _ _
  | _ => rfl

theorem map_field?_listUse {β : Type} {view : FieldNode → β} (use : UseId) (site : Site)
    (id : FieldId) (hview : ∀ f, view { f with annotations := f.annotations ++ [use] } = view f) :
    ((t.listUse use site).field? id).map view = (t.field? id).map view := by
  cases site with
  | field id' => exact t.fields.map_get?_modify_of_eq hview _ _
  | _ => rfl

theorem lists_methods_annotate (h : Lists t.methodsOf? t.methodOwner?) {site : Site}
    (hsite : t.HasSite site) (annotationType : TypeReference) (values : Option (Entries Value)) :
    Lists (t.annotate site annotationType values).1.methodsOf?
      (t.annotate site annotationType values).1.methodOwner? := by
  rw [annotate_of_hasSite hsite]
  refine h.extend (fun id => .inl ?_) fun id => ?_
  · exact map_type?_listUse _ _ id fun _ => rfl
  · exact map_method?_listUse _ _ id fun _ _ _ => rfl

theorem usesAt?_annotate {site : Site} (hsite : t.HasSite site) (annotationType : TypeReference)
    (values : Option (Entries Value)) (site' : Site) :
    (t.annotate site annotationType values).1.usesAt? site' =
      if site' = site then (t.usesAt? site').map (· ++ [⟨t.uses.freeIndex⟩])
      else t.usesAt? site' := by
  rw [annotate_of_hasSite hsite]
  exact usesAt?_listUse _ _ _

theorem Coherent.annotate (h : t.Coherent) {site : Site} (hsite : t.HasSite site)
    (annotationType : TypeReference) (values : Option (Entries Value)) :
    (t.annotate site annotationType values).1.Coherent := by
  have hmethods := lists_methods_annotate h.methods hsite annotationType values
  rw [annotate_of_hasSite hsite] at hmethods ⊢
  obtain ⟨ids, hids⟩ := exists_usesAt? hsite
  refine {
    methods := hmethods
    fields := h.fields.extend (fun id => .inl ?_) fun id => ?_
    uses := h.uses.append (i := ⟨t.uses.freeIndex⟩) ?_ hids ?_ fun id => ?_
    types := ?_ }
  · exact map_type?_listUse _ _ id fun _ => rfl
  · exact map_field?_listUse _ _ id fun _ => rfl
  · rw [siteOf?, use?, Arena.get?_freeIndex, Option.map_none]
  · exact fun site' => usesAt?_listUse _ _ _
  · have huses (t' : Tree) : (t'.listUse ⟨t.uses.freeIndex⟩ site).uses = t'.uses := by
      cases site <;> rfl
    rw [siteOf?, use?, huses]
    exact t.uses.map_get?_insert _ _ id
  · cases site with
    | type id => exact h.types.modify _ fun _ => rfl
    | _ => exact h.types

end Tree

/-- An edit that adds nothing with annotations of its own. -/
def Edit.AddsBare : Edit → Prop
  | .addMethodNode _ _ parameters => ∀ p ∈ parameters, p.annotations = []
  | _ => True

theorem Edit.addsBare_addMethod (owner : TypeId) (name : String)
    (parameters : List (String × TypeReference)) : (Edit.addMethod owner name parameters).AddsBare := by
  intro p hp
  obtain ⟨pair, -, rfl⟩ := List.mem_map.1 hp
  rfl

/-- What an edit needs is there, if it is not refused. -/
theorem Edit.hasSite_of_ok {t : Tree} {e : Edit} {i : Nat} (hi : (e.apply t).2 = .ok i) {site : Site}
    (hneeds : e.site? = some site) : t.HasSite site := by
  refine Classical.byContradiction fun hlacks => ?_
  obtain ⟨refusal, hrefused⟩ := apply_of_lacking hneeds hlacks
  rw [hrefused] at hi
  cases hi

/-- **Every edit that is not refused keeps a tree coherent.** -/
theorem Edit.coherent_apply {t : Tree} (h : t.Coherent) {e : Edit} (hbare : e.AddsBare) {i : Nat}
    (hi : (e.apply t).2 = .ok i) : (e.apply t).1.Coherent := by
  cases e with
  | addType name kind origin factory => exact h.addType name kind origin factory
  | addMethodNode owner name parameters =>
    obtain ⟨d, hd⟩ := hasSite_of_ok hi rfl
    exact h.addMethod hd name hbare
  | addElement owner name defaultValue =>
    obtain ⟨d, hd⟩ := hasSite_of_ok hi rfl
    exact h.addElement hd name defaultValue
  | addField owner name type =>
    obtain ⟨d, hd⟩ := hasSite_of_ok hi rfl
    exact h.addField hd name type
  | annotate site annotationType values => exact h.annotate (hasSite_of_ok hi rfl) annotationType values

end AnnotationLookup
