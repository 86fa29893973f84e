import AnnotationLookup.Proofs.Form.Tree
import AnnotationLookup.Proofs.Tree.Refusal

/-!
# Trees of valid nodes

* `Arena.Holds`: what holds of everything that is stored;
* `Tree.Valid`: ids and positions have 64 bits, and tables ascend;
* `Edit.Valid`: so it is with the arguments of an edit;
* **`Edit.valid_apply`**: valid edits keep trees valid, also where they are refused.
-/

namespace AnnotationLookup

/-! ## Arenas -/

namespace Arena

variable {α : Type} {P : α → Prop} {a : Arena α}

/-- The property holds of everything that is stored. -/
def Holds (P : α → Prop) (a : Arena α) : Prop := ∀ i x, a.get? i = some x → P x

theorem holds_empty : Holds P empty := fun i x h => by
  rw [get?_empty] at h
  cases h

theorem Holds.insert (h : Holds P a) {x : α} (hx : P x) : Holds P (a.insert x).1 := fun i y hy => by
  rw [get?_insert] at hy
  split at hy
  · cases hy
    exact hx
  · exact h i y hy

theorem Holds.modify (h : Holds P a) (i : Nat) {f : α → α} (hf : ∀ x, P x → P (f x)) :
    Holds P (a.modify i f) := fun j y hy => by
  rw [get?_modify] at hy
  split at hy
  · obtain ⟨x, hx, rfl⟩ := Option.map_eq_some_iff.1 hy
    exact hf x (h j x hx)
  · exact h j y hy

theorem holds_iff : Holds P a ↔ ∀ slot ∈ a.slots, ∀ x ∈ slot, P x := by
  constructor
  · intro h slot hslot x hx
    obtain ⟨i, hi⟩ := List.getElem?_of_mem hslot
    refine h i x ?_
    rw [get?, hi]
    exact hx
  · intro h i x hx
    exact h _ (List.mem_of_getElem? (Option.join_eq_some_iff.1 hx)) x rfl

end Arena

/-! ## Nodes -/

/-- The ids have 64 bits. -/
def IdsFit {sort : NodeSort} (ids : List (NodeId sort)) : Prop := ∀ id ∈ ids, id.index < UInt64.size

theorem IdsFit.append {sort : NodeSort} {ids : List (NodeId sort)} (h : IdsFit ids) {id : NodeId sort}
    (hid : id.index < UInt64.size) : IdsFit (ids ++ [id]) :=
  List.forall_mem_append.2 ⟨h, List.forall_mem_singleton.2 hid⟩

theorem idsFit_nil {sort : NodeSort} : IdsFit ([] : List (NodeId sort)) := fun _ h => nomatch h

theorem TypeNode.valid_iff {d : TypeNode} : Form.typeNode.Valid d ↔
    IdsFit d.methods ∧ IdsFit d.fields ∧ IdsFit d.annotations := by
  simp [Form.typeNode, Form.ofRow, Form.typeRow, Row.Valid, Form.text, Form.kind, Form.origin,
    Form.factory, Form.list, Form.nodeId, Form.idRow, Form.index, Form.nothing, IdsFit]

theorem ParameterNode.valid_iff {p : ParameterNode} :
    Form.parameterNode.Valid p ↔ IdsFit p.annotations := by
  simp [Form.parameterNode, Form.ofRow, Form.parameterRow, Row.Valid, Form.text, Form.reference,
    Form.referenceRow, Form.factory, Form.list, Form.nodeId, Form.idRow, Form.index, Form.nothing,
    IdsFit]

theorem MethodNode.valid_iff {m : MethodNode} : Form.methodNode.Valid m ↔
    m.owner.index < UInt64.size ∧ (∀ p ∈ m.parameters, IdsFit p.annotations) ∧
      (∀ v ∈ m.defaultValue, v.Valid) ∧ IdsFit m.annotations := by
  have hparameters : Form.parameterNode.list.Valid m.parameters ↔
      ∀ p ∈ m.parameters, IdsFit p.annotations :=
    forall_congr' fun p => forall_congr' fun _ => ParameterNode.valid_iff
  rw [← hparameters]
  simp [Form.methodNode, Form.ofRow, Form.methodNodeRow, Row.Valid, Form.text, Form.nodeId, Form.idRow,
    Form.index, Form.nothing, IdsFit, Form.nullable, Form.value, Form.list]

theorem FieldNode.valid_iff {f : FieldNode} : Form.fieldNode.Valid f ↔
    f.owner.index < UInt64.size ∧ IdsFit f.annotations := by
  simp [Form.fieldNode, Form.ofRow, Form.fieldRow, Row.Valid, Form.text, Form.reference,
    Form.referenceRow, Form.factory, Form.list, Form.nodeId, Form.idRow, Form.index, Form.nothing,
    IdsFit]

theorem UseNode.valid_iff {u : UseNode} : Form.useNode.Valid u ↔
    Form.site.Valid u.site ∧ ∀ values ∈ u.sourceValues, Form.value.entries.Valid values := by
  simp [Form.useNode, Form.ofRow, Form.useRow, Row.Valid, Form.text, Form.reference,
    Form.referenceRow, Form.factory, Form.nullable]

/-! ## Trees -/

namespace Tree

/-- Ids and positions in the tree have 64 bits, and tables ascend. -/
structure Valid (t : Tree) : Prop where
  types : t.types.values.Holds Form.typeNode.Valid
  names : t.types.byName.Sorted ∧ ∀ p ∈ t.types.byName, p.2 < UInt64.size
  methods : t.methods.Holds Form.methodNode.Valid
  fields : t.fields.Holds Form.fieldNode.Valid
  uses : t.uses.Holds Form.useNode.Valid

variable {t : Tree}

theorem valid_new (id : TreeId) : ({ id } : Tree).Valid :=
  ⟨Arena.holds_empty, ⟨List.Pairwise.nil, fun _ h => nomatch h⟩, Arena.holds_empty,
    Arena.holds_empty, Arena.holds_empty⟩

theorem Valid.parts (h : t.Valid) : Form.parts.Valid t.parts := by
  have hnames : Form.nameIndex.Valid t.types.byName :=
    ⟨h.names.1, fun p hp => ⟨h.names.2 p hp, trivial, trivial⟩⟩
  exact ⟨⟨Arena.holds_iff.1 h.types, hnames, trivial⟩, Arena.holds_iff.1 h.methods,
    Arena.holds_iff.1 h.fields, Arena.holds_iff.1 h.uses, trivial⟩

/-! ## Edits -/

theorem Valid.addType (h : t.Valid) {name : String} {kind : ClassKind} {origin : Origin}
    {factory : Factory} (hid : (t.addType name kind origin factory).2.index < UInt64.size) :
    (t.addType name kind origin factory).1.Valid := by
  cases hknown : t.types.idOf? name with
  | some i =>
    simp only [Tree.addType, NamedArena.insert_of_idOf? _ hknown]
    exact h
  | none =>
    simp only [Tree.addType, NamedArena.insert_of_new _ hknown] at hid ⊢
    refine ⟨h.types.insert (TypeNode.valid_iff.2 ⟨idsFit_nil, idsFit_nil, idsFit_nil⟩),
      ⟨h.names.1.insert _ _, fun p hp => ?_⟩, h.methods, h.fields, h.uses⟩
    rcases Entries.mem_insert hp with rfl | hp
    · exact hid
    · exact h.names.2 p hp

theorem Valid.addMethod (h : t.Valid) {owner : TypeId} (howner : owner.index < UInt64.size)
    (name : String) {parameters : List ParameterNode}
    (hparameters : ∀ p ∈ parameters, IdsFit p.annotations)
    (hid : ∀ id, (t.addMethod owner name parameters).2 = .ok id → id.index < UInt64.size) :
    (t.addMethod owner name parameters).1.Valid := by
  have hnode : Form.methodNode.Valid ⟨name, owner, parameters, none, []⟩ :=
    MethodNode.valid_iff.2 ⟨howner, hparameters, fun _ hv => (nomatch hv), idsFit_nil⟩
  have hstored := h.methods.insert hnode
  cases ht : t.type? owner with
  | none =>
    rw [addMethod_of_vacant ht]
    exact ⟨h.types, h.names, hstored, h.fields, h.uses⟩
  | some d =>
    rw [addMethod_of_type? ht] at hid ⊢
    refine ⟨h.types.modify _ fun d hd => ?_, h.names, hstored, h.fields, h.uses⟩
    obtain ⟨hmethods, hfields, hannotations⟩ := TypeNode.valid_iff.1 hd
    exact TypeNode.valid_iff.2 ⟨hmethods.append (hid _ rfl), hfields, hannotations⟩

theorem Valid.addElement (h : t.Valid) {owner : TypeId} (howner : owner.index < UInt64.size)
    (name : String) {defaultValue : Option Value} (hvalue : ∀ v ∈ defaultValue, v.Valid)
    (hid : ∀ id, (t.addElement owner name defaultValue).2 = .ok id → id.index < UInt64.size) :
    (t.addElement owner name defaultValue).1.Valid := by
  have hnone : ∀ p ∈ ([] : List ParameterNode), IdsFit p.annotations := fun _ hp => nomatch hp
  cases ht : t.type? owner with
  | none =>
    rw [addElement_of_vacant ht] at hid ⊢
    exact h.addMethod howner name hnone hid
  | some d =>
    rw [addElement_of_type? ht] at hid ⊢
    have hmethod : (t.addMethod owner name []).1.Valid := by
      refine h.addMethod howner name hnone fun id heq => hid id ?_
      rwa [addMethod_of_type? ht] at heq
    refine ⟨hmethod.types, hmethod.names, hmethod.methods.modify _ fun m hm => ?_, hmethod.fields,
      hmethod.uses⟩
    obtain ⟨howner, hparameters, -, hannotations⟩ := MethodNode.valid_iff.1 hm
    exact MethodNode.valid_iff.2 ⟨howner, hparameters, hvalue, hannotations⟩

theorem Valid.addField (h : t.Valid) {owner : TypeId} (howner : owner.index < UInt64.size)
    (name : String) (type : TypeReference)
    (hid : ∀ id, (t.addField owner name type).2 = .ok id → id.index < UInt64.size) :
    (t.addField owner name type).1.Valid := by
  have hnode : Form.fieldNode.Valid ⟨name, owner, type, []⟩ :=
    FieldNode.valid_iff.2 ⟨howner, idsFit_nil⟩
  have hstored := h.fields.insert hnode
  cases ht : t.type? owner with
  | none =>
    rw [addField_of_vacant ht]
    exact ⟨h.types, h.names, h.methods, hstored, h.uses⟩
  | some d =>
    rw [addField_of_type? ht] at hid ⊢
    refine ⟨h.types.modify _ fun d hd => ?_, h.names, h.methods, hstored, h.uses⟩
    obtain ⟨hmethods, hfields, hannotations⟩ := TypeNode.valid_iff.1 hd
    exact TypeNode.valid_iff.2 ⟨hmethods, hfields.append (hid _ rfl), hannotations⟩

theorem forall_mem_modify {α : Type} {P : α → Prop} {xs : List α} (h : ∀ x ∈ xs, P x) (i : Nat)
    {f : α → α} (hf : ∀ x, P x → P (f x)) : ∀ x ∈ xs.modify i f, P x := by
  intro y hy
  obtain ⟨j, hj⟩ := List.getElem?_of_mem hy
  rw [List.getElem?_modify] at hj
  obtain ⟨x, hx, rfl⟩ := Option.map_eq_some_iff.1 hj
  split
  · exact hf x (h x (List.mem_of_getElem? hx))
  · exact h x (List.mem_of_getElem? hx)

theorem Valid.listUse (h : t.Valid) {use : UseId} (huse : use.index < UInt64.size) (site : Site) :
    (t.listUse use site).Valid := by
  cases site with
  | type id =>
    refine ⟨h.types.modify _ fun d hd => ?_, h.names, h.methods, h.fields, h.uses⟩
    obtain ⟨hmethods, hfields, hannotations⟩ := TypeNode.valid_iff.1 hd
    exact TypeNode.valid_iff.2 ⟨hmethods, hfields, hannotations.append huse⟩
  | method id =>
    refine ⟨h.types, h.names, h.methods.modify _ fun m hm => ?_, h.fields, h.uses⟩
    obtain ⟨howner, hparameters, hvalue, hannotations⟩ := MethodNode.valid_iff.1 hm
    exact MethodNode.valid_iff.2 ⟨howner, hparameters, hvalue, hannotations.append huse⟩
  | field id =>
    refine ⟨h.types, h.names, h.methods, h.fields.modify _ fun f hf => ?_, h.uses⟩
    obtain ⟨howner, hannotations⟩ := FieldNode.valid_iff.1 hf
    exact FieldNode.valid_iff.2 ⟨howner, hannotations.append huse⟩
  | parameter id position =>
    refine ⟨h.types, h.names, h.methods.modify _ fun m hm => ?_, h.fields, h.uses⟩
    obtain ⟨howner, hparameters, hvalue, hannotations⟩ := MethodNode.valid_iff.1 hm
    exact MethodNode.valid_iff.2 ⟨howner,
      forall_mem_modify hparameters position fun p hp => IdsFit.append hp huse, hvalue, hannotations⟩

theorem Valid.annotate (h : t.Valid) {site : Site} (hsite : Form.site.Valid site)
    (annotationType : TypeReference) {values : Option (Entries Value)}
    (hvalues : ∀ es ∈ values, Form.value.entries.Valid es)
    (hid : ∀ id, (t.annotate site annotationType values).2 = .ok id → id.index < UInt64.size) :
    (t.annotate site annotationType values).1.Valid := by
  by_cases hhas : t.HasSite site
  · rw [annotate_of_hasSite hhas] at hid ⊢
    have hnode : Form.useNode.Valid ⟨annotationType, site, values⟩ :=
      UseNode.valid_iff.2 ⟨hsite, hvalues⟩
    have hstored : ({ t with uses := (t.uses.insert ⟨annotationType, site, values⟩).1 } : Tree).Valid :=
      ⟨h.types, h.names, h.methods, h.fields, h.uses.insert hnode⟩
    exact hstored.listUse (hid _ rfl) site
  · obtain ⟨refusal, hrefused⟩ := annotate_of_not_hasSite hhas annotationType values
    rw [hrefused]
    exact h

end Tree

/-- Ids and positions among the arguments of the edit have 64 bits, and tables ascend. -/
def Edit.Valid : Edit → Prop
  | .addType _ _ _ _ => True
  | .addMethodNode owner _ parameters =>
    owner.index < UInt64.size ∧ ∀ p ∈ parameters, IdsFit p.annotations
  | .addElement owner _ defaultValue => owner.index < UInt64.size ∧ ∀ v ∈ defaultValue, v.Valid
  | .addField owner _ _ => owner.index < UInt64.size
  | .annotate site _ values =>
    Form.site.Valid site ∧ ∀ es ∈ values, Form.value.entries.Valid es

/-- **Valid edits keep trees valid**, also where they are refused, as long as ids have 64 bits. -/
theorem Edit.valid_apply {t : Tree} (h : t.Valid) {e : Edit} (he : e.Valid)
    (hid : ∀ i, (e.apply t).2 = .ok i → i < UInt64.size) : (e.apply t).1.Valid := by
  have hindex {sort : NodeSort} {outcome : Except Refusal (NodeId sort)}
      (h : ∀ i, outcome.map NodeId.index = .ok i → i < UInt64.size) (id : NodeId sort)
      (heq : outcome = .ok id) : id.index < UInt64.size := h id.index (heq ▸ rfl)
  cases e with
  | addType name kind origin factory => exact h.addType (hid _ rfl)
  | addMethodNode owner name parameters => exact h.addMethod he.1 name he.2 (hindex hid)
  | addElement owner name defaultValue => exact h.addElement he.1 name he.2 (hindex hid)
  | addField owner name type => exact h.addField he name type (hindex hid)
  | annotate site annotationType values => exact h.annotate he.1 annotationType he.2 (hindex hid)

end AnnotationLookup
