import AnnotationLookup.Tree.Edit

/-!
# Growth of declaration trees

An edit adds nodes and lengthens lists of ids, and leaves all else as it is. What a node declares,
apart from these lists, therefore holds for good.

* `bare`: a node without the lists that grow;
* `Arena.Keeps`, `Tree.Grows`: the nodes that are there stay where they are and declare the same;
* **`Edit.grows_apply`**: every edit lets the tree grow, also one that is refused;
* `Tree.Grows.factoryOf?`: the factory of a site stays once it has one.
-/

namespace AnnotationLookup

/-! ## What a node declares -/

/-- A type without the lists of its members and annotations. -/
def TypeNode.bare (d : TypeNode) : TypeNode :=
  { d with methods := [], fields := [], annotations := [] }

/-- A parameter without the list of its annotations. -/
def ParameterNode.bare (p : ParameterNode) : ParameterNode := { p with annotations := [] }

/-- A method without the lists of its annotations and those of its parameters. -/
def MethodNode.bare (m : MethodNode) : MethodNode :=
  { m with parameters := m.parameters.map ParameterNode.bare, annotations := [] }

/-- A field without the list of its annotations. -/
def FieldNode.bare (f : FieldNode) : FieldNode := { f with annotations := [] }

theorem TypeNode.eq_of_bare {d d' : TypeNode} (h : d'.bare = d.bare) :
    d'.name = d.name ∧ d'.kind = d.kind ∧ d'.origin = d.origin ∧ d'.factory = d.factory := by
  simpa only [bare, mk.injEq, and_true] using h

theorem MethodNode.eq_of_bare {m m' : MethodNode} (h : m'.bare = m.bare) :
    m'.name = m.name ∧ m'.owner = m.owner ∧
      m'.parameters.map ParameterNode.bare = m.parameters.map ParameterNode.bare ∧
        m'.defaultValue = m.defaultValue := by
  simpa only [bare, mk.injEq, and_true] using h

theorem FieldNode.eq_of_bare {f f' : FieldNode} (h : f'.bare = f.bare) :
    f'.name = f.name ∧ f'.owner = f.owner ∧ f'.type = f.type := by
  simpa only [bare, mk.injEq, and_true] using h

/-! ## Arenas -/

namespace Arena

variable {α β : Type} {core : α → β} {a b c : Arena α}

/-- What is in `a` is in `b` at the same index, and has the same core. -/
def Keeps (core : α → β) (a b : Arena α) : Prop :=
  ∀ i x, a.get? i = some x → ∃ y, b.get? i = some y ∧ core y = core x

theorem Keeps.refl : Keeps core a a := fun _ x h => ⟨x, h, rfl⟩

theorem Keeps.trans (hab : Keeps core a b) (hbc : Keeps core b c) : Keeps core a c := by
  intro i x hx
  obtain ⟨y, hy, hyx⟩ := hab i x hx
  obtain ⟨z, hz, hzy⟩ := hbc i y hy
  exact ⟨z, hz, hzy.trans hyx⟩

theorem keeps_insert (x : α) : Keeps core a (a.insert x).1 := by
  intro i y hy
  refine ⟨y, ?_, rfl⟩
  rw [get?_insert, if_neg, hy]
  rintro rfl
  rw [get?_freeIndex] at hy
  cases hy

theorem keeps_modify (i : Nat) {f : α → α} (hf : ∀ x, core (f x) = core x) :
    Keeps core a (a.modify i f) := by
  intro j x hx
  rw [get?_modify, hx]
  split
  · exact ⟨f x, rfl, hf x⟩
  · exact ⟨x, rfl, rfl⟩

theorem Keeps.modify_of_free (hab : Keeps core a b) {i : Nat} (hi : a.get? i = none) (f : α → α) :
    Keeps core a (b.modify i f) := by
  intro j x hx
  have hne : i ≠ j := by
    rintro rfl
    rw [hi] at hx
    cases hx
  rw [get?_modify, if_neg hne]
  exact hab j x hx

end Arena

/-! ## Trees -/

namespace Tree

/-- The nodes of `t` are in `t'` under the same ids and declare the same. -/
structure Grows (t t' : Tree) : Prop where
  id : t'.id = t.id
  types : Arena.Keeps TypeNode.bare t.types.values t'.types.values
  methods : Arena.Keeps MethodNode.bare t.methods t'.methods
  fields : Arena.Keeps FieldNode.bare t.fields t'.fields
  uses : Arena.Keeps (fun u => u) t.uses t'.uses

variable {t t' t'' : Tree}

theorem Grows.refl : Grows t t := ⟨rfl, .refl, .refl, .refl, .refl⟩

theorem Grows.trans (h : Grows t t') (h' : Grows t' t'') : Grows t t'' where
  id := h'.id.trans h.id
  types := h.types.trans h'.types
  methods := h.methods.trans h'.methods
  fields := h.fields.trans h'.fields
  uses := h.uses.trans h'.uses

theorem Grows.use? (h : Grows t t') {id : UseId} {u : UseNode} (hu : t.use? id = some u) :
    t'.use? id = some u := by
  obtain ⟨u', hu', rfl⟩ := h.uses _ _ hu
  exact hu'

theorem Grows.type? (h : Grows t t') {id : TypeId} {d : TypeNode} (hd : t.type? id = some d) :
    ∃ d', t'.type? id = some d' ∧ d'.bare = d.bare :=
  h.types _ _ hd

theorem Grows.method? (h : Grows t t') {id : MethodId} {m : MethodNode}
    (hm : t.method? id = some m) : ∃ m', t'.method? id = some m' ∧ m'.bare = m.bare :=
  h.methods _ _ hm

theorem Grows.field? (h : Grows t t') {id : FieldId} {f : FieldNode} (hf : t.field? id = some f) :
    ∃ f', t'.field? id = some f' ∧ f'.bare = f.bare :=
  h.fields _ _ hf

theorem Grows.referenceTo? (h : Grows t t') {id : TypeId} {r : TypeReference}
    (hr : t.referenceTo? id = some r) : t'.referenceTo? id = some r := by
  obtain ⟨d, hd, rfl⟩ := Option.map_eq_some_iff.1 hr
  obtain ⟨d', hd', hb⟩ := h.type? hd
  obtain ⟨hname, -, -, hfactory⟩ := TypeNode.eq_of_bare hb
  rw [Tree.referenceTo?, hd', Option.map_some, hname, hfactory]

theorem Grows.enclosingType? (h : Grows t t') {site : Site} {id : TypeId}
    (hs : t.enclosingType? site = some id) : t'.enclosingType? site = some id := by
  have ofMethod {m : MethodId} (hm : (t.method? m).map (·.owner) = some id) :
      (t'.method? m).map (·.owner) = some id := by
    obtain ⟨n, hn, rfl⟩ := Option.map_eq_some_iff.1 hm
    obtain ⟨n', hn', hb⟩ := h.method? hn
    rw [hn', Option.map_some, (MethodNode.eq_of_bare hb).2.1]
  cases site with
  | type i => exact hs
  | method m => exact ofMethod hs
  | parameter m position => exact ofMethod hs
  | field f =>
    obtain ⟨n, hn, rfl⟩ := Option.map_eq_some_iff.1 hs
    obtain ⟨n', hn', hb⟩ := h.field? hn
    change (t'.field? f).map (·.owner) = some n.owner
    rw [hn', Option.map_some, (FieldNode.eq_of_bare hb).2.1]

/-- **The factory of a site stays once it has one.** -/
theorem Grows.factoryOf? (h : Grows t t') {site : Site} {f : Factory}
    (hf : t.factoryOf? site = some f) : t'.factoryOf? site = some f := by
  obtain ⟨id, hid, ht⟩ := Option.bind_eq_some_iff.1 hf
  obtain ⟨d, hd, rfl⟩ := Option.map_eq_some_iff.1 ht
  obtain ⟨d', hd', hb⟩ := h.type? hd
  rw [Tree.factoryOf?, h.enclosingType? hid, Option.bind_some, hd', Option.map_some,
    (TypeNode.eq_of_bare hb).2.2.2]

/-! ## Edits -/

theorem grows_addType (t : Tree) (name : String) (kind : ClassKind) (origin : Origin)
    (factory : Factory) : Grows t (t.addType name kind origin factory).1 := by
  refine ⟨rfl, ?_, .refl, .refl, .refl⟩
  simp only [addType, NamedArena.insert]
  split
  · exact .refl
  · exact Arena.keeps_insert _

theorem grows_editType (t : Tree) (id : TypeId) {f : TypeNode → TypeNode}
    (hf : ∀ d, (f d).bare = d.bare) : Grows t (t.editType id f).1 := by
  unfold editType
  split
  · exact ⟨rfl, Arena.keeps_modify _ hf, .refl, .refl, .refl⟩
  · exact .refl

theorem grows_addMethod (t : Tree) (owner : TypeId) (name : String)
    (parameters : List ParameterNode) : Grows t (t.addMethod owner name parameters).1 := by
  have hstored (m : MethodNode) : Grows t { t with methods := (t.methods.insert m).1 } :=
    ⟨rfl, .refl, Arena.keeps_insert m, .refl, .refl⟩
  exact (hstored _).trans (grows_editType _ owner fun _ => rfl)

theorem addMethod_id {owner : TypeId} {name : String} {parameters : List ParameterNode}
    {id : MethodId} (h : (t.addMethod owner name parameters).2 = .ok id) :
    id.index = t.methods.freeIndex := by
  simp only [addMethod, Arena.snd_insert] at h
  cases ho : (editType { t with methods := (t.methods.insert
      { name := name, owner := owner, parameters := parameters }).1 } owner fun d =>
        { d with methods := d.methods ++ [⟨t.methods.freeIndex⟩] }).2 with
  | error refusal => rw [ho] at h; cases h
  | ok u => rw [ho] at h; cases h; rfl

theorem grows_addElement (t : Tree) (owner : TypeId) (name : String)
    (defaultValue : Option Value) : Grows t (t.addElement owner name defaultValue).1 := by
  have h := grows_addMethod t owner name []
  have hid : ∀ id, (t.addMethod owner name []).2 = .ok id → id.index = t.methods.freeIndex :=
    fun id => addMethod_id
  unfold addElement
  generalize t.addMethod owner name [] = added at h hid
  obtain ⟨t', outcome⟩ := added
  cases outcome with
  | error refusal => exact h
  | ok id =>
    refine ⟨h.id, h.types, ?_, h.fields, h.uses⟩
    -- the default goes into the slot that the method has just taken
    refine h.methods.modify_of_free ?_ _
    rw [hid id rfl, Arena.get?_freeIndex]

theorem grows_addField (t : Tree) (owner : TypeId) (name : String) (type : TypeReference) :
    Grows t (t.addField owner name type).1 := by
  have hstored (f : FieldNode) : Grows t { t with fields := (t.fields.insert f).1 } :=
    ⟨rfl, .refl, .refl, Arena.keeps_insert f, .refl⟩
  exact (hstored _).trans (grows_editType _ owner fun _ => rfl)

theorem bare_annotateParameter (m : MethodNode) (position : Nat) (use : UseId) :
    { m with parameters := m.parameters.modify position fun p =>
        { p with annotations := p.annotations ++ [use] } }.bare = m.bare := by
  have h : (m.parameters.modify position fun p =>
      { p with annotations := p.annotations ++ [use] }).map ParameterNode.bare =
        m.parameters.map ParameterNode.bare := by
    refine List.ext_getElem? fun i => ?_
    rw [List.getElem?_map, List.getElem?_map, List.getElem?_modify]
    cases m.parameters[i]? with
    | none => rfl
    | some p => simp only [Option.map_some]; split <;> rfl
  simp only [MethodNode.bare, h]

theorem grows_listUse (t : Tree) (use : UseId) (site : Site) : Grows t (t.listUse use site) := by
  cases site with
  | type id => exact ⟨rfl, Arena.keeps_modify _ fun _ => rfl, .refl, .refl, .refl⟩
  | method id => exact ⟨rfl, .refl, Arena.keeps_modify _ fun _ => rfl, .refl, .refl⟩
  | field id => exact ⟨rfl, .refl, .refl, Arena.keeps_modify _ fun _ => rfl, .refl⟩
  | parameter id position =>
    exact ⟨rfl, .refl, Arena.keeps_modify _ fun m => bare_annotateParameter m position use, .refl,
      .refl⟩

theorem grows_annotate (t : Tree) (site : Site) (annotationType : TypeReference)
    (sourceValues : Option (Entries Value)) :
    Grows t (t.annotate site annotationType sourceValues).1 := by
  unfold annotate
  split
  · exact .refl
  · have hstored (u : UseNode) : Grows t { t with uses := (t.uses.insert u).1 } :=
      ⟨rfl, .refl, .refl, .refl, Arena.keeps_insert u⟩
    exact (hstored _).trans (grows_listUse _ _ _)

end Tree

/-- **Every edit lets the tree grow**, also one that is refused. -/
theorem Edit.grows_apply (t : Tree) (e : Edit) : t.Grows (e.apply t).1 := by
  cases e with
  | addType name kind origin factory => exact t.grows_addType name kind origin factory
  | addMethodNode owner name parameters => exact t.grows_addMethod owner name parameters
  | addElement owner name defaultValue => exact t.grows_addElement owner name defaultValue
  | addField owner name type => exact t.grows_addField owner name type
  | annotate site annotationType values => exact t.grows_annotate site annotationType values

end AnnotationLookup
