import AnnotationLookup.Proofs.Form.Value

/-!
# Forms of records

* the forms of references, compiled methods and compiled classes;
* `Form.pair`, `Form.site`: the forms of sites, which are ids, one of them with a position;
* the forms of the nodes of declaration trees.

Each record is a row of fields (`Form.IsRecord`), and each form is faithful.
-/

namespace AnnotationLookup

namespace Form

/-! ## Compiled classes -/

/-- The fields of a reference. -/
def referenceRow : Row (String × Factory × Unit) :=
  .cons "qualified_name" text none <| .cons "factory" factory none .nil

/-- The form of references. -/
def reference : Form TypeReference :=
  ofRow referenceRow (fun r => (r.name, r.factory, ())) TypeReference.toJson TypeReference.decode

theorem isRecord_reference : IsRecord referenceRow (fun r : TypeReference => (r.name, r.factory, ()))
    (fun t => ⟨t.1, t.2.1⟩) 2 TypeReference.toJson TypeReference.decode where
  nodup := by decide
  make_view _ := rfl
  view_make _ := rfl
  toJson_eq _ := rfl
  decode_zero _ := rfl
  decode_succ depth j := bind_fields?_congr fun fields hlength =>
    match fields, hlength with
    | [_, _], _ => rfl

theorem faithful_reference : reference.Faithful :=
  isRecord_reference.faithful fun depth =>
    .required (faithful_text depth) <| .required (faithful_factory depth) trivial

/-- The fields of a compiled method. -/
def methodRow : Row (String × List TypeName × List AnnotationRecord × Option Value × Unit) :=
  .cons "name" text none <| .cons "parameter_types" typeName.list (some []) <|
    .cons "annotations" record.list (some []) <| .cons "default_value" value.nullable (some none) .nil

/-- The form of compiled methods. -/
def method : Form CompiledMethod :=
  ofRow methodRow (fun m => (m.name, m.parameterTypes, m.annotations, m.defaultValue, ()))
    CompiledMethod.toJson (CompiledMethod.decode .text)

theorem optionalValueToJson_eq (v : Option Value) : optionalValueToJson v = value.nullable.toJson v := by
  cases v <;> rfl

theorem isRecord_method : IsRecord methodRow
    (fun m : CompiledMethod => (m.name, m.parameterTypes, m.annotations, m.defaultValue, ()))
    (fun t => ⟨t.1, t.2.1, t.2.2.1, t.2.2.2.1⟩) 1 CompiledMethod.toJson
    (CompiledMethod.decode .text) where
  nodup := by decide
  make_view _ := rfl
  view_make _ := rfl
  toJson_eq m := by
    rw [CompiledMethod.toJson, optionalValueToJson_eq]
    rfl
  decode_zero _ := rfl
  decode_succ depth j := bind_fields?_congr fun fields hlength =>
    match fields, hlength with
    | [_, _, _, _], _ => rfl

theorem holds_nil {α : Type} (F : Form α) : F.list.Valid [] ∧ F.list.Finite [] :=
  ⟨fun _ hx => (nomatch hx), fun _ hx => (nomatch hx)⟩

theorem holds_none {α : Type} (F : Form α) : F.nullable.Valid none ∧ F.nullable.Finite none :=
  ⟨fun _ hx => (nomatch hx), fun _ hx => (nomatch hx)⟩

theorem faithful_optionalValue : value.nullable.Faithful := fun depth =>
  (faithful_value depth).nullable fun v => by cases v <;> exact nofun

theorem faithful_method : method.Faithful :=
  isRecord_method.faithful fun depth =>
    .required (faithful_text depth) <|
    .optional (faithful_typeName.list depth) (holds_nil _).1 (holds_nil _).2 <|
    .optional (faithful_record.list depth) (holds_nil _).1 (holds_nil _).2 <|
    .optional (faithful_optionalValue depth) (holds_none _).1 (holds_none _).2 trivial

/-- The fields of a compiled class. -/
def classRow : Row (String × ClassKind × List AnnotationRecord × List CompiledMethod × Unit) :=
  .cons "name" text none <| .cons "kind" kind none <| .cons "annotations" record.list (some []) <|
    .cons "methods" method.list (some []) .nil

/-- The form of compiled classes. -/
def compiledClass : Form CompiledClass :=
  ofRow classRow (fun c => (c.name, c.kind, c.annotations, c.methods, ())) CompiledClass.toJson
    (CompiledClass.decode .text)

theorem isRecord_compiledClass : IsRecord classRow
    (fun c : CompiledClass => (c.name, c.kind, c.annotations, c.methods, ()))
    (fun t => ⟨t.1, t.2.1, t.2.2.1, t.2.2.2.1⟩) 2 CompiledClass.toJson (CompiledClass.decode .text) where
  nodup := by decide
  make_view _ := rfl
  view_make _ := rfl
  toJson_eq _ := rfl
  decode_zero _ := rfl
  decode_succ depth j := bind_fields?_congr fun fields hlength =>
    match fields, hlength with
    | [_, _, _, _], _ => rfl

theorem faithful_compiledClass : compiledClass.Faithful :=
  isRecord_compiledClass.faithful fun depth =>
    .required (faithful_text depth) <|
    .required (faithful_kind depth) <|
    .optional (faithful_record.list depth) (holds_nil _).1 (holds_nil _).2 <|
    .optional (faithful_method.list depth) (holds_nil _).1 (holds_nil _).2 trivial

/-! ## Ids and sites -/

/-- The place of a generation, which ids do not have. -/
def nothing : Form Unit where
  toJson _ := .null
  decode := fun
    | _, .null => some ()
    | _, _ => none

theorem faithful_nothing : nothing.Faithful :=
  faithful_of_leaf (fun _ _ => trivial) (fun _ => rfl) (fun _ => trivial) (fun _ _ _ => rfl)
    fun _ _ _ _ => trivial

/-- The fields of an id. -/
def idRow : Row (Nat × Unit × Unit) :=
  .cons "index" index none <| .cons "generation" nothing none .nil

/-- The form of ids. -/
def nodeId (sort : NodeSort) : Form (NodeId sort) :=
  ofRow idRow (fun id => (id.index, (), ())) NodeId.toJson NodeId.decode

theorem isRecord_nodeId (sort : NodeSort) : IsRecord idRow (fun id : NodeId sort => (id.index, (), ()))
    (fun t => ⟨t.1⟩) 2 NodeId.toJson NodeId.decode where
  nodup := by decide
  make_view _ := rfl
  view_make _ := rfl
  toJson_eq _ := rfl
  decode_zero _ := rfl
  decode_succ depth j := by
    refine bind_fields?_congr fun fields hlength => ?_
    -- Another generation is refused, before or after the index is read.
    match fields, hlength with
    | [i, none], _ => exact (Option.bind_fun_none (Decoder.index.required depth i)).symm
    | [i, some generation], _ =>
      cases generation with
      | null => rfl
      | _ => exact (Option.bind_fun_none (Decoder.index.required depth i)).symm

theorem faithful_nodeId (sort : NodeSort) : (nodeId sort).Faithful :=
  (isRecord_nodeId sort).faithful fun depth =>
    .required (faithful_index depth) <| .required (faithful_nothing depth) trivial

/-- Two values as an array. -/
def pair {α β : Type} (F : Form α) (G : Form β) : Form (α × β) where
  toJson p := .arr [F.toJson p.1, G.toJson p.2]
  decode := fun
    | depth + 1, .arr [i, j] => do some (← F.decode depth i, ← G.decode depth j)
    | _, _ => none
  Valid p := F.Valid p.1 ∧ G.Valid p.2
  Finite p := F.Finite p.1 ∧ G.Finite p.2

theorem pair_decode_iff {α β : Type} {F : Form α} {G : Form β} {depth : Nat} {i j : Json} {p : α × β} :
    (pair F G).decode (depth + 1) (.arr [i, j]) = some p ↔
      F.decode depth i = some p.1 ∧ G.decode depth j = some p.2 := by
  have hread : (pair F G).decode (depth + 1) (.arr [i, j]) =
      (F.decode depth i).bind fun x => (G.decode depth j).bind fun y => some (x, y) := rfl
  simp only [hread, Option.bind_eq_some_iff]
  constructor
  · rintro ⟨x, hx, y, hy, ⟨⟩⟩
    exact ⟨hx, hy⟩
  · rintro ⟨hx, hy⟩
    exact ⟨p.1, hx, p.2, hy, rfl⟩

theorem Faithful.pair {α β : Type} {F : Form α} {G : Form β} (hF : F.Faithful) (hG : G.Faithful) :
    (pair F G).Faithful
  | 0 => faithfulAt_zero (fun _ => rfl) fun _ => Nat.succ_pos _
  | depth + 1 => {
    writable := fun {p} hp hdepth => by
      simp only [Form.pair, depth_arr_le, List.forall_mem_cons] at hdepth
      simp only [Form.pair, Json.leaves_arr, List.forall_mem_cons]
      exact ⟨(hF depth).writable hp.1 hdepth.1, (hG depth).writable hp.2 hdepth.2.1, nofun⟩
    decode_iff := fun {p q} hp => by
      have hjson : (Form.pair F G).toJson p = .arr [F.toJson p.1, G.toJson p.2] := rfl
      rw [hjson, pair_decode_iff, (hF depth).decode_iff hp.1, (hG depth).decode_iff hp.2, depth_arr_le,
        List.forall_mem_cons, List.forall_mem_singleton, Prod.ext_iff]
      constructor
      · rintro ⟨⟨hx, hfinite, hle⟩, hy, hfinite', hle'⟩
        exact ⟨⟨hx, hy⟩, ⟨hfinite, hfinite'⟩, hle, hle'⟩
      · rintro ⟨⟨hx, hy⟩, ⟨hfinite, hfinite'⟩, hle, hle'⟩
        exact ⟨⟨hx, hfinite, hle⟩, hy, hfinite', hle'⟩
    holds := fun {j p} hj hp => by
      cases j with
      | arr items =>
        match items, hj, hp with
        | [i, j], hj, hp =>
          obtain ⟨hx, hy⟩ := pair_decode_iff.1 hp
          obtain ⟨hvalid, hfinite⟩ := (hF depth).holds hj.1 hx
          obtain ⟨hvalid', hfinite'⟩ := (hG depth).holds hj.2.1 hy
          exact ⟨⟨hvalid, hvalid'⟩, hfinite, hfinite'⟩
        | [], _, hp => cases hp
        | [_], _, hp => cases hp
        | _ :: _ :: _ :: _, _, hp => cases hp
      | _ => cases hp }

/-- The form of sites. -/
def site : Form Site where
  toJson := Site.toJson
  decode := Site.decode
  Valid := fun
    | .type id => (nodeId .type).Valid id
    | .method id => (nodeId .method).Valid id
    | .field id => (nodeId .field).Valid id
    | .parameter id position => (pair (nodeId .method) index).Valid (id, position)

theorem decode_parameter (depth : Nat) (body : Json) :
    Site.decode (depth + 1) (.obj [("Parameter", body)]) =
      ((pair (nodeId .method) index).decode depth body).map fun p => .parameter p.1 p.2 := by
  cases depth with
  | zero => rfl
  | succ depth =>
    cases body with
    | arr items =>
      match items with
      | [i, j] =>
        have hsite : Site.decode (depth + 2) (.obj [("Parameter", .arr [i, j])]) =
            (NodeId.decode depth i).bind fun id =>
              (Decoder.index depth j).bind fun n => some (.parameter id n) := rfl
        have hpair : (pair (nodeId .method) index).decode (depth + 1) (.arr [i, j]) =
            (NodeId.decode depth i).bind fun id =>
              (Decoder.index depth j).bind fun n => some (id, n) := rfl
        rw [hsite, hpair]
        cases (NodeId.decode depth i : Option MethodId) with
        | none => rfl
        | some id => cases Decoder.index depth j <;> rfl
      | [] => rfl
      | [_] => rfl
      | _ :: _ :: _ :: _ => rfl
    | _ => rfl

theorem faithful_site : site.Faithful
  | 0 => faithfulAt_zero (fun _ => rfl) fun s => by cases s <;> exact Nat.succ_pos _
  | depth + 1 => {
    writable := fun {s} hs hdepth => by
      cases s with
      | type id => exact writable_tagged (faithful_nodeId _ depth) hs hdepth
      | method id => exact writable_tagged (faithful_nodeId _ depth) hs hdepth
      | field id => exact writable_tagged (faithful_nodeId _ depth) hs hdepth
      | parameter id position =>
        exact writable_tagged (((faithful_nodeId _).pair faithful_index) depth) hs hdepth
    decode_iff := fun {s y} hs => by
      have hid {sort : NodeSort} (id : NodeId sort) : True ↔ (nodeId sort).Finite id :=
        iff_of_true trivial ⟨trivial, trivial, trivial⟩
      cases s with
      | type id => exact tagged_iff (faithful_nodeId _ depth) hs (hid id)
      | method id => exact tagged_iff (faithful_nodeId _ depth) hs (hid id)
      | field id => exact tagged_iff (faithful_nodeId _ depth) hs (hid id)
      | parameter id position =>
        have hread : site.decode (depth + 1) (site.toJson (.parameter id position)) = _ :=
          decode_parameter depth _
        rw [hread]
        exact tagged_iff (((faithful_nodeId .method).pair faithful_index) depth) hs
          (iff_of_true trivial ⟨(hid id).1 trivial, trivial⟩)
    holds := fun {j s} hj hs => by
      cases j with
      | obj members =>
        match members, hj, hs with
        | [], _, hs => cases hs
        | _ :: _ :: _, _, hs => cases hs
        | [(kind, body)], hj, hs =>
          have hbody : body.Leaves Json.Readable := hj.1
          by_cases hparameter : kind = "Parameter"
          · subst hparameter
            exact holds_tagged ((faithful_nodeId .method).pair faithful_index depth) hbody
              ((decode_parameter depth body).symm.trans hs) fun hvalid _ => ⟨hvalid, trivial⟩
          simp only [site, Site.decode] at hs
          split at hs
          · exact holds_tagged (faithful_nodeId _ depth) hbody hs fun hvalid _ => ⟨hvalid, trivial⟩
          · exact holds_tagged (faithful_nodeId _ depth) hbody hs fun hvalid _ => ⟨hvalid, trivial⟩
          · exact holds_tagged (faithful_nodeId _ depth) hbody hs fun hvalid _ => ⟨hvalid, trivial⟩
          · exact absurd rfl hparameter
          · cases hs
      | _ => cases hs }

/-! ## Nodes -/

theorem faithful_ids (sort : NodeSort) : (nodeId sort).list.Faithful := (faithful_nodeId sort).list

/-- The fields of a declared type. -/
def typeRow :
    Row (String × ClassKind × Origin × Factory × List MethodId × List FieldId × List UseId × Unit) :=
  .cons "qualified_name" text none <| .cons "kind" kind none <| .cons "origin" origin none <|
    .cons "factory" factory none <| .cons "methods" (nodeId .method).list none <|
    .cons "fields" (nodeId .field).list none <| .cons "annotations" (nodeId .use).list none .nil

/-- The form of declared types. -/
def typeNode : Form TypeNode :=
  ofRow typeRow (fun n => (n.name, n.kind, n.origin, n.factory, n.methods, n.fields, n.annotations, ()))
    TypeNode.toJson TypeNode.decode

theorem isRecord_typeNode : IsRecord typeRow
    (fun n : TypeNode => (n.name, n.kind, n.origin, n.factory, n.methods, n.fields, n.annotations, ()))
    (fun t => ⟨t.1, t.2.1, t.2.2.1, t.2.2.2.1, t.2.2.2.2.1, t.2.2.2.2.2.1, t.2.2.2.2.2.2.1⟩) 7
    TypeNode.toJson TypeNode.decode where
  nodup := by decide
  make_view _ := rfl
  view_make _ := rfl
  toJson_eq _ := rfl
  decode_zero _ := rfl
  decode_succ depth j := bind_fields?_congr fun fields hlength =>
    match fields, hlength with
    | [_, _, _, _, _, _, _], _ => rfl

theorem faithful_typeNode : typeNode.Faithful :=
  isRecord_typeNode.faithful fun depth =>
    .required (faithful_text depth) <|
    .required (faithful_kind depth) <|
    .required (faithful_origin depth) <|
    .required (faithful_factory depth) <|
    .required (faithful_ids _ depth) <|
    .required (faithful_ids _ depth) <|
    .required (faithful_ids _ depth) trivial

/-- The fields of a parameter. -/
def parameterRow : Row (String × TypeReference × List UseId × Unit) :=
  .cons "name" text none <| .cons "typ" reference none <|
    .cons "annotations" (nodeId .use).list none .nil

/-- The form of parameters. -/
def parameterNode : Form ParameterNode :=
  ofRow parameterRow (fun n => (n.name, n.type, n.annotations, ())) ParameterNode.toJson
    ParameterNode.decode

theorem isRecord_parameterNode : IsRecord parameterRow
    (fun n : ParameterNode => (n.name, n.type, n.annotations, ())) (fun t => ⟨t.1, t.2.1, t.2.2.1⟩) 3
    ParameterNode.toJson ParameterNode.decode where
  nodup := by decide
  make_view _ := rfl
  view_make _ := rfl
  toJson_eq _ := rfl
  decode_zero _ := rfl
  decode_succ depth j := bind_fields?_congr fun fields hlength =>
    match fields, hlength with
    | [_, _, _], _ => rfl

theorem faithful_parameterNode : parameterNode.Faithful :=
  isRecord_parameterNode.faithful fun depth =>
    .required (faithful_text depth) <|
    .required (faithful_reference depth) <|
    .required (faithful_ids _ depth) trivial

/-- The fields of a declared field. -/
def fieldRow : Row (String × TypeId × TypeReference × List UseId × Unit) :=
  .cons "name" text none <| .cons "declaring_type" (nodeId .type) none <| .cons "typ" reference none <|
    .cons "annotations" (nodeId .use).list none .nil

/-- The form of declared fields. -/
def fieldNode : Form FieldNode :=
  ofRow fieldRow (fun n => (n.name, n.owner, n.type, n.annotations, ())) FieldNode.toJson
    FieldNode.decode

theorem isRecord_fieldNode : IsRecord fieldRow
    (fun n : FieldNode => (n.name, n.owner, n.type, n.annotations, ()))
    (fun t => ⟨t.1, t.2.1, t.2.2.1, t.2.2.2.1⟩) 4 FieldNode.toJson FieldNode.decode where
  nodup := by decide
  make_view _ := rfl
  view_make _ := rfl
  toJson_eq _ := rfl
  decode_zero _ := rfl
  decode_succ depth j := bind_fields?_congr fun fields hlength =>
    match fields, hlength with
    | [_, _, _, _], _ => rfl

theorem faithful_fieldNode : fieldNode.Faithful :=
  isRecord_fieldNode.faithful fun depth =>
    .required (faithful_text depth) <|
    .required (faithful_nodeId _ depth) <|
    .required (faithful_reference depth) <|
    .required (faithful_ids _ depth) trivial

/-- The fields of a declared method. -/
def methodNodeRow : Row (String × TypeId × List ParameterNode × Option Value × List UseId × Unit) :=
  .cons "name" text none <| .cons "declaring_type" (nodeId .type) none <|
    .cons "parameters" parameterNode.list none <| .cons "default_value" value.nullable (some none) <|
    .cons "annotations" (nodeId .use).list none .nil

/-- The form of declared methods. -/
def methodNode : Form MethodNode :=
  ofRow methodNodeRow (fun n => (n.name, n.owner, n.parameters, n.defaultValue, n.annotations, ()))
    MethodNode.toJson (MethodNode.decode .text)

theorem isRecord_methodNode : IsRecord methodNodeRow
    (fun n : MethodNode => (n.name, n.owner, n.parameters, n.defaultValue, n.annotations, ()))
    (fun t => ⟨t.1, t.2.1, t.2.2.1, t.2.2.2.1, t.2.2.2.2.1⟩) 5 MethodNode.toJson
    (MethodNode.decode .text) where
  nodup := by decide
  make_view _ := rfl
  view_make _ := rfl
  toJson_eq n := by
    rw [MethodNode.toJson, optionalValueToJson_eq]
    rfl
  decode_zero _ := rfl
  decode_succ depth j := bind_fields?_congr fun fields hlength =>
    match fields, hlength with
    | [_, _, _, _, _], _ => rfl

theorem faithful_methodNode : methodNode.Faithful :=
  isRecord_methodNode.faithful fun depth =>
    .required (faithful_text depth) <|
    .required (faithful_nodeId _ depth) <|
    .required (faithful_parameterNode.list depth) <|
    .optional (faithful_optionalValue depth) (holds_none _).1 (holds_none _).2 <|
    .required (faithful_ids _ depth) trivial

theorem valuesToJson_eq (values : Option (Entries Value)) :
    UseNode.valuesToJson values = value.entries.nullable.toJson values := by
  cases values with
  | none => rfl
  | some values => exact congrArg Json.obj (Value.entriesToJson_eq values)

/-- The fields of a use. -/
def useRow : Row (TypeReference × Site × Option (Entries Value) × Unit) :=
  .cons "annotation_type" reference none <| .cons "parent" site none <|
    .cons "source_values" value.entries.nullable (some none) .nil

/-- The form of annotation uses. -/
def useNode : Form UseNode :=
  ofRow useRow (fun n => (n.annotationType, n.site, n.sourceValues, ())) UseNode.toJson
    (UseNode.decode .text)

theorem isRecord_useNode : IsRecord useRow
    (fun n : UseNode => (n.annotationType, n.site, n.sourceValues, ()))
    (fun t => ⟨t.1, t.2.1, t.2.2.1⟩) 3 UseNode.toJson (UseNode.decode .text) where
  nodup := by decide
  make_view _ := rfl
  view_make _ := rfl
  toJson_eq n := by
    rw [UseNode.toJson, valuesToJson_eq]
    rfl
  decode_zero _ := rfl
  decode_succ depth j := by
    refine bind_fields?_congr fun fields hlength => ?_
    rw [Value.decodeEntries_eq]
    match fields, hlength with
    | [_, _, _], _ => rfl

theorem faithful_useNode : useNode.Faithful :=
  isRecord_useNode.faithful fun depth =>
    .required (faithful_reference depth) <|
    .required (faithful_site depth) <|
    .optional ((faithfulValues depth).tables.nullable fun _ => nofun) (holds_none _).1
      (holds_none _).2 trivial

end Form

end AnnotationLookup
