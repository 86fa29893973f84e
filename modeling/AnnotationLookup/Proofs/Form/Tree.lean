import AnnotationLookup.Proofs.Form.Records

/-!
# Forms of trees

* `Form.ReadAt`: another decoder reads what is written in a form as the form does;
* **`Tree.decode_embedded`**: what is read of the document of a tree does not depend on the medium;
* `Form.via`: a type that is another one in all but its name;
* `Form.arena`, `Form.namedArena`: arenas slot by slot, with the free ones, and an index of names;
* `Form.parts`: a tree without its identity;
* **`Tree.decode_toJson_iff`**: what is read of the document of a tree.
-/

namespace AnnotationLookup

/-! ## Media -/

namespace Form

variable {α : Type}

/-- The decoder reads what is written in the form as the form does, where so many containers may still
be opened. -/
def ReadAt (F : Form α) (depth : Nat) (d : Decoder α) : Prop :=
  ∀ x, d depth (F.toJson x) = F.decode depth (F.toJson x)

theorem mapM_congr {γ : Type} {d d' : γ → Option α} {js : List γ} (h : ∀ j ∈ js, d j = d' j) :
    js.mapM d = js.mapM d' := by
  induction js with
  | nil => rfl
  | cons j js ih =>
    rw [List.forall_mem_cons] at h
    rw [List.mapM_cons, List.mapM_cons, h.1, ih h.2]

variable {F : Form α} {depth : Nat} {d : Decoder α}

theorem ReadAt.list (h : F.ReadAt depth d) : F.list.ReadAt (depth + 1) (Decoder.list d) := fun _ =>
  mapM_congr (List.forall_mem_map.2 fun x _ => h x)

theorem ReadAt.entries (h : F.ReadAt depth d) : F.entries.ReadAt (depth + 1) (Decoder.entries d) :=
  fun es => by
    refine congrArg (Option.map Entries.ofList) (mapM_congr (List.forall_mem_map.2 fun p _ => ?_))
    exact congrArg (Option.map (p.1, ·)) (h p.2)

theorem ReadAt.nullable (h : F.ReadAt depth d) (hnull : ∀ x, F.toJson x ≠ .null) :
    F.nullable.ReadAt depth (Decoder.nullable d) := fun o => by
  cases o with
  | none => rfl
  | some x =>
    have hread := congrArg (Option.map some) (h x)
    rwa [← Decoder.nullable_of_ne_null (hnull x), ← Decoder.nullable_of_ne_null (hnull x)] at hread

theorem ReadAt.items (h : value.ReadAt depth (Value.decode .embedded)) (items : List Value) :
    Value.decodeItems .embedded (depth + 1) (.arr (Value.itemsToJson items)) =
      Value.decodeItems .text (depth + 1) (.arr (Value.itemsToJson items)) := by
  rw [Value.decodeItems_eq, Value.decodeItems_eq, Value.itemsToJson_eq]
  exact h.list items

theorem ReadAt.tables (h : value.ReadAt depth (Value.decode .embedded)) (values : Entries Value) :
    Value.decodeEntries .embedded (depth + 1) (.obj (Value.entriesToJson values)) =
      Value.decodeEntries .text (depth + 1) (.obj (Value.entriesToJson values)) := by
  rw [Value.decodeEntries_eq, Value.decodeEntries_eq, Value.entriesToJson_eq]
  exact h.entries values

/-- Enum constants are written by name, and so both media read them. -/
theorem readAt_value (depth : Nat) : value.ReadAt depth (Value.decode .embedded) := by
  induction depth using Nat.strongRecOn with
  | ind depth ih =>
    intro v
    match depth, v with
    | 0, _ => rfl
    | depth + 1, .enumConstant typeName constant => cases depth <;> rfl
    | 1, .array items => rfl
    | depth + 2, .array items =>
      exact congrArg (Option.map Value.array) ((ih depth (by omega)).items items)
    | 1, .nested ⟨typeName, values⟩ => rfl
    | 2, .nested ⟨typeName, values⟩ => rfl
    | depth + 3, .nested ⟨typeName, values⟩ =>
      exact congrArg (fun o => (o.map (AnnotationRecord.mk typeName)).map Value.nested)
        ((ih depth (by omega)).tables values)
    | _ + 1, .boolean _ | _ + 1, .int _ | _ + 1, .float _ | _ + 1, .char _ | _ + 1, .string _
    | _ + 1, .classRef _ => rfl

theorem readAt_tables : (depth : Nat) → value.entries.ReadAt depth (Value.decodeEntries .embedded)
  | 0 => fun _ => rfl
  | depth + 1 => fun values => by
    rw [Value.decodeEntries_eq]
    exact (readAt_value depth).entries values

theorem readAt_methodNode : (depth : Nat) → methodNode.ReadAt depth (MethodNode.decode .embedded)
  | 0 => fun _ => rfl
  | depth + 1 => fun m => by
    have hdefault : Decoder.nullable (Value.decode .embedded) depth
          (optionalValueToJson m.defaultValue) =
        Decoder.nullable (Value.decode .text) depth (optionalValueToJson m.defaultValue) := by
      rw [optionalValueToJson_eq]
      exact (readAt_value depth).nullable (fun v => by cases v <;> exact nofun) m.defaultValue
    have hread (medium : Medium) := MethodNode.decode_toJson medium depth m
    exact (hread .embedded).trans (hdefault ▸ (hread .text).symm)

theorem readAt_useNode : (depth : Nat) → useNode.ReadAt depth (UseNode.decode .embedded)
  | 0 => fun _ => rfl
  | depth + 1 => fun u => by
    have hvalues : Decoder.nullable (Value.decodeEntries .embedded) depth
          (UseNode.valuesToJson u.sourceValues) =
        Decoder.nullable (Value.decodeEntries .text) depth
          (UseNode.valuesToJson u.sourceValues) := by
      rw [valuesToJson_eq, Value.decodeEntries_eq .text]
      exact (readAt_tables depth).nullable (fun _ => nofun) u.sourceValues
    have hread (medium : Medium) := UseNode.decode_toJson medium depth u
    exact (hread .embedded).trans (hvalues ▸ (hread .text).symm)

/-! ## Arenas -/

section Arenas

variable {β : Type}

/-- A type that is another one in all but its name. -/
def via (F : Form β) (view : α → β) (make : β → α) : Form α where
  toJson x := F.toJson (view x)
  decode depth j := (F.decode depth j).map make
  Valid x := F.Valid (view x)
  Finite x := F.Finite (view x)

theorem FaithfulAt.via {F : Form β} (h : F.FaithfulAt depth) {view : α → β} {make : β → α}
    (hmake : ∀ x, make (view x) = x) (hview : ∀ y, view (make y) = y) :
    (F.via view make).FaithfulAt depth where
  writable hx hdepth := h.writable hx hdepth
  decode_iff {x y} hx := by
    simp only [Form.via, Option.map_eq_some_iff, h.decode_iff hx]
    constructor
    · rintro ⟨_, ⟨rfl, hok⟩, rfl⟩
      exact ⟨hmake x, hok⟩
    · rintro ⟨rfl, hok⟩
      exact ⟨view y, ⟨rfl, hok⟩, hmake y⟩
  holds {j x} hj hx := by
    obtain ⟨y, hy, rfl⟩ := Option.map_eq_some_iff.1 hx
    simp only [Form.via, hview]
    exact h.holds hj hy

/-- What an occupied slot holds, after the place of a generation. -/
def occupied (F : Form α) : Form α := (pair nothing F).via (fun x => ((), x)) (·.2)

theorem faithful_occupied (h : F.Faithful) : (occupied F).Faithful := fun depth =>
  (faithful_nothing.pair h depth).via (fun _ => rfl) fun _ => rfl

theorem decodeOccupied_eq (F : Form α) : Arena.decodeOccupied F.decode = (occupied F).decode := by
  funext depth j
  cases depth with
  | zero => rfl
  | succ depth =>
    cases j with
    | arr items =>
      match items with
      | [.null, body] =>
        have hread : (occupied F).decode (depth + 1) (.arr [.null, body]) =
            ((F.decode depth body).bind fun x => some ((), x)).map (·.2) := rfl
        rw [hread, Option.map_bind]
        exact (Option.bind_fun_some _).symm
      | [] => rfl
      | [i] => cases i <;> rfl
      | i :: _ :: _ :: _ => cases i <;> rfl
      | [.bool _, _] | [.int _, _] | [.float _, _] | [.str _, _] | [.arr _, _] | [.obj _, _]
      | [.undefined, _] => rfl
    | _ => rfl

theorem slotToJson_eq (F : Form α) : Arena.slotToJson F.toJson = (occupied F).nullable.toJson := by
  funext slot
  cases slot <;> rfl

/-- The slots in order, of which the free ones are written as well. -/
def arena (F : Form α) : Form (Arena α) where
  toJson := Arena.toJson F.toJson
  decode := Arena.decode F.decode
  Valid a := ∀ slot ∈ a.slots, ∀ x ∈ slot, F.Valid x
  Finite a := ∀ slot ∈ a.slots, ∀ x ∈ slot, F.Finite x

theorem arena_eq (F : Form α) :
    arena F = (occupied F).nullable.list.via Arena.slots Arena.mk := by
  rw [arena, Form.mk.injEq]
  refine ⟨?_, ?_, ?_⟩
  · funext a
    rw [Arena.toJson, slotToJson_eq]
    rfl
  · funext depth j
    rw [Arena.decode, decodeOccupied_eq]
    rfl
  · simp [via, list, nullable, occupied, pair, nothing]

theorem faithful_arena (h : F.Faithful) : (arena F).Faithful := fun depth => by
  rw [arena_eq]
  cases depth with
  | zero => exact faithfulAt_zero (fun _ => rfl) fun _ => Nat.succ_pos _
  | succ depth =>
    exact ((faithful_occupied h depth).nullable fun _ => nofun).list.via (fun _ => rfl) fun _ => rfl

theorem readAt_occupied (h : ∀ depth, F.ReadAt depth d) :
    (depth : Nat) → (occupied F).ReadAt depth (Arena.decodeOccupied d)
  | 0 => fun _ => rfl
  | depth + 1 => fun x => by
    rw [← decodeOccupied_eq]
    exact h depth x

theorem readAt_arena (h : ∀ depth, F.ReadAt depth d) :
    (depth : Nat) → (arena F).ReadAt depth (Arena.decode d)
  | 0 => fun _ => rfl
  | depth + 1 => fun a => by
    have hslots := ((readAt_occupied h depth).nullable fun _ => nofun).list a.slots
    rw [arena_eq]
    exact congrArg (Option.map Arena.mk) hslots

/-- The index of an arena of types, which leads from names to ids. -/
def nameIndex : Form (Entries Nat) :=
  entries ((nodeId .type).via NodeId.mk NodeId.index)

theorem faithful_nameIndex : nameIndex.Faithful
  | 0 => faithfulAt_zero (fun _ => rfl) fun _ => Nat.succ_pos _
  | depth + 1 => ((faithful_nodeId .type depth).via (fun _ => rfl) fun _ => rfl).entries

/-- The fields of an arena with an index. -/
def namedArenaRow (F : Form α) : Row (Arena α × Entries Nat × Unit) :=
  .cons "values" (arena F) none <| .cons "by_name" nameIndex none .nil

/-- The form of arenas with an index. -/
def namedArena (F : Form α) : Form (NamedArena α) :=
  ofRow (namedArenaRow F) (fun a => (a.values, a.byName, ())) (NamedArena.toJson F.toJson)
    (NamedArena.decode F.decode)

theorem isRecord_namedArena (F : Form α) : IsRecord (namedArenaRow F)
    (fun a : NamedArena α => (a.values, a.byName, ())) (fun t => ⟨t.1, t.2.1⟩) 2
    (NamedArena.toJson F.toJson) (NamedArena.decode F.decode) where
  nodup := (by decide : ["values", "by_name"].Nodup)
  make_view _ := rfl
  view_make _ := rfl
  toJson_eq _ := rfl
  decode_zero _ := rfl
  decode_succ depth j := bind_fields?_congr fun fields hlength =>
    match fields, hlength with
    | [_, _], _ => rfl

theorem faithful_namedArena (h : F.Faithful) : (namedArena F).Faithful :=
  (isRecord_namedArena F).faithful fun depth =>
    .required (faithful_arena h depth) <| .required (faithful_nameIndex depth) trivial

end Arenas

/-! ## Trees -/

/-- What there is in a tree besides its identity. -/
abbrev Parts : Type :=
  NamedArena TypeNode × Arena MethodNode × Arena FieldNode × Arena UseNode × Unit

/-- The fields of a tree. -/
def treeRow : Row Parts :=
  .cons "types" (namedArena typeNode) none <| .cons "methods" (arena methodNode) none <|
    .cons "fields" (arena fieldNode) none <| .cons "annotation_uses" (arena useNode) none .nil

/-- A tree without its identity. -/
def parts : Form Parts :=
  ofRow treeRow id (fun p => .obj (treeRow.members p)) fun
    | 0, _ => none
    | depth + 1, j => (j.fields? treeRow.names 4).bind fun fields => treeRow.decode depth fields some

theorem faithful_parts : parts.Faithful := by
  have hrecord : IsRecord treeRow id id 4 parts.toJson parts.decode := {
    nodup := by decide
    make_view := fun _ => rfl
    view_make := fun _ => rfl
    toJson_eq := fun _ => rfl
    decode_zero := fun _ => rfl
    decode_succ := fun _ _ => rfl }
  exact hrecord.faithful fun depth =>
    .required (faithful_namedArena faithful_typeNode depth) <|
    .required (faithful_arena faithful_methodNode depth) <|
    .required (faithful_arena faithful_fieldNode depth) <|
    .required (faithful_arena faithful_useNode depth) trivial

end Form

namespace Tree

/-- All of the tree but its identity. -/
def parts (t : Tree) : Form.Parts := (t.types, t.methods, t.fields, t.uses, ())

/-- The tree of an identity and the other parts. -/
def ofParts (id : TreeId) (p : Form.Parts) : Tree := ⟨id, p.1, p.2.1, p.2.2.1, p.2.2.2.1⟩

theorem toJson_eq (t : Tree) : t.toJson = Form.parts.toJson t.parts := rfl

theorem decode_text (id : TreeId) (depth : Nat) (j : Json) :
    decode .text id depth j = (Form.parts.decode depth j).map (ofParts id) := by
  cases depth with
  | zero => rfl
  | succ depth =>
    have hread : decode .text id (depth + 1) j =
        (j.fields? Form.treeRow.names 4).bind fun fields =>
          Form.treeRow.decode depth fields fun p => some (ofParts id p) :=
      bind_fields?_congr fun fields hlength =>
        match fields, hlength with
        | [_, _, _, _], _ => rfl
    have hparts : Form.parts.decode (depth + 1) j =
        (j.fields? Form.treeRow.names 4).bind fun fields => Form.treeRow.decode depth fields some := rfl
    rw [hread, hparts, Option.map_bind]
    refine congrArg (Option.bind _) (funext fun fields => ?_)
    rw [Row.decode_eq_bind]
    exact Option.map_eq_bind.symm

/-- The document of a tree is read alike in both media. -/
theorem decode_embedded (id : TreeId) (depth : Nat) (t : Tree) :
    decode .embedded id depth t.toJson = decode .text id depth t.toJson := by
  cases depth with
  | zero => rfl
  | succ depth =>
    have hmethods : Arena.decode (MethodNode.decode .embedded) depth
          (t.methods.toJson MethodNode.toJson) =
        Arena.decode (MethodNode.decode .text) depth (t.methods.toJson MethodNode.toJson) :=
      Form.readAt_arena Form.readAt_methodNode depth t.methods
    have huses : Arena.decode (UseNode.decode .embedded) depth (t.uses.toJson UseNode.toJson) =
        Arena.decode (UseNode.decode .text) depth (t.uses.toJson UseNode.toJson) :=
      Form.readAt_arena Form.readAt_useNode depth t.uses
    rw [decode_toJson, decode_toJson, hmethods, huses]

/-- **What is read of the document of a tree** is the tree with another identity, if its numbers are
finite and as many containers may be opened as it has. -/
theorem decode_toJson_iff {t t' : Tree} (h : Form.parts.Valid t.parts) {medium : Medium} {id : TreeId}
    {depth : Nat} : decode medium id depth t.toJson = some t' ↔
      t' = { t with id } ∧ Form.parts.Finite t.parts ∧ t.toJson.depth ≤ depth := by
  have hmedium : decode medium id depth t.toJson = decode .text id depth t.toJson := by
    cases medium with
    | text => rfl
    | embedded => exact t.decode_embedded id depth
  rw [hmedium, decode_text, Option.map_eq_some_iff, toJson_eq]
  simp only [(Form.faithful_parts depth).decode_iff h]
  constructor
  · rintro ⟨_, ⟨rfl, hok⟩, rfl⟩
    exact ⟨rfl, hok⟩
  · rintro ⟨rfl, hok⟩
    exact ⟨t.parts, ⟨rfl, hok⟩, rfl⟩

end Tree

end AnnotationLookup
