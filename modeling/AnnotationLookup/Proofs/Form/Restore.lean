import AnnotationLookup.Form.Tree
import AnnotationLookup.Proofs.Tree.Mirror

/-!
# Copies of declaration trees

What a decoder makes of the document of something is that thing again, or nothing: a tree with a
number that no document can hold is refused as a whole. Default values and source values are left
aside here.

* `Decoder.Restores`, `Decoder.RestoresUpTo`: a decoder gives back what was written;
* `TypeNode.decode_toJson` and the like: what is read where a record was written, field by field;
* **`Tree.mirrors_of_decode`**: a copy mirrors its original.
-/

namespace AnnotationLookup

/-! ## Parts of documents -/

/-- If the decoder makes something of what `f` writes, it is what was written as far as `view`
tells. -/
def Decoder.RestoresUpTo {α β : Type} (view : α → β) (d : Decoder α) (f : α → Json) : Prop :=
  ∀ depth x y, d depth (f x) = some y → view y = view x

/-- If the decoder makes something of what `f` writes, it is what was written. -/
def Decoder.Restores {α : Type} (d : Decoder α) (f : α → Json) : Prop :=
  ∀ depth x y, d depth (f x) = some y → y = x

namespace Decoder

variable {α β : Type} {d : Decoder α} {f : α → Json} {view : α → β}

theorem Restores.upTo (h : Restores d f) (view : α → β) : RestoresUpTo view d f :=
  fun depth x y hy => congrArg view (h depth x y hy)

theorem restores_natBelow (bound : Nat) : Restores (natBelow bound) fun n : Nat => .int n := by
  intro depth n n' h
  exact (Option.some.inj (Option.filter_eq_some_iff.1 h).1).symm

theorem map_eq_of_mapM {γ δ : Type} {d : γ → Option α} {f : δ → γ} {view : α → β} {view' : δ → β}
    (h : ∀ x y, d (f x) = some y → view y = view' x) {xs : List δ} {ys : List α}
    (hys : (xs.map f).mapM d = some ys) : ys.map view = xs.map view' := by
  induction xs generalizing ys with
  | nil =>
    cases hys
    rfl
  | cons x xs ih =>
    rw [List.map_cons, List.mapM_cons] at hys
    simp only [Option.bind_eq_bind, Option.bind_eq_some_iff] at hys
    obtain ⟨y, hy, ys, hys, ⟨⟩⟩ := hys
    rw [List.map_cons, List.map_cons, h x y hy, ih hys]

theorem RestoresUpTo.list (h : RestoresUpTo view d f) :
    RestoresUpTo (List.map view) (Decoder.list d) fun xs => .arr (xs.map f) := by
  intro depth xs ys hys
  cases depth with
  | zero => cases hys
  | succ depth => exact map_eq_of_mapM (h depth) hys

theorem Restores.list (h : Restores d f) :
    Restores (Decoder.list d) fun xs => .arr (xs.map f) := by
  intro depth xs ys hys
  simpa using (h.upTo id).list depth xs ys hys

theorem nullable_of_ne_null {j : Json} (h : j ≠ .null) (depth : Nat) :
    Decoder.nullable d depth j = (d depth j).map some := by
  cases j with
  | null => exact absurd rfl h
  | _ => rfl

end Decoder

/-! ## Nodes -/

open Decoder (Restores RestoresUpTo)

theorem Factory.restores : Restores Factory.decode Factory.toJson := by
  rintro depth ⟨n⟩ y h
  obtain ⟨m, hm, rfl⟩ := Option.map_eq_some_iff.1 h
  obtain ⟨k, hk, rfl⟩ := Option.map_eq_some_iff.1 hm
  obtain rfl : k = n.toNat := Decoder.restores_natBelow _ depth n.toNat k hk
  simp

theorem TypeReference.decode_toJson (depth : Nat) (r : TypeReference) :
    decode (depth + 1) r.toJson = (do
      some { name := r.name, factory := ← Factory.decode depth r.factory.toJson }) := by
  rfl

theorem TypeReference.restores :
    Restores TypeReference.decode TypeReference.toJson := by
  intro depth r s h
  cases depth with
  | zero => cases h
  | succ depth =>
    rw [decode_toJson] at h
    simp only [Option.bind_eq_bind, Option.bind_eq_some_iff, Option.some.injEq] at h
    obtain ⟨factory, hfactory, rfl⟩ := h
    rw [Factory.restores _ _ _ hfactory]

theorem NodeId.decode_toJson {sort : NodeSort} (depth : Nat) (id : NodeId sort) :
    (decode (depth + 1) id.toJson : Option (NodeId sort)) = (do
      some ⟨← Decoder.index depth (.int id.index)⟩) := by
  rfl

theorem NodeId.restores {sort : NodeSort} :
    Restores (NodeId.decode : Decoder (NodeId sort)) NodeId.toJson := by
  intro depth id y h
  cases depth with
  | zero => cases h
  | succ depth =>
    rw [decode_toJson] at h
    simp only [Option.bind_eq_bind, Option.bind_eq_some_iff, Option.some.injEq] at h
    obtain ⟨index, hindex, rfl⟩ := h
    rw [Decoder.restores_natBelow _ _ _ _ hindex]

theorem restores_ids {sort : NodeSort} :
    Restores (Decoder.list (NodeId.decode : Decoder (NodeId sort))) idsToJson :=
  NodeId.restores.list

theorem Site.restores : Restores Site.decode Site.toJson := by
  intro depth site y h
  cases depth with
  | zero => cases site <;> cases h
  | succ depth =>
    cases site with
    | type id =>
      obtain ⟨i, hi, rfl⟩ := Option.map_eq_some_iff.1 h
      rw [NodeId.restores _ _ _ hi]
    | method id =>
      obtain ⟨i, hi, rfl⟩ := Option.map_eq_some_iff.1 h
      rw [NodeId.restores _ _ _ hi]
    | field id =>
      obtain ⟨i, hi, rfl⟩ := Option.map_eq_some_iff.1 h
      rw [NodeId.restores _ _ _ hi]
    | parameter id position =>
      cases depth with
      | zero => cases h
      | succ depth =>
        simp only [decode, toJson, Option.bind_eq_bind, Option.bind_eq_some_iff,
          Option.some.injEq] at h
        obtain ⟨i, hi, n, hn, rfl⟩ := h
        rw [NodeId.restores _ _ _ hi, Decoder.restores_natBelow _ _ _ _ hn]

theorem ClassKind.restores : Restores ClassKind.decode ClassKind.toJson := by
  intro depth kind y h
  cases kind <;> cases h <;> rfl

theorem Origin.restores : Restores Origin.decode Origin.toJson := by
  intro depth origin y h
  cases origin <;> cases h <;> rfl

theorem TypeNode.decode_toJson (depth : Nat) (n : TypeNode) :
    decode (depth + 1) n.toJson = (do
      some {
        name := n.name
        kind := ← ClassKind.decode depth n.kind.toJson
        origin := ← Origin.decode depth n.origin.toJson
        factory := ← Factory.decode depth n.factory.toJson
        methods := ← Decoder.list NodeId.decode depth (idsToJson n.methods)
        fields := ← Decoder.list NodeId.decode depth (idsToJson n.fields)
        annotations := ← Decoder.list NodeId.decode depth (idsToJson n.annotations) }) := by
  rfl

theorem TypeNode.restores : Restores TypeNode.decode TypeNode.toJson := by
  intro depth n y h
  cases depth with
  | zero => cases h
  | succ depth =>
    rw [decode_toJson] at h
    simp only [Option.bind_eq_bind, Option.bind_eq_some_iff, Option.some.injEq] at h
    obtain ⟨kind, hkind, origin, horigin, factory, hfactory, methods, hmethods, fields,
      hfields, annotations, hannotations, rfl⟩ := h
    rw [ClassKind.restores _ _ _ hkind, Origin.restores _ _ _ horigin,
      Factory.restores _ _ _ hfactory, restores_ids _ _ _ hmethods, restores_ids _ _ _ hfields,
      restores_ids _ _ _ hannotations]

theorem ParameterNode.decode_toJson (depth : Nat) (p : ParameterNode) :
    decode (depth + 1) p.toJson = (do
      some {
        name := p.name
        type := ← TypeReference.decode depth p.type.toJson
        annotations := ← Decoder.list NodeId.decode depth (idsToJson p.annotations) }) := by
  rfl

theorem ParameterNode.restores :
    Restores ParameterNode.decode ParameterNode.toJson := by
  intro depth p y h
  cases depth with
  | zero => cases h
  | succ depth =>
    rw [decode_toJson] at h
    simp only [Option.bind_eq_bind, Option.bind_eq_some_iff, Option.some.injEq] at h
    obtain ⟨type, htype, annotations, hannotations, rfl⟩ := h
    rw [TypeReference.restores _ _ _ htype, restores_ids _ _ _ hannotations]

theorem FieldNode.decode_toJson (depth : Nat) (n : FieldNode) :
    decode (depth + 1) n.toJson = (do
      some {
        name := n.name
        owner := ← NodeId.decode depth n.owner.toJson
        type := ← TypeReference.decode depth n.type.toJson
        annotations := ← Decoder.list NodeId.decode depth (idsToJson n.annotations) }) := by
  rfl

theorem FieldNode.restores : Restores FieldNode.decode FieldNode.toJson := by
  intro depth n y h
  cases depth with
  | zero => cases h
  | succ depth =>
    rw [decode_toJson] at h
    simp only [Option.bind_eq_bind, Option.bind_eq_some_iff, Option.some.injEq] at h
    obtain ⟨owner, howner, type, htype, annotations, hannotations, rfl⟩ := h
    rw [NodeId.restores _ _ _ howner, TypeReference.restores _ _ _ htype,
      restores_ids _ _ _ hannotations]

theorem MethodNode.decode_toJson (medium : Medium) (depth : Nat) (m : MethodNode) :
    decode medium (depth + 1) m.toJson = (do
      some {
        name := m.name
        owner := ← NodeId.decode depth m.owner.toJson
        parameters := ← Decoder.list ParameterNode.decode depth
          (.arr (m.parameters.map ParameterNode.toJson))
        defaultValue := ← Decoder.nullable (Value.decode medium) depth
          (optionalValueToJson m.defaultValue)
        annotations := ← Decoder.list NodeId.decode depth (idsToJson m.annotations) }) := by
  rfl

theorem MethodNode.restoresUpTo (medium : Medium) :
    RestoresUpTo MethodNode.signatureOnly (MethodNode.decode medium) MethodNode.toJson := by
  intro depth m y h
  cases depth with
  | zero => cases h
  | succ depth =>
    rw [decode_toJson] at h
    simp only [Option.bind_eq_bind, Option.bind_eq_some_iff, Option.some.injEq] at h
    obtain ⟨owner, howner, parameters, hparameters, defaultValue, -, annotations,
      hannotations, rfl⟩ := h
    simp only [signatureOnly]
    rw [NodeId.restores _ _ _ howner, ParameterNode.restores.list _ _ _ hparameters,
      restores_ids _ _ _ hannotations]

theorem UseNode.decode_toJson (medium : Medium) (depth : Nat) (u : UseNode) :
    decode medium (depth + 1) u.toJson = (do
      some {
        annotationType := ← TypeReference.decode depth u.annotationType.toJson
        site := ← Site.decode depth u.site.toJson
        sourceValues := ← Decoder.nullable (Value.decodeEntries medium) depth
          (valuesToJson u.sourceValues) }) := by
  rfl

theorem UseNode.restoresUpTo (medium : Medium) :
    RestoresUpTo UseNode.placeOnly (UseNode.decode medium) UseNode.toJson := by
  intro depth u y h
  cases depth with
  | zero => cases h
  | succ depth =>
    rw [decode_toJson] at h
    simp only [Option.bind_eq_bind, Option.bind_eq_some_iff, Option.some.injEq] at h
    obtain ⟨annotationType, htype, site, hsite, sourceValues, -, rfl⟩ := h
    simp only [placeOnly]
    rw [TypeReference.restores _ _ _ htype, Site.restores _ _ _ hsite]

/-! ## Arenas -/

namespace Arena

variable {α β : Type} {d : Decoder α} {f : α → Json} {view : α → β}

theorem restoresUpTo (h : RestoresUpTo view d f) :
    RestoresUpTo (viewSlots view) (Arena.decode d) (Arena.toJson f) := by
  have hslot : RestoresUpTo (Option.map view) (Decoder.nullable (decodeOccupied d)) (slotToJson f) := by
    intro depth slot slot' hslot'
    cases slot with
    | none =>
      cases hslot'
      rfl
    | some x =>
      rw [slotToJson, Decoder.nullable_of_ne_null (by simp)] at hslot'
      obtain ⟨y, hy, rfl⟩ := Option.map_eq_some_iff.1 hslot'
      cases depth with
      | zero => cases hy
      | succ depth => exact congrArg some (h depth x y hy)
  intro depth a b hb
  obtain ⟨slots, hslots, rfl⟩ := Option.map_eq_some_iff.1 hb
  exact hslot.list depth a.slots slots hslots

theorem restores (h : Restores d f) : Restores (Arena.decode d) (Arena.toJson f) := by
  intro depth a b hb
  have hslots : viewSlots id b = viewSlots id a := restoresUpTo (h.upTo id) depth a b hb
  have hid (c : Arena α) : viewSlots id c = c.slots := by simp [viewSlots]
  rw [hid, hid] at hslots
  cases a
  cases b
  exact congrArg Arena.mk hslots

end Arena

theorem NamedArena.decodeIndex_indexToJson {index index' : Entries Nat} {depth : Nat}
    (hsorted : Entries.Sorted index) (h : decodeIndex depth (indexToJson index) = some index') :
    index' = index := by
  cases depth with
  | zero => cases h
  | succ depth =>
    obtain ⟨pairs, hpairs, rfl⟩ := Option.map_eq_some_iff.1 h
    have hrestored : pairs.map id = index.map id := by
      refine Decoder.map_eq_of_mapM (fun p q hq => ?_) hpairs
      obtain ⟨i, hi, rfl⟩ := Option.map_eq_some_iff.1 hq
      obtain ⟨id, hid, rfl⟩ := Option.map_eq_some_iff.1 hi
      rw [NodeId.restores _ _ _ hid]
    rw [List.map_id, List.map_id] at hrestored
    rw [hrestored, Entries.ofList_of_sorted hsorted]

theorem NamedArena.decode_toJson {α : Type} (d : Decoder α) (f : α → Json) (depth : Nat)
    (a : NamedArena α) :
    NamedArena.decode d (depth + 1) (a.toJson f) = (do
      some ⟨← Arena.decode d depth (a.values.toJson f),
        ← decodeIndex depth (indexToJson a.byName)⟩) := by
  rfl

/-- An arena is restored with its index of names, if these ascend. -/
theorem NamedArena.eq_of_decode {α : Type} {d : Decoder α} {f : α → Json} (h : Restores d f)
    {a b : NamedArena α} {depth : Nat} (hsorted : Entries.Sorted a.byName)
    (hb : NamedArena.decode d depth (a.toJson f) = some b) : b = a := by
  cases depth with
  | zero => cases hb
  | succ depth =>
    rw [decode_toJson] at hb
    simp only [Option.bind_eq_bind, Option.bind_eq_some_iff, Option.some.injEq] at hb
    obtain ⟨values, hvalues, byName, hbyName, rfl⟩ := hb
    rw [Arena.restores h _ _ _ hvalues, decodeIndex_indexToJson hsorted hbyName]

/-! ## Trees -/

namespace Tree

theorem decode_toJson (medium : Medium) (id : TreeId) (depth : Nat) (t : Tree) :
    decode medium id (depth + 1) t.toJson = (do
      some {
        id
        types := ← NamedArena.decode TypeNode.decode depth (t.types.toJson TypeNode.toJson)
        methods := ← Arena.decode (MethodNode.decode medium) depth (t.methods.toJson MethodNode.toJson)
        fields := ← Arena.decode FieldNode.decode depth (t.fields.toJson FieldNode.toJson)
        uses := ← Arena.decode (UseNode.decode medium) depth (t.uses.toJson UseNode.toJson) }) := by
  rfl

/-- **A copy mirrors its original**, in whatever medium it is read and however deep. -/
theorem mirrors_of_decode {t t' : Tree} {id : TreeId} {medium : Medium} {depth : Nat}
    (hsorted : Entries.Sorted t.types.byName) (h : decode medium id depth t.toJson = some t') :
    t.Mirrors t' := by
  cases depth with
  | zero => cases h
  | succ depth =>
    rw [decode_toJson] at h
    simp only [Option.bind_eq_bind, Option.bind_eq_some_iff, Option.some.injEq] at h
    obtain ⟨types, htypes, methods, hmethods, fields, hfields, uses, huses, rfl⟩ := h
    exact {
      types := NamedArena.eq_of_decode TypeNode.restores hsorted htypes
      methods := Arena.restoresUpTo (MethodNode.restoresUpTo _) _ _ _ hmethods
      fields := Arena.restores FieldNode.restores _ _ _ hfields
      uses := Arena.restoresUpTo (UseNode.restoresUpTo _) _ _ _ huses }

end Tree

end AnnotationLookup
