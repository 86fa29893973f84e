import AnnotationLookup.Tree.Basic

/-!
# Trees that mirror each other

* `Arena.viewSlots`: an arena as far as a view of its items tells;
* `Tree.Mirrors`: the same nodes in the same slots, up to default values and source values.
-/

namespace AnnotationLookup

namespace Arena

variable {α β : Type} {view : α → β} {a b : Arena α}

/-- What is seen in the slots. -/
def viewSlots (view : α → β) (a : Arena α) : List (Option β) := a.slots.map (Option.map view)

theorem map_get?_of_viewSlots (h : viewSlots view b = viewSlots view a) (i : Nat) :
    (b.get? i).map view = (a.get? i).map view := by
  have hjoin (c : Arena α) : (c.get? i).map view = ((viewSlots view c)[i]?).join := by
    rw [get?, viewSlots, List.getElem?_map]
    cases c.slots[i]? <;> rfl
  rw [hjoin, hjoin, h]

theorem viewSlots_modify (i : Nat) {f : α → α} (hf : ∀ x, view (f x) = view x) :
    viewSlots view (a.modify i f) = viewSlots view a := by
  refine List.ext_getElem? fun j => ?_
  rw [viewSlots, viewSlots, modify, List.getElem?_map, List.getElem?_map, List.getElem?_modify]
  have hslot (slot : Option α) : (slot.map f).map view = slot.map view := by
    cases slot <;> simp [hf]
  split
  · cases a.slots[j]? <;> simp [hslot]
  · simp

end Arena

/-- The method without its default. -/
def MethodNode.signatureOnly (m : MethodNode) : MethodNode := { m with defaultValue := none }

/-- The use without its values. -/
def UseNode.placeOnly (u : UseNode) : UseNode := { u with sourceValues := none }

namespace Tree

/-- The same nodes in the same slots and the same index of names, up to default values and source
values. -/
structure Mirrors (t t' : Tree) : Prop where
  types : t'.types = t.types
  methods : t'.methods.viewSlots MethodNode.signatureOnly =
    t.methods.viewSlots MethodNode.signatureOnly
  fields : t'.fields = t.fields
  uses : t'.uses.viewSlots UseNode.placeOnly = t.uses.viewSlots UseNode.placeOnly

variable {t t' : Tree}

theorem Mirrors.type? (h : t.Mirrors t') (id : TypeId) : t'.type? id = t.type? id := by
  rw [Tree.type?, h.types]
  rfl

theorem Mirrors.field? (h : t.Mirrors t') (id : FieldId) : t'.field? id = t.field? id := by
  rw [Tree.field?, h.fields]
  rfl

theorem Mirrors.map_method? {β : Type} (h : t.Mirrors t') (id : MethodId) {view : MethodNode → β}
    (hview : ∀ m, view m.signatureOnly = view m) :
    (t'.method? id).map view = (t.method? id).map view := by
  have hmap (m : Option MethodNode) : m.map view = (m.map MethodNode.signatureOnly).map view := by
    cases m <;> simp [hview]
  rw [hmap, hmap (t.method? id)]
  exact congrArg (Option.map view) (Arena.map_get?_of_viewSlots h.methods id.index)

theorem Mirrors.map_use? {β : Type} (h : t.Mirrors t') (id : UseId) {view : UseNode → β}
    (hview : ∀ u, view u.placeOnly = view u) :
    (t'.use? id).map view = (t.use? id).map view := by
  have hmap (u : Option UseNode) : u.map view = (u.map UseNode.placeOnly).map view := by
    cases u <;> simp [hview]
  rw [hmap, hmap (t.use? id)]
  exact congrArg (Option.map view) (Arena.map_get?_of_viewSlots h.uses id.index)

end Tree

end AnnotationLookup
