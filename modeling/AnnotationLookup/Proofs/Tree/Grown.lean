import AnnotationLookup.Proofs.Form.Restore
import AnnotationLookup.Proofs.Tree.Run

/-!
# How trees come into being

A tree is new once, and then it is edited, cloned and copied by its document. What is known of a tree
depends on the edits that it has seen.

* `Tree.Grown`: the trees that come of edits of some kind;
* `Tree.Accepts`, `Tree.Unrefused`: edits that are not refused, and the trees that come of them;
* **`Tree.Grown.keeps`**: what edits of the kind keep, and what does not depend on identities, default
  values and source values, all these trees have;
* **`Tree.Grown.run`**, `Tree.Unrefused.run`: a run of edits of the kind.
-/

namespace AnnotationLookup.Tree

/-- A tree that was new once and has been edited, cloned and copied since, where each edit was one that
`P` allows in the tree that it came to. -/
inductive Grown (P : Tree → Edit → Prop) : Tree → Prop
  | new (id : TreeId) : Grown P { id }
  | edit {t : Tree} {e : Edit} (h : Grown P t) (he : P t e) : Grown P (e.apply t).1
  | clone {t : Tree} (h : Grown P t) (id : TreeId) : Grown P { t with id }
  /-- The document of the tree is read back, in some medium and with some bound of depth. -/
  | copy {t t' : Tree} {id : TreeId} {medium : Medium} {depth : Nat} (h : Grown P t)
      (hcopy : decode medium id depth t.toJson = some t') : Grown P t'

/-- The edit is not refused. -/
def Accepts (t : Tree) (e : Edit) : Prop := ∃ i, (e.apply t).2 = .ok i

/-- A tree that comes of edits of which none was refused. -/
def Unrefused : Tree → Prop := Grown Accepts

namespace Grown

variable {P : Tree → Edit → Prop} {t : Tree}

theorem indexes (h : Grown P t) : t.types.Indexes TypeNode.name := by
  induction h with
  | new id => exact NamedArena.indexes_empty
  | @edit t e _ _ ih => exact e.indexes_apply ih
  | clone _ id ih => exact ih
  | copy _ hcopy ih =>
    rw [(mirrors_of_decode ih.sorted hcopy).types]
    exact ih

/-- **What a new tree has, and edits of the kind and mirrors keep**, all trees that come of such edits
have. -/
theorem keeps {I : Tree → Prop} (new : ∀ id, I { id })
    (edit : ∀ {t e}, I t → P t e → I (e.apply t).1)
    (mirrors : ∀ {t t'}, I t → t.Mirrors t' → I t') (h : Grown P t) : I t := by
  induction h with
  | new id => exact new id
  | edit _ he ih => exact edit ih he
  | clone _ id ih => exact mirrors ih ⟨rfl, rfl, rfl, rfl⟩
  | copy h hcopy ih => exact mirrors ih (mirrors_of_decode h.indexes.sorted hcopy)

/-- **A run of edits of the kind** comes to such a tree again. -/
theorem run (h : Grown P t) {es : List Edit}
    (hes : ∀ m e, es[m]? = some e → P (t.run (es.take m)).2 e) : Grown P (t.run es).2 := by
  induction es generalizing t with
  | nil => exact h
  | cons e es ih => exact ih (h.edit (hes 0 e rfl)) fun m e' he' => hes (m + 1) e' he'

end Grown

theorem Unrefused.run {t : Tree} (h : t.Unrefused) (es : List Edit)
    (hes : (t.run es).1.all (·.isOk) = true) : (t.run es).2.Unrefused := by
  refine Grown.run h fun m e he => ?_
  have hok := List.all_eq_true.1 hes _ (List.mem_of_getElem? (getElem?_run he).1)
  cases houtcome : (e.apply (t.run (es.take m)).2).2 with
  | error refusal =>
    rw [houtcome] at hok
    cases hok
  | ok i => exact ⟨i, houtcome⟩

end AnnotationLookup.Tree
