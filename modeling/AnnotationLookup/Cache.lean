import AnnotationLookup.Tree.Basic

/-!
# Caches

What is known of annotation uses, by the tree that issued the use and the use itself. An entry is
written once and stays.

* `Cache.get?`, `Cache.insert`, `Cache.size`;
* `Cache.get?_insert`: the first write wins.
-/

namespace AnnotationLookup

/-- What has been found for uses of trees, the latest first. -/
structure Cache (α : Type) where
  entries : List ((TreeId × UseId) × α) := []
deriving Inhabited

namespace Cache

variable {α : Type} (c : Cache α)

/-- What is cached for a use of a tree. -/
def get? (tree : TreeId) (use : UseId) : Option α := c.entries.lookup (tree, use)

/-- The cache with an entry for the use, and the entry. -/
def insert (tree : TreeId) (use : UseId) (a : α) : Cache α × α :=
  match c.get? tree use with
  | some kept => (c, kept)
  | none => (⟨((tree, use), a) :: c.entries⟩, a)

/-- How many uses have something cached. -/
def size : Nat := c.entries.length

theorem get?_insert (tree : TreeId) (use : UseId) (a : α) (tree' : TreeId) (use' : UseId) :
    (c.insert tree use a).1.get? tree' use' =
      if (tree', use') = (tree, use) then some ((c.get? tree use).getD a)
      else c.get? tree' use' := by
  unfold insert
  split
  · next kept h =>
    split
    · next heq => cases heq; simp [h]
    · rfl
  · next h =>
    simp only [h, Option.getD_none]
    show List.lookup (tree', use') (((tree, use), a) :: c.entries) = _
    rw [List.lookup_cons]
    split
    · next heq => rw [if_pos (eq_of_beq heq)]
    · next hne => rw [if_neg (by simpa using hne)]; rfl

end Cache

end AnnotationLookup
