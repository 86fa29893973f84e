import AnnotationLookup.Entries

/-!
# Slot arenas

An arena is a row of slots, each free or occupied. What is inserted stays in its slot for good, and
its index identifies it.

* `Arena.insert`: takes the first free slot, and doubles the row when there is none;
  `Arena.growth`: how many slots are added then;
* **`Arena.get?_insert`**: an insertion fills one slot, free until then, and no other;
* `NamedArena`: an arena with an index of names. A name is bound once: inserting under a known name
  changes nothing and gives back the index bound to it.

An index of names is trusted as it is, also where it points to a free slot or beyond the row. A row
without any slot comes of a document only. What an insertion makes of it is not known of arenas: here
it is assumed to get one slot.
-/

namespace AnnotationLookup

/-- A row of slots, each free or occupied. -/
structure Arena (α : Type) where
  slots : List (Option α)
deriving BEq, Inhabited, Repr

namespace Arena

variable {α : Type}

/-- How many slots a new arena has. -/
def initialSlots : Nat := 4

/-- The new arena, of free slots only. -/
def empty : Arena α := ⟨List.replicate initialSlots none⟩

variable (a : Arena α)

/-- What the slot of an index holds; nothing if it is free or beyond the row. -/
def get? (i : Nat) : Option α := (a.slots[i]?).join

/-- How many slots are occupied. -/
def size : Nat := a.slots.countP (·.isSome)

/-- The occupied slots in order, with their indices. -/
def toList : List (Nat × α) :=
  (a.slots.zipIdx).filterMap fun (slot, i) => slot.map (i, ·)

/-- The first free slot, or the one after the last. -/
def freeIndex : Nat := a.slots.findIdx (·.isNone)

/-- How many slots are added to a full row: as many as it has. A row without slots cannot be doubled,
and is assumed to get one. -/
def growth : Nat := if a.slots.length = 0 then 1 else a.slots.length

/-- Puts a value into the first free slot, and gives the index of the slot. A full row grows first. -/
def insert (x : α) : Arena α × Nat :=
  let i := a.freeIndex
  if i < a.slots.length then (⟨a.slots.set i (some x)⟩, i)
  else (⟨a.slots ++ some x :: List.replicate (a.growth - 1) none⟩, i)

/-- Replaces what an occupied slot holds. -/
def modify (i : Nat) (f : α → α) : Arena α := ⟨a.slots.modify i (·.map f)⟩

/-! ## What is found after each operation -/

theorem get?_empty (i : Nat) : (empty : Arena α).get? i = none := by
  simp only [get?, empty, List.getElem?_replicate]
  split <;> rfl

theorem get?_modify (i j : Nat) (f : α → α) :
    (a.modify i f).get? j = if i = j then (a.get? j).map f else a.get? j := by
  simp only [get?, modify, List.getElem?_modify]
  split
  · cases a.slots[j]? with
    | none => rfl
    | some slot => cases slot <;> rfl
  · cases a.slots[j]? <;> rfl

theorem get?_freeIndex : a.get? a.freeIndex = none := by
  unfold get? freeIndex
  cases h : a.slots[a.slots.findIdx (·.isNone)]? with
  | none => rfl
  | some slot =>
    obtain ⟨hlt, hslot⟩ := List.getElem?_eq_some_iff.1 h
    have := List.findIdx_getElem (w := hlt)
    rw [hslot] at this
    cases slot with
    | none => rfl
    | some x => simp at this

theorem snd_insert (x : α) : (a.insert x).2 = a.freeIndex := by
  simp only [insert]; split <;> rfl

theorem get?_insert (x : α) (i : Nat) :
    (a.insert x).1.get? i = if i = a.freeIndex then some x else a.get? i := by
  unfold insert
  by_cases h : a.freeIndex < a.slots.length
  · simp only [h, if_true, get?, List.getElem?_set]
    by_cases hi : a.freeIndex = i
    · subst hi; simp
    · simp [hi, Ne.symm hi]
  · have hlen : a.freeIndex = a.slots.length :=
      Nat.le_antisymm List.findIdx_le_length (Nat.not_lt.1 h)
    simp only [h, if_false, get?, List.getElem?_append]
    by_cases hlt : i < a.slots.length
    · simp only [hlt, if_true]
      rw [if_neg (by omega)]
    · simp only [hlt, if_false, List.getElem?_cons, hlen, List.getElem?_replicate]
      by_cases hi : i = a.slots.length
      · simp [hi]
      · rw [if_neg (by omega), if_neg hi, List.getElem?_eq_none (by omega)]
        split <;> rfl

end Arena

/-- An arena with an index of names, in which each name leads to a slot. -/
structure NamedArena (α : Type) where
  values : Arena α
  byName : Entries Nat
deriving BEq, Inhabited, Repr

namespace NamedArena

variable {α : Type}

/-- The new arena, with an empty index. -/
def empty : NamedArena α := ⟨.empty, []⟩

variable (a : NamedArena α)

/-- How many slots are occupied, whether a name leads to them or not. -/
def size : Nat := a.values.size

/-- The index that a name is bound to. -/
def idOf? (name : String) : Option Nat := a.byName.get? name

/-- What the slot of an index holds. -/
def get? (i : Nat) : Option α := a.values.get? i

/-- What the slot holds that a name leads to. -/
def getByName? (name : String) : Option α := (a.idOf? name).bind a.get?

/-- Binds a new name to the slot of a new value. A known name keeps its slot, and the value is
dropped. -/
def insert (name : String) (x : α) : NamedArena α × Nat :=
  match a.idOf? name with
  | some i => (a, i)
  | none =>
    let (values, i) := a.values.insert x
    (⟨values, a.byName.insert name i⟩, i)

/-- Replaces what an occupied slot holds. Names stay bound as they are. -/
def modify (i : Nat) (f : α → α) : NamedArena α := { a with values := a.values.modify i f }

/-- The occupied slots in order, with their indices. -/
def toList : List (Nat × α) := a.values.toList

theorem insert_of_idOf? {name : String} {i : Nat} (h : a.idOf? name = some i) (x : α) :
    a.insert name x = (a, i) := by
  simp only [insert, h]

theorem idOf?_insert (name key : String) (x : α) :
    (a.insert name x).1.idOf? key =
      if name = key then some (a.insert name x).2 else a.idOf? key := by
  unfold insert
  split
  · next i h =>
    split
    · next hk => subst hk; exact h
    · rfl
  · exact Entries.get?_insert a.byName name key _

theorem insert_of_new {name : String} (h : a.idOf? name = none) (x : α) :
    a.insert name x =
      (⟨(a.values.insert x).1, a.byName.insert name a.values.freeIndex⟩, a.values.freeIndex) := by
  simp only [insert, h, Arena.snd_insert]

theorem get?_modify (i j : Nat) (f : α → α) :
    (a.modify i f).get? j = if i = j then (a.get? j).map f else a.get? j :=
  a.values.get?_modify i j f

end NamedArena

end AnnotationLookup
