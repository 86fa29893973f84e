import Mathlib.Data.Finset.Card
import AnnotationLookup.Arena

/-!
# Arenas with names

In a consistent arena, names and occupied slots are in bijection. Insertions and updates keep that, and
a name stays with the slot it is given first.

* `Arena.mem_toList_iff`, `Arena.pairwise_toList`: what is listed;
* `NamedArena.Consistent`: the invariant; `Consistent.insert`, `Consistent.modify`: what one step keeps;
* `NamedArena.Step`, `NamedArena.run`: insertions and updates, in order;
* `NamedArena.get?_run`: what is found in a slot after a run;
* `NamedArena.BindsOnce`: what holds of an arena, field by field, when a run is over;
* `NamedArena.Numbers`: names that are numbered in the order in which they come;
* **`NamedArena.bindsOnce_run`**: the main statement.
-/

namespace AnnotationLookup

namespace Arena

variable {α : Type} {a : Arena α}

theorem mem_toList_iff {i : Nat} {x : α} : (i, x) ∈ a.toList ↔ a.get? i = some x := by
  simp only [toList, get?, List.mem_filterMap, Prod.exists, List.mk_mem_zipIdx_iff_getElem?,
    Option.map_eq_some_iff, Prod.mk.injEq, Option.join_eq_some_iff]
  constructor
  · rintro ⟨slot, j, hslot, y, rfl, rfl, rfl⟩
    exact hslot
  · intro h
    exact ⟨some x, i, h, x, rfl, rfl, rfl⟩

theorem pairwise_toList (a : Arena α) : a.toList.Pairwise (·.1 < ·.1) := by
  have hslots : (a.slots.zipIdx).Pairwise (·.2 < ·.2) := by
    rw [← List.pairwise_map (f := Prod.snd), List.zipIdx_map_snd]
    exact List.pairwise_lt_range'
  refine hslots.filterMap _ fun p q hlt x hx y hy => ?_
  obtain ⟨_, -, rfl⟩ := Option.map_eq_some_iff.1 hx
  obtain ⟨_, -, rfl⟩ := Option.map_eq_some_iff.1 hy
  exact hlt

theorem length_toList (a : Arena α) : a.toList.length = a.size := by
  have hslots : a.slots.countP (·.isSome) = (a.slots.zipIdx.map Prod.fst).countP (·.isSome) := by
    rw [List.zipIdx_map_fst]
  rw [toList, size, List.length_filterMap_eq_countP, hslots, List.countP_map]
  simp only [Option.isSome_map, Function.comp_def]

theorem freeIndex_eq_of_isSome_iff {n : Nat} (h : ∀ i, (a.get? i).isSome = true ↔ i < n) :
    a.freeIndex = n := by
  refine Nat.le_antisymm (Nat.not_lt.1 fun hlt => ?_) (Nat.not_lt.1 fun hlt => ?_)
  · have hlen : n < a.slots.length := Nat.lt_of_lt_of_le hlt List.findIdx_le_length
    have hslot : a.slots[n].isNone = false := List.not_of_lt_findIdx hlt
    have hfree : ¬(a.get? n).isSome = true := fun hn => Nat.lt_irrefl n ((h n).1 hn)
    rw [get?, List.getElem?_eq_getElem hlen, Option.join_some] at hfree
    cases hn : a.slots[n] <;> simp_all
  · have hfree := (h a.freeIndex).2 hlt
    rw [get?_freeIndex] at hfree
    cases hfree

end Arena

namespace NamedArena

variable {α : Type} {a : NamedArena α}

/-! ## Consistency -/

/-- The index leads from names to occupied slots, from one name to each. -/
structure Consistent (a : NamedArena α) : Prop where
  occupied : ∀ {name i}, a.idOf? name = some i → ∃ x, a.get? i = some x
  injective : ∀ {name name' i}, a.idOf? name = some i → a.idOf? name' = some i → name = name'
  named : ∀ {i x}, a.get? i = some x → ∃ name, a.idOf? name = some i

theorem consistent_empty : (empty : NamedArena α).Consistent where
  occupied h := by cases h
  injective h := by cases h
  named {i x} h := by
    rw [get?, empty, Arena.get?_empty] at h
    cases h

theorem get?_insert_of_new {name : String} (h : a.idOf? name = none) (x : α) (i : Nat) :
    (a.insert name x).1.get? i = if i = (a.insert name x).2 then some x else a.get? i := by
  rw [insert_of_new a h]
  exact a.values.get?_insert x i

theorem get?_snd_insert_of_new {name : String} (h : a.idOf? name = none) (x : α) :
    a.get? (a.insert name x).2 = none := by
  rw [insert_of_new a h]
  exact a.values.get?_freeIndex

theorem Consistent.insert (h : a.Consistent) (name : String) (x : α) :
    (a.insert name x).1.Consistent := by
  cases hname : a.idOf? name with
  | some i =>
    rw [insert_of_idOf? a hname]
    exact h
  | none =>
    -- the slot that is filled was free, so that no name led to it
    have hfree {key i} (hkey : a.idOf? key = some i) : i ≠ (a.insert name x).2 := by
      rintro rfl
      obtain ⟨y, hy⟩ := h.occupied hkey
      rw [get?_snd_insert_of_new hname] at hy
      cases hy
    refine ⟨fun {key i} hkey => ?_, fun {key key' i} hkey hkey' => ?_, fun {i y} hi => ?_⟩
    · rw [get?_insert_of_new hname]
      rw [idOf?_insert] at hkey
      split at hkey
      · exact ⟨x, if_pos (Option.some.inj hkey).symm⟩
      · rw [if_neg (hfree hkey)]
        exact h.occupied hkey
    · rw [idOf?_insert] at hkey hkey'
      split at hkey <;> split at hkey'
      · next hk hk' => exact hk.symm.trans hk'
      · exact absurd (Option.some.inj hkey).symm (hfree hkey')
      · exact absurd (Option.some.inj hkey').symm (hfree hkey)
      · exact h.injective hkey hkey'
    · rw [get?_insert_of_new hname] at hi
      split at hi
      · next hi' => exact ⟨name, by rw [idOf?_insert, if_pos rfl, hi']⟩
      · obtain ⟨key, hkey⟩ := h.named hi
        refine ⟨key, ?_⟩
        rw [idOf?_insert, if_neg ?_, hkey]
        rintro rfl
        rw [hname] at hkey
        cases hkey

theorem Consistent.modify (h : a.Consistent) (i : Nat) (f : α → α) : (a.modify i f).Consistent where
  occupied {name j} hname := by
    obtain ⟨x, hx⟩ := h.occupied hname
    rw [get?_modify, hx]
    split
    · exact ⟨f x, rfl⟩
    · exact ⟨x, rfl⟩
  injective := h.injective
  named {j x} hj := by
    rw [get?_modify] at hj
    split at hj
    · obtain ⟨y, hy, -⟩ := Option.map_eq_some_iff.1 hj
      exact h.named hy
    · exact h.named hj

/-! ## Names -/

/-- The names that are bound. -/
def names (a : NamedArena α) : Finset String := a.byName.names.toFinset

theorem mem_names_iff {name : String} : name ∈ a.names ↔ ∃ i, a.idOf? name = some i := by
  rw [names, List.mem_toFinset, Entries.names, idOf?]
  induction a.byName with
  | nil => simp [Entries.get?]
  | cons p es ih =>
    rw [Entries.get?, List.map_cons, List.mem_cons, ih]
    by_cases hp : p.1 = name
    · simp [hp]
    · simp [hp, Ne.symm hp]

/-- The names that are bound can be listed in such a way that the arena lists what is bound to them. -/
def Lists (a : NamedArena α) : Prop :=
  ∃ names : List String, names.Nodup ∧ names.toFinset = a.names ∧
    List.Forall₂ (fun name p => a.idOf? name = some p.1 ∧ a.getByName? name = some p.2)
      names a.toList

theorem Consistent.lists (h : a.Consistent) : a.Lists := by
  have hname (i : Nat) : ∃ name, ∀ x, a.get? i = some x → a.idOf? name = some i := by
    cases hi : a.get? i with
    | none => exact ⟨"", by simp⟩
    | some x =>
      obtain ⟨name, hname⟩ := h.named hi
      exact ⟨name, fun _ _ => hname⟩
  choose nameOf hnameOf using hname
  have hget {p : Nat × α} (hp : p ∈ a.toList) : a.get? p.1 = some p.2 := Arena.mem_toList_iff.1 hp
  refine ⟨a.toList.map fun p => nameOf p.1, ?_, ?_, ?_⟩
  · refine List.pairwise_map.2 ((Arena.pairwise_toList a.values).imp_of_mem ?_)
    intro p q hp hq hlt heq
    have hp' := hnameOf p.1 p.2 (hget hp)
    rw [heq, hnameOf q.1 q.2 (hget hq)] at hp'
    exact Nat.ne_of_lt hlt (Option.some.inj hp').symm
  · ext name
    simp only [List.mem_toFinset, List.mem_map, mem_names_iff]
    constructor
    · rintro ⟨p, hp, rfl⟩
      exact ⟨p.1, hnameOf p.1 p.2 (hget hp)⟩
    · rintro ⟨i, hi⟩
      obtain ⟨x, hx⟩ := h.occupied hi
      exact ⟨(i, x), Arena.mem_toList_iff.2 hx, h.injective (hnameOf i x hx) hi⟩
  · refine List.forall₂_map_left_iff.2 (List.forall₂_same.2 fun p hp => ?_)
    have hp' := hnameOf p.1 p.2 (hget hp)
    exact ⟨hp', by rw [getByName?, hp', Option.bind_some, hget hp]⟩

theorem Lists.size_eq (h : a.Lists) : a.size = a.names.card := by
  obtain ⟨names, hnodup, hnames, hlist⟩ := h
  rw [← hnames, List.toFinset_card_of_nodup hnodup, hlist.length_eq]
  exact (Arena.length_toList a.values).symm

/-! ## Steps -/

/-- Something is inserted under a name, or what is in a slot is replaced. -/
inductive Step (α : Type) where
  | insert (name : String) (x : α)
  | update (i : Nat) (f : α → α)

/-- A free slot stays free when it is updated. -/
def step (a : NamedArena α) : Step α → NamedArena α
  | .insert name x => (a.insert name x).1
  | .update i f => a.modify i f

/-- The arena after steps. -/
def run (a : NamedArena α) (steps : List (Step α)) : NamedArena α := steps.foldl step a

/-- The names of the insertions, in order. -/
def Step.inserted (steps : List (Step α)) : List String :=
  steps.filterMap fun
    | .insert name _ => some name
    | .update _ _ => none

/-- What is in a slot, after a step that leaves it occupied. -/
def Step.updateAt (i : Nat) (x : α) : Step α → α
  | .insert _ _ => x
  | .update j f => if j = i then f x else x

/-- What the updates of a slot make of what is in it. -/
def Step.updated (i : Nat) (steps : List (Step α)) (x : α) : α :=
  steps.foldl (fun x s => s.updateAt i x) x

theorem Consistent.run (h : a.Consistent) (steps : List (Step α)) : (a.run steps).Consistent := by
  induction steps generalizing a with
  | nil => exact h
  | cons s steps ih =>
    cases s with
    | insert name x => exact ih (h.insert name x)
    | update i f => exact ih (h.modify i f)

theorem names_insert (name : String) (x : α) : (a.insert name x).1.names = a.names ∪ {name} := by
  ext key
  simp only [Finset.mem_union, Finset.mem_singleton, mem_names_iff, idOf?_insert]
  by_cases hkey : name = key
  · simp [hkey]
  · simp [hkey, Ne.symm hkey]

theorem names_run (steps : List (Step α)) :
    (a.run steps).names = a.names ∪ (Step.inserted steps).toFinset := by
  induction steps generalizing a with
  | nil => simp [run, Step.inserted]
  | cons s steps ih =>
    cases s with
    | insert name x =>
      change ((a.insert name x).1.run steps).names = _
      rw [ih, names_insert, Finset.union_assoc]
      simp [Step.inserted]
    | update i f => exact ih

/-- What is bound stays where it is, and changes by the updates of its slot only. -/
theorem get?_run {name : String} {i : Nat} {x : α} (hname : a.idOf? name = some i)
    (hx : a.get? i = some x) (steps : List (Step α)) :
    (a.run steps).idOf? name = some i ∧ (a.run steps).get? i = some (Step.updated i steps x) := by
  induction steps generalizing a x with
  | nil => exact ⟨hname, hx⟩
  | cons s steps ih =>
    cases s with
    | insert key y =>
      cases hkey : a.idOf? key with
      | some j =>
        have hsame : a.step (.insert key y) = a := by rw [step, insert_of_idOf? a hkey]
        rw [run, List.foldl_cons, hsame]
        exact ih hname hx
      | none =>
        refine ih (a := (a.insert key y).1) ?_ ?_
        · rw [idOf?_insert, if_neg ?_, hname]
          rintro rfl
          rw [hkey] at hname
          cases hname
        · change (a.insert key y).1.get? i = some x
          rw [get?_insert_of_new hkey, if_neg ?_, hx]
          rintro rfl
          rw [get?_snd_insert_of_new hkey] at hx
          cases hx
    | update j f =>
      have hj : (a.modify j f).get? i = some (if j = i then f x else x) := by
        rw [get?_modify, hx]
        split <;> rfl
      exact ih (a := a.modify j f) hname hj

theorem run_append (before after : List (Step α)) :
    a.run (before ++ after) = (a.run before).run after :=
  List.foldl_append

/-! ## Runs -/

/-- What a run makes of a consistent arena. -/
structure BindsOnce (a : NamedArena α) (steps : List (Step α)) : Prop where
  consistent : (a.run steps).Consistent
  names_eq : (a.run steps).names = a.names ∪ (Step.inserted steps).toFinset
  size_eq : (a.run steps).size = (a.run steps).names.card
  /-- Under a name that is bound, nothing is inserted. -/
  known : ∀ name i x, (a.run steps).idOf? name = some i →
    (a.run steps).insert name x = (a.run steps, i)
  /-- Under a new name, a free slot is filled, and nothing else changes. -/
  new : ∀ name x b i, (a.run steps).idOf? name = none → (a.run steps).insert name x = (b, i) →
    (a.run steps).get? i = none ∧
    (∀ key, b.idOf? key = if name = key then some i else (a.run steps).idOf? key) ∧
    ∀ j, b.get? j = if j = i then some x else (a.run steps).get? j
  /-- What was bound before the run has its slot, and is changed by the updates of the slot only. -/
  kept : ∀ name i x, a.idOf? name = some i → a.get? i = some x →
    (a.run steps).idOf? name = some i ∧
    (a.run steps).getByName? name = some (Step.updated i steps x)
  /-- What is inserted under a name when it is new stays, and what is inserted later does not count. -/
  first : ∀ before name x after b i, steps = before ++ .insert name x :: after →
    (a.run before).idOf? name = none → (a.run before).insert name x = (b, i) →
    (a.run steps).idOf? name = some i ∧
    (a.run steps).getByName? name = some (Step.updated i after x)
  lists : (a.run steps).Lists

theorem getByName?_run {name : String} {i : Nat} {x : α} (hname : a.idOf? name = some i)
    (hx : a.get? i = some x) (steps : List (Step α)) :
    (a.run steps).idOf? name = some i ∧
      (a.run steps).getByName? name = some (Step.updated i steps x) := by
  obtain ⟨hname', hx'⟩ := get?_run hname hx steps
  exact ⟨hname', by rw [getByName?, hname', Option.bind_some, hx']⟩

theorem Consistent.bindsOnce (h : a.Consistent) (steps : List (Step α)) : a.BindsOnce steps where
  consistent := h.run steps
  names_eq := names_run steps
  size_eq := (h.run steps).lists.size_eq
  known _ _ x hname := insert_of_idOf? _ hname x
  new name x b i hname hb := by
    have hid (key : String) := idOf?_insert (a.run steps) name key x
    have hget (j : Nat) := get?_insert_of_new hname x j
    have hfree := get?_snd_insert_of_new hname x
    rw [hb] at hid hget hfree
    exact ⟨hfree, hid, hget⟩
  kept _ _ _ hname hx := getByName?_run hname hx steps
  first before name x after b i hsteps hname hb := by
    have hid := idOf?_insert (a.run before) name name x
    have hget := get?_insert_of_new hname x i
    rw [hb, if_pos rfl] at hid hget
    have hrun : a.run steps = b.run after := by
      rw [hsteps, run_append, NamedArena.run, List.foldl_cons, step, hb]
      rfl
    rw [hrun]
    exact getByName?_run hid hget after
  lists := (h.run steps).lists

/-! ## Numbers of names -/

/-- The names are numbered in the order in which they are inserted first. -/
def Numbers (a : NamedArena α) (inserted : List String) : Prop :=
  ∀ name i, a.idOf? name = some i ↔ inserted.eraseDups[i]? = some name

theorem Numbers.idOf?_eq_none_iff {inserted : List String} (h : a.Numbers inserted) {name : String} :
    a.idOf? name = none ↔ name ∉ inserted := by
  rw [← List.mem_eraseDups, List.mem_iff_getElem?, Option.eq_none_iff_forall_ne_some]
  simp only [ne_eq, h name, not_exists]

/-- The slots that are taken are as many as there are names, and come first. -/
theorem Numbers.freeIndex_eq {inserted : List String} (h : a.Numbers inserted)
    (ha : a.Consistent) : a.values.freeIndex = inserted.eraseDups.length := by
  refine Arena.freeIndex_eq_of_isSome_iff fun i => ?_
  rw [Option.isSome_iff_exists]
  constructor
  · rintro ⟨x, hx⟩
    obtain ⟨name, hname⟩ := ha.named hx
    exact (List.getElem?_eq_some_iff.1 ((h name i).1 hname)).1
  · intro hi
    exact ha.occupied ((h _ i).2 (List.getElem?_eq_getElem hi))

theorem Numbers.insert {inserted : List String} (h : a.Numbers inserted) (ha : a.Consistent)
    (name : String) (x : α) : (a.insert name x).1.Numbers (inserted ++ [name]) := by
  intro key i
  rw [List.eraseDups_append]
  by_cases hname : name ∈ inserted
  · obtain ⟨j, hj⟩ := Option.ne_none_iff_exists'.1 (mt h.idOf?_eq_none_iff.1 (not_not.2 hname))
    have hknown : [name].removeAll inserted = [] := by simp [List.removeAll, hname]
    rw [insert_of_idOf? a hj, hknown, List.eraseDups_nil, List.append_nil]
    exact h key i
  · have hnew : [name].removeAll inserted = [name] := by simp [List.removeAll, hname]
    have hnone := h.idOf?_eq_none_iff.2 hname
    have hlast : (inserted.eraseDups ++ [name].eraseDups)[i]? = some key ↔
        inserted.eraseDups[i]? = some key ∨ inserted.eraseDups.length = i ∧ name = key := by
      rw [List.eraseDups_cons, List.filter_nil, List.eraseDups_nil, List.getElem?_append]
      split
      · next hlt => simp [Nat.ne_of_gt hlt]
      · next hlt =>
        rw [List.getElem?_eq_none (Nat.not_lt.1 hlt), List.getElem?_singleton]
        simp only [reduceCtorEq, false_or]
        grind
    rw [idOf?_insert, insert_of_new a hnone, h.freeIndex_eq ha, hnew, hlast, ← h key i]
    by_cases hkey : name = key
    · subst hkey
      simp [hnone]
    · simp [hkey]

theorem Numbers.run {inserted : List String} (h : a.Numbers inserted) (ha : a.Consistent)
    (steps : List (Step α)) : (a.run steps).Numbers (inserted ++ Step.inserted steps) := by
  induction steps generalizing a inserted with
  | nil => rwa [Step.inserted, List.filterMap_nil, List.append_nil]
  | cons s steps ih =>
    cases s with
    | insert name x =>
      have hrun := ih (h.insert ha name x) (ha.insert name x)
      rwa [List.append_assoc] at hrun
    | update i f => exact ih (a := a.modify i f) h (ha.modify i f)

theorem numbers_run_empty (steps : List (Step α)) :
    ((empty : NamedArena α).run steps).Numbers (Step.inserted steps) := by
  have hempty : (empty : NamedArena α).Numbers [] := fun name i =>
    iff_of_false (fun h => by cases h) (by simp)
  exact hempty.run consistent_empty steps

/-- **Names and slots stay in bijection**, whatever is inserted and updated, and a name is bound once.
In an arena that was new, the names have the numbers in whose order they came. -/
theorem bindsOnce_run :
    (empty : NamedArena α).Consistent ∧
      (∀ a : NamedArena α, a.Consistent → ∀ steps, a.BindsOnce steps) ∧
      ∀ steps, ((empty : NamedArena α).run steps).Numbers (Step.inserted steps) :=
  ⟨consistent_empty, fun _ ha steps => ha.bindsOnce steps, numbers_run_empty⟩

/-- An arena with a free slot between two that are taken. -/
def sparse : NamedArena Nat := ⟨⟨[some 1, none, some 3]⟩, [("a", 0), ("c", 2)]⟩

theorem idOf?_sparse_eq_some_iff {name : String} {i : Nat} :
    sparse.idOf? name = some i ↔ name = "a" ∧ i = 0 ∨ name = "c" ∧ i = 2 := by
  simp only [sparse, idOf?, Entries.get?]
  by_cases ha : "a" = name
  · simp [← ha, eq_comm]
  · by_cases hc : "c" = name
    · simp [← hc, eq_comm]
    · simp [ha, hc, Ne.symm ha, Ne.symm hc]

theorem consistent_sparse : sparse.Consistent where
  occupied {name i} h := by
    obtain ⟨-, rfl⟩ | ⟨-, rfl⟩ := idOf?_sparse_eq_some_iff.1 h
    · exact ⟨1, rfl⟩
    · exact ⟨3, rfl⟩
  injective {name name' i} h h' := by
    obtain ⟨rfl, rfl⟩ | ⟨rfl, rfl⟩ := idOf?_sparse_eq_some_iff.1 h <;>
      simpa [eq_comm] using idOf?_sparse_eq_some_iff.1 h'
  named {i x} h := by
    have hlist : sparse.toList = [(0, 1), (2, 3)] := by decide
    have hi : (i, x) ∈ sparse.toList := Arena.mem_toList_iff.2 h
    rw [hlist] at hi
    obtain ⟨rfl, -⟩ | ⟨rfl, -⟩ : i = 0 ∧ x = 1 ∨ i = 2 ∧ x = 3 := by simpa using hi
    · exact ⟨"a", rfl⟩
    · exact ⟨"c", rfl⟩

/-- The hole is filled first, then the arena grows, and what has a name already is not inserted. -/
theorem bindsOnce_sparse :
    sparse.BindsOnce [.insert "b" 2, .insert "d" 4, .update 2 (· + 10), .insert "a" 9] ∧
      (sparse.run [.insert "b" 2, .insert "d" 4, .update 2 (· + 10), .insert "a" 9]).toList =
        [(0, 1), (1, 2), (2, 13), (3, 4)] :=
  ⟨bindsOnce_run.2.1 sparse consistent_sparse _, by decide⟩

end NamedArena

end AnnotationLookup
