/-!
# Named entries

A finite map from names is a list of pairs in strictly ascending order of names, by code points.

* `Entries.get?`, `Entries.insert`, `Entries.ofList`, `Entries.names`;
* `Entries.Sorted`: the invariant, kept by `insert` (`Entries.Sorted.insert`);
* **`Entries.get?_insert`**: the last insertion of a name decides what is found under it;
* `Entries.sorted_ofList`, `Entries.mem_ofList`: a list is made into ascending entries out of it;
* `Entries.ofList_of_sorted`: a list that ascends is made into itself.
-/

namespace AnnotationLookup

/-- Entries by name. -/
abbrev Entries (α : Type) := List (String × α)

namespace Entries

variable {α β : Type}

/-- What is found under a name. -/
def get? : Entries α → String → Option α
  | [], _ => none
  | (k, a) :: es, name => if k = name then some a else get? es name

/-- The entries with `a` under `name`, in place of what was there. -/
def insert (name : String) (a : α) : Entries α → Entries α
  | [] => [(name, a)]
  | (k, b) :: es =>
    if name < k then (name, a) :: (k, b) :: es
    else if k = name then (name, a) :: es
    else (k, b) :: insert name a es

/-- The entries of a list of pairs, of which a later one replaces an earlier one of its name. -/
def ofList (pairs : List (String × α)) : Entries α :=
  pairs.foldl (fun es p => insert p.1 p.2 es) []

/-- The names in the order of the entries. -/
def names (es : Entries α) : List String := es.map (·.1)

/-- Names ascend strictly. -/
def Sorted (es : Entries α) : Prop := es.Pairwise fun p q => p.1 < q.1

/-! ## Insertion and lookup -/

theorem get?_insert (es : Entries α) (name key : String) (a : α) :
    get? (insert name a es) key = if name = key then some a else get? es key := by
  induction es with
  | nil => simp [insert, get?]
  | cons p es ih =>
    obtain ⟨k, b⟩ := p
    simp only [insert]
    split
    · simp [get?]
    · split
      · next h => subst h; by_cases hk : k = key <;> simp [get?, hk]
      · next h =>
        simp only [get?, ih]
        by_cases hk : k = key
        · subst hk; simp [Ne.symm h]
        · simp [hk]

theorem mem_insert {es : Entries α} {name : String} {a : α} {p : String × α}
    (h : p ∈ insert name a es) : p = (name, a) ∨ p ∈ es := by
  induction es with
  | nil => simpa [insert] using h
  | cons q es ih =>
    obtain ⟨k, b⟩ := q
    simp only [insert] at h
    split at h
    · simpa using h
    · split at h
      · simp only [List.mem_cons] at h ⊢
        exact h.imp id Or.inr
      · simp only [List.mem_cons] at h ⊢
        rcases h with h | h
        · exact Or.inr (Or.inl h)
        · exact (ih h).imp id Or.inr

theorem Sorted.insert {es : Entries α} (h : Sorted es) (name : String) (a : α) :
    Sorted (Entries.insert name a es) := by
  induction es with
  | nil => simp [Entries.insert, Sorted]
  | cons p es ih =>
    obtain ⟨k, b⟩ := p
    have hp := List.pairwise_cons.1 h
    simp only [Entries.insert]
    split
    · next hlt =>
      refine List.pairwise_cons.2 ⟨fun q hq => ?_, h⟩
      rcases List.mem_cons.1 hq with rfl | hq
      · exact hlt
      · exact String.lt_trans hlt (hp.1 q hq)
    · split
      · next hk => subst hk; exact List.pairwise_cons.2 ⟨hp.1, hp.2⟩
      · next hlt hne =>
        refine List.pairwise_cons.2 ⟨fun q hq => ?_, ih hp.2⟩
        rcases mem_insert hq with rfl | hq
        · rcases Decidable.em (k < name) with h | h
          · exact h
          · exact absurd (String.le_antisymm (String.not_lt.1 hlt) (String.not_lt.1 h)) hne
        · exact hp.1 q hq

/-! ## Entries of a list -/

theorem sorted_ofList (pairs : List (String × α)) : Sorted (ofList pairs) := by
  have hfold (es : Entries α) (h : Sorted es) :
      Sorted (pairs.foldl (fun es p => insert p.1 p.2 es) es) := by
    induction pairs generalizing es with
    | nil => exact h
    | cons p pairs ih => exact ih _ (h.insert p.1 p.2)
  exact hfold [] List.Pairwise.nil

theorem mem_ofList {pairs : List (String × α)} {p : String × α} (h : p ∈ ofList pairs) : p ∈ pairs := by
  have hfold (pairs : List (String × α)) (es : Entries α)
      (h : p ∈ pairs.foldl (fun es p => insert p.1 p.2 es) es) : p ∈ es ∨ p ∈ pairs := by
    induction pairs generalizing es with
    | nil => exact .inl h
    | cons q pairs ih =>
      rcases ih _ h with h | h
      · exact (mem_insert h).elim (fun h => .inr (h ▸ List.mem_cons_self)) .inl
      · exact .inr (List.mem_cons_of_mem _ h)
  exact (hfold pairs [] h).resolve_left List.not_mem_nil

/-! ## Lists that ascend already -/

theorem insert_of_forall_lt {es : Entries α} {name : String} (h : ∀ p ∈ es, p.1 < name) (a : α) :
    insert name a es = es ++ [(name, a)] := by
  induction es with
  | nil => rfl
  | cons p es ih =>
    obtain ⟨k, b⟩ := p
    have hlt : k < name := h _ List.mem_cons_self
    have hne : k ≠ name := by
      rintro rfl
      exact String.lt_irrefl k hlt
    rw [insert, if_neg fun hgt => String.lt_irrefl k (String.lt_trans hlt hgt), if_neg hne,
      ih fun q hq => h q (List.mem_cons_of_mem _ hq), List.cons_append]

theorem ofList_of_sorted {es : Entries α} (h : Sorted es) : ofList es = es := by
  have hfold (rest before : Entries α) (h : Sorted (before ++ rest)) :
      rest.foldl (fun es p => insert p.1 p.2 es) before = before ++ rest := by
    induction rest generalizing before with
    | nil => simp
    | cons p rest ih =>
      obtain ⟨-, -, hbefore⟩ := List.pairwise_append.1 h
      have hinsert : insert p.1 p.2 before = before ++ [p] :=
        insert_of_forall_lt (fun q hq => hbefore q hq p List.mem_cons_self) p.2
      rw [List.foldl_cons, hinsert, ih _ (by simpa using h), List.append_assoc, List.singleton_append]
  exact hfold es [] h

end Entries

end AnnotationLookup
