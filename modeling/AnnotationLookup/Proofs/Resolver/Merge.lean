import AnnotationLookup.Resolver.Completed

/-!
# Values of completed annotations

* `CompiledClass.Declares`, `CompiledClass.LastDefault`, `CompiledClass.NoDefault`: the elements of an
  annotation type and the default that counts;
* `Completed.get?_foldl_addElement`: of the elements of one name, the last one that has a value
  counts;
* **`Completed.value_merge_iff`**: a value is given in the record, or is the last default.
-/

namespace AnnotationLookup

/-! ## Elements -/

namespace CompiledClass

/-- The class has a method of the name without parameters. -/
def Declares (c : CompiledClass) (key : String) : Prop :=
  ∃ m ∈ c.methods, m.parameterTypes = [] ∧ m.name = key

/-- The value is the default of the last method of the name without parameters that has a
default. -/
def LastDefault (c : CompiledClass) (key : String) (v : Value) : Prop :=
  ∃ before m after, c.methods = before ++ m :: after ∧
    (m.parameterTypes = [] ∧ m.name = key ∧ m.defaultValue = some v) ∧
    ∀ m' ∈ after, m'.parameterTypes = [] → m'.name = key → m'.defaultValue = none

/-- No method of the name without parameters has a default. -/
def NoDefault (c : CompiledClass) (key : String) : Prop :=
  ∀ m ∈ c.methods, m.parameterTypes = [] → m.name = key → m.defaultValue = none

end CompiledClass

theorem CompiledMethod.isElement_iff {m : CompiledMethod} :
    m.isElement = true ↔ m.parameterTypes = [] :=
  List.isEmpty_iff

theorem findSome?_reverse_eq_some_iff {α β : Type} {f : α → Option β} {l : List α} {b : β} :
    l.reverse.findSome? f = some b ↔
      ∃ before a after, l = before ++ a :: after ∧ f a = some b ∧ ∀ x ∈ after, f x = none := by
  rw [List.findSome?_eq_some_iff]
  constructor
  · rintro ⟨front, a, back, h, ha, hfront⟩
    refine ⟨back.reverse, a, front.reverse, ?_, ha, fun x hx => hfront x (List.mem_reverse.1 hx)⟩
    rw [← List.reverse_reverse l, h, List.reverse_append, List.reverse_cons, List.append_assoc,
      List.singleton_append]
  · rintro ⟨before, a, after, rfl, ha, hafter⟩
    refine ⟨after.reverse, a, before.reverse, ?_, ha, fun x hx => hafter x (List.mem_reverse.1 hx)⟩
    rw [List.reverse_append, List.reverse_cons, List.append_assoc, List.singleton_append]

namespace Completed

variable {A : CompiledClass} {record : AnnotationRecord} {key : String} {v : Value}

theorem declares_merge_iff : (merge A record).declares key = true ↔ A.Declares key := by
  rw [declares, List.contains_iff_mem]
  simp only [merge, CompiledClass.elements, List.mem_map, List.mem_filter,
    CompiledMethod.isElement_iff, CompiledClass.Declares, and_assoc]

/-! ## Values -/

/-- The value that a method gives to the key, if it is an element of that name. -/
def contribution (record : AnnotationRecord) (key : String) (m : CompiledMethod) : Option Value :=
  if m.parameterTypes = [] ∧ m.name = key then valueOf? record m else none

theorem get?_addElement (record : AnnotationRecord) (values : Entries Value) (m : CompiledMethod)
    (key : String) : (addElement record values m).get? key =
      (if m.name = key then valueOf? record m else none).or (values.get? key) := by
  unfold addElement
  cases valueOf? record m with
  | none => rw [ite_self, Option.none_or]
  | some v =>
    simp only [Entries.get?_insert]
    split
    · rfl
    · rfl

/-- **Of the elements of one name, the last one that has a value counts.** -/
theorem get?_foldl_addElement (record : AnnotationRecord) (methods : List CompiledMethod)
    (values : Entries Value) (key : String) :
    ((methods.filter (·.isElement)).foldl (addElement record) values).get? key =
      (methods.reverse.findSome? (contribution record key)).or (values.get? key) := by
  induction methods generalizing values with
  | nil => rfl
  | cons m methods ih =>
    have hlast : (m :: methods).reverse.findSome? (contribution record key) =
        (methods.reverse.findSome? (contribution record key)).or (contribution record key m) := by
      rw [List.reverse_cons, List.findSome?_append, List.findSome?_singleton]
    rw [hlast, Option.or_assoc]
    by_cases hm : m.isElement = true
    · have hcontribution : contribution record key m =
          if m.name = key then valueOf? record m else none := by
        simp only [contribution, CompiledMethod.isElement_iff.1 hm, true_and]
      rw [List.filter_cons_of_pos hm, List.foldl_cons, ih, get?_addElement, hcontribution]
    · have hcontribution : contribution record key m = none :=
        if_neg fun h => hm (CompiledMethod.isElement_iff.2 h.1)
      rw [List.filter_cons_of_neg hm, ih, hcontribution, Option.none_or]

theorem get?_merge : (merge A record).values.get? key =
    A.methods.reverse.findSome? (contribution record key) := by
  simp only [merge, CompiledClass.elements, get?_foldl_addElement, Entries.get?, Option.or_none]

theorem get?_merge_eq_some_iff : (merge A record).values.get? key = some v ↔
    ∃ before m after, A.methods = before ++ m :: after ∧ contribution record key m = some v ∧
      ∀ m' ∈ after, contribution record key m' = none := by
  rw [← findSome?_reverse_eq_some_iff, get?_merge]

theorem contribution_eq_some_iff {m : CompiledMethod} : contribution record key m = some v ↔
    m.parameterTypes = [] ∧ m.name = key ∧ valueOf? record m = some v := by
  unfold contribution
  split
  · next h => exact ⟨fun hv => ⟨h.1, h.2, hv⟩, fun hv => hv.2.2⟩
  · next h => exact iff_of_false (Option.some_ne_none v).symm fun hv => h ⟨hv.1, hv.2.1⟩

theorem get?_merge_of_given {x : Value} (hx : Entries.get? record.values key = some x) :
    (merge A record).values.get? key = some v ↔ A.Declares key ∧ x = v := by
  have hcontribution {m : CompiledMethod} {y : Value} : contribution record key m = some y ↔
      (m.parameterTypes = [] ∧ m.name = key) ∧ x = y := by
    rw [contribution_eq_some_iff, ← and_assoc]
    refine and_congr_right fun hm => ?_
    rw [valueOf?, hm.2, hx, Option.some_or, Option.some.injEq]
  have hlast : A.Declares key ↔
      ∃ y, A.methods.reverse.findSome? (contribution record key) = some y := by
    rw [← Option.isSome_iff_exists, List.findSome?_isSome_iff]
    simp only [List.mem_reverse, Option.isSome_iff_exists, hcontribution, CompiledClass.Declares,
      exists_and_left, exists_eq', and_true]
  constructor
  · intro hv
    obtain ⟨before, m, after, hmethods, hm, -⟩ := get?_merge_eq_some_iff.1 hv
    obtain ⟨hm, hxv⟩ := hcontribution.1 hm
    exact ⟨⟨m, by simp [hmethods], hm⟩, hxv⟩
  · rintro ⟨hdeclares, rfl⟩
    obtain ⟨y, hy⟩ := hlast.1 hdeclares
    obtain ⟨before, m, after, hmethods, hm, hafter⟩ := findSome?_reverse_eq_some_iff.1 hy
    obtain ⟨-, rfl⟩ := hcontribution.1 hm
    exact get?_merge_eq_some_iff.2 ⟨before, m, after, hmethods, hm, hafter⟩

section NotGiven

variable (hnone : Entries.get? record.values key = none)
include hnone

theorem contribution_eq_some_iff_of_not_given {m : CompiledMethod} :
    contribution record key m = some v ↔
      m.parameterTypes = [] ∧ m.name = key ∧ m.defaultValue = some v := by
  rw [contribution_eq_some_iff]
  refine and_congr_right fun _ => and_congr_right fun hname => ?_
  rw [valueOf?, hname, hnone, Option.none_or]

theorem contribution_eq_none_iff_of_not_given {m : CompiledMethod} :
    contribution record key m = none ↔
      (m.parameterTypes = [] → m.name = key → m.defaultValue = none) := by
  simp only [Option.eq_none_iff_forall_ne_some, ne_eq, contribution_eq_some_iff_of_not_given hnone,
    not_and]
  exact ⟨fun h hp hn y => h y hp hn, fun h y hp hn => h hp hn y⟩

theorem get?_merge_of_not_given :
    (merge A record).values.get? key = some v ↔ A.LastDefault key v := by
  rw [get?_merge_eq_some_iff]
  simp only [contribution_eq_some_iff_of_not_given hnone, contribution_eq_none_iff_of_not_given hnone,
    CompiledClass.LastDefault]

theorem get?_merge_eq_none_iff_of_not_given :
    (merge A record).values.get? key = none ↔ A.NoDefault key := by
  rw [get?_merge, List.findSome?_eq_none_iff]
  simp only [List.mem_reverse, contribution_eq_none_iff_of_not_given hnone, CompiledClass.NoDefault]

end NotGiven

/-- **A value is given in the record, or is the last default.** -/
theorem value_merge_iff : (merge A record).value key = .ok v ↔
    A.Declares key ∧ (Entries.get? record.values key = some v ∨
      Entries.get? record.values key = none ∧ A.LastDefault key v) := by
  have hvalue : (merge A record).value key = .ok v ↔
      A.Declares key ∧ (merge A record).values.get? key = some v := by
    rw [← declares_merge_iff, value]
    cases (merge A record).declares key with
    | false => simp
    | true => cases (merge A record).values.get? key <;> simp
  rw [hvalue]
  refine and_congr_right fun hdeclares => ?_
  cases hgiven : Entries.get? record.values key with
  | some x => simp [get?_merge_of_given hgiven, hdeclares]
  | none => simp [get?_merge_of_not_given hgiven]

end Completed

end AnnotationLookup
