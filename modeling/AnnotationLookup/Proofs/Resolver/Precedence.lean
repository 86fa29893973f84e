import AnnotationLookup.Proofs.Resolver.Merge
import AnnotationLookup.Proofs.Task

/-!
# Values given over defaults

The last steps of a resolution go through the elements of the annotation type, and then through the
values of the record. They come to the value of each key by itself: the one that is given, or else the
last default. What is given to no element is reported, once for each key.

* `Completed.value_merge_of_given`, `Completed.value_merge_of_not_given` and the like: the value of a
  key, case by case;
* `Completed.sorted_merge`, `Completed.get?_merge_iff`: the table of values;
* `Completed.mem_undeclared_iff`, `Metadata.reportUndeclared_eq`: the keys that are reported;
* `Metadata.materialize_eq`: what the last steps come to;
* **`Metadata.materialize_by_precedence`**: the main statement.
-/

namespace AnnotationLookup

/-! ## Tables -/

namespace Entries

variable {α : Type} {es : Entries α}

theorem mem_names_iff {name : String} : name ∈ names es ↔ ∃ a, get? es name = some a := by
  induction es with
  | nil => simp [names, get?]
  | cons p es ih =>
    obtain ⟨k, a⟩ := p
    rw [names, List.map_cons, List.mem_cons, ← names, ih, get?]
    by_cases hk : k = name
    · rw [if_pos hk]
      exact iff_of_true (.inl hk.symm) ⟨a, rfl⟩
    · rw [if_neg hk]
      exact or_iff_right (Ne.symm hk)

theorem Sorted.pairwise_names (h : Sorted es) : (names es).Pairwise (· < ·) :=
  List.pairwise_map.2 h

end Entries

/-! ## The value of a key -/

namespace Completed

variable {A : CompiledClass} {I : AnnotationRecord} {key : String} {v : Value}

theorem declares_of_lastDefault (h : A.LastDefault key v) : A.Declares key := by
  obtain ⟨before, m, after, hmethods, ⟨hparameters, hname, -⟩, -⟩ := h
  exact ⟨m, by simp [hmethods], hparameters, hname⟩

theorem value_merge_of_not_declares (h : ¬ A.Declares key) :
    (merge A I).value key = .error (.unknownParameter A.name key) := by
  rw [value, if_neg (mt declares_merge_iff.1 h)]
  rfl

theorem value_merge_of_declares (h : A.Declares key) : (merge A I).value key =
    match (merge A I).values.get? key with
    | some v => .ok v
    | none => .error (.noValue A.name key) := by
  rw [value, if_pos (declares_merge_iff.2 h)]
  rfl

theorem value_merge_of_given (h : A.Declares key) (hv : Entries.get? I.values key = some v) :
    (merge A I).value key = .ok v :=
  value_merge_iff.2 ⟨h, .inl hv⟩

/-- What is not given is the last default, if there is one. -/
theorem value_merge_of_not_given (h : A.Declares key) (hnone : Entries.get? I.values key = none) :
    (∃ v, A.LastDefault key v ∧ (merge A I).value key = .ok v) ∨
      A.NoDefault key ∧ (merge A I).value key = .error (.noValue A.name key) := by
  rw [value_merge_of_declares h]
  cases hv : (merge A I).values.get? key with
  | some v => exact .inl ⟨v, (get?_merge_of_not_given hnone).1 hv, rfl⟩
  | none => exact .inr ⟨(get?_merge_eq_none_iff_of_not_given hnone).1 hv, rfl⟩

/-- What is declared is told apart from what is not by how the value fails. -/
theorem declares_merge_iff_value : (merge A I).declares key = true ↔
    (merge A I).value key ≠ .error (.unknownParameter A.name key) := by
  rw [declares_merge_iff]
  constructor
  · intro hdeclares
    rw [value_merge_of_declares hdeclares]
    cases (merge A I).values.get? key with
    | some v => exact fun h => by cases h
    | none => exact fun h => by cases h
  · intro hvalue
    exact Classical.byContradiction fun hnot => hvalue (value_merge_of_not_declares hnot)

/-! ## The table of values -/

theorem sorted_merge (A : CompiledClass) (I : AnnotationRecord) : (merge A I).values.Sorted := by
  have hfold (elements : List CompiledMethod) (values : Entries Value) (h : values.Sorted) :
      (elements.foldl (addElement I) values).Sorted := by
    induction elements generalizing values with
    | nil => exact h
    | cons m elements ih =>
      refine ih _ ?_
      unfold addElement
      split
      · exact h.insert m.name _
      · exact h
  exact hfold A.elements [] List.Pairwise.nil

theorem get?_merge_iff : (merge A I).values.get? key = some v ↔ (merge A I).value key = .ok v := by
  rw [value_merge_iff]
  cases hgiven : Entries.get? I.values key with
  | some x => simp [get?_merge_of_given hgiven]
  | none =>
    rw [get?_merge_of_not_given hgiven]
    simpa using fun h : A.LastDefault key v => declares_of_lastDefault h

theorem mem_names_merge_iff : key ∈ Entries.names (merge A I).values ↔
    ∃ v, (merge A I).value key = .ok v := by
  simp only [Entries.mem_names_iff, get?_merge_iff]

/-! ## Keys that are reported -/

theorem mem_undeclared_iff : key ∈ undeclared A I ↔
    key ∈ Entries.names I.values ∧ ¬ A.Declares key := by
  rw [undeclared, List.mem_filter, ← @declares_merge_iff A I, Bool.not_eq_true,
    Bool.not_eq_true']

theorem pairwise_undeclared (h : Entries.Sorted I.values) :
    (undeclared A I).Pairwise (· < ·) :=
  h.pairwise_names.filter _

end Completed

namespace Metadata

variable {σ : Type}

theorem reportUndeclared_eq (className : String) (keys : List String) (w : World σ) :
    reportUndeclared className keys w =
      .ok () { w with log := w.log ++ keys.map fun key => ⟨.warn, .undeclared key className⟩ } := by
  induction keys generalizing w with
  | nil =>
    rw [List.map_nil, List.append_nil]
    rfl
  | cons key keys ih =>
    refine (ih { w with log := w.log ++ [⟨.warn, .undeclared key className⟩] }).trans ?_
    rw [List.map_cons, List.append_assoc, List.singleton_append]

theorem materialize_eq (A : CompiledClass) (I : AnnotationRecord) (w : World σ) :
    materialize A I w = .ok (Completed.merge A I)
      { w with log := w.log ++
          (Completed.undeclared A I).map fun key => ⟨.warn, .undeclared key A.name⟩ } := by
  rw [materialize, Task.bind_of_ok (reportUndeclared_eq _ _ w)]
  rfl

/-- **What is given counts before the defaults**, whatever methods the annotation type has. A key is not
known if there is no method of the name without parameters, also where it is given a value, or a method
with parameters has the name. The value of a key that is known is the one that is given, or else the
default of the last method of the name, without parameters, that has one; if none has, there is no
value. The table has those keys that have a value, each with its value. Each key that is given and not
known is reported once, in ascending order, and nothing else is. -/
theorem materialize_by_precedence (A : CompiledClass) (I : AnnotationRecord)
    (hI : Entries.Sorted I.values) :
    (∀ key,
      (¬ A.Declares key →
        (Completed.merge A I).value key = .error (.unknownParameter A.name key)) ∧
      (A.Declares key →
        (∀ v, Entries.get? I.values key = some v → (Completed.merge A I).value key = .ok v) ∧
        (Entries.get? I.values key = none →
          (∃ v, A.LastDefault key v ∧ (Completed.merge A I).value key = .ok v) ∨
          A.NoDefault key ∧ (Completed.merge A I).value key = .error (.noValue A.name key))) ∧
      ((Completed.merge A I).declares key = true ↔
        (Completed.merge A I).value key ≠ .error (.unknownParameter A.name key)) ∧
      (key ∈ Entries.names (Completed.merge A I).values ↔
        ∃ v, (Completed.merge A I).value key = .ok v) ∧
      ∀ v, (Completed.merge A I).values.get? key = some v ↔
        (Completed.merge A I).value key = .ok v) ∧
    (Completed.merge A I).values.Sorted ∧
    (Completed.undeclared A I).Pairwise (· < ·) ∧
    (∀ key, key ∈ Completed.undeclared A I ↔
      key ∈ Entries.names I.values ∧ ¬ A.Declares key) ∧
    ∀ (σ : Type) (w : World σ), materialize A I w = .ok (Completed.merge A I)
      { w with log := w.log ++
          (Completed.undeclared A I).map fun key => ⟨.warn, .undeclared key A.name⟩ } := by
  refine ⟨fun key => ⟨Completed.value_merge_of_not_declares, fun hdeclares => ⟨fun v => ?_, ?_⟩, ?_, ?_,
    fun v => Completed.get?_merge_iff⟩, Completed.sorted_merge A I, Completed.pairwise_undeclared hI,
    fun key => Completed.mem_undeclared_iff, fun σ w => materialize_eq A I w⟩
  · exact Completed.value_merge_of_given hdeclares
  · exact Completed.value_merge_of_not_given hdeclares
  · exact Completed.declares_merge_iff_value
  · exact Completed.mem_names_merge_iff

/-- An annotation type with an element that is declared three times, of which the second declaration has
a default, an element without a default, and a method with a parameter. -/
def repeated : CompiledClass where
  name := "Route"
  kind := .annotationType
  methods := [{ name := "value" }, { name := "value", defaultValue := some (.string "/") },
    { name := "value" }, { name := "host" }, { name := "port", parameterTypes := [⟨"int"⟩] }]

/-- A value for the method with a parameter, and one for no method at all. -/
def astray : AnnotationRecord := ⟨"Route", [("port", .int 80), ("zone", .int 1)]⟩

/-- The default of the second declaration counts, and both values that go astray are reported. -/
theorem materialize_by_precedence_of_repeated :
    (∃ v, repeated.LastDefault "value" v ∧ (Completed.merge repeated astray).value "value" = .ok v) ∧
      (Completed.merge repeated astray).value "port" = .error (.unknownParameter "Route" "port") ∧
      ∀ (σ : Type) (w : World σ), materialize repeated astray w = .ok (Completed.merge repeated astray)
        { w with log := w.log ++
            [⟨.warn, .undeclared "port" "Route"⟩, ⟨.warn, .undeclared "zone" "Route"⟩] } := by
  have hsorted : Entries.Sorted astray.values := by
    unfold Entries.Sorted
    decide +kernel
  obtain ⟨hvalue, -, -, -, hlog⟩ := materialize_by_precedence repeated astray hsorted
  have hundeclared : Completed.undeclared repeated astray = ["port", "zone"] := by decide +kernel
  rw [hundeclared] at hlog
  refine ⟨?_, (hvalue "port").1 (by simp [CompiledClass.Declares, repeated]), hlog⟩
  refine (((hvalue "value").2.1 ⟨_, .head _, rfl, rfl⟩).2 rfl).resolve_right fun hnone => ?_
  have hdefault := hnone.1 ⟨"value", [], [], some (.string "/")⟩ (.tail _ (.head _)) rfl rfl
  cases hdefault

end Metadata

end AnnotationLookup
