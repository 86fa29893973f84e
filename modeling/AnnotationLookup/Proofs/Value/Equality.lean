import AnnotationLookup.Proofs.Form.Value

/-!
# Equality of values

Equality compares values part by part, and floating-point numbers as numbers. It would be identity if
there were one zero and no NaN.

* `Value.mapNumbers`, `Value.unsigned`: a value with other numbers, and with zeros above zero only;
* `Binary64.same_iff`: when two numbers are equal;
* **`Value.same_iff`**, `AnnotationRecord.same_iff`: when two values are, which is shown part by part;
* `ComparesNumbers`: the laws of such an equality;
* **`comparesNumbers_value`**: equality of values and of annotations is a partial equivalence.
-/

namespace AnnotationLookup

/-! ## Numbers -/

namespace Binary64

/-- The zero below zero. -/
def negativeZero : Binary64 := ⟨0x8000000000000000⟩

/-- The number, with zero in place of the zero below zero. -/
def unsignZero (x : Binary64) : Binary64 := if x = negativeZero then ⟨0⟩ else x

/-- The only zeros are the two that differ in sign. -/
theorem isZero_iff {x : Binary64} : x.isZero = true ↔ x = ⟨0⟩ ∨ x = negativeZero := by
  have hword (y : Binary64) : x = y ↔ x.word = y.word := by
    constructor
    · exact congrArg word
    · intro h
      cases x
      cases y
      exact congrArg mk (UInt64.toNat_inj.1 h)
  have hlt : x.word < 2 ^ 64 := x.bits.toNat_lt
  have hzero : word ⟨0⟩ = 0 := rfl
  have hnegative : word negativeZero = 2 ^ 63 := rfl
  rw [hword, hword, hzero, hnegative]
  simp only [isZero, biased, fraction, Nat.pow_eq, Bool.and_eq_true, beq_iff_eq]
  omega

theorem unsignZero_eq_iff {x y : Binary64} :
    x.unsignZero = y.unsignZero ↔ x = y ∨ x.isZero = true ∧ y.isZero = true := by
  rw [isZero_iff, isZero_iff]
  unfold unsignZero
  by_cases hx : x = negativeZero <;> by_cases hy : y = negativeZero
  · simp [hx, hy]
  · rw [if_pos hx, if_neg hy, hx]
    simp [hy, Ne.symm hy, eq_comm]
  · rw [if_neg hx, if_pos hy, hy]
    simp [hx]
  · rw [if_neg hx, if_neg hy]
    constructor
    · exact .inl
    · rintro (h | ⟨h, h'⟩)
      · exact h
      · rw [h.resolve_right hx, h'.resolve_right hy]

theorem same_iff {x y : Binary64} :
    x.same y = true ↔ x.unsignZero = y.unsignZero ∧ x.isNaN = false ∧ y.isNaN = false := by
  have hbits : x.bits = y.bits ↔ x = y := by
    cases x
    cases y
    exact (mk.injEq _ _).to_iff.symm
  rw [unsignZero_eq_iff, ← hbits]
  simp only [same, Bool.and_eq_true, Bool.or_eq_true, Bool.not_eq_true', beq_iff_eq]
  exact ⟨fun ⟨⟨hx, hy⟩, h⟩ => ⟨h, hx, hy⟩, fun ⟨h, hx, hy⟩ => ⟨⟨hx, hy⟩, h⟩⟩

end Binary64

/-! ## Values -/

mutual

/-- The value, with each number in it replaced. -/
def Value.mapNumbers (f : Binary64 → Binary64) (v : Value) : Value :=
  match v with
  | .float x => .float (f x)
  | .nested a => .nested (a.mapNumbers f)
  | .array items => .array (Value.mapNumbersOfItems f items)
  | .boolean b => .boolean b
  | .int n => .int n
  | .char c => .char c
  | .string s => .string s
  | .classRef t => .classRef t
  | .enumConstant typeName constant => .enumConstant typeName constant
termination_by structural v

/-- The same in a record. -/
def AnnotationRecord.mapNumbers (f : Binary64 → Binary64) (a : AnnotationRecord) :
    AnnotationRecord :=
  match a with
  | ⟨typeName, values⟩ => ⟨typeName, Value.mapNumbersOfEntries f values⟩
termination_by structural a

/-- The same in the items of an array. -/
def Value.mapNumbersOfItems (f : Binary64 → Binary64) (items : List Value) : List Value :=
  match items with
  | [] => []
  | v :: items => v.mapNumbers f :: Value.mapNumbersOfItems f items
termination_by structural items

/-- The same in the values of a table. -/
def Value.mapNumbersOfEntries (f : Binary64 → Binary64) (values : List (String × Value)) :
    List (String × Value) :=
  match values with
  | [] => []
  | (key, v) :: values => (key, v.mapNumbers f) :: Value.mapNumbersOfEntries f values
termination_by structural values

end

/-- The value, with no zero below zero. -/
def Value.unsigned (v : Value) : Value := v.mapNumbers Binary64.unsignZero

/-- The record, with no zero below zero. -/
def AnnotationRecord.unsigned (a : AnnotationRecord) : AnnotationRecord :=
  a.mapNumbers Binary64.unsignZero

/-- No number in the value is a NaN. -/
def Value.NoNaN (v : Value) : Prop := v.Holds (fun x => x.isNaN = false) fun _ => True

/-- No number in the record is a NaN. -/
def AnnotationRecord.NoNaN (a : AnnotationRecord) : Prop :=
  a.Holds (fun x => x.isNaN = false) fun _ => True

mutual

/-- Two values are equal if they are the same but for the signs of zeros, and hold no NaN. -/
theorem Value.same_iff (v w : Value) :
    v.same w = true ↔ v.unsigned = w.unsigned ∧ v.NoNaN ∧ w.NoNaN := by
  match v with
  | .float x =>
    cases w with
    | float y =>
      simp only [Value.same, Value.unsigned, Value.mapNumbers, Value.NoNaN, Value.Holds,
        Value.float.injEq]
      exact Binary64.same_iff
    | _ => simp [Value.same, Value.unsigned, Value.mapNumbers]
  | .nested a =>
    cases w with
    | nested b =>
      simp only [Value.same, Value.unsigned, Value.mapNumbers, Value.NoNaN, Value.Holds,
        Value.nested.injEq]
      exact a.same_iff b
    | _ => simp [Value.same, Value.unsigned, Value.mapNumbers]
  | .array items =>
    cases w with
    | array items' =>
      simp only [Value.same, Value.unsigned, Value.mapNumbers, Value.NoNaN, Value.Holds,
        Value.array.injEq]
      exact Value.sameItems_iff items items'
    | _ => simp [Value.same, Value.unsigned, Value.mapNumbers]
  | .boolean _ | .int _ | .char _ | .string _ | .classRef _ | .enumConstant _ _ =>
    cases w <;> simp [Value.same, Value.unsigned, Value.mapNumbers, Value.NoNaN, Value.Holds]
termination_by structural v

theorem AnnotationRecord.same_iff (a b : AnnotationRecord) :
    a.same b = true ↔ a.unsigned = b.unsigned ∧ a.NoNaN ∧ b.NoNaN := by
  match a, b with
  | ⟨typeName, values⟩, ⟨typeName', values'⟩ =>
    have hvalues := Value.sameEntries_iff values values'
    simp only [AnnotationRecord.same, AnnotationRecord.unsigned, AnnotationRecord.mapNumbers,
      AnnotationRecord.NoNaN, AnnotationRecord.Holds, AnnotationRecord.mk.injEq,
      Bool.and_eq_true, beq_iff_eq, true_and, hvalues, and_assoc]
termination_by structural a

theorem Value.sameItems_iff (items items' : List Value) :
    Value.sameItems items items' = true ↔
      Value.mapNumbersOfItems Binary64.unsignZero items =
        Value.mapNumbersOfItems Binary64.unsignZero items' ∧
      Value.HoldsOfItems (fun x => x.isNaN = false) (fun _ => True) items ∧
      Value.HoldsOfItems (fun x => x.isNaN = false) (fun _ => True) items' := by
  match items, items' with
  | [], [] => simp [Value.sameItems, Value.HoldsOfItems]
  | [], _ :: _ | _ :: _, [] => simp [Value.sameItems, Value.mapNumbersOfItems]
  | v :: items, w :: items' =>
    simp only [Value.sameItems, Value.mapNumbersOfItems, Value.HoldsOfItems, Bool.and_eq_true,
      v.same_iff w, Value.sameItems_iff items items', List.cons.injEq]
    constructor
    · rintro ⟨⟨h, hv, hw⟩, hitems, hvs, hws⟩
      exact ⟨⟨h, hitems⟩, ⟨hv, hvs⟩, hw, hws⟩
    · rintro ⟨⟨h, hitems⟩, ⟨hv, hvs⟩, hw, hws⟩
      exact ⟨⟨h, hv, hw⟩, hitems, hvs, hws⟩
termination_by structural items

theorem Value.sameEntries_iff (values values' : List (String × Value)) :
    Value.sameEntries values values' = true ↔
      Value.mapNumbersOfEntries Binary64.unsignZero values =
        Value.mapNumbersOfEntries Binary64.unsignZero values' ∧
      Value.HoldsOfEntries (fun x => x.isNaN = false) (fun _ => True) values ∧
      Value.HoldsOfEntries (fun x => x.isNaN = false) (fun _ => True) values' := by
  match values, values' with
  | [], [] => simp [Value.sameEntries, Value.HoldsOfEntries]
  | [], _ :: _ | _ :: _, [] => simp [Value.sameEntries, Value.mapNumbersOfEntries]
  | (key, v) :: values, (key', w) :: values' =>
    simp only [Value.sameEntries, Value.mapNumbersOfEntries, Value.HoldsOfEntries,
      Bool.and_eq_true, beq_iff_eq, v.same_iff w, Value.sameEntries_iff values values',
      List.cons.injEq, Prod.mk.injEq]
    constructor
    · rintro ⟨⟨hkey, h, hv, hw⟩, hvalues, hvs, hws⟩
      exact ⟨⟨⟨hkey, h⟩, hvalues⟩, ⟨hv, hvs⟩, hw, hws⟩
    · rintro ⟨⟨⟨hkey, h⟩, hvalues⟩, ⟨hv, hvs⟩, hw, hws⟩
      exact ⟨⟨hkey, h, hv, hw⟩, hvalues, hvs, hws⟩
termination_by structural values

end

/-! ## The laws of equality -/

/-- Two things are equal if they are the same up to `unsigned`, and hold no NaN. So equality is
symmetric and transitive, and reflexive for what holds no NaN. -/
structure ComparesNumbers (α : Type) [BEq α] (unsigned : α → α) (NoNaN : α → Prop) : Prop where
  symm : ∀ x y : α, (x == y) = true → (y == x) = true
  trans : ∀ x y z : α, (x == y) = true → (y == z) = true → (x == z) = true
  self_iff : ∀ x : α, (x == x) = true ↔ NoNaN x
  iff : ∀ x y : α, (x == y) = true ↔ unsigned x = unsigned y ∧ NoNaN x ∧ NoNaN y

theorem ComparesNumbers.of_iff {α : Type} [BEq α] {unsigned : α → α} {NoNaN : α → Prop}
    (h : ∀ x y : α, (x == y) = true ↔ unsigned x = unsigned y ∧ NoNaN x ∧ NoNaN y) :
    ComparesNumbers α unsigned NoNaN where
  symm x y hxy := by
    obtain ⟨heq, hx, hy⟩ := (h x y).1 hxy
    exact (h y x).2 ⟨heq.symm, hy, hx⟩
  trans x y z hxy hyz := by
    obtain ⟨heq, hx, -⟩ := (h x y).1 hxy
    obtain ⟨heq', -, hz⟩ := (h y z).1 hyz
    exact (h x z).2 ⟨heq.trans heq', hx, hz⟩
  self_iff x := (h x x).trans ⟨fun hx => hx.2.1, fun hx => ⟨rfl, hx, hx⟩⟩
  iff := h

/-- **Equality of values is a partial equivalence**, and so is that of annotations. What is equal is the
same but for the signs of zeros, and holds no NaN. -/
theorem comparesNumbers_value :
    ComparesNumbers Value Value.unsigned Value.NoNaN ∧
      ComparesNumbers AnnotationRecord AnnotationRecord.unsigned AnnotationRecord.NoNaN :=
  ⟨.of_iff Value.same_iff, .of_iff AnnotationRecord.same_iff⟩

example :
    (Value.nested ⟨"T", [("x", .float Binary64.negativeZero)]⟩ ==
      .nested ⟨"T", [("x", .float ⟨0⟩)]⟩) = true := by decide

end AnnotationLookup
