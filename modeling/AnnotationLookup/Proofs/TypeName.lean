import AnnotationLookup.TypeName

/-!
# Element types

* `TypeName.IsElementOf`: the type that is left of an array type when all trailing pairs of brackets
  are stripped;
* `TypeName.arrayOf_splitArray`: splitting a type loses nothing;
* **`TypeName.isElementOf_iff`**: splitting a type finds its element type;
* `TypeName.Strips`: pairs of brackets are taken off a name one by one;
* `TypeName.splitArray_eq_iff`, `TypeName.strips_iff`: the one way to write a type as an array type;
* **`TypeName.splits_uniquely`**: the main statement.
-/

namespace AnnotationLookup.TypeName

/-- The type is the element type with some pairs of brackets, and the element type ends in none. -/
def IsElementOf (element type : TypeName) : Prop :=
  (∃ dimensions, type = element.arrayOf dimensions) ∧ ∀ t : TypeName, element ≠ t.arrayOf 1

/-! ## Reversed names -/

/-- The pairs of brackets of a reversed name. -/
def reversedBrackets (dimensions : Nat) : List Char := (List.replicate dimensions [']', '[']).flatten

theorem reverse_brackets (n : Nat) : (brackets n).reverse = reversedBrackets n := by
  rw [brackets, reversedBrackets, List.reverse_flatten, List.map_replicate, List.reverse_replicate]
  rfl

theorem reversedBrackets_succ (n : Nat) :
    reversedBrackets (n + 1) = ']' :: '[' :: reversedBrackets n := by
  simp only [reversedBrackets, List.replicate_succ, List.flatten_cons, List.cons_append,
    List.nil_append]

theorem append_stripBrackets (cs : List Char) :
    reversedBrackets (stripBrackets cs).2 ++ (stripBrackets cs).1 = cs := by
  induction cs using stripBrackets.induct with
  | case1 rest ih =>
    rw [stripBrackets, reversedBrackets_succ, List.cons_append, List.cons_append, ih]
  | case2 cs h =>
    rw [stripBrackets]
    · rfl
    · exact h

theorem stripBrackets_ne (cs rest : List Char) : (stripBrackets cs).1 ≠ ']' :: '[' :: rest := by
  induction cs using stripBrackets.induct with
  | case1 cs ih => rw [stripBrackets]; exact ih
  | case2 cs h =>
    rw [stripBrackets]
    · exact h rest
    · exact h

theorem stripBrackets_append {es : List Char} (h : ∀ rest, es ≠ ']' :: '[' :: rest) (n : Nat) :
    stripBrackets (reversedBrackets n ++ es) = (es, n) := by
  induction n with
  | zero =>
    change stripBrackets es = (es, 0)
    rw [stripBrackets]
    exact h
  | succ n ih => rw [reversedBrackets_succ, List.cons_append, List.cons_append, stripBrackets, ih]

/-! ## Element types -/

theorem reverse_toList_arrayOf (t : TypeName) (n : Nat) :
    (t.arrayOf n).text.toList.reverse = reversedBrackets n ++ t.text.toList.reverse := by
  rw [arrayOf, String.toList_ofList, List.reverse_append, reverse_brackets]

theorem eq_of_reverse_toList {s t : TypeName}
    (h : s.text.toList.reverse = t.text.toList.reverse) : s = t := by
  cases s
  cases t
  exact congrArg mk (String.toList_inj.1 (List.reverse_inj.1 h))

/-- **Splitting a type loses nothing.** -/
theorem arrayOf_splitArray (t : TypeName) : t.splitArray.1.arrayOf t.splitArray.2 = t := by
  refine eq_of_reverse_toList ?_
  rw [reverse_toList_arrayOf]
  simp only [splitArray, String.toList_ofList, List.reverse_reverse]
  exact append_stripBrackets _

theorem ne_arrayOf_one_iff {t : TypeName} : (∀ s : TypeName, t ≠ s.arrayOf 1) ↔
    ∀ rest, t.text.toList.reverse ≠ ']' :: '[' :: rest := by
  constructor
  · intro h rest hrest
    refine h ⟨String.ofList rest.reverse⟩ (eq_of_reverse_toList ?_)
    rw [hrest, reverse_toList_arrayOf, String.toList_ofList, List.reverse_reverse]
    rfl
  · rintro h s rfl
    exact h s.text.toList.reverse (s.reverse_toList_arrayOf 1)

/-- **Splitting a type finds its element type.** -/
theorem isElementOf_iff {element type : TypeName} :
    element.IsElementOf type ↔ element = type.splitArray.1 := by
  constructor
  · rintro ⟨⟨n, rfl⟩, hne⟩
    refine eq_of_reverse_toList ?_
    simp only [splitArray, reverse_toList_arrayOf, String.toList_ofList, List.reverse_reverse,
      stripBrackets_append (ne_arrayOf_one_iff.1 hne)]
  · rintro rfl
    refine ⟨⟨_, type.arrayOf_splitArray.symm⟩, ne_arrayOf_one_iff.2 fun rest => ?_⟩
    simp only [splitArray, String.toList_ofList, List.reverse_reverse]
    exact stripBrackets_ne _ rest

/-! ## Array types -/

/-- The name ends in a pair of brackets. -/
def EndsInBrackets (t : TypeName) : Prop := ['[', ']'] <:+ t.text.toList

/-- Pairs of brackets are taken off the end of a name, one after the other, until it ends in none.
This leaves the element type, after that many steps. -/
inductive Strips : TypeName → TypeName → Nat → Prop
  | stop {t : TypeName} (h : ¬ t.EndsInBrackets) : Strips t t 0
  | step {t s element : TypeName} {dimensions : Nat} (ht : t.text = s.text ++ "[]")
    (h : Strips s element dimensions) : Strips t element (dimensions + 1)

theorem brackets_add (m n : Nat) : brackets (m + n) = brackets m ++ brackets n := by
  rw [brackets, ← List.replicate_append_replicate, List.flatten_append]
  rfl

theorem arrayOf_zero (t : TypeName) : t.arrayOf 0 = t := by
  refine congrArg mk ?_
  rw [brackets, List.replicate_zero, List.flatten_nil, List.append_nil, String.ofList_toList]

theorem arrayOf_arrayOf (t : TypeName) (m n : Nat) :
    (t.arrayOf m).arrayOf n = t.arrayOf (m + n) := by
  simp only [arrayOf, String.toList_ofList, List.append_assoc, brackets_add]

theorem eq_arrayOf_one_iff {s t : TypeName} : t = s.arrayOf 1 ↔ t.text = s.text ++ "[]" := by
  have htext : (s.arrayOf 1).text = s.text ++ "[]" := by
    rw [← String.toList_inj, arrayOf, String.toList_ofList, String.toList_append]
    rfl
  rw [← htext]
  exact ⟨congrArg text, fun h => by cases t; exact congrArg mk h⟩

theorem endsInBrackets_iff {t : TypeName} : t.EndsInBrackets ↔ ∃ s : TypeName, t = s.arrayOf 1 := by
  constructor
  · rintro ⟨cs, hcs⟩
    refine ⟨⟨String.ofList cs⟩, eq_arrayOf_one_iff.2 (String.toList_inj.1 ?_)⟩
    rw [String.toList_append, String.toList_ofList, ← hcs]
    rfl
  · rintro ⟨s, rfl⟩
    exact ⟨s.text.toList, by rw [arrayOf, String.toList_ofList]; rfl⟩

theorem splitArray_arrayOf {element : TypeName} (h : ¬ element.EndsInBrackets) (n : Nat) :
    (element.arrayOf n).splitArray = (element, n) := by
  have hne : ∀ s : TypeName, element ≠ s.arrayOf 1 :=
    fun s hs => h (endsInBrackets_iff.2 ⟨s, hs⟩)
  simp only [splitArray, reverse_toList_arrayOf, stripBrackets_append (ne_arrayOf_one_iff.1 hne),
    List.reverse_reverse, String.ofList_toList]

theorem not_endsInBrackets_splitArray (t : TypeName) : ¬ t.splitArray.1.EndsInBrackets := by
  rw [endsInBrackets_iff, not_exists]
  exact (isElementOf_iff.2 rfl).2

/-- **A type is an array type of one element type only**, with one number of dimensions. -/
theorem splitArray_eq_iff {t element : TypeName} {dimensions : Nat} :
    t.splitArray = (element, dimensions) ↔
      ¬ element.EndsInBrackets ∧ element.arrayOf dimensions = t := by
  constructor
  · intro h
    have hnot := t.not_endsInBrackets_splitArray
    have hsplit := t.arrayOf_splitArray
    rw [h] at hnot hsplit
    exact ⟨hnot, hsplit⟩
  · rintro ⟨hnot, rfl⟩
    exact splitArray_arrayOf hnot dimensions

theorem strips_iff {t element : TypeName} {dimensions : Nat} :
    Strips t element dimensions ↔ ¬ element.EndsInBrackets ∧ element.arrayOf dimensions = t := by
  constructor
  · intro h
    induction h with
    | stop h => exact ⟨h, arrayOf_zero _⟩
    | step ht _ ih =>
      obtain ⟨hnot, rfl⟩ := ih
      exact ⟨hnot, by rw [eq_arrayOf_one_iff.2 ht, arrayOf_arrayOf]⟩
  · rintro ⟨hnot, rfl⟩
    induction dimensions with
    | zero =>
      rw [arrayOf_zero]
      exact .stop hnot
    | succ n ih =>
      rw [← arrayOf_arrayOf]
      exact .step (eq_arrayOf_one_iff.1 rfl) ih

/-- **Array types split in one way only.** Taking pairs of brackets off a name comes to an end, and
leaves what splitting the type gives: a name that ends in no brackets and the number of dimensions of
which the type is made again. No other name and number are like this. More dimensions add to those that
are found, and to each other. -/
theorem splits_uniquely (t : TypeName) (m n : Nat) :
    Strips t t.splitArray.1 t.splitArray.2 ∧
      ¬ t.splitArray.1.EndsInBrackets ∧
      t.splitArray.1.arrayOf t.splitArray.2 = t ∧
      (∀ (element : TypeName) (dimensions : Nat), t.splitArray = (element, dimensions) ↔
        ¬ element.EndsInBrackets ∧ element.arrayOf dimensions = t) ∧
      (t.arrayOf n).splitArray = (t.splitArray.1, t.splitArray.2 + n) ∧
      (t.arrayOf m).arrayOf n = t.arrayOf (m + n) := by
  have hnot := t.not_endsInBrackets_splitArray
  have hsplit := t.arrayOf_splitArray
  refine ⟨strips_iff.2 ⟨hnot, hsplit⟩, hnot, hsplit, fun _ _ => splitArray_eq_iff, ?_,
    t.arrayOf_arrayOf m n⟩
  refine splitArray_eq_iff.2 ⟨hnot, ?_⟩
  rw [← arrayOf_arrayOf, hsplit]

/-- Brackets inside a name, and half a pair at its end, belong to the element type. -/
example : (⟨"[]a[][]"⟩ : TypeName).splitArray = (⟨"[]a"⟩, 2) ∧
    (⟨"a[]]"⟩ : TypeName).splitArray = (⟨"a[]]"⟩, 0) ∧
    (⟨"[]"⟩ : TypeName).splitArray = (⟨""⟩, 1) := by decide

end AnnotationLookup.TypeName
