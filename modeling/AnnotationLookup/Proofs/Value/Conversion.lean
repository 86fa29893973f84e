import AnnotationLookup.Value.Shape
import Mathlib.Algebra.Ring.Int.Defs

/-!
# Plain values and what they are made into

A value can be taken as a plain value of a shape exactly if it was made of one.

* `Shape.narrow_eq_ok_iff`: integers that fit 32 bits keep their value;
* **`Shape.toPlain_eq_ok_iff`**, `Shape.toPlain_eq_error`: the value that was made of a plain value, and
  the error of any other;
* `Shape.eq_or_int_of_ofPlain_eq`: two shapes have no values in common, but for integers.
-/

namespace AnnotationLookup.Shape

/-! ## Integers -/

theorem eq_toInt64_iff {n : Int64} {m : Int32} : n = m.toInt64 ↔ m.toInt = n.toInt := by
  rw [← Int64.toInt_inj, Int32.toInt_toInt64, eq_comm]

theorem exists_toInt_eq_iff {n : Int64} :
    (∃ m : Int32, m.toInt = n.toInt) ↔ -2 ^ 31 ≤ n.toInt ∧ n.toInt ≤ 2 ^ 31 - 1 := by
  constructor
  · rintro ⟨m, hm⟩
    have hlow := m.le_toInt
    have hhigh := m.toInt_lt
    omega
  · rintro ⟨hlow, hhigh⟩
    refine ⟨n.toInt32, ?_⟩
    rw [Int64.toInt_toInt32, Int.bmod_eq_of_le] <;> omega

/-- **An integer is narrowed to the one of 32 bits that it was widened from**, if there is one. -/
theorem narrow_eq_ok_iff {n : Int64} {m : Int32} : narrow n = .ok m ↔ n = m.toInt64 := by
  have hlow := Int32.toInt_minValue
  have hhigh := Int32.toInt_maxValue
  unfold narrow
  split
  · next hfits =>
    have hn : n.toInt32.toInt = n.toInt := by
      rw [Int64.toInt_toInt32, Int.bmod_eq_of_le] <;> omega
    rw [Except.ok.injEq, eq_toInt64_iff, ← Int32.toInt_inj, hn, eq_comm]
  · next hfits =>
    refine iff_of_false nofun fun h => hfits ?_
    have := exists_toInt_eq_iff.1 ⟨m, eq_toInt64_iff.1 h⟩
    omega

/-! ## Values -/

/-- What an error says was expected where the shape does not fit the value. -/
def wanted : Shape → Value → String
  | .int32, .int _ => "32-bit int"
  | s, _ => s.expected

/-- **A plain value is taken out of the value that is made of it**, and out of no other. -/
theorem toPlain_eq_ok_iff {s : Shape} {v : Value} {x : s.Carrier} :
    s.toPlain v = .ok x ↔ v = s.ofPlain x := by
  cases s with
  | int32 =>
    cases v with
    | int n => exact narrow_eq_ok_iff.trans (Value.int.injEq _ _).to_iff.symm
    | _ => exact iff_of_false nofun nofun
  | _ => cases v <;> simp [toPlain, ofPlain]

theorem toPlain_eq_error {s : Shape} {v : Value} (h : ∀ x, v ≠ s.ofPlain x) :
    s.toPlain v = .error ⟨s.wanted v, v.kindName⟩ := by
  have hnot (x : s.Carrier) : s.toPlain v ≠ .ok x := fun hplain => h x (toPlain_eq_ok_iff.1 hplain)
  cases s with
  | int32 =>
    cases v with
    | int n =>
      simp only [toPlain, narrow] at hnot ⊢
      split
      · next hfits => exact absurd (if_pos hfits) (hnot _)
      · rfl
    | _ => rfl
  | _ => cases v <;> simp [toPlain, wanted] at hnot ⊢

theorem kindName_ofPlain (s : Shape) (x : s.Carrier) : (s.ofPlain x).kindName = s.expected := by
  cases s <;> rfl

theorem eq_or_integers_of_expected_eq {s s' : Shape} (h : s.expected = s'.expected) :
    s = s' ∨ s = .int64 ∧ s' = .int32 ∨ s = .int32 ∧ s' = .int64 := by
  cases s <;> cases s' <;> simp [expected] at h ⊢

/-- **Two shapes have no values in common**, but for integers. -/
theorem eq_or_int_of_ofPlain_eq {s s' : Shape} {x : s.Carrier} {x' : s'.Carrier}
    (h : s.ofPlain x = s'.ofPlain x') :
    s = s' ∨ (∃ n, s.ofPlain x = .int n) ∧ (s = .int64 ∧ s' = .int32 ∨ s = .int32 ∧ s' = .int64) := by
  have hexpected : s.expected = s'.expected := by rw [← s.kindName_ofPlain x, h, s'.kindName_ofPlain]
  refine (eq_or_integers_of_expected_eq hexpected).imp id fun hintegers => ⟨?_, hintegers⟩
  rcases hintegers with ⟨rfl, -⟩ | ⟨rfl, -⟩
  · exact ⟨x, rfl⟩
  · exact ⟨x.toInt64, rfl⟩

end AnnotationLookup.Shape
