import AnnotationLookup.Number.Shortest
import Mathlib.Algebra.Group.Nat.Defs

/-!
# Decimals that read back

* `Binary64.ofDecimal_mul_pow`: zeros at the end of the digits only move the exponent;
* `Binary64.readsBack_exactDecimal`: the exact expansion of a finite number reads back;
* **`Binary64.ofDecimal_shortest`**: so do its shortest digits, with the sign of the number;
* `Binary64.isFinite_ofInt`: an integer of 64 bits becomes a finite number.
-/

namespace AnnotationLookup

namespace Binary64

/-! ## Words -/

section Words

variable {x : Binary64}

theorem word_lt (x : Binary64) : x.word < 2 ^ 64 := x.bits.toNat_lt

theorem word_ofWord {negative : Bool} {w : Nat} (h : w < 2 ^ 63) :
    (ofWord negative w).word = if negative then 2 ^ 63 + w else w := by
  simp only [ofWord, word, Nat.pow_eq]
  split
  · exact UInt64.toNat_ofNat_of_lt' (by simp only [UInt64.size]; omega)
  · exact UInt64.toNat_ofNat_of_lt' (by simp only [UInt64.size]; omega)

theorem ofWord_negative (x : Binary64) : ofWord x.negative (x.word % 2 ^ 63) = x := by
  have hlt : x.word < 2 ^ 64 := x.word_lt
  have hword : (ofWord x.negative (x.word % 2 ^ 63)).word = x.word := by
    rw [word_ofWord (by omega), negative, Nat.pow_eq]
    split
    · next h => simp only [decide_eq_true_eq] at h; omega
    · next h => simp only [decide_eq_true_eq] at h; omega
  cases hx : ofWord x.negative (x.word % 2 ^ 63) with
  | mk bits =>
    rw [hx] at hword
    cases x
    exact congrArg mk (UInt64.toNat.inj hword)

theorem infinityWord_lt : infinityWord < 2 ^ 63 := by decide

theorem isFinite_ofWord {negative : Bool} {w : Nat} (h : w < infinityWord) :
    (ofWord negative w).isFinite := by
  have hlt : w < 2047 * 2 ^ 52 := h
  rw [isFinite, biased, word_ofWord (Nat.lt_trans h infinityWord_lt), Nat.pow_eq, Nat.pow_eq]
  split <;> simp only [bne_iff_ne] <;> omega

theorem wordOfRatio_le (num den : Nat) : wordOfRatio num den ≤ infinityWord := Nat.min_le_right _ _

/-- The sign has no part in the rest of the word. -/
theorem exists_ofDecimal (digits : Nat) (exponent : Int) : ∃ w, w ≤ infinityWord ∧
    ∀ negative, ofDecimal negative digits exponent = ofWord negative w := by
  by_cases hzero : digits = 0 ∨ (digitCount digits + exponent : Int) < -330
  · exact ⟨0, Nat.zero_le _, fun _ => if_pos hzero⟩
  · by_cases hbig : 310 < (digitCount digits + exponent : Int)
    · exact ⟨infinityWord, Nat.le_refl _, fun _ => by simp only [ofDecimal, if_neg hzero, if_pos hbig]⟩
    · by_cases hexponent : 0 ≤ exponent
      · exact ⟨_, wordOfRatio_le (digits * 10 ^ exponent.toNat * 2 ^ 1074) 1, fun _ => by
          simp only [ofDecimal, if_neg hzero, if_neg hbig, if_pos hexponent, ofRatio, Nat.pow_eq]⟩
      · exact ⟨_, wordOfRatio_le (digits * 2 ^ 1074) (10 ^ (-exponent).toNat), fun _ => by
          simp only [ofDecimal, if_neg hzero, if_neg hbig, if_neg hexponent, ofRatio, Nat.pow_eq]⟩

theorem ofDecimal_of_readsBack {d : Decimal} (h : x.readsBack d) :
    ofDecimal x.negative d.digits d.exponent = x := by
  obtain ⟨w, hw, hof⟩ := exists_ofDecimal d.digits d.exponent
  have hlt : w < 2 ^ 63 := Nat.lt_of_le_of_lt hw infinityWord_lt
  have hback : w = x.word % 2 ^ 63 := by
    simpa [readsBack, hof, word_ofWord hlt] using h
  rw [hof, hback, ofWord_negative]

end Words

/-! ## Scaling -/

theorem roundDiv_mul_left {c : Nat} (hc : 0 < c) (num den : Nat) :
    roundDiv (c * num) (c * den) = roundDiv num den := by
  have htwice : 2 * (c * num % (c * den)) = c * (2 * (num % den)) := by
    rw [Nat.mul_mod_mul_left, Nat.mul_left_comm]
  simp only [roundDiv, Nat.mul_div_mul_left _ _ hc, htwice, Nat.mul_lt_mul_left hc]

theorem wordOfRatio_mul_left {c : Nat} (hc : 0 < c) (num den : Nat) :
    wordOfRatio (c * num) (c * den) = wordOfRatio num den := by
  simp only [wordOfRatio, Nat.mul_div_mul_left _ _ hc, Nat.mul_assoc, roundDiv_mul_left hc]

theorem digitCount_mul_ten {n : Nat} (h : 0 < n) : digitCount (n * 10) = digitCount n + 1 := by
  have hbase : 10 ≤ n * 10 := by omega
  rw [digitCount, digitCount, Nat.toDigits_of_base_le (by decide) hbase,
    Nat.mul_div_cancel _ (by decide)]
  simp

/-- A power of ten stands above or below the line, as the sign of its exponent says. -/
theorem ofRatio_mul_ten (negative : Bool) (digits unit : Nat) (exponent : Int) :
    (if 0 ≤ exponent then ofRatio negative (digits * 10 * 10 ^ exponent.toNat * unit) 1
      else ofRatio negative (digits * 10 * unit) (10 ^ (-exponent).toNat)) =
    if 0 ≤ exponent + 1 then ofRatio negative (digits * 10 ^ (exponent + 1).toNat * unit) 1
      else ofRatio negative (digits * unit) (10 ^ (-(exponent + 1)).toNat) := by
  by_cases habove : 0 ≤ exponent
  · have hpow : 10 ^ (exponent + 1).toNat = 10 * 10 ^ exponent.toNat := by
      rw [← Nat.pow_succ']
      congr 1
      omega
    rw [if_pos habove, if_pos (by omega), hpow, Nat.mul_assoc digits]
  · have hpow : 10 ^ (-exponent).toNat = 10 * 10 ^ (-(exponent + 1)).toNat := by
      rw [← Nat.pow_succ']
      congr 1
      omega
    have hscaled : ofRatio negative (digits * 10 * unit) (10 ^ (-exponent).toNat) =
        ofRatio negative (digits * unit) (10 ^ (-(exponent + 1)).toNat) := by
      rw [ofRatio, hpow, Nat.mul_comm digits, Nat.mul_assoc 10, wordOfRatio_mul_left (by decide),
        ofRatio]
    rw [if_neg habove, hscaled]
    split
    · obtain rfl : exponent = -1 := by omega
      simp
    · rfl

theorem ofDecimal_mul_ten (negative : Bool) (digits : Nat) (exponent : Int) :
    ofDecimal negative (digits * 10) exponent = ofDecimal negative digits (exponent + 1) := by
  rcases Nat.eq_zero_or_pos digits with rfl | hpos
  · simp [ofDecimal]
  · have htop : (digitCount (digits * 10) + exponent : Int) = digitCount digits + (exponent + 1) := by
      rw [digitCount_mul_ten hpos]
      omega
    have hzero : digits * 10 = 0 ↔ digits = 0 := by omega
    simp only [ofDecimal, htop, hzero, Nat.pow_eq, ofRatio_mul_ten]

theorem ofDecimal_mul_pow (negative : Bool) (digits zeros : Nat) (exponent : Int) :
    ofDecimal negative (digits * 10 ^ zeros) exponent =
      ofDecimal negative digits (exponent + zeros) := by
  induction zeros generalizing exponent with
  | zero => simp
  | succ zeros ih =>
    rw [Nat.pow_succ, ← Nat.mul_assoc, ofDecimal_mul_ten, ih]
    congr 1
    omega

/-! ## Exact expansions -/

section Exact

variable {x : Binary64}

theorem biased_lt (h : x.isFinite) : x.biased < 2047 := by
  have hne : x.biased ≠ 2047 := by simpa [isFinite] using h
  have hlt : x.biased < 2 ^ 11 := Nat.mod_lt _ (by decide)
  omega

theorem word_mod (x : Binary64) : x.word % 2 ^ 63 = x.biased * 2 ^ 52 + x.fraction := by
  simp only [biased, fraction, Nat.pow_eq]
  omega

theorem fraction_lt (x : Binary64) : x.fraction < 2 ^ 52 := Nat.mod_lt _ (by decide)

theorem significand_lt (x : Binary64) : x.significand < 2 ^ 53 := by
  have hfraction := x.fraction_lt
  simp only [significand, Nat.pow_eq]
  split <;> omega

theorem log2_units (x : Binary64) : x.units.log2 - 52 = x.biased - 1 := by
  have hlt := x.significand_lt
  by_cases hsubnormal : x.biased = 0
  · have hunits : x.units = x.fraction := by simp [units, significand, hsubnormal]
    have hlog : x.fraction.log2 ≤ 52 := by
      rcases Nat.eq_zero_or_pos x.fraction with hzero | hpos
      · simp [hzero]
      · exact Nat.le_of_lt ((Nat.log2_lt (by omega)).2 x.fraction_lt)
    rw [hunits, hsubnormal]
    omega
  · have hge : 2 ^ 52 ≤ x.significand := by simp [significand, hsubnormal]
    have hlog : x.units.log2 = 52 + (x.biased - 1) := by
      have hpow : 0 < 2 ^ (x.biased - 1) := Nat.two_pow_pos _
      have hlow : 2 ^ (52 + (x.biased - 1)) ≤ x.units := by
        rw [Nat.pow_add]
        exact Nat.mul_le_mul_right _ hge
      have hhigh : x.units < 2 ^ (52 + (x.biased - 1) + 1) := by
        rw [Nat.add_right_comm, Nat.pow_add]
        exact Nat.mul_lt_mul_of_pos_right hlt hpow
      exact (Nat.log2_eq_iff (by omega)).2 ⟨hlow, hhigh⟩
    omega

theorem roundDiv_mul_right (n : Nat) {den : Nat} (h : 0 < den) : roundDiv (n * den) den = n := by
  simp [roundDiv, Nat.mul_div_cancel _ h, h]

/-- A number is rounded to itself. -/
theorem wordOfRatio_units (h : x.isFinite) : wordOfRatio x.units 1 = x.word % 2 ^ 63 := by
  have hbiased := biased_lt h
  have hfraction := x.fraction_lt
  have hround : roundDiv x.units (1 * 2 ^ (x.biased - 1)) = x.significand := by
    rw [Nat.one_mul]
    exact roundDiv_mul_right _ (Nat.two_pow_pos _)
  simp only [wordOfRatio, Nat.div_one, log2_units, Nat.pow_eq, hround, word_mod, infinityWord,
    significand]
  split <;> omega

theorem mul_two_pow_lt {n a : Nat} (h : n < 2 ^ a) (b : Nat) : n * 2 ^ b < 2 ^ (a + b) := by
  rw [Nat.pow_add]
  exact Nat.mul_lt_mul_of_pos_right h (Nat.two_pow_pos b)

theorem units_lt (h : x.isFinite) : x.units < 2 ^ (1024 + 1074) := by
  have hbiased := biased_lt h
  have hlow : x.units < 2 ^ (53 + (x.biased - 1)) := mul_two_pow_lt x.significand_lt _
  exact Nat.lt_of_lt_of_le hlow (Nat.pow_le_pow_right (by decide) (by omega))

theorem digitCount_le {n k : Nat} (hk : 0 < k) (h : n < 10 ^ k) : digitCount n ≤ k :=
  (Nat.length_toDigits_le_iff (by decide) hk).2 h

theorem lt_digitCount {n k : Nat} (hk : 0 < k) (h : 10 ^ k ≤ n) : k < digitCount n :=
  Nat.lt_of_not_le fun hle => Nat.not_lt.2 h ((Nat.length_toDigits_le_iff (by decide) hk).1 hle)

theorem wordOfRatio_units_mul (h : x.isFinite) (places : Nat) :
    wordOfRatio (x.units * 5 ^ places * 2 ^ places) (10 ^ places) = x.word % 2 ^ 63 := by
  have hten : 5 ^ places * 2 ^ places = 10 ^ places := (Nat.mul_pow 5 2 places).symm
  have hscaled : wordOfRatio (10 ^ places * x.units) (10 ^ places * 1) = wordOfRatio x.units 1 :=
    wordOfRatio_mul_left (Nat.pow_pos (by decide)) _ _
  rw [Nat.mul_assoc, hten, Nat.mul_comm, ← wordOfRatio_units h, ← hscaled, Nat.mul_one]

theorem exactDecimal_digits (x : Binary64) : x.exactDecimal.digits = x.units * 5 ^ 1074 := rfl

/-- The exact expansion of a number is neither above nor below the powers of ten that are computed. -/
theorem digitCount_exactDecimal (h : x.isFinite) (hpos : 0 < x.units) :
    743 < digitCount x.exactDecimal.digits ∧ digitCount x.exactDecimal.digits ≤ 1384 := by
  have hlow : 10 ^ 743 ≤ 5 ^ 1074 := by decide +kernel
  have hhigh : 2 ^ (1024 + 1074) * 5 ^ 1074 ≤ 10 ^ 1384 := by decide +kernel
  have hfive : 0 < 5 ^ 1074 := Nat.pow_pos (by decide)
  rw [exactDecimal_digits]
  constructor
  · exact lt_digitCount (by decide) (Nat.le_trans hlow (Nat.le_mul_of_pos_left _ hpos))
  · have hlt := Nat.mul_lt_mul_of_pos_right (units_lt h) hfive
    exact digitCount_le (by decide) (Nat.lt_of_lt_of_le hlt hhigh)

theorem ofDecimal_neg (negative : Bool) {digits places : Nat} (hdigits : digits ≠ 0)
    (hplaces : 0 < places) (hlow : places ≤ digitCount digits + 330)
    (hhigh : digitCount digits ≤ places + 310) :
    ofDecimal negative digits (-places) = ofRatio negative (digits * 2 ^ 1074) (10 ^ places) := by
  have hnat : (-(-(places : Int))).toNat = places := by omega
  rw [ofDecimal, if_neg (by omega), if_neg (by omega), if_neg (by omega), hnat, Nat.pow_eq, Nat.pow_eq]

/-- The exact expansion of a finite number reads back. -/
theorem readsBack_exactDecimal (h : x.isFinite) (hpos : 0 < x.units) :
    x.readsBack x.exactDecimal := by
  obtain ⟨hlow, hhigh⟩ := digitCount_exactDecimal h hpos
  have hof : ofDecimal false x.exactDecimal.digits x.exactDecimal.exponent =
      ofRatio false (x.exactDecimal.digits * 2 ^ 1074) (10 ^ 1074) := by
    have hdigits : x.exactDecimal.digits ≠ 0 := by
      intro hzero
      rw [hzero] at hlow
      exact absurd hlow (by decide)
    have hplaces : 1074 ≤ digitCount x.exactDecimal.digits + 330 := by omega
    have hlength : digitCount x.exactDecimal.digits ≤ 1074 + 310 := hhigh
    exact ofDecimal_neg false hdigits (by decide) hplaces hlength
  have hword : wordOfRatio (x.exactDecimal.digits * 2 ^ 1074) (10 ^ 1074) = x.word % 2 ^ 63 := by
    rw [exactDecimal_digits]
    exact wordOfRatio_units_mul h 1074
  have hback : (ofRatio false (x.exactDecimal.digits * 2 ^ 1074) (10 ^ 1074)).word =
      x.word % 2 ^ 63 := by
    rw [ofRatio, hword, word_ofWord (Nat.mod_lt _ (Nat.two_pow_pos 63))]
    exact if_neg Bool.false_ne_true
  rw [readsBack, hof, hback]
  exact beq_self_eq_true _

end Exact

/-! ## Shortest digits -/

section Shortest

variable {x : Binary64} {tie : Tie} {d : Decimal}

theorem readsBack_of_candidate {drop : Nat} (h : x.candidate? tie drop = some d) : x.readsBack d := by
  unfold candidate? at h
  dsimp only at h
  split at h
  · next hbelow =>
    split at h
    · next habove =>
      split at h
      · cases h; exact hbelow
      · split at h
        · cases h; exact habove
        · cases tie with
          | up => cases h; exact habove
          | toEven =>
            cases h
            split
            · exact hbelow
            · exact habove
    · cases h; exact hbelow
  · split at h
    · next habove => cases h; exact habove
    · cases h

theorem readsBack_reduce (x : Binary64) (d : Decimal) : x.readsBack d.reduce = x.readsBack d := by
  induction d using Decimal.reduce.induct with
  | case1 d h ih =>
    have hdigits : d.digits / 10 * 10 = d.digits := by omega
    have hscaled : ofDecimal false d.digits d.exponent =
        ofDecimal false (d.digits / 10) (d.exponent + 1) := by
      rw [← ofDecimal_mul_ten, hdigits]
    rw [Decimal.reduce, if_pos h, ih, readsBack, readsBack, hscaled]
  | case2 d h => rw [Decimal.reduce, if_neg h]

theorem units_eq_zero_iff (x : Binary64) : x.units = 0 ↔ x.word % 2 ^ 63 = 0 := by
  have hpow : 2 ^ (x.biased - 1) ≠ 0 := Nat.ne_of_gt (Nat.two_pow_pos _)
  rw [units, Nat.pow_eq, Nat.mul_eq_zero, or_iff_left hpow, significand, Nat.pow_eq, word_mod]
  split <;> omega

theorem readsBack_shortest (tie : Tie) (h : x.isFinite) : x.readsBack (x.shortest tie) := by
  unfold shortest
  split
  · next hunits =>
    rw [readsBack, Nat.pow_eq, (units_eq_zero_iff x).1 hunits]
    rfl
  · next hunits =>
    rw [readsBack_reduce]
    cases hfound : (List.range' 1 (digitCount x.exactDecimal.digits)).findSome? fun n =>
        x.candidate? tie (digitCount x.exactDecimal.digits - n) with
    | none => exact readsBack_exactDecimal h (Nat.pos_of_ne_zero hunits)
    | some d =>
      obtain ⟨n, -, hcandidate⟩ := List.exists_of_findSome?_eq_some hfound
      exact readsBack_of_candidate hcandidate

theorem shortest_of_digits_eq_zero (h : x.isFinite) (hdigits : (x.shortest tie).digits = 0) :
    x.shortest tie = ⟨0, 0⟩ := by
  have hback : x.readsBack (x.shortest tie) := readsBack_shortest tie h
  have hof : ofDecimal false (x.shortest tie).digits (x.shortest tie).exponent = ofWord false 0 :=
    if_pos (.inl hdigits)
  have hword : 0 = x.word % 2 ^ 63 := by simpa [readsBack, hof, word_ofWord] using hback
  rw [shortest, if_pos ((units_eq_zero_iff x).2 hword.symm)]

/-- **The shortest digits of a finite number read back** with its sign. -/
theorem ofDecimal_shortest (tie : Tie) (h : x.isFinite) :
    ofDecimal x.negative (x.shortest tie).digits (x.shortest tie).exponent = x :=
  ofDecimal_of_readsBack (readsBack_shortest tie h)

end Shortest

/-! ## Integers -/

theorem roundDiv_le (num den : Nat) : roundDiv num den ≤ num / den + 1 := by
  unfold roundDiv
  dsimp only
  split
  · omega
  · split <;> omega

theorem wordOfRatio_le_of_lt {num : Nat} (bits : Nat) (h : num < 2 ^ (bits + 1)) :
    wordOfRatio num 1 ≤ (bits - 52 + 2) * 2 ^ 52 := by
  have hlog : num.log2 ≤ bits := by
    rcases Nat.eq_zero_or_pos num with rfl | hpos
    · simp
    · exact Nat.le_of_lt_succ ((Nat.log2_lt (by omega)).2 h)
  have hquotient : num / 2 ^ (num.log2 - 52) < 2 ^ 53 := by
    refine Nat.div_lt_of_lt_mul (Nat.lt_of_lt_of_le Nat.lt_log2_self ?_)
    rw [← Nat.pow_add]
    exact Nat.pow_le_pow_right (by decide) (by omega)
  have hround : roundDiv num (1 * 2 ^ (num.log2 - 52)) ≤ 2 ^ 53 := by
    have hle := roundDiv_le num (1 * 2 ^ (num.log2 - 52))
    rw [Nat.one_mul] at hle ⊢
    omega
  refine Nat.le_trans (Nat.min_le_left _ _) ?_
  rw [Nat.div_one, Nat.pow_eq, Nat.pow_eq]
  omega

theorem isFinite_ofInt {n : Int} (h : n.natAbs < 2 ^ 64) : (ofInt n).isFinite := by
  by_cases hzero : n.natAbs = 0
  · rw [ofInt, ofDecimal, if_pos (.inl hzero)]
    exact isFinite_ofWord (by decide)
  · have hdigits : digitCount n.natAbs ≤ 20 := digitCount_le (by decide) (Nat.lt_trans h (by decide))
    have hunits : n.natAbs * 10 ^ 0 * 2 ^ 1074 < 2 ^ (64 + 1074) :=
      mul_two_pow_lt (by rwa [Nat.pow_zero, Nat.mul_one]) 1074
    have hword : wordOfRatio (n.natAbs * 10 ^ 0 * 2 ^ 1074) 1 < infinityWord :=
      Nat.lt_of_le_of_lt (wordOfRatio_le_of_lt 1137 hunits) (by decide)
    rw [ofInt, ofDecimal, if_neg (by omega), if_neg (by omega), if_pos (by decide)]
    exact isFinite_ofWord hword

end Binary64

end AnnotationLookup
