import AnnotationLookup.Json.Printer
import AnnotationLookup.Json.Reader
import AnnotationLookup.Proofs.Number.Decimal

/-!
# Numbers in JSON text

* `Json.Token`: a number without its sign, by the parts of its text, and `Json.Token.read`: these
  parts are read where nothing follows that could belong to the number;
* `Json.numberLayout_plain`, `Json.numberLayout_scientific`: every layout of digits is a token, and
  denotes the digits with their exponent;
* **`Json.readNumber_intText`**, **`Json.readNumber_float`**: the number that was written is read.
-/

namespace AnnotationLookup.Json

/-! ## Digits -/

section Digits

variable {ds rest : List Char}

/-- What follows a number is no part of it. -/
def EndsNumber (rest : List Char) : Prop :=
  ∀ c ∈ rest.head?, c.isDigit = false ∧ c ≠ '.' ∧ c ≠ 'e' ∧ c ≠ 'E'

theorem spanDigits_append (hds : ∀ c ∈ ds, c.isDigit) (hrest : ∀ c ∈ rest.head?, c.isDigit = false) :
    spanDigits (ds ++ rest) = (ds, rest) := by
  have hnone : rest.takeWhile Char.isDigit = [] ∧ rest.dropWhile Char.isDigit = rest := by
    cases rest with
    | nil => exact ⟨rfl, rfl⟩
    | cons c rest => simp [hrest c rfl]
  rw [spanDigits, List.takeWhile_append_of_pos hds, List.dropWhile_append_of_pos hds, hnone.1, hnone.2,
    List.append_nil]

theorem isDigit_of_mem_toDigits {n : Nat} : ∀ c ∈ Nat.toDigits 10 n, c.isDigit := fun _ hc =>
  Nat.isDigit_of_mem_toDigits (by decide) (by decide) hc

/-- Only zero has a leading zero. -/
theorem head?_toDigits_ne {n : Nat} (h : 0 < n) : (Nat.toDigits 10 n).head? ≠ some '0' := by
  induction n using Nat.strongRecOn with
  | ind n ih =>
    by_cases hsmall : n < 10
    · rw [Nat.toDigits_of_lt_base hsmall]
      simpa using Nat.ne_of_gt h
    · have hquotient := ih (n / 10) (by omega) (by omega)
      rw [Nat.toDigits_of_base_le (by decide) (by omega)]
      cases hds : Nat.toDigits 10 (n / 10) with
      | nil => exact absurd hds Nat.toDigits_ne_nil
      | cons c ds => simpa [hds] using hquotient

/-- The whole part of a number: digits, the first of which is zero only if it stands alone. -/
structure IsWhole (ds : List Char) : Prop where
  isDigit : ∀ c ∈ ds, c.isDigit
  ne_nil : ds ≠ []
  leading : ds.head? = some '0' → ds = ['0']

theorem isWhole_toDigits (n : Nat) : IsWhole (Nat.toDigits 10 n) where
  isDigit := isDigit_of_mem_toDigits
  ne_nil := Nat.toDigits_ne_nil
  leading h := by
    rcases Nat.eq_zero_or_pos n with rfl | hpos
    · rfl
    · exact absurd h (head?_toDigits_ne hpos)

theorem isWhole_zero : IsWhole ['0'] := isWhole_toDigits 0

theorem readWhole_append (h : IsWhole ds) (hrest : ∀ c ∈ rest.head?, c.isDigit = false) :
    readWhole (ds ++ rest) = some (ds, rest) := by
  unfold readWhole
  split
  · next rest' heq =>
    have hds : ds = ['0'] := h.leading (by
      cases ds with
      | nil => exact absurd rfl h.ne_nil
      | cons c ds => simp_all)
    subst hds
    obtain rfl : rest = rest' := by simpa using heq
    have hnone : rest.head?.any Char.isDigit = false := by
      cases hhead : rest.head? with
      | none => rfl
      | some c => exact hrest c hhead
    simp [hnone]
  · have hempty : ds.isEmpty = false := by simpa using h.ne_nil
    simp [spanDigits_append h.isDigit hrest, hempty]

end Digits

/-! ## Tokens -/

/-- A number without its sign, by the parts of its text. -/
structure Token where
  whole : List Char
  fraction : List Char := []
  exponent : Option Int := none

namespace Token

/-- A fraction is written after a point, and left out where it has no digits. -/
def fractionChars : List Char → List Char
  | [] => []
  | ds => '.' :: ds

/-- An exponent is written with its sign. -/
def exponentChars : Option Int → List Char
  | none => []
  | some e => 'e' :: (if e < 0 then '-' else '+') :: Nat.toDigits 10 e.natAbs

/-- The text of a number without its sign. -/
def chars (t : Token) : List Char := t.whole ++ (fractionChars t.fraction ++ exponentChars t.exponent)

/-- The parts are such as they are read. -/
structure WellFormed (t : Token) : Prop where
  whole : IsWhole t.whole
  fraction : ∀ c ∈ t.fraction, c.isDigit

variable {rest : List Char}

theorem readExponent_append (hrest : EndsNumber rest) (e : Option Int) :
    readExponent (exponentChars e ++ rest) = some (e, rest) := by
  cases e with
  | none =>
    cases rest with
    | nil => rfl
    | cons c rest =>
      obtain ⟨-, -, he, hE⟩ := hrest c rfl
      simp [exponentChars, readExponent, he, hE]
  | some e =>
    have hdigits : spanDigits (Nat.toDigits 10 e.natAbs ++ rest) = (Nat.toDigits 10 e.natAbs, rest) :=
      spanDigits_append isDigit_of_mem_toDigits fun c hc => (hrest c hc).1
    have hread (negative : Bool) : readExponentDigits negative (Nat.toDigits 10 e.natAbs ++ rest) =
        some (some (if negative then -(e.natAbs : Int) else e.natAbs), rest) := by
      simp only [readExponentDigits, hdigits, Nat.ofDigitChars_ten_toDigits, List.isEmpty_iff,
        Nat.toDigits_ne_nil, if_false]
    by_cases hneg : e < 0
    · have hvalue : -(e.natAbs : Int) = e := by omega
      have hsigned := hread true
      rw [if_pos rfl, hvalue] at hsigned
      rw [exponentChars, if_pos hneg]
      exact hsigned
    · have hvalue : (e.natAbs : Int) = e := by omega
      have hsigned := hread false
      rw [if_neg Bool.false_ne_true, hvalue] at hsigned
      rw [exponentChars, if_neg hneg]
      exact hsigned

theorem head?_exponentChars (hrest : EndsNumber rest) (e : Option Int) :
    ∀ c ∈ (exponentChars e ++ rest).head?, c.isDigit = false ∧ c ≠ '.' := by
  cases e with
  | none => exact fun c hc => ⟨(hrest c hc).1, (hrest c hc).2.1⟩
  | some e =>
    rintro c ⟨⟩
    exact ⟨by decide, by decide⟩

theorem readFraction_append {ds tail : List Char} (hds : ∀ c ∈ ds, c.isDigit)
    (htail : ∀ c ∈ tail.head?, c.isDigit = false ∧ c ≠ '.') :
    readFraction (fractionChars ds ++ tail) = some (ds, tail) := by
  cases ds with
  | nil =>
    cases tail with
    | nil => rfl
    | cons c tail =>
      have hpoint : c ≠ '.' := (htail c rfl).2
      simp [fractionChars, readFraction, hpoint]
  | cons d ds =>
    have hspan : spanDigits (d :: ds ++ tail) = (d :: ds, tail) :=
      spanDigits_append hds fun c hc => (htail c hc).1
    rw [List.cons_append] at hspan
    simp [fractionChars, readFraction, hspan]

/-- The parts of a number are read from its text. -/
theorem read {t : Token} (ht : t.WellFormed) (hrest : EndsNumber rest) (negative : Bool) :
    readUnsigned negative (t.chars ++ rest) =
      some (numberOf negative t.whole t.fraction t.exponent, rest) := by
  have hexponent := head?_exponentChars hrest t.exponent
  have hfraction : ∀ c ∈ (fractionChars t.fraction ++ (exponentChars t.exponent ++ rest)).head?,
      c.isDigit = false := by
    cases t.fraction with
    | nil => exact fun c hc => (hexponent c hc).1
    | cons d ds =>
      rintro c ⟨⟩
      decide
  have hchars : t.chars ++ rest =
      t.whole ++ (fractionChars t.fraction ++ (exponentChars t.exponent ++ rest)) := by
    simp [chars]
  rw [readUnsigned, hchars, readWhole_append ht.whole hfraction]
  simp only [Option.bind_eq_bind, Option.bind_some]
  rw [readFraction_append ht.fraction hexponent, Option.bind_some, readExponent_append hrest,
    Option.bind_some]

/-- The text is that of a number with a fraction or an exponent, which denotes this decimal. -/
structure Spells (t : Token) (d : Decimal) : Prop extends t.WellFormed where
  not_integral : (t.fraction.isEmpty && t.exponent.isNone) = false
  denotes (negative : Bool) :
    Binary64.ofDecimal negative (Nat.ofDigitChars 10 (t.whole ++ t.fraction) 0)
      (t.exponent.getD 0 - t.fraction.length) = Binary64.ofDecimal negative d.digits d.exponent

theorem Spells.read {t : Token} {d : Decimal} {x : Binary64} {negative : Bool} (ht : t.Spells d)
    (hx : Binary64.ofDecimal negative d.digits d.exponent = x) (hfinite : x.isFinite)
    (hrest : EndsNumber rest) : readUnsigned negative (t.chars ++ rest) = some (.float x, rest) := by
  rw [Token.read ht.toWellFormed hrest, numberOf]
  simp only [ht.not_integral, ht.denotes, hx, hfinite, Bool.false_and, Bool.false_eq_true, if_false,
    if_true]

end Token

/-! ## Layouts -/

section Layouts

theorem isWhole_of_head? {n : Nat} (hn : 0 < n) {ds : List Char} (hds : ∀ c ∈ ds, c.isDigit)
    (hhead : ds.head? = (Nat.toDigits 10 n).head?) : IsWhole ds where
  isDigit := hds
  ne_nil := by
    rintro rfl
    exact Nat.toDigits_ne_nil (List.head?_eq_none_iff.1 hhead.symm)
  leading h := absurd (hhead.symm.trans h) (head?_toDigits_ne hn)

theorem head?_take {ds : List Char} {k : Nat} (hk : 0 < k) : (ds.take k).head? = ds.head? := by
  cases ds with
  | nil => rw [List.take_nil]
  | cons c ds => cases k with
    | zero => omega
    | succ k => rfl

theorem spells_whole {n e : Nat} (hzero : n = 0 → e = 0) :
    Token.Spells { whole := Nat.toDigits 10 n ++ List.replicate e '0', fraction := ['0'] } ⟨n, e⟩ where
  whole := by
    rcases Nat.eq_zero_or_pos n with rfl | hpos
    · rw [hzero rfl]
      exact isWhole_zero
    · refine isWhole_of_head? hpos (fun c hc => ?_) ?_
      · rcases List.mem_append.1 hc with hc | hc
        · exact isDigit_of_mem_toDigits c hc
        · rw [List.eq_of_mem_replicate hc]
          rfl
      · cases hds : Nat.toDigits 10 n with
        | nil => exact absurd hds Nat.toDigits_ne_nil
        | cons c ds => rfl
  fraction c hc := by
    rw [List.mem_singleton.1 hc]
    rfl
  not_integral := rfl
  denotes negative := by
    have hdigits : Nat.ofDigitChars 10 (Nat.toDigits 10 n ++ List.replicate e '0' ++ ['0']) 0 =
        n * 10 ^ (e + 1) := by
      rw [List.append_assoc, ← List.replicate_succ', Nat.ofDigitChars_append,
        Nat.ofDigitChars_ten_toDigits, Nat.ofDigitChars_replicate_zero, Nat.mul_comm]
    rw [hdigits, Binary64.ofDecimal_mul_pow]
    congr 1
    simp only [Option.getD_none, List.length_singleton]
    omega

theorem spells_split {n places : Nat} (hpos : 0 < n) (hplaces : 0 < places)
    (hlength : places < (Nat.toDigits 10 n).length) :
    Token.Spells {
      whole := (Nat.toDigits 10 n).take ((Nat.toDigits 10 n).length - places)
      fraction := (Nat.toDigits 10 n).drop ((Nat.toDigits 10 n).length - places) } ⟨n, -places⟩ where
  whole := isWhole_of_head? hpos (fun c hc => isDigit_of_mem_toDigits c (List.mem_of_mem_take hc))
    (head?_take (by omega))
  fraction c hc := isDigit_of_mem_toDigits c (List.mem_of_mem_drop hc)
  not_integral := by
    have hfraction : (Nat.toDigits 10 n).drop ((Nat.toDigits 10 n).length - places) ≠ [] := by
      rw [ne_eq, List.drop_eq_nil_iff]
      omega
    simp [hfraction]
  denotes negative := by
    rw [List.take_append_drop, Nat.ofDigitChars_ten_toDigits, List.length_drop]
    congr 1
    simp only [Option.getD_none]
    omega

theorem spells_small {n places : Nat} (hplaces : (Nat.toDigits 10 n).length ≤ places) :
    Token.Spells {
      whole := ['0']
      fraction := List.replicate (places - (Nat.toDigits 10 n).length) '0' ++ Nat.toDigits 10 n }
      ⟨n, -places⟩ where
  whole := isWhole_zero
  fraction c hc := by
    rcases List.mem_append.1 hc with hc | hc
    · rw [List.eq_of_mem_replicate hc]
      rfl
    · exact isDigit_of_mem_toDigits c hc
  not_integral := by simp [Nat.toDigits_ne_nil]
  denotes negative := by
    have hdigits : Nat.ofDigitChars 10
        (['0'] ++ (List.replicate (places - (Nat.toDigits 10 n).length) '0' ++ Nat.toDigits 10 n)) 0 =
          n := by
      rw [Nat.ofDigitChars_append, Nat.ofDigitChars_append]
      simp [Nat.ofDigitChars_cons]
    rw [hdigits, List.length_append, List.length_replicate]
    congr 1
    simp only [Option.getD_none]
    omega

theorem spells_scientific {n : Nat} (e : Int) (hzero : n = 0 → e = 0) :
    Token.Spells {
      whole := (Nat.toDigits 10 n).take 1
      fraction := (Nat.toDigits 10 n).drop 1
      exponent := some (e + (Nat.toDigits 10 n).length - 1) } ⟨n, e⟩ where
  whole := by
    rcases Nat.eq_zero_or_pos n with rfl | hpos
    · exact isWhole_zero
    · exact isWhole_of_head? hpos (fun c hc => isDigit_of_mem_toDigits c (List.mem_of_mem_take hc))
        (head?_take (by decide))
  fraction c hc := isDigit_of_mem_toDigits c (List.mem_of_mem_drop hc)
  not_integral := by simp
  denotes negative := by
    have hlength : 0 < (Nat.toDigits 10 n).length := Nat.length_toDigits_pos
    rw [List.take_append_drop, Nat.ofDigitChars_ten_toDigits, List.length_drop]
    congr 1
    simp only [Option.getD_some]
    omega

theorem fractionChars_of_ne_nil {ds : List Char} (h : ds ≠ []) : Token.fractionChars ds = '.' :: ds := by
  cases ds with
  | nil => exact absurd rfl h
  | cons c ds => rfl

theorem fractionChars_drop (ds : List Char) :
    Token.fractionChars (ds.drop 1) = if ds.length ≤ 1 then [] else '.' :: ds.drop 1 := by
  split
  · next h => rw [List.drop_eq_nil_iff.2 h, Token.fractionChars]
  · next h => exact fractionChars_of_ne_nil (mt List.drop_eq_nil_iff.1 h)

/-- Every layout of digits and an exponent spells them. -/
theorem exists_spells {n : Nat} {e : Int} (hzero : n = 0 → e = 0) : ∃ t : Token, t.Spells ⟨n, e⟩ ∧
    t.chars = if numberLayout.plain (e + (Nat.toDigits 10 n).length - 1) then
        numberLayout.plainText (Nat.toDigits 10 n) e
      else Layout.scientificText (Nat.toDigits 10 n) (e + (Nat.toDigits 10 n).length - 1) := by
  split
  · by_cases hwhole : 0 ≤ e
    · obtain ⟨k, rfl⟩ := Int.eq_ofNat_of_zero_le hwhole
      refine ⟨_, spells_whole fun h => Int.ofNat.inj (hzero h), ?_⟩
      simp [Token.chars, Token.fractionChars, Token.exponentChars, Layout.plainText, numberLayout]
    · obtain ⟨places, rfl⟩ : ∃ places : Nat, e = -places := ⟨e.natAbs, by omega⟩
      have hpos : 0 < n := Nat.pos_of_ne_zero fun h => hwhole (hzero h ▸ Int.le_refl 0)
      have hplaces : 0 < places := by omega
      by_cases hsplit : places < (Nat.toDigits 10 n).length
      · refine ⟨_, spells_split hpos hplaces hsplit, ?_⟩
        have hfraction : (Nat.toDigits 10 n).drop ((Nat.toDigits 10 n).length - places) ≠ [] := by
          rw [ne_eq, List.drop_eq_nil_iff]
          omega
        simp [Token.chars, Token.exponentChars, fractionChars_of_ne_nil hfraction, Layout.plainText,
          Nat.ne_of_gt hplaces, hsplit]
      · refine ⟨_, spells_small (Nat.le_of_not_lt hsplit), ?_⟩
        have hfraction :
            List.replicate (places - (Nat.toDigits 10 n).length) '0' ++ Nat.toDigits 10 n ≠ [] :=
          List.append_ne_nil_of_right_ne_nil _ Nat.toDigits_ne_nil
        simp [Token.chars, Token.exponentChars, fractionChars_of_ne_nil hfraction, Layout.plainText,
          Nat.ne_of_gt hplaces, hsplit]
  · refine ⟨_, spells_scientific e hzero, ?_⟩
    rw [Token.chars, fractionChars_drop, Layout.scientificText, List.append_assoc]
    rfl

end Layouts

/-! ## Written numbers -/

section Written

variable {rest : List Char}

/-- A sign or a digit, with which every number begins. -/
def IsNumberStart (c : Char) : Prop := c = '-' ∨ c.isDigit

theorem IsWhole.exists_cons {ds : List Char} (h : IsWhole ds) : ∃ c cs, ds = c :: cs ∧ c.isDigit := by
  cases ds with
  | nil => exact absurd rfl h.ne_nil
  | cons c cs => exact ⟨c, cs, rfl, h.isDigit c List.mem_cons_self⟩

theorem readNumber_of_isDigit {c : Char} {cs : List Char} (h : c.isDigit) :
    readNumber (c :: cs) = readUnsigned false (c :: cs) := by
  unfold readNumber
  split
  · next heq =>
    obtain ⟨rfl, -⟩ := List.cons.inj heq
    exact absurd h (by decide)
  · rfl

theorem Token.exists_cons {t : Token} (ht : t.WellFormed) : ∃ c cs, t.chars = c :: cs ∧ c.isDigit := by
  obtain ⟨c, cs, hwhole, hc⟩ := ht.whole.exists_cons
  exact ⟨c, _, by rw [Token.chars, hwhole, List.cons_append], hc⟩

theorem readNumber_signed {t : Token} (ht : t.WellFormed) (negative : Bool) :
    readNumber ((if negative then '-' :: t.chars else t.chars) ++ rest) =
      readUnsigned negative (t.chars ++ rest) := by
  cases negative with
  | true => rfl
  | false =>
    obtain ⟨c, cs, hchars, hc⟩ := Token.exists_cons ht
    simp only [Bool.false_eq_true, if_false, hchars, List.cons_append]
    exact readNumber_of_isDigit hc

theorem isNumberStart_signed {t : Token} (ht : t.WellFormed) (negative : Bool) :
    ∃ c cs, (if negative then '-' :: t.chars else t.chars) = c :: cs ∧ IsNumberStart c := by
  cases negative with
  | true => exact ⟨'-', t.chars, rfl, .inl rfl⟩
  | false =>
    obtain ⟨c, cs, hchars, hc⟩ := Token.exists_cons ht
    exact ⟨c, cs, hchars, .inr hc⟩

theorem intText_eq (n : Int) : intText n =
    if decide (n < 0) then '-' :: Token.chars { whole := Nat.toDigits 10 n.natAbs }
    else Token.chars { whole := Nat.toDigits 10 n.natAbs } := by
  simp [intText, Token.chars, Token.fractionChars, Token.exponentChars]

theorem wellFormed_toDigits (n : Nat) : Token.WellFormed { whole := Nat.toDigits 10 n } where
  whole := isWhole_toDigits n
  fraction _ hc := nomatch hc

/-- An integer that fits 64 bits, signed or unsigned. -/
def IntFits (n : Int) : Prop := Int64.minValue.toInt ≤ n ∧ n < UInt64.size

theorem intFits_ofNat {n : Nat} (h : n < UInt64.size) : IntFits n := by
  have hmin : Int64.minValue.toInt ≤ 0 := by decide
  exact ⟨by omega, by omega⟩

theorem intFits_toInt (n : Int64) : IntFits n.toInt := by
  have hmax : Int64.maxValue.toInt < UInt64.size := by decide
  exact ⟨n.minValue_le_toInt, Int.lt_of_le_of_lt n.toInt_le hmax⟩

theorem IntFits.natAbs_lt {n : Int} (h : IntFits n) : n.natAbs < 2 ^ 64 := by
  have hmin : -2 ^ 64 < Int64.minValue.toInt := by decide
  have hsize : UInt64.size = 2 ^ 64 := rfl
  obtain ⟨hlow, hhigh⟩ := h
  omega

/-- **The integer that was written is read.** -/
theorem readNumber_intText {n : Int} (h : IntFits n) (hrest : EndsNumber rest) :
    readNumber (intText n ++ rest) = some (.int n, rest) := by
  rw [intText_eq, readNumber_signed (wellFormed_toDigits _), Token.read (wellFormed_toDigits _) hrest]
  obtain ⟨hlow, hhigh⟩ := h
  simp only [numberOf, List.append_nil, Nat.ofDigitChars_ten_toDigits, List.isEmpty_nil,
    Option.isNone_none, Bool.and_true, Bool.true_and]
  by_cases hneg : n < 0
  · have hvalue : -(n.natAbs : Int) = n := by omega
    have hfits : 0 < n.natAbs ∧ Int64.minValue.toInt ≤ n := ⟨by omega, hlow⟩
    simp only [decide_eq_true hneg, decide_eq_true hfits, hvalue, Bool.not_true, Bool.false_and,
      Bool.false_eq_true, if_false, Bool.and_true, if_true]
  · have hfits : n.natAbs < UInt64.size := by omega
    have hvalue : (n.natAbs : Int) = n := by omega
    simp only [decide_eq_false hneg, decide_eq_true hfits, hvalue, Bool.not_false, Bool.and_true,
      if_true]

theorem exists_render {x : Binary64} (h : x.isFinite) : ∃ t : Token,
    t.Spells (x.shortest numberLayout.tie) ∧
      numberLayout.render x = if x.negative then '-' :: t.chars else t.chars := by
  have hzero : (x.shortest numberLayout.tie).digits = 0 → (x.shortest numberLayout.tie).exponent = 0 :=
    fun hdigits => congrArg Decimal.exponent (Binary64.shortest_of_digits_eq_zero h hdigits)
  obtain ⟨t, ht, hchars⟩ := exists_spells hzero
  exact ⟨t, ht, by rw [hchars]; rfl⟩

/-- **The number that was written is read.** -/
theorem readNumber_float {x : Binary64} (h : x.isFinite) (hrest : EndsNumber rest) :
    readNumber (numberLayout.render x ++ rest) = some (.float x, rest) := by
  obtain ⟨t, ht, hchars⟩ := exists_render h
  rw [hchars, readNumber_signed ht.toWellFormed]
  exact ht.read (Binary64.ofDecimal_shortest _ h) h hrest

theorem isNumberStart_intText (n : Int) : ∃ c cs, intText n = c :: cs ∧ IsNumberStart c := by
  rw [intText_eq]
  exact isNumberStart_signed (wellFormed_toDigits _) _

theorem isNumberStart_float {x : Binary64} (h : x.isFinite) :
    ∃ c cs, numberLayout.render x = c :: cs ∧ IsNumberStart c := by
  obtain ⟨t, ht, hchars⟩ := exists_render h
  rw [hchars]
  exact isNumberStart_signed ht.toWellFormed _

end Written

end AnnotationLookup.Json
