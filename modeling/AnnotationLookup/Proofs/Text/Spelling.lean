import AnnotationLookup.Text.Blank
import AnnotationLookup.Text.Lowercase
import Mathlib.Data.List.TakeWhile

/-!
# Spelling

What is left of a text where neither the blanks around it nor the case of its letters count.

* `Text.Trims`, `Text.trims_iff`: the text between the blanks at both ends;
* `Text.LowerForm`: the lower-case forms of a text, of which there are several where a capital sigma
  ends a word;
* `Text.lowerChar_of_ascii`, `Text.lowerChar_of_not_ascii`: outside of ASCII, the Kelvin sign alone is
  lowered to nothing but ASCII;
* **`Text.LowerForm.eq_iff`**: which texts are lowered to a word of ASCII characters without `k`.
-/

namespace AnnotationLookup.Text

/-! ## Blanks around a text -/

/-- `core` is the text without the blanks at both ends. -/
structure Trims (cs core : List Char) : Prop where
  exists_blanks : ∃ before after, cs = before ++ core ++ after ∧
    (∀ c ∈ before, isBlank c = true) ∧ ∀ c ∈ after, isBlank c = true
  head : ∀ c ∈ core.head?, isBlank c = false
  last : ∀ c ∈ core.getLast?, isBlank c = false

theorem dropWhile_isBlank_append {before cs : List Char} (hbefore : ∀ c ∈ before, isBlank c = true)
    (h : ∀ c ∈ cs.head?, isBlank c = false) : (before ++ cs).dropWhile isBlank = cs := by
  rw [List.dropWhile_append_of_pos hbefore]
  cases cs with
  | nil => rfl
  | cons c cs => rw [List.dropWhile_cons_of_neg (by simp [h c rfl])]

theorem not_isBlank_of_head?_dropWhile {cs : List Char} {c : Char}
    (h : (cs.dropWhile isBlank).head? = some c) : isBlank c = false := by
  have := List.head?_dropWhile_not isBlank cs
  simpa [h] using this

theorem trims_trim (cs : List Char) : Trims cs (trim cs) := by
  obtain ⟨after, hafter, hrest⟩ : ∃ after, (∀ c ∈ after, isBlank c = true) ∧
      cs.dropWhile isBlank = trim cs ++ after := by
    refine ⟨((cs.dropWhile isBlank).reverse.takeWhile isBlank).reverse, fun c hc => ?_, ?_⟩
    · exact List.mem_takeWhile_imp (List.mem_reverse.1 hc)
    · rw [trim, ← List.reverse_append, List.takeWhile_append_dropWhile, List.reverse_reverse]
  refine ⟨⟨cs.takeWhile isBlank, after, ?_, fun c hc => List.mem_takeWhile_imp hc, hafter⟩, ?_, ?_⟩
  · rw [List.append_assoc, ← hrest, List.takeWhile_append_dropWhile]
  · intro c hc
    have hhead : (cs.dropWhile isBlank).head? = some c := by
      rw [hrest, List.head?_append, hc, Option.some_or]
    exact not_isBlank_of_head?_dropWhile hhead
  · intro c hc
    rw [trim, List.getLast?_reverse] at hc
    exact not_isBlank_of_head?_dropWhile hc

theorem Trims.eq_trim {cs core : List Char} (h : Trims cs core) : core = trim cs := by
  obtain ⟨⟨before, after, rfl, hbefore, hafter⟩, hhead, hlast⟩ := h
  have hback : (core ++ after).reverse.dropWhile isBlank = core.reverse := by
    rw [List.reverse_append]
    refine dropWhile_isBlank_append (fun c hc => hafter c (List.mem_reverse.1 hc)) ?_
    rwa [List.head?_reverse]
  cases core with
  | nil =>
    -- nothing but blanks: these are all dropped from the front
    have hblank : ∀ c ∈ before ++ after, isBlank c = true := List.forall_mem_append.2 ⟨hbefore, hafter⟩
    have hfront : (before ++ after ++ []).dropWhile isBlank = [] := dropWhile_isBlank_append hblank hhead
    rw [List.append_nil] at hfront
    rw [trim, List.append_nil, hfront]
    rfl
  | cons c core =>
    have hfront : (before ++ (c :: core ++ after)).dropWhile isBlank = c :: core ++ after :=
      dropWhile_isBlank_append hbefore hhead
    rw [trim, List.append_assoc, hfront, hback, List.reverse_reverse]

/-- **Trimming leaves what is between the blanks at both ends.** -/
theorem trims_iff {cs core : List Char} : Trims cs core ↔ core = trim cs :=
  ⟨Trims.eq_trim, fun h => h ▸ trims_trim cs⟩

theorem trim_eq_nil {cs : List Char} (h : ∀ c ∈ cs, isBlank c = true) : trim cs = [] := by
  have hnone : ∀ c ∈ ([] : List Char).head?, isBlank c = false := nofun
  have htrims : Trims cs [] := ⟨⟨cs, [], by simp, h, List.forall_mem_nil _⟩, hnone, hnone⟩
  exact htrims.eq_trim.symm

/-! ## Lower case -/

/-- A lower-case form of a text. A capital sigma is lowered to one of two letters, by its place in the
word. -/
inductive LowerForm : List Char → List Char → Prop
  | nil : LowerForm [] []
  | cons (c : Char) {cs ds : List Char} (h : LowerForm cs ds) : LowerForm (c :: cs) (lowerChar c ++ ds)
  | finalSigma {cs ds : List Char} (h : LowerForm cs ds) : LowerForm ('Σ' :: cs) ('ς' :: ds)

theorem lowerForm_lowerChars (cs : List Char) : LowerForm cs (lowerChars cs) := by
  induction cs with
  | nil => exact .nil
  | cons c cs ih => exact .cons c ih

theorem lowerChar_of_ascii {c : Char} (h : c.toNat < 128) : lowerChar c = [c.toLower] := by
  have hall : ∀ n < 128, lowerChar (Char.ofNat n) = [(Char.ofNat n).toLower] := by decide +kernel
  simpa using hall c.toNat h

/-- The rows hold ASCII letters, or the Kelvin sign alone, or letters that stay outside of ASCII. -/
theorem capitals_cases : ∀ row ∈ capitals, row.2.1 < 128 ∨
    row.1 = 0x212A ∧ row.2.1 = 0x212A ∧ row.2.2.2 = -8383 ∨
    128 ≤ row.1 + row.2.2.2 ∧
      (row.2.1 + row.2.2.2 < 0xD800 ∨ 0xDFFF < row.1 + row.2.2.2 ∧ row.2.1 + row.2.2.2 < 0x110000) := by
  decide +kernel

/-- Of the characters outside of ASCII, only the Kelvin sign is lowered to nothing but ASCII. -/
theorem lowerChar_of_not_ascii {c : Char} (h : 128 ≤ c.toNat) :
    (∃ d ∈ lowerChar c, 128 ≤ d.toNat) ∨ lowerChar c = ['k'] := by
  unfold lowerChar
  split
  · exact .inl ⟨'\u0307', by simp, by decide⟩
  split
  · next row hrow =>
    have hholds : row.1 ≤ c.toNat ∧ c.toNat ≤ row.2.1 := by
      have := List.find?_some hrow
      simp only [rowHolds, Bool.and_eq_true, decide_eq_true_eq] at this
      exact this.1
    rcases capitals_cases row (List.mem_of_find?_eq_some hrow) with hascii | ⟨h₁, h₂, h₃⟩ | ⟨hlow, hvalid⟩
    · omega
    · have hc : c.toNat = 0x212A := by omega
      rw [hc, h₃]
      exact .inr rfl
    · have hv : (c.toNat + row.2.2.2).toNat.isValidChar := by
        unfold Nat.isValidChar
        omega
      have htoNat : (Char.ofNat (c.toNat + row.2.2.2).toNat).toNat = (c.toNat + row.2.2.2).toNat := by
        rw [Char.ofNat, dif_pos hv]
        rfl
      refine .inl ⟨_, List.mem_singleton_self _, ?_⟩
      rw [htoNat]
      omega
  · exact .inl ⟨c, List.mem_singleton_self c, h⟩

theorem toLower_of_not_ascii {c : Char} (h : 128 ≤ c.toNat) : c.toLower = c := by
  unfold Char.toLower
  rw [dif_neg]
  rintro ⟨-, hle⟩
  have : c.toNat ≤ 90 := hle
  omega

variable {cs ds : List Char}

theorem LowerForm.eq_map (h : LowerForm cs ds) (hcs : ∀ c ∈ cs, c.toNat < 128) :
    ds = cs.map Char.toLower := by
  induction h with
  | nil => rfl
  | cons c _ ih =>
    obtain ⟨hc, hcs⟩ := List.forall_mem_cons.1 hcs
    rw [lowerChar_of_ascii hc, ih hcs]
    rfl
  | finalSigma _ _ => exact absurd (hcs 'Σ' List.mem_cons_self) (by decide)

theorem LowerForm.ascii_of_plain (h : LowerForm cs ds) (hds : ∀ d ∈ ds, d.toNat < 128 ∧ d ≠ 'k') :
    ∀ c ∈ cs, c.toNat < 128 := by
  induction h with
  | nil => exact List.forall_mem_nil _
  | cons c _ ih =>
    obtain ⟨hc, hds⟩ := List.forall_mem_append.1 hds
    refine List.forall_mem_cons.2 ⟨?_, ih hds⟩
    by_contra hnot
    rcases lowerChar_of_not_ascii (Nat.le_of_not_lt hnot) with ⟨d, hd, hge⟩ | hk
    · exact absurd (hc d hd).1 (Nat.not_lt.2 hge)
    · exact (hc 'k' (hk ▸ List.mem_singleton_self _)).2 rfl
  | finalSigma _ _ => exact absurd (hds 'ς' List.mem_cons_self).1 (by decide)

/-- **A text is lowered to a word of ASCII characters without `k`** exactly if it differs from it in the
case of ASCII letters. -/
theorem LowerForm.eq_iff (h : LowerForm cs ds) {word : List Char}
    (hword : ∀ d ∈ word, d.toNat < 128 ∧ d ≠ 'k') : ds = word ↔ cs.map Char.toLower = word := by
  constructor
  · rintro rfl
    exact (h.eq_map (h.ascii_of_plain hword)).symm
  · rintro rfl
    refine h.eq_map fun c hc => ?_
    by_contra hnot
    have hlower := (hword _ (List.mem_map_of_mem hc)).1
    rw [toLower_of_not_ascii (Nat.le_of_not_lt hnot)] at hlower
    exact hnot hlower

end AnnotationLookup.Text
