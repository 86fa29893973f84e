import AnnotationLookup.Environment
import AnnotationLookup.Proofs.Text.Spelling

/-!
# Spellings of truth values

A truth value is spelled by some words, in which the case of the letters from `A` to `Z` does not
count, with any white space around them, and by nothing else.

* `Spells`: a text is one of some words in this sense;
* `spells_iff`: the same, read off a lower-case form of the text;
* `readBoolean?_eq_some_iff`: what the words for both truth values come to;
* **`readBoolean_by_spelling`**: the main statement.
-/

namespace AnnotationLookup

/-- The text is one of the words, but for blanks around it and the case of ASCII letters. -/
def Spells (words : List String) (text : String) : Prop :=
  ∃ core, Text.Trims text.toList core ∧
    ∃ word ∈ words, core.map Char.toLower = word.toList.map Char.toLower

/-- The words of a truth value. -/
def wordsOf (b : Bool) : List String := if b then trueWords else falseWords

/-- The words are lower-case ASCII words. No word has a `k`, which the Kelvin sign is lowered to. -/
theorem plain_of_mem_wordsOf (b : Bool) : ∀ word ∈ wordsOf b,
    word.toList.map Char.toLower = word.toList ∧ ∀ c ∈ word.toList, c.toNat < 128 ∧ c ≠ 'k' := by
  have hwords : ∀ word ∈ wordsOf b, word.toList.map Char.toLower = word.toList ∧
      word.toList.all (fun c => decide (c.toNat < 128) && c != 'k') = true := by
    cases b <;> decide
  simpa only [List.all_eq_true, Bool.and_eq_true, decide_eq_true_eq, bne_iff_ne] using hwords

/-- **A text spells a truth value** exactly if its lower-case form is one of the words. It does not
matter which form a capital sigma takes. -/
theorem spells_iff {b : Bool} {text : String} {form : List Char}
    (h : Text.LowerForm (Text.trim text.toList) form) :
    Spells (wordsOf b) text ↔ String.ofList form ∈ wordsOf b := by
  have hword (word : String) (hmem : word ∈ wordsOf b) : form = word.toList ↔
      (Text.trim text.toList).map Char.toLower = word.toList.map Char.toLower := by
    obtain ⟨hlower, hplain⟩ := plain_of_mem_wordsOf b word hmem
    rw [hlower]
    exact h.eq_iff hplain
  constructor
  · rintro ⟨core, hcore, word, hmem, hcase⟩
    obtain rfl := Text.trims_iff.1 hcore
    rwa [(hword word hmem).2 hcase, String.ofList_toList]
  · intro hmem
    refine ⟨_, Text.trims_trim _, _, hmem, (hword _ hmem).1 ?_⟩
    rw [String.toList_ofList]

theorem disjoint_words : ∀ word ∈ trueWords, word ∉ falseWords := by decide

theorem readBoolean?_eq_some_iff {value : String} {b : Bool} :
    readBoolean? value = some b ↔ Spells (wordsOf b) value := by
  rw [spells_iff (Text.lowerForm_lowerChars _)]
  unfold readBoolean?
  generalize String.ofList (Text.lowerChars (Text.trim value.toList)) = word
  have hdisjoint := disjoint_words word
  by_cases htrue : word ∈ trueWords
  · cases b <;> simp [wordsOf, htrue, hdisjoint htrue]
  · by_cases hfalse : word ∈ falseWords <;> cases b <;> simp [wordsOf, htrue, hfalse]

theorem readBoolean_eq_ok_iff {key value : String} {b : Bool} :
    readBoolean key value = .ok b ↔ Spells (wordsOf b) value := by
  rw [← readBoolean?_eq_some_iff]
  unfold readBoolean
  cases readBoolean? value <;> simp

theorem readBoolean_eq_error_iff {key value : String} {e : InvalidBoolean} :
    readBoolean key value = .error e ↔ e = ⟨key, value⟩ ∧ ∀ b, ¬ Spells (wordsOf b) value := by
  simp only [← readBoolean?_eq_some_iff]
  unfold readBoolean
  cases readBoolean? value <;> simp [eq_comm]

theorem Spells.ascii {b : Bool} {text : String} (h : Spells (wordsOf b) text) :
    Text.trim text.toList ≠ [] ∧ ∀ c ∈ Text.trim text.toList, c.toNat < 128 := by
  obtain ⟨core, hcore, word, hmem, hcase⟩ := h
  obtain ⟨hlower, hplain⟩ := plain_of_mem_wordsOf b word hmem
  rw [hlower] at hcase
  rw [← Text.trims_iff.1 hcore]
  constructor
  · rintro rfl
    have hne : ∀ b, ∀ word ∈ wordsOf b, ([] : List Char) ≠ word.toList := by decide
    exact hne b word hmem hcase
  · -- the text is lowered to the word, which nothing but ASCII is
    have hform := Text.lowerForm_lowerChars core
    exact hform.ascii_of_plain ((hform.eq_iff hplain).2 hcase ▸ hplain)

/-- **Truth values are recognised up to ASCII case and surrounding white space, and nothing else is.**
A text is read as a truth value exactly if it spells it, and otherwise refused with the name of the
variable and the whole text. So are texts of nothing but blanks, and texts with a character outside of
ASCII between the blanks, though letters are lowered by all of Unicode. The sigma at the end of a word
makes no difference. -/
theorem readBoolean_by_spelling (key value : String) :
    (readBoolean key value = .ok true ↔ Spells trueWords value) ∧
    (readBoolean key value = .ok false ↔ Spells falseWords value) ∧
    (∀ e, readBoolean key value = .error e ↔
      e = ⟨key, value⟩ ∧ ¬ Spells trueWords value ∧ ¬ Spells falseWords value) ∧
    ((∀ c ∈ value.toList, Text.isBlank c = true) ∨
        (∃ core, Text.Trims value.toList core ∧ ∃ c ∈ core, 128 ≤ c.toNat) →
      readBoolean key value = .error ⟨key, value⟩) ∧
    ∀ form, Text.LowerForm (Text.trim value.toList) form →
      (String.ofList form ∈ trueWords ↔ Spells trueWords value) ∧
      (String.ofList form ∈ falseWords ↔ Spells falseWords value) := by
  refine ⟨readBoolean_eq_ok_iff, readBoolean_eq_ok_iff, fun e => ?_, fun h => ?_, fun form h => ?_⟩
  · rw [readBoolean_eq_error_iff, Bool.forall_bool', wordsOf, wordsOf, if_pos rfl, if_neg nofun]
  · refine readBoolean_eq_error_iff.2 ⟨rfl, fun b hspells => ?_⟩
    obtain ⟨hne, hascii⟩ := hspells.ascii
    rcases h with hblank | ⟨core, hcore, c, hc, hge⟩
    · exact hne (Text.trim_eq_nil hblank)
    · rw [Text.trims_iff.1 hcore] at hc
      exact absurd (hascii c hc) (Nat.not_lt.2 hge)
  · exact ⟨(spells_iff (b := true) h).symm, (spells_iff (b := false) h).symm⟩

/-- A ligature is not read as the letters it is made of. -/
theorem readBoolean_by_spelling_of_ligature :
    (∃ core, Text.Trims " O\uFB00".toList core ∧ ∃ c ∈ core, 128 ≤ c.toNat) ∧
      readBoolean "LOUD" " O\uFB00" = .error ⟨"LOUD", " O\uFB00"⟩ := by
  have hligature : ∃ core, Text.Trims " O\uFB00".toList core ∧ ∃ c ∈ core, 128 ≤ c.toNat :=
    ⟨_, Text.trims_trim _, '\uFB00', by decide, by decide⟩
  exact ⟨hligature, (readBoolean_by_spelling _ _).2.2.2.1 (.inr hligature)⟩

/-- White space outside of ASCII is as good as a space. -/
example : readBoolean "LOUD" "\u2003oFf\u00A0\n" = .ok false := by decide

end AnnotationLookup
