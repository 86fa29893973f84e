/-!
# White space

* `isBlank`: the characters with the Unicode property `White_Space`, which are more than the core
  library's white space (`isBlank_of_isWhitespace`);
* `trim`: a text without the blanks around it.
-/

namespace AnnotationLookup.Text

/-- Ranges of code points of white space. -/
def blanks : List (Nat × Nat) := [
  (0x9, 0xD), (0x20, 0x20), (0x85, 0x85), (0xA0, 0xA0), (0x1680, 0x1680), (0x2000, 0x200A),
  (0x2028, 0x2029), (0x202F, 0x202F), (0x205F, 0x205F), (0x3000, 0x3000)]

/-- The characters in these ranges. -/
def isBlank (c : Char) : Bool :=
  blanks.any fun (first, last) => decide (first ≤ c.toNat) && decide (c.toNat ≤ last)

theorem isBlank_of_isWhitespace {c : Char} (h : c.isWhitespace) : isBlank c := by
  simp only [Char.isWhitespace, Bool.or_eq_true, decide_eq_true_eq] at h
  rcases h with ((rfl | rfl) | rfl) | rfl <;> decide

/-- The text without the blanks around it. -/
def trim (cs : List Char) : List Char :=
  ((cs.dropWhile isBlank).reverse.dropWhile isBlank).reverse

end AnnotationLookup.Text
