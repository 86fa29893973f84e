/-!
# Places in a text

A place in a text is given by the number of bytes before it, in UTF-8.

* `byteSize`: the number of bytes of a text;
* `splitAtByte?`: a text in two parts, unless the place is inside a character or beyond the end;
* `splitAtByte?_append`: after the bytes of a first part, that part ends.
-/

namespace AnnotationLookup.Text

/-- How many bytes the characters take in UTF-8. -/
def byteSize (cs : List Char) : Nat := cs.foldr (·.utf8Size + ·) 0

/-- The characters before and after so many bytes, unless this is inside a character. -/
def splitAtByte? : List Char → Nat → Option (List Char × List Char)
  | cs, 0 => some ([], cs)
  | [], _ + 1 => none
  | c :: cs, n + 1 =>
    if c.utf8Size ≤ n + 1 then
      (splitAtByte? cs (n + 1 - c.utf8Size)).map fun (before, after) => (c :: before, after)
    else none

theorem splitAtByte?_append (cs ds : List Char) :
    splitAtByte? (cs ++ ds) (byteSize cs) = some (cs, ds) := by
  induction cs with
  | nil => simp [byteSize, splitAtByte?]
  | cons c cs ih =>
    have hc : 0 < c.utf8Size := c.utf8Size_pos
    have hs : byteSize (c :: cs) = (c.utf8Size + byteSize cs - 1) + 1 := by
      simp only [byteSize, List.foldr_cons]; omega
    rw [hs, List.cons_append, splitAtByte?, if_pos (by omega)]
    rw [show c.utf8Size + byteSize cs - 1 + 1 - c.utf8Size = byteSize cs by omega, ih]
    rfl

end AnnotationLookup.Text
