import AnnotationLookup.Proofs.Json.Number

/-!
# Documents in JSON text

* `Json.Leaves`: what holds of every part of a document that is neither an array nor an object;
* `Json.readText_quoted`: every text is read as it was written, whatever characters it has;
* **`Json.read?_render`**: a document that can be written is read from its text;
* **`Json.leaves_of_read`**: all numbers that are read are finite, and all integers fit 64 bits.
-/

namespace AnnotationLookup.Json

/-! ## Leaves -/

mutual

/-- Every part that is neither an array nor an object has the property. -/
def Leaves (p : Json → Prop) (j : Json) : Prop :=
  match j with
  | .arr items => LeavesOfItems p items
  | .obj members => LeavesOfMembers p members
  | .null => p .null
  | .bool b => p (.bool b)
  | .int n => p (.int n)
  | .float x => p (.float x)
  | .str s => p (.str s)
  | .undefined => p .undefined
termination_by structural j

/-- The same of all items of an array. -/
def LeavesOfItems (p : Json → Prop) (items : List Json) : Prop :=
  match items with
  | [] => True
  | item :: items => item.Leaves p ∧ LeavesOfItems p items
termination_by structural items

/-- The same of all members of an object. -/
def LeavesOfMembers (p : Json → Prop) (members : List (String × Json)) : Prop :=
  match members with
  | [] => True
  | (_, value) :: members => value.Leaves p ∧ LeavesOfMembers p members
termination_by structural members

end

section Leaves

variable {p q : Json → Prop}

theorem leaves_arr (items : List Json) : (arr items).Leaves p ↔ ∀ j ∈ items, j.Leaves p := by
  have hitems : LeavesOfItems p items ↔ ∀ j ∈ items, j.Leaves p := by
    induction items with
    | nil => simp [LeavesOfItems]
    | cons item items ih => simp [LeavesOfItems, ih]
  exact hitems

theorem leaves_obj (members : List (String × Json)) :
    (obj members).Leaves p ↔ ∀ m ∈ members, m.2.Leaves p := by
  have hmembers : LeavesOfMembers p members ↔ ∀ m ∈ members, m.2.Leaves p := by
    induction members with
    | nil => simp [LeavesOfMembers]
    | cons m members ih => simp only [LeavesOfMembers, ih, List.forall_mem_cons]
  exact hmembers

end Leaves

/-- A number that a token of a document can denote. -/
def Readable : Json → Prop
  | .int n => IntFits n
  | .float x => x.isFinite
  | _ => True

/-- A leaf that has a text of its own. -/
def Writable : Json → Prop
  | .undefined => False
  | j => Readable j

/-! ## Texts -/

section Texts

/-- The characters are those of one piece, which stands for `c`. -/
def IsPieceOf (c : Char) (cs : List Char) : Prop := ∃ p : Piece,
  (∀ tail, readPieces (cs ++ tail) = (readPieces tail).map fun (ps, rest) => (p :: ps, rest)) ∧
    ∀ ps, joinPieces? (p :: ps) = (joinPieces? ps).map (c :: ·)

theorem isPieceOf_escape {c e : Char} (hu : e ≠ 'u') (h : escape? e = some c) :
    IsPieceOf c ['\\', e] := by
  refine ⟨.char c, fun tail => ?_, fun ps => rfl⟩
  rw [List.cons_append, List.singleton_append, readPieces]
  · rw [h]
  · exact fun _ _ _ _ _ heq => absurd heq hu

theorem isPieceOf_plain {c : Char} (hquote : c ≠ '"') (hslash : c ≠ '\\') (h : ¬ c.toNat < 0x20) :
    IsPieceOf c [c] := by
  refine ⟨.char c, fun tail => ?_, fun ps => rfl⟩
  rw [List.singleton_append, readPieces]
  · exact if_neg h
  · exact hquote
  · exact fun _ _ _ _ _ heq => absurd heq hslash
  · exact fun _ _ heq => absurd heq hslash

theorem unit?_hexDigit {n : Nat} (h : n < 0x20) :
    unit? '0' '0' (hexDigit (n / 16)) (hexDigit (n % 16)) = some n := by
  have hall : ∀ n < 0x20, unit? '0' '0' (hexDigit (n / 16)) (hexDigit (n % 16)) = some n := by decide
  exact hall n h

theorem isPieceOf_unit {c : Char} (h : c.toNat < 0x20) :
    IsPieceOf c ['\\', 'u', '0', '0', hexDigit (c.toNat / 16), hexDigit (c.toNat % 16)] := by
  have hhigh : isHighSurrogate c.toNat = false := by
    simp only [isHighSurrogate, Bool.and_eq_false_iff, decide_eq_false_iff_not]
    omega
  have hlow : isLowSurrogate c.toNat = false := by
    simp only [isLowSurrogate, Bool.and_eq_false_iff, decide_eq_false_iff_not]
    omega
  refine ⟨.unit c.toNat, fun tail => ?_, fun ps => ?_⟩
  · simp only [List.cons_append, List.nil_append, readPieces, unit?_hexDigit h]
  · rw [joinPieces?.eq_def]
    simp [hhigh, hlow, Char.ofNat_toNat]

/-- Every character is written as one piece. -/
theorem isPieceOf_escaped (c : Char) : IsPieceOf c (escaped c) := by
  unfold escaped
  split
  · next h => subst h; exact isPieceOf_escape (by decide) rfl
  rename_i hquote
  split
  · next h => subst h; exact isPieceOf_escape (by decide) rfl
  rename_i hslash
  split
  · next h => subst h; exact isPieceOf_escape (by decide) rfl
  split
  · next h => subst h; exact isPieceOf_escape (by decide) rfl
  split
  · next h => subst h; exact isPieceOf_escape (by decide) rfl
  split
  · next h => subst h; exact isPieceOf_escape (by decide) rfl
  split
  · next h => subst h; exact isPieceOf_escape (by decide) rfl
  split
  · next h => exact isPieceOf_unit h
  · next h => exact isPieceOf_plain hquote hslash h

theorem exists_readPieces (cs rest : List Char) : ∃ ps,
    readPieces (cs.flatMap escaped ++ '"' :: rest) = some (ps, rest) ∧ joinPieces? ps = some cs := by
  induction cs with
  | nil => exact ⟨[], rfl, rfl⟩
  | cons c cs ih =>
    obtain ⟨ps, hread, hjoin⟩ := ih
    obtain ⟨p, hpiece, hstands⟩ := isPieceOf_escaped c
    refine ⟨p :: ps, ?_, ?_⟩
    · rw [List.flatMap_cons, List.append_assoc, hpiece, hread, Option.map_some]
    · rw [hstands, hjoin, Option.map_some]

/-- **Every text is read as it was written**, whatever characters it has. -/
theorem readText_quoted (s : String) (rest : List Char) :
    readText (s.toList.flatMap escaped ++ '"' :: rest) = some (some s, rest) := by
  obtain ⟨ps, hread, hjoin⟩ := exists_readPieces s.toList rest
  simp [readText, hread, hjoin]

theorem readName_quoted (s : String) (rest : List Char) :
    readName (quoted s ++ ':' :: rest) = some (some s, rest) := by
  have hquoted : quoted s ++ ':' :: rest = '"' :: (s.toList.flatMap escaped ++ '"' :: (':' :: rest)) := by
    simp [quoted]
  rw [hquoted, readName, readText_quoted]
  rfl

end Texts

/-! ## Values -/

section Values

variable {rest : List Char}

/-- A character that begins a value. -/
structure IsValueStart (c : Char) : Prop where
  not_blank : isBlank c = false
  ne_close : c ≠ ']'

theorem IsNumberStart.ne {c : Char} (h : IsNumberStart c) (d : Char)
    (hd : d ≠ '-' ∧ d.isDigit = false) : c ≠ d := by
  rintro rfl
  rcases h with h | h
  · exact hd.1 h
  · exact absurd h (by simp [hd.2])

theorem IsNumberStart.isValueStart {c : Char} (h : IsNumberStart c) : IsValueStart c where
  not_blank := by
    simp [isBlank, h.ne ' ' (by decide), h.ne '\n' (by decide), h.ne '\t' (by decide), h.ne '\r' (by decide)]
  ne_close := h.ne ']' (by decide)

theorem exists_cons_chars {j : Json} (h : j.Leaves Writable) :
    ∃ c cs, j.chars = c :: cs ∧ IsValueStart c := by
  cases j with
  | null => exact ⟨_, _, rfl, by decide, by decide⟩
  | bool b => cases b <;> exact ⟨_, _, rfl, by decide, by decide⟩
  | int n =>
    obtain ⟨c, cs, hcs, hc⟩ := isNumberStart_intText n
    exact ⟨c, cs, hcs, hc.isValueStart⟩
  | float x =>
    obtain ⟨c, cs, hcs, hc⟩ := isNumberStart_float h
    exact ⟨c, cs, hcs, hc.isValueStart⟩
  | str s => exact ⟨_, _, rfl, by decide, by decide⟩
  | arr items => cases items <;> exact ⟨_, _, rfl, by decide, by decide⟩
  | obj members => cases members <;> exact ⟨_, _, rfl, by decide, by decide⟩
  | undefined => exact h.elim

theorem skipBlanks_cons {c : Char} {cs : List Char} (h : isBlank c = false) :
    skipBlanks (c :: cs) = c :: cs := by
  simp [skipBlanks, h]

theorem readValue_number {c : Char} {cs : List Char} (h : IsNumberStart c) (fuel : Nat) :
    readValue (fuel + 1) (c :: cs) = readNumber (c :: cs) := by
  rw [readValue, skipBlanks_cons h.isValueStart.not_blank]
  split
  · next heq => exact absurd (List.cons.inj heq).1 (h.ne 'n' (by decide))
  · next heq => exact absurd (List.cons.inj heq).1 (h.ne 't' (by decide))
  · next heq => exact absurd (List.cons.inj heq).1 (h.ne 'f' (by decide))
  · next heq => exact absurd (List.cons.inj heq).1 (h.ne '"' (by decide))
  · next heq => exact absurd (List.cons.inj heq).1 (h.ne '[' (by decide))
  · next heq => exact absurd (List.cons.inj heq).1 (h.ne '\x7b' (by decide))
  · rfl

theorem readValue_arr {c : Char} {cs : List Char} (h : IsValueStart c) (fuel : Nat) :
    readValue (fuel + 1) ('[' :: c :: cs) =
      (readItems fuel (c :: cs)).map fun (items, rest) => (.arr items, rest) := by
  rw [readValue, skipBlanks_cons (by decide)]
  simp only [skipBlanks_cons h.not_blank]
  split
  · next heq => exact absurd (List.cons.inj heq).1 h.ne_close
  · rfl

theorem endsNumber_cons {c : Char} (h : c.isDigit = false ∧ c ≠ '.' ∧ c ≠ 'e' ∧ c ≠ 'E') (cs : List Char) :
    EndsNumber (c :: cs) := by
  rintro d ⟨⟩
  exact h

theorem endsNumber_itemChars (items : List Json) (rest : List Char) :
    EndsNumber (itemChars items ++ rest) := by
  cases items <;> exact endsNumber_cons (by decide) _

theorem endsNumber_memberChars (members : List (String × Json)) (rest : List Char) :
    EndsNumber (memberChars members ++ rest) := by
  obtain _ | ⟨⟨name, value⟩, members⟩ := members <;> exact endsNumber_cons (by decide) _

/-- What is read of texts that are no longer than the depth of the recursion allows. -/
structure Reads (fuel : Nat) : Prop where
  value {j : Json} {rest : List Char} : j.Leaves Writable → j.chars.length ≤ fuel → EndsNumber rest →
    readValue fuel (j.chars ++ rest) = some (j, rest)
  items {item : Json} {items : List Json} {rest : List Char} : (∀ j ∈ item :: items, j.Leaves Writable) →
    (item.chars ++ itemChars items).length ≤ fuel →
    readItems fuel (item.chars ++ itemChars items ++ rest) = some (item :: items, rest)
  members {m : String × Json} {members : List (String × Json)} {rest : List Char} :
    (∀ n ∈ m :: members, n.2.Leaves Writable) →
    (quoted m.1 ++ ':' :: (m.2.chars ++ memberChars members)).length ≤ fuel →
    readMembers fuel (quoted m.1 ++ ':' :: (m.2.chars ++ memberChars members) ++ rest) =
      some (some (m :: members), rest)

namespace Reads

variable {fuel : Nat}

theorem value_succ (h : Reads fuel) {j : Json} (hj : j.Leaves Writable)
    (hfuel : j.chars.length ≤ fuel + 1) (hrest : EndsNumber rest) :
    readValue (fuel + 1) (j.chars ++ rest) = some (j, rest) := by
  cases j with
  | null => rfl
  | bool b => cases b <;> rfl
  | int n =>
    obtain ⟨c, cs, hcs, hc⟩ := isNumberStart_intText n
    have hread := readNumber_intText hj hrest
    rw [hcs, List.cons_append] at hread
    rw [chars, hcs, List.cons_append, readValue_number hc, hread]
  | float x =>
    obtain ⟨c, cs, hcs, hc⟩ := isNumberStart_float hj
    have hread := readNumber_float hj hrest
    rw [hcs, List.cons_append] at hread
    rw [chars, hcs, List.cons_append, readValue_number hc, hread]
  | str s =>
    have hchars : (str s).chars ++ rest = '"' :: (s.toList.flatMap escaped ++ '"' :: rest) := by
      simp [chars, quoted]
    rw [hchars, readValue, skipBlanks_cons (by decide)]
    simp only [readText_quoted, Option.map_some]
  | arr items =>
    cases items with
    | nil => rfl
    | cons item items =>
      rw [leaves_arr] at hj
      obtain ⟨c, cs, hcs, hc⟩ := exists_cons_chars (hj item List.mem_cons_self)
      have hitems : readItems fuel (item.chars ++ itemChars items ++ rest) = some (item :: items, rest) :=
        h.items hj (by simpa [chars] using hfuel)
      simp only [hcs, List.cons_append] at hitems
      simp only [chars, hcs, List.cons_append, readValue_arr hc, hitems, Option.map_some]
  | obj members =>
    cases members with
    | nil => rfl
    | cons m members =>
      rw [leaves_obj] at hj
      have hmembers : readMembers fuel (quoted m.1 ++ ':' :: (m.2.chars ++ memberChars members) ++ rest) =
          some (some (m :: members), rest) := h.members hj (by simpa [chars] using hfuel)
      have hopen (cs : List Char) : readValue (fuel + 1) ('\x7b' :: (quoted m.1 ++ cs)) =
          (readMembers fuel (quoted m.1 ++ cs)).map fun r => (objectOf r.1, r.2) := rfl
      rw [List.append_assoc] at hmembers
      rw [chars, List.cons_append, List.append_assoc, hopen, hmembers]
      rfl
  | undefined => exact hj.elim

theorem items_succ (h : Reads fuel) {item : Json} {items : List Json}
    (hitems : ∀ j ∈ item :: items, j.Leaves Writable)
    (hfuel : (item.chars ++ itemChars items).length ≤ fuel + 1) :
    readItems (fuel + 1) (item.chars ++ itemChars items ++ rest) = some (item :: items, rest) := by
  rw [List.length_append] at hfuel
  have hlength : 0 < (itemChars items).length := by cases items <;> simp [itemChars]
  have hitem := h.value (hitems item List.mem_cons_self) (by omega) (endsNumber_itemChars items rest)
  rw [readItems, List.append_assoc, hitem]
  cases items with
  | nil => rfl
  | cons next items =>
    have hnext : readItems fuel (next.chars ++ itemChars items ++ rest) = some (next :: items, rest) := by
      refine h.items (fun j hj => hitems j (List.mem_cons_of_mem _ hj)) ?_
      simp only [itemChars, List.length_cons, List.length_append] at hfuel ⊢
      omega
    simp only [itemChars, List.cons_append, skipBlanks_cons (show isBlank ',' = false by decide), hnext,
      Option.map_some]

theorem members_succ (h : Reads fuel) {m : String × Json} {members : List (String × Json)}
    (hmembers : ∀ n ∈ m :: members, n.2.Leaves Writable)
    (hfuel : (quoted m.1 ++ ':' :: (m.2.chars ++ memberChars members)).length ≤ fuel + 1) :
    readMembers (fuel + 1) (quoted m.1 ++ ':' :: (m.2.chars ++ memberChars members) ++ rest) =
      some (some (m :: members), rest) := by
  simp only [List.length_append, List.length_cons] at hfuel
  have hvalue := h.value (hmembers m List.mem_cons_self) (by omega) (endsNumber_memberChars members rest)
  have hname : readName (skipBlanks (quoted m.1 ++ ':' :: (m.2.chars ++ (memberChars members ++ rest)))) =
      some (some m.1, m.2.chars ++ (memberChars members ++ rest)) := by
    rw [quoted, List.cons_append, skipBlanks_cons (by decide)]
    exact readName_quoted _ _
  rw [readMembers, List.append_assoc, List.cons_append, List.append_assoc, hname]
  simp only [hvalue]
  cases members with
  | nil => rfl
  | cons next members =>
    have hnext : readMembers fuel (quoted next.1 ++ ':' :: (next.2.chars ++ memberChars members) ++ rest) =
        some (some (next :: members), rest) := by
      refine h.members (fun n hn => hmembers n (List.mem_cons_of_mem _ hn)) ?_
      simp only [memberChars, List.length_cons, List.length_append] at hfuel ⊢
      omega
    simp only [memberChars, List.cons_append, List.append_assoc] at hnext ⊢
    simp only [skipBlanks_cons (show isBlank ',' = false by decide), hnext, Option.map_some]

end Reads

/-- Texts are read at every depth that their length allows. -/
theorem reads (fuel : Nat) : Reads fuel := by
  induction fuel with
  | zero =>
    refine ⟨fun hj hfuel _ => ?_, fun hitems hfuel => ?_, fun _ hfuel => ?_⟩
    · obtain ⟨c, cs, hcs, -⟩ := exists_cons_chars hj
      simp [hcs] at hfuel
    · obtain ⟨c, cs, hcs, -⟩ := exists_cons_chars (hitems _ List.mem_cons_self)
      simp [hcs] at hfuel
    · simp at hfuel
  | succ fuel ih => exact ⟨ih.value_succ, ih.items_succ, ih.members_succ⟩

/-- **A document that can be written is read from its text.** -/
theorem read?_render {j : Json} (h : j.Leaves Writable) : read? j.render = some j := by
  have hend : EndsNumber [] := fun c hc => nomatch hc
  have hread := (reads (2 * j.chars.length + 2)).value h (by omega) hend
  rw [List.append_nil] at hread
  rw [read?, render, String.toList_ofList, readChars?, hread]
  rfl

end Values

/-! ## Numbers of a text -/

section Read

variable {cs rest : List Char} {j : Json}

theorem readable_numberOf (negative : Bool) (whole fraction : List Char) (exponent : Option Int) :
    (numberOf negative whole fraction exponent).Leaves Readable := by
  unfold numberOf
  dsimp only
  split
  · next h =>
    simp only [Bool.and_eq_true, decide_eq_true_eq] at h
    exact intFits_ofNat h.2
  · split
    · next h =>
      simp only [Bool.and_eq_true, decide_eq_true_eq] at h
      exact ⟨h.2.2, Int.lt_of_le_of_lt (Int.neg_nonpos_of_nonneg (Int.natCast_nonneg _)) (by decide)⟩
    · split
      · next h => exact h
      · exact trivial

theorem readable_readNumber (h : readNumber cs = some (j, rest)) : j.Leaves Readable := by
  have hunsigned {negative : Bool} {cs : List Char} (h : readUnsigned negative cs = some (j, rest)) :
      j.Leaves Readable := by
    simp only [readUnsigned, Option.bind_eq_bind, Option.bind_eq_some_iff] at h
    obtain ⟨⟨whole, cs⟩, -, ⟨fraction, cs⟩, -, ⟨exponent, cs⟩, -, h⟩ := h
    cases h
    exact readable_numberOf negative whole fraction exponent
  unfold readNumber at h
  split at h
  · exact hunsigned h
  · exact hunsigned h

/-- What is read at this depth of the recursion has readable leaves. -/
structure ReadsReadable (fuel : Nat) : Prop where
  value {cs rest : List Char} {j : Json} : readValue fuel cs = some (j, rest) → j.Leaves Readable
  items {cs rest : List Char} {items : List Json} : readItems fuel cs = some (items, rest) →
    ∀ j ∈ items, j.Leaves Readable
  members {cs rest : List Char} {members : List (String × Json)} :
    readMembers fuel cs = some (some members, rest) → ∀ m ∈ members, m.2.Leaves Readable

namespace ReadsReadable

variable {fuel : Nat}

theorem value_succ (h : ReadsReadable fuel) (hj : readValue (fuel + 1) cs = some (j, rest)) :
    j.Leaves Readable := by
  unfold readValue at hj
  split at hj
  · cases hj; exact trivial
  · cases hj; exact trivial
  · cases hj; exact trivial
  · obtain ⟨⟨text, rest⟩, -, heq⟩ := Option.map_eq_some_iff.1 hj
    cases heq
    cases text <;> exact trivial
  · split at hj
    · cases hj
      exact (leaves_arr []).2 fun j hj => nomatch hj
    · obtain ⟨⟨items, rest⟩, hitems, heq⟩ := Option.map_eq_some_iff.1 hj
      cases heq
      exact (leaves_arr items).2 (h.items hitems)
  · split at hj
    · cases hj
      exact (leaves_obj []).2 fun m hm => nomatch hm
    · obtain ⟨⟨members, rest⟩, hmembers, heq⟩ := Option.map_eq_some_iff.1 hj
      cases heq
      cases members with
      | none => exact trivial
      | some members => exact (leaves_obj members).2 (h.members hmembers)
  · exact readable_readNumber hj

theorem items_succ (h : ReadsReadable fuel) {items : List Json}
    (hitems : readItems (fuel + 1) cs = some (items, rest)) : ∀ j ∈ items, j.Leaves Readable := by
  unfold readItems at hitems
  split at hitems
  · cases hitems
  · next item tail hitem =>
    split at hitems
    · cases hitems
      exact List.forall_mem_singleton.2 (h.value hitem)
    · obtain ⟨⟨others, rest⟩, hothers, heq⟩ := Option.map_eq_some_iff.1 hitems
      cases heq
      exact List.forall_mem_cons.2 ⟨h.value hitem, h.items hothers⟩
    · cases hitems

theorem members_succ (h : ReadsReadable fuel) {members : List (String × Json)}
    (hmembers : readMembers (fuel + 1) cs = some (some members, rest)) :
    ∀ m ∈ members, m.2.Leaves Readable := by
  unfold readMembers at hmembers
  split at hmembers
  · cases hmembers
  · next name tail hname =>
    split at hmembers
    · cases hmembers
    · next value tail hvalue =>
      dsimp only at hmembers
      split at hmembers
      · cases name with
        | none => cases hmembers
        | some name =>
          cases hmembers
          exact List.forall_mem_singleton.2 (h.value hvalue)
      · obtain ⟨⟨others, rest⟩, hothers, heq⟩ := Option.map_eq_some_iff.1 hmembers
        cases name with
        | none => cases heq
        | some name =>
          cases others with
          | none => cases heq
          | some others =>
            cases heq
            exact List.forall_mem_cons.2 ⟨h.value hvalue, h.members hothers⟩
      · cases hmembers

end ReadsReadable

theorem readsReadable (fuel : Nat) : ReadsReadable fuel := by
  induction fuel with
  | zero => exact ⟨(nomatch ·), (nomatch ·), (nomatch ·)⟩
  | succ fuel ih => exact ⟨ih.value_succ, ih.items_succ, ih.members_succ⟩

/-- **All numbers of a text are finite**, and all its integers fit 64 bits. -/
theorem leaves_of_read {text : String} (h : read? text = some j) : j.Leaves Readable := by
  unfold read? readChars? at h
  split at h
  · next hread =>
    split at h
    · cases h
      exact (readsReadable _).value hread
    · cases h
  · cases h

end Read

end AnnotationLookup.Json
