import AnnotationLookup.Proofs.Form.Records

/-!
# Reading what was written

* `Form.write`, `Form.read`: the text of a value, and the value of a text;
* `ModelType`: the types of the model that are written and read;
* **`ModelType.read_write`**: a value is read again from its text, unless one of its numbers is
  infinite or none at all; and so is what was read from any text;
* **`ModelType.not_read_write`**: but not where a default that a text leaves out takes one container
  more than may be opened.
-/

namespace AnnotationLookup

namespace Form

/-! ## Texts -/

variable {α : Type}

/-- The text of a value. -/
def write (F : Form α) (x : α) : String := (F.toJson x).render

/-- The value of a text, in which containers may be nested `maxDepth` deep. -/
def read (F : Form α) (source : String) : Option α := Decoder.ofText? F.decode source

/-- How deep containers are nested in the text of a value. -/
def nesting (F : Form α) (x : α) : Nat := (F.toJson x).depth

/-- **What is read where a value was written.** -/
theorem Faithful.read_write_iff {F : Form α} (hF : F.Faithful) {x y : α} (hx : F.Valid x) :
    F.read (F.write x) = some y ↔ y = x ∧ F.Finite x ∧ F.nesting x ≤ maxDepth := by
  have hjson : Json.read? (F.toJson x).render = some (F.toJson x) :=
    Json.read?_render ((hF _).writable hx (Nat.le_refl _))
  have hread : F.read (F.write x) = F.decode maxDepth (F.toJson x) := by
    rw [read, Decoder.ofText?, write, hjson, Option.bind_some]
  rw [hread, (hF maxDepth).decode_iff hx, nesting]

theorem Faithful.holds_of_read {F : Form α} (hF : F.Faithful) {source : String} {x : α}
    (h : F.read source = some x) : F.Valid x ∧ F.Finite x := by
  obtain ⟨j, hj, hx⟩ := Option.bind_eq_some_iff.1 h
  exact (hF maxDepth).holds (Json.leaves_of_read hj) hx

end Form

/-! ## The types of the model -/

/-- The types that are written and read. -/
inductive ModelType
  | value
  | record
  | compiledClass
  | compiledMethod
  | classKind
  | origin
  | factory
  | typeName
  | reference
  | site
  | use
  | type
  | method
  | parameter
  | field
deriving DecidableEq, Repr

namespace ModelType

/-- The values of the type. -/
abbrev Carrier : ModelType → Type
  | .value => Value
  | .record => AnnotationRecord
  | .compiledClass => CompiledClass
  | .compiledMethod => CompiledMethod
  | .classKind => ClassKind
  | .origin => Origin
  | .factory => Factory
  | .typeName => TypeName
  | .reference => TypeReference
  | .site => Site
  | .use => UseNode
  | .type => TypeNode
  | .method => MethodNode
  | .parameter => ParameterNode
  | .field => FieldNode

/-- The form of these values. -/
def form : (t : ModelType) → Form t.Carrier
  | .value => Form.value
  | .record => Form.record
  | .compiledClass => Form.compiledClass
  | .compiledMethod => Form.method
  | .classKind => Form.kind
  | .origin => Form.origin
  | .factory => Form.factory
  | .typeName => Form.typeName
  | .reference => Form.reference
  | .site => Form.site
  | .use => Form.useNode
  | .type => Form.typeNode
  | .method => Form.methodNode
  | .parameter => Form.parameterNode
  | .field => Form.fieldNode

theorem faithful_form : (t : ModelType) → t.form.Faithful
  | .value => Form.faithful_value
  | .record => Form.faithful_record
  | .compiledClass => Form.faithful_compiledClass
  | .compiledMethod => Form.faithful_method
  | .classKind => Form.faithful_kind
  | .origin => Form.faithful_origin
  | .factory => Form.faithful_factory
  | .typeName => Form.faithful_typeName
  | .reference => Form.faithful_reference
  | .site => Form.faithful_site
  | .use => Form.faithful_useNode
  | .type => Form.faithful_typeNode
  | .method => Form.faithful_methodNode
  | .parameter => Form.faithful_parameterNode
  | .field => Form.faithful_fieldNode

/-- **Reading undoes writing.** A value is read again from its text if all its numbers are finite,
and nothing is read if one is not. What any text denotes is read again from the text that is written
for it, and written again as this text, if containers are nested no deeper there than may be
opened. This rests on the assumption that a reader takes the token of a number for the nearest binary64
number. -/
theorem read_write (t : ModelType) :
    (∀ x, t.form.Valid x → t.form.nesting x ≤ maxDepth →
      (t.form.Finite x → t.form.read (t.form.write x) = some x) ∧
        (¬ t.form.Finite x → t.form.read (t.form.write x) = none)) ∧
    ∀ source x, t.form.read source = some x → t.form.nesting x ≤ maxDepth →
      t.form.read (t.form.write x) = some x ∧
        (t.form.read (t.form.write x)).map t.form.write = some (t.form.write x) := by
  have hF : t.form.Faithful := t.faithful_form
  constructor
  · intro x hx hnesting
    refine ⟨fun hfinite => (hF.read_write_iff hx).2 ⟨rfl, hfinite, hnesting⟩, fun hinfinite => ?_⟩
    refine Option.eq_none_iff_forall_ne_some.2 fun y hy => hinfinite ?_
    exact ((hF.read_write_iff hx).1 hy).2.1
  · intro source x hsource hnesting
    obtain ⟨hvalid, hfinite⟩ := hF.holds_of_read hsource
    have hread : t.form.read (t.form.write x) = some x :=
      (hF.read_write_iff hvalid).2 ⟨rfl, hfinite, hnesting⟩
    exact ⟨hread, by rw [hread, Option.map_some]⟩

/-- An annotation with the zero below zero, a control character and a character of four bytes. -/
def sample : AnnotationRecord :=
  ⟨"A", [("c", .char '\x01'), ("x", .array [.float ⟨0x8000000000000000⟩]), ("𝄞", .nested ⟨"B", []⟩)]⟩

/-- The sample is read again, but not positive infinity; and a class kind is written in another way
than it is read. -/
theorem read_write_of_sample :
    record.form.read (record.form.write sample) = some sample ∧
      value.form.read (value.form.write (.float ⟨0x7ff0000000000000⟩)) = none ∧
      classKind.form.read (classKind.form.write .ordinary) = some .ordinary := by
  have hsorted : Entries.Sorted sample.values := by
    simp only [Entries.Sorted, sample, List.pairwise_cons, List.forall_mem_cons]
    decide
  have hvalues {p : Value → Prop} (hc : p (.char '\x01')) (hx : p (.array [.float ⟨0x8000000000000000⟩]))
      (ha : p (.nested ⟨"B", []⟩)) : ∀ e ∈ sample.values, p e.2 :=
    List.forall_mem_cons.2 ⟨hc, List.forall_mem_cons.2 ⟨hx, List.forall_mem_singleton.2 ha⟩⟩
  have hvalid : record.form.Valid sample :=
    ⟨trivial, ⟨hsorted, hvalues trivial ⟨trivial, trivial⟩ ⟨List.Pairwise.nil, trivial⟩⟩, trivial⟩
  have hzero : Binary64.isFinite ⟨0x8000000000000000⟩ := by decide
  have hfinite : record.form.Finite sample :=
    ⟨trivial, hvalues trivial ⟨hzero, trivial⟩ ⟨trivial, trivial⟩, trivial⟩
  have hinfinite : ¬ value.form.Finite (.float ⟨0x7ff0000000000000⟩) := by
    unfold form Form.value Value.Finite Value.Holds
    decide
  have hread : classKind.form.read "\x7b\"Class\":null\x7d" = some .ordinary := by decide +kernel
  exact ⟨((read_write .record).1 sample hvalid (by decide)).1 hfinite,
    ((read_write .value).1 (.float ⟨0x7ff0000000000000⟩) trivial (by decide)).2 hinfinite,
    ((read_write .classKind).2 _ .ordinary hread (by decide)).1⟩

/-! ## Defaults at the limit -/

section Limit

/-- A value inside arrays, so many times. -/
def inArrays (v : Value) : Nat → Value
  | 0 => v
  | n + 1 => .array [inArrays v n]

/-- The document of a value inside arrays. -/
def inArraysJson (j : Json) : Nat → Json
  | 0 => j
  | n + 1 => .obj [("Array", .arr [inArraysJson j n])]

theorem toJson_inArrays (v : Value) (n : Nat) : (inArrays v n).toJson = inArraysJson v.toJson n := by
  induction n with
  | zero => rfl
  | succ n ih => simp [inArrays, inArraysJson, Value.toJson, Value.itemsToJson, ih]

theorem depth_inArraysJson (j : Json) (n : Nat) : (inArraysJson j n).depth = j.depth + 2 * n := by
  induction n with
  | zero => rfl
  | succ n ih =>
    simp [inArraysJson, Json.depth, Json.depthOfItems, Json.depthOfMembers, ih]
    omega

theorem leaves_inArraysJson {p : Json → Prop} {j : Json} (h : j.Leaves p) (n : Nat) :
    (inArraysJson j n).Leaves p := by
  induction n with
  | zero => exact h
  | succ n ih => exact ⟨⟨ih, trivial⟩, trivial⟩

theorem decode_inArraysJson {j : Json} {v : Value} (depth n : Nat)
    (h : Value.decode .text depth j = some v) :
    Value.decode .text (depth + 2 * n) (inArraysJson j n) = some (inArrays v n) := by
  induction n with
  | zero => exact h
  | succ n ih =>
    have hread : Value.decode .text (depth + 2 * n + 2) (inArraysJson j (n + 1)) =
        ((Value.decode .text (depth + 2 * n) (inArraysJson j n)).bind fun v => some [v]).map
          .array := rfl
    rw [Nat.mul_succ, ← Nat.add_assoc, hread, ih]
    rfl

/-- Only the value of a method that has a default is nested. -/
theorem decode_default {j : Json} {v : Value} {depth : Nat} (hj : j ≠ .null)
    (h : Value.decode .text depth j = some v) :
    CompiledMethod.decode .text (depth + 1) (.obj [("name", .str "m"), ("default_value", j)]) =
      some { name := "m", defaultValue := some v } := by
  have hread : CompiledMethod.decode .text (depth + 1)
        (.obj [("name", .str "m"), ("default_value", j)]) =
      (Decoder.nullable (Value.decode .text) depth j).bind fun v =>
        some { name := "m", defaultValue := v } := rfl
  rw [hread, Decoder.nullable_of_ne_null hj, h]
  rfl

/-- A method whose default value is an annotation inside sixty-two arrays. -/
def deepMethod : CompiledMethod :=
  { name := "m", defaultValue := some (inArrays (.nested ⟨"A", []⟩) 62) }

/-- An annotation that leaves out its values. -/
def leftOut : Json := .obj [("Annotation", .obj [("annotation_type", .str "A")])]

/-- The shortest document of the method. -/
def deepDocument : Json := .obj [("name", .str "m"), ("default_value", inArraysJson leftOut 62)]

theorem read_deepDocument : compiledMethod.form.read deepDocument.render = some deepMethod := by
  have hleftOut : leftOut.Leaves Json.Writable := ⟨⟨trivial, trivial⟩, trivial⟩
  have hleaves : deepDocument.Leaves Json.Writable := ⟨trivial, leaves_inArraysJson hleftOut 62, trivial⟩
  have hdecode : CompiledMethod.decode .text (2 + 2 * 62 + 1) deepDocument = some deepMethod :=
    decode_default nofun (decode_inArraysJson 2 62 rfl)
  have hlimit : maxDepth = 2 + 2 * 62 + 1 := rfl
  have hform : compiledMethod.form.decode = CompiledMethod.decode .text := rfl
  rw [Form.read, Decoder.ofText?, Json.read?_render hleaves, Option.bind_some, hform, hlimit, hdecode]

/-- **Not everything that is read is read again.** A default that a text leaves out is written, and
may take one container more than may be opened. -/
theorem not_read_write : ¬ ∀ (t : ModelType) (source : String) (x : t.Carrier),
    t.form.read source = some x → t.form.read (t.form.write x) = some x ∧
      (t.form.read (t.form.write x)).map t.form.write = some (t.form.write x) := by
  intro h
  have hread := (h .compiledMethod _ _ read_deepDocument).1
  have hF := faithful_form .compiledMethod
  have hnesting : compiledMethod.form.nesting deepMethod ≤ maxDepth :=
    ((hF.read_write_iff (hF.holds_of_read read_deepDocument).1).1 hread).2.2
  have hdepth : compiledMethod.form.nesting deepMethod = 128 := by
    have hvalue : (inArrays (.nested ⟨"A", []⟩) 62).toJson.depth = 3 + 2 * 62 := by
      rw [toJson_inArrays, depth_inArraysJson]
      rfl
    have hnested : compiledMethod.form.nesting deepMethod =
        max 0 (max 1 (max 1 (max (inArrays (.nested ⟨"A", []⟩) 62).toJson.depth 0))) + 1 := rfl
    rw [hnested, hvalue]
    rfl
  rw [hdepth] at hnesting
  exact absurd hnesting (by decide)

end Limit

end ModelType

end AnnotationLookup
