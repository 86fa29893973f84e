import AnnotationLookup.Proofs.Sample
import AnnotationLookup.Proofs.Tree.Grown

/-!
# Built trees

In the trees that come of edits, clones and copies, starting from a new tree, what is listed and what
it says of itself agree.

* `Tree.Built`: the trees in question;
* `Tree.Built.coherent`: a built tree is coherent;
* **`Tree.Built.listed_once`**: the main statement.
-/

namespace AnnotationLookup.Tree

/-- A tree that comes of edits of which none was refused and none brought in a parameter that listed
annotations. -/
def Built : Tree → Prop := Grown fun t e => e.AddsBare ∧ t.Accepts e

theorem Built.of_copy? {t t' : Tree} {id : TreeId} (h : t.Built) (hcopy : t.copy? id = some t') :
    t'.Built := by
  rw [Tree.copy?, ofJson?, Decoder.ofDocument?] at hcopy
  exact h.copy hcopy

theorem Built.coherent {t : Tree} (h : t.Built) : t.Coherent :=
  h.keeps coherent_new (fun h he => he.2.elim fun _ hi => Edit.coherent_apply h he.1 hi)
    Coherent.of_mirrors

/-- **In a built tree, everything is listed where it belongs, once, and nowhere else.** A method and a
field are listed by the type that they name as their owner, an annotation by the site that it is
applied to, and what is listed is there. The index leads from the names of the types to the types,
each of which has a name of its own, and from no other name anywhere. -/
theorem Built.listed_once {t : Tree} (h : t.Built) :
    ((∀ id m, t.method? id = some m → ∃ d, t.type? m.owner = some d ∧ d.methods.count id = 1) ∧
      ∀ i d, t.type? i = some d → ∀ id ∈ d.methods, ∃ m, t.method? id = some m ∧ m.owner = i) ∧
    ((∀ id f, t.field? id = some f → ∃ d, t.type? f.owner = some d ∧ d.fields.count id = 1) ∧
      ∀ i d, t.type? i = some d → ∀ id ∈ d.fields, ∃ f, t.field? id = some f ∧ f.owner = i) ∧
    ((∀ id u, t.use? id = some u → ∃ ids, t.usesAt? u.site = some ids ∧ ids.count id = 1) ∧
      ∀ site ids, t.usesAt? site = some ids → ∀ id ∈ ids, ∃ u, t.use? id = some u ∧ u.site = site) ∧
    (∀ name i, t.types.idOf? name = some i ↔ ∃ d, t.type? ⟨i⟩ = some d ∧ d.name = name) ∧
    ∀ i j d d', t.type? i = some d → t.type? j = some d' → d.name = d'.name → i = j := by
  obtain ⟨hmethods, hfields, huses, htypes⟩ := h.coherent
  refine ⟨⟨fun id m hm => ?_, fun i d hd id hid => ?_⟩, ⟨fun id f hf => ?_, fun i d hd id hid => ?_⟩,
    ⟨fun id u hu => ?_, fun site ids hids id hid => ?_⟩, htypes.idOf?_iff, ?_⟩
  · obtain ⟨ids, hids, hcount⟩ := hmethods.listed (i := id) (k := m.owner) (by rw [methodOwner?, hm]; rfl)
    obtain ⟨d, hd, rfl⟩ := Option.map_eq_some_iff.1 hids
    exact ⟨d, hd, hcount⟩
  · exact Option.map_eq_some_iff.1 (hmethods.owned (k := i) (by rw [methodsOf?, hd]; rfl) hid)
  · obtain ⟨ids, hids, hcount⟩ := hfields.listed (i := id) (k := f.owner) (by rw [fieldOwner?, hf]; rfl)
    obtain ⟨d, hd, rfl⟩ := Option.map_eq_some_iff.1 hids
    exact ⟨d, hd, hcount⟩
  · exact Option.map_eq_some_iff.1 (hfields.owned (k := i) (by rw [fieldsOf?, hd]; rfl) hid)
  · exact huses.listed (by rw [siteOf?, hu]; rfl)
  · exact Option.map_eq_some_iff.1 (huses.owned hids hid)
  · intro i j d d' hd hd' hname
    have hi : t.types.idOf? d'.name = some i.index := (htypes.idOf?_iff _ _).2 ⟨d, hd, hname⟩
    have hj : t.types.idOf? d'.name = some j.index := (htypes.idOf?_iff _ _).2 ⟨d', hd', rfl⟩
    obtain ⟨i⟩ := i
    obtain ⟨j⟩ := j
    exact congrArg NodeId.mk (Option.some.inj (hi.symm.trans hj))

/-- The sample tree, read back from its document. -/
def sampleCopy : Tree := ((Sample.tree Sample.abroad).copy? ⟨1⟩).get (by decide)

/-- An annotation of the parameter in the sample tree. -/
def annotatePeers : Edit := .annotate (.parameter ⟨0⟩ 0) ⟨"Route", Sample.home⟩ none

theorem built_sampleCopy : sampleCopy.Built := by
  have hnew : ({ id := ⟨0⟩ } : Tree).Built := .new ⟨0⟩
  have htype := hnew.edit (e := .addType "Server" .ordinary .shadow Sample.home) ⟨trivial, 0, rfl⟩
  have hmethod := htype.edit ⟨Edit.addsBare_addMethod ⟨0⟩ "serve"
    [("peers", ⟨"Server[]", Sample.abroad⟩)], 0, rfl⟩
  have htree : (Sample.tree Sample.abroad).Built :=
    hmethod.edit (e := .annotate (.method ⟨0⟩) ⟨"Route", Sample.abroad⟩ none) ⟨trivial, 0, rfl⟩
  have hcopy : (Sample.tree Sample.abroad).copy? ⟨1⟩ = some sampleCopy := (Option.some_get _).symm
  exact Built.of_copy? htree hcopy

/-- A copy whose method and whose parameter are annotated. -/
theorem Built.listed_once_in_annotated_copy :
    (annotatePeers.apply sampleCopy).1.Built ∧
      (annotatePeers.apply sampleCopy).1.usesAt? (.parameter ⟨0⟩ 0) = some [⟨1⟩] ∧
      ∃ u, (annotatePeers.apply sampleCopy).1.use? ⟨1⟩ = some u ∧ u.site = .parameter ⟨0⟩ 0 := by
  have hbuilt : (annotatePeers.apply sampleCopy).1.Built :=
    built_sampleCopy.edit ⟨trivial, 1, rfl⟩
  have hlisted : (annotatePeers.apply sampleCopy).1.usesAt? (.parameter ⟨0⟩ 0) = some [⟨1⟩] := by decide
  exact ⟨hbuilt, hlisted,
    (Built.listed_once hbuilt).2.2.1.2 _ _ hlisted ⟨1⟩ (List.mem_singleton.2 rfl)⟩

end AnnotationLookup.Tree
