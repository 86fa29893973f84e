import AnnotationLookup.Proofs.Tree.Linked
import AnnotationLookup.Proofs.Tree.Redeclaration
import Mathlib.Data.List.Basic

/-!
# Descriptions after edits

The description of a type that was read from source follows the edits of the tree: a new method of the
type is described last, an annotation with values is recorded last on what it is applied to, and
nothing else has an effect.

* `map_some_modify_idxOf`: a change at the place of one item of a list;
* `Tree.described?`: the description of one method; `Tree.methods_describe`: those of a type;
* `Edit.recordsAt`, `Edit.methodsFor`: what an edit adds to a description;
* `Edit.describe_apply`: the description of a type after an edit, part by part;
* **`Tree.Unrefused.description_follows`**: the main statement, in terms of `Edit.redescribe`.
-/

namespace AnnotationLookup

theorem map_some_modify_idxOf {α β : Type} [DecidableEq α] {xs : List α} (hnodup : xs.Nodup)
    {f : α → Option β} {ys : List β} (hys : ys.map some = xs.map f) (a : α) (g : β → β) :
    (ys.modify (xs.idxOf a) g).map some = xs.map fun x => if x = a then (f x).map g else f x := by
  have hlength : ys.length = xs.length := by simpa using congrArg List.length hys
  refine List.ext_getElem (by simp [hlength]) fun k hk hk' => ?_
  have hx : k < xs.length := by simpa using hk'
  have hy : k < ys.length := by omega
  have hitem : some ys[k] = f xs[k] := by
    have hthere := congrArg (·[k]?) hys
    simpa only [List.getElem?_map, List.getElem?_eq_getElem hx, List.getElem?_eq_getElem hy,
      Option.map_some, Option.some.injEq] using hthere
  have hplace : xs.idxOf a = k ↔ xs[k] = a := by
    constructor
    · rintro rfl
      exact List.getElem_idxOf hx
    · rintro rfl
      exact hnodup.idxOf_getElem k hx
  rw [List.getElem_map, List.getElem_map, List.getElem_modify, ← hitem, Option.map_some]
  by_cases ha : xs[k] = a
  · rw [if_pos ha, if_pos (hplace.2 ha)]
  · rw [if_neg ha, if_neg (mt hplace.1 ha)]

/-! ## What is described -/

/-- The method with more records. -/
def CompiledMethod.withRecords (m : CompiledMethod) (records : List AnnotationRecord) :
    CompiledMethod :=
  { m with annotations := m.annotations ++ records }

@[simp]
theorem CompiledMethod.withRecords_nil (m : CompiledMethod) : m.withRecords [] = m := by
  simp [withRecords]

namespace Tree

variable {t t' : Tree}

/-- The description of a method that is there. -/
def described? (t : Tree) (id : MethodId) : Option CompiledMethod :=
  (t.method? id).map t.describeMethod

/-- The description of a type shows each method that the type lists, in order. -/
theorem methods_describe (h : Lists t.methodsOf? t.methodOwner?) {T : TypeId} {d : TypeNode}
    (hd : t.type? T = some d) : (t.describe d).methods.map some = d.methods.map t.described? := by
  have hthere : ∀ id ∈ d.methods, ∃ m, t.method? id = some m := fun id hid => by
    have howned := h.owned (methodsOf?_eq_some hd) hid
    obtain ⟨m, hm, -⟩ := Option.map_eq_some_iff.1 howned
    exact ⟨m, hm⟩
  unfold describe
  generalize d.methods = ids at hthere
  induction ids with
  | nil => rfl
  | cons id ids ih =>
    obtain ⟨m, hm⟩ := hthere id (.head ids)
    have hrest := ih fun id hid => hthere id (.tail _ hid)
    simp only [List.filterMap_cons, hm, List.map_cons, described?, Option.map_some] at hrest ⊢
    rw [hrest]

theorem records_congr {ids : List UseId} (h : ∀ id ∈ ids, t'.use? id = t.use? id) :
    t'.records ids = t.records ids :=
  List.filterMap_congr fun id hid => by simp only [record?, h id hid]

end Tree

/-! ## What an edit adds -/

namespace Edit

/-- The records that the edit adds to what is declared at a site. -/
def recordsAt (site : Site) : Edit → List AnnotationRecord
  | .annotate site' annotationType (some values) =>
    if site' = site then [⟨annotationType.name, values⟩] else []
  | _ => []

/-- The descriptions of the methods that the edit adds to a type. -/
def methodsFor (T : TypeId) : Edit → List CompiledMethod
  | .addMethodNode owner name parameters =>
    if owner = T then [{ name, parameterTypes := parameters.map (·.type.typeName) }] else []
  | .addElement owner name defaultValue => if owner = T then [{ name, defaultValue }] else []
  | _ => []

theorem recordsAt_of_ne {e : Edit} {site : Site}
    (h : ∀ annotationType values, e ≠ .annotate site annotationType values) :
    e.recordsAt site = [] := by
  cases e with
  | annotate site' annotationType values =>
    have hne : site' ≠ site := by
      rintro rfl
      exact h annotationType values rfl
    cases values with
    | none => rfl
    | some values => exact if_neg hne
  | _ => rfl

variable {t : Tree} {e : Edit} {i : Nat}

/-- **What is recorded at a declaration after an edit**: what was recorded before, and then what the
edit adds. -/
theorem records_apply (h : t.Linked) (hi : (e.apply t).2 = .ok i) (site : Site)
    (hdeclaration : site.IsDeclaration) {ids ids' : List UseId} (hids : t.usesAt? site = some ids)
    (hids' : (e.apply t).1.usesAt? site = some ids') :
    (e.apply t).1.records ids' = t.records ids ++ e.recordsAt site := by
  have hold : (e.apply t).1.records ids = t.records ids := Tree.records_congr fun id hid => by
    obtain ⟨u, hu⟩ := h.uses hdeclaration hids id hid
    rw [hu, (e.grows_apply t).use? hu]
  by_cases hown : ∃ annotationType values, e = .annotate site annotationType values
  · obtain ⟨annotationType, values, rfl⟩ := hown
    have hsite : t.HasSite site := hasSite_of_ok hi rfl
    have happended := Tree.usesAt?_annotate hsite annotationType values site
    rw [if_pos rfl, hids] at happended
    obtain rfl := Option.some.inj (hids'.symm.trans happended)
    have hnew := Tree.use?_annotate hsite annotationType values ⟨t.uses.freeIndex⟩
    rw [if_pos rfl] at hnew
    have hrecord : (t.annotate site annotationType values).1.records [⟨t.uses.freeIndex⟩] =
        (Edit.annotate site annotationType values).recordsAt site := by
      cases values <;> simp [Tree.records, Tree.record?, hnew, recordsAt]
    rw [← hold, ← hrecord]
    exact List.filterMap_append
  · have hother : ∀ annotationType values, e ≠ .annotate site annotationType values :=
      fun annotationType values he => hown ⟨annotationType, values, he⟩
    rw [recordsAt_of_ne hother, List.append_nil]
    rcases usesAt?_apply hi hdeclaration hother with hsame | ⟨hnone, -⟩
    · obtain rfl := Option.some.inj (hids.symm.trans (hsame.symm.trans hids'))
      exact hold
    · rw [hnone] at hids
      cases hids

/-- A method that was there is described as before, with the records that the edit adds to it. -/
theorem described?_apply (h : t.Linked) (hi : (e.apply t).2 = .ok i) {id : MethodId}
    {m : CompiledMethod} (hm : t.described? id = some m) :
    (e.apply t).1.described? id = some (m.withRecords (e.recordsAt (.method id))) := by
  obtain ⟨node, hnode, rfl⟩ := Option.map_eq_some_iff.1 hm
  obtain ⟨node', hnode', hbare⟩ := (e.grows_apply t).method? hnode
  obtain ⟨hname, -, hparameters, hdefault⟩ := MethodNode.eq_of_bare hbare
  have htypes : node'.parameters.map (·.type.typeName) = node.parameters.map (·.type.typeName) := by
    have hview (ps : List ParameterNode) : ps.map (·.type.typeName) =
        (ps.map ParameterNode.bare).map (·.type.typeName) := by
      rw [List.map_map]
      rfl
    rw [hview, hparameters, ← hview]
  have hrecords := records_apply h hi (.method id) trivial
    (by rw [Tree.usesAt?, hnode, Option.map_some]) (by rw [Tree.usesAt?, hnode', Option.map_some])
  rw [Tree.described?, hnode', Option.map_some, Tree.describeMethod, hname, htypes, hrecords, hdefault]
  rfl

theorem exists_added {t' : Tree} {owner T : TypeId} {id : MethodId} {m : CompiledMethod}
    (hlisted : t'.methodsOf? T =
      if T = owner then (t.methodsOf? T).map (· ++ [id]) else t.methodsOf? T)
    (hm : t'.described? id = some m) {ids ids' : List MethodId} (hids : t.methodsOf? T = some ids)
    (hids' : t'.methodsOf? T = some ids') : ∃ added, ids' = ids ++ added ∧
      added.map t'.described? = (if owner = T then [m] else []).map some := by
  rw [hids, hids'] at hlisted
  by_cases hT : T = owner
  · rw [if_pos hT] at hlisted
    rw [if_pos hT.symm]
    exact ⟨[id], Option.some.inj hlisted, congrArg ([·]) hm⟩
  · rw [if_neg hT] at hlisted
    rw [if_neg (Ne.symm hT)]
    exact ⟨[], by rw [Option.some.inj hlisted, List.append_nil], rfl⟩

/-- **The methods of a type after an edit**: those that were listed before, and then those that the
edit adds, which are described. -/
theorem methods_apply (hi : (e.apply t).2 = .ok i) {T : TypeId} {ids ids' : List MethodId}
    (hids : t.methodsOf? T = some ids) (hids' : (e.apply t).1.methodsOf? T = some ids') :
    ∃ added, ids' = ids ++ added ∧
      added.map (e.apply t).1.described? = (e.methodsFor T).map some := by
  have hsame (h : (e.apply t).1.methodsOf? T = t.methodsOf? T) : ids' = ids ++ [] := by
    rw [List.append_nil]
    exact Option.some.inj (hids'.symm.trans (h.trans hids))
  cases e with
  | addType name kind origin factory =>
    rcases Tree.methodsOf?_addType name kind origin factory T with h | ⟨hnone, -⟩
    · exact ⟨[], hsame h, rfl⟩
    · rw [hnone] at hids
      cases hids
  | addMethodNode owner name parameters =>
    obtain ⟨d, hd⟩ := hasSite_of_ok hi rfl
    refine exists_added (Tree.methodsOf?_addMethod hd name parameters T) ?_ hids hids'
    simp only [Tree.addMethod_of_type? hd, Tree.described?, Tree.method?, Arena.get?_insert,
      if_true, Option.map_some]
    rfl
  | addElement owner name defaultValue =>
    obtain ⟨d, hd⟩ := hasSite_of_ok hi rfl
    have hlisted : (t.addElement owner name defaultValue).1.methodsOf? T =
        (t.addMethod owner name []).1.methodsOf? T := by
      rw [Tree.addElement_of_type? hd]
      rfl
    refine exists_added (hlisted.trans (Tree.methodsOf?_addMethod hd name [] T)) ?_ hids hids'
    simp only [Tree.addElement_of_type? hd, Tree.addMethod_of_type? hd, Tree.described?,
      Tree.method?, Arena.get?_modify, Arena.get?_insert, if_true, Option.map_some]
    rfl
  | addField owner name type =>
    obtain ⟨d, hd⟩ := hasSite_of_ok hi rfl
    refine ⟨[], hsame ?_, rfl⟩
    simp only [apply, Tree.addField_of_type? hd]
    exact t.types.values.map_get?_modify_of_eq (fun _ => by rfl) _ _
  | annotate site annotationType values =>
    refine ⟨[], hsame ?_, rfl⟩
    simp only [apply, Tree.annotate_of_hasSite (hasSite_of_ok hi rfl)]
    exact Tree.map_type?_listUse _ _ T fun _ => rfl

/-- **The description of a type after an edit**, part by part. -/
theorem describe_apply (h : t.Linked) (hi : (e.apply t).2 = .ok i) {T : TypeId} {d : TypeNode}
    (hd : t.type? T = some d) :
    ∃ d' methods, (e.apply t).1.type? T = some d' ∧ d'.bare = d.bare ∧
      (e.apply t).1.describe d' = ⟨d.name, d.kind,
        (t.describe d).annotations ++ e.recordsAt (.type T), methods⟩ ∧
      methods.map some = (d.methods.map fun id =>
        (t.described? id).map (·.withRecords (e.recordsAt (.method id)))) ++
          (e.methodsFor T).map some := by
  obtain ⟨d', hd', hbare⟩ := (e.grows_apply t).type? hd
  obtain ⟨hname, hkind, -, -⟩ := TypeNode.eq_of_bare hbare
  have hlisted := Tree.methodsOf?_eq_some hd
  have hrecords := records_apply h hi (.type T) trivial
    (by rw [Tree.usesAt?, hd, Option.map_some]) (by rw [Tree.usesAt?, hd', Option.map_some])
  obtain ⟨added, hmethods, hadded⟩ := methods_apply hi hlisted (Tree.methodsOf?_eq_some hd')
  refine ⟨d', _, hd', hbare, by rw [Tree.describe, hname, hkind, hrecords]; rfl, ?_⟩
  have hdescribed := Tree.methods_describe (linked_apply h hi).methods hd'
  rw [hmethods, List.map_append, hadded] at hdescribed
  refine Eq.trans hdescribed (congrArg (· ++ _) (List.map_congr_left fun id hid => ?_))
  -- a method that was listed is there, and is described after the edit as well
  obtain ⟨m, hm, -⟩ := Option.map_eq_some_iff.1 (h.methods.owned hlisted hid)
  have hold : t.described? id = some (t.describeMethod m) := by
    rw [Tree.described?, hm, Option.map_some]
  rw [described?_apply h hi hold, hold, Option.map_some]

/-- An edit that adds no records to the methods of a type leaves their descriptions as they are. -/
theorem describe_of_recordsAt_eq_nil (h : t.Linked) (hi : (e.apply t).2 = .ok i) {T : TypeId}
    {d : TypeNode} (hd : t.type? T = some d) (hquiet : ∀ id ∈ d.methods, e.recordsAt (.method id) = []) :
    ∃ d', (e.apply t).1.type? T = some d' ∧ d'.bare = d.bare ∧
      (e.apply t).1.describe d' = { t.describe d with
        annotations := (t.describe d).annotations ++ e.recordsAt (.type T)
        methods := (t.describe d).methods ++ e.methodsFor T } := by
  obtain ⟨d', methods, hd', hbare, hdescribe, hmethods⟩ := describe_apply h hi hd
  refine ⟨d', hd', hbare, ?_⟩
  have hsame : (d.methods.map fun id =>
      (t.described? id).map (·.withRecords (e.recordsAt (.method id)))) =
        d.methods.map t.described? := List.map_congr_left fun id hid => by simp [hquiet id hid]
  rw [hsame, ← Tree.methods_describe h.methods hd, ← List.map_append] at hmethods
  obtain rfl := (List.map_inj_right fun _ _ => Option.some.inj).1 hmethods
  exact hdescribe

theorem describe_annotate_method (h : t.Linked) {id : MethodId} {annotationType : TypeReference}
    {values : Entries Value}
    (hi : ((Edit.annotate (.method id) annotationType (some values)).apply t).2 = .ok i)
    {T : TypeId} {d : TypeNode} (hd : t.type? T = some d) :
    ∃ d', ((Edit.annotate (.method id) annotationType (some values)).apply t).1.type? T = some d' ∧
      d'.bare = d.bare ∧
      ((Edit.annotate (.method id) annotationType (some values)).apply t).1.describe d' =
        { t.describe d with
          methods := (t.describe d).methods.modify (d.methods.idxOf id)
            (·.withRecord ⟨annotationType.name, values⟩) } := by
  obtain ⟨d', methods, hd', hbare, hdescribe, hmethods⟩ := describe_apply h hi hd
  have hnodup : d.methods.Nodup := h.methods.nodup (Tree.methodsOf?_eq_some hd)
  have hmodified := map_some_modify_idxOf hnodup (Tree.methods_describe h.methods hd) id
    (·.withRecord ⟨annotationType.name, values⟩)
  have hrecords (id' : MethodId) : ((t.described? id').map fun m => m.withRecords
      ((Edit.annotate (.method id) annotationType (some values)).recordsAt (.method id'))) =
        if id' = id then (t.described? id').map (·.withRecord ⟨annotationType.name, values⟩)
        else t.described? id' := by
    by_cases hid : id' = id
    · subst hid
      simp only [recordsAt, if_true]
      rfl
    · have hne : Site.method id ≠ .method id' := fun h => hid (Site.method.inj h).symm
      simp [recordsAt, hid, hne]
  simp only [hrecords, methodsFor, List.map_nil, List.append_nil] at hmethods
  obtain rfl := (List.map_inj_right fun _ _ => Option.some.inj).1 (hmethods.trans hmodified.symm)
  refine ⟨d', hd', hbare, hdescribe.trans ?_⟩
  simp [recordsAt, Tree.describe]

/-! ## Following edits -/

/-- What becomes of the description of a type, whose methods are given, by an edit. A method or an
element that is added to the type comes last. An annotation with values of the type, or of one of its
methods, is recorded there, after the others. All else leaves the description as it is. -/
def redescribe (T : TypeId) (methods : List MethodId) (c : CompiledClass) : Edit → CompiledClass
  | .addMethodNode owner name parameters =>
    if owner = T then c.withMethod { name, parameterTypes := parameters.map (·.type.typeName) } else c
  | .addElement owner name defaultValue =>
    if owner = T then c.withMethod { name, defaultValue } else c
  | .annotate (.type id) annotationType (some values) =>
    if id = T then c.withRecord ⟨annotationType.name, values⟩ else c
  | .annotate (.method id) annotationType (some values) =>
    if id ∈ methods then { c with
      methods := c.methods.modify (methods.idxOf id) (·.withRecord ⟨annotationType.name, values⟩) }
    else c
  | _ => c

theorem redescribe_of_recordsAt_eq_nil {T : TypeId} {methods : List MethodId} (c : CompiledClass)
    (hquiet : ∀ id ∈ methods, e.recordsAt (.method id) = []) :
    e.redescribe T methods c = { c with
      annotations := c.annotations ++ e.recordsAt (.type T)
      methods := c.methods ++ e.methodsFor T } := by
  cases e with
  | addType name kind origin factory => simp [redescribe, recordsAt, methodsFor]
  | addField owner name type => simp [redescribe, recordsAt, methodsFor]
  | addMethodNode owner name parameters | addElement owner name defaultValue =>
    by_cases howner : owner = T <;>
      simp [redescribe, recordsAt, methodsFor, howner, CompiledClass.withMethod]
  | annotate site annotationType values =>
    cases values with
    | none => cases site <;> simp [redescribe, recordsAt, methodsFor]
    | some values =>
      cases site with
      | type id =>
        by_cases hid : id = T <;>
          simp [redescribe, recordsAt, methodsFor, hid, CompiledClass.withRecord]
      | method id =>
        have hforeign : id ∉ methods := fun hmem => by
          simpa [recordsAt] using hquiet id hmem
        simp [redescribe, recordsAt, methodsFor, hforeign]
      | field id | parameter id position => simp [redescribe, recordsAt, methodsFor]

/-- **The description of a type follows an edit.** -/
theorem describe_eq_redescribe (h : t.Linked) (hi : (e.apply t).2 = .ok i) {T : TypeId} {d : TypeNode}
    (hd : t.type? T = some d) : ∃ d', (e.apply t).1.type? T = some d' ∧ d'.bare = d.bare ∧
      (e.apply t).1.describe d' = e.redescribe T d.methods (t.describe d) := by
  by_cases hquiet : ∀ id ∈ d.methods, e.recordsAt (.method id) = []
  · rw [redescribe_of_recordsAt_eq_nil _ hquiet]
    exact describe_of_recordsAt_eq_nil h hi hd hquiet
  · -- only an annotation with values is recorded at a method
    obtain ⟨id, hid, annotationType, values, rfl⟩ : ∃ id ∈ d.methods, ∃ annotationType values,
        e = .annotate (.method id) annotationType (some values) := by
      push Not at hquiet
      obtain ⟨id, hid, hrecords⟩ := hquiet
      have hown := mt recordsAt_of_ne hrecords
      push Not at hown
      obtain ⟨annotationType, values, rfl⟩ := hown
      cases values with
      | none => exact absurd rfl hrecords
      | some values => exact ⟨id, hid, annotationType, values, rfl⟩
    rw [redescribe, if_pos hid]
    exact describe_annotate_method h hi hd

end Edit

/-- **The description of a type follows the edits.** In a tree none of whose edits was refused, a type
that was read from source is described under its name and factory. The description shows the methods
that name the type as their owner, each of them once, in the order in which the type lists them. After
one more edit that is not refused, the description is what the edit makes of it. -/
theorem Tree.Unrefused.description_follows {σ : Type} (host : Host σ) {t : Tree} (h : t.Unrefused)
    {T : TypeId} {d : TypeNode} (hd : t.type? T = some d) (hsource : d.origin = .source) :
    (Provider.source d.factory).load host t ⟨d.name, d.factory⟩ = pure (some (t.describe d)) ∧
    (d.methods.Nodup ∧ ∀ id, id ∈ d.methods ↔ ∃ m, t.method? id = some m ∧ m.owner = T) ∧
    (t.describe d).methods.map some = d.methods.map t.described? ∧
    ∀ e i, (Edit.apply t e).2 = .ok i →
      (Provider.source d.factory).load host (e.apply t).1 ⟨d.name, d.factory⟩ =
        pure (some (e.redescribe T d.methods (t.describe d))) := by
  have hload {t' : Tree} {d' : TypeNode} (h' : t'.Linked) (hd' : t'.type? T = some d')
      (hbare : d'.bare = d.bare) : (Provider.source d.factory).load host t' ⟨d.name, d.factory⟩ =
        pure (some (t'.describe d')) := by
    obtain ⟨hname, -, horigin, hfactory⟩ := TypeNode.eq_of_bare hbare
    rw [Provider.load, if_pos rfl, ← hname, Provider.sourceClass?_of_type? h'.types hd',
      if_pos ⟨horigin.trans hsource, hfactory.symm⟩]
  have hlinked := h.linked
  have hlisted := methodsOf?_eq_some hd
  refine ⟨hload hlinked hd rfl, ⟨hlinked.methods.nodup hlisted, fun id => ?_⟩,
    methods_describe hlinked.methods hd, fun e i hi => ?_⟩
  · rw [hlinked.methods.mem_iff hlisted, methodOwner?, Option.map_eq_some_iff]
  · obtain ⟨d', hd', hbare, hdescribe⟩ := Edit.describe_eq_redescribe hlinked hi hd
    rw [← hdescribe]
    exact hload (Edit.linked_apply hlinked hi) hd' hbare

open Sample in
/-- `class Server`, with `void serve(int[] ports)` and `@Route void serve(int[] ports)`, where the
values of the annotation are not shown. -/
def overloaded : Tree :=
  (({ id := ⟨0⟩ } : Tree).run [.addType "Server" .ordinary .source home,
    .addMethod ⟨0⟩ "serve" [("ports", ⟨"int[]", home⟩)],
    .addMethod ⟨0⟩ "serve" [("ports", ⟨"int[]", abroad⟩)],
    .annotate (.method ⟨1⟩) ⟨"Route", home⟩ none]).2

theorem unrefused_overloaded : overloaded.Unrefused := Tree.Unrefused.run (.new ⟨0⟩) _ rfl

open Sample in
/-- Of two methods with one signature, the second is annotated with values. The description of the
first stays as it was. -/
theorem Tree.Unrefused.description_follows_of_overloaded :
    overloaded.Unrefused ∧
      (Provider.source home).load Loader.host
          ((Edit.annotate (.method ⟨1⟩) ⟨"Route", home⟩ (some [("value", .string "/")])).apply
            overloaded).1 ⟨"Server", home⟩ =
        pure (some {
          name := "Server"
          kind := .ordinary
          methods := [{ name := "serve", parameterTypes := [⟨"int[]"⟩] },
            { name := "serve", parameterTypes := [⟨"int[]"⟩],
              annotations := [⟨"Route", [("value", .string "/")]⟩] }] }) := by
  have hd : overloaded.type? ⟨0⟩ = some ⟨"Server", .ordinary, .source, home, [⟨0⟩, ⟨1⟩], [], []⟩ :=
    rfl
  obtain ⟨-, -, -, hnext⟩ :=
    unrefused_overloaded.description_follows Loader.host hd rfl
  exact ⟨unrefused_overloaded, hnext (.annotate (.method ⟨1⟩) ⟨"Route", home⟩
    (some [("value", .string "/")])) 1 rfl⟩

end AnnotationLookup
