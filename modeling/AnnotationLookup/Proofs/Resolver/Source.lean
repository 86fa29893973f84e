import AnnotationLookup.Proofs.Resolver.Success
import AnnotationLookup.Proofs.Tree.Built
import AnnotationLookup.Proofs.Tree.Names

/-!
# Values from source declarations

Where the source declarations of a factory come first, a lookup reads the values of an annotation from
its tree. It finds them by the annotated declaration and by the name of the annotation type, so that
of several uses which both have in common, the first one with values speaks for all.

* `Tree.FirstWithValues`: this use, and the values that it gives;
* `Metadata.Loads`, `Metadata.Keyed`: what a source may answer, and sources that answer a name with
  a class of the name;
* `Metadata.returns_resolveTarget`: what a resolution comes to over a keyed source;
* `Provider.keyed_metadata`, `Provider.loads_source_first`: providers over loaders that are keyed;
* **`Resolver.lookup_of_source_use`**: the main statement;
* `Resolver.lookup_not_of_own_values`: the use that is looked up need not be the one that decides.
-/

namespace AnnotationLookup

variable {σ : Type}

/-! ## Uses with values -/

/-- Of the uses of an annotation type that a site lists, the first one with values, and its values. -/
def Tree.FirstWithValues (t : Tree) (site : Site) (annotationType : String) (first : UseId)
    (values : Entries Value) : Prop :=
  ∃ before after use, t.usesAt? site = some (before ++ first :: after) ∧
    t.use? first = some use ∧ use.annotationType.name = annotationType ∧
    use.sourceValues = some values ∧
    ∀ id ∈ before, ∀ other, t.use? id = some other → other.annotationType.name = annotationType →
      other.sourceValues = none

namespace Tree

variable {t : Tree} {site : Site} {annotationType : String}

theorem record?_eq_some_iff {id : UseId} {record : AnnotationRecord} :
    t.record? id = some record ↔ ∃ use values, t.use? id = some use ∧
      use.sourceValues = some values ∧ record = ⟨use.annotationType.name, values⟩ := by
  simp only [record?, Option.bind_eq_bind, Option.bind_eq_some_iff, Option.some.injEq]
  constructor
  · rintro ⟨use, huse, values, hvalues, rfl⟩
    exact ⟨use, values, huse, hvalues, rfl⟩
  · rintro ⟨use, values, huse, hvalues, rfl⟩
    exact ⟨use, huse, values, hvalues, rfl⟩

/-- The first record in the description of a site is that of the first use with values. -/
theorem firstWithValues_of_firstRecord {ids : List UseId} {record : AnnotationRecord}
    (hids : t.usesAt? site = some ids) (h : FirstRecord (t.records ids) annotationType record) :
    ∃ first, t.FirstWithValues site annotationType first record.values := by
  obtain ⟨before, after, hrecords, hname, hbefore⟩ := h
  obtain ⟨ids₁, ids₂, rfl, hids₁, hids₂⟩ := List.filterMap_eq_append_iff.1 hrecords
  obtain ⟨skipped, first, rest, rfl, hskipped, hfirst, -⟩ := List.filterMap_eq_cons_iff.1 hids₂
  obtain ⟨use, values, huse, hvalues, rfl⟩ := record?_eq_some_iff.1 hfirst
  refine ⟨first, ids₁ ++ skipped, rest, use, by rw [hids, List.append_assoc], huse, hname, hvalues,
    fun id hid other hother hother' => ?_⟩
  rw [Option.eq_none_iff_forall_ne_some]
  intro values' hvalues'
  have hrecord := record?_eq_some_iff.2 ⟨other, values', hother, hvalues', rfl⟩
  rcases List.mem_append.1 hid with hid | hid
  · have hmem : (⟨other.annotationType.name, values'⟩ : AnnotationRecord) ∈ before :=
      hids₁ ▸ List.mem_filterMap.2 ⟨id, hid, hrecord⟩
    exact hbefore _ hmem hother'
  · rw [hskipped id hid] at hrecord
    cases hrecord

theorem FirstWithValues.unique {first first' : UseId} {values values' : Entries Value}
    (h : t.FirstWithValues site annotationType first values)
    (h' : t.FirstWithValues site annotationType first' values') :
    first = first' ∧ values = values' := by
  obtain ⟨before, after, use, hids, huse, hname, hvalues, hbefore⟩ := h
  obtain ⟨before', after', use', hids', huse', hname', hvalues', hbefore'⟩ := h'
  have hlist := Option.some.inj (hids.symm.trans hids')
  rcases List.append_eq_append_iff.1 hlist with ⟨as, h₁, h₂⟩ | ⟨as, h₁, h₂⟩
  · cases as with
    | nil =>
      obtain ⟨rfl, -⟩ := List.cons.inj h₂
      obtain rfl : use = use' := Option.some.inj (huse.symm.trans huse')
      exact ⟨rfl, Option.some.inj (hvalues.symm.trans hvalues')⟩
    | cons a as =>
      obtain ⟨rfl, -⟩ := List.cons.inj h₂
      have hnone := hbefore' first (by simp [h₁]) use huse hname
      rw [hvalues] at hnone
      cases hnone
  · cases as with
    | nil =>
      obtain ⟨rfl, -⟩ := List.cons.inj h₂
      obtain rfl : use = use' := Option.some.inj (huse.symm.trans huse')
      exact ⟨rfl, Option.some.inj (hvalues.symm.trans hvalues')⟩
    | cons a as =>
      obtain ⟨rfl, -⟩ := List.cons.inj h₂
      have hnone := hbefore first' (by simp [h₁]) use' huse' hname'
      rw [hvalues'] at hnone
      cases hnone

end Tree

/-! ## Keyed sources -/

namespace Metadata

/-- The source may answer a reference with the class. -/
def Loads (source : Metadata σ) (t : Tree) (r : TypeReference) (c : CompiledClass) : Prop :=
  ∃ w w', source.load t r w = .ok (some c) w'

/-- A reference is answered with a class of its name only. -/
def Keyed (source : Metadata σ) (t : Tree) : Prop :=
  ∀ r c, source.Loads t r c → c.name = r.name

variable {source : Metadata σ} {t : Tree}

theorem returns_classOf (r : TypeReference) :
    Task.Returns (source.classOf t r) (source.Loads t r) := by
  have hload : Task.Returns (source.load t r) fun c? => ∀ c, c? = some c → source.Loads t r c := by
    rintro w c? w' h c rfl
    exact ⟨w, w', h⟩
  refine (hload.adaptExcept _).bind fun c? hc => ?_
  cases c? with
  | some c => exact .pure (hc c rfl)
  | none => exact .throw _ _

theorem returns_compiledTypes (keyed : source.Keyed t) (factory : Factory) (types : List TypeName) :
    Task.Returns (source.compiledTypes t factory types) fun compiled => compiled = types := by
  have htype (type : TypeName) :
      Task.Returns (source.compiledType t factory type) fun compiled => compiled = type := by
    simp only [compiledType]
    split
    · exact .pure type.arrayOf_splitArray
    · refine (returns_classOf _).bind fun c hc => .pure ?_
      have helement : c.typeName = type.splitArray.1 := congrArg TypeName.mk (keyed _ c hc)
      rw [helement, type.arrayOf_splitArray]
  induction types with
  | nil => exact .pure rfl
  | cons type types ih =>
    exact (htype type).bind fun compiled h => ih.bind fun rest hrest => .pure (by rw [h, hrest])

/-- The record on a compiled type, or on its only method of a signature. -/
def ShownOn (c : CompiledClass) (annotationType : String) (record : AnnotationRecord) :
    Option (String × List TypeName) → Prop
  | none => FirstRecord c.annotations annotationType record
  | some (name, types) => ∃ m : CompiledMethod,
      c.methods.filter (fun m => m.name = name ∧ m.parameterTypes = types) = [m] ∧
        FirstRecord m.annotations annotationType record

theorem returns_recordOf (keyed : source.Keyed t) (annotationType : String) (g : Target) :
    Task.Returns (source.recordOf t annotationType g) fun record =>
      ∃ c, source.Loads t g.enclosing c ∧ ShownOn c annotationType record g.method? := by
  unfold recordOf
  refine (returns_classOf _).bind fun c hc => ?_
  cases g.method? with
  | none => exact .ofExcept fun record h => ⟨c, hc, CompiledClass.recordOnClass_eq_ok_iff.1 h⟩
  | some method =>
    refine (returns_compiledTypes keyed _ _).bind fun compiled hcompiled => ?_
    have hexact : Task.Returns (Task.ofExcept (c.exactMethod method.1 compiled) : Task σ _ _)
        fun m => c.methods.filter (fun m => m.name = method.1 ∧ m.parameterTypes = method.2) = [m] :=
      .ofExcept fun m h => CompiledClass.exactMethod_eq_ok_iff.1 (hcompiled ▸ h)
    exact hexact.bind fun m hm => .ofExcept fun record h =>
      ⟨c, hc, m, hm, CompiledClass.recordOnMethod_eq_ok_iff.1 h⟩

/-- **What a resolution comes to** over a keyed source: an annotation type, completed with the record
that the enclosing class shows for it. -/
theorem returns_resolveTarget (keyed : source.Keyed t) (settings : Settings) (g : Target) :
    Task.Returns (source.resolveTarget t settings g) fun completed => ∃ a c record,
      source.Loads t (g.annotationType.rebind g.enclosing.factory) a ∧
      source.Loads t g.enclosing c ∧ ShownOn c g.annotationType.name record g.method? ∧
      completed = Completed.merge a record := by
  have hany {α : Type} (x : Task σ Cause α) : Task.Returns x fun _ => True :=
    fun _ _ _ _ => trivial
  refine (hany _).bind fun _ _ => (returns_classOf _).bind fun a ha => (hany _).bind fun _ _ => ?_
  refine (returns_recordOf keyed _ g).bind fun record ⟨c, hc, hshown⟩ => (hany _).bind fun _ _ => ?_
  exact .pure ⟨a, c, record, ha, hc, hshown, rfl⟩

end Metadata

/-! ## Keyed providers -/

/-- The loaders answer a name with a class of the name only. -/
def Host.Keyed (host : Host σ) : Prop :=
  ∀ loader name s c, (host.load loader name s).1 = .ok (some c) → c.name = name

namespace Provider

variable {host : Host σ} {t : Tree}

mutual

theorem returns_load (keyed : host.Keyed) (h : t.types.Indexes TypeNode.name) (r : TypeReference)
    (p : Provider) :
    Task.Returns (p.load host t r) fun c? => ∀ c, c? = some c → c.name = r.name := by
  match p with
  | .classPath bindings =>
    simp only [load]
    cases bindings.lookup r.factory with
    | none => exact .throw _ _
    | some loader =>
      have hask : Task.Returns (ask host loader r.name) fun c? => ∀ c, c? = some c →
          c.name = r.name := by
        rintro w c? w' hanswer c rfl
        refine keyed loader r.name w.host c ?_
        unfold ask at hanswer
        generalize host.load loader r.name w.host = answer at hanswer ⊢
        obtain ⟨outcome, s⟩ := answer
        cases outcome with
        | ok c? => cases hanswer; rfl
        | error e => cases hanswer
      have hany : Task.Returns (report .trace (.loading r) : Task σ LoadError Unit) fun _ => True :=
        fun _ _ _ _ => trivial
      exact hany.bind fun _ _ => hask
  | .source own =>
    simp only [load]
    split
    · refine .pure fun c hc => ?_
      obtain ⟨id, d, hd, hname, -, -, rfl⟩ := (sourceClass?_eq_some_iff h).1 hc
      exact hname
    · exact .throw _ _
  | .layered layers => exact returns_loadLayers keyed h r layers false
termination_by structural p

theorem returns_loadLayers (keyed : host.Keyed) (h : t.types.Indexes TypeNode.name)
    (r : TypeReference) (layers : List Provider) (asked : Bool) :
    Task.Returns (loadLayers host t layers asked r) fun c? => ∀ c, c? = some c → c.name = r.name := by
  match layers with
  | [] =>
    simp only [loadLayers]
    split
    · exact .pure fun c hc => by cases hc
    · exact .throw _ _
  | p :: layers =>
    simp only [loadLayers]
    split
    · refine (returns_load keyed h r p).bind fun c? hc => ?_
      cases c? with
      | some c => exact .pure hc
      | none => exact returns_loadLayers keyed h r layers true
    · exact returns_loadLayers keyed h r layers asked
termination_by structural layers

end

/-- **A provider over keyed loaders is keyed**, if the tree finds its types by their names. -/
theorem keyed_metadata (keyed : host.Keyed) (h : t.types.Indexes TypeNode.name) (p : Provider) :
    (p.metadata host).Keyed t := by
  rintro r c ⟨w, w', hload⟩
  exact returns_load keyed h r p w (some c) w' hload c rfl

/-- Source declarations that come first answer for the types that they declare. -/
theorem loads_source_first {factory : Factory} {rest : List Provider} {name : String}
    {c c' : CompiledClass} (hsource : sourceClass? t factory name = some c)
    (hloads : ((Provider.layered (.source factory :: rest)).metadata host).Loads t
      ⟨name, factory⟩ c') : c' = c := by
  obtain ⟨w, w', hload⟩ := hloads
  have hserves : (Provider.source factory).serves factory = true := beq_self_eq_true factory
  have hlayers : (Provider.layered (.source factory :: rest)).load host t ⟨name, factory⟩ =
      pure (some c) := by
    simp only [load, loadLayers, hserves, if_true, hsource, pure_bind]
  change (Provider.layered (.source factory :: rest)).load host t ⟨name, factory⟩ w = _ at hload
  rw [hlayers] at hload
  cases hload
  rfl

end Provider

/-! ## Lookups -/

theorem Tree.Annotates.exists_type {t : Tree} {id : UseId} {annotationType : String} {d : TypeNode}
    {method? : Option (String × List TypeName)} (h : t.Annotates id annotationType d method?) :
    ∃ i, t.type? i = some d := by
  cases h with
  | type _ _ hd => exact ⟨_, hd⟩
  | method _ _ _ hd => exact ⟨_, hd⟩

/-- What the description of an annotated type shows is what its first use with values gives. -/
theorem Tree.Built.firstWithValues_of_shownOn {t : Tree} (ht : t.Built) {id : UseId} {use : UseNode}
    {annotationType : String} {d : TypeNode} {method? : Option (String × List TypeName)}
    {record : AnnotationRecord} (huse : t.use? id = some use)
    (h : t.Annotates id annotationType d method?)
    (hshown : Metadata.ShownOn (t.describe d) annotationType record method?) :
    ∃ first, t.FirstWithValues use.site annotationType first record.values := by
  cases h with
  | type huse' hsite hd =>
    obtain rfl := Option.some.inj (huse.symm.trans huse')
    have hids : t.usesAt? use.site = some d.annotations := by
      rw [hsite, usesAt?, hd, Option.map_some]
    exact firstWithValues_of_firstRecord hids hshown
  | @method _ i m _ huse' hsite hm hd =>
    obtain rfl := Option.some.inj (huse.symm.trans huse')
    obtain ⟨m', hone, hrecord⟩ := hshown
    have hids : t.usesAt? use.site = some m.annotations := by
      rw [hsite, usesAt?, hm, Option.map_some]
    -- the method is listed by its type, so that it is the one method of its signature
    have howner : t.methodOwner? i = some m.owner := by rw [methodOwner?, hm, Option.map_some]
    obtain ⟨ids, hlist, hcount⟩ := ht.coherent.methods.listed howner
    obtain rfl : d.methods = ids := by
      rw [methodsOf?, hd, Option.map_some] at hlist
      exact Option.some.inj hlist
    have hmem : t.describeMethod m ∈ (t.describe d).methods :=
      List.mem_map_of_mem (List.mem_filterMap.2 ⟨i, List.count_pos_iff.1 (by omega), hm⟩)
    have hmatch : t.describeMethod m ∈ [m'] := by
      rw [← hone]
      exact List.mem_filter.2 ⟨hmem, by simp [describeMethod]⟩
    obtain rfl := List.mem_singleton.1 hmatch
    exact firstWithValues_of_firstRecord hids hrecord

namespace Resolver

/-- **The first use with values decides.** For a use on a type that was read from source, or on a
method of one, over a provider that starts with the source declarations of that type's factory, a
lookup that succeeds gives the value that the first use with values gives, of all uses of the
annotation type of that name on the same declaration, or else the default of the annotation type. This
is the use that was looked up if it is the first one. -/
theorem lookup_of_source_use {t : Tree} (ht : t.Built) {host : Host σ} (keyed : host.Keyed)
    {r : Resolver} {factory : Factory} {rest : List Provider}
    (hprovider : r.provider = .layered (.source factory :: rest)) {id : UseId} {use : UseNode}
    (huse : t.use? id = some use) {d : TypeNode} {method? : Option (String × List TypeName)}
    (hannotates : t.Annotates id use.annotationType.name d method?) (horigin : d.origin = .source)
    (hfactory : d.factory = factory) (hnew : r.cache.get? t.id id = none) {key : String} {v : Value}
    {w : World σ} (hv : (r.lookup host t id key .value w).1 = .ok (.value v)) :
    ∃ first values, t.FirstWithValues use.site use.annotationType.name first values ∧
      ((∃ values, t.FirstWithValues use.site use.annotationType.name id values) → first = id) ∧
      (Entries.get? values key = some v ∨ Entries.get? values key = none ∧
        ∃ a, (r.provider.metadata host).Loads t ⟨use.annotationType.name, factory⟩ a ∧
          a.LastDefault key v) := by
  subst hfactory
  have hindexes := ht.coherent.types
  obtain ⟨completed, w', hresolve, hvalue⟩ := (lookup_value_eq_ok_iff_of_new hnew).1 hv
  obtain ⟨g, hg, hname, henclosing, hmethod⟩ := hannotates.exists_target
  rw [Metadata.resolve_of_target _ _ hg] at hresolve
  obtain ⟨a, c, record, ha, hc, hshown, rfl⟩ := Metadata.returns_resolveTarget
    (Provider.keyed_metadata keyed hindexes r.provider) r.settings g w completed w' hresolve
  -- the enclosing class is the description of the type
  obtain ⟨i, hd⟩ := hannotates.exists_type
  have hsource : Provider.sourceClass? t d.factory d.name = some (t.describe d) :=
    (Provider.sourceClass?_eq_some_iff hindexes).2 ⟨i, d, hd, rfl, horigin, rfl, rfl⟩
  rw [henclosing, hprovider] at hc
  obtain rfl := Provider.loads_source_first hsource hc
  rw [hname, hmethod] at hshown
  obtain ⟨first, hfirst⟩ := ht.firstWithValues_of_shownOn huse hannotates hshown
  refine ⟨first, record.values, hfirst, fun ⟨_, h⟩ => (hfirst.unique h).1, ?_⟩
  refine (Completed.value_merge_iff.1 hvalue).2.imp_right fun ⟨hnone, hdefault⟩ => ⟨hnone, a, ?_,
    hdefault⟩
  rw [TypeReference.rebind, henclosing, hname] at ha
  exact ha

open Sample in
/-- `@Route("a") @Route("b") class Server`, with `@interface Route`. -/
def twiceRouted : Tree :=
  [.addType "Route" .annotationType .source home, .addElement ⟨0⟩ "value" none,
    .addType "Server" .ordinary .source home,
    .annotate (.type ⟨1⟩) ⟨"Route", home⟩ (some [("value", .string "a")]),
    .annotate (.type ⟨1⟩) ⟨"Route", home⟩ (some [("value", .string "b")])].foldl
      (fun t (e : Edit) => (e.apply t).1) { id := ⟨0⟩ }

open Sample in
theorem built_twiceRouted : twiceRouted.Built := by
  have hnew : ({ id := ⟨0⟩ } : Tree).Built := .new ⟨0⟩
  have hroute := hnew.edit (e := .addType "Route" .annotationType .source home) ⟨trivial, 0, rfl⟩
  have helement := hroute.edit (e := .addElement ⟨0⟩ "value" none) ⟨trivial, 0, rfl⟩
  have hserver := helement.edit (e := .addType "Server" .ordinary .source home) ⟨trivial, 1, rfl⟩
  have hfirst := hserver.edit (e := .annotate (.type ⟨1⟩) ⟨"Route", home⟩
    (some [("value", .string "a")])) ⟨trivial, 0, rfl⟩
  exact hfirst.edit (e := .annotate (.type ⟨1⟩) ⟨"Route", home⟩
    (some [("value", .string "b")])) ⟨trivial, 1, rfl⟩

open Sample in
/-- The second of two uses, which both have values, is answered with the value of the first. -/
theorem lookup_of_source_use_repeated :
    (Resolver.lookup { provider := .layered [.source home] } (Universe.host fun _ => {}) twiceRouted
        ⟨1⟩ "value" .value { host := () }).1 = .ok (.value (.string "a")) ∧
      ∃ first values, twiceRouted.FirstWithValues (.type ⟨1⟩) "Route" first values ∧
        Entries.get? values "value" = some (.string "a") := by
  have hkeyed : (Universe.host fun _ => {}).Keyed := by
    intro loader name s c h
    cases h
  have hlookup : (Resolver.lookup { provider := .layered [.source home] } (Universe.host fun _ => {})
      twiceRouted ⟨1⟩ "value" .value { host := () }).1 = .ok (.value (.string "a")) := rfl
  have huse : twiceRouted.use? ⟨1⟩ =
      some ⟨⟨"Route", home⟩, .type ⟨1⟩, some [("value", .string "b")]⟩ := rfl
  have hannotates := Tree.Annotates.type (d := ⟨"Server", .ordinary, .source, home, [], [],
    [⟨0⟩, ⟨1⟩]⟩) huse rfl rfl
  obtain ⟨first, values, hfirst, -, -⟩ := lookup_of_source_use built_twiceRouted hkeyed rfl huse
    hannotates rfl rfl rfl hlookup
  refine ⟨hlookup, first, values, hfirst, ?_⟩
  have hgiven : twiceRouted.FirstWithValues (.type ⟨1⟩) "Route" ⟨0⟩ [("value", .string "a")] :=
    ⟨[], [⟨1⟩], _, rfl, rfl, rfl, rfl, List.forall_mem_nil _⟩
  rw [(hfirst.unique hgiven).2]
  rfl

open Sample in
/-- **A use may be answered with the value of another one**, though it has a value of its own. -/
theorem lookup_not_of_own_values : ¬ ∀ (t : Tree) (id : UseId) (use : UseNode)
    (values : Entries Value) (key : String) (v : Value), t.Built → t.use? id = some use →
      use.sourceValues = some values →
      (Resolver.lookup { provider := .layered [.source home] } (Universe.host fun _ => {}) t id key
        .value { host := () }).1 = .ok (.value v) →
      Entries.get? values key = some v ∨ Entries.get? values key = none := by
  intro h
  have hlookup : (Resolver.lookup { provider := .layered [.source home] } (Universe.host fun _ => {})
      twiceRouted ⟨1⟩ "value" .value { host := () }).1 = .ok (.value (.string "a")) := rfl
  have hown := h twiceRouted ⟨1⟩ _ [("value", .string "b")] "value" (.string "a") built_twiceRouted
    rfl rfl hlookup
  simp [Entries.get?] at hown

end Resolver

end AnnotationLookup
