import AnnotationLookup.Proofs.Resolver.Completion
import AnnotationLookup.Proofs.Resolver.Merge
import AnnotationLookup.Proofs.TypeName

/-!
# Lookups that succeed

Over class paths held in memory, a lookup of what is not cached succeeds exactly if the declarations
and the compiled classes have a value for it.

* `Universe.host`, `Universe.Keyed`: loaders of one class path each, which know a class by its name;
* `Tree.Annotates`, `Universe.Shows`, `FirstRecord`: the annotated declaration, the records of its
  compiled form, and the one that counts;
* `Metadata.gives_compiledTypes`: the parameter types that are looked for are the declared ones;
* `Metadata.gives_resolve`: the annotations that a resolution comes to;
* **`Resolver.lookup_value_iff`**: the main statement.
-/

namespace AnnotationLookup

/-! ## Class paths held in memory -/

namespace Universe

/-- Loaders of one class path each, which have no state. -/
def host (universes : LoaderId → Universe) : Host Unit where
  load id name s := (.ok ((universes id).find? name), s)

/-- A class is found under its own name only. -/
def Keyed (u : Universe) : Prop := ∀ name c, u.find? name = some c → c.name = name

theorem Keyed.insert {u : Universe} (h : u.Keyed) (d : CompiledClass) : (u.insert d).Keyed := by
  intro name c hc
  simp only [find?, Universe.insert, Entries.get?_insert] at hc
  split at hc
  · next hd => cases hc; exact hd
  · exact h name c hc

theorem keyed_ofList (classes : List CompiledClass) : (ofList classes).Keyed := by
  have hfold (u : Universe) (hu : u.Keyed) : (classes.foldl Universe.insert u).Keyed := by
    induction classes generalizing u with
    | nil => exact hu
    | cons d classes ih => exact ih (u.insert d) (hu.insert d)
  exact hfold {} fun name c hc => by cases hc

end Universe

/-! ## Declarations and their compiled forms -/

/-- The use applies an annotation type to a declared type, or to a method of one with a name and
parameter types. -/
inductive Tree.Annotates (t : Tree) (id : UseId) :
    String → TypeNode → Option (String × List TypeName) → Prop
  | type {use : UseNode} {i : TypeId} {d : TypeNode} (huse : t.use? id = some use)
    (hsite : use.site = .type i) (hd : t.type? i = some d) :
    Annotates t id use.annotationType.name d none
  | method {use : UseNode} {i : MethodId} {m : MethodNode} {d : TypeNode}
    (huse : t.use? id = some use) (hsite : use.site = .method i) (hm : t.method? i = some m)
    (hd : t.type? m.owner = some d) :
    Annotates t id use.annotationType.name d (some (m.name, m.parameters.map (·.type.typeName)))

/-- The class path knows the element types of all types that are not primitive. -/
def Universe.KnowsElements (u : Universe) (types : List TypeName) : Prop :=
  ∀ type ∈ types, ∀ element : TypeName, element.IsElementOf type → element.isPrimitive = false →
    ∃ c, u.find? element.text = some c

/-- The element types of all types that are not primitive are found. -/
def ElementsFound (Found : String → CompiledClass → Prop) (types : List TypeName) : Prop :=
  ∀ type ∈ types, ∀ element : TypeName, element.IsElementOf type → element.isPrimitive = false →
    ∃ c, Found element.text c

/-- The records on a class of the class path, or on its only method that has the given name and
parameter types. -/
inductive Universe.Shows (u : Universe) (c : CompiledClass) :
    Option (String × List TypeName) → List AnnotationRecord → Prop
  | type : Shows u c none c.annotations
  | method {name : String} {types : List TypeName} {m : CompiledMethod}
    (hknows : u.KnowsElements types)
    (hone : c.methods.filter (fun m => m.name = name ∧ m.parameterTypes = types) = [m]) :
    Shows u c (some (name, types)) m.annotations

/-- The first of the records that are of the annotation type. -/
def FirstRecord (records : List AnnotationRecord) (annotationType : String)
    (record : AnnotationRecord) : Prop :=
  ∃ before after, records = before ++ record :: after ∧ record.typeName = annotationType ∧
    ∀ r ∈ before, r.typeName ≠ annotationType

theorem recordOf?_eq_some_iff {records : List AnnotationRecord} {annotationType : String}
    {record : AnnotationRecord} :
    recordOf? records annotationType = some record ↔ FirstRecord records annotationType record := by
  rw [recordOf?, List.find?_eq_some_iff_append]
  simp only [FirstRecord, beq_iff_eq, Bool.not_eq_true', beq_eq_false_iff_ne, ne_eq]
  constructor
  · rintro ⟨hname, before, after, hrecords, hbefore⟩
    exact ⟨before, after, hrecords, hname, hbefore⟩
  · rintro ⟨before, after, hrecords, hname, hbefore⟩
    exact ⟨hname, before, after, hrecords, hbefore⟩

theorem CompiledClass.recordOnClass_eq_ok_iff {c : CompiledClass} {annotationType : String}
    {record : AnnotationRecord} : c.recordOnClass annotationType = .ok record ↔
      FirstRecord c.annotations annotationType record := by
  rw [← recordOf?_eq_some_iff, recordOnClass, CompiledClass.recordOf?]
  cases AnnotationLookup.recordOf? c.annotations annotationType <;> simp

theorem CompiledClass.recordOnMethod_eq_ok_iff {c : CompiledClass} {m : CompiledMethod}
    {annotationType : String} {record : AnnotationRecord} :
    c.recordOnMethod m annotationType = .ok record ↔
      FirstRecord m.annotations annotationType record := by
  rw [← recordOf?_eq_some_iff, recordOnMethod, CompiledMethod.recordOf?]
  cases AnnotationLookup.recordOf? m.annotations annotationType <;> simp

theorem CompiledClass.exactMethod_eq_ok_iff {c : CompiledClass} {name : String}
    {types : List TypeName} {m : CompiledMethod} : c.exactMethod name types = .ok m ↔
      c.methods.filter (fun m => m.name = name ∧ m.parameterTypes = types) = [m] := by
  have hmatching : c.methodsMatching name types =
      c.methods.filter (fun m => m.name = name ∧ m.parameterTypes = types) := by
    refine List.filter_congr fun m _ => ?_
    rw [Bool.eq_iff_iff]
    simp only [CompiledMethod.matchesSignature, Bool.and_eq_true, beq_iff_eq, decide_eq_true_eq]
  rw [← hmatching, exactMethod]
  split
  · next m' hm => rw [hm]; simp
  · next ms hms =>
    refine iff_of_false (fun h => by cases h) fun h => hms m h

theorem Tree.exists_annotates {t : Tree} {id : UseId} {g : Target} (hg : t.target id = .ok g) :
    ∃ d, t.Annotates id g.annotationType.name d g.method? ∧ g.enclosing = ⟨d.name, d.factory⟩ := by
  obtain ⟨use, member, huse, hmember, rfl⟩ := target_eq_ok_iff.1 hg
  cases hsite : use.site with
  | type i =>
    rw [hsite] at hmember
    simp only [Tree.member] at hmember
    cases hr : t.referenceTo? i with
    | none => rw [hr] at hmember; cases hmember
    | some r =>
      rw [hr] at hmember
      cases hmember
      obtain ⟨d, hd, rfl⟩ := Option.map_eq_some_iff.1 hr
      exact ⟨d, .type huse hsite hd, rfl⟩
  | method i =>
    rw [hsite] at hmember
    simp only [Tree.member] at hmember
    cases hm : t.method? i with
    | none => rw [hm] at hmember; cases hmember
    | some m =>
      rw [hm] at hmember
      cases hr : t.referenceTo? m.owner with
      | none => simp only [hr] at hmember; cases hmember
      | some r =>
        simp only [hr] at hmember
        cases hmember
        obtain ⟨d, hd, rfl⟩ := Option.map_eq_some_iff.1 hr
        exact ⟨d, .method huse hsite hm hd, rfl⟩
  | field i => rw [hsite] at hmember; cases hmember
  | parameter i position => rw [hsite] at hmember; cases hmember

theorem Tree.Annotates.exists_target {t : Tree} {id : UseId} {annotationType : String}
    {d : TypeNode} {method? : Option (String × List TypeName)}
    (h : t.Annotates id annotationType d method?) :
    ∃ g, t.target id = .ok g ∧ g.annotationType.name = annotationType ∧
      g.enclosing = ⟨d.name, d.factory⟩ ∧ g.method? = method? := by
  have hreference {i : TypeId} (hd : t.type? i = some d) :
      t.referenceTo? i = some ⟨d.name, d.factory⟩ := by rw [referenceTo?, hd, Option.map_some]
  cases h with
  | @type use i _ huse hsite hd =>
    refine ⟨_, target_eq_ok_iff.2 ⟨use, .type ⟨d.name, d.factory⟩, huse, ?_, rfl⟩, rfl, rfl, rfl⟩
    rw [hsite]
    simp only [member, hreference hd]
  | @method use i m _ huse hsite hm hd =>
    refine ⟨_, target_eq_ok_iff.2 ⟨use, .method ⟨d.name, d.factory⟩ m, huse, ?_, rfl⟩, rfl, rfl,
      rfl⟩
    rw [hsite]
    simp only [member, hm, hreference hd]

/-! ## What a resolution comes to -/

namespace Metadata

variable {bindings : List (Factory × LoaderId)} {universes : LoaderId → Universe} {t : Tree}
  {factory : Factory} {loader : LoaderId}

theorem gives_classOf (hloader : bindings.lookup factory = some loader) (name : String) :
    Task.Gives (((Provider.classPath bindings).metadata (Universe.host universes)).classOf t
      ⟨name, factory⟩) fun c => (universes loader).find? name = some c := by
  have hload : Task.Gives (((Provider.classPath bindings).metadata (Universe.host universes)).load t
      ⟨name, factory⟩) fun c? => c? = (universes loader).find? name := by
    simp only [Provider.metadata, Provider.load, hloader]
    have hask : Task.Gives (Provider.ask (Universe.host universes) loader name)
        fun c? => c? = (universes loader).find? name := by
      refine fun w c? => ⟨?_, fun h => ⟨w, by rw [h]; rfl⟩⟩
      rintro ⟨_, ⟨⟩⟩
      rfl
    refine ((Task.Gives.report .trace (.loading ⟨name, factory⟩)).bind fun _ _ => hask).congr
      fun c? => ?_
    simp
  refine (Task.Gives.bind (Q := fun c? c => c? = some c) (hload.adaptExcept Cause.ofLoadError)
    fun c? _ => ?_).congr fun c => by simp
  cases c? with
  | none => exact (Task.Gives.throw _).congr fun c => by simp
  | some c' => exact (Task.Gives.pure c').congr fun c => by simp [eq_comm]

section Elements

variable {σ : Type} {source : Metadata σ} {Found : String → CompiledClass → Prop}

/-- Where a class is found under its own name only, a type is compiled to itself. -/
theorem gives_compiledType
    (hclass : ∀ name, Task.Gives (source.classOf t ⟨name, factory⟩) (Found name))
    (hkeyed : ∀ name c, Found name c → c.name = name) (type : TypeName) :
    Task.Gives (source.compiledType t factory type) fun compiled =>
      compiled = type ∧ ElementsFound Found [type] := by
  have hfound : ElementsFound Found [type] ↔ (type.splitArray.1.isPrimitive = false →
      ∃ c, Found type.splitArray.1.text c) := by
    simp only [ElementsFound, List.mem_singleton, forall_eq, TypeName.isElementOf_iff]
  unfold compiledType
  by_cases hprimitive : type.splitArray.1.isPrimitive = true
  · simp only [hprimitive, if_true, type.arrayOf_splitArray]
    refine (Task.Gives.pure type).congr fun compiled => ?_
    simp [hfound, hprimitive]
  · simp only [hprimitive]
    refine ((hclass _).bind fun c _ => Task.Gives.pure _).congr fun compiled => ?_
    rw [hfound]
    constructor
    · rintro ⟨c, hc, rfl⟩
      have hname : c.typeName = type.splitArray.1 := congrArg TypeName.mk (hkeyed _ c hc)
      exact ⟨by rw [hname, type.arrayOf_splitArray], fun _ => ⟨c, hc⟩⟩
    · rintro ⟨rfl, hc⟩
      obtain ⟨c, hc⟩ := hc (Bool.not_eq_true _ ▸ hprimitive)
      have hname : c.typeName = compiled.splitArray.1 := congrArg TypeName.mk (hkeyed _ c hc)
      exact ⟨c, hc, by rw [hname, compiled.arrayOf_splitArray]⟩

theorem gives_compiledTypes
    (hclass : ∀ name, Task.Gives (source.classOf t ⟨name, factory⟩) (Found name))
    (hkeyed : ∀ name c, Found name c → c.name = name) (types : List TypeName) :
    Task.Gives (source.compiledTypes t factory types) fun compiled =>
      compiled = types ∧ ElementsFound Found types := by
  induction types with
  | nil =>
    refine (Task.Gives.pure []).congr fun compiled => ?_
    simp [ElementsFound]
  | cons type types ih =>
    refine ((gives_compiledType hclass hkeyed type).bind fun c _ => ih.bind fun cs _ =>
      Task.Gives.pure (c :: cs)).congr fun compiled => ?_
    simp only [ElementsFound, List.mem_singleton, forall_eq, List.forall_mem_cons]
    constructor
    · rintro ⟨c, ⟨rfl, htype⟩, cs, ⟨rfl, htypes⟩, rfl⟩
      exact ⟨rfl, htype, htypes⟩
    · rintro ⟨rfl, htype, htypes⟩
      exact ⟨type, ⟨rfl, htype⟩, types, ⟨rfl, htypes⟩, rfl⟩

end Elements

theorem gives_recordOf {g : Target} (hloader : bindings.lookup g.enclosing.factory = some loader)
    (hkeyed : (universes loader).Keyed) (annotationType : String) :
    Task.Gives (((Provider.classPath bindings).metadata (Universe.host universes)).recordOf t
      annotationType g) fun record => ∃ c records,
        (universes loader).find? g.enclosing.name = some c ∧
        (universes loader).Shows c g.method? records ∧
        FirstRecord records annotationType record := by
  unfold recordOf
  cases hmethod : g.method? with
  | none =>
    refine ((gives_classOf hloader g.enclosing.name).bind fun c _ => Task.Gives.ofExcept _).congr
      fun record => ?_
    simp only [CompiledClass.recordOnClass_eq_ok_iff]
    constructor
    · rintro ⟨c, hc, hrecord⟩
      exact ⟨c, _, hc, .type, hrecord⟩
    · rintro ⟨c, _, hc, ⟨⟩, hrecord⟩
      exact ⟨c, hc, hrecord⟩
  | some method =>
    obtain ⟨name, types⟩ := method
    refine ((gives_classOf hloader g.enclosing.name).bind fun c _ =>
      (gives_compiledTypes (gives_classOf hloader) hkeyed types).bind fun compiled _ =>
        (Task.Gives.ofExcept _).bind fun m _ => Task.Gives.ofExcept _).congr fun record => ?_
    simp only [CompiledClass.exactMethod_eq_ok_iff, CompiledClass.recordOnMethod_eq_ok_iff]
    constructor
    · rintro ⟨c, hc, _, ⟨rfl, hknows⟩, m, hone, hrecord⟩
      exact ⟨c, _, hc, .method hknows hone, hrecord⟩
    · rintro ⟨c, _, hc, hshows, hrecord⟩
      cases hshows with
      | method hknows hone => exact ⟨c, hc, types, ⟨rfl, hknows⟩, _, hone, hrecord⟩

variable (bindings universes factory) in
theorem gives_permit (settings : Settings) (annotationType : TypeReference) :
    Task.Gives (((Provider.classPath bindings).metadata (Universe.host universes)).permit settings
      annotationType factory) fun _ => ∃ loader, bindings.lookup factory = some loader := by
  have hserves : ((Provider.classPath bindings).metadata (Universe.host universes)).serves factory =
      (bindings.lookup factory).isSome := rfl
  simp only [permit, hserves, ← Option.isSome_iff_exists]
  split
  · next h =>
    simp only [h]
    split
    · exact (Task.Gives.pure ()).congr fun _ => by simp
    · exact (Task.Gives.report _ _).congr fun _ => by simp
  · next h => exact (Task.Gives.throw _).congr fun _ => by simp [h]

theorem gives_reportUndeclared {σ : Type} (className : String) (keys : List String) :
    Task.Gives (reportUndeclared className keys : Task σ Cause Unit) fun _ => True := by
  induction keys with
  | nil => exact (Task.Gives.pure ()).congr fun _ => by simp
  | cons key keys ih =>
    refine ((Task.Gives.report .warn (.undeclared key className)).bind fun _ _ => ih).congr
      fun _ => ?_
    simp

theorem gives_materialize {σ : Type} (a : CompiledClass) (record : AnnotationRecord) :
    Task.Gives (materialize a record : Task σ Cause Completed) fun completed =>
      completed = .merge a record := by
  refine ((gives_reportUndeclared a.name (Completed.undeclared a record)).bind fun _ _ =>
    Task.Gives.pure (Completed.merge a record)).congr fun completed => ?_
  simp

theorem gives_resolveTarget (keyed : ∀ loader, (universes loader).Keyed) (settings : Settings)
    (g : Target) :
    Task.Gives (((Provider.classPath bindings).metadata (Universe.host universes)).resolveTarget t
      settings g) fun completed => ∃ loader a c records record,
        bindings.lookup g.enclosing.factory = some loader ∧
        (universes loader).find? g.annotationType.name = some a ∧
        (universes loader).find? g.enclosing.name = some c ∧
        (universes loader).Shows c g.method? records ∧
        FirstRecord records g.annotationType.name record ∧ completed = .merge a record := by
  have hpermit := gives_permit bindings universes g.enclosing.factory settings g.annotationType
  unfold resolveTarget
  cases hloader : bindings.lookup g.enclosing.factory with
  | none =>
    refine (hpermit.bind (Q := fun _ _ => False) fun _ h => ?_).congr fun completed => ?_
    · rw [hloader] at h
      exact absurd h.choose_spec (Option.some_ne_none _).symm
    · simp
  | some loader =>
    refine (hpermit.bind fun _ _ =>
      (gives_classOf hloader g.annotationType.name).bind fun a _ =>
        (Task.Gives.report .debug (.resolving g.annotationType.name g.siteKind)).bind fun _ _ =>
          (gives_recordOf hloader (keyed loader) g.annotationType.name).bind fun record _ =>
            gives_materialize a record).congr fun completed => ?_
    constructor
    · rintro ⟨_, -, a, ha, _, -, record, ⟨c, records, hc, hshows, hrecord⟩, rfl⟩
      exact ⟨loader, a, c, records, record, rfl, ha, hc, hshows, hrecord, rfl⟩
    · rintro ⟨_, a, c, records, record, ⟨⟩, ha, hc, hshows, hrecord, rfl⟩
      exact ⟨(), ⟨loader, hloader⟩, a, ha, (), trivial, record, ⟨c, records, hc, hshows, hrecord⟩,
        rfl⟩

variable (bindings t) in
/-- **The annotations that a resolution comes to.** -/
theorem gives_resolve (keyed : ∀ loader, (universes loader).Keyed) (settings : Settings)
    (id : UseId) :
    Task.Gives (((Provider.classPath bindings).metadata (Universe.host universes)).resolve t settings
      id) fun completed => ∃ annotationType d method? loader a c records record,
        t.Annotates id annotationType d method? ∧ bindings.lookup d.factory = some loader ∧
        (universes loader).find? annotationType = some a ∧
        (universes loader).find? d.name = some c ∧ (universes loader).Shows c method? records ∧
        FirstRecord records annotationType record ∧ completed = .merge a record := by
  cases hg : t.target id with
  | error cause =>
    rw [resolve_of_target_error _ _ hg]
    refine (Task.Gives.throw cause).congr fun completed => iff_of_false not_false ?_
    rintro ⟨annotationType, d, method?, loader, a, c, records, record, hannotates, -⟩
    obtain ⟨g, hg', -⟩ := hannotates.exists_target
    rw [hg] at hg'
    cases hg'
  | ok g =>
    rw [resolve_of_target _ _ hg]
    refine (gives_resolveTarget keyed settings g).congr fun completed => ?_
    constructor
    · rintro ⟨loader, a, c, records, record, hloader, ha, hc, hrest⟩
      obtain ⟨d, hannotates, henclosing⟩ := Tree.exists_annotates hg
      rw [henclosing] at hloader hc
      exact ⟨_, d, _, loader, a, c, records, record, hannotates, hloader, ha, hc, hrest⟩
    · rintro ⟨_, d, _, loader, a, c, records, record, hannotates, hloader, ha, hc, hrest⟩
      obtain ⟨g', hg', rfl, henclosing, rfl⟩ := hannotates.exists_target
      obtain rfl : g = g' := Except.ok.inj (hg.symm.trans hg')
      refine ⟨loader, a, c, records, record, ?_, ha, ?_, hrest⟩
      · rw [henclosing]
        exact hloader
      · rw [henclosing]
        exact hc

end Metadata

/-! ## Lookups -/

namespace Resolver

theorem lookup_value_eq_ok_iff_of_new {σ : Type} {r : Resolver} {host : Host σ} {t : Tree}
    {id : UseId} {key : String} {w : World σ} {v : Value} (hnew : r.cache.get? t.id id = none) :
    (r.lookup host t id key .value w).1 = .ok (.value v) ↔
      ∃ a w', (r.provider.metadata host).resolve t r.settings id w = .ok a w' ∧
        a.value key = .ok v := by
  unfold Resolver.lookup Resolver.complete
  cases hr : (r.provider.metadata host).resolve t r.settings id w with
  | error cause w' =>
    simp only [Metadata.complete_of_error hnew hr]
    refine iff_of_false (fun h => by cases h) ?_
    rintro ⟨_, _, h, _⟩
    cases h
  | ok a w' =>
    simp only [Metadata.complete_of_ok hnew hr, Except.bind, Completed.reply]
    cases ha : a.value key with
    | error cause =>
      refine iff_of_false (fun h => by cases h) ?_
      rintro ⟨_, _, ⟨⟩, h⟩
      rw [ha] at h
      cases h
    | ok x =>
      constructor
      · intro h
        cases h
        exact ⟨a, w', rfl, ha⟩
      · rintro ⟨_, _, ⟨⟩, h⟩
        rw [ha] at h
        cases h
        rfl

theorem lookup_value_eq_ok_iff {σ : Type} {p : Provider} {host : Host σ} {settings : Settings}
    {t : Tree} {id : UseId} {key : String} {w : World σ} {v : Value} :
    (Resolver.lookup { provider := p, settings := settings } host t id key .value w).1 =
        .ok (.value v) ↔
      ∃ a w', (p.metadata host).resolve t settings id w = .ok a w' ∧ a.value key = .ok v :=
  lookup_value_eq_ok_iff_of_new rfl

/-- **When a lookup succeeds.** The use applies an annotation type to a declared type or to a method
of one. The class path of that type's factory knows the annotation type and the type, and in the
compiled type there is a first record of the annotation type on the type itself or on the one method
of the exact signature, the element types of which are known. The annotation type has an element of
the key, and the value is the one in the record, or else the last default of such an element. -/
theorem lookup_value_iff (classes : LoaderId → List CompiledClass)
    (bindings : List (Factory × LoaderId)) (settings : Settings) (t : Tree) (id : UseId)
    (key : String) (w : World Unit) (v : Value) :
    (Resolver.lookup { provider := .classPath bindings, settings := settings }
        (Universe.host fun loader => .ofList (classes loader)) t id key .value w).1 =
        .ok (.value v) ↔
      ∃ annotationType d method? loader a c records record,
        t.Annotates id annotationType d method? ∧ bindings.lookup d.factory = some loader ∧
        (Universe.ofList (classes loader)).find? annotationType = some a ∧
        (Universe.ofList (classes loader)).find? d.name = some c ∧
        (Universe.ofList (classes loader)).Shows c method? records ∧
        FirstRecord records annotationType record ∧
        a.Declares key ∧ (Entries.get? record.values key = some v ∨
          Entries.get? record.values key = none ∧ a.LastDefault key v) := by
  have hgives := Metadata.gives_resolve bindings t
    (fun loader => Universe.keyed_ofList (classes loader)) settings id
  rw [lookup_value_eq_ok_iff]
  constructor
  · rintro ⟨completed, w', hr, hv⟩
    obtain ⟨annotationType, d, method?, loader, a, c, records, record, hannotates, hloader, ha, hc,
      hshows, hrecord, rfl⟩ := (hgives w completed).1 ⟨w', hr⟩
    exact ⟨annotationType, d, method?, loader, a, c, records, record, hannotates, hloader, ha, hc,
      hshows, hrecord, Completed.value_merge_iff.1 hv⟩
  · rintro ⟨annotationType, d, method?, loader, a, c, records, record, hannotates, hloader, ha, hc,
      hshows, hrecord, hv⟩
    obtain ⟨w', hr⟩ := (hgives w (.merge a record)).2 ⟨annotationType, d, method?, loader, a, c,
      records, record, hannotates, hloader, ha, hc, hshows, hrecord, rfl⟩
    exact ⟨_, w', hr, Completed.value_merge_iff.2 hv⟩

end Resolver

end AnnotationLookup
