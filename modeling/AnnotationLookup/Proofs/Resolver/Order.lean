import AnnotationLookup.Proofs.Provider.Recording
import AnnotationLookup.Proofs.Resolver.Causes
import AnnotationLookup.Proofs.Resolver.Success
import AnnotationLookup.Proofs.Sample
import Mathlib.Data.List.Forall2

/-!
# The order of loading and of failures

A lookup of what is not cached examines the tree, then asks for classes one after another, and only
then looks into the classes. The first thing that goes wrong decides.

* `Tree.Lacks`: what may be wrong with a tree, in the order in which it is examined;
* `Exchange`, `Metadata.exchanges`: what a source is asked in a lookup, and what it answers;
* `Asks`: references are asked for in order, up to the first that does not load;
* `Metadata.Follows`: a computation that asks in this way, with one lemma for each step;
* `Metadata.exists_exchanges_of_keeps`: what is preserved while references are exchanged;
  `Metadata.resolve_of_annotates`: what a resolution comes to that is served;
* `Metadata.lookup`: lookups through any source, of which those of a resolver are a case;
* **`Metadata.lookup_order`**: the main statement.
-/

namespace AnnotationLookup

/-! ## What is asked for -/

/-- A reference that a source was asked for, and its answer. -/
structure Exchange where
  reference : TypeReference
  answer : Except LoadError (Option CompiledClass)

/-- The references are asked for in order. They all load, or the first that does not is the last one
asked for and decides the cause. -/
inductive Asks : List TypeReference → List Exchange → Except Cause (List CompiledClass) → Prop
  | done : Asks [] [] (.ok [])
  | missing (r : TypeReference) (rs : List TypeReference) :
    Asks (r :: rs) [⟨r, .ok none⟩] (.error (.classMissing r.name))
  | unbound (r : TypeReference) (rs : List TypeReference) (factory : Factory) :
    Asks (r :: rs) [⟨r, .error (.unbound factory)⟩] (.error (.unservedFactory factory))
  | broken (r : TypeReference) (rs : List TypeReference) {e : LoadError}
    (h : ∀ factory, e ≠ .unbound factory) : Asks (r :: rs) [⟨r, .error e⟩] (.error (.loading e))
  | loads (r : TypeReference) {rs : List TypeReference} (c : CompiledClass) {asked : List Exchange}
    {loaded : Except Cause (List CompiledClass)} (h : Asks rs asked loaded) :
    Asks (r :: rs) (⟨r, .ok (some c)⟩ :: asked) (loaded.map (c :: ·))

theorem Asks.map_reference {rs : List TypeReference} {asked : List Exchange}
    {loaded : Except Cause (List CompiledClass)} (h : Asks rs asked loaded) {cs : List CompiledClass}
    (hcs : loaded = .ok cs) : asked.map (·.reference) = rs := by
  induction h generalizing cs with
  | done => rfl
  | @loads r rs c asked loaded h ih =>
    cases loaded with
    | error cause => cases hcs
    | ok ds => rw [List.map_cons, ih rfl]
  | _ => cases hcs

theorem Asks.forall_answered_iff {rs : List TypeReference} {asked : List Exchange}
    {loaded : Except Cause (List CompiledClass)} (h : Asks rs asked loaded) :
    (∀ x ∈ asked, ∃ c, x.answer = .ok (some c)) ↔ ∃ cs, loaded = .ok cs := by
  induction h with
  | done => simp
  | missing r rs | unbound r rs factory | broken r rs he => simp
  | @loads r rs c asked loaded h ih =>
    have hrest : (∃ cs, loaded.map (c :: ·) = .ok cs) ↔ ∃ cs, loaded = .ok cs := by
      cases loaded <;> simp [Except.map]
    rw [hrest, ← ih, List.forall_mem_cons]
    exact and_iff_right ⟨c, rfl⟩

theorem Asks.onlyFails {rs : List TypeReference} {asked : List Exchange}
    {loaded : Except Cause (List CompiledClass)} (h : Asks rs asked loaded) :
    Cause.OnlyFails Cause.OfLoading loaded := by
  induction h with
  | done => exact Cause.onlyFails_ok []
  | missing r rs => exact Cause.onlyFails_error (.classMissing r.name)
  | unbound r rs factory => exact Cause.onlyFails_error (.unservedFactory factory)
  | @broken r rs e he => exact Cause.onlyFails_error (.loading e)
  | loads r c h ih => exact ih.map _

theorem Asks.forall₂ {P : TypeReference → CompiledClass → Prop} {rs : List TypeReference}
    {asked : List Exchange} {loaded : Except Cause (List CompiledClass)} (h : Asks rs asked loaded)
    {cs : List CompiledClass} (hcs : loaded = .ok cs)
    (hanswers : ∀ x ∈ asked, ∀ c, x.answer = .ok (some c) → P x.reference c) :
    List.Forall₂ P rs cs := by
  induction h generalizing cs with
  | done =>
    cases hcs
    exact .nil
  | missing r rs | unbound r rs factory | broken r rs he => cases hcs
  | @loads r rs c asked loaded h ih =>
    cases loaded with
    | error cause => cases hcs
    | ok ds =>
      cases hcs
      rw [List.forall_mem_cons] at hanswers
      exact .cons (hanswers.1 c rfl) (ih rfl hanswers.2)

/-- References to the element types that are not primitive. -/
def elementReferences (factory : Factory) (types : List TypeName) : List TypeReference :=
  types.filterMap fun type =>
    if type.splitArray.1.isPrimitive then none else some ⟨type.splitArray.1.text, factory⟩

/-- What a lookup asks for if all of it loads: the annotation type, the enclosing type, and the element
types of the parameters, all under the factory of the enclosing type. -/
def referencesFor (annotationType : String) (enclosing : TypeReference)
    (method? : Option (String × List TypeName)) : List TypeReference :=
  ⟨annotationType, enclosing.factory⟩ :: enclosing ::
    elementReferences enclosing.factory (method?.elim [] (·.2))

/-- The types of parameters by the classes of those elements that are not primitive. A type stays as
it is where its class is missing. -/
def compiledAs : List TypeName → List CompiledClass → List TypeName
  | [], _ => []
  | type :: types, cs =>
    if type.splitArray.1.isPrimitive then type :: compiledAs types cs
    else match cs with
      | [] => type :: compiledAs types []
      | c :: cs => c.typeName.arrayOf type.splitArray.2 :: compiledAs types cs

/-- Classes of the names that were asked for leave the types as they are. -/
theorem compiledAs_of_forall₂ {factory : Factory} {types : List TypeName} {cs : List CompiledClass}
    (h : List.Forall₂ (fun r c => c.name = r.name) (elementReferences factory types) cs) :
    compiledAs types cs = types := by
  induction types generalizing cs with
  | nil => rfl
  | cons type types ih =>
    cases hprimitive : type.splitArray.1.isPrimitive with
    | true =>
      simp only [elementReferences, List.filterMap_cons, hprimitive, if_true] at h
      simp only [compiledAs, hprimitive, if_true, ih h]
    | false =>
      simp only [elementReferences, List.filterMap_cons, hprimitive, Bool.false_eq_true,
        if_false] at h
      cases h with
      | @cons r c rs cs hname h =>
        have helement : c.typeName = type.splitArray.1 := congrArg TypeName.mk hname
        simp only [compiledAs, hprimitive, Bool.false_eq_true, if_false, helement,
          type.arrayOf_splitArray, ih h]

/-- The record of an annotation type on a class, or on the one method of it that has the signature.
The method is looked for first. -/
def CompiledClass.recordFor (c : CompiledClass) (annotationType : String)
    (elements : List CompiledClass) : Option (String × List TypeName) → Except Cause AnnotationRecord
  | none => c.recordOnClass annotationType
  | some (name, types) => do
    let m ← c.exactMethod name (compiledAs types elements)
    c.recordOnMethod m annotationType

theorem CompiledClass.onlyFails_recordFor (c : CompiledClass) (annotationType : String)
    (elements : List CompiledClass) (method? : Option (String × List TypeName)) :
    Cause.OnlyFails Cause.OfRecord (c.recordFor annotationType elements method?) := by
  cases method? with
  | none =>
    refine (c.onlyFails_recordOnClass annotationType).mono fun cause h => ?_
    exact h ▸ .recordMissing _ _
  | some method =>
    refine (c.onlyFails_exactMethod _ _).bind fun m => ?_
    refine (c.onlyFails_recordOnMethod m annotationType).mono fun cause ⟨element, h⟩ => ?_
    exact h ▸ .recordMissing _ _

/-! ## What follows -/

namespace Metadata

variable {σ α β : Type} {source : Metadata σ} {t : Tree}

/-- The source, with a record of what it is asked and answers. -/
abbrev exchanging (source : Metadata σ) : Metadata (σ × List Exchange) :=
  source.noting fun _ => Exchange.mk

/-- The references are asked for in order. If they all load, what the computation comes to is as `F`
says of the classes, and otherwise it fails for the cause that the first of them gives that does
not. -/
def Follows (rs : List TypeReference) (x : Task (σ × List Exchange) Cause α)
    (F : List CompiledClass → Except Cause α → Prop) : Prop :=
  ∀ w, ∃ asked, (Task.after x w).host.2 = w.host.2 ++ asked ∧
    ((∃ cause, Asks rs asked (.error cause) ∧ Task.outcome x w = .error cause) ∨
      ∃ cs, Asks rs asked (.ok cs) ∧ F cs (Task.outcome x w))

namespace Follows

theorem ofExcept (o : Except Cause α) :
    Follows [] (Task.ofExcept o : Task (σ × List Exchange) Cause α) fun _ o' => o' = o := by
  intro w
  refine ⟨[], ?_, .inr ⟨[], .done, ?_⟩⟩
  · cases o <;> exact (List.append_nil _).symm
  · cases o <;> rfl

theorem mono {rs : List TypeReference} {x : Task (σ × List Exchange) Cause α}
    {F G : List CompiledClass → Except Cause α → Prop} (h : Follows rs x F)
    (hFG : ∀ cs o, F cs o → G cs o) : Follows rs x G := by
  intro w
  obtain ⟨asked, hasked, hfailed | ⟨cs, hasks, hF⟩⟩ := h w
  · exact ⟨asked, hasked, .inl hfailed⟩
  · exact ⟨asked, hasked, .inr ⟨cs, hasks, hFG _ _ hF⟩⟩

variable {rs : List TypeReference} {F : List CompiledClass → Except Cause β → Prop}

theorem report_bind {level : Level} {event : Event} {k : Unit → Task (σ × List Exchange) Cause β}
    (h : Follows rs (k ()) F) : Follows rs (report level event >>= k) F :=
  fun w => h { w with log := w.log ++ [⟨level, event⟩] }

theorem reportUndeclared_bind {className : String} {keys : List String}
    {k : Unit → Task (σ × List Exchange) Cause β} (h : Follows rs (k ()) F) :
    Follows rs (reportUndeclared className keys >>= k) F := by
  induction keys with
  | nil => exact h
  | cons key keys ih =>
    simp only [reportUndeclared, bind_assoc]
    exact report_bind ih

/-- The world after an exchange. -/
def noted (w : World (σ × List Exchange)) (x : Exchange) (v : World σ) : World (σ × List Exchange) where
  host := (v.host, w.host.2 ++ [x])
  log := v.log

variable (source t) in
theorem classOf_exchanging (r : TypeReference) (w : World (σ × List Exchange)) :
    source.exchanging.classOf t r w =
      match source.load t r { host := w.host.1, log := w.log } with
      | .ok (some c) v => .ok c (noted w ⟨r, .ok (some c)⟩ v)
      | .ok none v => .error (.classMissing r.name) (noted w ⟨r, .ok none⟩ v)
      | .error e v => .error (.ofLoadError e) (noted w ⟨r, .error e⟩ v) := by
  change EStateM.bind (EStateM.adaptExcept Cause.ofLoadError (source.exchanging.load t r)) _ w = _
  simp only [EStateM.bind, EStateM.adaptExcept, noting]
  cases source.load t r { host := w.host.1, log := w.log } with
  | ok answer v => cases answer <;> rfl
  | error e v => rfl

theorem classOf_bind {r : TypeReference} {k : CompiledClass → Task (σ × List Exchange) Cause β}
    (h : ∀ c, Follows rs (k c) fun cs => F (c :: cs)) :
    Follows (r :: rs) (source.exchanging.classOf t r >>= k) F := by
  intro w
  have hclass := classOf_exchanging source t r w
  cases hanswer : source.load t r { host := w.host.1, log := w.log } with
  | ok answer v =>
    cases answer with
    | some c =>
      rw [hanswer] at hclass
      rw [Task.after, Task.outcome, Task.bind_of_ok hclass]
      obtain ⟨asked, hasked, hrest⟩ := h c (noted w ⟨r, .ok (some c)⟩ v)
      refine ⟨⟨r, .ok (some c)⟩ :: asked, ?_, ?_⟩
      · exact hasked.trans (List.append_assoc ..)
      · rcases hrest with ⟨cause, hasks, houtcome⟩ | ⟨cs, hasks, houtcome⟩
        · exact .inl ⟨cause, hasks.loads r c, houtcome⟩
        · exact .inr ⟨c :: cs, hasks.loads r c, houtcome⟩
    | none =>
      rw [hanswer] at hclass
      rw [Task.after, Task.outcome, Task.bind_of_error hclass]
      exact ⟨[⟨r, .ok none⟩], rfl, .inl ⟨_, .missing r rs, rfl⟩⟩
  | error e v =>
    rw [hanswer] at hclass
    rw [Task.after, Task.outcome, Task.bind_of_error hclass]
    refine ⟨[⟨r, .error e⟩], rfl, .inl ⟨.ofLoadError e, ?_, rfl⟩⟩
    cases e with
    | unbound factory => exact .unbound r rs factory
    | _ => exact .broken r rs fun _ h => by cases h

theorem compiledTypes_bind {factory : Factory} {types : List TypeName}
    {k : List TypeName → Task (σ × List Exchange) Cause β}
    {G : List TypeName → Except Cause β → Prop}
    (h : ∀ compiled, Follows [] (k compiled) fun _ => G compiled) :
    Follows (elementReferences factory types) (source.exchanging.compiledTypes t factory types >>= k)
      fun cs => G (compiledAs types cs) := by
  induction types generalizing k G with
  | nil => exact h []
  | cons type types ih =>
    have hrest (compiled : TypeName) := ih (k := fun rest => k (compiled :: rest))
      (G := fun rest => G (compiled :: rest)) fun rest => h (compiled :: rest)
    simp only [compiledTypes, bind_assoc, pure_bind]
    cases hprimitive : type.splitArray.1.isPrimitive with
    | true =>
      simp only [compiledType, hprimitive, if_true, pure_bind, type.arrayOf_splitArray,
        elementReferences, List.filterMap_cons, compiledAs]
      exact hrest type
    | false =>
      simp only [compiledType, hprimitive, Bool.false_eq_true, if_false, bind_assoc, pure_bind,
        elementReferences, List.filterMap_cons, compiledAs]
      exact classOf_bind fun c => hrest (c.typeName.arrayOf type.splitArray.2)

/-- Once the record is known, nothing is left that could fail. -/
theorem merge_of_record (a : CompiledClass) (o : Except Cause AnnotationRecord) :
    Follows [] (Task.ofExcept o >>= fun record =>
        (materialize a record : Task (σ × List Exchange) Cause Completed)) fun _ o' => o' = o.map (Completed.merge a) := by
  cases o with
  | ok record => exact reportUndeclared_bind (ofExcept (.ok (Completed.merge a record)))
  | error cause => exact ofExcept (.error cause)

end Follows

theorem permit_bind {settings : Settings} {annotationType : TypeReference} {factory : Factory}
    {rs : List TypeReference} {k : Unit → Task (σ × List Exchange) Cause β}
    {F : List CompiledClass → Except Cause β → Prop} (hserves : source.serves factory = true)
    (h : Follows rs (k ()) F) :
    Follows rs (source.exchanging.permit settings annotationType factory >>= k) F := by
  have hserves' : source.exchanging.serves factory = true := hserves
  unfold permit
  rw [if_pos hserves']
  split
  · exact h
  · exact .report_bind h

variable (t) in
/-- **A resolution asks for its references in order**, and then looks for the record. -/
theorem resolveTarget_follows (settings : Settings) {g : Target}
    (hserves : source.serves g.enclosing.factory = true) :
    Follows (referencesFor g.annotationType.name g.enclosing g.method?)
      (source.exchanging.resolveTarget t settings g) fun cs o => ∃ a c es, cs = a :: c :: es ∧
        o = (c.recordFor g.annotationType.name es g.method?).map (Completed.merge a) := by
  unfold resolveTarget recordOf
  simp only [bind_assoc]
  refine permit_bind hserves (.classOf_bind fun a => .report_bind (.classOf_bind fun c => ?_))
  cases g.method? with
  | none => exact (Follows.merge_of_record a _).mono fun cs o ho => ⟨a, c, cs, rfl, ho⟩
  | some method =>
    obtain ⟨name, types⟩ := method
    simp only [Task.ofExcept_bind, bind_assoc]
    exact (Follows.compiledTypes_bind fun compiled => Follows.merge_of_record a _).mono
      fun cs o ho => ⟨a, c, cs, rfl, ho⟩

end Metadata

/-! ## What a tree lacks -/

/-- Why the annotation of a use cannot be resolved, for all that its tree tells: the use is not there,
or it is applied to something whose annotations are not resolved, or its method, or its type, is not
there. -/
inductive Tree.Lacks (t : Tree) (id : UseId) : Cause → Prop
  | use (huse : t.use? id = none) : Lacks t id (.dangling (.use id))
  | field {use : UseNode} {i : FieldId} (huse : t.use? id = some use) (hsite : use.site = .field i) :
    Lacks t id (.unsupportedSite "field")
  | parameter {use : UseNode} {i : MethodId} {position : Nat} (huse : t.use? id = some use)
    (hsite : use.site = .parameter i position) : Lacks t id (.unsupportedSite "parameter")
  | method {use : UseNode} {i : MethodId} (huse : t.use? id = some use)
    (hsite : use.site = .method i) (hm : t.method? i = none) : Lacks t id (.dangling (.method i))
  | owner {use : UseNode} {i : MethodId} {m : MethodNode} (huse : t.use? id = some use)
    (hsite : use.site = .method i) (hm : t.method? i = some m) (hd : t.type? m.owner = none) :
    Lacks t id (.dangling (.type m.owner))
  | type {use : UseNode} {i : TypeId} (huse : t.use? id = some use) (hsite : use.site = .type i)
    (hd : t.type? i = none) : Lacks t id (.dangling (.type i))

namespace Tree

variable {t : Tree} {id : UseId}

theorem Lacks.target {cause : Cause} (h : t.Lacks id cause) : t.target id = .error cause := by
  cases h with
  | use huse => simp only [Tree.target, huse]
  | field huse hsite | parameter huse hsite => simp only [Tree.target, huse, hsite]; rfl
  | method huse hsite hm => simp only [Tree.target, huse, hsite, member, hm]; rfl
  | owner huse hsite hm hd =>
    simp only [Tree.target, huse, hsite, member, hm, referenceTo?, hd, Option.map_none]; rfl
  | type huse hsite hd =>
    simp only [Tree.target, huse, hsite, member, referenceTo?, hd, Option.map_none]; rfl

theorem lacks_or_annotates (t : Tree) (id : UseId) :
    (∃ cause, t.Lacks id cause) ∨
      ∃ annotationType d method?, t.Annotates id annotationType d method? := by
  cases huse : t.use? id with
  | none => exact .inl ⟨_, .use huse⟩
  | some use =>
    cases hsite : use.site with
    | field i => exact .inl ⟨_, .field huse hsite⟩
    | parameter i position => exact .inl ⟨_, .parameter huse hsite⟩
    | type i =>
      cases hd : t.type? i with
      | none => exact .inl ⟨_, .type huse hsite hd⟩
      | some d => exact .inr ⟨_, d, _, .type huse hsite hd⟩
    | method i =>
      cases hm : t.method? i with
      | none => exact .inl ⟨_, .method huse hsite hm⟩
      | some m =>
        cases hd : t.type? m.owner with
        | none => exact .inl ⟨_, .owner huse hsite hm hd⟩
        | some d => exact .inr ⟨_, d, _, .method huse hsite hm hd⟩

end Tree

/-! ## Lookups -/

namespace Metadata

variable {σ : Type} {source : Metadata σ} {t : Tree} {settings : Settings} {cache : Cache Completed}
  {id : UseId}

/-- The answer to a query through any source, with the cache and the world afterwards. -/
def lookup (source : Metadata σ) (t : Tree) (settings : Settings) (cache : Cache Completed)
    (id : UseId) (key : String) (query : Query) (w : World σ) :
    Except Failure Reply × Cache Completed × World σ :=
  let (outcome, cache, w) := source.complete t settings cache id w
  ((outcome.bind fun a => a.reply t id key query).mapError (⟨id, key, ·⟩), cache, w)

/-- What a source is asked in a lookup, and what it answers. -/
def exchanges (source : Metadata σ) (t : Tree) (settings : Settings) (cache : Cache Completed)
    (id : UseId) (w : World σ) : List Exchange :=
  (source.exchanging.complete t settings cache id { host := (w.host, []), log := w.log }).2.2.host.2

theorem exchanges_of_new (hnew : cache.get? t.id id = none) (w : World σ) :
    source.exchanges t settings cache id w =
      (Task.after (source.exchanging.resolve t settings id)
        { host := (w.host, []), log := w.log }).host.2 := by
  rw [exchanges, (complete_of_new hnew _).2]

/-- What the loads of the factories that are served preserve holds of the record of exchanges. -/
theorem exists_exchanges_of_keeps {P : World (σ × List Exchange) → Prop}
    (say : ∀ level event, Task.Keeps P (report level event : Task (σ × List Exchange) Cause Unit))
    (load : ∀ factory name, source.serves factory = true →
      Task.Keeps P (source.exchanging.load t ⟨name, factory⟩))
    {w : World σ} (hw : P { host := (w.host, []), log := w.log }) :
    ∃ v, P v ∧ v.host.2 = source.exchanges t settings cache id w := by
  have hnothing {xs : List Exchange} (hxs : xs = []) : ∃ v, P v ∧ v.host.2 = xs := ⟨_, hw, hxs.symm⟩
  cases hcache : cache.get? t.id id with
  | some a =>
    rw [exchanges, complete_of_known hcache]
    exact hnothing rfl
  | none =>
    rw [exchanges_of_new hcache]
    cases hg : t.target id with
    | error cause =>
      rw [resolve_of_target_error _ t hg]
      exact hnothing rfl
    | ok g =>
      cases hserves : source.serves g.enclosing.factory with
      | false =>
        have hunserved : source.exchanging.serves g.enclosing.factory = false := hserves
        rw [resolve_of_target _ t hg, resolveTarget, permit, hunserved]
        exact hnothing rfl
      | true =>
        have hkeeps : Task.Keeps P (source.exchanging.resolve t settings id) :=
          resolve_keeps (Tree.enclosingFactory_of_target hg) say fun name => load _ name hserves
        exact ⟨_, hkeeps.after hw, rfl⟩

theorem lookup_of_new (hnew : cache.get? t.id id = none) (key : String) (query : Query)
    (w : World σ) :
    (source.lookup t settings cache id key query w).1 =
      ((Task.outcome (source.exchanging.resolve t settings id)
        { host := (w.host, []), log := w.log }).bind fun a => a.reply t id key query).mapError
          (⟨id, key, ·⟩) := by
  have hrecorded : Recorded w ({ host := (w.host, []), log := w.log } :
      World (σ × List Exchange)) := ⟨rfl, rfl⟩
  rw [lookup, (noting_alike (fun _ => Exchange.mk) source t settings id).outcome hrecorded]
  simp only [(complete_of_new hnew w).1]

variable (settings) in
/-- **A resolution that is served** asks for its references in order, and comes to what the classes
show. -/
theorem resolve_of_annotates (hnew : cache.get? t.id id = none) {annotationType : String}
    {d : TypeNode} {method? : Option (String × List TypeName)}
    (hannotates : t.Annotates id annotationType d method?) (hserves : source.serves d.factory = true)
    (w : World σ) :
    (∃ cause, Asks (referencesFor annotationType ⟨d.name, d.factory⟩ method?)
        (source.exchanges t settings cache id w) (.error cause) ∧
      Task.outcome (source.resolve t settings id) w = .error cause) ∨
    ∃ a c es, Asks (referencesFor annotationType ⟨d.name, d.factory⟩ method?)
        (source.exchanges t settings cache id w) (.ok (a :: c :: es)) ∧
      Task.outcome (source.resolve t settings id) w =
        (c.recordFor annotationType es method?).map (Completed.merge a) := by
  have hrecorded : Recorded w ({ host := (w.host, []), log := w.log } :
      World (σ × List Exchange)) := ⟨rfl, rfl⟩
  obtain ⟨g, hg, rfl, henclosing, rfl⟩ := hannotates.exists_target
  have hserved : source.serves g.enclosing.factory = true := by
    rw [henclosing]
    exact hserves
  rw [exchanges_of_new hnew, ← (noting_alike (fun _ => Exchange.mk) source t settings id).outcome hrecorded,
    resolve_of_target _ t hg, ← henclosing]
  obtain ⟨asked, hasked, hrest⟩ := resolveTarget_follows t settings hserved
    { host := (w.host, []), log := w.log }
  rw [hasked, List.nil_append]
  rcases hrest with ⟨cause, hasks, houtcome⟩ | ⟨cs, hasks, a, c, es, rfl, houtcome⟩
  · exact .inl ⟨cause, hasks, houtcome⟩
  · exact .inr ⟨a, c, es, hasks, houtcome⟩

/-- **The order of loading and of failures**, for a use that is not cached. Something is lacking in the
tree, or the use applies an annotation type to a declared type or to a method of one. What is lacking
is what the lookup fails for, and nothing is asked for then; nor is it if the factory of the type is
not served. Otherwise the references are asked for in order, up to the first that does not load and
decides the failure. If all of them load, the method of the exact signature is looked for in the
compiled type, then the record on it, and then the value. -/
theorem lookup_order (source : Metadata σ) (t : Tree) (settings : Settings)
    (cache : Cache Completed) (id : UseId) (key : String) (query : Query) (w : World σ)
    (hnew : cache.get? t.id id = none) :
    ((∃ cause, t.Lacks id cause) ∨
      ∃ annotationType d method?, t.Annotates id annotationType d method?) ∧
    (∀ cause, t.Lacks id cause →
      (source.lookup t settings cache id key query w).1 = .error ⟨id, key, cause⟩ ∧
        source.exchanges t settings cache id w = []) ∧
    ∀ annotationType d method?, t.Annotates id annotationType d method? →
      (source.serves d.factory = false →
        (source.lookup t settings cache id key query w).1 =
            .error ⟨id, key, .unservedFactory d.factory⟩ ∧
          source.exchanges t settings cache id w = []) ∧
      (source.serves d.factory = true →
        (∃ cause, Asks (referencesFor annotationType ⟨d.name, d.factory⟩ method?)
            (source.exchanges t settings cache id w) (.error cause) ∧
          (source.lookup t settings cache id key query w).1 = .error ⟨id, key, cause⟩) ∨
        ∃ a c es, Asks (referencesFor annotationType ⟨d.name, d.factory⟩ method?)
            (source.exchanges t settings cache id w) (.ok (a :: c :: es)) ∧
          (source.lookup t settings cache id key query w).1 =
            (((c.recordFor annotationType es method?).map (Completed.merge a)).bind
              fun completed => completed.reply t id key query).mapError (⟨id, key, ·⟩)) := by
  rw [exchanges_of_new hnew, lookup_of_new hnew]
  refine ⟨t.lacks_or_annotates id, fun cause hlacks => ?_,
    fun annotationType d method? hannotates => ?_⟩
  · rw [resolve_of_target_error _ t hlacks.target]
    exact ⟨rfl, rfl⟩
  obtain ⟨g, hg, rfl, henclosing, rfl⟩ := hannotates.exists_target
  rw [resolve_of_target _ t hg]
  have hfactory : g.enclosing.factory = d.factory := by rw [henclosing]
  constructor
  · intro hserves
    have hunserved : source.exchanging.serves g.enclosing.factory = false := by
      rw [hfactory]
      exact hserves
    rw [resolveTarget, permit, hunserved, ← hfactory]
    exact ⟨rfl, rfl⟩
  · intro hserves
    rw [← hfactory] at hserves
    rw [← henclosing]
    obtain ⟨asked, hasked, hrest⟩ := resolveTarget_follows t settings hserves
      { host := (w.host, []), log := w.log }
    rw [hasked, List.nil_append]
    rcases hrest with ⟨cause, hasks, houtcome⟩ | ⟨cs, hasks, a, c, es, rfl, houtcome⟩
    · exact .inl ⟨cause, hasks, by rw [houtcome]; rfl⟩
    · exact .inr ⟨a, c, es, hasks, by rw [houtcome]⟩

end Metadata

theorem Resolver.lookup_eq {σ : Type} (r : Resolver) (host : Host σ) (t : Tree) (id : UseId)
    (key : String) (query : Query) (w : World σ) :
    r.lookup host t id key query w =
      let (outcome, cache, w) :=
        (r.provider.metadata host).lookup t r.settings r.cache id key query w
      (outcome, { r with cache }, w) :=
  rfl

namespace Metadata

/-- The source of the sample class path. -/
def sampleSource : Metadata (List Loader) := Sample.provider.metadata Loader.host

/-- A world in which the annotation type is there and the annotated class is not. -/
def withoutServer : World (List Loader) where
  host := [{ classes := .ofList [Sample.route] }]

/-- Of three references, the second of which does not load, the first two are asked for. -/
theorem lookup_order_of_missing_class :
    Cache.get? ({} : Cache Completed) (Sample.tree Sample.abroad).id ⟨0⟩ = none ∧
    (∃ cause,
      Asks [⟨"Route", Sample.home⟩, ⟨"Server", Sample.home⟩, ⟨"Server", Sample.home⟩]
        (sampleSource.exchanges (Sample.tree Sample.abroad) {} {} ⟨0⟩ withoutServer)
        (.error cause) ∧
      (Resolver.lookup { provider := Sample.provider } Loader.host (Sample.tree Sample.abroad) ⟨0⟩
        "port" .value withoutServer).1 = .error ⟨⟨0⟩, "port", cause⟩) ∧
    (sampleSource.exchanges (Sample.tree Sample.abroad) {} {} ⟨0⟩ withoutServer).map (·.reference) =
      [⟨"Route", Sample.home⟩, ⟨"Server", Sample.home⟩] := by
  refine ⟨rfl, ?_, rfl⟩
  have hannotates : (Sample.tree Sample.abroad).Annotates ⟨0⟩ _ _ _ := .method rfl rfl rfl rfl
  have horder := ((lookup_order sampleSource (Sample.tree Sample.abroad) {} {} ⟨0⟩ "port" .value
    withoutServer rfl).2.2 _ _ _ hannotates).2 rfl
  rw [Resolver.lookup_eq]
  rcases horder with hfailed | ⟨a, c, es, hasks, -⟩
  · exact hfailed
  · exact absurd (hasks.map_reference rfl) (by decide)

end Metadata

end AnnotationLookup
