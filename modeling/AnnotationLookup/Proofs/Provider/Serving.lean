import AnnotationLookup.Proofs.Resolver.Order

/-!
# Serving and loading agree

Whether a provider serves a factory, and whether loading a reference to that factory fails for want of
a class path, are decided apart by each sort of provider. They agree in every nest of providers, if no
loader fails in this way itself.

* `Host.Bound`: loaders that never answer that a factory has no class path;
* `Provider.load_of_not_serves`: a provider that does not serve a factory asks no loader for it;
* `Provider.raises_load`: a provider that does serve it never fails for want of a class path;
* `Provider.answer_of_mem_exchanges`: nor is anything answered like this while a lookup is made;
* `Resolver.lookup_unserved_iff`: the lookups that fail because a factory is not served;
* **`Provider.serves_agrees_with_load`**: the main statement.
-/

namespace AnnotationLookup

variable {σ : Type}

/-- In the states of `I`, which loading does not leave, no loader answers that a factory has no class
path. -/
structure Host.Bound (host : Host σ) (I : σ → Prop) : Prop where
  answers : ∀ loader name s, I s → ∀ factory,
    (host.load loader name s).1 ≠ .error (.unbound factory)
  keeps : ∀ loader name s, I s → I (host.load loader name s).2

/-- Something other than the want of a class path. -/
def LoadError.IsBound (e : LoadError) : Prop := ∀ factory, e ≠ .unbound factory

/-! ## Loads -/

namespace Provider

variable {host : Host σ} {I : σ → Prop} {t : Tree} {r : TypeReference}

theorem loadLayers_of_not_anyServes {layers : List Provider}
    (h : anyServes layers r.factory = false) (asked : Bool) :
    loadLayers host t layers asked r =
      if asked then pure none else throw (.unbound r.factory) := by
  induction layers with
  | nil => rfl
  | cons p layers ih =>
    obtain ⟨hp, hlayers⟩ : p.serves r.factory = false ∧ anyServes layers r.factory = false := by
      simpa only [anyServes, Bool.or_eq_false_iff] using h
    simp only [loadLayers, hp, Bool.false_eq_true, if_false]
    exact ih hlayers

theorem load_of_not_serves {p : Provider} (h : p.serves r.factory = false) :
    p.load host t r = throw (.unbound r.factory) := by
  cases p with
  | classPath bindings =>
    have hnone : bindings.lookup r.factory = none := by
      simpa only [serves, Option.isSome_eq_false_iff, Option.isNone_iff_eq_none] using h
    simp only [load, hnone]
  | source own =>
    have hne : r.factory ≠ own := by simpa only [serves, beq_eq_false_iff_ne] using h
    simp only [load, if_neg hne]
  | layered layers => exact loadLayers_of_not_anyServes h false

theorem raises_ask (bound : host.Bound I) (loader : LoaderId) (name : String) :
    Task.Raises (fun w => I w.host) LoadError.IsBound (ask host loader name) := by
  intro w hw
  have hanswer := bound.answers loader name w.host hw
  have hkeeps := bound.keeps loader name w.host hw
  unfold Task.after Task.outcome ask
  generalize host.load loader name w.host = p at hanswer hkeeps
  obtain ⟨answer, s⟩ := p
  cases answer with
  | ok c => exact ⟨hkeeps, fun _ h => by cases h⟩
  | error e =>
    refine ⟨hkeeps, fun e' h factory heq => ?_⟩
    obtain rfl : e = e' := Except.error.inj h
    exact hanswer factory (congrArg Except.error heq)

mutual

theorem raises_load (bound : host.Bound I) (p : Provider) (h : p.serves r.factory = true) :
    Task.Raises (fun w => I w.host) LoadError.IsBound (p.load host t r) := by
  match p with
  | .classPath bindings =>
    obtain ⟨loader, hloader⟩ : ∃ loader, bindings.lookup r.factory = some loader :=
      Option.isSome_iff_exists.1 h
    simp only [load, hloader]
    exact .bind (fun w hw => ⟨hw, fun _ h => by cases h⟩) fun _ => raises_ask bound loader r.name
  | .source own =>
    have heq : r.factory = own := eq_of_beq h
    simp only [load, if_pos heq]
    exact .pure _
  | .layered layers => exact raises_loadLayers bound layers false (.inr h)
termination_by structural p

theorem raises_loadLayers (bound : host.Bound I) (layers : List Provider) (asked : Bool)
    (h : asked = true ∨ anyServes layers r.factory = true) :
    Task.Raises (fun w => I w.host) LoadError.IsBound (loadLayers host t layers asked r) := by
  match layers with
  | [] =>
    obtain rfl : asked = true := h.resolve_right Bool.false_ne_true
    exact .pure none
  | p :: layers =>
    simp only [loadLayers]
    split
    · next hp =>
      refine (raises_load bound p hp).bind fun answer => ?_
      cases answer with
      | some c => exact .pure (some c)
      | none => exact raises_loadLayers bound layers true (.inl rfl)
    · next hp =>
      refine raises_loadLayers bound layers asked (h.imp_right fun h => ?_)
      simpa only [anyServes, Bool.eq_false_iff.2 hp, Bool.false_or] using h
termination_by structural layers

end

/-- A load fails for want of a class path exactly if the factory is not served. -/
theorem outcome_load_eq_unbound_iff (bound : host.Bound I) (p : Provider) {w : World σ}
    (hw : I w.host) (factory : Factory) :
    Task.outcome (p.load host t r) w = .error (.unbound factory) ↔
      p.serves r.factory = false ∧ factory = r.factory := by
  cases hserves : p.serves r.factory with
  | true =>
    refine iff_of_false (fun h => ?_) fun h => Bool.noConfusion h.1
    exact (raises_load bound p hserves w hw).2 _ h factory rfl
  | false =>
    rw [load_of_not_serves hserves]
    exact ⟨fun h => ⟨rfl, by cases h; rfl⟩, fun h => by rw [h.2]; rfl⟩

/-! ## Lookups -/

/-- Of a world with a record of exchanges: no reference in it was answered with the want of a class
path. -/
def Answered (I : σ → Prop) (w : World (σ × List Exchange)) : Prop :=
  I w.host.1 ∧ ∀ x ∈ w.host.2, ∀ factory, x.answer ≠ .error (.unbound factory)

theorem keeps_exchanging_load (bound : host.Bound I) (p : Provider)
    (h : p.serves r.factory = true) :
    Task.Keeps (Answered I) ((p.metadata host).exchanging.load t r) := by
  refine Metadata.keeps_noting_load (P := fun w => I w.host) fun w hw => ?_
  obtain ⟨hstate, herror⟩ := raises_load (t := t) bound p h w hw
  exact ⟨hstate, fun factory hanswer => herror _ hanswer factory rfl⟩

/-- While a lookup is made, no reference is answered with the want of a class path. -/
theorem answer_of_mem_exchanges (bound : host.Bound I) (p : Provider) (t : Tree)
    (settings : Settings) (cache : Cache Completed) (id : UseId) {w : World σ} (hw : I w.host) :
    ∀ x ∈ (p.metadata host).exchanges t settings cache id w, ∀ factory,
      x.answer ≠ .error (.unbound factory) := by
  have hsay (level : Level) (event : Event) :
      Task.Keeps (Answered I) (report level event : Task (σ × List Exchange) Cause Unit) :=
    Task.keeps_of_after fun _ hw => hw
  obtain ⟨v, ⟨-, hanswers⟩, hv⟩ : ∃ v, Answered I v ∧
      v.host.2 = (p.metadata host).exchanges t settings cache id w :=
    Metadata.exists_exchanges_of_keeps hsay (fun _ _ hserves => keeps_exchanging_load bound p hserves)
      ⟨hw, fun _ hx => by cases hx⟩
  rw [← hv]
  exact hanswers

end Provider

/-! ## Failures for want of a served factory -/

namespace Cause

variable {α : Type}

/-- The outcome is not a failure because a factory is not served. -/
def Served (o : Except Cause α) : Prop := ∀ factory, o ≠ .error (.unservedFactory factory)

theorem OnlyFails.served {kind : Cause → Prop} {o : Except Cause α} (ho : OnlyFails kind o)
    (hkind : ∀ factory, ¬ kind (.unservedFactory factory)) : Served o :=
  fun factory h => hkind factory (ho _ h)

end Cause

theorem Tree.Lacks.served {t : Tree} {id : UseId} {cause : Cause} (h : t.Lacks id cause)
    (factory : Factory) : cause ≠ .unservedFactory factory := by
  rintro rfl
  cases h

theorem Asks.exists_unbound {rs : List TypeReference} {asked : List Exchange}
    {loaded : Except Cause (List CompiledClass)} (h : Asks rs asked loaded) {factory : Factory}
    (hloaded : loaded = .error (.unservedFactory factory)) :
    ∃ x ∈ asked, x.answer = .error (.unbound factory) := by
  induction h with
  | done => cases hloaded
  | missing r rs => cases hloaded
  | unbound r rs factory' =>
    cases hloaded
    exact ⟨_, List.mem_singleton_self _, rfl⟩
  | broken r rs h => cases hloaded
  | @loads r rs c asked loaded h ih =>
    cases loaded with
    | ok cs => cases hloaded
    | error cause =>
      cases hloaded
      obtain ⟨x, hx, hanswer⟩ := ih rfl
      exact ⟨x, List.mem_cons_of_mem _ hx, hanswer⟩

section Lookup

variable {host : Host σ} {I : σ → Prop} {t : Tree} {id : UseId} {w : World σ}

theorem Provider.outcome_resolve_unserved_iff (bound : host.Bound I) (p : Provider)
    (settings : Settings) (hw : I w.host) (factory : Factory) :
    Task.outcome ((p.metadata host).resolve t settings id) w =
        .error (.unservedFactory factory) ↔
      p.serves factory = false ∧
        ∃ annotationType d method?, t.Annotates id annotationType d method? ∧
          d.factory = factory := by
  have hunserved {annotationType : String} {d : TypeNode} {method? : Option (String × List TypeName)}
      (hannotates : t.Annotates id annotationType d method?) (hserves : p.serves d.factory = false) :
      Task.outcome ((p.metadata host).resolve t settings id) w =
        .error (.unservedFactory d.factory) := by
    obtain ⟨g, hg, -, henclosing, -⟩ := hannotates.exists_target
    have hserved : (p.metadata host).serves g.enclosing.factory = false := by
      rw [henclosing]
      exact hserves
    rw [Metadata.resolve_of_target _ t hg, Metadata.resolveTarget, Metadata.permit, hserved,
      henclosing]
    rfl
  constructor
  · intro h
    rcases t.lacks_or_annotates id with ⟨cause, hlacks⟩ | ⟨annotationType, d, method?, hannotates⟩
    · rw [Metadata.resolve_of_target_error _ t hlacks.target] at h
      exact absurd (Except.error.inj h) (hlacks.served factory)
    cases hserves : p.serves d.factory with
    | false =>
      rw [hunserved hannotates hserves] at h
      obtain rfl : d.factory = factory := by cases h; rfl
      exact ⟨hserves, _, d, _, hannotates, rfl⟩
    | true =>
      -- all that is asked for is answered with something other than the want of a class path
      have hanswers := p.answer_of_mem_exchanges bound t settings {} id hw
      have hserved : (p.metadata host).serves d.factory = true := hserves
      have hnew : ({} : Cache Completed).get? t.id id = none := rfl
      rcases Metadata.resolve_of_annotates settings hnew hannotates hserved w with
        ⟨cause, hasks, houtcome⟩ | ⟨a, c, es, -, houtcome⟩
      · rw [houtcome] at h
        obtain ⟨x, hx, hanswer⟩ :=
          hasks.exists_unbound (congrArg Except.error (Except.error.inj h))
        exact absurd hanswer (hanswers x hx factory)
      · rw [houtcome] at h
        have hserved := ((c.onlyFails_recordFor annotationType es method?).map
          (Completed.merge a)).served fun factory h => by cases h
        exact absurd h (hserved factory)
  · rintro ⟨hserves, annotationType, d, method?, hannotates, rfl⟩
    exact hunserved hannotates hserves

theorem Resolver.complete_unserved_iff (bound : host.Bound I) (r : Resolver) (hw : I w.host)
    (factory : Factory) : (r.complete host t id w).1 = .error (.unservedFactory factory) ↔
      r.cache.get? t.id id = none ∧ r.provider.serves factory = false ∧
        ∃ annotationType d method?, t.Annotates id annotationType d method? ∧
          d.factory = factory := by
  cases hcache : r.cache.get? t.id id with
  | some a =>
    rw [complete_of_known hcache]
    exact iff_of_false (fun h => by cases h) fun h => by cases h.1
  | none =>
    rw [(complete_of_new hcache w).1, r.provider.outcome_resolve_unserved_iff bound r.settings hw]
    exact (and_iff_right rfl).symm

/-- **The lookups that fail because a factory is not served** are those of uses that are not cached, and
apply an annotation type to a type of that factory or to a method of one. -/
theorem Resolver.lookup_unserved_iff (bound : host.Bound I) (r : Resolver) (key : String)
    (query : Query) (hw : I w.host) (factory : Factory) :
    (∃ f, (r.lookup host t id key query w).1 = .error f ∧ f.cause = .unservedFactory factory) ↔
      r.cache.get? t.id id = none ∧ r.provider.serves factory = false ∧
        ∃ annotationType d method?, t.Annotates id annotationType d method? ∧
          d.factory = factory := by
  rw [← r.complete_unserved_iff bound hw]
  exact Completed.exists_failure_iff (by rintro ⟨⟨⟩⟩) _

end Lookup

namespace Provider

/-- **Whether a factory is served and what loading answers agree**, in every nest of providers over
loaders that do not answer themselves that a factory has no class path. A load fails for want of a
class path exactly if the factory of the reference is not served, it is then that factory which has
none, and no loader is asked. So the lookups that fail because a factory is not served are those of
which the resolver knows beforehand, and no reference is handed on only to be answered like this. -/
theorem serves_agrees_with_load {host : Host σ} {I : σ → Prop} (bound : host.Bound I)
    (p : Provider) (t : Tree) :
    (∀ r w factory, I w.host →
      (Task.outcome (p.load host t r) w = .error (.unbound factory) ↔
        p.serves r.factory = false ∧ factory = r.factory)) ∧
    (∀ r w, p.serves r.factory = false →
      p.load host.recording t r w = .error (.unbound r.factory) w) ∧
    ∀ settings cache id w, I w.host →
      (∀ key query factory,
        (∃ f, (Resolver.lookup ⟨p, settings, cache⟩ host t id key query w).1 = .error f ∧
          f.cause = .unservedFactory factory) ↔
        cache.get? t.id id = none ∧ p.serves factory = false ∧
          ∃ annotationType d method?, t.Annotates id annotationType d method? ∧
            d.factory = factory) ∧
      ∀ x ∈ (p.metadata host).exchanges t settings cache id w, ∀ factory,
        x.answer ≠ .error (.unbound factory) := by
  refine ⟨fun r w factory hw => p.outcome_load_eq_unbound_iff bound hw factory,
    fun r w hserves => by rw [load_of_not_serves hserves]; rfl,
    fun settings cache id w hw => ⟨fun key query factory => ?_, ?_⟩⟩
  · exact Resolver.lookup_unserved_iff bound ⟨p, settings, cache⟩ key query hw factory
  · exact p.answer_of_mem_exchanges bound t settings cache id hw

end Provider

/-! ## Loaders in memory -/

/-- The states of loaders in which no call is made to fail for want of a class path. -/
def Loader.NoneUnbound (loaders : List Loader) : Prop :=
  ∀ l ∈ loaders, ∀ factory, some (.unbound factory) ∉ l.plan

theorem Loader.bound_host : host.Bound NoneUnbound where
  answers id name loaders h factory := by
    cases hl : loaders[id.index]? with
    | none =>
      simp only [host, hl]
      exact fun h => by cases h
    | some l =>
      rw [host_load_of_getElem? hl]
      cases hp : l.plan with
      | nil =>
        rw [load_of_plan hp]
        exact fun h => by cases h
      | cons fault? plan =>
        cases fault? with
        | none => simp only [load, hp]; exact fun h => by cases h
        | some fault =>
          rw [load_of_fault hp]
          have hfault := h l (List.mem_of_getElem? hl)
          rw [hp] at hfault
          cases fault with
          | unbound g => exact absurd List.mem_cons_self (hfault g)
          | linkage message => exact fun h => by cases h
          | other message => exact fun h => by cases h
  keeps id name loaders h l' hl' factory := by
    rcases mem_host_load hl' with hl' | ⟨l, hl, rfl⟩
    · exact h l' hl' factory
    · rw [plan_load]
      exact fun hmem => h l hl factory (List.mem_of_mem_tail hmem)

namespace Provider

open Sample

/-- Layers of which only those of the other factory are served. -/
def nest : Provider := .layered [.layered [], .source abroad, .classPath [(abroad, ⟨0⟩)]]

/-- A nest that does not serve the enclosing factory, and loads what it does serve. -/
theorem serves_agrees_with_load_of_nest :
    (∃ f, (Resolver.lookup ⟨nest, {}, {}⟩ Loader.host (tree abroad) ⟨0⟩ "value" .value initial).1 =
      .error f ∧ f.cause = .unservedFactory home) ∧
    Task.outcome (nest.load Loader.host (tree abroad) ⟨"Route", abroad⟩) initial ≠
      .error (.unbound abroad) := by
  have hinitial : Loader.NoneUnbound initial.host := by
    intro l hl factory
    obtain rfl := List.mem_singleton.1 hl
    exact List.not_mem_nil
  obtain ⟨hload, -, hlookup⟩ := serves_agrees_with_load Loader.bound_host nest (tree abroad)
  refine ⟨((hlookup {} {} ⟨0⟩ initial hinitial).1 "value" .value home).2 ⟨rfl, rfl, ?_⟩, ?_⟩
  · exact ⟨_, _, _, .method rfl rfl rfl rfl, rfl⟩
  · intro hunbound
    exact absurd ((hload _ _ _ hinitial).1 hunbound).1 (by decide)

end Provider

end AnnotationLookup
