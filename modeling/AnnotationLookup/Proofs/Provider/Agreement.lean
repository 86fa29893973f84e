import AnnotationLookup.Proofs.Task

/-!
# Providers that agree on a factory

What a provider answers for one factory depends on the loaders that its class paths bind to that
factory, and on the source declarations of the tree if it has a source.

* `Provider.loadersOf`: the loaders that a factory is bound to anywhere in a nest of providers;
* `Provider.sourceFree`: no part of the nest reads source declarations;
* `Provider.AgreesOn`: nests of the same shape that bind one factory to the same loaders;
* **`Provider.load_congr`**, `Provider.load_alike`: such providers go alike on references to that
  factory;
* `Host.Steady`: loaders whose answers do not change.
-/

namespace AnnotationLookup

namespace Provider

mutual

/-- The loaders that a factory is bound to, in the order in which they would be asked. -/
def loadersOf (p : Provider) (factory : Factory) : List LoaderId :=
  match p with
  | .classPath bindings => (bindings.lookup factory).toList
  | .source _ => []
  | .layered layers => allLoadersOf layers factory
termination_by structural p

/-- The loaders that a factory is bound to in any of the layers. -/
def allLoadersOf (layers : List Provider) (factory : Factory) : List LoaderId :=
  match layers with
  | [] => []
  | p :: layers => p.loadersOf factory ++ allLoadersOf layers factory
termination_by structural layers

end

mutual

/-- No part of the provider reads source declarations. -/
def sourceFree (p : Provider) : Bool :=
  match p with
  | .classPath _ => true
  | .source _ => false
  | .layered layers => allSourceFree layers
termination_by structural p

/-- No layer reads source declarations. -/
def allSourceFree (layers : List Provider) : Bool :=
  match layers with
  | [] => true
  | p :: layers => p.sourceFree && allSourceFree layers
termination_by structural layers

end

mutual

/-- The same nest, up to the loaders that other factories are bound to. -/
def AgreesOn (factory : Factory) (p q : Provider) : Prop :=
  match p, q with
  | .classPath bindings, .classPath bindings' => bindings.lookup factory = bindings'.lookup factory
  | .source own, .source own' => own = own'
  | .layered layers, .layered layers' => AllAgreeOn factory layers layers'
  | _, _ => False
termination_by structural p

/-- The layers agree one by one. -/
def AllAgreeOn (factory : Factory) (layers layers' : List Provider) : Prop :=
  match layers, layers' with
  | [], [] => True
  | p :: layers, q :: layers' => p.AgreesOn factory q ∧ AllAgreeOn factory layers layers'
  | _, _ => False
termination_by structural layers

end

variable {factory : Factory}

mutual

theorem AgreesOn.refl (p : Provider) : p.AgreesOn factory p := by
  match p with
  | .classPath bindings => exact (rfl : bindings.lookup factory = bindings.lookup factory)
  | .source own => exact (rfl : own = own)
  | .layered layers => exact AllAgreeOn.refl layers
termination_by structural p

theorem AllAgreeOn.refl (layers : List Provider) : AllAgreeOn factory layers layers := by
  match layers with
  | [] => trivial
  | p :: layers => exact ⟨AgreesOn.refl p, AllAgreeOn.refl layers⟩
termination_by structural layers

end

mutual

theorem AgreesOn.serves (p q : Provider) (h : p.AgreesOn factory q) :
    p.serves factory = q.serves factory := by
  match p, q with
  | .classPath bindings, .classPath bindings' =>
    change (bindings.lookup factory).isSome = (bindings'.lookup factory).isSome
    rw [show bindings.lookup factory = bindings'.lookup factory from h]
  | .source own, .source own' => rw [show own = own' from h]
  | .layered layers, .layered layers' => exact AllAgreeOn.anyServes layers layers' h
  | .classPath _, .source _ | .classPath _, .layered _ | .source _, .classPath _
  | .source _, .layered _ | .layered _, .classPath _ | .layered _, .source _ => exact False.elim h
termination_by structural p

theorem AllAgreeOn.anyServes (layers layers' : List Provider)
    (h : AllAgreeOn factory layers layers') :
    Provider.anyServes layers factory = Provider.anyServes layers' factory := by
  match layers, layers' with
  | [], [] => rfl
  | p :: layers, q :: layers' =>
    change (p.serves factory || Provider.anyServes layers factory) =
      (q.serves factory || Provider.anyServes layers' factory)
    rw [AgreesOn.serves p q h.1, AllAgreeOn.anyServes layers layers' h.2]
  | [], _ :: _ | _ :: _, [] => exact False.elim h
termination_by structural layers

end

/-! ## Loads that go alike -/

section Load

variable {σ σ' : Type} {host : Host σ} {host' : Host σ'} {t t' : Tree}
  {C : ∀ {α : Type}, Task σ LoadError α → Task σ' LoadError α → Prop}

mutual

/-- **Providers that agree on a factory go alike on references to it**, where the loaders bound to
the factory go alike, and the trees show the same source declarations if these are read. -/
theorem load_congr (hC : Task.Congruence @C) (p q : Provider) (agree : p.AgreesOn factory q)
    (say : ∀ r, C (report .trace (.loading r)) (report .trace (.loading r)))
    (asks : ∀ loader ∈ p.loadersOf factory, ∀ name, C (ask host loader name) (ask host' loader name))
    (shows : p.sourceFree = false →
      ∀ name, sourceClass? t factory name = sourceClass? t' factory name)
    (name : String) :
    C (p.load host t ⟨name, factory⟩) (q.load host' t' ⟨name, factory⟩) := by
  match p, q with
  | .classPath bindings, .classPath bindings' =>
    have hlookup : bindings.lookup factory = bindings'.lookup factory := agree
    simp only [load, ← hlookup]
    cases hl : bindings.lookup factory with
    | none => exact hC.throw _
    | some loader =>
      have hmem : loader ∈ (Provider.classPath bindings).loadersOf factory := by
        simp only [loadersOf, hl, Option.mem_toList]
      exact hC.bind (say _) fun _ => asks loader hmem name
  | .source own, .source own' =>
    obtain rfl : own = own' := agree
    simp only [load]
    split
    · next h =>
      subst h
      rw [shows rfl name]
      exact hC.pure _
    · exact hC.throw _
  | .layered layers, .layered layers' =>
    exact loadLayers_congr hC layers layers' agree say asks shows name false
  | .classPath _, .source _ | .classPath _, .layered _ | .source _, .classPath _
  | .source _, .layered _ | .layered _, .classPath _ | .layered _, .source _ =>
    exact False.elim agree
termination_by structural p

theorem loadLayers_congr (hC : Task.Congruence @C) (layers layers' : List Provider)
    (agree : AllAgreeOn factory layers layers')
    (say : ∀ r, C (report .trace (.loading r)) (report .trace (.loading r)))
    (asks : ∀ loader ∈ allLoadersOf layers factory, ∀ name,
      C (ask host loader name) (ask host' loader name))
    (shows : allSourceFree layers = false →
      ∀ name, sourceClass? t factory name = sourceClass? t' factory name)
    (name : String) (asked : Bool) :
    C (loadLayers host t layers asked ⟨name, factory⟩)
      (loadLayers host' t' layers' asked ⟨name, factory⟩) := by
  match layers, layers' with
  | [], [] =>
    simp only [loadLayers]
    split
    · exact hC.pure _
    · exact hC.throw _
  | p :: layers, q :: layers' =>
    have hasks : ∀ loader ∈ p.loadersOf factory ++ allLoadersOf layers factory, ∀ name,
        C (ask host loader name) (ask host' loader name) := asks
    have hshows : (p.sourceFree && allSourceFree layers) = false →
        ∀ name, sourceClass? t factory name = sourceClass? t' factory name := shows
    have ih (asked : Bool) := loadLayers_congr hC layers layers' agree.2 say
      (fun loader h => hasks loader (List.mem_append_right _ h))
      (fun h => hshows (by rw [h, Bool.and_false])) name asked
    simp only [loadLayers, ← AgreesOn.serves p q agree.1]
    split
    · have hp := load_congr hC p q agree.1 say
        (fun loader h => hasks loader (List.mem_append_left _ h))
        (fun h => hshows (by rw [h, Bool.false_and])) name
      refine hC.bind hp fun answer => ?_
      cases answer with
      | some c => exact hC.pure _
      | none => exact ih true
    · exact ih asked
  | [], _ :: _ | _ :: _, [] => exact False.elim agree
termination_by structural layers

end

theorem load_alike {R : World σ → World σ' → Prop} (p q : Provider) (agree : p.AgreesOn factory q)
    (say : ∀ r, Task.Alike R (report .trace (.loading r) : Task σ LoadError Unit)
      (report .trace (.loading r)))
    (asks : ∀ loader ∈ p.loadersOf factory, ∀ name,
      Task.Alike R (ask host loader name) (ask host' loader name))
    (shows : p.sourceFree = false →
      ∀ name, sourceClass? t factory name = sourceClass? t' factory name)
    (name : String) :
    Task.Alike R (p.load host t ⟨name, factory⟩) (q.load host' t' ⟨name, factory⟩) :=
  load_congr Task.Alike.congruence p q agree say asks shows name

end Load

end Provider

/-! ## Loaders whose answers do not change -/

namespace Host

variable {σ σ' : Type}

/-- In the states of `I`, which loading does not leave, each loader always gives the same answer for
a name. -/
structure Steady (host : Host σ) (I : σ → Prop) : Prop where
  same : ∀ loader name s s', I s → I s' → (host.load loader name s).1 = (host.load loader name s').1
  keeps : ∀ loader name s, I s → I (host.load loader name s).2

theorem ask_alike {host : Host σ} {host' : Host σ'} {H : σ → σ' → Prop} {loader : LoaderId}
    {name : String}
    (h : ∀ s s', H s s' → (host.load loader name s).1 = (host'.load loader name s').1 ∧
      H (host.load loader name s).2 (host'.load loader name s').2) :
    Task.Alike (World.Hosts H) (Provider.ask host loader name) (Provider.ask host' loader name) := by
  intro w w' hw
  obtain ⟨hanswer, hstate⟩ := h w.host w'.host hw
  unfold Provider.ask
  generalize host.load loader name w.host = p, host'.load loader name w'.host = q at hanswer hstate
  obtain ⟨answer, s⟩ := p
  obtain ⟨answer', s'⟩ := q
  obtain rfl : answer = answer' := hanswer
  cases answer with
  | ok c => exact .ok c hstate
  | error e => exact .error e hstate

theorem Steady.ask_alike {host : Host σ} {I : σ → Prop} (h : host.Steady I) (loader : LoaderId)
    (name : String) :
    Task.Alike (World.Hosts fun s s' => I s ∧ I s') (Provider.ask host loader name)
      (Provider.ask host loader name) :=
  Host.ask_alike fun s s' hs => ⟨h.same loader name s s' hs.1 hs.2,
    h.keeps loader name s hs.1, h.keeps loader name s' hs.2⟩

end Host

/-! ## Loaders in memory -/

/-- The states of loaders over given class paths with no faults ahead. -/
def Loader.Faultless (universes : List Universe) (loaders : List Loader) : Prop :=
  loaders.map (·.classes) = universes ∧ ∀ l ∈ loaders, l.plan = []

namespace Loader

theorem classes_load (l : Loader) (name : String) : (l.load name).2.classes = l.classes := by
  unfold load
  split <;> rfl

theorem plan_load (l : Loader) (name : String) : (l.load name).2.plan = l.plan.tail := by
  unfold load
  split <;> rfl

theorem load_of_plan {l : Loader} (h : l.plan = []) (name : String) :
    (l.load name).1 = .ok (l.classes.find? name) := by
  simp only [load, h]

theorem load_of_fault {l : Loader} {fault : Fault} {plan : List (Option Fault)}
    (h : l.plan = some fault :: plan) (name : String) :
    (l.load name).1 = .error (fault.error name) := by
  simp only [load, h]

theorem host_load_of_getElem? {loaders : List Loader} {id : LoaderId} {l : Loader}
    (h : loaders[id.index]? = some l) (name : String) :
    host.load id name loaders = ((l.load name).1, loaders.set id.index (l.load name).2) := by
  simp only [host, h]

theorem map_classes_host_load (id : LoaderId) (name : String) (loaders : List Loader) :
    (host.load id name loaders).2.map (·.classes) = loaders.map (·.classes) := by
  cases hl : loaders[id.index]? with
  | none => simp only [host, hl]
  | some l =>
    obtain ⟨hlt, rfl⟩ := List.getElem?_eq_some_iff.1 hl
    have hlt' : id.index < (loaders.map (·.classes)).length := by rwa [List.length_map]
    have hget : (loaders.map (·.classes))[id.index] = loaders[id.index].classes :=
      List.getElem_map _
    rw [host_load_of_getElem? hl, List.map_set, classes_load, ← hget, List.set_getElem_self]

theorem mem_host_load {id : LoaderId} {name : String} {loaders : List Loader} {l' : Loader}
    (h : l' ∈ (host.load id name loaders).2) :
    l' ∈ loaders ∨ ∃ l ∈ loaders, l' = (l.load name).2 := by
  cases hl : loaders[id.index]? with
  | none =>
    simp only [host, hl] at h
    exact .inl h
  | some l =>
    rw [host_load_of_getElem? hl] at h
    exact (List.mem_or_eq_of_mem_set h).imp_right fun h => ⟨l, List.mem_of_getElem? hl, h⟩

theorem host_load_of_faultless {universes : List Universe} {loaders : List Loader}
    (h : Faultless universes loaders) (id : LoaderId) (name : String) :
    (host.load id name loaders).1 = .ok (universes[id.index]?.bind (·.find? name)) ∧
      Faultless universes (host.load id name loaders).2 := by
  obtain ⟨rfl, hplan⟩ := h
  refine ⟨?_, map_classes_host_load id name loaders, fun l' hl' => ?_⟩
  · rw [List.getElem?_map]
    cases hl : loaders[id.index]? with
    | none => simp only [host, hl]; rfl
    | some l =>
      rw [host_load_of_getElem? hl, load_of_plan (hplan l (List.mem_of_getElem? hl))]
      rfl
  · rcases mem_host_load hl' with hl' | ⟨l, hl, rfl⟩
    · exact hplan l' hl'
    · rw [plan_load, hplan l hl, List.tail_nil]

/-- **Loaders over class paths held in memory are steady** while no faults are planned. -/
theorem steady_host (universes : List Universe) : host.Steady (Faultless universes) where
  same loader name _ _ h h' :=
    (host_load_of_faultless h loader name).1.trans (host_load_of_faultless h' loader name).1.symm
  keeps loader name _ h := (host_load_of_faultless h loader name).2

end Loader

end AnnotationLookup
