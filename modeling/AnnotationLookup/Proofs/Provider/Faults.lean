import AnnotationLookup.Proofs.Provider.Recording
import AnnotationLookup.Proofs.Resolver.Success

/-!
# Loaders that fail at times

A resolution breaks off with the error of the first load that fails. Up to there it goes as it goes
over the same class paths where no load fails.

* `Host.Faulty`: loaders that answer from class paths which do not change, or fail to link;
* `Host.FailsNext`: a loader of which exactly the next calls fail;
* **`Provider.resolve_unless`**: resolutions go alike unless a load fails;
* `Loader.faulty_host`, `Loader.failsNext_host`: the plans of loaders in memory that are such.
-/

namespace AnnotationLookup

variable {σ σ' : Type}

/-- A class is there and cannot be made. -/
def LoadError.IsLinkage (e : LoadError) : Prop := ∃ name message, e = .linkage name message

/-- A class could not be made. -/
def Cause.IsLinkage (c : Cause) : Prop := ∃ e : LoadError, e.IsLinkage ∧ c = .loading e

theorem LoadError.IsLinkage.cause {e : LoadError} (h : e.IsLinkage) :
    (Cause.ofLoadError e).IsLinkage := by
  obtain ⟨name, message, rfl⟩ := h
  exact ⟨_, ⟨name, message, rfl⟩, rfl⟩

namespace Host

/-- In the states of `I`, which loading does not leave, any call may fail to link, and those that do
not are answered from the class path of the loader. -/
structure Faulty (host : Host σ) (I : σ → Prop) (universes : LoaderId → Universe) : Prop where
  answers : ∀ loader name s, I s →
    (host.load loader name s).1 = .ok ((universes loader).find? name) ∨
      ∃ e : LoadError, e.IsLinkage ∧ (host.load loader name s).1 = .error e
  keeps : ∀ loader name s, I s → I (host.load loader name s).2

/-- In the states of `Left n`, exactly the next `n` calls of the loader fail to link, and all calls
after these are answered from the class path. -/
structure FailsNext (host : Host σ) (loader : LoaderId) (u : Universe) (Left : Nat → σ → Prop) :
    Prop where
  fails : ∀ n name s, Left (n + 1) s →
    (∃ e : LoadError, e.IsLinkage ∧ (host.load loader name s).1 = .error e) ∧
      Left n (host.load loader name s).2
  answers : ∀ name s, Left 0 s → (host.load loader name s).1 = .ok (u.find? name) ∧
    Left 0 (host.load loader name s).2

/-- Calls go alike unless the first one fails to link, in a state of `B`. -/
theorem ask_unless {host : Host σ} {host' : Host σ'} {H : σ → σ' → Prop} {B : σ → Prop}
    {loader : LoaderId} {name : String}
    (h : ∀ s s', H s s' →
      ((∃ e : LoadError, e.IsLinkage ∧ (host.load loader name s).1 = .error e) ∧
        B (host.load loader name s).2) ∨
      (host.load loader name s).1 = (host'.load loader name s').1 ∧
        H (host.load loader name s).2 (host'.load loader name s').2) :
    Task.AlikeUnless (fun e w => e.IsLinkage ∧ B w.host) (World.Hosts H)
      (Provider.ask host loader name) (Provider.ask host' loader name) := by
  intro w w' hw
  have hload := h w.host w'.host hw
  unfold Provider.ask
  generalize host.load loader name w.host = p, host'.load loader name w'.host = q at hload
  obtain ⟨answer, s⟩ := p
  obtain ⟨answer', s'⟩ := q
  rcases hload with ⟨⟨e, he, heq⟩, hB⟩ | ⟨heq, hH⟩
  · obtain rfl : answer = .error e := heq
    exact .early ⟨he, hB⟩ _
  · obtain rfl : answer = answer' := heq
    cases answer with
    | ok c => exact .agree (.ok c hH)
    | error e => exact .agree (.error e hH)

end Host

/-- **Resolutions go alike unless a load fails to link**, if the calls of the loaders of the enclosing
factory do. A resolution that does not go alike breaks off with the error of that load. -/
theorem Provider.resolve_unless {host : Host σ} {host' : Host σ'} {H : σ → σ' → Prop} {B : σ → Prop}
    {p : Provider} {t : Tree} {use : UseId}
    (asks : ∀ factory, t.enclosingFactory use = .ok factory → ∀ loader ∈ p.loadersOf factory, ∀ name,
      Task.AlikeUnless (fun e w => e.IsLinkage ∧ B w.host) (World.Hosts H) (ask host loader name)
        (ask host' loader name)) (settings : Settings) :
    Task.AlikeUnless (fun c w => c.IsLinkage ∧ B w.host) (World.Hosts H)
      ((p.metadata host).resolve t settings use) ((p.metadata host').resolve t settings use) := by
  cases hg : t.target use with
  | error cause =>
    rw [Metadata.resolve_of_target_error _ t hg, Metadata.resolve_of_target_error _ t hg]
    exact .of_alike (.throw cause)
  | ok g =>
    rw [Metadata.resolve_of_target _ t hg, Metadata.resolve_of_target _ t hg]
    have say {ε : Type} {E : ε → World σ → Prop} (level : Level) (event : Event) :
        Task.AlikeUnless E (World.Hosts H) (report level event : Task σ ε Unit)
          (report level event) :=
      .of_alike (.report _ _ _ _)
    have hfactory := Tree.enclosingFactory_of_target hg
    refine Metadata.resolveTarget_congr Task.AlikeUnless.congruence rfl rfl rfl rfl
      (fun level event _ => say level event) (.of_alike (Metadata.permit_alike rfl)) fun name => ?_
    have shows (_ : p.sourceFree = false) (name : String) :
        sourceClass? t g.enclosing.factory name = sourceClass? t g.enclosing.factory name := rfl
    have hload := load_congr Task.AlikeUnless.congruence p p (.refl p) (fun _ => say _ _)
      (asks _ hfactory) shows name
    exact Metadata.classOf_unless hload fun e w h => ⟨h.1.cause, h.2⟩

/-! ## Class paths without faults -/

namespace Universe

variable {universes : LoaderId → Universe}

theorem steady_host : (host universes).Steady fun _ => True where
  same _ _ _ _ _ _ := rfl
  keeps _ _ _ _ := trivial

theorem outcome_resolve (p : Provider) (t : Tree) (settings : Settings) (use : UseId)
    (w w' : World Unit) :
    Task.outcome ((p.metadata (host universes)).resolve t settings use) w =
      Task.outcome ((p.metadata (host universes)).resolve t settings use) w' :=
  (steady_host.resolve_alike rfl (fun _ _ _ => rfl) settings settings).outcome ⟨trivial, trivial⟩

end Universe

/-- A resolution over faulty loaders fails to link, or comes to what it comes to without faults. -/
theorem Host.Faulty.resolve {host : Host σ} {I : σ → Prop} {universes : LoaderId → Universe}
    (faulty : host.Faulty I universes) (p : Provider) (t : Tree) (settings : Settings) (use : UseId)
    {w : World σ} (hw : I w.host) (w' : World Unit) :
    ((∃ cause : Cause, cause.IsLinkage ∧
        Task.outcome ((p.metadata host).resolve t settings use) w = .error cause) ∨
      Task.outcome ((p.metadata host).resolve t settings use) w =
        Task.outcome ((p.metadata (Universe.host universes)).resolve t settings use) w') ∧
    I (Task.after ((p.metadata host).resolve t settings use) w).host := by
  have hunless : Task.AlikeUnless (fun c w => c.IsLinkage ∧ I w.host) (World.Hosts fun s _ => I s)
      ((p.metadata host).resolve t settings use)
      ((p.metadata (Universe.host universes)).resolve t settings use) := by
    refine Provider.resolve_unless (fun _ _ loader _ name => Host.ask_unless fun s s' hs => ?_) _
    have hkeeps : I (host.load loader name s).2 := faulty.keeps loader name s hs
    rcases faulty.answers loader name s hs with h | h
    · exact .inr ⟨h, hkeeps⟩
    · exact .inl ⟨h, hkeeps⟩
  rcases hunless.early_or_agree (show World.Hosts (fun s _ => I s) w w' from hw) with
    ⟨cause, hcause, hlinkage, hafter⟩ | ⟨heq, hafter⟩
  · exact ⟨.inl ⟨cause, hlinkage, hcause⟩, hafter⟩
  · exact ⟨.inr heq, hafter⟩

namespace Host.FailsNext

variable {host : Host σ} {universes : LoaderId → Universe} {loader : LoaderId}
  {Left : Nat → σ → Prop} {p : Provider} {t : Tree} {use : UseId} {factory : Factory} {w : World σ}

/-- While calls are made to fail, a resolution that asks at all fails with its first call. -/
theorem resolve_succ (h : host.FailsNext loader (universes loader) Left)
    (henclosing : t.enclosingFactory use = .ok factory)
    (hsingle : ∀ l ∈ p.loadersOf factory, l = loader) {settings : Settings} {n : Nat}
    (hw : Left (n + 1) w.host) {w₀ : World Unit}
    (hasks : p.requests (Universe.host universes) t settings use w₀ ≠ []) :
    ∃ cause : Cause, cause.IsLinkage ∧
      Task.outcome ((p.metadata host).resolve t settings use) w = .error cause ∧
      Left n (Task.after ((p.metadata host).resolve t settings use) w).host := by
  -- beside the same resolution with a record of its requests, which stays empty up to the first call
  have hunless : Task.AlikeUnless (fun c w => c.IsLinkage ∧ Left n w.host)
      (World.Hosts fun s s' => Left (n + 1) s ∧ s'.2 = [])
      ((p.metadata host).resolve t settings use)
      ((p.metadata (Universe.host universes).recording).resolve t settings use) := by
    refine Provider.resolve_unless (fun g hg l hl name => ?_) _
    obtain rfl : g = factory := Except.ok.inj (hg.symm.trans henclosing)
    obtain rfl : l = loader := hsingle l hl
    exact Host.ask_unless fun s s' hs => .inl (h.fails n name s hs.1)
  have hstart : World.Hosts (fun s s' => Left (n + 1) s ∧ s'.2 = []) w
      ({ host := (w₀.host, []), log := w₀.log } : World (Unit × List (LoaderId × String))) :=
    ⟨hw, rfl⟩
  rcases hunless.early_or_agree hstart with ⟨cause, hcause, hlinkage, hleft⟩ | ⟨-, -, hnone⟩
  · exact ⟨cause, hlinkage, hcause, hleft⟩
  · exact absurd hnone hasks

theorem resolve_zero (h : host.FailsNext loader (universes loader) Left)
    (henclosing : t.enclosingFactory use = .ok factory)
    (hsingle : ∀ l ∈ p.loadersOf factory, l = loader) (settings : Settings) (hw : Left 0 w.host)
    (w₀ : World Unit) : Task.outcome ((p.metadata host).resolve t settings use) w =
      Task.outcome ((p.metadata (Universe.host universes)).resolve t settings use) w₀ := by
  have hunless : Task.AlikeUnless (fun c w => c.IsLinkage ∧ False) (World.Hosts fun s _ => Left 0 s)
      ((p.metadata host).resolve t settings use)
      ((p.metadata (Universe.host universes)).resolve t settings use) := by
    refine Provider.resolve_unless (B := fun _ => False) (fun g hg l hl name => ?_) _
    obtain rfl : g = factory := Except.ok.inj (hg.symm.trans henclosing)
    obtain rfl : l = loader := hsingle l hl
    refine Host.ask_unless (B := fun _ => False) fun s s' hs => .inr ?_
    exact h.answers name s hs
  have hstart : World.Hosts (fun s _ => Left 0 s) w w₀ := hw
  rcases hunless.early_or_agree hstart with ⟨cause, -, -, hfalse⟩ | ⟨heq, -⟩
  · exact hfalse.elim
  · exact heq

end Host.FailsNext

/-! ## Loaders in memory -/

namespace Loader

/-- The states of loaders over given class paths of which any call may be made to fail to link. -/
def Unstable (universes : List Universe) (loaders : List Loader) : Prop :=
  loaders.map (·.classes) = universes ∧
    ∀ l ∈ loaders, ∀ fault, some fault ∈ l.plan → ∃ message, fault = .linkage message

/-- The states of loaders in which exactly the next `n` calls of one of them are made to fail to
link. -/
def Unlinked (id : LoaderId) (u : Universe) (n : Nat) (loaders : List Loader) : Prop :=
  ∃ l, loaders[id.index]? = some l ∧ l.classes = u ∧
    ∃ messages : List String, messages.length = n ∧
      l.plan = messages.map fun message => some (.linkage message)

theorem isLinkage_error (name message : String) : ((Fault.linkage message).error name).IsLinkage :=
  ⟨name, message, rfl⟩

theorem faulty_host (universes : List Universe) :
    host.Faulty (Unstable universes) fun id => universes[id.index]?.getD {} where
  answers id name loaders h := by
    obtain ⟨rfl, hplan⟩ := h
    simp only [List.getElem?_map]
    cases hl : loaders[id.index]? with
    | none =>
      simp only [host, hl]
      exact .inl rfl
    | some l =>
      rw [host_load_of_getElem? hl]
      cases hp : l.plan with
      | nil => exact .inl (load_of_plan hp name)
      | cons fault? plan =>
        cases fault? with
        | none => exact .inl (by simp only [load, hp]; rfl)
        | some fault =>
          obtain ⟨message, rfl⟩ := hplan l (List.mem_of_getElem? hl) fault (by simp [hp])
          exact .inr ⟨_, isLinkage_error name message, load_of_fault hp name⟩
  keeps id name loaders h := by
    refine ⟨(map_classes_host_load id name loaders).trans h.1, fun l' hl' fault hfault => ?_⟩
    rcases mem_host_load hl' with hl' | ⟨l, hl, rfl⟩
    · exact h.2 l' hl' fault hfault
    · rw [plan_load] at hfault
      exact h.2 l hl fault (List.mem_of_mem_tail hfault)

theorem failsNext_host (id : LoaderId) (u : Universe) : host.FailsNext id u (Unlinked id u) where
  fails n name loaders h := by
    obtain ⟨l, hl, rfl, messages, hlength, hplan⟩ := h
    obtain ⟨message, messages, rfl⟩ := List.exists_cons_of_length_eq_add_one hlength
    have hlt : id.index < loaders.length := (List.getElem?_eq_some_iff.1 hl).1
    rw [host_load_of_getElem? hl]
    refine ⟨⟨_, isLinkage_error name message, load_of_fault hplan name⟩, (l.load name).2,
      List.getElem?_set_self hlt, classes_load l name, messages, by simpa using hlength, ?_⟩
    rw [plan_load, hplan, List.map_cons, List.tail_cons]
  answers name loaders h := by
    obtain ⟨l, hl, rfl, messages, hlength, hplan⟩ := h
    obtain rfl := List.eq_nil_of_length_eq_zero hlength
    have hlt : id.index < loaders.length := (List.getElem?_eq_some_iff.1 hl).1
    rw [host_load_of_getElem? hl]
    refine ⟨load_of_plan hplan name, (l.load name).2, List.getElem?_set_self hlt,
      classes_load l name, [], rfl, ?_⟩
    rw [plan_load, hplan, List.map_nil, List.tail_nil]

end Loader

end AnnotationLookup
