import AnnotationLookup.Proofs.Provider.Resolution

/-!
# Records of what is asked for

* `Metadata.noting`: notes of what a source is asked and answers, of any kind;
  `Metadata.noting_alike`: taking them changes nothing else; **`Metadata.keeps_noting_load`**: what is
  known of all notes;
* `Metadata.recording`, `Metadata.handed`: the references that a resolution hands to its source;
* `Host.recording`, `Provider.requests`: the names that loaders are asked for;
* **`Metadata.resolve_keeps`**: what the loads of the enclosing factory preserve, a resolution
  preserves;
* **`Metadata.factory_of_mem_handed`**, **`Provider.mem_loadersOf_of_mem_requests`**: a resolution
  asks for nothing outside of the enclosing factory.
-/

namespace AnnotationLookup

variable {σ : Type}

/-! ## Notes of loads -/

namespace Metadata

section Notes

variable {ρ : Type}
  (note : List LogEntry → TypeReference → Except LoadError (Option CompiledClass) → ρ)
  (source : Metadata σ)

/-- The source, with a note of each load: of the log before it, the reference and the answer. -/
def noting : Metadata (σ × List ρ) where
  serves := source.serves
  load t r := fun w =>
    match source.load t r { host := w.host.1, log := w.log } with
    | .ok c v => .ok c { host := (v.host, w.host.2 ++ [note w.log r (.ok c)]), log := v.log }
    | .error e v => .error e { host := (v.host, w.host.2 ++ [note w.log r (.error e)]), log := v.log }

/-- A world with a record beside the state of its host. -/
def Recorded (w : World σ) (w' : World (σ × ρ)) : Prop :=
  w'.host.1 = w.host ∧ w'.log = w.log

theorem noting_load_alike (t : Tree) (r : TypeReference) :
    Task.Alike Recorded (source.load t r) ((source.noting note).load t r) := by
  rintro w w' ⟨hhost, hlog⟩
  have hw : { host := w'.host.1, log := w'.log } = w := by rw [hhost, hlog]
  simp only [noting, hw]
  cases source.load t r w with
  | ok c v => exact .ok c ⟨rfl, rfl⟩
  | error e v => exact .error e ⟨rfl, rfl⟩

/-- Taking notes changes nothing else. -/
theorem noting_alike (t : Tree) (settings : Settings) (use : UseId) :
    Task.Alike Recorded (source.resolve t settings use)
      ((source.noting note).resolve t settings use) := by
  have say (level : Level) (event : Event) :
      Task.Alike Recorded (report level event : Task σ Cause Unit)
        (report level event : Task (σ × List ρ) Cause Unit) :=
    fun w w' hw => .ok () ⟨hw.1, congrArg (· ++ [⟨level, event⟩]) hw.2⟩
  have hserves : source.serves = (source.noting note).serves := rfl
  refine resolve_alike (fun _ h => h) fun g hg => ⟨g, hg, ?_⟩
  exact resolveTarget_alike_of_permit rfl rfl rfl rfl (fun level event _ => say level event)
    (permit_alike_of_report hserves say _ _ _) fun name => noting_load_alike note source t _

variable {note source}

/-- **What is known of the world and of all notes** is still known after one more load. -/
theorem keeps_noting_load {t : Tree} {r : TypeReference} {P : World σ → Prop} {N : ρ → Prop}
    (load : ∀ w, P w → P (Task.after (source.load t r) w) ∧
      N (note w.log r (Task.outcome (source.load t r) w))) :
    Task.Keeps (fun w => P { host := w.host.1, log := w.log } ∧ ∀ x ∈ w.host.2, N x)
      ((source.noting note).load t r) := by
  refine Task.keeps_of_after fun w ⟨hw, hnotes⟩ => ?_
  obtain ⟨hafter, hnote⟩ := load _ hw
  unfold Task.after at hafter
  unfold Task.outcome at hnote
  simp only [Task.after, noting]
  cases hload : source.load t r { host := w.host.1, log := w.log } with
  | ok c v =>
    rw [hload] at hafter hnote
    exact ⟨hafter, List.forall_mem_append.2 ⟨hnotes, List.forall_mem_singleton.2 hnote⟩⟩
  | error e v =>
    rw [hload] at hafter hnote
    exact ⟨hafter, List.forall_mem_append.2 ⟨hnotes, List.forall_mem_singleton.2 hnote⟩⟩

end Notes

/-- **A resolution preserves what the loads of the enclosing factory preserve.** -/
theorem resolve_keeps {source : Metadata σ} {t : Tree} {P : World σ → Prop} {settings : Settings}
    {use : UseId} {factory : Factory} (h : t.enclosingFactory use = .ok factory)
    (say : ∀ level event, Task.Keeps P (report level event : Task σ Cause Unit))
    (load : ∀ name, Task.Keeps P (source.load t ⟨name, factory⟩)) :
    Task.Keeps P (source.resolve t settings use) := by
  refine resolve_alike (fun _ h => h) fun g hg => ⟨g, hg, ?_⟩
  obtain rfl : g.enclosing.factory = factory :=
    Except.ok.inj ((Tree.enclosingFactory_of_target hg).symm.trans h)
  exact resolveTarget_alike_of_permit rfl rfl rfl rfl (fun level event _ => say level event)
    (permit_alike_of_report rfl say _ _ _) load

/-! ## References handed to a source -/

/-- The source, with a record of the references that are handed to it. -/
abbrev recording (source : Metadata σ) : Metadata (σ × List TypeReference) :=
  source.noting fun _ r _ => r

/-- The references that are handed to the source while a use is resolved, in order. -/
def handed (source : Metadata σ) (t : Tree) (settings : Settings) (use : UseId) (w : World σ) :
    List TypeReference :=
  (Task.after (source.recording.resolve t settings use)
    { host := (w.host, []), log := w.log }).host.2

/-- **Every reference that is handed to the source is bound to the enclosing factory.** -/
theorem factory_of_mem_handed (source : Metadata σ) {t : Tree} {settings : Settings} {use : UseId}
    {w : World σ} {factory : Factory} (h : t.enclosingFactory use = .ok factory) :
    ∀ r ∈ source.handed t settings use w, r.factory = factory := by
  have hkeeps : Task.Keeps (fun w => True ∧ ∀ r ∈ w.host.2, r.factory = factory)
      (source.recording.resolve t settings use) :=
    resolve_keeps h (fun _ _ => Task.keeps_of_after fun _ hw => hw) fun _ =>
      keeps_noting_load (P := fun _ => True) fun _ _ => ⟨trivial, rfl⟩
  exact (hkeeps.after (w := { host := (w.host, []), log := w.log })
    ⟨trivial, fun _ hr => by cases hr⟩).2

end Metadata

/-! ## Requests to loaders -/

/-- The loaders, with a record of the names that they are asked for. -/
def Host.recording (host : Host σ) : Host (σ × List (LoaderId × String)) where
  load id name s := ((host.load id name s.1).1, (host.load id name s.1).2, s.2 ++ [(id, name)])

/-- What loaders are asked for while a use is resolved, in order. -/
def Provider.requests (p : Provider) (host : Host σ) (t : Tree) (settings : Settings) (use : UseId)
    (w : World σ) : List (LoaderId × String) :=
  (Task.after ((p.metadata host.recording).resolve t settings use)
    { host := (w.host, []), log := w.log }).host.2

/-- **Only loaders that the enclosing factory is bound to are asked.** -/
theorem Provider.mem_loadersOf_of_mem_requests (p : Provider) (host : Host σ) {t : Tree}
    {settings : Settings} {use : UseId} {w : World σ} {factory : Factory}
    (h : t.enclosingFactory use = .ok factory) :
    ∀ q ∈ p.requests host t settings use w, q.1 ∈ p.loadersOf factory := by
  have hkeeps : Task.Keeps (fun w => ∀ q ∈ w.host.2, q.1 ∈ p.loadersOf factory)
      ((p.metadata host.recording).resolve t settings use) := by
    refine Metadata.resolve_keeps h (fun _ _ => Task.keeps_of_after fun _ hw => hw) fun name => ?_
    refine Provider.load_alike p p (.refl p) (fun _ => Task.keeps_of_after fun _ hw => hw)
      (fun loader hloader name => ?_) (fun _ _ => rfl) name
    refine Task.keeps_of_after fun w hw => ?_
    simp only [Task.after, Provider.ask, Host.recording]
    have hafter : ∀ q ∈ w.host.2 ++ [(loader, name)], q.1 ∈ p.loadersOf factory :=
      List.forall_mem_append.2 ⟨hw, List.forall_mem_singleton.2 hloader⟩
    cases (host.load loader name w.host.1).1 <;> exact hafter
  exact hkeeps.after (w := { host := (w.host, []), log := w.log }) fun _ hq => by cases hq

end AnnotationLookup
