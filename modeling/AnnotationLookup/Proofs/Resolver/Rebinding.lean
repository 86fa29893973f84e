import AnnotationLookup.Proofs.Provider.Recording
import AnnotationLookup.Proofs.Resolver.Success

/-!
# Reports of rebindings

A lookup that is not answered from the cache reports that it looks up an annotation type for another
factory than the one it was bound to, once and before anything is loaded. Nothing else does so.

* `Metadata.watching`, `Metadata.logsAtLoads`: what has been reported whenever something is loaded;
* `Provider.Misbinds`: when an annotation type is bound to another factory;
* `World.Quiet`: what a resolution keeps up that has no rebinding to report;
* `Metadata.resolveTarget_of_misbound`: a rebinding is reported, and then there is none to report;
* `Resolver.RebindsOnce`, **`Resolver.rebindsOnce`**: the main statement.
-/

namespace AnnotationLookup

variable {σ : Type}

/-! ## Logs at loads -/

namespace Metadata

/-- The source, with a note of what has been reported whenever a reference is handed to it. -/
abbrev watching (source : Metadata σ) : Metadata (σ × List (List LogEntry)) :=
  source.noting fun log _ _ => log

/-- What has been reported whenever the source is asked while a use is resolved. -/
def logsAtLoads (source : Metadata σ) (t : Tree) (settings : Settings) (use : UseId) (w : World σ) :
    List (List LogEntry) :=
  (Task.after (source.watching.resolve t settings use)
    { host := (w.host, []), log := w.log }).host.2

end Metadata

/-! ## Rebindings -/

/-- The annotation type of a use is bound to another factory than the annotated declaration, and the
provider serves the factory of the declaration. -/
def Provider.Misbinds (p : Provider) (t : Tree) (id : UseId) (annotationType : TypeReference)
    (factory : Factory) : Prop :=
  ∃ use d method?, t.use? id = some use ∧ use.annotationType = annotationType ∧
    t.Annotates id annotationType.name d method? ∧ d.factory = factory ∧
    p.serves factory = true ∧ annotationType.factory ≠ factory

theorem Provider.misbinds_iff {p : Provider} {t : Tree} {id : UseId} {annotationType : TypeReference}
    {factory : Factory} : p.Misbinds t id annotationType factory ↔
      ∃ g, t.target id = .ok g ∧ g.annotationType = annotationType ∧ g.enclosing.factory = factory ∧
        p.serves factory = true ∧ annotationType.factory ≠ factory := by
  constructor
  · rintro ⟨use, d, method?, huse, rfl, hannotates, rfl, hserves, hne⟩
    obtain ⟨g, hg, -, henclosing, -⟩ := hannotates.exists_target
    obtain ⟨use', m, huse', -, rfl⟩ := Tree.target_eq_ok_iff.1 hg
    obtain rfl : use = use' := Option.some.inj (huse.symm.trans huse')
    exact ⟨_, hg, rfl, congrArg TypeReference.factory henclosing, hserves, hne⟩
  · rintro ⟨g, hg, rfl, rfl, hserves, hne⟩
    obtain ⟨d, hannotates, henclosing⟩ := Tree.exists_annotates hg
    obtain ⟨use, m, huse, -, rfl⟩ := Tree.target_eq_ok_iff.1 hg
    exact ⟨use, d, _, huse, rfl, hannotates,
      (congrArg TypeReference.factory henclosing).symm, hserves, hne⟩

/-- Since the log was `before`, no rebinding has been reported. -/
def World.Quiet (before : List LogEntry) (w : World σ) : Prop :=
  ∃ added, w.log = before ++ added ∧ ∀ e ∈ added, e.event.isRebinding = false

theorem World.Quiet.report {before : List LogEntry} {w : World σ} (h : w.Quiet before) (level : Level)
    {event : Event} (hevent : event.isRebinding = false) :
    World.Quiet before { w with log := w.log ++ [⟨level, event⟩] } := by
  obtain ⟨added, hlog, hadded⟩ := h
  refine ⟨added ++ [⟨level, event⟩], by rw [← List.append_assoc, ← hlog], ?_⟩
  exact List.forall_mem_append.2 ⟨hadded, List.forall_mem_singleton.2 hevent⟩

namespace Metadata

variable {source : Metadata σ} {t : Tree} {settings : Settings} {g : Target}

/-- **A rebinding is reported first**, and then the resolution is that of a target that is bound as it
should be. -/
theorem resolveTarget_of_misbound (hserves : source.serves g.enclosing.factory = true)
    (hne : g.annotationType.factory ≠ g.enclosing.factory) (w : World σ) :
    source.resolveTarget t settings g w =
      source.resolveTarget t settings (g.boundTo g.enclosing.factory)
        { w with log := w.log ++
          [⟨settings.rebindingLevel, .rebinding g.annotationType g.enclosing.factory⟩] } := by
  have hpermit : source.permit settings g.annotationType g.enclosing.factory w =
      .ok () { w with log := w.log ++
        [⟨settings.rebindingLevel, .rebinding g.annotationType g.enclosing.factory⟩] } := by
    rw [permit, if_pos hserves, if_neg hne]
    rfl
  have hpermit' (w : World σ) : source.permit settings
      (g.boundTo g.enclosing.factory).annotationType
      (g.boundTo g.enclosing.factory).enclosing.factory w = .ok () w := by
    change source.permit settings _ g.enclosing.factory w = _
    rw [permit, if_pos hserves]
    exact congrFun (if_pos rfl) w
  rw [resolveTarget, Task.bind_of_ok hpermit, resolveTarget, Task.bind_of_ok (hpermit' _)]
  rfl

/-- What has no rebinding to report keeps up whatever loads and other reports keep up. -/
theorem resolveTarget_keeps {P : World σ → Prop}
    (hbound : source.serves g.enclosing.factory = true →
      g.annotationType.factory = g.enclosing.factory)
    (say : ∀ level event, event.isRebinding = false →
      Task.Keeps P (report level event : Task σ Cause Unit))
    (load : ∀ name, Task.Keeps P (source.load t ⟨name, g.enclosing.factory⟩)) :
    Task.Keeps P (source.resolveTarget t settings g) := by
  refine resolveTarget_alike_of_permit rfl rfl rfl rfl say ?_ load
  unfold permit
  split
  · next hserves =>
    rw [if_pos (hbound hserves)]
    exact .pure ()
  · exact .throw _

/-- No rebinding is reported since the log was `before`, and all loads have come after that. -/
def Watched (before : List LogEntry) (w : World (σ × List (List LogEntry))) : Prop :=
  w.Quiet before ∧ ∀ log ∈ w.host.2, before <+: log

theorem watched_resolveTarget {before : List LogEntry}
    (hbound : source.serves g.enclosing.factory = true →
      g.annotationType.factory = g.enclosing.factory)
    (load : ∀ name, Task.Keeps (World.Quiet before) (source.load t ⟨name, g.enclosing.factory⟩)) :
    Task.Keeps (Watched before) (source.watching.resolveTarget t settings g) := by
  refine resolveTarget_keeps hbound (fun level event hevent => ?_) fun name => ?_
  · exact Task.keeps_of_after fun w hw => ⟨hw.1.report level hevent, hw.2⟩
  · refine keeps_noting_load fun w hw => ⟨(load name).after hw, ?_⟩
    obtain ⟨added, hlog, -⟩ := hw
    exact ⟨added, hlog.symm⟩

end Metadata

theorem Provider.quiet_load (p : Provider) (host : Host σ) (t : Tree) (r : TypeReference)
    (before : List LogEntry) : Task.Keeps (World.Quiet before) (p.load host t r) := by
  refine Provider.load_alike p p (.refl p) (fun r => ?_) (fun loader _ name => ?_) (fun _ _ => rfl)
    r.name
  · exact Task.keeps_of_after fun w hw => hw.report .trace rfl
  · refine Task.keeps_of_after fun w hw => ?_
    unfold Task.after Provider.ask
    generalize host.load loader name w.host = answer
    obtain ⟨answer, s⟩ := answer
    cases answer <;> exact hw

/-! ## Lookups -/

namespace Metadata

variable {p : Provider} (host : Host σ) {t : Tree} {use : UseId} (settings : Settings) (w : World σ)

theorem quiet_resolve (h : ∀ annotationType factory, ¬p.Misbinds t use annotationType factory) :
    World.Quiet w.log (Task.after ((p.metadata host).resolve t settings use) w) := by
  have hquiet : World.Quiet w.log w := ⟨[], (List.append_nil _).symm, by simp⟩
  cases hg : t.target use with
  | error cause =>
    rw [resolve_of_target_error _ t hg]
    exact hquiet
  | ok g =>
    have hbound (hserves : (p.metadata host).serves g.enclosing.factory = true) :
        g.annotationType.factory = g.enclosing.factory :=
      Decidable.byContradiction fun hne => h _ _ (p.misbinds_iff.2 ⟨g, hg, rfl, rfl, hserves, hne⟩)
    rw [resolve_of_target _ t hg]
    exact (resolveTarget_keeps hbound
      (fun level event hevent => Task.keeps_of_after fun w hw => hw.report level hevent)
      fun name => p.quiet_load host t _ _).after hquiet

/-- A rebinding is reported before anything is loaded, and no other one after it. -/
theorem watched_resolve {annotationType : TypeReference} {factory : Factory}
    (h : p.Misbinds t use annotationType factory) :
    Watched (w.log ++ [⟨settings.rebindingLevel, .rebinding annotationType factory⟩])
      (Task.after ((p.metadata host).watching.resolve t settings use)
        { host := (w.host, []), log := w.log }) := by
  obtain ⟨g, hg, rfl, rfl, hserves, hne⟩ := p.misbinds_iff.1 h
  have hfirst : Task.after ((p.metadata host).watching.resolve t settings use)
      { host := (w.host, []), log := w.log } = Task.after
        ((p.metadata host).watching.resolveTarget t settings (g.boundTo g.enclosing.factory))
        { host := (w.host, []), log := w.log ++
          [⟨settings.rebindingLevel, .rebinding g.annotationType g.enclosing.factory⟩] } := by
    unfold Task.after
    rw [resolve_of_target _ t hg, resolveTarget_of_misbound hserves hne]
  rw [hfirst]
  refine (watched_resolveTarget (g := g.boundTo g.enclosing.factory) (fun _ => rfl)
    fun name => p.quiet_load host t _ _).after ⟨⟨[], (List.append_nil _).symm, by simp⟩, by simp⟩

end Metadata

namespace Resolver

/-- A lookup reports a rebinding if and only if it is not answered from the cache and the annotation
type is bound to another factory than the declaration, whose factory is served. It reports one then,
before anything is loaded. -/
def RebindsOnce (r : Resolver) (host : Host σ) (t : Tree) (use : UseId) (key : String)
    (query : Query) (w : World σ) : Prop :=
  ∃ added, (r.lookup host t use key query w).2.2.log = w.log ++ added ∧
    ((∃ e ∈ added, e.event.isRebinding = true) ↔ r.cache.get? t.id use = none ∧
      ∃ annotationType factory, r.provider.Misbinds t use annotationType factory) ∧
    ∀ annotationType factory, r.cache.get? t.id use = none →
      r.provider.Misbinds t use annotationType factory →
        ∃ rest, added = ⟨r.settings.rebindingLevel, .rebinding annotationType factory⟩ :: rest ∧
          (∀ e ∈ rest, e.event.isRebinding = false) ∧
          ∀ log ∈ (r.provider.metadata host).logsAtLoads t r.settings use w,
            w.log ++ [⟨r.settings.rebindingLevel, .rebinding annotationType factory⟩] <+: log

theorem rebindsOnce (r : Resolver) (host : Host σ) (t : Tree) (use : UseId) (key : String)
    (query : Query) (w : World σ) : r.RebindsOnce host t use key query w := by
  have hlookup : (r.lookup host t use key query w).2.2 = (r.complete host t use w).2.2 := rfl
  rw [RebindsOnce, hlookup]
  cases hcache : r.cache.get? t.id use with
  | some a =>
    rw [complete_of_known hcache]
    refine ⟨[⟨.trace, .known use⟩], rfl, iff_of_false ?_ (fun h => by cases h.1),
      fun _ _ h => by cases h⟩
    rintro ⟨e, he, hrebinding⟩
    rw [List.mem_singleton.1 he] at hrebinding
    cases hrebinding
  | none =>
    rw [(r.complete_of_new hcache w).2]
    by_cases hmisbinds : ∃ annotationType factory, r.provider.Misbinds t use annotationType factory
    · obtain ⟨annotationType, factory, h⟩ := hmisbinds
      obtain ⟨⟨rest, hlog, hrest⟩, hlogs⟩ :=
        Metadata.watched_resolve host r.settings w h
      rw [(Metadata.noting_alike (fun log _ _ => log) (r.provider.metadata host) t r.settings
        use).after ⟨rfl, rfl⟩ |>.2,
        List.append_assoc] at hlog
      refine ⟨_, hlog, iff_of_true ⟨_, List.mem_cons_self, rfl⟩ ⟨rfl, annotationType, factory, h⟩, ?_⟩
      intro annotationType' factory' _ h'
      obtain ⟨g, hg, rfl, rfl, -, -⟩ := Provider.misbinds_iff.1 h
      obtain ⟨g', hg', rfl, rfl, -, -⟩ := Provider.misbinds_iff.1 h'
      obtain rfl : g = g' := Except.ok.inj (hg.symm.trans hg')
      exact ⟨rest, rfl, hrest, hlogs⟩
    · have hnone (annotationType : TypeReference) (factory : Factory) :
          ¬r.provider.Misbinds t use annotationType factory :=
        fun h => hmisbinds ⟨annotationType, factory, h⟩
      obtain ⟨added, hlog, hadded⟩ := Metadata.quiet_resolve host r.settings w hnone
      refine ⟨added, hlog, iff_of_false ?_ fun h => hmisbinds h.2, fun _ _ _ h => ?_⟩
      · rintro ⟨e, he, hrebinding⟩
        rw [hadded e he] at hrebinding
        cases hrebinding
      · exact absurd ⟨_, _, h⟩ hmisbinds

end Resolver

end AnnotationLookup
