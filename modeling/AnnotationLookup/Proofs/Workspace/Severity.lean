import Mathlib.Data.List.Forall2
import AnnotationLookup.Proofs.Resolver.Rebinding
import AnnotationLookup.Proofs.Workspace.WriteOnce

/-!
# Rebindings as warnings

The one setting decides how severe a rebinding is, and nothing else.

* `LogEntry.Regraded`, `World.Regraded`: logs that differ in the levels of rebindings;
* `Provider.regraded_resolve`, `Resolver.regraded_lookup`: a lookup goes alike under both settings;
* `Workspace.Regraded`: workspaces under both settings; `Workspace.Regraded.step`: one command;
* `Workspace.Regrades`, **`Workspace.settings_only_regrade`**: the main statement.
-/

namespace AnnotationLookup

variable {σ : Type} (host : Host σ)

/-! ## Logs -/

/-- The same event, which is a warning in the one log and not in the other if it is a rebinding. -/
inductive LogEntry.Regraded : LogEntry → LogEntry → Prop
  | same (level : Level) {event : Event} (h : event.isRebinding = false) :
    Regraded ⟨level, event⟩ ⟨level, event⟩
  | rebinding (annotationType : TypeReference) (factory : Factory) :
    Regraded ⟨.warn, .rebinding annotationType factory⟩ ⟨.debug, .rebinding annotationType factory⟩

/-- The same state of the host, and logs that differ in the levels of rebindings. -/
structure World.Regraded (w w' : World σ) : Prop where
  host : w'.host = w.host
  log : List.Forall₂ LogEntry.Regraded w.log w'.log

theorem World.Regraded.report {w w' : World σ} (h : w.Regraded w') {e e' : LogEntry}
    (he : e.Regraded e') :
    World.Regraded { w with log := w.log ++ [e] } { w' with log := w'.log ++ [e'] } :=
  ⟨h.host, List.rel_append h.log (.cons he .nil)⟩

/-! ## Resolutions -/

theorem regraded_report {ε : Type} (level : Level) {event : Event} (h : event.isRebinding = false) :
    Task.Alike World.Regraded (report level event : Task σ ε Unit) (report level event) :=
  fun _ _ hw => .ok () (hw.report (.same level h))

theorem Provider.regraded_ask (loader : LoaderId) (name : String) :
    Task.Alike World.Regraded (Provider.ask host loader name) (Provider.ask host loader name) := by
  rintro ⟨s, log⟩ ⟨s', log'⟩ ⟨hhost, hlog⟩
  obtain rfl : s' = s := hhost
  unfold Provider.ask
  generalize host.load loader name s' = answer
  obtain ⟨answer, s⟩ := answer
  cases answer with
  | ok c => exact .ok c ⟨rfl, hlog⟩
  | error e => exact .error e ⟨rfl, hlog⟩

/-- **A resolution goes alike under both settings.** -/
theorem Provider.regraded_resolve (p : Provider) (t : Tree) (use : UseId) :
    Task.Alike World.Regraded ((p.metadata host).resolve t ⟨true⟩ use)
      ((p.metadata host).resolve t ⟨false⟩ use) := by
  refine Metadata.resolve_alike (fun _ h => h) fun g hg => ⟨g, hg, ?_⟩
  refine Metadata.resolveTarget_alike_of_permit rfl rfl rfl rfl
    (fun level event h => regraded_report level h) ?_ fun name => ?_
  · refine Metadata.permit_congr Task.Alike.congruence rfl ?_
    split
    · exact .pure ()
    · exact fun _ _ hw => .ok () (hw.report (.rebinding _ _))
  · exact Provider.load_alike p p (.refl p) (fun r => regraded_report .trace rfl)
      (fun loader _ name => Provider.regraded_ask host loader name) (fun _ _ => rfl) name

/-! ## Workspaces -/

/-- The resolver under other settings. -/
def Resolver.withSettings (settings : Settings) (r : Resolver) : Resolver :=
  { r with settings := settings }

/-- Lookups give the same answer under both settings, and leave the same behind. -/
theorem Resolver.regraded_lookup (r : Resolver) (t : Tree) (use : UseId) (key : String)
    (query : Query) {w w' : World σ} (hw : w.Regraded w') :
    ((r.withSettings ⟨true⟩).lookup host t use key query w).1 =
        ((r.withSettings ⟨false⟩).lookup host t use key query w').1 ∧
      (∃ s : Resolver,
        ((r.withSettings ⟨true⟩).lookup host t use key query w).2.1 = s.withSettings ⟨true⟩ ∧
        ((r.withSettings ⟨false⟩).lookup host t use key query w').2.1 = s.withSettings ⟨false⟩) ∧
      ((r.withSettings ⟨true⟩).lookup host t use key query w).2.2.Regraded
        ((r.withSettings ⟨false⟩).lookup host t use key query w').2.2 := by
  have hknown : r.cache.get? t.id use = r.cache.get? t.id use := rfl
  obtain ⟨houtcome, hcache, hworld⟩ := Metadata.complete_alike_of hknown
    (regraded_report .trace rfl) (r.provider.regraded_resolve host t use) hw
  refine ⟨?_, ⟨{ r with cache := ((r.provider.metadata host).complete t ⟨true⟩ r.cache use w).2.1 },
    rfl, ?_⟩, hworld⟩
  · simp only [lookup, complete, withSettings, houtcome]
  · simp only [lookup, complete, withSettings, hcache rfl rfl]

/-- The command, with the settings for every resolver that it adds. -/
def Command.withSettings (settings : Settings) : Command → Command
  | .newResolver provider _ => .newResolver provider settings
  | c => c

namespace Workspace

/-- The same trees and resolvers, in one workspace with rebindings as warnings, and in the other one
without. -/
structure Regraded (ws ws' : Workspace σ) : Prop where
  trees : ws'.trees = ws.trees
  loud : ws.resolvers = ws'.resolvers.map (·.withSettings ⟨true⟩)
  quiet : ws'.resolvers = ws.resolvers.map (·.withSettings ⟨false⟩)
  world : ws.world.Regraded ws'.world

variable {ws ws' : Workspace σ}

theorem Regraded.addTree (h : ws.Regraded ws') (t : Tree) :
    (ws.addTree t).1 = (ws'.addTree t).1 ∧ (ws.addTree t).2.Regraded (ws'.addTree t).2 :=
  ⟨congrArg (fun trees : List Tree => Answer.added trees.length) h.trees.symm,
    congrArg (· ++ [t]) h.trees, h.loud, h.quiet, h.world⟩

theorem Regraded.addTree? (h : ws.Regraded ws') (t? : Option Tree) :
    (ws.addTree? t?).1 = (ws'.addTree? t?).1 ∧ (ws.addTree? t?).2.Regraded (ws'.addTree? t?).2 := by
  cases t? with
  | none => exact ⟨rfl, h⟩
  | some t => exact h.addTree t

theorem Regraded.length_resolvers (h : ws.Regraded ws') :
    ws.resolvers.length = ws'.resolvers.length := by
  rw [h.quiet, List.length_map]

theorem Regraded.resolvers (h : ws.Regraded ws') {i : Nat} :
    ws.resolvers[i]? = none ∧ ws'.resolvers[i]? = none ∨
      ∃ r : Resolver, ws.resolvers[i]? = some (r.withSettings ⟨true⟩) ∧
        ws'.resolvers[i]? = some (r.withSettings ⟨false⟩) := by
  cases hr : ws.resolvers[i]? with
  | none => exact .inl ⟨rfl, by rw [h.quiet, List.getElem?_map, hr, Option.map_none]⟩
  | some r =>
    have hquiet : ws'.resolvers[i]? = some (r.withSettings ⟨false⟩) := by
      rw [h.quiet, List.getElem?_map, hr, Option.map_some]
    rw [h.loud, List.getElem?_map, hquiet] at hr
    exact .inr ⟨r, hr ▸ rfl, hquiet⟩

theorem Regraded.lookup (h : ws.Regraded ws') (i k : Nat) (use : UseId) (key : String)
    (query : Query) :
    (ws.step host (.lookup i k use key query)).1 = (ws'.step host (.lookup i k use key query)).1 ∧
      (ws.step host (.lookup i k use key query)).2.Regraded
        (ws'.step host (.lookup i k use key query)).2 := by
  simp only [step, h.trees]
  obtain ⟨hnone, hnone'⟩ | ⟨r, hr, hr'⟩ := h.resolvers (i := i)
  · rw [hnone, hnone']
    exact ⟨rfl, h⟩
  · rw [hr, hr']
    cases ht : ws.trees[k]? with
    | none => exact ⟨rfl, h⟩
    | some t =>
      obtain ⟨hanswer, ⟨s, hs, hs'⟩, hworld⟩ :=
        r.regraded_lookup host t use key query h.world
      refine ⟨congrArg Answer.found hanswer, rfl, ?_, ?_, hworld⟩
      · change ws.resolvers.set i _ = (ws'.resolvers.set i _).map _
        rw [hs, hs', List.map_set, ← h.loud]
        rfl
      · change ws'.resolvers.set i _ = (ws.resolvers.set i _).map _
        rw [hs, hs', List.map_set, ← h.quiet]
        rfl

theorem Regraded.step (h : ws.Regraded ws') (c : Command) :
    (ws.step host (c.withSettings ⟨true⟩)).1 = (ws'.step host (c.withSettings ⟨false⟩)).1 ∧
      (ws.step host (c.withSettings ⟨true⟩)).2.Regraded
        (ws'.step host (c.withSettings ⟨false⟩)).2 := by
  have hid : ws'.nextId = ws.nextId := congrArg (fun trees : List Tree => TreeId.mk trees.length) h.trees
  cases c with
  | newTree =>
    simp only [Command.withSettings, Workspace.step, hid]
    exact h.addTree _
  | cloneTree k =>
    simp only [Command.withSettings, Workspace.step, hid, h.trees]
    split
    · exact h.addTree _
    · exact ⟨rfl, h⟩
  | copyTree k =>
    simp only [Command.withSettings, Workspace.step, hid, h.trees]
    split
    · exact h.addTree? _
    · exact ⟨rfl, h⟩
  | decodeTree document =>
    simp only [Command.withSettings, Workspace.step, hid]
    exact h.addTree? _
  | edit k e =>
    simp only [Command.withSettings, Workspace.step, h.trees]
    split
    · exact ⟨rfl, rfl, h.loud, h.quiet, h.world⟩
    · exact ⟨rfl, h⟩
  | newResolver p settings =>
    refine ⟨congrArg Answer.added h.length_resolvers, h.trees, ?_, ?_, h.world⟩
    · change ws.resolvers ++ _ = (ws'.resolvers ++ _).map _
      rw [List.map_append, ← h.loud]
      rfl
    · change ws'.resolvers ++ _ = (ws.resolvers ++ _).map _
      rw [List.map_append, ← h.quiet]
      rfl
  | lookup i k use key query => exact h.lookup host i k use key query

/-! ## Runs -/

/-- What two runs come to that differ in how severe rebindings are. -/
structure Regrades (p p' : List Answer × Workspace σ) : Prop where
  answers : p'.1 = p.1
  cached : ∀ i k use, p'.2.cached? i k use = p.2.cached? i k use
  /-- The state that the loaders share, with the requests to them. -/
  host : p'.2.world.host = p.2.world.host
  log : List.Forall₂ LogEntry.Regraded p.2.world.log p'.2.world.log

theorem Regraded.cached? (h : ws.Regraded ws') (i k : Nat) (use : UseId) :
    ws'.cached? i k use = ws.cached? i k use := by
  unfold Workspace.cached?
  rw [h.trees]
  obtain ⟨hnone, hnone'⟩ | ⟨r, hr, hr'⟩ := h.resolvers (i := i)
  · rw [hnone, hnone']
  · rw [hr, hr']
    rfl

/-- **The setting decides how severe rebindings are, and nothing else.** Under both settings, a run
gives the same answers, caches the same objects and makes the same requests, and its logs differ in the
levels of rebindings. A rebinding is reported by lookups that are not answered from the cache, once and
before anything is loaded. -/
theorem settings_only_regrade (host : Host σ) :
    (∀ (s : σ) (cs : List Command),
      Regrades
        ((start { host := (s, []) }).run host.recording (cs.map (·.withSettings ⟨true⟩)))
        ((start { host := (s, []) }).run host.recording (cs.map (·.withSettings ⟨false⟩)))) ∧
    ∀ (r : Resolver) (t : Tree) (use : UseId) (key : String) (query : Query) (w : World σ),
      r.RebindsOnce host t use key query w := by
  refine ⟨fun s cs => ?_, fun r t use key query w => r.rebindsOnce host t use key query w⟩
  have hstart : (start { host := (s, []) } : Workspace (σ × List (LoaderId × String))).Regraded
      (start { host := (s, []) }) :=
    ⟨rfl, rfl, rfl, rfl, .nil⟩
  obtain ⟨hanswers, hend⟩ := run_eq_of_steps (P := fun _ => True)
    (fun _ _ c h _ => h.step host.recording c) hstart fun c (_ : c ∈ cs) => trivial
  exact ⟨hanswers.symm, hend.cached?, hend.world.host, hend.world.log⟩

/-- Looks twice into an annotation whose type is bound abroad. -/
def lookTwice : List Command := Sample.declareMore ++ [.lookup 0 0 ⟨0⟩ "value" .value]

open Sample in
/-- The first lookup rebinds and asks for three classes, and the cache answers the second one. -/
theorem settings_only_regrade_abroad :
    Regrades
      ((start { host := (initial.host, []) }).run Loader.host.recording
        (lookTwice.map (·.withSettings ⟨true⟩)))
      ((start { host := (initial.host, []) }).run Loader.host.recording
        (lookTwice.map (·.withSettings ⟨false⟩))) ∧
      ((start { host := (initial.host, []) }).run Loader.host.recording
        (lookTwice.map (·.withSettings ⟨true⟩))).2.world.log.map
          (fun e => (e.level, e.event.isRebinding)) =
        [(.warn, true), (.trace, false), (.debug, false), (.trace, false), (.trace, false),
          (.trace, false)] :=
  ⟨(settings_only_regrade Loader.host).1 initial.host lookTwice, by decide +kernel⟩

end Workspace

end AnnotationLookup
