import AnnotationLookup.Proofs.Provider.Recording
import AnnotationLookup.Proofs.Sample
import AnnotationLookup.Proofs.Tree.Unbound
import AnnotationLookup.Proofs.Workspace.WriteOnce

/-!
# Factories that are isolated from each other

A lookup that is enclosed by a factory asks for nothing under another one. It cannot tell which
factories the references of its tree were bound to, nor what other factories are bound to.

* `Workspace.LikeFor`: workspaces that differ in such bindings only;
* `Workspace.LikeFor.step`: a lookup goes alike in them, and leaves them so;
* `Workspace.LikeFor.run`: sequences of lookups;
* **`Workspace.factory_isolation`**: the main statement.
-/

namespace AnnotationLookup

variable {σ : Type} (host : Host σ) {factory : Factory}

/-! ## Alike for one factory -/

/-- The same cache, and providers that agree on the factory. -/
structure Resolver.LikeFor (factory : Factory) (r r' : Resolver) : Prop where
  provider : r.provider.AgreesOn factory r'.provider
  cache : r'.cache = r.cache

/-- Workspaces that differ in the factories that references to annotation types and to the types of
parameters and fields are bound to, in the bindings of other factories, and in what is reported. -/
structure Workspace.LikeFor (factory : Factory) (ws ws' : Workspace σ) : Prop where
  trees : ∀ k : Nat,
    Option.Rel (fun t t' : Tree => t.unbound = t'.unbound) ws.trees[k]? ws'.trees[k]?
  resolvers : ∀ i : Nat, Option.Rel (Resolver.LikeFor factory) ws.resolvers[i]? ws'.resolvers[i]?
  host : ws'.world.host = ws.world.host

/-- A lookup of a use whose site, if the tree is there, belongs to a type of the factory. -/
inductive Command.EnclosedBy (factory : Factory) (trees : List Tree) : Command → Prop
  | lookup (i : Nat) {k : Nat} {use : UseId} (key : String) (query : Query)
    (h : ∀ t, trees[k]? = some t → t.enclosingFactory use = .ok factory) :
    EnclosedBy factory trees (.lookup i k use key query)

/-! ## One lookup -/

theorem Resolver.LikeFor.resolve_alike {r r' : Resolver} (h : r.LikeFor factory r') {t t' : Tree}
    (ht : t.unbound = t'.unbound) {use : UseId} (henclosing : t.enclosingFactory use = .ok factory) :
    Task.Alike (World.Hosts fun s s' => s' = s)
      ((r.provider.metadata host).resolve t r.settings use)
      ((r'.provider.metadata host).resolve t' r'.settings use) := by
  obtain ⟨bound, htarget⟩ := Tree.target_of_unbound ht use
  refine Metadata.resolve_alike (fun cause hg => ?_) fun g hg => ⟨g.boundTo bound, ?_, ?_⟩
  · rw [htarget, hg]
    rfl
  · rw [htarget, hg]
    rfl
  obtain rfl : g.enclosing.factory = factory :=
    Except.ok.inj ((Tree.enclosingFactory_of_target hg).symm.trans henclosing)
  refine Provider.resolveTarget_alike h.provider (fun loader _ name => ?_)
    (fun _ name => Provider.sourceClass?_of_unbound ht _ name) _ _ bound
  refine Host.ask_alike fun s s' hs => ?_
  subst hs
  exact ⟨rfl, rfl⟩

/-- Lookups of a use of the factory give the same answer, and leave the same cache and the same
loaders behind. -/
theorem Resolver.LikeFor.lookup {r r' : Resolver} (h : r.LikeFor factory r') {t t' : Tree}
    (ht : t.unbound = t'.unbound) {use : UseId} (henclosing : t.enclosingFactory use = .ok factory)
    (key : String) (query : Query) {w w' : World σ} (hw : w'.host = w.host) :
    (r.lookup host t use key query w).1 = (r'.lookup host t' use key query w').1 ∧
      (r.lookup host t use key query w).2.1.LikeFor factory
        (r'.lookup host t' use key query w').2.1 ∧
      (r'.lookup host t' use key query w').2.2.host =
        (r.lookup host t use key query w).2.2.host := by
  have hid : t'.id = t.id := (Tree.id_of_unbound ht).symm
  have hknown : r'.cache.get? t'.id use = r.cache.get? t.id use := by rw [h.cache, hid]
  obtain ⟨houtcome, hcache, hhost⟩ :=
    Metadata.complete_alike hknown (h.resolve_alike host ht henclosing) hw
  refine ⟨?_, ⟨h.provider, (hcache hid h.cache).symm⟩, hhost⟩
  have hreply (a : Completed) : a.reply t use key query = a.reply t' use key query :=
    a.reply_of_enclosingFactory (Tree.enclosingFactory_of_unbound ht use) key query
  simp only [Resolver.lookup, Resolver.complete, houtcome, hreply]

namespace Workspace

variable {ws ws' : Workspace σ}

theorem LikeFor.step (h : LikeFor factory ws ws') {c : Command}
    (hc : c.EnclosedBy factory ws.trees) :
    (ws.step host c).1 = (ws'.step host c).1 ∧
      LikeFor factory (ws.step host c).2 (ws'.step host c).2 ∧
      (ws.step host c).2.trees = ws.trees := by
  cases hc with
  | @lookup i k use key query henclosing =>
    have hresolvers := h.resolvers i
    have htrees := h.trees k
    simp only [Workspace.step]
    generalize hr : ws.resolvers[i]? = o, hr' : ws'.resolvers[i]? = o' at hresolvers
    generalize ht : ws.trees[k]? = u, ht' : ws'.trees[k]? = u' at htrees
    cases hresolvers with
    | none => exact ⟨rfl, h, rfl⟩
    | @some r r' hlike =>
      cases htrees with
      | none => exact ⟨rfl, h, rfl⟩
      | @some t t' hunbound =>
        obtain ⟨hanswer, hafter, hhost⟩ :=
          hlike.lookup host hunbound (henclosing t ht) key query h.host
        exact ⟨congrArg Answer.found hanswer,
          ⟨h.trees, rel_getElem?_set h.resolvers hafter i, hhost⟩, rfl⟩

/-! ## Sequences of lookups -/

theorem LikeFor.run (h : LikeFor factory ws ws') {cs : List Command}
    (hcs : ∀ c ∈ cs, c.EnclosedBy factory ws.trees) :
    (ws.run host cs).1 = (ws'.run host cs).1 ∧
      LikeFor factory (ws.run host cs).2 (ws'.run host cs).2 := by
  have hstep (v v' : Workspace σ) (c : Command) (hv : LikeFor factory v v' ∧ v.trees = ws.trees)
      (hc : c.EnclosedBy factory ws.trees) : (v.step host c).1 = (v'.step host c).1 ∧
        LikeFor factory (v.step host c).2 (v'.step host c).2 ∧
        (v.step host c).2.trees = ws.trees := by
    obtain ⟨hlike, htrees⟩ := hv
    rw [← htrees] at hc ⊢
    exact hlike.step host hc
  obtain ⟨hanswers, hend, -⟩ := run_eq_of_step hstep ⟨h, rfl⟩ hcs
  exact ⟨hanswers, hend⟩

theorem LikeFor.cached? (h : LikeFor factory ws ws') (i k : Nat) (use : UseId) :
    ws.cached? i k use = ws'.cached? i k use := by
  have hresolvers := h.resolvers i
  have htrees := h.trees k
  unfold Workspace.cached?
  generalize ws.resolvers[i]? = o, ws'.resolvers[i]? = o' at hresolvers
  generalize ws.trees[k]? = u, ws'.trees[k]? = u' at htrees
  cases hresolvers with
  | none => rfl
  | @some r r' hlike =>
    cases htrees with
    | none => rfl
    | @some t t' hunbound =>
      simp only [Option.bind_some, hlike.cache, Tree.id_of_unbound hunbound]

/-- **Factories are isolated.** While a use is resolved whose site belongs to a type of the factory,
every reference that is handed to the provider is bound to the factory, and only the loaders that
the factory is bound to are asked. Workspaces that differ in other bindings give the same answers to
sequences of lookups of such uses, cache the same objects, and make the same requests. -/
theorem factory_isolation (factory : Factory) :
    (∀ (p : Provider) (t : Tree) (settings : Settings) (use : UseId) (w : World σ),
      t.enclosingFactory use = .ok factory →
        (∀ r ∈ (p.metadata host).handed t settings use w, r.factory = factory) ∧
        ∀ q ∈ p.requests host t settings use w, q.1 ∈ p.loadersOf factory) ∧
    ∀ (ws ws' : Workspace (σ × List (LoaderId × String))) (cs : List Command),
      LikeFor factory ws ws' → (∀ c ∈ cs, c.EnclosedBy factory ws.trees) →
        (ws.run host.recording cs).1 = (ws'.run host.recording cs).1 ∧
        (∀ i k use, (ws.run host.recording cs).2.cached? i k use =
          (ws'.run host.recording cs).2.cached? i k use) ∧
        (ws.run host.recording cs).2.world.host = (ws'.run host.recording cs).2.world.host := by
  refine ⟨fun p t settings use w h => ⟨?_, ?_⟩, fun ws ws' cs hlike hcs => ?_⟩
  · exact (p.metadata host).factory_of_mem_handed h
  · exact p.mem_loadersOf_of_mem_requests host h
  · obtain ⟨hanswers, hend⟩ := hlike.run host.recording hcs
    exact ⟨hanswers, hend.cached?, hend.host.symm⟩

open Sample in
/-- Two workspaces in which the references are bound to different factories, and the factory that is
not asked for is bound to no loader and to one. -/
theorem factory_isolation_abroad :
    LikeFor home (watched provider abroad) (watched provider' home) ∧
      (tree abroad).enclosingFactory ⟨0⟩ = .ok home ∧
      (∀ r ∈ (provider.metadata Loader.host).handed (tree abroad) {} ⟨0⟩ initial,
        r.factory = home) ∧
      ((watched provider abroad).run Loader.host.recording
        [.lookup 0 0 ⟨0⟩ "port" .value]).2.world.host =
      ((watched provider' home).run Loader.host.recording
        [.lookup 0 0 ⟨0⟩ "port" .value]).2.world.host := by
  have henclosing : (tree abroad).enclosingFactory ⟨0⟩ = .ok home := by rfl
  have hagree : provider.AgreesOn home provider' := by
    change List.lookup home [(home, (⟨0⟩ : LoaderId))] =
      List.lookup home [(abroad, ⟨1⟩), (home, ⟨0⟩)]
    decide
  have hlike : LikeFor home (watched provider abroad) (watched provider' home) := by
    refine ⟨fun k => ?_, fun i => ?_, rfl⟩
    · cases k with
      | zero => exact .some rfl
      | succ k => exact .none
    · cases i with
      | zero => exact .some ⟨hagree, rfl⟩
      | succ i => exact .none
  refine ⟨hlike, henclosing, ?_, ?_⟩
  · exact ((factory_isolation Loader.host home).1 provider (tree abroad) {} ⟨0⟩ initial henclosing).1
  · refine ((factory_isolation Loader.host home).2 _ _ _ hlike fun c hc => ?_).2.2
    rw [List.mem_singleton.1 hc]
    refine .lookup 0 "port" .value fun t ht => ?_
    obtain rfl : tree abroad = t := Option.some.inj ht
    exact henclosing

end Workspace

end AnnotationLookup
