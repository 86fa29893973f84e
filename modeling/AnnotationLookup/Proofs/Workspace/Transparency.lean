import AnnotationLookup.Proofs.Provider.Resolution
import AnnotationLookup.Proofs.Sample
import AnnotationLookup.Proofs.Workspace.History

/-!
# Caches that cannot be told from their absence

Over loaders whose answers do not change, and a provider that reads compiled classes only, a lookup
gives the answer that it would give without a cache, whatever has been done to the trees since the
cached annotation was resolved.

* `Workspace.run_append`, `Workspace.getElem?_run`, `Workspace.getElem?_run_of_getElem?`: the answer
  to one command of a run;
* **`Workspace.run_lookup_eq_fresh`**: the main statement.
-/

namespace AnnotationLookup.Workspace

variable {σ : Type} (host : Host σ)

/-! ## Runs -/

theorem run_append (ws : Workspace σ) (cs ds : List Command) :
    ws.run host (cs ++ ds) =
      ((ws.run host cs).1 ++ ((ws.run host cs).2.run host ds).1,
        ((ws.run host cs).2.run host ds).2) := by
  induction cs generalizing ws with
  | nil => rfl
  | cons c cs ih => simp only [List.cons_append, run, ih]

theorem length_run (ws : Workspace σ) (cs : List Command) :
    (ws.run host cs).1.length = cs.length := by
  induction cs generalizing ws with
  | nil => rfl
  | cons c cs ih => simp only [run, List.length_cons, ih]

theorem getElem?_run (ws : Workspace σ) (before after : List Command) (c : Command) :
    (ws.run host (before ++ c :: after)).1[before.length]? =
      some ((ws.run host before).2.step host c).1 := by
  rw [run_append, List.getElem?_append_right (Nat.le_of_eq (ws.length_run host before)), length_run,
    Nat.sub_self]
  rfl

theorem getElem?_run_of_getElem? (ws : Workspace σ) {cs : List Command} {n : Nat} {c : Command}
    (hc : cs[n]? = some c) :
    (ws.run host cs).1[n]? = some ((ws.run host (cs.take n)).2.step host c).1 := by
  obtain ⟨hlt, hget⟩ := List.getElem?_eq_some_iff.1 hc
  have hsplit : cs = cs.take n ++ c :: cs.drop (n + 1) := by
    rw [← hget, ← List.drop_eq_getElem_cons hlt, List.take_append_drop]
  have hlength : (cs.take n).length = n := List.length_take_of_le (Nat.le_of_lt hlt)
  have hanswer := ws.getElem?_run host (cs.take n) (cs.drop (n + 1)) c
  rwa [← hsplit, hlength] at hanswer

theorem run_take_succ (ws : Workspace σ) {cs : List Command} {n : Nat} {c : Command}
    (hc : cs[n]? = some c) :
    (ws.run host (cs.take (n + 1))).2 = ((ws.run host (cs.take n)).2.step host c).2 := by
  obtain ⟨hlt, hget⟩ := List.getElem?_eq_some_iff.1 hc
  rw [List.take_succ_eq_append_getElem hlt, hget, run_append]
  rfl

/-! ## Transparency -/

variable {host} {I : σ → Prop}

theorem step_keeps (steady : host.Steady I) (ws : Workspace σ) (c : Command)
    (hw : I ws.world.host) : I (ws.step host c).2.world.host := by
  have h := step_change host ws c
  generalize (ws.step host c).2 = ws' at h
  cases h with
  | none _ => exact hw
  | addTree _ _ _ => exact hw
  | edit _ _ => exact hw
  | addResolver _ _ _ => exact hw
  | lookup _ _ _ _ _ => exact steady.complete_keeps _ _ _ hw

/-- The annotation is what a resolution without a cache gives, as long as this reads compiled classes
only. -/
def Resolvable (host : Host σ) (I : σ → Prop) (p : Provider) (t : Tree) (use : UseId)
    (a : Completed) : Prop :=
  p.sourceFree = true → ∃ settings w w', I w.host ∧
    (p.metadata host).resolve t settings use w = .ok a w'

/-- A resolution that succeeds once succeeds at any later time with the same annotation. -/
theorem Resolvable.resolve (steady : host.Steady I) {p : Provider} {t t' : Tree} {use : UseId}
    {a : Completed} (h : Resolvable host I p t use a) (free : p.sourceFree = true)
    (hgrows : t.Grows t') (settings : Settings) {w : World σ} (hw : I w.host) :
    ∃ w', (p.metadata host).resolve t' settings use w = .ok a w' := by
  obtain ⟨settings₀, w₀, w₁, hw₀, hr⟩ := h free
  obtain ⟨g, hg⟩ := Metadata.exists_target_of_resolve _ _ hr
  have halike := steady.resolve_alike ((hgrows.target hg).trans hg.symm)
    (fun hp => by rw [free] at hp; cases hp) settings₀ settings w₀ w ⟨hw₀, hw⟩
  rw [hr] at halike
  exact halike.exists_ok

theorem Later.resolvable (steady : host.Steady I) {w : World σ} (hw : I w.host) {ws : Workspace σ}
    (hlater : Later host (fun w => I w.host) (start w) ws) :
    ws.Backed (Resolvable host I) ∧ I ws.world.host := by
  refine ⟨hlater.backed hw (step_keeps steady) ?_ ?_, hlater.world (step_keeps steady) hw⟩
  · intro p t t' use a hgrows h free
    obtain ⟨w', hr⟩ := h.resolve steady free hgrows {} hw
    exact ⟨{}, w, w', hw, hr⟩
  · intro p t settings use a v v' hv hr _
    exact ⟨settings, v, v', hv, hr⟩

theorem backed_run (steady : host.Steady I) {w : World σ} (hw : I w.host) (cs : List Command) :
    ((start w).run host cs).2.Backed (Resolvable host I) ∧
      I ((start w).run host cs).2.world.host :=
  Later.resolvable steady hw (Later.refl.run cs)

/-- **A lookup gives the answer that it would give without a cache.** At any point of a run of
commands of all sorts, the answer of a resolver is that of a new one with the same provider on the
tree as it is by then. The loaders' answers do not change, and the provider reads compiled classes
only. -/
theorem run_lookup_eq_fresh (steady : host.Steady I) {w₀ : World σ} (h₀ : I w₀.host)
    (before after : List Command) {i k : Nat} {r : Resolver} {t : Tree}
    (hr : ((start w₀).run host before).2.resolvers[i]? = some r)
    (ht : ((start w₀).run host before).2.trees[k]? = some t) (free : r.provider.sourceFree = true)
    (use : UseId) (key : String) (query : Query) (settings : Settings) {w : World σ}
    (hw : I w.host) :
    ((start w₀).run host (before ++ .lookup i k use key query :: after)).1[before.length]? =
      some (.found (Resolver.lookup { provider := r.provider, settings := settings } host t use key
        query w).1) := by
  obtain ⟨hbacked, hworld⟩ := backed_run steady h₀ before
  rw [getElem?_run, step_lookup hr ht]
  generalize ((start w₀).run host before).2 = ws at *
  suffices hcomplete : (r.complete host t use ws.world).1 =
      (Resolver.complete { provider := r.provider, settings := settings } host t use w).1 by
    simp only [Resolver.lookup, hcomplete]
  cases ha : r.cache.get? t.id use with
  | some a =>
    obtain ⟨w', hresolve⟩ := (hbacked hr ht ha).resolve steady free .refl settings hw
    simp only [Resolver.complete, Metadata.complete_of_known ha]
    rw [Metadata.complete_of_ok rfl hresolve]
  | none =>
    have hnone : Cache.get? ({} : Cache Completed) t.id use = r.cache.get? t.id use := ha.symm
    have halike : Task.Alike (World.Hosts fun s s' => I s ∧ I s')
        ((r.provider.metadata host).resolve t r.settings use)
        ((r.provider.metadata host).resolve t settings use) :=
      steady.resolve_alike rfl (fun _ _ _ => rfl) _ _
    exact (Metadata.complete_alike hnone halike ⟨hworld, hw⟩).1

open Sample in
/-- A lookup after the tree has grown, of an annotation that was cached before. -/
theorem run_lookup_eq_fresh_after_growth : ∃ r t,
    ((start initial).run Loader.host declareMore).2.resolvers[0]? = some r ∧
      ((start initial).run Loader.host declareMore).2.trees[0]? = some t ∧
      (r.cache.get? t.id ⟨0⟩).isSome = true ∧
      ((start initial).run Loader.host (declareMore ++ [.lookup 0 0 ⟨0⟩ "port" .value])).1[7]? =
        some (.found (Resolver.lookup { provider := r.provider } Loader.host t ⟨0⟩ "port" .value
          initial).1) := by
  obtain ⟨r, hr⟩ : ∃ r, ((start initial).run Loader.host declareMore).2.resolvers[0]? = some r :=
    Option.isSome_iff_exists.1 (by decide +kernel)
  obtain ⟨t, ht⟩ : ∃ t, ((start initial).run Loader.host declareMore).2.trees[0]? = some t :=
    Option.isSome_iff_exists.1 (by decide +kernel)
  have hfree : (((start initial).run Loader.host declareMore).2.resolvers[0]?.map
      (·.provider.sourceFree)) = some true := by decide +kernel
  rw [hr] at hfree
  have hworld : Loader.Faultless [classes] initial.host := ⟨rfl, by simp [initial]⟩
  refine ⟨r, t, hr, ht, ?_, ?_⟩
  · have hcached : (((start initial).run Loader.host declareMore).2.resolvers[0]?.bind fun r =>
        ((start initial).run Loader.host declareMore).2.trees[0]?.map fun t =>
          (r.cache.get? t.id ⟨0⟩).isSome) = some true := by decide +kernel
    rw [hr, ht] at hcached
    exact Option.some.inj hcached
  · exact run_lookup_eq_fresh (Loader.steady_host [classes]) hworld declareMore [] hr ht
      (Option.some.inj hfree) ⟨0⟩ "port" .value {} hworld

end AnnotationLookup.Workspace
