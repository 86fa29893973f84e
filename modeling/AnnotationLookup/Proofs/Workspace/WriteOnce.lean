import AnnotationLookup.Proofs.Sample
import AnnotationLookup.Proofs.Workspace.History

/-!
# Resolutions that are written once

Whatever the loaders do, an annotation is cached by a lookup that resolves it and by nothing else.
From then on it is the same object, and lookups of it give the same answers without the provider.

* `Workspace.cached?`: the object that a resolver has cached for a use of a tree;
* `Resolver.Settled`: a use that is completed without any provider;
* `Workspace.Later.lookup_stable`: the answers for a cached annotation;
* **`Workspace.cached_write_once`**: the main statement.
-/

namespace AnnotationLookup

/-- The use is completed with `a` whatever stands in for the provider, in whatever world. -/
def Resolver.Settled (r : Resolver) (t : Tree) (use : UseId) (a : Completed) : Prop :=
  ∀ (σ : Type) (source : Metadata σ) (w : World σ), source.complete t r.settings r.cache use w =
    (.ok a, r.cache, { w with log := w.log ++ [⟨.trace, .known use⟩] })

theorem Resolver.settled_of_stored? {r : Resolver} {t : Tree} {use : UseId} {e : Nat × Completed}
    (h : r.cache.stored? t.id use = some e) : r.Settled t use e.2 :=
  fun _ _ _ => Metadata.complete_of_known (Cache.get?_of_stored? h)

namespace Workspace

variable {σ : Type} {host : Host σ} {ws ws' : Workspace σ} {i k : Nat} {use : UseId}
  {e : Nat × Completed}

/-- The object that resolver `i` has cached for a use of tree `k`, with the number of objects that
the resolver had cached before. -/
def cached? (ws : Workspace σ) (i k : Nat) (use : UseId) : Option (Nat × Completed) :=
  ws.resolvers[i]?.bind fun r => ws.trees[k]?.bind fun t => r.cache.stored? t.id use

theorem cached?_eq_some_iff : ws.cached? i k use = some e ↔
    ∃ r t, ws.resolvers[i]? = some r ∧ ws.trees[k]? = some t ∧
      r.cache.stored? t.id use = some e := by
  simp only [cached?, Option.bind_eq_some_iff]
  constructor
  · rintro ⟨r, hr, t, ht, he⟩
    exact ⟨r, t, hr, ht, he⟩
  · rintro ⟨r, t, hr, ht, he⟩
    exact ⟨r, hr, t, ht, he⟩

theorem cached?_eq {r : Resolver} {t : Tree} (hr : ws.resolvers[i]? = some r)
    (ht : ws.trees[k]? = some t) : ws.cached? i k use = r.cache.stored? t.id use := by
  rw [cached?, hr, Option.bind_some, ht, Option.bind_some]

/-- **What is cached stays the same object.** -/
theorem Continues.cached? (h : Continues ws ws') (he : ws.cached? i k use = some e) :
    ws'.cached? i k use = some e := by
  obtain ⟨r, t, hr, ht, he⟩ := cached?_eq_some_iff.1 he
  obtain ⟨t', ht', hgrows⟩ := h.trees ht
  obtain ⟨r', hr', -, -, hstored⟩ := h.resolvers hr
  rw [cached?_eq hr' ht', hgrows.id]
  exact hstored he

/-! ## What is written -/

/-- A use is written by the lookups that resolve it. -/
theorem cached?_step_iff (hc : ws.Consistent) (hnone : ws.cached? i k use = none) (c : Command)
    (a : Completed) : (∃ n, (ws.step host c).2.cached? i k use = some (n, a)) ↔
      ∃ key query r t w, c = .lookup i k use key query ∧ ws.resolvers[i]? = some r ∧
        ws.trees[k]? = some t ∧
        (r.provider.metadata host).resolve t r.settings use ws.world = .ok a w := by
  constructor
  · rintro ⟨n, he⟩
    obtain ⟨r', t', hr', ht', hstored⟩ := cached?_eq_some_iff.1 he
    obtain ⟨r, t, hr, ht, -, -, ha⟩ | ⟨key, query, r, w, hlookup, hr, ht, -, hw⟩ :=
      (step_change host ws c).cached_before hc hr' ht' (Cache.get?_of_stored? hstored)
    · rw [cached?_eq hr ht, Cache.stored?_eq_none_iff, ha] at hnone
      cases hnone
    · exact ⟨key, query, r, t', w, hlookup, hr, ht, hw⟩
  · rintro ⟨key, query, r, t, w, rfl, hr, ht, hw⟩
    rw [cached?_eq hr ht, Cache.stored?_eq_none_iff] at hnone
    have hlt : i < ws.resolvers.length := (List.getElem?_eq_some_iff.1 hr).1
    refine ⟨r.cache.size, ?_⟩
    have hr' : (ws.step host (.lookup i k use key query)).2.resolvers[i]? =
        some { r with cache := (r.cache.insert t.id use a).1 } := by
      simp only [step, hr, ht, Resolver.lookup, Resolver.complete, Metadata.complete_of_ok hnone hw,
        List.getElem?_set_self hlt]
    have ht' : (ws.step host (.lookup i k use key query)).2.trees[k]? = some t := by
      simp only [step, hr, ht]
    rw [cached?_eq hr' ht', Cache.stored?_insert, if_pos ⟨rfl, hnone⟩]

/-! ## What is read -/

variable {w₀ : World σ}

theorem backed_target (h : Later host (fun _ => True) (start w₀) ws) :
    ws.Backed fun _ t use _ => ∃ g, t.target use = .ok g := by
  refine h.backed trivial (fun _ _ _ => trivial) ?_ ?_
  · rintro p t t' use a hgrows ⟨g, hg⟩
    exact ⟨g, hgrows.target hg⟩
  · intro p t settings use a v v' _ hv
    exact Metadata.exists_target_of_resolve _ _ hv

theorem step_lookup_of_stored? {r : Resolver} {t : Tree} (hr : ws.resolvers[i]? = some r)
    (ht : ws.trees[k]? = some t) (he : r.cache.stored? t.id use = some e) (key : String)
    (query : Query) : (ws.step host (.lookup i k use key query)).1 =
      .found ((e.2.reply t use key query).mapError (⟨use, key, ·⟩)) ∧
        (ws.step host (.lookup i k use key query)).2.world.host = ws.world.host := by
  have hsettled := Resolver.settled_of_stored? he σ (r.provider.metadata host) ws.world
  simp only [step, hr, ht, Resolver.lookup, Resolver.complete, hsettled, Except.bind, and_self]

theorem step_lookup_of_cached? {r : Resolver} {t : Tree} (hr : ws.resolvers[i]? = some r)
    (ht : ws.trees[k]? = some t) {key : String} {query : Query}
    (he : (ws.step host (.lookup i k use key query)).2.cached? i k use = some e) :
    (ws.step host (.lookup i k use key query)).1 =
      .found ((e.2.reply t use key query).mapError (⟨use, key, ·⟩)) := by
  have hlt : i < ws.resolvers.length := (List.getElem?_eq_some_iff.1 hr).1
  have hstored : (r.complete host t use ws.world).2.1.cache.stored? t.id use = some e := by
    simpa only [step, hr, ht, Resolver.lookup, cached?, List.getElem?_set_self hlt,
      Option.bind_some] using he
  have hknown := Cache.get?_of_stored? hstored
  have hc := (r.provider.metadata host).completion t r.settings r.cache use ws.world
  simp only [step, hr, ht, Resolver.lookup]
  unfold Resolver.complete at hknown ⊢
  generalize (r.provider.metadata host).complete t r.settings r.cache use ws.world = p at hc hknown ⊢
  cases hc with
  | known h =>
    rw [h] at hknown
    cases hknown
    rfl
  | failed h _ =>
    rw [h] at hknown
    cases hknown
  | resolved h _ =>
    rw [Cache.get?_insert, if_pos rfl, h] at hknown
    cases hknown
    rfl

/-- A lookup that leaves the annotation cached is answered in the same way right afterwards. -/
theorem step_lookup_again {key : String} {query : Query}
    (he : (ws.step host (.lookup i k use key query)).2.cached? i k use = some e) :
    ((ws.step host (.lookup i k use key query)).2.step host (.lookup i k use key query)).1 =
      (ws.step host (.lookup i k use key query)).1 := by
  obtain ⟨r', t, hr', ht', hstored⟩ := cached?_eq_some_iff.1 he
  obtain ⟨r, hr, ht⟩ : ∃ r, ws.resolvers[i]? = some r ∧ ws.trees[k]? = some t := by
    simp only [step] at hr' ht'
    split at hr'
    · next r u hr hu =>
      simp only [hr, hu] at ht'
      obtain rfl : u = t := Option.some.inj ht'
      exact ⟨r, hr, hu⟩
    · next hunknown =>
      split at ht'
      · next r u hr hu => exact absurd hu (hunknown r u hr)
      · exact ⟨r', hr', ht'⟩
  rw [(step_lookup_of_stored? hr' ht' hstored key query).1, step_lookup_of_cached? hr ht he]

/-- **Lookups of a cached annotation give the same answers** for good. -/
theorem Later.lookup_stable (h : Later host (fun _ => True) (start w₀) ws)
    (h' : Later host (fun _ => True) ws ws') (he : ws.cached? i k use = some e) (key : String)
    (query : Query) : (ws'.step host (.lookup i k use key query)).1 =
      (ws.step host (.lookup i k use key query)).1 := by
  obtain ⟨r, t, hr, ht, hstored⟩ := cached?_eq_some_iff.1 he
  obtain ⟨r', t', hr', ht', hstored'⟩ := cached?_eq_some_iff.1 (h'.continues.cached? he)
  -- the tree has grown, but the factory of the site is still the same
  obtain ⟨u, hu, hgrows⟩ := h'.continues.trees ht
  obtain rfl : t' = u := Option.some.inj (ht'.symm.trans hu)
  obtain ⟨g, hg⟩ := backed_target h hr ht (Cache.get?_of_stored? hstored)
  have hfactory : t'.enclosingFactory use = t.enclosingFactory use := by
    rw [Tree.enclosingFactory_of_target hg, Tree.enclosingFactory_of_target (hgrows.target hg)]
  rw [(step_lookup_of_stored? hr' ht' hstored' key query).1,
    (step_lookup_of_stored? hr ht hstored key query).1,
    e.2.reply_of_enclosingFactory hfactory key query]

/-- **Resolutions are written once, and the answers are stable.** A use becomes cached in a lookup
whose resolution succeeds, whatever the lookup answers, and in nothing else. From then on it is the
same object, it is completed without a provider, the loaders are left alone, and each lookup that is
repeated gives the same answer. The loaders may do anything, and may change from outside. -/
theorem cached_write_once (host : Host σ) {w₀ : World σ}
    (h : Later host (fun _ => True) (start w₀) ws) (i k : Nat) (use : UseId) :
    (ws.cached? i k use = none → ∀ c a, (∃ n, (ws.step host c).2.cached? i k use = some (n, a)) ↔
      ∃ key query r t w, c = .lookup i k use key query ∧ ws.resolvers[i]? = some r ∧
        ws.trees[k]? = some t ∧
        (r.provider.metadata host).resolve t r.settings use ws.world = .ok a w) ∧
    (∀ key query e, (ws.step host (.lookup i k use key query)).2.cached? i k use = some e →
      ((ws.step host (.lookup i k use key query)).2.step host (.lookup i k use key query)).1 =
        (ws.step host (.lookup i k use key query)).1) ∧
    ∀ e, ws.cached? i k use = some e → ∀ ws', Later host (fun _ => True) ws ws' →
      ws'.cached? i k use = some e ∧
      (∃ r t, ws'.resolvers[i]? = some r ∧ ws'.trees[k]? = some t ∧ r.Settled t use e.2) ∧
      ∀ key query,
        (ws'.step host (.lookup i k use key query)).1 =
          (ws.step host (.lookup i k use key query)).1 ∧
        (ws'.step host (.lookup i k use key query)).2.world.host = ws'.world.host := by
  refine ⟨fun hnone c a => cached?_step_iff (h.consistent (consistent_start w₀)) hnone c a, ?_, ?_⟩
  · intro key query e he
    exact step_lookup_again he
  intro e he ws' h'
  have he' : ws'.cached? i k use = some e := h'.continues.cached? he
  obtain ⟨r, t, hr, ht, hstored⟩ := cached?_eq_some_iff.1 he'
  refine ⟨he', ⟨r, t, hr, ht, Resolver.settled_of_stored? hstored⟩, fun key query => ⟨?_, ?_⟩⟩
  · exact h.lookup_stable h' he key query
  · exact (step_lookup_of_stored? hr ht hstored key query).2

open Sample in
/-- A lookup of a cached annotation after all loaders have gone. -/
theorem cached_write_once_after_outage :
    Later Loader.host (fun _ => True) (start initial)
        ((start initial).run Loader.host declareMore).2 ∧
      ∃ e, ((start initial).run Loader.host declareMore).2.cached? 0 0 ⟨0⟩ = some e ∧
        (Workspace.step Loader.host
          { ((start initial).run Loader.host declareMore).2 with world := { host := [] } }
          (.lookup 0 0 ⟨0⟩ "value" .value)).1 =
        (((start initial).run Loader.host declareMore).2.step Loader.host
          (.lookup 0 0 ⟨0⟩ "value" .value)).1 := by
  have hlater : Later Loader.host (fun _ => True) (start initial)
      ((start initial).run Loader.host declareMore).2 := Later.refl.run declareMore
  obtain ⟨e, he⟩ :
      ∃ e, ((start initial).run Loader.host declareMore).2.cached? 0 0 ⟨0⟩ = some e :=
    Option.isSome_iff_exists.1 (by decide +kernel)
  refine ⟨hlater, e, he, ?_⟩
  have houtage := ((cached_write_once Loader.host hlater 0 0 ⟨0⟩).2.2 e he _
    (Later.refl.outside (w := { host := [] }) trivial)).2.2 "value" .value
  exact houtage.1

end Workspace

end AnnotationLookup
