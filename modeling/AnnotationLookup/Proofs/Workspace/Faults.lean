import AnnotationLookup.Proofs.Provider.Faults
import AnnotationLookup.Proofs.Workspace.Transparency

/-!
# Faults that pass

While loaders fail to link at times, a lookup either fails for that, and leaves no trace in the cache,
or gives the answer that it would give without any fault.

* `Workspace.inWorld`: the same trees and resolvers in another world;
* `Workspace.Behind`: a workspace after faults beside the one without them, which may have cached
  more;
* `Workspace.Behind.step`, `Workspace.Behind.run`: lookups in both;
* `Workspace.run_replicate_of_failsNext`: one lookup, repeated until the faults have passed;
* **`Workspace.faults_pass`**: the main statement.
-/

namespace AnnotationLookup

variable {σ : Type} {host : Host σ} {I : σ → Prop} {universes : LoaderId → Universe}

/-! ## Lookups with faults and without -/

/-- A resolver after faults, and the same resolver without them. What the second one has cached for
one of the trees and the first one has not is what comes of its resolution. -/
structure Resolver.Behind (universes : LoaderId → Universe) (trees : List Tree) (r r' : Resolver) :
    Prop where
  provider : r'.provider = r.provider
  settings : r'.settings = r.settings
  cache : ∀ t ∈ trees, ∀ use, r'.cache.get? t.id use = r.cache.get? t.id use ∨
    r.cache.get? t.id use = none ∧ ∃ a, r'.cache.get? t.id use = some a ∧
      ∀ w : World Unit, Task.outcome
        ((r.provider.metadata (Universe.host universes)).resolve t r.settings use) w = .ok a

namespace Resolver.Behind

variable {trees : List Tree} {r r' : Resolver}

theorem outcome_complete (h : r.Behind universes trees r') {t : Tree} (ht : t ∈ trees) {use : UseId}
    (hnew : r.cache.get? t.id use = none) (w : World Unit) :
    (r'.complete (Universe.host universes) t use w).1 =
      Task.outcome ((r.provider.metadata (Universe.host universes)).resolve t r.settings use) w := by
  unfold Resolver.complete
  rw [h.provider, h.settings]
  rcases h.cache t ht use with hsame | ⟨-, a, ha, hresolve⟩
  · exact (Metadata.complete_of_new (hsame.trans hnew) w).1
  · rw [Metadata.complete_of_known ha, hresolve w]

/-- A completion after faults fails to link and leaves the resolver as it was, or comes to what it
comes to without faults. -/
theorem complete (h : r.Behind universes trees r')
    (hids : ∀ t ∈ trees, ∀ t' ∈ trees, t'.id = t.id → t' = t) (faulty : host.Faulty I universes)
    {t : Tree} (ht : t ∈ trees) (use : UseId) {w : World σ} (hw : I w.host) (w' : World Unit) :
    ((∃ cause : Cause, cause.IsLinkage ∧ (r.complete host t use w).1 = .error cause ∧
        (r.complete host t use w).2.1 = r) ∨
      (r.complete host t use w).1 = (r'.complete (Universe.host universes) t use w').1) ∧
    (r.complete host t use w).2.1.Behind universes trees
      (r'.complete (Universe.host universes) t use w').2.1 ∧
    I (r.complete host t use w).2.2.host := by
  cases hknown : r.cache.get? t.id use with
  | some a =>
    have hknown' : r'.cache.get? t.id use = some a := by
      rcases h.cache t ht use with hsame | ⟨hnone, -⟩
      · exact hsame.trans hknown
      · rw [hnone] at hknown
        cases hknown
    rw [Resolver.complete_of_known hknown, Resolver.complete_of_known hknown']
    exact ⟨.inr rfl, h, hw⟩
  | none =>
    have hcalm := h.outcome_complete ht hknown w'
    obtain ⟨houtcome, hafter⟩ := r.complete_of_new hknown w
    obtain ⟨hresolve, hI⟩ := faulty.resolve r.provider t r.settings use hw w'
    rw [← houtcome, ← hcalm] at hresolve
    refine ⟨hresolve.imp_left fun ⟨cause, hlinkage, hcause⟩ =>
      ⟨cause, hlinkage, hcause, Resolver.eq_of_complete_error hcause⟩, ?_, by rwa [hafter]⟩
    refine ⟨h.provider, h.settings, fun u hu use' => ?_⟩
    rw [Resolver.get?_complete, Resolver.get?_complete]
    by_cases hkey : (u.id, use') = (t.id, use)
    · obtain ⟨hid, rfl⟩ := Prod.mk.inj hkey
      obtain rfl : u = t := hids t ht u hu hid
      rw [if_pos rfl, if_pos rfl]
      rcases hresolve with ⟨cause, -, hcause⟩ | heq
      · cases hq : (r'.complete (Universe.host universes) u use' w').1 with
        | ok a =>
          refine .inr ⟨by rw [hcause]; rfl, a, rfl, fun w₁ => ?_⟩
          exact (Universe.outcome_resolve r.provider u r.settings use' w₁ w').trans
            (hcalm.symm.trans hq)
        | error _ => exact .inl (by rw [hcause]; rfl)
      · exact .inl (by rw [heq])
    · rw [if_neg hkey, if_neg hkey]
      exact h.cache u hu use'

end Resolver.Behind

namespace Workspace

/-- The same trees and resolvers in another world. -/
def inWorld {σ' : Type} (ws : Workspace σ) (w : World σ') : Workspace σ' :=
  { trees := ws.trees, resolvers := ws.resolvers, world := w }

/-- A workspace after faults, and the same one without them. -/
structure Behind (universes : LoaderId → Universe) (ws : Workspace σ) (ws' : Workspace Unit) :
    Prop where
  trees : ws'.trees = ws.trees
  resolvers : ∀ i : Nat,
    Option.Rel (Resolver.Behind universes ws.trees) ws.resolvers[i]? ws'.resolvers[i]?

theorem behind_inWorld (ws : Workspace σ) (w : World Unit) : Behind universes ws (ws.inWorld w) where
  trees := rfl
  resolvers i := by
    change Option.Rel _ ws.resolvers[i]? ws.resolvers[i]?
    cases ws.resolvers[i]? with
    | none => exact .none
    | some r => exact .some ⟨rfl, rfl, fun _ _ _ => .inl rfl⟩

variable {ws : Workspace σ} {ws' : Workspace Unit}

theorem Behind.step (h : Behind universes ws ws') (faulty : host.Faulty I universes)
    (hids : ∀ t ∈ ws.trees, ∀ t' ∈ ws.trees, t'.id = t.id → t' = t) (hw : I ws.world.host)
    (i k : Nat) (use : UseId) (key : String) (query : Query) :
    ((∃ cause : Cause, cause.IsLinkage ∧
        (ws.step host (.lookup i k use key query)).1 = .found (.error ⟨use, key, cause⟩) ∧
        (ws.step host (.lookup i k use key query)).2.resolvers = ws.resolvers) ∨
      (ws.step host (.lookup i k use key query)).1 =
        (ws'.step (Universe.host universes) (.lookup i k use key query)).1) ∧
    Behind universes (ws.step host (.lookup i k use key query)).2
      (ws'.step (Universe.host universes) (.lookup i k use key query)).2 ∧
    I (ws.step host (.lookup i k use key query)).2.world.host ∧
    (ws.step host (.lookup i k use key query)).2.trees = ws.trees := by
  have hresolvers := h.resolvers i
  simp only [Workspace.step, h.trees]
  generalize hr : ws.resolvers[i]? = o, hr' : ws'.resolvers[i]? = o' at hresolvers
  cases hresolvers with
  | none => exact ⟨.inr rfl, h, hw, rfl⟩
  | @some r r' hbehind =>
    cases ht : ws.trees[k]? with
    | none => exact ⟨.inr rfl, h, hw, rfl⟩
    | some t =>
      obtain ⟨houtcome, hafter, hI⟩ :=
        hbehind.complete hids faulty (List.mem_of_getElem? ht) use hw ws'.world
      refine ⟨houtcome.imp ?_ ?_, ⟨rfl, rel_getElem?_set h.resolvers hafter i⟩, hI, rfl⟩
      · rintro ⟨cause, hlinkage, hcause, hsame⟩
        refine ⟨cause, hlinkage, ?_, ?_⟩
        · simp only [Resolver.lookup, hcause]
          rfl
        · change ws.resolvers.set i (r.complete host t use ws.world).2.1 = ws.resolvers
          obtain ⟨hlt, rfl⟩ := List.getElem?_eq_some_iff.1 hr
          rw [hsame, List.set_getElem_self]
      · intro heq
        simp only [Resolver.lookup, heq]

theorem Behind.run (h : Behind universes ws ws') (faulty : host.Faulty I universes)
    (hids : ∀ t ∈ ws.trees, ∀ t' ∈ ws.trees, t'.id = t.id → t' = t) (hw : I ws.world.host)
    {cs : List Command} (hcs : ∀ c ∈ cs, c.isLookup = true) :
    Behind universes (ws.run host cs).2 (ws'.run (Universe.host universes) cs).2 ∧
      I (ws.run host cs).2.world.host ∧ (ws.run host cs).2.trees = ws.trees := by
  induction cs generalizing ws ws' with
  | nil => exact ⟨h, hw, rfl⟩
  | cons c cs ih =>
    obtain ⟨i, k, use, key, query, rfl⟩ := Command.exists_of_isLookup (hcs c List.mem_cons_self)
    obtain ⟨-, hafter, hI, htrees⟩ := h.step faulty hids hw i k use key query
    obtain ⟨hend, hIend, htrees'⟩ := ih hafter (by rwa [htrees]) hI fun d hd =>
      hcs d (List.mem_cons_of_mem _ hd)
    exact ⟨hend, hIend, htrees'.trans htrees⟩

/-! ## Repeated lookups -/

section Repeated

variable {loader : LoaderId} {Left : Nat → σ → Prop} {i k : Nat} {r : Resolver} {t : Tree}
  {use : UseId} {key : String} {query : Query} {reply : Reply} {factory : Factory}

theorem resolvers_step_lookup (hr : ws.resolvers[i]? = some r) (ht : ws.trees[k]? = some t) :
    (ws.step host (.lookup i k use key query)).2.resolvers =
      ws.resolvers.set i (r.complete host t use ws.world).2.1 := by
  simp only [step, hr, ht]
  rfl

theorem trees_step_lookup :
    (ws.step host (.lookup i k use key query)).2.trees = ws.trees := by
  simp only [step]
  split <;> rfl

theorem run_replicate_of_complete {a : Completed} (hr : ws.resolvers[i]? = some r)
    (ht : ws.trees[k]? = some t) (hcomplete : (r.complete host t use ws.world).1 = .ok a)
    (hreply : a.reply t use key query = .ok reply) {m j : Nat} (hj : j < m) :
    (ws.run host (List.replicate m (.lookup i k use key query))).1[j]? =
      some (.found (.ok reply)) := by
  induction m generalizing ws r j with
  | zero => exact absurd hj (Nat.not_lt_zero j)
  | succ m ih =>
    rw [List.replicate_succ, run]
    cases j with
    | zero =>
      simp only [List.getElem?_cons_zero, step_lookup hr ht, Resolver.lookup, hcomplete]
      rw [Except.bind, hreply]
      rfl
    | succ j =>
      have hlt : i < ws.resolvers.length := (List.getElem?_eq_some_iff.1 hr).1
      have hr' : (ws.step host (.lookup i k use key query)).2.resolvers[i]? =
          some (r.complete host t use ws.world).2.1 := by
        rw [resolvers_step_lookup hr ht, List.getElem?_set_self hlt]
      have hknown : (r.complete host t use ws.world).2.1.cache.get? t.id use = some a := by
        rw [Resolver.get?_complete, if_pos rfl, hcomplete]
        rfl
      exact ih hr' (trees_step_lookup.symm ▸ ht) (by rw [Resolver.complete_of_known hknown])
        (Nat.lt_of_succ_lt_succ hj)

theorem step_lookup_of_complete_error {cause : Cause} (hr : ws.resolvers[i]? = some r)
    (ht : ws.trees[k]? = some t) (hcomplete : (r.complete host t use ws.world).1 = .error cause)
    (key : String) (query : Query) :
    (ws.step host (.lookup i k use key query)).1 = .found (.error ⟨use, key, cause⟩) ∧
      (ws.step host (.lookup i k use key query)).2.resolvers = ws.resolvers := by
  constructor
  · simp only [step_lookup hr ht, Resolver.lookup, hcomplete]
    rfl
  · obtain ⟨hlt, rfl⟩ := List.getElem?_eq_some_iff.1 hr
    rw [resolvers_step_lookup hr ht, Resolver.eq_of_complete_error hcomplete, List.set_getElem_self]

theorem exists_complete_of_failsNext_zero (h : host.FailsNext loader (universes loader) Left)
    (henclosing : t.enclosingFactory use = .ok factory)
    (hsingle : ∀ l ∈ r.provider.loadersOf factory, l = loader)
    (hnew : r.cache.get? t.id use = none) {w : World Unit}
    (hreply : (r.lookup (Universe.host universes) t use key query w).1 = .ok reply)
    {v : World σ} (hleft : Left 0 v.host) :
    ∃ a, (r.complete host t use v).1 = .ok a ∧ a.reply t use key query = .ok reply := by
  have houtcome : (r.complete host t use v).1 =
      (r.complete (Universe.host universes) t use w).1 := by
    rw [(r.complete_of_new hnew v).1, (r.complete_of_new hnew w).1]
    exact h.resolve_zero henclosing hsingle r.settings hleft w
  rw [Resolver.lookup] at hreply
  simp only [← houtcome] at hreply
  cases hc : (r.complete host t use v).1 with
  | error cause => rw [hc] at hreply; cases hreply
  | ok a =>
    rw [hc, Except.bind] at hreply
    cases ha : a.reply t use key query with
    | error cause => rw [ha] at hreply; cases hreply
    | ok reply' =>
      rw [ha] at hreply
      cases hreply
      exact ⟨a, rfl, ha⟩

/-- Of a lookup that is repeated, as many fail as calls are made to fail, and no more. -/
theorem run_replicate_of_failsNext (h : host.FailsNext loader (universes loader) Left)
    (henclosing : t.enclosingFactory use = .ok factory)
    (hsingle : ∀ l ∈ r.provider.loadersOf factory, l = loader)
    (hnew : r.cache.get? t.id use = none) {w : World Unit}
    (hreply : (r.lookup (Universe.host universes) t use key query w).1 = .ok reply)
    (hasks : r.provider.requests (Universe.host universes) t r.settings use w ≠ [])
    (hr : ws.resolvers[i]? = some r) (ht : ws.trees[k]? = some t) {n : Nat}
    (hleft : Left n ws.world.host) {m j : Nat} (hj : j < m) :
    (j < n → ∃ cause : Cause, cause.IsLinkage ∧
      (ws.run host (List.replicate m (.lookup i k use key query))).1[j]? =
        some (.found (.error ⟨use, key, cause⟩))) ∧
    (n ≤ j → (ws.run host (List.replicate m (.lookup i k use key query))).1[j]? =
      some (.found (.ok reply))) := by
  induction n generalizing ws m j with
  | zero =>
    refine ⟨fun hlt => absurd hlt (Nat.not_lt_zero j), fun _ => ?_⟩
    obtain ⟨a, hcomplete, ha⟩ :=
      exists_complete_of_failsNext_zero h henclosing hsingle hnew hreply hleft
    exact run_replicate_of_complete hr ht hcomplete ha hj
  | succ n ih =>
    cases m with
    | zero => exact absurd hj (Nat.not_lt_zero j)
    | succ m =>
      obtain ⟨cause, hlinkage, hcause, hafter⟩ := h.resolve_succ henclosing hsingle hleft hasks
      obtain ⟨hc, hworld⟩ := r.complete_of_new hnew ws.world
      obtain ⟨hanswer, hsame⟩ := step_lookup_of_complete_error hr ht (hc.trans hcause) key query
      rw [List.replicate_succ, run]
      cases j with
      | zero =>
        refine ⟨fun _ => ⟨cause, hlinkage, ?_⟩, fun hle => absurd hle (Nat.not_succ_le_zero n)⟩
        simp only [hanswer, List.getElem?_cons_zero]
      | succ j =>
        have hleft' : Left n (ws.step host (.lookup i k use key query)).2.world.host := by
          simp only [step, hr, ht]
          change Left n (r.complete host t use ws.world).2.2.host
          rwa [hworld]
        have hrest := ih (hsame.symm ▸ hr) (trees_step_lookup.symm ▸ ht) hleft'
          (Nat.lt_of_succ_lt_succ hj)
        exact ⟨fun hlt => hrest.1 (Nat.lt_of_succ_lt_succ hlt),
          fun hle => hrest.2 (Nat.le_of_succ_le_succ hle)⟩

end Repeated

/-- **Faults pass without a trace.** Some calls of loaders fail to link, and the others are answered
from class paths. Each lookup of a sequence then fails for that and leaves all caches as they were, or
gives the answer that it gives in the same sequence without faults. If the factory of a use is bound
to one loader, of which exactly the next `n` calls fail, then a lookup that succeeds without faults,
and not without that loader, fails `n` times when it is repeated, and succeeds from then on. -/
theorem faults_pass (host : Host σ) (universes : LoaderId → Universe) :
    (∀ (I : σ → Prop) (ws : Workspace σ) (w : World Unit) (cs : List Command),
      host.Faulty I universes → I ws.world.host →
      (∀ t ∈ ws.trees, ∀ t' ∈ ws.trees, t'.id = t.id → t' = t) →
      (∀ c ∈ cs, c.isLookup = true) →
      ∀ n i k use key query, cs[n]? = some (.lookup i k use key query) →
        (∃ cause : Cause, cause.IsLinkage ∧
          (ws.run host cs).1[n]? = some (.found (.error ⟨use, key, cause⟩)) ∧
          (ws.run host (cs.take (n + 1))).2.resolvers = (ws.run host (cs.take n)).2.resolvers) ∨
        (ws.run host cs).1[n]? = ((ws.inWorld w).run (Universe.host universes) cs).1[n]?) ∧
    ∀ (loader : LoaderId) (Left : Nat → σ → Prop) (ws : Workspace σ) (i k : Nat) (r : Resolver)
      (t : Tree) (use : UseId) (key : String) (query : Query) (reply : Reply) (factory : Factory)
      (w : World Unit) (n : Nat),
      host.FailsNext loader (universes loader) Left → Left n ws.world.host →
      ws.resolvers[i]? = some r → ws.trees[k]? = some t → r.cache.get? t.id use = none →
      t.enclosingFactory use = .ok factory →
      (∀ l ∈ r.provider.loadersOf factory, l = loader) →
      (r.lookup (Universe.host universes) t use key query w).1 = .ok reply →
      (∃ name, (loader, name) ∈
        r.provider.requests (Universe.host universes) t r.settings use w) →
      ∀ m j, j < m →
        (j < n → ∃ cause : Cause, cause.IsLinkage ∧
          (ws.run host (List.replicate m (.lookup i k use key query))).1[j]? =
            some (.found (.error ⟨use, key, cause⟩))) ∧
        (n ≤ j → (ws.run host (List.replicate m (.lookup i k use key query))).1[j]? =
          some (.found (.ok reply))) := by
  constructor
  · intro I ws w cs faulty hw hids hcs n i k use key query hc
    have hcs' : ∀ c ∈ cs.take n, c.isLookup = true := fun c hc => hcs c (List.mem_of_mem_take hc)
    obtain ⟨hbehind, hI, htrees⟩ := (ws.behind_inWorld w).run faulty hids hw hcs'
    rw [getElem?_run_of_getElem? host ws hc, run_take_succ host ws hc,
      getElem?_run_of_getElem? _ _ hc]
    rcases (hbehind.step faulty (by rwa [htrees]) hI i k use key query).1 with
      ⟨cause, hlinkage, hcause, hsame⟩ | heq
    · exact .inl ⟨cause, hlinkage, congrArg some hcause, hsame⟩
    · exact .inr (congrArg some heq)
  · intro loader Left ws i k r t use key query reply factory w n hfails hleft hr ht hnew henclosing
      hsingle hreply hasks m j hj
    obtain ⟨name, hname⟩ := hasks
    exact run_replicate_of_failsNext hfails henclosing hsingle hnew hreply
      (List.ne_nil_of_mem hname) hr ht hleft hj

open Sample in
/-- The sample program over a loader of which the next two calls fail. -/
def flaky : Workspace (List Loader) where
  trees := [tree abroad]
  resolvers := [{ provider := provider }]
  world := { host := [{ classes := classes, plan := ["first", "second"].map (some <| .linkage ·) }] }

open Sample in
/-- Two calls fail, and so do two lookups; those after them succeed. -/
theorem faults_pass_after_two :
    (∀ n, n < 3 → (∃ cause : Cause, cause.IsLinkage ∧
        (flaky.run Loader.host (List.replicate 3 (.lookup 0 0 ⟨0⟩ "port" .value))).1[n]? =
          some (.found (.error ⟨⟨0⟩, "port", cause⟩)) ∧
        (flaky.run Loader.host ((List.replicate 3 (.lookup 0 0 ⟨0⟩ "port" .value)).take
          (n + 1))).2.resolvers = (flaky.run Loader.host
            ((List.replicate 3 (.lookup 0 0 ⟨0⟩ "port" .value)).take n)).2.resolvers) ∨
      (flaky.run Loader.host (List.replicate 3 (.lookup 0 0 ⟨0⟩ "port" .value))).1[n]? =
        ((flaky.inWorld { host := () }).run (Universe.host fun id => [classes][id.index]?.getD {})
          (List.replicate 3 (.lookup 0 0 ⟨0⟩ "port" .value))).1[n]?) ∧
    ∀ m j, j < m →
      (j < 2 → ∃ cause : Cause, cause.IsLinkage ∧
        (flaky.run Loader.host (List.replicate m (.lookup 0 0 ⟨0⟩ "port" .value))).1[j]? =
          some (.found (.error ⟨⟨0⟩, "port", cause⟩))) ∧
      (2 ≤ j → (flaky.run Loader.host (List.replicate m (.lookup 0 0 ⟨0⟩ "port" .value))).1[j]? =
        some (.found (.ok (.value (.int 80))))) := by
  constructor
  · intro n hn
    have hunstable : Loader.Unstable [classes] flaky.world.host := by
      refine ⟨rfl, fun l hl fault hfault => ?_⟩
      rw [List.mem_singleton.1 hl] at hfault
      obtain ⟨message, -, hmessage⟩ := List.mem_map.1 hfault
      exact ⟨message, (Option.some.inj hmessage).symm⟩
    have hids : ∀ t ∈ flaky.trees, ∀ t' ∈ flaky.trees, t'.id = t.id → t' = t := by
      intro t ht t' ht' _
      rw [List.mem_singleton.1 ht, List.mem_singleton.1 ht']
    have hlookups : ∀ c ∈ List.replicate 3 (Command.lookup 0 0 ⟨0⟩ "port" .value),
        c.isLookup = true := by
      intro c hc
      rw [List.eq_of_mem_replicate hc]
      rfl
    exact (faults_pass Loader.host _).1 _ flaky { host := () } _ (Loader.faulty_host [classes])
      hunstable hids hlookups n 0 0 ⟨0⟩ "port" .value (List.getElem?_replicate_of_lt hn)
  · have hleft : Loader.Unlinked ⟨0⟩ classes 2 flaky.world.host :=
      ⟨_, rfl, rfl, ["first", "second"], rfl, rfl⟩
    have henclosing : (tree abroad).enclosingFactory ⟨0⟩ = .ok home := by rfl
    have hsingle : ∀ l ∈ provider.loadersOf home, l = ⟨0⟩ := by decide
    have hreply : (Resolver.lookup { provider := provider }
        (Universe.host fun id => [classes][id.index]?.getD {}) (tree abroad) ⟨0⟩ "port" .value
        { host := () }).1 = .ok (.value (.int 80)) :=
      Answer.found.inj (Answer.eq_of_atom? (.int 80) (by decide +kernel))
    have hasks : (⟨0⟩, "Route") ∈ provider.requests
        (Universe.host fun id => [classes][id.index]?.getD {}) (tree abroad) {} ⟨0⟩
        { host := () } := by decide +kernel
    exact (faults_pass Loader.host fun id => [classes][id.index]?.getD {}).2 ⟨0⟩ _ flaky 0 0
      { provider := provider } _ ⟨0⟩ "port" .value _ home { host := () } 2
      (Loader.failsNext_host ⟨0⟩ classes) hleft rfl rfl rfl henclosing hsingle hreply ⟨_, hasks⟩

end Workspace

end AnnotationLookup
