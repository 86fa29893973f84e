import AnnotationLookup.Proofs.Provider.Recording
import AnnotationLookup.Proofs.Sample
import AnnotationLookup.Proofs.Workspace.Overriding
import AnnotationLookup.Proofs.Workspace.Transparency

/-!
# Lookups in any order

Over loaders whose answers do not change, and while no tree is changed, lookups may change places. What a
single lookup asks the loaders for does depend on those before it, since it asks for nothing once its
annotation is cached. In total they ask for the same.

* `Resolver.complete_after`: a completion comes to the same before another one and after it;
* `Resolver.Like`, `Workspace.Like`: resolvers and workspaces that only the order of lookups tells apart;
* `Workspace.Like.step`: a lookup in two such workspaces;
* **`Workspace.like_swap`**: two lookups that change places;
* `Workspace.run_answers`: lookups are answered as if each were the first;
* `Workspace.like_of_perm`: what lookups in any order leave behind;
* **`Workspace.lookups_interchange`**: the main statement.
-/

namespace AnnotationLookup

variable {σ : Type} {host : Host σ} {I : σ → Prop}

/-! ## Loaders with a record -/

theorem Host.Steady.recording (steady : host.Steady I) : host.recording.Steady fun s => I s.1 where
  same loader name s s' h h' := steady.same loader name s.1 s'.1 h h'
  keeps loader name s h := steady.keeps loader name s.1 h

/-- Of hosts with records: the same has been asked for since the records were `before` and `before'`. -/
def Host.AskedAlike (I : σ → Prop) (before before' : List (LoaderId × String))
    (s s' : σ × List (LoaderId × String)) : Prop :=
  I s.1 ∧ I s'.1 ∧ ∃ asked, s.2 = before ++ asked ∧ s'.2 = before' ++ asked

/-- Resolutions of one use ask for the same at any time. -/
theorem Host.Steady.resolve_askedAlike (steady : host.Steady I) (p : Provider) (t : Tree)
    (settings settings' : Settings) (use : UseId) (before before' : List (LoaderId × String)) :
    Task.Alike (World.Hosts (Host.AskedAlike I before before'))
      ((p.metadata host.recording).resolve t settings use)
      ((p.metadata host.recording).resolve t settings' use) := by
  refine Metadata.resolve_alike (fun _ h => h) fun g hg => ⟨g, hg, ?_⟩
  refine Provider.resolveTarget_alike (.refl p) (fun loader _ name => ?_) (fun _ _ => rfl) _ _
    g.annotationType.factory
  refine Host.ask_alike fun s s' ⟨hs, hs', asked, hasked, hasked'⟩ => ?_
  refine ⟨steady.same loader name _ _ hs hs', steady.keeps loader name _ hs,
    steady.keeps loader name _ hs', asked ++ [(loader, name)], ?_, ?_⟩
  · rw [← List.append_assoc, ← hasked]
    rfl
  · rw [← List.append_assoc, ← hasked']
    rfl

/-! ## Resolvers -/

namespace Resolver

/-- Resolvers that know the same, whatever the order in which they learned it. -/
structure Like (r r' : Resolver) : Prop where
  provider : r'.provider = r.provider
  settings : r'.settings = r.settings
  cache : ∀ id use, r'.cache.get? id use = r.cache.get? id use

theorem Like.refl (r : Resolver) : r.Like r := ⟨rfl, rfl, fun _ _ => rfl⟩

theorem Like.trans {r r' r'' : Resolver} (h : r.Like r') (h' : r'.Like r'') : r.Like r'' :=
  ⟨h'.provider.trans h.provider, h'.settings.trans h.settings,
    fun id use => (h'.cache id use).trans (h.cache id use)⟩

variable {r r' : Resolver} {t t' : Tree} {use use' : UseId}

/-- Completions come to the same at any time, through resolvers that know as much of the use. -/
theorem outcome_complete_eq (steady : host.Steady I) (hprovider : r'.provider = r.provider)
    (hknown : r'.cache.get? t.id use = r.cache.get? t.id use) {w w' : World σ} (hw : I w.host)
    (hw' : I w'.host) :
    (r'.complete host t use w').1 = (r.complete host t use w).1 := by
  have halike : Task.Alike (World.Hosts fun s s' => I s ∧ I s')
      ((r.provider.metadata host).resolve t r.settings use)
      ((r'.provider.metadata host).resolve t r'.settings use) := by
    rw [hprovider]
    exact steady.resolve_alike rfl (fun _ _ _ => rfl) _ _
  exact (Metadata.complete_alike hknown halike ⟨hw, hw'⟩).1.symm

/-- **A completion comes to the same before another one and after it.** -/
theorem complete_after (steady : host.Steady I) (hids : t'.id = t.id → t' = t) {w v w' : World σ}
    (hw : I w.host) (hv : I v.host) (hw' : I w'.host) :
    ((r.complete host t use w).2.1.complete host t' use' v).1 =
      (r.complete host t' use' w').1 := by
  by_cases hkey : (t'.id, use') = (t.id, use)
  · obtain ⟨hid, rfl⟩ := Prod.mk.inj hkey
    obtain rfl := hids hid
    rw [outcome_complete_eq steady rfl rfl hw hw']
    cases hc : (r.complete host t' use' w).1 with
    | ok a =>
      have hknown : (r.complete host t' use' w).2.1.cache.get? t'.id use' = some a := by
        rw [get?_complete, if_pos rfl, hc]
        rfl
      rw [complete_of_known hknown]
    | error cause =>
      rw [eq_of_complete_error hc, outcome_complete_eq steady rfl rfl hw hv, hc]
  · refine outcome_complete_eq steady (by rfl) ?_ hw' hv
    rw [get?_complete, if_neg hkey]

theorem complete_askedAlike (steady : host.Steady I) (r r' : Resolver) (t : Tree) (use : UseId)
    (hprovider : r'.provider = r.provider)
    (hknown : r'.cache.get? t.id use = r.cache.get? t.id use)
    {w w' : World (σ × List (LoaderId × String))} (hw : I w.host.1) (hw' : I w'.host.1) :
    Host.AskedAlike I w.host.2 w'.host.2 (r.complete host.recording t use w).2.2.host
      (r'.complete host.recording t use w').2.2.host := by
  have halike : Task.Alike (World.Hosts (Host.AskedAlike I w.host.2 w'.host.2))
      ((r.provider.metadata host.recording).resolve t r.settings use)
      ((r'.provider.metadata host.recording).resolve t r'.settings use) := by
    rw [hprovider]
    exact steady.resolve_askedAlike _ t _ _ use _ _
  refine (Metadata.complete_alike hknown halike ?_).2.2
  exact ⟨hw, hw', [], (List.append_nil _).symm, (List.append_nil _).symm⟩

theorem Like.complete (h : r.Like r') (steady : host.Steady I) (t : Tree) (use : UseId)
    {w w' : World σ} (hw : I w.host) (hw' : I w'.host) :
    (r.complete host t use w).2.1.Like (r'.complete host t use w').2.1 := by
  refine ⟨h.provider, h.settings, fun id u => ?_⟩
  rw [get?_complete, get?_complete,
    outcome_complete_eq steady h.provider (h.cache _ _) hw hw', h.cache]

/-- Completions of two uses may change places. -/
theorem like_complete_swap (steady : host.Steady I) (r : Resolver) (hids : t'.id = t.id → t' = t)
    (hids' : t.id = t'.id → t = t') (hkey : (t'.id, use') ≠ (t.id, use)) {w v w' v' : World σ}
    (hw : I w.host) (hv : I v.host) (hw' : I w'.host) (hv' : I v'.host) :
    ((r.complete host t use w).2.1.complete host t' use' v).2.1.Like
      ((r.complete host t' use' w').2.1.complete host t use v').2.1 := by
  refine ⟨rfl, rfl, fun id u => ?_⟩
  rw [get?_complete, get?_complete, get?_complete, get?_complete,
    complete_after steady hids hw hv hw', complete_after steady hids' hw' hv' hw]
  by_cases h : (id, u) = (t'.id, use')
  · rw [if_pos h, if_pos h, if_neg (h ▸ hkey)]
  · rw [if_neg h, if_neg h]

end Resolver

/-! ## Workspaces -/

namespace Workspace

/-- Workspaces that only the order of lookups tells apart. What their loaders have been asked for is the
same in another order. -/
structure Like (I : σ → Prop) (ws ws' : Workspace (σ × List (LoaderId × String))) : Prop where
  trees : ws'.trees = ws.trees
  resolvers : ∀ i : Nat, Option.Rel Resolver.Like ws.resolvers[i]? ws'.resolvers[i]?
  host : I ws.world.host.1
  host' : I ws'.world.host.1
  requests : ws.world.host.2.Perm ws'.world.host.2

variable {ws ws' ws'' : Workspace (σ × List (LoaderId × String))}

theorem rel_refl (rs : List Resolver) (i : Nat) : Option.Rel Resolver.Like rs[i]? rs[i]? := by
  cases rs[i]? with
  | none => exact .none
  | some r => exact .some (.refl r)

theorem Like.refl (hw : I ws.world.host.1) : ws.Like I ws := ⟨rfl, rel_refl _, hw, hw, .refl _⟩

theorem Like.trans (h : ws.Like I ws') (h' : ws'.Like I ws'') : ws.Like I ws'' where
  trees := h'.trees.trans h.trees
  resolvers i := by
    have hr := h.resolvers i
    have hr' := h'.resolvers i
    generalize ws.resolvers[i]? = o, ws'.resolvers[i]? = o', ws''.resolvers[i]? = o'' at hr hr'
    cases hr with
    | none => exact hr'
    | some hlike =>
      cases hr' with
      | some hlike' => exact .some (hlike.trans hlike')
  host := h.host
  host' := h'.host'
  requests := h.requests.trans h'.requests

theorem Like.step (h : ws.Like I ws') (steady : host.Steady I) {c : Command}
    (hc : c.isLookup = true) :
    (ws.step host.recording c).1 = (ws'.step host.recording c).1 ∧
      (ws.step host.recording c).2.Like I (ws'.step host.recording c).2 := by
  obtain ⟨i, k, use, key, query, rfl⟩ := Command.exists_of_isLookup hc
  have hresolvers := h.resolvers i
  simp only [Workspace.step, h.trees]
  generalize ws.resolvers[i]? = o, ws'.resolvers[i]? = o' at hresolvers
  cases hresolvers with
  | none => exact ⟨rfl, h⟩
  | @some r r' hlike =>
    cases ws.trees[k]? with
    | none => exact ⟨rfl, h⟩
    | some t =>
      obtain ⟨hhost, hhost', asked, hasked, hasked'⟩ := Resolver.complete_askedAlike steady r r' t use
        hlike.provider (hlike.cache t.id use) h.host h.host'
      refine ⟨?_, rfl, rel_getElem?_set h.resolvers
        (hlike.complete steady.recording t use h.host h.host') i, hhost, hhost', ?_⟩
      · simp only [Resolver.lookup, Resolver.outcome_complete_eq steady.recording hlike.provider
          (hlike.cache t.id use) h.host h.host']
      · simp only [Resolver.lookup, hasked, hasked']
        exact h.requests.append_right asked

theorem Like.run (h : ws.Like I ws') (steady : host.Steady I) {cs : List Command}
    (hcs : ∀ c ∈ cs, c.isLookup = true) :
    (ws.run host.recording cs).1 = (ws'.run host.recording cs).1 ∧
      (ws.run host.recording cs).2.Like I (ws'.run host.recording cs).2 :=
  run_eq_of_step (fun _ _ _ hv hc => hv.step steady hc) h hcs

/-! ### Two lookups -/

section Lookups

variable {host : Host σ} {ws : Workspace σ} {i k : Nat}

/-- There is a resolver of the number, and a tree. -/
def Names (ws : Workspace σ) (i k : Nat) : Prop := i < ws.resolvers.length ∧ k < ws.trees.length

theorem Names.exists (h : ws.Names i k) :
    ∃ r t, ws.resolvers[i]? = some r ∧ ws.trees[k]? = some t :=
  ⟨_, _, List.getElem?_eq_getElem h.1, List.getElem?_eq_getElem h.2⟩

/-- The answer that what a completion comes to gives. -/
def answerOf (t : Tree) (use : UseId) (key : String) (query : Query)
    (outcome : Except Cause Completed) : Answer :=
  .found ((outcome.bind fun a => a.reply t use key query).mapError (⟨use, key, ·⟩))

/-- The workspace after a use has been completed through one of its resolvers. -/
def completed (host : Host σ) (ws : Workspace σ) (i : Nat) (r : Resolver) (t : Tree) (use : UseId) :
    Workspace σ :=
  { ws with
    resolvers := ws.resolvers.set i (r.complete host t use ws.world).2.1
    world := (r.complete host t use ws.world).2.2 }

theorem step_of_names {r : Resolver} {t : Tree} (hr : ws.resolvers[i]? = some r)
    (ht : ws.trees[k]? = some t) (use : UseId) (key : String) (query : Query) :
    ws.step host (.lookup i k use key query) =
      (answerOf t use key query (r.complete host t use ws.world).1,
        ws.completed host i r t use) := by
  simp only [step, hr, ht]
  rfl

theorem step_of_not_names (h : ¬ ws.Names i k) (use : UseId) (key : String) (query : Query) :
    ws.step host (.lookup i k use key query) = (.unknown, ws) := by
  simp only [step]
  split
  · next r t hr ht =>
    exact absurd ⟨(List.getElem?_eq_some_iff.1 hr).1, (List.getElem?_eq_some_iff.1 ht).1⟩ h
  · rfl

theorem names_step_iff {c : Command} (hc : c.isLookup = true) :
    (ws.step host c).2.Names i k ↔ ws.Names i k := by
  obtain ⟨j, l, use, key, query, rfl⟩ := Command.exists_of_isLookup hc
  by_cases h : ws.Names j l
  · obtain ⟨r, t, hr, ht⟩ := h.exists
    simp only [step_of_names hr ht, Names, completed, List.length_set]
  · rw [step_of_not_names h]

theorem trees_step (host : Host σ) (ws : Workspace σ) {c : Command} (hc : c.isLookup = true) :
    (ws.step host c).2.trees = ws.trees := by
  obtain ⟨j, l, use, key, query, rfl⟩ := Command.exists_of_isLookup hc
  by_cases h : ws.Names j l
  · obtain ⟨r, t, hr, ht⟩ := h.exists
    simp only [step_of_names hr ht, completed]
  · rw [step_of_not_names h]

end Lookups

theorem perm_of_askedAlike {w v w' v' : World (σ × List (LoaderId × String))}
    {before : List (LoaderId × String)}
    (hfirst : Host.AskedAlike I before v'.host.2 w.host v.host)
    (hsecond : Host.AskedAlike I w.host.2 before w'.host v'.host) : w'.host.2.Perm v.host.2 := by
  obtain ⟨-, -, asked, hw, hv⟩ := hfirst
  obtain ⟨-, -, asked', hw', hv'⟩ := hsecond
  rw [hw', hv, hw, hv', List.append_assoc, List.append_assoc]
  exact List.perm_append_comm.append_left before

section Swap

variable {i i' k k' : Nat} {r r' : Resolver} {t t' : Tree} {use use' : UseId}

theorem like_completed_of_ne (steady : host.Steady I) (hw : I ws.world.host.1) (hne : i' ≠ i)
    (r r' : Resolver) (t t' : Tree) (use use' : UseId) :
    ((ws.completed host.recording i r t use).completed host.recording i' r' t' use').Like I
      ((ws.completed host.recording i' r' t' use').completed host.recording i r t use) := by
  have hv := steady.recording.complete_keeps r t use hw
  have hv' := steady.recording.complete_keeps r' t' use' hw
  have hfirst := Resolver.complete_askedAlike steady r r t use rfl rfl hw hv'
  have hsecond := Resolver.complete_askedAlike steady r' r' t' use' rfl rfl hv hw
  refine ⟨rfl, fun j => ?_, hsecond.1, hfirst.2.1, perm_of_askedAlike hfirst hsecond⟩
  simp only [completed, List.set_comm _ _ hne]
  exact rel_getElem?_set (rel_getElem?_set (rel_refl ws.resolvers)
    ((Resolver.Like.refl r).complete steady.recording t use hw hv') i)
    ((Resolver.Like.refl r').complete steady.recording t' use' hv hw) i' j

theorem like_completed_of_ne_use (steady : host.Steady I) (hw : I ws.world.host.1) (i : Nat)
    (r : Resolver) (hids : t'.id = t.id → t' = t) (hids' : t.id = t'.id → t = t')
    (hkey : (t'.id, use') ≠ (t.id, use)) :
    ((ws.completed host.recording i r t use).completed host.recording i
        (r.complete host.recording t use ws.world).2.1 t' use').Like I
      ((ws.completed host.recording i r t' use').completed host.recording i
        (r.complete host.recording t' use' ws.world).2.1 t use) := by
  have hv := steady.recording.complete_keeps r t use hw
  have hv' := steady.recording.complete_keeps r t' use' hw
  have hfirst := Resolver.complete_askedAlike steady r
    (r.complete host.recording t' use' ws.world).2.1 t use rfl
    (by rw [Resolver.get?_complete, if_neg (Ne.symm hkey)]) hw hv'
  have hsecond := Resolver.complete_askedAlike steady
    (r.complete host.recording t use ws.world).2.1 r t' use' rfl
    (by rw [Resolver.get?_complete, if_neg hkey]) hv hw
  refine ⟨rfl, fun j => ?_, hsecond.1, hfirst.2.1, perm_of_askedAlike hfirst hsecond⟩
  simp only [completed, List.set_set]
  exact rel_getElem?_set (rel_refl ws.resolvers)
    (Resolver.like_complete_swap steady.recording r hids hids' hkey hw hv hw hv') i j

end Swap

/-- **Two lookups may change places.** The second one has the answer that it would have as the first,
and in either order they leave workspaces that are alike. -/
theorem like_swap (steady : host.Steady I) (hw : I ws.world.host.1)
    (hids : ∀ t ∈ ws.trees, ∀ t' ∈ ws.trees, t'.id = t.id → t' = t) {c d : Command}
    (hc : c.isLookup = true) (hd : d.isLookup = true) :
    ((ws.step host.recording c).2.step host.recording d).1 = (ws.step host.recording d).1 ∧
      ((ws.step host.recording c).2.step host.recording d).2.Like I
        ((ws.step host.recording d).2.step host.recording c).2 := by
  obtain ⟨i, k, use, key, query, rfl⟩ := Command.exists_of_isLookup hc
  obtain ⟨i', k', use', key', query', rfl⟩ := Command.exists_of_isLookup hd
  have hkeeps (c : Command) : I (ws.step host.recording c).2.world.host.1 :=
    step_keeps steady.recording ws c hw
  -- a lookup that names no resolver or no tree changes nothing
  by_cases hnames : ¬ ws.Names i k
  · rw [step_of_not_names hnames, step_of_not_names (mt (names_step_iff hd).1 hnames)]
    exact ⟨rfl, .refl (hkeeps _)⟩
  by_cases hnames' : ¬ ws.Names i' k'
  · rw [step_of_not_names hnames', step_of_not_names (mt (names_step_iff hc).1 hnames')]
    exact ⟨rfl, .refl (hkeeps _)⟩
  obtain ⟨r, t, hr, ht⟩ := (Classical.not_not.1 hnames).exists
  obtain ⟨r', t', hr', ht'⟩ := (Classical.not_not.1 hnames').exists
  have hlt : i < ws.resolvers.length := (List.getElem?_eq_some_iff.1 hr).1
  have hmem := List.mem_of_getElem? ht
  have hmem' := List.mem_of_getElem? ht'
  have hv := steady.recording.complete_keeps r t use hw
  by_cases hi : i' = i
  · subst hi
    obtain rfl : r = r' := Option.some.inj (hr.symm.trans hr')
    have hsecond : (ws.completed host.recording i' r t use).resolvers[i']? =
        some (r.complete host.recording t use ws.world).2.1 := List.getElem?_set_self hlt
    have hsecond' : (ws.completed host.recording i' r t' use').resolvers[i']? =
        some (r.complete host.recording t' use' ws.world).2.1 := List.getElem?_set_self hlt
    simp only [step_of_names hr ht, step_of_names hr ht']
    rw [step_of_names hsecond ht', step_of_names hsecond' ht]
    constructor
    · exact congrArg (answerOf t' use' key' query')
        (Resolver.complete_after steady.recording (hids t hmem t' hmem') hw hv hw)
    · by_cases hkey : (t'.id, use') = (t.id, use)
      · obtain ⟨hid, rfl⟩ := Prod.mk.inj hkey
        obtain rfl := hids t hmem t' hmem' hid
        exact .refl (steady.recording.complete_keeps _ _ _ hv)
      · exact like_completed_of_ne_use steady hw i' r (hids t hmem t' hmem') (hids t' hmem' t hmem)
          hkey
  · have hsecond : (ws.completed host.recording i r t use).resolvers[i']? = some r' :=
      (List.getElem?_set_ne (Ne.symm hi)).trans hr'
    have hsecond' : (ws.completed host.recording i' r' t' use').resolvers[i]? = some r :=
      (List.getElem?_set_ne hi).trans hr
    simp only [step_of_names hr ht, step_of_names hr' ht']
    rw [step_of_names hsecond ht', step_of_names hsecond' ht]
    refine ⟨?_, like_completed_of_ne steady hw hi r r' t t' use use'⟩
    exact congrArg (answerOf t' use' key' query')
      (Resolver.outcome_complete_eq steady.recording rfl rfl hw hv)

/-! ### Batches of lookups -/

/-- Lookups are answered as if each of them were the first. -/
theorem run_answers (steady : host.Steady I) (hw : I ws.world.host.1)
    (hids : ∀ t ∈ ws.trees, ∀ t' ∈ ws.trees, t'.id = t.id → t' = t) {cs : List Command}
    (hcs : ∀ c ∈ cs, c.isLookup = true) :
    (ws.run host.recording cs).1 = cs.map fun c => (ws.step host.recording c).1 := by
  induction cs generalizing ws with
  | nil => rfl
  | cons c cs ih =>
    have hc := hcs c List.mem_cons_self
    have hrest : ∀ d ∈ cs, d.isLookup = true := fun d hd => hcs d (List.mem_cons_of_mem c hd)
    have hafter : ((ws.step host.recording c).2.run host.recording cs).1 =
        cs.map fun d => ((ws.step host.recording c).2.step host.recording d).1 :=
      ih (step_keeps steady.recording ws c hw) (ws.trees_step host.recording hc |>.symm ▸ hids) hrest
    simp only [run, hafter, List.map_cons, List.cons.injEq, true_and]
    exact List.map_congr_left fun d hd => (like_swap steady hw hids hc (hrest d hd)).1

/-- **Lookups in any order leave workspaces that are alike.** -/
theorem like_of_perm (steady : host.Steady I) (hw : I ws.world.host.1)
    (hids : ∀ t ∈ ws.trees, ∀ t' ∈ ws.trees, t'.id = t.id → t' = t) {cs cs' : List Command}
    (hperm : cs.Perm cs') (hcs : ∀ c ∈ cs, c.isLookup = true) :
    (ws.run host.recording cs).2.Like I (ws.run host.recording cs').2 := by
  induction hperm generalizing ws with
  | nil => exact .refl hw
  | cons c _ ih =>
    have htrees := ws.trees_step host.recording (hcs c List.mem_cons_self)
    exact ih (step_keeps steady.recording ws c hw) (htrees.symm ▸ hids)
      fun d hd => hcs d (List.mem_cons_of_mem c hd)
  | swap c d cs =>
    have hc := hcs c (List.mem_cons_of_mem d List.mem_cons_self)
    have hd := hcs d List.mem_cons_self
    exact ((like_swap steady hw hids hd hc).2.run steady fun e he =>
      hcs e (List.mem_cons_of_mem d (List.mem_cons_of_mem c he))).2
  | trans h _ ih ih' =>
    exact (ih hw hids hcs).trans (ih' hw hids fun c hc => hcs c (h.mem_iff.2 hc))

/-- **The order of lookups does not matter.** Through any providers over loaders whose answers do not
change, and while no tree is changed, a lookup has the same answer wherever it stands in a batch, and the
batch in any order leaves the same annotations cached for the same uses, and asks each loader for each
class as many times in total. Different trees have different identities, and the resolvers may know
anything beforehand. -/
theorem lookups_interchange (steady : host.Steady I) (hw : I ws.world.host.1)
    (hids : ∀ t ∈ ws.trees, ∀ t' ∈ ws.trees, t'.id = t.id → t' = t) {cs cs' : List Command}
    (hperm : cs.Perm cs') (hcs : ∀ c ∈ cs, c.isLookup = true) :
    (∀ (m n : Nat) c, cs[m]? = some c → cs'[n]? = some c →
      (ws.run host.recording cs).1[m]? = (ws.run host.recording cs').1[n]?) ∧
    (∀ i : Nat, (ws.run host.recording cs).2.resolvers[i]?.map (·.cache.get?) =
      (ws.run host.recording cs').2.resolvers[i]?.map (·.cache.get?)) ∧
    ∀ request, (ws.run host.recording cs).2.world.host.2.count request =
      (ws.run host.recording cs').2.world.host.2.count request := by
  have hlike := like_of_perm steady hw hids hperm hcs
  refine ⟨fun m n c hm hn => ?_, fun i => ?_, fun request => hlike.requests.count_eq request⟩
  · rw [run_answers steady hw hids hcs,
      run_answers steady hw hids fun c hc => hcs c (hperm.mem_iff.2 hc), List.getElem?_map,
      List.getElem?_map, hm, hn]
  · have hresolvers := hlike.resolvers i
    generalize (ws.run host.recording cs).2.resolvers[i]? = o,
      (ws.run host.recording cs').2.resolvers[i]? = o' at hresolvers ⊢
    cases hresolvers with
    | none => rfl
    | some h => exact congrArg some (funext fun id => funext fun use => (h.cache id use).symm)

open Sample in
/-- A lookup that succeeds and one of a use that is not there, in both orders. -/
theorem lookups_interchange_of_two :
    ((watched provider abroad).run Loader.host.recording
        [.lookup 0 0 ⟨0⟩ "port" .value, .lookup 0 0 ⟨1⟩ "port" .value]).1[0]? =
      ((watched provider abroad).run Loader.host.recording
        [.lookup 0 0 ⟨1⟩ "port" .value, .lookup 0 0 ⟨0⟩ "port" .value]).1[1]? ∧
    ∀ request, ((watched provider abroad).run Loader.host.recording
        [.lookup 0 0 ⟨0⟩ "port" .value, .lookup 0 0 ⟨1⟩ "port" .value]).2.world.host.2.count request =
      ((watched provider abroad).run Loader.host.recording
        [.lookup 0 0 ⟨1⟩ "port" .value, .lookup 0 0 ⟨0⟩ "port" .value]).2.world.host.2.count
          request := by
  have hworld : Loader.Faultless [classes] (watched provider abroad).world.host.1 :=
    ⟨rfl, by simp [watched, initial]⟩
  have hids : ∀ t ∈ (watched provider abroad).trees, ∀ t' ∈ (watched provider abroad).trees,
      t'.id = t.id → t' = t := by
    intro t ht t' ht' _
    rw [List.mem_singleton.1 ht, List.mem_singleton.1 ht']
  have hinterchange := lookups_interchange (Loader.steady_host [classes]) hworld hids
    (List.Perm.swap (.lookup 0 0 ⟨1⟩ "port" .value) (.lookup 0 0 ⟨0⟩ "port" .value) [])
    (by simp [Command.isLookup])
  exact ⟨hinterchange.1 0 1 _ rfl rfl, hinterchange.2.2⟩

end Workspace

end AnnotationLookup
