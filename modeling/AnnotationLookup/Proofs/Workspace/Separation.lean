import AnnotationLookup.Proofs.Workspace.Transparency
import AnnotationLookup.Proofs.Workspace.WriteOnce

/-!
# Trees that are separate from each other

Trees may share resolvers, and their uses may have equal ids. Still, what is done with other trees
makes no difference to the lookups of a tree and to what is cached for it.

* `Command.concerns`, `Workspace.concerning`: the commands of a run that may concern a tree;
* `Workspace.SameFor`: workspaces between which a tree cannot tell;
* `Workspace.SameFor.step`, `Workspace.SameFor.skip`: a command that concerns the tree, and one that
  does not;
* **`Workspace.trees_separate`**: the main statement.
-/

namespace AnnotationLookup

/-- A lookup of tree `k`. -/
def Command.looksInto (k : Nat) : Command → Bool
  | .lookup _ j _ _ _ => j == k
  | _ => false

/-- The command may concern tree `k`, while there are `n` trees. Lookups of other trees do not, and
neither do edits of other trees once tree `k` is there. -/
def Command.concerns (k n : Nat) : Command → Bool
  | .lookup _ j _ _ _ => j == k
  | .edit j _ => j == k || n ≤ k
  | _ => true

/-- The resolver that a command adds, if it adds one. -/
def Command.newResolvers : Command → List Resolver
  | .newResolver provider settings => [{ provider := provider, settings := settings }]
  | _ => []

theorem Command.concerns_of_looksInto {k : Nat} {c : Command} (h : c.looksInto k = true) (n : Nat) :
    c.concerns k n = true := by
  cases c with
  | lookup i j use key query => exact h
  | _ => cases h

/-- What a resolver knows that may concern a tree. -/
def Resolver.viewFor (id : TreeId) (r : Resolver) :
    Provider × Settings × (UseId → Option Completed) :=
  (r.provider, r.settings, r.cache.get? id)

namespace Workspace

variable {σ : Type} {host : Host σ} {I : σ → Prop} {k : Nat} {ws ws' : Workspace σ}

/-! ## Commands that are left -/

/-- The commands of a run that may concern tree `k`. -/
def concerning (host : Host σ) (k : Nat) (ws : Workspace σ) : List Command → List Command
  | [] => []
  | c :: cs =>
    if c.concerns k ws.trees.length then c :: concerning host k (ws.step host c).2 cs
    else concerning host k (ws.step host c).2 cs

/-- The answers to the lookups of tree `k`. -/
def answersOn (k : Nat) (cs : List Command) (answers : List Answer) : List Answer :=
  ((cs.zip answers).filter (·.1.looksInto k)).map (·.2)

/-- Workspaces between which tree `k` cannot tell. Before it is there, all trees are the same. -/
structure SameFor (I : σ → Prop) (k : Nat) (ws ws' : Workspace σ) : Prop where
  tree : ws'.trees[k]? = ws.trees[k]?
  earlier : ws.trees.length ≤ k → ws'.trees = ws.trees
  resolvers : ws'.resolvers.map (·.viewFor ⟨k⟩) = ws.resolvers.map (·.viewFor ⟨k⟩)
  hosts : I ws.world.host ∧ I ws'.world.host

theorem SameFor.refl (h : I ws.world.host) : SameFor I k ws ws := ⟨rfl, fun _ => rfl, rfl, h, h⟩

/-! ## What a command does to trees and resolvers -/

theorem step_trees_congr (h : ws'.trees = ws.trees) (c : Command) :
    (ws'.step host c).2.trees = (ws.step host c).2.trees := by
  cases c with
  | newTree => simp only [step, addTree, nextId, h]
  | cloneTree j =>
    simp only [step, nextId, h]
    split
    · simp only [addTree, h]
    · exact h
  | copyTree j =>
    simp only [step, nextId, h]
    split
    · next t _ => cases t.copy? ⟨ws.trees.length⟩ <;> simp only [addTree?, addTree, h]
    · exact h
  | decodeTree document =>
    simp only [step, nextId, h]
    cases Tree.ofJson? ⟨ws.trees.length⟩ document <;> simp only [addTree?, addTree, h]
  | edit j e =>
    simp only [step, h]
    split
    · rfl
    · exact h
  | newResolver provider settings => exact h
  | lookup i j use key query =>
    simp only [step]
    split <;> split <;> exact h

theorem getElem?_trees_step {t : Tree} (ht : ws.trees[k]? = some t) {c : Command}
    (hc : ∀ e, c ≠ .edit k e) : (ws.step host c).2.trees[k]? = some t := by
  have h := step_change host ws c
  generalize (ws.step host c).2 = v at h
  cases h with
  | none _ => exact ht
  | addTree _ u _ =>
    exact (List.getElem?_append_left (List.getElem?_eq_some_iff.1 ht).1).trans ht
  | @edit j u hu e =>
    have hjk : j ≠ k := by
      rintro rfl
      exact hc e rfl
    exact (List.getElem?_set_ne hjk).trans ht
  | addResolver _ _ _ => exact ht
  | lookup _ _ _ _ _ => exact ht

theorem getElem?_trees_edit {t : Tree} (ht : ws.trees[k]? = some t) (e : Edit) :
    (ws.step host (.edit k e)).2.trees[k]? = some (e.apply t).1 := by
  simp only [step, ht]
  exact List.getElem?_set_self (List.getElem?_eq_some_iff.1 ht).1

theorem length_trees_le_step (c : Command) :
    ws.trees.length ≤ (ws.step host c).2.trees.length := by
  have h := step_change host ws c
  generalize (ws.step host c).2 = v at h
  cases h with
  | addTree _ t _ => simp
  | edit ht e => simp
  | _ => exact Nat.le_refl _

theorem resolvers_step {c : Command} (hc : ∀ i j use key query, c ≠ .lookup i j use key query) :
    (ws.step host c).2.resolvers = ws.resolvers ++ c.newResolvers := by
  cases c with
  | newTree => exact (List.append_nil _).symm
  | cloneTree j =>
    simp only [step, Command.newResolvers, List.append_nil]
    split <;> rfl
  | copyTree j =>
    simp only [step, Command.newResolvers, List.append_nil]
    split
    · next t _ => cases t.copy? ws.nextId <;> rfl
    · rfl
  | decodeTree document =>
    simp only [step, Command.newResolvers, List.append_nil]
    cases Tree.ofJson? ws.nextId document <;> rfl
  | edit j e =>
    simp only [step, Command.newResolvers, List.append_nil]
    split <;> rfl
  | newResolver provider settings => rfl
  | lookup i j use key query => exact absurd rfl (hc i j use key query)

theorem viewFor_complete (r : Resolver) (t : Tree) (use : UseId) (w : World σ) (id : TreeId) :
    (r.complete host t use w).2.1.viewFor id =
      (r.provider, r.settings, fun use' => if (id, use') = (t.id, use) then
        (r.complete host t use w).1.toOption else r.cache.get? id use') := by
  refine Prod.ext rfl (Prod.ext rfl (funext fun use' => ?_))
  exact Metadata.get?_complete id use'

/-! ## Steps -/

theorem map_set_of_eq {α β : Type} {f : α → β} {l : List α} {i : Nat} {x y : α}
    (hx : l[i]? = some x) (hy : f y = f x) : (l.set i y).map f = l.map f := by
  refine List.ext_getElem? fun j => ?_
  rw [List.getElem?_map, List.getElem?_map, List.getElem?_set]
  split
  · next hij =>
    subst hij
    rw [if_pos (List.getElem?_eq_some_iff.1 hx).1, hx, Option.map_some, Option.map_some, hy]
  · rfl

theorem viewFor_step_lookup (hc : ws.Consistent) {i j : Nat} (hj : j ≠ k) (use : UseId) (key : String)
    (query : Query) : (ws.step host (.lookup i j use key query)).2.resolvers.map (·.viewFor ⟨k⟩) =
      ws.resolvers.map (·.viewFor ⟨k⟩) := by
  simp only [step]
  split
  · next r t hr ht =>
    have hview : (r.complete host t use ws.world).2.1.viewFor ⟨k⟩ = r.viewFor ⟨k⟩ := by
      rw [viewFor_complete]
      refine Prod.ext rfl (Prod.ext rfl (funext fun use' => if_neg fun heq => hj ?_))
      rw [hc.ids ht] at heq
      cases heq
      rfl
    exact map_set_of_eq hr hview
  · rfl

variable (host) in
/-- Where tree `k` cannot tell before a command, the tree is the same after it. -/
theorem SameFor.trees_step (h : SameFor I k ws ws') (c : Command) :
    (ws'.step host c).2.trees[k]? = (ws.step host c).2.trees[k]? ∧
      ((ws.step host c).2.trees.length ≤ k → (ws'.step host c).2.trees = (ws.step host c).2.trees) := by
  rcases Nat.lt_or_ge k ws.trees.length with hk | hk
  · have ht : ws.trees[k]? = some ws.trees[k] := List.getElem?_eq_getElem hk
    have ht' : ws'.trees[k]? = some ws.trees[k] := h.tree.trans ht
    have hle : ws.trees.length ≤ (ws.step host c).2.trees.length := length_trees_le_step c
    refine ⟨?_, fun hlate => absurd hk (by omega)⟩
    by_cases he : ∃ e, c = .edit k e
    · obtain ⟨e, rfl⟩ := he
      rw [getElem?_trees_edit ht, getElem?_trees_edit ht']
    · have hc (e : Edit) : c ≠ .edit k e := fun heq => he ⟨e, heq⟩
      rw [getElem?_trees_step ht hc, getElem?_trees_step ht' hc]
  · have htrees : (ws'.step host c).2.trees = (ws.step host c).2.trees :=
      step_trees_congr (h.earlier hk) c
    exact ⟨by rw [htrees], fun _ => htrees⟩

theorem SameFor.lookup (steady : host.Steady I) (hc : ws.Consistent) (h : SameFor I k ws ws')
    (i : Nat) (use : UseId) (key : String) (query : Query) :
    (ws'.step host (.lookup i k use key query)).1 = (ws.step host (.lookup i k use key query)).1 ∧
      (ws'.step host (.lookup i k use key query)).2.resolvers.map (·.viewFor ⟨k⟩) =
        (ws.step host (.lookup i k use key query)).2.resolvers.map (·.viewFor ⟨k⟩) := by
  have hview : (ws'.resolvers[i]?).map (·.viewFor ⟨k⟩) = (ws.resolvers[i]?).map (·.viewFor ⟨k⟩) := by
    rw [← List.getElem?_map, ← List.getElem?_map, h.resolvers]
  simp only [step, h.tree]
  cases hr : ws.resolvers[i]? with
  | none =>
    rw [hr, Option.map_none, Option.map_eq_none_iff] at hview
    simp only [hview]
    exact ⟨trivial, h.resolvers⟩
  | some r =>
    rw [hr, Option.map_some] at hview
    obtain ⟨r', hr', hview⟩ := Option.map_eq_some_iff.1 hview
    simp only [hr']
    cases ht : ws.trees[k]? with
    | none => exact ⟨rfl, h.resolvers⟩
    | some t =>
      obtain ⟨hprovider, hsettings, hcache⟩ : r'.provider = r.provider ∧ r'.settings = r.settings ∧
          r'.cache.get? ⟨k⟩ = r.cache.get? ⟨k⟩ := by
        simpa only [Resolver.viewFor, Prod.mk.injEq] using hview
      have hid : t.id = ⟨k⟩ := hc.ids ht
      have hknown : r.cache.get? t.id use = r'.cache.get? t.id use := by rw [hid, hcache]
      have houtcome : (r'.complete host t use ws'.world).1 = (r.complete host t use ws.world).1 := by
        rw [Resolver.complete, hprovider, hsettings]
        exact (Metadata.complete_alike hknown (steady.resolve_alike rfl (fun _ _ _ => rfl) _ _)
          h.hosts.symm).1
      constructor
      · simp only [Resolver.lookup, houtcome]
      · simp only [Resolver.lookup, List.map_set, viewFor_complete, hprovider, hsettings, hcache,
          houtcome, h.resolvers]

/-- **A command that concerns the tree**: the same answer to a lookup of it. -/
theorem SameFor.step (steady : host.Steady I) (hc : ws.Consistent) (h : SameFor I k ws ws')
    {c : Command} (hconcerns : c.concerns k ws.trees.length = true) :
    SameFor I k (ws.step host c).2 (ws'.step host c).2 ∧
      (c.looksInto k = true → (ws'.step host c).1 = (ws.step host c).1) := by
  obtain ⟨htree, hearlier⟩ := h.trees_step host c
  have hhosts := And.intro (step_keeps steady ws c h.hosts.1) (step_keeps steady ws' c h.hosts.2)
  by_cases hlookup : ∃ i j use key query, c = .lookup i j use key query
  · obtain ⟨i, j, use, key, query, rfl⟩ := hlookup
    obtain rfl : j = k := eq_of_beq hconcerns
    obtain ⟨hanswer, hresolvers⟩ := h.lookup steady hc i use key query
    exact ⟨⟨htree, hearlier, hresolvers, hhosts⟩, fun _ => hanswer⟩
  · have hother (i j use key query) : c ≠ .lookup i j use key query :=
      fun heq => hlookup ⟨i, j, use, key, query, heq⟩
    refine ⟨⟨htree, hearlier, ?_, hhosts⟩, fun hlooks => ?_⟩
    · rw [resolvers_step hother, resolvers_step hother, List.map_append, List.map_append, h.resolvers]
    · cases c with
      | lookup i j use key query => exact absurd rfl (hother i j use key query)
      | _ => cases hlooks

/-- **A command that does not concern the tree.** -/
theorem SameFor.skip (steady : host.Steady I) (hc : ws.Consistent) (h : SameFor I k ws ws')
    {c : Command} (hconcerns : c.concerns k ws.trees.length = false) :
    SameFor I k (ws.step host c).2 ws' := by
  have hhosts := And.intro (step_keeps steady ws c h.hosts.1) h.hosts.2
  cases c with
  | lookup i j use key query =>
    have hj : j ≠ k := by simpa [Command.concerns] using hconcerns
    have htrees : (ws.step host (.lookup i j use key query)).2.trees = ws.trees := by
      simp only [Workspace.step]
      split <;> rfl
    refine ⟨by rw [htrees, h.tree], fun hlate => ?_, ?_, hhosts⟩
    · rw [htrees] at hlate ⊢
      exact h.earlier hlate
    · rw [viewFor_step_lookup hc hj, h.resolvers]
  | edit j e =>
    obtain ⟨hj, hk⟩ : j ≠ k ∧ k < ws.trees.length := by simpa [Command.concerns] using hconcerns
    have ht : ws.trees[k]? = some ws.trees[k] := List.getElem?_eq_getElem hk
    have hle : ws.trees.length ≤ (ws.step host (.edit j e)).2.trees.length := length_trees_le_step _
    refine ⟨?_, fun hlate => absurd hk (by omega), ?_, hhosts⟩
    · rw [getElem?_trees_step ht fun e' heq => ?_, h.tree, ht]
      cases heq
      exact hj rfl
    · have hresolvers : (ws.step host (.edit j e)).2.resolvers = ws.resolvers ++ [] :=
        resolvers_step fun i j use key query => Command.noConfusion
      rw [hresolvers, List.append_nil, h.resolvers]
  | _ => cases hconcerns

/-! ## Runs -/

theorem answersOn_cons (k : Nat) (c : Command) (cs : List Command) (a : Answer) (as : List Answer) :
    answersOn k (c :: cs) (a :: as) =
      if c.looksInto k = true then a :: answersOn k cs as else answersOn k cs as := by
  simp only [answersOn, List.zip_cons_cons, List.filter_cons]
  split <;> rfl

theorem SameFor.run (steady : host.Steady I) (hc : ws.Consistent) (h : SameFor I k ws ws')
    (cs : List Command) :
    answersOn k cs (ws.run host cs).1 =
        answersOn k (concerning host k ws cs) (ws'.run host (concerning host k ws cs)).1 ∧
      SameFor I k (ws.run host cs).2 (ws'.run host (concerning host k ws cs)).2 := by
  induction cs generalizing ws ws' with
  | nil => exact ⟨rfl, h⟩
  | cons c cs ih =>
    have hc' : (ws.step host c).2.Consistent := (step_change host ws c).consistent hc
    rw [concerning]
    split
    · next hconcerns =>
      obtain ⟨hafter, hanswer⟩ := h.step steady hc hconcerns
      obtain ⟨hanswers, hend⟩ := ih hc' hafter
      refine ⟨?_, hend⟩
      simp only [Workspace.run, answersOn_cons, hanswers]
      split
      · next hlooks => rw [hanswer hlooks]
      · rfl
    · next hconcerns =>
      obtain ⟨hanswers, hend⟩ := ih hc' (h.skip steady hc (Bool.not_eq_true _ ▸ hconcerns))
      refine ⟨?_, hend⟩
      simp only [Workspace.run, answersOn_cons]
      rw [if_neg fun hlooks => hconcerns (Command.concerns_of_looksInto hlooks _), hanswers]

theorem SameFor.cached? (hc : ws.Consistent) (h : SameFor I k ws ws') (i : Nat) (use : UseId) :
    (ws.cached? i k use).map (·.2) = (ws'.cached? i k use).map (·.2) := by
  have hvalue (v : Workspace σ) (hid : ∀ t, v.trees[k]? = some t → t.id = ⟨k⟩) :
      (v.cached? i k use).map (·.2) = v.trees[k]?.bind fun _ =>
        (v.resolvers.map (·.viewFor ⟨k⟩))[i]?.bind (·.2.2 use) := by
    rw [Workspace.cached?, List.getElem?_map]
    cases hr : v.resolvers[i]? with
    | none => cases v.trees[k]? <;> rfl
    | some r =>
      cases ht : v.trees[k]? with
      | none => rfl
      | some t => exact (Cache.map_snd_stored? _ _ _).trans (by rw [hid t ht]; rfl)
  rw [hvalue ws fun t => hc.ids, hvalue ws' fun t ht => hc.ids (h.tree.symm.trans ht), h.tree,
    h.resolvers]

theorem cached?_of_new (hc : ws.Consistent) {n : Nat} (hn : ws.trees[n]? = none) (c : Command) (i : Nat)
    (use : UseId) : (ws.step host c).2.cached? i n use = none := by
  refine Option.eq_none_iff_forall_ne_some.2 fun e he => ?_
  obtain ⟨r', t', hr', ht', hstored⟩ := cached?_eq_some_iff.1 he
  obtain ⟨r, t, -, ht, -⟩ | ⟨key, query, r, w, -, -, ht, -⟩ :=
    (step_change host ws c).cached_before hc hr' ht' (Cache.get?_of_stored? hstored)
  · rw [hn] at ht
    cases ht
  · rw [hn] at ht
    cases ht

/-- **Trees are separate from each other**, also where they share resolvers. If all lookups of other
trees are left out of a run, and all edits of other trees from the time on that tree `k` is there, then
the lookups of tree `k` give the same answers, and the same is cached for it. All trees have identities
of their own, and nothing is cached for a tree that has just come into being, as a clone or
otherwise. The loaders' answers do not change. -/
theorem trees_separate (steady : host.Steady I) {w₀ : World σ} (h₀ : I w₀.host) (cs : List Command)
    (k : Nat) :
    answersOn k cs ((start w₀).run host cs).1 =
      answersOn k (concerning host k (start w₀) cs)
        ((start w₀).run host (concerning host k (start w₀) cs)).1 ∧
    (∀ i use, (((start w₀).run host cs).2.cached? i k use).map (·.2) =
      (((start w₀).run host (concerning host k (start w₀) cs)).2.cached? i k use).map (·.2)) ∧
    (∀ (i j : Nat) (t t' : Tree), ((start w₀).run host cs).2.trees[i]? = some t →
      ((start w₀).run host cs).2.trees[j]? = some t' → t.id = t'.id → i = j) ∧
    ∀ n : Nat, ((start w₀).run host cs).2.trees[n]? = none → ∀ c i use,
      (((start w₀).run host cs).2.step host c).2.cached? i n use = none := by
  have hlater : Later host (fun _ => True) (start w₀) ((start w₀).run host cs).2 := Later.refl.run cs
  have hc : ((start w₀).run host cs).2.Consistent := hlater.consistent (consistent_start w₀)
  obtain ⟨hanswers, hend⟩ := (SameFor.refl h₀ : SameFor I k (start w₀) (start w₀)).run steady
    (consistent_start w₀) cs
  refine ⟨hanswers, fun i use => hend.cached? hc i use, fun i j t t' ht ht' hid => ?_,
    fun n hn c i use => cached?_of_new hc hn c i use⟩
  rw [hc.ids ht, hc.ids ht'] at hid
  cases hid
  rfl

open Sample in
/-- A clone that differs from its original in what its second use is applied to. The use of this id
is cached for the original before the clone is looked into. -/
def diverge : List Command :=
  declare ++ [.cloneTree 0,
    .edit 0 (.annotate (.method ⟨0⟩) ⟨"Route", home⟩ none), .lookup 0 0 ⟨1⟩ "port" .value,
    .edit 1 (.annotate (.type ⟨0⟩) ⟨"Route", home⟩ none), .lookup 0 1 ⟨1⟩ "port" .value]

open Sample in
/-- The edit and the lookup of the original are left out, and the lookup of the clone is answered
alike. -/
theorem trees_separate_of_clone :
    Loader.Faultless [classes] initial.host ∧
    (concerning Loader.host 1 (start initial) diverge).length + 2 = diverge.length ∧
    (((start initial).run Loader.host diverge).2.cached? 0 0 ⟨1⟩).isSome = true ∧
    (((start initial).run Loader.host diverge).2.cached? 0 1 ⟨1⟩).isSome = false ∧
    answersOn 1 diverge ((start initial).run Loader.host diverge).1 =
      answersOn 1 (concerning Loader.host 1 (start initial) diverge)
        ((start initial).run Loader.host (concerning Loader.host 1 (start initial) diverge)).1 := by
  have hworld : Loader.Faultless [classes] initial.host := ⟨rfl, by simp [initial]⟩
  refine ⟨hworld, by decide +kernel, by decide +kernel, by decide +kernel, ?_⟩
  exact (trees_separate (Loader.steady_host [classes]) hworld diverge 1).1

end Workspace

end AnnotationLookup
