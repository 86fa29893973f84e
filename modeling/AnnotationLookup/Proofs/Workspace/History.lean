import AnnotationLookup.Proofs.Resolver.Completion
import AnnotationLookup.Workspace

/-!
# Histories of workspaces

* `Workspace.Change`, `Workspace.step_change`: all that a command can do to a workspace;
* `Workspace.run_eq_of_steps`, `Workspace.run_eq_of_step`: a relation between workspaces under which
  steps are answered alike;
* `Workspace.Later`: what a workspace may have become, while commands are given and the world
  outside changes as it likes;
* `Workspace.Consistent`: every tree has the identity of its number, and no cache knows of trees to
  come; **`Workspace.Later.consistent`**;
* `Workspace.Backed`, **`Workspace.Later.backed_of`**: what holds of an annotation when it is resolved,
  and is not lost while its tree grows, holds of every cached annotation.
-/

namespace AnnotationLookup

theorem Tree.id_of_ofJson? {id : TreeId} {document : Json} {t : Tree}
    (h : Tree.ofJson? id document = some t) : t.id = id := by
  unfold ofJson? Decoder.ofDocument? at h
  cases hd : document.depth with
  | zero => rw [hd] at h; cases h
  | succ depth =>
    rw [hd] at h
    unfold decode at h
    simp only [Option.bind_eq_bind, Option.bind_eq_some_iff] at h
    obtain ⟨fields, -, h⟩ := h
    split at h
    · simp only [Option.bind_eq_some_iff, Option.some.injEq] at h
      obtain ⟨_, -, _, -, _, -, _, -, rfl⟩ := h
      rfl
    · cases h

/-- The command is a lookup. -/
def Command.isLookup : Command → Bool
  | .lookup _ _ _ _ _ => true
  | _ => false

theorem Command.exists_of_isLookup {c : Command} (h : c.isLookup = true) :
    ∃ i k use key query, c = .lookup i k use key query := by
  cases c with
  | lookup i k use key query => exact ⟨i, k, use, key, query, rfl⟩
  | _ => cases h

namespace Workspace

variable {σ : Type} {host : Host σ} {ws ws' : Workspace σ}

/-! ## Changes -/

/-- What a command makes of a workspace. -/
inductive Change (host : Host σ) (ws : Workspace σ) : Command → Workspace σ → Prop
  | none (c : Command) : Change host ws c ws
  | addTree (c : Command) (t : Tree) (hid : t.id = ws.nextId) :
    Change host ws c { ws with trees := ws.trees ++ [t] }
  | edit {k : Nat} {t : Tree} (ht : ws.trees[k]? = some t) (e : Edit) :
    Change host ws (.edit k e) { ws with trees := ws.trees.set k (e.apply t).1 }
  | addResolver (c : Command) (provider : Provider) (settings : Settings) :
    Change host ws c
      { ws with resolvers := ws.resolvers ++ [{ provider := provider, settings := settings }] }
  | lookup {i k : Nat} {r : Resolver} {t : Tree} (hr : ws.resolvers[i]? = some r)
    (ht : ws.trees[k]? = some t) (use : UseId) (key : String) (query : Query) :
    Change host ws (.lookup i k use key query)
      { ws with
        resolvers := ws.resolvers.set i (r.complete host t use ws.world).2.1
        world := (r.complete host t use ws.world).2.2 }

theorem step_change (host : Host σ) (ws : Workspace σ) (c : Command) :
    ws.Change host c (ws.step host c).2 := by
  cases c with
  | newTree => exact .addTree _ _ rfl
  | cloneTree k =>
    simp only [step]
    split
    · exact .addTree _ _ rfl
    · exact .none _
  | copyTree k =>
    simp only [step]
    split
    · next t _ =>
      cases hc : t.copy? ws.nextId with
      | none => exact .none _
      | some t' => exact .addTree _ t' (Tree.id_of_ofJson? hc)
    · exact .none _
  | decodeTree document =>
    simp only [step]
    cases hc : Tree.ofJson? ws.nextId document with
    | none => exact .none _
    | some t => exact .addTree _ t (Tree.id_of_ofJson? hc)
  | edit k e =>
    simp only [step]
    split
    · next ht => exact .edit ht e
    · exact .none _
  | newResolver provider settings => exact .addResolver _ provider settings
  | lookup i k use key query =>
    simp only [step]
    split
    · next hr ht => exact .lookup hr ht use key query
    · exact .none _

theorem step_lookup {i k : Nat} {r : Resolver} {t : Tree} (hr : ws.resolvers[i]? = some r)
    (ht : ws.trees[k]? = some t) (use : UseId) (key : String) (query : Query) :
    (ws.step host (.lookup i k use key query)).1 =
      .found (r.lookup host t use key query ws.world).1 := by
  simp only [step, hr, ht]

theorem rel_getElem?_set {α β : Type} {R : α → β → Prop} {xs : List α} {ys : List β}
    (h : ∀ j : Nat, Option.Rel R xs[j]? ys[j]?) {x : α} {y : β} (hxy : R x y) (i j : Nat) :
    Option.Rel R (xs.set i x)[j]? (ys.set i y)[j]? := by
  have hle : xs.length ≤ i ↔ ys.length ≤ i := by
    have hi := h i
    rw [← List.getElem?_eq_none_iff, ← List.getElem?_eq_none_iff]
    generalize xs[i]? = o, ys[i]? = o' at hi
    cases hi <;> simp
  rw [List.getElem?_set, List.getElem?_set]
  by_cases hj : i = j
  · rw [if_pos hj, if_pos hj]
    by_cases hi : i < xs.length
    · rw [if_pos hi, if_pos (by omega)]
      exact .some hxy
    · rw [if_neg hi, if_neg (by omega)]
      exact .none
  · rw [if_neg hj, if_neg hj]
    exact h j

/-! ## Two workspaces -/

/-- Workspaces that commands of two forms answer alike, and leave related as they were, answer
sequences of such commands alike. -/
theorem run_eq_of_steps {σ' : Type} {host' : Host σ'} {R : Workspace σ → Workspace σ' → Prop}
    {P : Command → Prop} {f g : Command → Command}
    (hstep : ∀ v v' c, R v v' → P c → (v.step host (f c)).1 = (v'.step host' (g c)).1 ∧
      R (v.step host (f c)).2 (v'.step host' (g c)).2)
    {ws' : Workspace σ'} (h : R ws ws') {cs : List Command} (hcs : ∀ c ∈ cs, P c) :
    (ws.run host (cs.map f)).1 = (ws'.run host' (cs.map g)).1 ∧
      R (ws.run host (cs.map f)).2 (ws'.run host' (cs.map g)).2 := by
  induction cs generalizing ws ws' with
  | nil => exact ⟨rfl, h⟩
  | cons c cs ih =>
    obtain ⟨hanswer, hafter⟩ := hstep ws ws' c h (hcs c List.mem_cons_self)
    obtain ⟨hanswers, hend⟩ := ih hafter fun d hd => hcs d (List.mem_cons_of_mem c hd)
    simp only [List.map_cons, run, hanswer, hanswers]
    exact ⟨trivial, hend⟩

theorem run_eq_of_step {σ' : Type} {host' : Host σ'} {R : Workspace σ → Workspace σ' → Prop}
    {P : Command → Prop} (hstep : ∀ v v' c, R v v' → P c →
      (v.step host c).1 = (v'.step host' c).1 ∧ R (v.step host c).2 (v'.step host' c).2)
    {ws' : Workspace σ'} (h : R ws ws') {cs : List Command} (hcs : ∀ c ∈ cs, P c) :
    (ws.run host cs).1 = (ws'.run host' cs).1 ∧ R (ws.run host cs).2 (ws'.run host' cs).2 := by
  have hrun := run_eq_of_steps (f := id) (g := id) hstep h hcs
  rwa [List.map_id] at hrun

/-! ## Histories -/

/-- What `ws` may have become after commands, between which the world outside may turn into any
world of `W`. -/
inductive Later (host : Host σ) (W : World σ → Prop) (ws : Workspace σ) : Workspace σ → Prop
  | refl : Later host W ws ws
  | step {ws' : Workspace σ} (h : Later host W ws ws') (c : Command) :
    Later host W ws (ws'.step host c).2
  | outside {ws' : Workspace σ} (h : Later host W ws ws') {w : World σ} (hw : W w) :
    Later host W ws { ws' with world := w }

variable {W : World σ → Prop}

theorem Later.run (h : Later host W ws ws') (cs : List Command) :
    Later host W ws (ws'.run host cs).2 := by
  induction cs generalizing ws' with
  | nil => exact h
  | cons c cs ih => exact ih (h.step c)

/-- The resolvers and trees that are there keep their numbers; trees grow, and resolvers keep their
providers and what they have stored. -/
structure Continues (ws ws' : Workspace σ) : Prop where
  trees : ∀ {k : Nat} {t : Tree}, ws.trees[k]? = some t →
    ∃ t', ws'.trees[k]? = some t' ∧ t.Grows t'
  resolvers : ∀ {i : Nat} {r : Resolver}, ws.resolvers[i]? = some r →
    ∃ r', ws'.resolvers[i]? = some r' ∧ r'.provider = r.provider ∧ r'.settings = r.settings ∧
      ∀ {id : TreeId} {use : UseId} {e : Nat × Completed}, r.cache.stored? id use = some e →
        r'.cache.stored? id use = some e

theorem Continues.refl : Continues ws ws :=
  ⟨fun h => ⟨_, h, .refl⟩, fun h => ⟨_, h, rfl, rfl, id⟩⟩

theorem Continues.trans (h : Continues ws ws') (h' : Continues ws' ws'') : Continues ws ws'' where
  trees ht := by
    obtain ⟨t', ht', hg⟩ := h.trees ht
    obtain ⟨t'', ht'', hg'⟩ := h'.trees ht'
    exact ⟨t'', ht'', hg.trans hg'⟩
  resolvers hr := by
    obtain ⟨r', hr', hp, hset, hs⟩ := h.resolvers hr
    obtain ⟨r'', hr'', hp', hset', hs'⟩ := h'.resolvers hr'
    exact ⟨r'', hr'', hp'.trans hp, hset'.trans hset, fun he => hs' (hs he)⟩

theorem stored?_complete {r : Resolver} {t : Tree} {use : UseId} {w : World σ} {id : TreeId}
    {use' : UseId} {e : Nat × Completed} (h : r.cache.stored? id use' = some e) :
    (r.complete host t use w).2.1.cache.stored? id use' = some e := by
  have hc := (r.provider.metadata host).completion t r.settings r.cache use w
  unfold Resolver.complete
  generalize (r.provider.metadata host).complete t r.settings r.cache use w = p at hc
  cases hc with
  | known _ => exact h
  | failed _ _ => exact h
  | resolved _ _ => exact Cache.stored?_insert_of_stored? h _ _ _

theorem Change.continues {c : Command} (h : Change host ws c ws') : Continues ws ws' := by
  have append {α : Type} {l : List α} {i : Nat} {x y : α} (hx : l[i]? = some x) :
      (l ++ [y])[i]? = some x := by
    rw [List.getElem?_append_left (List.getElem?_eq_some_iff.1 hx).1, hx]
  cases h with
  | none _ => exact .refl
  | addTree _ t _ => exact ⟨fun ht => ⟨_, append ht, .refl⟩, fun hr => ⟨_, hr, rfl, rfl, id⟩⟩
  | addResolver _ p s => exact ⟨fun ht => ⟨_, ht, .refl⟩, fun hr => ⟨_, append hr, rfl, rfl, id⟩⟩
  | @edit k t ht e =>
    refine ⟨fun {j u} hu => ?_, fun hr => ⟨_, hr, rfl, rfl, id⟩⟩
    rw [List.getElem?_set]
    split
    · next hk =>
      subst hk
      obtain rfl : t = u := Option.some.inj (ht.symm.trans hu)
      exact ⟨_, if_pos (List.getElem?_eq_some_iff.1 ht).1, e.grows_apply t⟩
    · exact ⟨u, hu, .refl⟩
  | @lookup i k r t hr ht use key query =>
    refine ⟨fun hu => ⟨_, hu, .refl⟩, fun {j s} hs => ?_⟩
    rw [List.getElem?_set]
    split
    · next hi =>
      subst hi
      obtain rfl : r = s := Option.some.inj (hr.symm.trans hs)
      exact ⟨_, if_pos (List.getElem?_eq_some_iff.1 hr).1, rfl, rfl, stored?_complete⟩
    · exact ⟨s, hs, rfl, rfl, id⟩

/-- **A workspace continues what it was.** -/
theorem Later.continues (h : Later host W ws ws') : Continues ws ws' := by
  induction h with
  | refl => exact .refl
  | step _ c ih => exact ih.trans (step_change host _ c).continues
  | outside _ _ ih => exact ⟨ih.trees, ih.resolvers⟩

/-! ## Identities -/

/-- Every tree has the identity of its number, and no cache knows of trees to come. -/
structure Consistent (ws : Workspace σ) : Prop where
  ids : ∀ {k : Nat} {t : Tree}, ws.trees[k]? = some t → t.id = ⟨k⟩
  known : ∀ {i : Nat} {r : Resolver} {id : TreeId} {use : UseId} {a : Completed},
    ws.resolvers[i]? = some r → r.cache.get? id use = some a → id.number < ws.trees.length

theorem consistent_start (w : World σ) : (start w).Consistent where
  ids h := by simp [start] at h
  known h := by simp [start] at h

/-- What is cached after a completion was cached before, or has just been resolved. -/
theorem get?_complete {r : Resolver} {t : Tree} {use : UseId} {w : World σ} {id : TreeId}
    {use' : UseId} {a : Completed}
    (h : (r.complete host t use w).2.1.cache.get? id use' = some a) :
    r.cache.get? id use' = some a ∨ id = t.id ∧ use' = use ∧
      ∃ w', (r.provider.metadata host).resolve t r.settings use w = .ok a w' := by
  have hc := (r.provider.metadata host).completion t r.settings r.cache use w
  unfold Resolver.complete at h
  generalize (r.provider.metadata host).complete t r.settings r.cache use w = p at hc h
  cases hc with
  | known _ => exact Or.inl h
  | failed _ _ => exact Or.inl h
  | @resolved b w' hnone hr =>
    change (r.cache.insert t.id use b).1.get? id use' = some a at h
    rw [Cache.get?_insert, hnone, Option.getD_none] at h
    split at h
    · next heq =>
      cases heq
      cases h
      exact Or.inr ⟨rfl, rfl, w', hr⟩
    · exact Or.inl h

theorem Change.consistent {c : Command} (h : Change host ws c ws') (hc : ws.Consistent) :
    ws'.Consistent := by
  cases h with
  | none _ => exact hc
  | addTree _ t hid =>
    refine ⟨fun {k u} hu => ?_, fun hr ha => ?_⟩
    · rw [List.getElem?_append] at hu
      split at hu
      · exact hc.ids hu
      · obtain ⟨hk, rfl⟩ : k - ws.trees.length = 0 ∧ t = u := by
          simpa [List.getElem?_singleton] using hu
        rw [hid, nextId, show k = ws.trees.length by omega]
    · have := hc.known hr ha
      simp only [List.length_append, List.length_singleton]
      omega
  | @edit k t ht e =>
    refine ⟨fun {j u} hu => ?_, fun hr ha => ?_⟩
    · rw [List.getElem?_set] at hu
      split at hu
      · next hk =>
        subst hk
        split at hu
        · cases hu
          exact (e.grows_apply t).id.trans (hc.ids ht)
        · cases hu
      · exact hc.ids hu
    · rw [List.length_set]
      exact hc.known hr ha
  | addResolver _ provider settings =>
    refine ⟨hc.ids, fun {i r} _ _ _ hr ha => ?_⟩
    rw [List.getElem?_append] at hr
    split at hr
    · exact hc.known hr ha
    · obtain ⟨-, rfl⟩ : i - ws.resolvers.length = 0 ∧ _ = r := by
        simpa [List.getElem?_singleton] using hr
      cases ha
  | @lookup i k r t hr ht use key query =>
    refine ⟨hc.ids, fun {j s} id use' a hs ha => ?_⟩
    rw [List.getElem?_set] at hs
    split at hs
    · split at hs
      · cases hs
        rcases get?_complete ha with ha | ⟨rfl, -, -⟩
        · exact hc.known hr ha
        · rw [hc.ids ht]
          exact (List.getElem?_eq_some_iff.1 ht).1
      · cases hs
    · exact hc.known hs ha

theorem Later.consistent (h : Later host W ws ws') (hc : ws.Consistent) : ws'.Consistent := by
  induction h with
  | refl => exact hc
  | step _ c ih => exact (step_change host _ c).consistent ih
  | outside _ _ ih => exact ⟨ih.ids, ih.known⟩

/-! ## What holds of cached annotations -/

/-- The cached annotations have the property `E` of the provider, the tree and the use. -/
def Backed (E : Provider → Tree → UseId → Completed → Prop) (ws : Workspace σ) : Prop :=
  ∀ ⦃i : Nat⦄ ⦃r : Resolver⦄ ⦃k : Nat⦄ ⦃t : Tree⦄ ⦃use : UseId⦄ ⦃a : Completed⦄,
    ws.resolvers[i]? = some r → ws.trees[k]? = some t → r.cache.get? t.id use = some a →
      E r.provider t use a

variable {E : Provider → Tree → UseId → Completed → Prop}

theorem backed_start (w : World σ) : (start w).Backed E :=
  fun _ _ _ _ _ _ h => by simp [start] at h

/-- **What is cached after a command was cached before it**, for the same resolver and the tree
before it grew, or the command is a lookup that has just resolved it. -/
theorem Change.cached_before {c : Command} (h : Change host ws c ws') (hc : ws.Consistent)
    {i k : Nat} {r' : Resolver} {t' : Tree} {use : UseId} {a : Completed}
    (hr : ws'.resolvers[i]? = some r') (ht : ws'.trees[k]? = some t')
    (ha : r'.cache.get? t'.id use = some a) :
    (∃ r t, ws.resolvers[i]? = some r ∧ ws.trees[k]? = some t ∧ r.provider = r'.provider ∧
      t.Grows t' ∧ r.cache.get? t.id use = some a) ∨
    ∃ key query r w', c = .lookup i k use key query ∧ ws.resolvers[i]? = some r ∧
      ws.trees[k]? = some t' ∧ r.provider = r'.provider ∧
      (r.provider.metadata host).resolve t' r.settings use ws.world = .ok a w' := by
  cases h with
  | none _ => exact Or.inl ⟨r', t', hr, ht, rfl, .refl, ha⟩
  | addTree _ u hid =>
    rw [List.getElem?_append] at ht
    split at ht
    · exact Or.inl ⟨r', t', hr, ht, rfl, .refl, ha⟩
    · -- nothing can be cached for the new tree
      obtain ⟨-, rfl⟩ : k - ws.trees.length = 0 ∧ u = t' := by
        simpa [List.getElem?_singleton] using ht
      rw [hid] at ha
      exact absurd (hc.known hr ha) (Nat.lt_irrefl _)
  | @edit j u hu e =>
    rw [List.getElem?_set] at ht
    split at ht
    · next hj =>
      subst hj
      split at ht
      · cases ht
        rw [(e.grows_apply u).id] at ha
        exact Or.inl ⟨r', u, hr, hu, rfl, e.grows_apply u, ha⟩
      · cases ht
    · exact Or.inl ⟨r', t', hr, ht, rfl, .refl, ha⟩
  | addResolver _ provider settings =>
    rw [List.getElem?_append] at hr
    split at hr
    · exact Or.inl ⟨r', t', hr, ht, rfl, .refl, ha⟩
    · obtain ⟨-, rfl⟩ : i - ws.resolvers.length = 0 ∧ _ = r' := by
        simpa [List.getElem?_singleton] using hr
      cases ha
  | @lookup j l s u hs hu use' key query =>
    rw [List.getElem?_set] at hr
    split at hr
    · next hj =>
      subst hj
      split at hr
      · cases hr
        rcases get?_complete ha with ha | ⟨hid, rfl, w, hw⟩
        · exact Or.inl ⟨s, t', hs, ht, rfl, .refl, ha⟩
        · -- trees are told apart by their identities
          rw [hc.ids ht, hc.ids hu] at hid
          cases hid
          obtain rfl : t' = u := Option.some.inj (ht.symm.trans hu)
          exact Or.inr ⟨key, query, s, w, rfl, hs, ht, rfl, hw⟩
      · cases hr
    · exact Or.inl ⟨r', t', hr, ht, rfl, .refl, ha⟩

theorem Change.backed {c : Command} (h : Change host ws c ws') (hc : ws.Consistent)
    (grows : ∀ p t t' use a, t.Grows t' → E p t use a → E p t' use a)
    (resolves : ∀ p t settings use a w,
      (Provider.metadata p host).resolve t settings use ws.world = .ok a w → E p t use a)
    (hb : ws.Backed E) : ws'.Backed E := by
  intro i r k t use a hr ht ha
  obtain ⟨r₀, t₀, hr₀, ht₀, hprovider, hgrows, ha₀⟩ | ⟨_, _, r₀, w, -, -, -, hprovider, hw⟩ :=
    h.cached_before hc hr ht ha
  · rw [← hprovider]
    exact grows _ _ _ _ _ hgrows (hb hr₀ ht₀ ha₀)
  · rw [← hprovider]
    exact resolves _ _ _ _ _ _ hw

theorem Later.world (h : Later host W ws ws')
    (keeps : ∀ ws c, W (Workspace.world ws) → W (Workspace.step host ws c).2.world)
    (hw : W ws.world) : W ws'.world := by
  induction h with
  | refl => exact hw
  | step _ c ih => exact keeps _ c ih
  | outside _ hv _ => exact hv

/-- **What holds of annotations when they are resolved, and is not lost while their trees grow,
holds of every cached annotation**, if it holds of those that were cached before. -/
theorem Later.backed_of (h : Later host W ws ws') (hc : ws.Consistent) (hb : ws.Backed E)
    (hw : W ws.world)
    (keeps : ∀ ws c, W (Workspace.world ws) → W (Workspace.step host ws c).2.world)
    (grows : ∀ p t t' use a, t.Grows t' → E p t use a → E p t' use a)
    (resolves : ∀ p t settings use a v v', W v →
      (Provider.metadata p host).resolve t settings use v = .ok a v' → E p t use a) :
    ws'.Backed E := by
  induction h with
  | refl => exact hb
  | step h c ih =>
    exact (step_change host _ c).backed (h.consistent hc) grows
      (fun p t settings use a v hr => resolves p t settings use a _ v (h.world keeps hw) hr) ih
  | outside _ _ ih => exact ih

theorem Later.backed {w : World σ} (h : Later host W (start w) ws) (hw : W w)
    (keeps : ∀ ws c, W (Workspace.world ws) → W (Workspace.step host ws c).2.world)
    (grows : ∀ p t t' use a, t.Grows t' → E p t use a → E p t' use a)
    (resolves : ∀ p t settings use a v v', W v →
      (Provider.metadata p host).resolve t settings use v = .ok a v' → E p t use a) :
    ws.Backed E :=
  h.backed_of (consistent_start w) (backed_start w) hw keeps grows resolves

end Workspace

end AnnotationLookup
