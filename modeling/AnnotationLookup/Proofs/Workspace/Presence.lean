import AnnotationLookup.Proofs.Resolver.Order
import AnnotationLookup.Proofs.Tree.Anchored
import AnnotationLookup.Proofs.Workspace.History

/-!
# Lookups that miss nothing

The tree is examined before anything is loaded, and a reference is made of a value only for a use
whose enclosing type is there. So a lookup of an id that was issued never fails for a missing node, and
no lookup at all fails for a missing site.

* `Metadata.cause_of_resolve`, **`Metadata.cause_of_lookup`**: what lookups fail for;
* `Tree.Anchored.not_lacks`: a tree in which nothing dangles lacks no node;
* `Metadata.served_of_resolve`: what is known once a resolution has succeeded;
* `Workspace.holding`, `Workspace.Later.served_of_complete`: so it is with cached annotations, whatever
  trees the history began with;
* **`Workspace.nothing_dangles`**: the main statement.
-/

namespace AnnotationLookup

open Cause

/-! ## What lookups fail for -/

namespace Metadata

variable {σ : Type} {source : Metadata σ} {t : Tree} {settings : Settings} {cache : Cache Completed}
  {id : UseId} {key : String} {query : Query} {w : World σ}

/-- A resolution fails for what the tree lacks, in loading, or in looking for the record. -/
theorem cause_of_resolve {cause : Cause}
    (h : Task.outcome (source.resolve t settings id) w = .error cause) :
    t.Lacks id cause ∨ OfLoading cause ∨ OfRecord cause := by
  rcases t.lacks_or_annotates id with ⟨cause', hlacks⟩ | ⟨annotationType, d, method?, hannotates⟩
  · rw [resolve_of_target_error _ t hlacks.target] at h
    cases h
    exact .inl hlacks
  cases hserves : source.serves d.factory with
  | false =>
    obtain ⟨g, hg, -, henclosing, -⟩ := hannotates.exists_target
    have hfactory : d.factory = g.enclosing.factory := by rw [henclosing]
    rw [hfactory] at hserves
    rw [resolve_of_target _ t hg, resolveTarget, permit, hserves] at h
    cases h
    exact .inr (.inl (.unservedFactory _))
  | true =>
    have hnew : ({} : Cache Completed).get? t.id id = none := rfl
    rcases resolve_of_annotates settings hnew hannotates hserves w with
      ⟨cause', hasks, houtcome⟩ | ⟨a, c, es, -, houtcome⟩
    · rw [houtcome] at h
      cases h
      exact .inr (.inl (hasks.onlyFails _ rfl))
    · rw [houtcome, map_eq_error_iff] at h
      exact .inr (.inr (c.onlyFails_recordFor _ _ _ _ h))

/-- **What lookups fail for**: what a resolution fails for, or what a value fails for, if the enclosing
type of each use that is completed is there. -/
theorem cause_of_lookup
    (hfactory : ∀ a, (source.complete t settings cache id w).1 = .ok a →
      ∃ factory, t.enclosingFactory id = .ok factory) {f : Failure}
    (h : (source.lookup t settings cache id key query w).1 = .error f) :
    t.Lacks id f.cause ∨ OfLoading f.cause ∨ OfRecord f.cause ∨ OfValue f.cause := by
  have hlookup : (((source.complete t settings cache id w).1.bind fun a =>
      a.reply t id key query).mapError (⟨id, key, ·⟩)) = .error f := h
  cases hcomplete : (source.complete t settings cache id w).1 with
  | error cause =>
    rw [hcomplete] at hlookup
    cases hlookup
    have hnew : cache.get? t.id id = none := by
      cases hknown : cache.get? t.id id with
      | none => rfl
      | some a =>
        rw [complete_of_known hknown] at hcomplete
        cases hcomplete
    rw [(complete_of_new hnew w).1] at hcomplete
    exact (cause_of_resolve hcomplete).imp_right (.imp_right .inl)
  | ok a =>
    rw [hcomplete] at hlookup
    obtain ⟨factory, hfactory⟩ := hfactory a hcomplete
    have honly : OnlyFails OfValue (a.reply t id key query) :=
      a.onlyFails_reply_of key (fun _ h => h) (hfactory ▸ onlyFails_ok factory) query
    cases hreply : a.reply t id key query with
    | ok reply =>
      simp only [Except.bind, hreply] at hlookup
      cases hlookup
    | error cause =>
      simp only [Except.bind, hreply] at hlookup
      cases hlookup
      exact .inr (.inr (.inr (honly cause hreply)))

theorem served_of_resolve {a : Completed} {w' : World σ}
    (h : source.resolve t settings id w = .ok a w') :
    ∃ g, t.target id = .ok g ∧ source.serves g.enclosing.factory = true := by
  obtain ⟨g, hg⟩ := source.exists_target_of_resolve t h
  refine ⟨g, hg, ?_⟩
  cases hserves : source.serves g.enclosing.factory with
  | true => rfl
  | false =>
    rw [resolve_of_target _ t hg, resolveTarget, permit, hserves] at h
    cases h

end Metadata

namespace Tree.Anchored

variable {t : Tree} {id : UseId} {u : UseNode}

/-- In a tree in which nothing dangles, no node is lacking once the use is there. -/
theorem not_lacks (h : t.Anchored) (hu : t.use? id = some u) (node : Missing) :
    ¬ t.Lacks id (.dangling node) := by
  have hthere {u' : UseNode} (hu' : t.use? id = some u') : t.HasSite u'.site :=
    h.uses (by rw [siteOf?, hu', Option.map_some])
  intro hlacks
  cases hlacks with
  | use hnone =>
    rw [hnone] at hu
    cases hu
  | method hu' hsite hm =>
    obtain ⟨m, hm'⟩ := hsite ▸ hthere hu'
    rw [hm] at hm'
    cases hm'
  | owner hu' hsite hm hd =>
    obtain ⟨d, hd'⟩ := h.methods (by rw [methodOwner?, hm, Option.map_some])
    rw [hd] at hd'
    cases hd'
  | type hu' hsite hd =>
    obtain ⟨d, hd'⟩ := hsite ▸ hthere hu'
    rw [hd] at hd'
    cases hd'

theorem enclosingFactory (h : t.Anchored) (hu : t.use? id = some u) :
    ∃ factory, t.enclosingFactory id = .ok factory := by
  obtain ⟨factory, hfactory⟩ := h.exists_factoryOf? (h.uses (by rw [siteOf?, hu, Option.map_some]))
  exact ⟨factory, by simp only [Tree.enclosingFactory, hu, Option.bind_some, hfactory]⟩

end Tree.Anchored

/-! ## Histories -/

namespace Workspace

variable {σ : Type} {host : Host σ} {ts : List Tree} {w₀ : World σ} {ws : Workspace σ} {i k : Nat}
  {r : Resolver} {t : Tree} {use : UseId} {a : Completed}

/-- A workspace of any trees, which get identities of their own, without resolvers. -/
def holding (ts : List Tree) (w : World σ) : Workspace σ where
  trees := ts.mapIdx fun k t => { t with id := ⟨k⟩ }
  world := w

theorem consistent_holding (ts : List Tree) (w : World σ) : (holding ts w).Consistent where
  ids {k t} ht := by
    rw [holding, List.getElem?_mapIdx] at ht
    obtain ⟨t', -, rfl⟩ := Option.map_eq_some_iff.1 ht
    rfl
  known hr := by cases hr

theorem Later.backed_served (h : Later host (fun _ => True) (holding ts w₀) ws) :
    ws.Backed fun p t use _ =>
      ∃ g, t.target use = .ok g ∧ p.serves g.enclosing.factory = true := by
  refine h.backed_of (consistent_holding ts w₀) (fun _ _ _ _ _ _ hr => by cases hr) trivial
    (fun _ _ _ => trivial) ?_ ?_
  · rintro p t t' use a hgrows ⟨g, hg, hserves⟩
    exact ⟨g, hgrows.target hg, hserves⟩
  · intro p t settings use a v v' _ hv
    exact Metadata.served_of_resolve hv

/-- **A use that is completed has a target**, also if it was completed long ago, and the provider serves
the factory of the enclosing type. -/
theorem Later.served_of_complete (h : Later host (fun _ => True) (holding ts w₀) ws)
    (hr : ws.resolvers[i]? = some r) (ht : ws.trees[k]? = some t) {w : World σ}
    (ha : (r.complete host t use w).1 = .ok a) :
    ∃ g, t.target use = .ok g ∧ r.provider.serves g.enclosing.factory = true := by
  cases hknown : r.cache.get? t.id use with
  | some b => exact h.backed_served hr ht hknown
  | none =>
    rw [(Resolver.complete_of_new hknown w).1] at ha
    unfold Task.outcome at ha
    cases hv : (r.provider.metadata host).resolve t r.settings use w with
    | error cause v =>
      rw [hv] at ha
      cases ha
    | ok b v => exact Metadata.served_of_resolve hv

/-- **Ids that were issued never dangle.** A lookup of a use that a tree without refused edits has issued
never fails because a node is missing, whatever the source does and whatever is cached. And in any
history, whatever trees it begins with and comes to, documents that are read and edits that are refused
included, no lookup fails because the site of a use is missing: where the site denotes a member, the
enclosing type is there, and so it is where something is cached for the use. -/
theorem nothing_dangles (host : Host σ) :
    (∀ (t : Tree) (use : UseId), t.Issued use → ∀ key query w f,
      (∀ (source : Metadata σ) settings cache,
        (source.lookup t settings cache use key query w).1 = .error f →
          ∀ node, f.cause ≠ .dangling node) ∧
      ∀ r : Resolver, (r.lookup host t use key query w).1 = .error f →
        ∀ node, f.cause ≠ .dangling node) ∧
    (∀ (t : Tree) (use : UseId) u m, t.use? use = some u → t.member u.site = .ok m →
      ∃ factory, t.enclosingFactory use = .ok factory) ∧
    ∀ ts w₀ ws, Later host (fun _ => True) (holding ts w₀) ws →
      (∀ i k use key query f, (ws.step host (.lookup i k use key query)).1 = .found (.error f) →
        ∀ id, f.cause ≠ .dangling (.siteOf id)) ∧
      ∀ (i k : Nat) (r : Resolver) (t : Tree) use a, ws.resolvers[i]? = some r →
        ws.trees[k]? = some t → r.cache.get? t.id use = some a →
          ∃ factory, t.enclosingFactory use = .ok factory := by
  refine ⟨?_, fun t use u m hu hm => ⟨_, Tree.enclosingFactory_of_member hu hm⟩, ?_⟩
  · intro t use hissued key query w f
    obtain ⟨u, hu⟩ := hissued.use?
    have hanchored := hissued.unrefused.anchored
    have hsource (source : Metadata σ) (settings : Settings) (cache : Cache Completed)
        (h : (source.lookup t settings cache use key query w).1 = .error f) (node : Missing) :
        f.cause ≠ .dangling node := by
      intro hcause
      have hcauses := Metadata.cause_of_lookup (fun _ _ => hanchored.enclosingFactory hu) h
      rw [hcause] at hcauses
      rcases hcauses with hlacks | hloading | hrecord | hvalue
      · exact hanchored.not_lacks hu node hlacks
      · cases hloading
      · cases hrecord
      · cases hvalue
    exact ⟨hsource, fun r h => hsource (r.provider.metadata host) r.settings r.cache h⟩
  · intro ts w₀ ws hlater
    refine ⟨fun i k use key query f h id hcause => ?_, fun i k r t use a hr ht ha => ?_⟩
    · obtain ⟨r, t, hr, ht⟩ : ∃ r t, ws.resolvers[i]? = some r ∧ ws.trees[k]? = some t := by
        simp only [step] at h
        split at h
        · next r t hr ht => exact ⟨r, t, hr, ht⟩
        · cases h
      rw [step_lookup hr ht] at h
      have hcauses := Metadata.cause_of_lookup (fun a ha => by
        obtain ⟨g, hg, -⟩ := hlater.served_of_complete hr ht ha
        exact ⟨_, Tree.enclosingFactory_of_target hg⟩) (Answer.found.inj h)
      rw [hcause] at hcauses
      rcases hcauses with hlacks | hloading | hrecord | hvalue
      · cases hlacks
      · cases hloading
      · cases hrecord
      · cases hvalue
    · obtain ⟨g, hg, -⟩ := hlater.backed_served hr ht ha
      exact ⟨_, Tree.enclosingFactory_of_target hg⟩

end Workspace

end AnnotationLookup
