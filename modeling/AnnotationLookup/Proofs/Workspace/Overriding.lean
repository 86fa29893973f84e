import AnnotationLookup.Proofs.Provider.Resolution
import AnnotationLookup.Proofs.Resolver.Success
import AnnotationLookup.Proofs.Tree.Names
import AnnotationLookup.Proofs.Workspace.WriteOnce

/-!
# Source layers and overridden class paths

A layer of source declarations over a class path answers as the class path does once the
descriptions of the declared types have been put into it.

* `Tree.sourceTypes`, `Universe.overriddenBy`: the class path with these descriptions;
* **`Universe.find?_overriddenBy`**: what is found there;
* `Provider.sourceOver_load_alike`: the layers go alike with the overridden class path;
* `Workspace.Matches`: workspaces whose resolutions go alike, with `Workspace.Matches.run`;
* **`Workspace.layered_eq_overridden`**: the main statement.
-/

namespace AnnotationLookup

/-! ## Overridden class paths -/

/-- The types that were read from source under a factory. -/
def Tree.sourceTypes (t : Tree) (factory : Factory) : List TypeNode :=
  (t.types.toList.map (·.2)).filter fun d => d.origin == .source && d.factory == factory

/-- The class path with the descriptions of the types that a tree declares under a factory and that
were read from source. -/
def Universe.overriddenBy (u : Universe) (t : Tree) (factory : Factory) : Universe :=
  ((t.sourceTypes factory).map t.describe).foldl Universe.insert u

theorem Tree.mem_sourceTypes_iff {t : Tree} {factory : Factory} {d : TypeNode} :
    d ∈ t.sourceTypes factory ↔
      ∃ id, t.type? id = some d ∧ d.origin = .source ∧ d.factory = factory := by
  simp only [sourceTypes, List.mem_filter, List.mem_map, Prod.exists, exists_eq_right,
    Bool.and_eq_true, beq_iff_eq]
  constructor
  · rintro ⟨⟨i, hi⟩, horigin, hfactory⟩
    exact ⟨⟨i⟩, Arena.mem_toList_iff.1 hi, horigin, hfactory⟩
  · rintro ⟨id, hd, horigin, hfactory⟩
    exact ⟨⟨id.index, Arena.mem_toList_iff.2 hd⟩, horigin, hfactory⟩

theorem Universe.find?_foldl_insert (cs : List CompiledClass) (u : Universe) (name : String) :
    (cs.foldl insert u).find? name =
      (cs.reverse.find? fun c => c.name == name).or (u.find? name) := by
  induction cs generalizing u with
  | nil => rfl
  | cons c cs ih =>
    have hinsert : (u.insert c).find? name = if c.name = name then some c else u.find? name :=
      Entries.get?_insert _ _ _ _
    rw [List.foldl_cons, ih, hinsert, List.reverse_cons, List.find?_append, Option.or_assoc]
    by_cases hname : c.name = name <;> simp [hname]

theorem Tree.exists_of_find?_describe {t : Tree} {factory : Factory} {name : String}
    {c : CompiledClass} (h : (((t.sourceTypes factory).map t.describe).reverse.find?
      fun c => c.name == name) = some c) :
    ∃ id d, t.type? id = some d ∧ d.name = name ∧ d.origin = .source ∧ d.factory = factory ∧
      c = t.describe d := by
  obtain ⟨d, hd, rfl⟩ := List.mem_map.1 (List.mem_reverse.1 (List.mem_of_find?_eq_some h))
  obtain ⟨id, hid, horigin, hfactory⟩ := mem_sourceTypes_iff.1 hd
  have hname := List.find?_some h
  simp only [beq_iff_eq] at hname
  exact ⟨id, d, hid, hname, horigin, hfactory, rfl⟩

/-- **Under the name of a declared type its description is found, and under any other name the class
that was there.** -/
theorem Universe.find?_overriddenBy {t : Tree} (h : t.types.Indexes TypeNode.name) (u : Universe)
    (factory : Factory) (name : String) : (u.overriddenBy t factory).find? name =
      (Provider.sourceClass? t factory name).or (u.find? name) := by
  rw [overriddenBy, find?_foldl_insert]
  congr 1
  refine Option.ext fun c => ?_
  rw [Provider.sourceClass?_eq_some_iff h]
  refine ⟨Tree.exists_of_find?_describe, ?_⟩
  rintro ⟨id, d, hd, hname, horigin, hfactory, rfl⟩
  have hmem : t.describe d ∈ ((t.sourceTypes factory).map t.describe).reverse :=
    List.mem_reverse.2 (List.mem_map_of_mem
      (Tree.mem_sourceTypes_iff.2 ⟨id, hd, horigin, hfactory⟩))
  obtain ⟨c, hc⟩ : ∃ c, List.find? (fun c => c.name == name)
      ((t.sourceTypes factory).map t.describe).reverse = some c :=
    Option.isSome_iff_exists.1 (List.find?_isSome.2 ⟨_, hmem, beq_iff_eq.2 hname⟩)
  -- another description of the name would be that of the same type
  obtain ⟨id', e, he, hname', -, -, rfl⟩ := Tree.exists_of_find?_describe hc
  rw [hc, Tree.eq_of_name_eq h hd he (hname.trans hname'.symm)]

/-! ## Layers -/

namespace Provider

theorem ask_universe (universes : LoaderId → Universe) (loader : LoaderId) (name : String) :
    ask (Universe.host universes) loader name = pure ((universes loader).find? name) :=
  rfl

/-- The source declarations of a factory over its class path. -/
def sourceOver (factory : Factory) (loader : LoaderId) : Provider :=
  .layered [.source factory, .classPath [(factory, loader)]]

variable {t : Tree} {u : Universe} {f : Factory} {loader : LoaderId}

theorem serves_sourceOver (factory : Factory) :
    (sourceOver f loader).serves factory = (Provider.classPath [(f, loader)]).serves factory := by
  by_cases h : factory = f <;> simp [sourceOver, serves, anyServes, List.lookup_cons, h]

/-- The layers go alike with the class path that the source declarations are put into. -/
theorem sourceOver_load_alike (h : t.types.Indexes TypeNode.name) (factory : Factory)
    (name : String) :
    Task.Alike (World.Hosts fun _ _ => True)
      ((sourceOver f loader).load (Universe.host fun _ => u) t ⟨name, factory⟩)
      ((Provider.classPath [(f, loader)]).load (Universe.host fun _ => u.overriddenBy t f) t
        ⟨name, factory⟩) := by
  by_cases hf : factory = f
  · subst hf
    simp only [sourceOver, load, loadLayers, serves, List.lookup_cons_self, beq_self_eq_true,
      Option.isSome_some, if_true, ask_universe, Universe.find?_overriddenBy h, pure_bind]
    cases sourceClass? t factory name with
    | some c => exact fun _ _ _ => .ok (some c) trivial
    | none =>
      cases hc : u.find? name with
      | some c => exact fun _ _ _ => .ok (some c) trivial
      | none => exact fun _ _ _ => .ok none trivial
  · have hlookup : List.lookup factory [(f, loader)] = none := by
      rw [List.lookup_cons, beq_false_of_ne hf, List.lookup_nil]
    simp only [sourceOver, load, loadLayers, serves, hlookup, Option.isSome_none, beq_iff_eq, hf,
      if_false, Bool.false_eq_true]
    exact .throw _

end Provider

/-! ## Matching workspaces -/

variable {σ σ' : Type} {host : Host σ} {host' : Host σ'} {H : σ → σ' → Prop}

/-- The same cache, and resolutions that go alike for all uses of some trees. -/
structure Resolver.Matches (host : Host σ) (host' : Host σ') (H : σ → σ' → Prop) (trees : List Tree)
    (r r' : Resolver) : Prop where
  cache : r'.cache = r.cache
  resolve : ∀ t ∈ trees, ∀ use, Task.Alike (World.Hosts H)
    ((r.provider.metadata host).resolve t r.settings use)
    ((r'.provider.metadata host').resolve t r'.settings use)

namespace Workspace

/-- The same trees, and resolvers that match. -/
structure Matches (host : Host σ) (host' : Host σ') (H : σ → σ' → Prop) (ws : Workspace σ)
    (ws' : Workspace σ') : Prop where
  trees : ws'.trees = ws.trees
  resolvers : ∀ i : Nat,
    Option.Rel (Resolver.Matches host host' H ws.trees) ws.resolvers[i]? ws'.resolvers[i]?
  host : H ws.world.host ws'.world.host

variable {ws : Workspace σ} {ws' : Workspace σ'}

theorem Matches.step (h : Matches host host' H ws ws') {c : Command} (hc : c.isLookup = true) :
    (ws.step host c).1 = (ws'.step host' c).1 ∧
      Matches host host' H (ws.step host c).2 (ws'.step host' c).2 := by
  obtain ⟨i, k, use, key, query, rfl⟩ := Command.exists_of_isLookup hc
  have hresolvers := h.resolvers i
  simp only [Workspace.step, h.trees]
  generalize ws.resolvers[i]? = o, ws'.resolvers[i]? = o' at hresolvers
  cases hresolvers with
  | none => exact ⟨rfl, h⟩
  | @some r r' hmatches =>
    cases ht : ws.trees[k]? with
    | none => exact ⟨rfl, h⟩
    | some t =>
      have hknown : r'.cache.get? t.id use = r.cache.get? t.id use := by rw [hmatches.cache]
      obtain ⟨houtcome, hcache, hhost⟩ := Metadata.complete_alike hknown
        (hmatches.resolve t (List.mem_of_getElem? ht) use) h.host
      have hafter : Resolver.Matches host host' H ws.trees (r.complete host t use ws.world).2.1
          (r'.complete host' t use ws'.world).2.1 :=
        ⟨(hcache rfl hmatches.cache).symm, hmatches.resolve⟩
      refine ⟨?_, rfl, rel_getElem?_set h.resolvers hafter i, hhost⟩
      simp only [Resolver.lookup, Resolver.complete, houtcome]

theorem Matches.run (h : Matches host host' H ws ws') {cs : List Command}
    (hcs : ∀ c ∈ cs, c.isLookup = true) : (ws.run host cs).1 = (ws'.run host' cs).1 ∧
      Matches host host' H (ws.run host cs).2 (ws'.run host' cs).2 :=
  run_eq_of_step (fun _ _ _ hv hc => hv.step hc) h hcs

theorem Matches.cached? (h : Matches host host' H ws ws') (i k : Nat) (use : UseId) :
    ws.cached? i k use = ws'.cached? i k use := by
  have hresolvers := h.resolvers i
  unfold Workspace.cached?
  rw [h.trees]
  generalize ws.resolvers[i]? = o, ws'.resolvers[i]? = o' at hresolvers
  cases hresolvers with
  | none => rfl
  | @some r r' hmatches => simp only [Option.bind_some, hmatches.cache]

/-- **Layering source declarations over a class path is overriding the class path.** For a tree that
has come of any edits, lookups through the source declarations of a factory over its class path are
answered as they are through the class path with the descriptions of the declared types of that
factory put into it, and the same objects are cached. -/
theorem layered_eq_overridden (id : TreeId) (edits : List Edit) (factory : Factory) (u : Universe)
    (loader : LoaderId) (settings : Settings) (lookups : List (UseId × String × Query))
    (w w' : World Unit) :
    let t := edits.foldl (fun t e => (e.apply t).1) { id }
    let cs := lookups.map fun (use, key, query) => Command.lookup 0 0 use key query
    let layered : Workspace Unit := {
      trees := [t]
      resolvers := [{
        provider := .layered [.source factory, .classPath [(factory, loader)]], settings }]
      world := w }
    let overridden : Workspace Unit := {
      trees := [t]
      resolvers := [{ provider := .classPath [(factory, loader)], settings }]
      world := w' }
    (layered.run (Universe.host fun _ => u) cs).1 =
        (overridden.run (Universe.host fun _ => u.overriddenBy t factory) cs).1 ∧
      ∀ use, (layered.run (Universe.host fun _ => u) cs).2.cached? 0 0 use =
        (overridden.run (Universe.host fun _ => u.overriddenBy t factory) cs).2.cached? 0 0 use := by
  intro t cs layered overridden
  have hindexes : t.types.Indexes TypeNode.name :=
    Tree.indexes_foldl_apply NamedArena.indexes_empty edits
  have hresolve (use : UseId) : Task.Alike (World.Hosts fun _ _ => True)
      (((Provider.sourceOver factory loader).metadata (Universe.host fun _ => u)).resolve t settings
        use)
      (((Provider.classPath [(factory, loader)]).metadata
        (Universe.host fun _ => u.overriddenBy t factory)).resolve t settings use) :=
    Metadata.resolve_alike (fun _ h => h) fun g hg => ⟨g, hg,
      Metadata.resolveTarget_alike g.annotationType.factory (Provider.serves_sourceOver _)
        fun name => Provider.sourceOver_load_alike hindexes _ name⟩
  have hmatches : Matches (Universe.host fun _ => u)
      (Universe.host fun _ => u.overriddenBy t factory) (fun _ _ => True) layered overridden := by
    refine ⟨rfl, fun i => ?_, trivial⟩
    cases i with
    | zero =>
      refine .some ⟨rfl, fun t' ht' use => ?_⟩
      rw [List.mem_singleton.1 ht']
      exact hresolve use
    | succ i => exact .none
  have hlookups : ∀ c ∈ cs, c.isLookup = true := by
    intro c hc
    obtain ⟨_, -, rfl⟩ := List.mem_map.1 hc
    rfl
  obtain ⟨hanswers, hend⟩ := hmatches.run hlookups
  exact ⟨hanswers, fun use => hend.cached? 0 0 use⟩

end Workspace

end AnnotationLookup
