import AnnotationLookup.Proofs.Provider.Serving
import Mathlib.Logic.Relation

/-!
# Nested layers flatten

Layers of layers are asked as the flat list of all that is layered would be. How the layers of a nest
are grouped makes no difference to what it serves, to what it answers, and to what loaders are asked.

* `Provider.Regrouped`: one change of the grouping, at any depth;
* `Provider.leaves`: what is layered, in order;
* `Provider.FirstAnswer`: the first of several providers that knows a class, or fails, decides;
* **`Provider.load_eq_loadLayers_leaves`**: a nest loads as its leaves do;
* **`Provider.layers_flatten`**: the main statement.
-/

namespace AnnotationLookup.Provider

variable {σ : Type}

/-! ## Grouping -/

/-- One change of the grouping of layers, somewhere in a nest. -/
inductive Regrouped : Provider → Provider → Prop
  /-- A nest among the layers gives way to its own layers, of which there may be none. -/
  | splice (before inner after : List Provider) :
    Regrouped (.layered (before ++ .layered inner :: after)) (.layered (before ++ inner ++ after))
  /-- A provider becomes the only layer of a nest. -/
  | wrap (p : Provider) : Regrouped p (.layered [p])
  /-- One of the layers is changed in this way. -/
  | within (before after : List Provider) {p q : Provider} (h : Regrouped p q) :
    Regrouped (.layered (before ++ p :: after)) (.layered (before ++ q :: after))

/-- The provider reads source declarations or class paths itself. -/
def IsLeaf : Provider → Prop
  | .layered _ => False
  | _ => True

mutual

/-- What is layered in a nest, in the order in which it is asked. -/
def leaves (p : Provider) : List Provider :=
  match p with
  | .layered layers => allLeaves layers
  | leaf => [leaf]
termination_by structural p

/-- The leaves of layers, one after the other. -/
def allLeaves (layers : List Provider) : List Provider :=
  match layers with
  | [] => []
  | p :: layers => p.leaves ++ allLeaves layers
termination_by structural layers

end

theorem allLeaves_append (layers layers' : List Provider) :
    allLeaves (layers ++ layers') = allLeaves layers ++ allLeaves layers' := by
  induction layers with
  | nil => rfl
  | cons p layers ih => rw [List.cons_append, allLeaves, allLeaves, ih, List.append_assoc]

/-- **A change of the grouping leaves the leaves as they are.** -/
theorem Regrouped.leaves_eq {p q : Provider} (h : Regrouped p q) : p.leaves = q.leaves := by
  induction h with
  | splice before inner after =>
    simp only [leaves, allLeaves_append, allLeaves, List.append_assoc]
  | wrap p => simp only [leaves, allLeaves, List.append_nil]
  | within before after h ih => simp only [leaves, allLeaves_append, allLeaves, ih]

theorem leaves_eq_of_eqvGen {p q : Provider} (h : Relation.EqvGen Regrouped p q) :
    p.leaves = q.leaves := by
  induction h with
  | rel p q h => exact h.leaves_eq
  | refl p => rfl
  | symm p q _ ih => exact ih.symm
  | trans p q r _ _ ih ih' => exact ih.trans ih'

theorem eqvGen_within (before after : List Provider) {p q : Provider}
    (h : Relation.EqvGen Regrouped p q) :
    Relation.EqvGen Regrouped (.layered (before ++ p :: after)) (.layered (before ++ q :: after)) := by
  induction h with
  | rel p q h => exact .rel _ _ (.within before after h)
  | refl p => exact .refl _
  | symm p q _ ih => exact .symm _ _ ih
  | trans p q r _ _ ih ih' => exact .trans _ _ _ ih ih'

mutual

/-- Every nest is a regrouping of its leaves. -/
theorem eqvGen_leaves (p : Provider) : Relation.EqvGen Regrouped p (.layered p.leaves) := by
  match p with
  | .classPath bindings => exact .rel _ _ (.wrap _)
  | .source own => exact .rel _ _ (.wrap _)
  | .layered layers => exact eqvGen_allLeaves layers []
termination_by structural p

theorem eqvGen_allLeaves (layers before : List Provider) :
    Relation.EqvGen Regrouped (.layered (before ++ layers))
      (.layered (before ++ allLeaves layers)) := by
  match layers with
  | [] => exact .refl _
  | p :: layers =>
    have hsplice := Relation.EqvGen.rel _ _ (Regrouped.splice before p.leaves layers)
    have hrest := eqvGen_allLeaves layers (before ++ p.leaves)
    rw [allLeaves, ← List.append_assoc]
    exact .trans _ _ _ (eqvGen_within before layers (eqvGen_leaves p)) (.trans _ _ _ hsplice hrest)
termination_by structural layers

end

mutual

theorem isLeaf_of_mem_leaves (p : Provider) : ∀ leaf ∈ p.leaves, leaf.IsLeaf := by
  match p with
  | .classPath bindings => exact List.forall_mem_singleton.2 trivial
  | .source own => exact List.forall_mem_singleton.2 trivial
  | .layered layers => exact isLeaf_of_mem_allLeaves layers
termination_by structural p

theorem isLeaf_of_mem_allLeaves (layers : List Provider) :
    ∀ leaf ∈ allLeaves layers, leaf.IsLeaf := by
  match layers with
  | [] => exact List.forall_mem_nil _
  | p :: layers =>
    exact List.forall_mem_append.2 ⟨isLeaf_of_mem_leaves p, isLeaf_of_mem_allLeaves layers⟩
termination_by structural layers

end

/-! ## What is served -/

theorem anyServes_append (layers layers' : List Provider) (factory : Factory) :
    anyServes (layers ++ layers') factory =
      (anyServes layers factory || anyServes layers' factory) := by
  induction layers with
  | nil => rfl
  | cons p layers ih => rw [List.cons_append, anyServes, anyServes, ih, Bool.or_assoc]

mutual

theorem anyServes_leaves (p : Provider) (factory : Factory) :
    anyServes p.leaves factory = p.serves factory := by
  match p with
  | .classPath bindings => exact Bool.or_false _
  | .source own => exact Bool.or_false _
  | .layered layers => exact anyServes_allLeaves layers factory
termination_by structural p

theorem anyServes_allLeaves (layers : List Provider) (factory : Factory) :
    anyServes (allLeaves layers) factory = anyServes layers factory := by
  match layers with
  | [] => rfl
  | p :: layers =>
    rw [allLeaves, anyServes_append, anyServes_leaves p, anyServes_allLeaves layers, anyServes]
termination_by structural layers

end

/-! ## What is loaded -/

section Load

variable (host : Host σ) (t : Tree) {r : TypeReference}

/-- Where one of the layers serves the factory, it does not matter whether one before them does. -/
theorem loadLayers_of_anyServes {layers : List Provider} (h : anyServes layers r.factory = true)
    (asked : Bool) : loadLayers host t layers asked r = loadLayers host t layers true r := by
  induction layers with
  | nil => cases h
  | cons p layers ih =>
    cases hp : p.serves r.factory with
    | true => simp only [loadLayers, hp, if_true]
    | false =>
      have hlayers : anyServes layers r.factory = true := by
        simpa only [anyServes, hp, Bool.false_or] using h
      simp only [loadLayers, hp, Bool.false_eq_true, if_false]
      exact ih hlayers

/-- Layers after others are asked once these have answered that there is no such class. -/
theorem loadLayers_append (layers layers' : List Provider) :
    loadLayers host t (layers ++ layers') true r =
      loadLayers host t layers true r >>= fun answer =>
        match answer with
        | some c => pure (some c)
        | none => loadLayers host t layers' true r := by
  induction layers with
  | nil => simp only [List.nil_append, loadLayers, if_true, pure_bind]
  | cons p layers ih =>
    rw [List.cons_append, loadLayers, loadLayers]
    split
    · rw [bind_assoc]
      refine bind_congr fun answer => ?_
      cases answer with
      | some c => rfl
      | none => exact ih
    · exact ih

theorem loadLayers_append_of_not_anyServes {layers : List Provider}
    (h : anyServes layers r.factory = false) (layers' : List Provider) (asked : Bool) :
    loadLayers host t (layers ++ layers') asked r = loadLayers host t layers' asked r := by
  induction layers with
  | nil => rfl
  | cons p layers ih =>
    obtain ⟨hp, hlayers⟩ : p.serves r.factory = false ∧ anyServes layers r.factory = false := by
      simpa only [anyServes, Bool.or_eq_false_iff] using h
    simp only [List.cons_append, loadLayers, hp, Bool.false_eq_true, if_false]
    exact ih hlayers

theorem loadLayers_singleton (p : Provider) :
    loadLayers host t [p] false r = p.load host t r := by
  cases hp : p.serves r.factory with
  | true =>
    rw [loadLayers, if_pos hp]
    refine (bind_congr fun answer => ?_).trans (bind_pure (p.load host t r))
    cases answer <;> rfl
  | false =>
    simp only [loadLayers, hp, Bool.false_eq_true, if_false, load_of_not_serves hp]

mutual

/-- **A nest loads as its leaves do**, one after another. -/
theorem load_eq_loadLayers_leaves (p : Provider) :
    p.load host t r = loadLayers host t p.leaves false r := by
  match p with
  | .classPath bindings => exact (loadLayers_singleton host t _).symm
  | .source own => exact (loadLayers_singleton host t _).symm
  | .layered layers => exact loadLayers_eq_allLeaves layers false
termination_by structural p

theorem loadLayers_eq_allLeaves (layers : List Provider) (asked : Bool) :
    loadLayers host t layers asked r = loadLayers host t (allLeaves layers) asked r := by
  match layers with
  | [] => rfl
  | p :: layers =>
    have hserves := p.anyServes_leaves r.factory
    rw [loadLayers, allLeaves]
    cases hp : p.serves r.factory with
    | true =>
      rw [hp] at hserves
      have hany : anyServes (p.leaves ++ allLeaves layers) r.factory = true := by
        rw [anyServes_append, hserves, Bool.true_or]
      rw [loadLayers_of_anyServes host t hany, loadLayers_append,
        ← loadLayers_of_anyServes host t hserves false, ← load_eq_loadLayers_leaves p, if_pos rfl]
      refine bind_congr fun answer => ?_
      cases answer with
      | some c => rfl
      | none => exact loadLayers_eq_allLeaves layers true
    | false =>
      rw [hp] at hserves
      rw [loadLayers_append_of_not_anyServes host t hserves, if_neg Bool.false_ne_true]
      exact loadLayers_eq_allLeaves layers asked
termination_by structural layers

end

end Load

/-! ## The first answer -/

/-- Providers are asked in order, each in the world that the one before it has left. The first that
knows the class, or fails, decides, and if all of them answer that there is no such class, there is
none. -/
inductive FirstAnswer (host : Host σ) (t : Tree) (r : TypeReference) :
    List Provider → World σ → EStateM.Result LoadError (World σ) (Option CompiledClass) → Prop
  | found {p : Provider} (ps : List Provider) {c : CompiledClass} {w v : World σ}
    (h : p.load host t r w = .ok (some c) v) : FirstAnswer host t r (p :: ps) w (.ok (some c) v)
  | failed {p : Provider} (ps : List Provider) {e : LoadError} {w v : World σ}
    (h : p.load host t r w = .error e v) : FirstAnswer host t r (p :: ps) w (.error e v)
  | passed {p : Provider} {ps : List Provider} {w v : World σ}
    {result : EStateM.Result LoadError (World σ) (Option CompiledClass)}
    (h : p.load host t r w = .ok none v) (rest : FirstAnswer host t r ps v result) :
    FirstAnswer host t r (p :: ps) w result
  | exhausted (w : World σ) : FirstAnswer host t r [] w (.ok none w)

/-- Of layers, one of which serves the factory at least, those that serve it are asked for the first
answer. -/
theorem firstAnswer_loadLayers (host : Host σ) (t : Tree) (r : TypeReference)
    (layers : List Provider) (w : World σ) :
    FirstAnswer host t r (layers.filter (·.serves r.factory)) w
      (loadLayers host t layers true r w) := by
  induction layers generalizing w with
  | nil => exact .exhausted w
  | cons p layers ih =>
    rw [loadLayers, List.filter_cons]
    split
    · cases hload : p.load host t r w with
      | error e v =>
        rw [Task.bind_of_error hload]
        exact .failed _ hload
      | ok answer v =>
        rw [Task.bind_of_ok hload]
        cases answer with
        | some c => exact .found _ hload
        | none => exact .passed hload (ih v)
    · exact ih w

/-- What loaders are asked for while a reference is loaded, in order. -/
def asked (p : Provider) (host : Host σ) (t : Tree) (r : TypeReference) (w : World σ) :
    List (LoaderId × String) :=
  (Task.after (p.load host.recording t r) { host := (w.host, []), log := w.log }).host.2

/-- **How layers are nested makes no difference.** Whatever nests are spliced into the layers around
them, and whatever providers are wrapped into nests of one layer or unwrapped, at any depth and however
often, the same factories are served, and every reference is answered alike, over loaders of any
behaviour, with the same effects on these and the same requests to them. In particular a nest is a
regrouping of its leaves. Of these, if any serves the factory of the reference, those that do are
asked for the first answer; otherwise none is asked, and the factory has no class path. -/
theorem layers_flatten {p q : Provider} (h : Relation.EqvGen Regrouped p q) :
    (∀ factory, p.serves factory = q.serves factory) ∧
    (∀ (σ : Type) (host : Host σ) (t : Tree) (r : TypeReference),
      p.load host t r = q.load host t r ∧ ∀ w, p.asked host t r w = q.asked host t r w) ∧
    Relation.EqvGen Regrouped p (.layered p.leaves) ∧ (∀ leaf ∈ p.leaves, leaf.IsLeaf) ∧
    ∀ (σ : Type) (host : Host σ) (t : Tree) (r : TypeReference) (w : World σ),
      (p.serves r.factory = true → FirstAnswer host t r
        (p.leaves.filter (·.serves r.factory)) w ((Provider.layered p.leaves).load host t r w)) ∧
      (p.serves r.factory = false →
        (Provider.layered p.leaves).load host t r w = .error (.unbound r.factory) w) := by
  have hleaves : p.leaves = q.leaves := leaves_eq_of_eqvGen h
  have hload {σ : Type} (host : Host σ) (t : Tree) (r : TypeReference) :
      p.load host t r = q.load host t r := by
    rw [p.load_eq_loadLayers_leaves, hleaves, q.load_eq_loadLayers_leaves]
  refine ⟨fun factory => ?_, fun σ host t r => ⟨hload host t r, fun w => ?_⟩, p.eqvGen_leaves,
    p.isLeaf_of_mem_leaves, fun σ host t r w => ⟨fun hserves => ?_, fun hserves => ?_⟩⟩
  · rw [← p.anyServes_leaves, hleaves, q.anyServes_leaves]
  · rw [asked, asked, hload]
  · rw [← p.anyServes_leaves] at hserves
    rw [load, loadLayers_of_anyServes host t hserves]
    exact firstAnswer_loadLayers host t r p.leaves w
  · have hflat : (Provider.layered p.leaves).serves r.factory = false :=
      (p.anyServes_leaves r.factory).trans hserves
    rw [load_of_not_serves hflat]
    rfl

open Sample

/-- Two class paths of one factory in nests of different depth, among layers that do not serve it. -/
def nested : Provider :=
  .layered [.layered [.layered [], .source abroad], .layered [.classPath [(home, ⟨0⟩)]],
    .classPath [(home, ⟨1⟩)]]

/-- The same without the nests. -/
def flattened : Provider :=
  .layered [.source abroad, .classPath [(home, ⟨0⟩)], .classPath [(home, ⟨1⟩)]]

/-- A loader that knows no class, and one that fails on its first call. -/
def faulty : World (List Loader) where
  host := [{}, { classes := classes, plan := [some (.linkage "broken")] }]

/-- A nest and its leaves fail alike, after the same two requests. -/
theorem layers_flatten_of_faulty_loader :
    Relation.EqvGen Regrouped nested flattened ∧
    Task.outcome (flattened.load Loader.host (tree abroad) ⟨"Server", home⟩) faulty =
      .error (.linkage "Server" "broken") ∧
    flattened.asked Loader.host (tree abroad) ⟨"Server", home⟩ faulty =
      [(⟨0⟩, "Server"), (⟨1⟩, "Server")] := by
  have hregrouped : Relation.EqvGen Regrouped nested flattened := nested.eqvGen_leaves
  obtain ⟨-, halike, -⟩ := layers_flatten hregrouped
  obtain ⟨hload, hasked⟩ := halike _ Loader.host (tree abroad) ⟨"Server", home⟩
  rw [← hload, ← hasked]
  exact ⟨hregrouped, rfl, rfl⟩

end AnnotationLookup.Provider
