import AnnotationLookup.Proofs.Provider.Faults
import AnnotationLookup.Proofs.Resolver.Source
import AnnotationLookup.Proofs.Tree.Run

/-!
# Answers by name

Over class paths held in memory, a reference is answered with the class of its name or with none,
however the providers are nested and whatever the tree has gone through. So the parameter types that a
method is looked for by, although they are put together from the names of loaded classes, are those
that it was declared with.

* `Metadata.gives_classOf_of_alike`: what does not depend on the world is given in every world;
* `Universe.keyed_host`, `Universe.load_alike`: loaders of one class path each;
* **`Provider.answers_by_name`**: the main statement.
-/

namespace AnnotationLookup

variable {σ : Type}

/-- A source whose answer to a reference does not depend on the world gives, in every world, the
classes that it may answer with. -/
theorem Metadata.gives_classOf_of_alike {source : Metadata σ} {t : Tree} {r : TypeReference}
    (h : Task.Alike (World.Hosts fun _ _ => True) (source.load t r) (source.load t r)) :
    Task.Gives (source.classOf t r) (source.Loads t r) := by
  intro w c
  constructor
  · rintro ⟨w', hc⟩
    exact returns_classOf r w c w' hc
  · rintro ⟨v, v', hload⟩
    have hc : source.classOf t r v = .ok c v' := by
      refine Task.bind_of_ok (a := some c) ?_ _
      rw [EStateM.adaptExcept, hload]
    have halike := classOf_alike h v w trivial
    rw [hc] at halike
    exact halike.exists_ok

namespace Universe

variable {universes : LoaderId → Universe}

theorem keyed_host (keyed : ∀ loader, (universes loader).Keyed) : (host universes).Keyed := by
  intro loader name s c h
  exact keyed loader name c (Except.ok.inj h)

theorem load_alike (p : Provider) (t : Tree) (r : TypeReference) :
    Task.Alike (World.Hosts fun _ _ => True) (p.load (host universes) t r)
      (p.load (host universes) t r) :=
  Provider.load_alike p p (.refl p) (fun _ => .report _ _ _ _)
    (fun _ _ _ => Host.ask_alike fun _ _ _ => ⟨rfl, trivial⟩) (fun _ _ => rfl) r.name

end Universe

namespace Provider

/-- **A reference is answered with the class of its name or with none.** For class paths that classes
have been put into in any order, and a tree that has come of any edits, no nest of providers answers a
reference with a class of another name. Hence the parameter types of a method come to be those that it
was declared with, pairs of brackets included, or fail to come to anything; they do not fail if a class
is found for each element type that is not primitive. -/
theorem answers_by_name (classes : LoaderId → List CompiledClass) (id : TreeId) (es : List Edit)
    (p : Provider) :
    let source := p.metadata (Universe.host fun loader => .ofList (classes loader))
    let t := (({ id } : Tree).run es).2
    (∀ r c, source.Loads t r c → c.name = r.name) ∧
    ∀ factory parameters w types,
      (∃ w', source.parameterTypes t factory parameters w = .ok types w') ↔
        types = parameters.map (·.type.typeName) ∧
        ElementsFound (fun name => source.Loads t ⟨name, factory⟩) types := by
  intro source t
  have hindexes : t.types.Indexes TypeNode.name := Tree.indexes_run NamedArena.indexes_empty es
  have hkeyed : source.Keyed t := keyed_metadata
    (Universe.keyed_host fun loader => Universe.keyed_ofList (classes loader)) hindexes p
  refine ⟨hkeyed, fun factory parameters w types => ?_⟩
  have hclass (name : String) : Task.Gives (source.classOf t ⟨name, factory⟩)
      (source.Loads t ⟨name, factory⟩) :=
    Metadata.gives_classOf_of_alike (Universe.load_alike p t _)
  rw [source.parameterTypes_eq t]
  refine (Metadata.gives_compiledTypes hclass (fun name c => hkeyed ⟨name, factory⟩ c) _ w
    types).trans (and_congr_right fun htypes => ?_)
  rw [htypes]

end Provider

end AnnotationLookup
