import AnnotationLookup.Proofs.Provider.Agreement
import AnnotationLookup.Proofs.Resolver.Completion

/-!
# Resolutions through providers

* **`Provider.resolveTarget_alike`**: resolutions of one target go alike through providers that agree
  on the enclosing factory;
* `Host.Steady.resolve_alike`: over loaders whose answers do not change, resolutions of one target
  through one provider go alike at any time.
-/

namespace AnnotationLookup

variable {σ σ' : Type}

/-- **Resolutions of one target go alike** through providers that agree on the enclosing factory. -/
theorem Provider.resolveTarget_alike {host : Host σ} {host' : Host σ'} {H : σ → σ' → Prop}
    {p q : Provider} {t t' : Tree} {g : Target} (agree : p.AgreesOn g.enclosing.factory q)
    (asks : ∀ loader ∈ p.loadersOf g.enclosing.factory, ∀ name,
      Task.Alike (World.Hosts H) (ask host loader name) (ask host' loader name))
    (shows : p.sourceFree = false → ∀ name,
      sourceClass? t g.enclosing.factory name = sourceClass? t' g.enclosing.factory name)
    (settings settings' : Settings) (factory : Factory) :
    Task.Alike (World.Hosts H) ((p.metadata host).resolveTarget t settings g)
      ((q.metadata host').resolveTarget t' settings' (g.boundTo factory)) := by
  refine Metadata.resolveTarget_alike factory (AgreesOn.serves p q agree) fun name => ?_
  exact load_alike p q agree (fun _ => .report _ _ _ _) asks shows name

namespace Host.Steady

variable {host : Host σ} {I : σ → Prop}

theorem resolve_alike (steady : host.Steady I) {p : Provider} {t t' : Tree} {use : UseId}
    (same : t'.target use = t.target use)
    (shows : p.sourceFree = false → ∀ factory name,
      Provider.sourceClass? t factory name = Provider.sourceClass? t' factory name)
    (settings settings' : Settings) :
    Task.Alike (World.Hosts fun s s' => I s ∧ I s') ((p.metadata host).resolve t settings use)
      ((p.metadata host).resolve t' settings' use) := by
  refine Metadata.resolve_alike (fun _ h => same.trans h) fun g hg => ⟨g, same.trans hg, ?_⟩
  exact Provider.resolveTarget_alike (.refl p) (fun loader _ name => steady.ask_alike loader name)
    (fun h name => shows h _ name) _ _ g.annotationType.factory

theorem complete_keeps (steady : host.Steady I) (r : Resolver) (t : Tree) (use : UseId)
    {w : World σ} (hw : I w.host) : I (r.complete host t use w).2.2.host := by
  have hself : Task.Alike (World.Hosts fun s s' => I s ∧ I s')
      ((r.provider.metadata host).resolve t r.settings use)
      ((r.provider.metadata host).resolve t r.settings use) :=
    steady.resolve_alike rfl (fun _ _ _ => rfl) _ _
  exact (Metadata.complete_alike rfl hself ⟨hw, hw⟩).2.2.1

end Host.Steady

end AnnotationLookup
