import Ki.Foundation.Runs

/-!
# Refinement

A system refines another one if every step of it is answered by one step of the
other or by none, so that what is seen of the two states always agrees.  Runs are
matched by runs then, and the invariants of the abstract system hold of what is seen
of the concrete one.
-/

namespace Ki
namespace Foundation

variable {σ τ α β : Type}

/--
The states stay related from the start, every step is answered by a step of that name or
by none, and related states agree in what `view` shows.
-/
def Refinement (step : σ -> α -> σ -> Prop) (guard : σ -> α -> Prop) (s : σ)
    (step' : τ -> β -> τ -> Prop) (t : τ) (name : α -> β) (view : σ -> τ -> Prop) :
    Prop :=
  exists R : σ -> τ -> Prop, R s t ∧ (forall x y, R x y -> view x y) ∧
    forall x a x' y, R x y -> guard x a -> step x a x' ->
      R x' y ∨ exists y', step' y (name a) y' ∧ R x' y'

variable {step : σ -> α -> σ -> Prop} {guard : σ -> α -> Prop}
  {step' : τ -> β -> τ -> Prop} {name : α -> β} {view : σ -> τ -> Prop}

/-- Every run of the concrete system is answered by a run of the abstract one. -/
theorem Refinement.reaches {s s' : σ} {t : τ}
    (h : Refinement step guard s step' t name view) (hrun : Reaches step guard s s') :
    exists t', Reaches step' anyStep t t' ∧ view s' t' := by
  rcases h with ⟨R, hinit, hview, hstep⟩
  have hsim : exists t', R s' t' ∧ Reaches step' anyStep t t' := by
    apply Reaches.simulates R ?_ hrun hinit
    intro x a x' y hxy hguard hx
    rcases hstep x a x' y hxy hguard hx with hsame | ⟨y', hy, hxy'⟩
    · exact ⟨y, hsame, Relation.ReflTransGen.refl⟩
    · exact ⟨y', hxy', Reaches.single trivial hy⟩
  rcases hsim with ⟨t', hrel, hreach⟩
  exact ⟨t', hreach, hview s' t' hrel⟩

end Foundation
end Ki
