import Ki.Foundation.Runs

/-!
# Termination of guarded runs

A measure that every step lowers bounds the length of every schedule, and shows
that every guarded run comes to an end; what holds where it ends is read off the
states in which no guarded step is left.
-/

namespace Ki
namespace Foundation

variable {σ α : Type}

/-- A schedule is no longer than the measure of the state it starts from. -/
theorem exec_length_le {next : α -> σ -> Option σ} (inv : σ -> Prop)
    (measure : σ -> Nat)
    (hinv : forall s a s', inv s -> next a s = some s' -> inv s')
    (hlower : forall s a s', inv s -> next a s = some s' -> measure s' < measure s)
    (as : List α) {s s' : σ} (hinit : inv s) (hexec : exec next as s = some s') :
    as.length + measure s' ≤ measure s := by
  induction as generalizing s with
  | nil =>
      cases hexec
      simp
  | cons a rest ih =>
      rcases Option.bind_eq_some_iff.mp hexec with ⟨mid, hmid, hrest⟩
      have htail := ih (hinv s a mid hinit hmid) hrest
      have hhead := hlower s a mid hinit hmid
      rw [List.length_cons]
      omega

/--
Every guarded run from the state is finite, and `post` holds in the states where
the runs end.
-/
inductive Ends (step : σ -> α -> σ -> Prop) (guard : σ -> α -> Prop)
    (post : σ -> Prop) : σ -> Prop where
  | intro {s : σ}
      (hnext : forall a s', guard s a -> step s a s' -> Ends step guard post s')
      (hlast : (forall a s', guard s a -> ¬ step s a s') -> post s) :
      Ends step guard post s

variable {step : σ -> α -> σ -> Prop} {guard : σ -> α -> Prop} {post : σ -> Prop}

theorem Ends.of_measure (inv : σ -> Prop) (measure : σ -> Nat)
    (hinv : forall s a s', inv s -> guard s a -> step s a s' -> inv s')
    (hlower : forall s a s', inv s -> guard s a -> step s a s' ->
      measure s' < measure s)
    (hlast : forall s, inv s -> (forall a s', guard s a -> ¬ step s a s') -> post s)
    {s : σ} (hinit : inv s) : Ends step guard post s := by
  induction hn : measure s using Nat.strongRecOn generalizing s with
  | ind n ih =>
      apply Ends.intro
      · intro a s' hguard hstep
        have hless := hlower s a s' hinit hguard hstep
        rw [hn] at hless
        exact ih (measure s') hless (hinv s a s' hinit hguard hstep) rfl
      · exact hlast s hinit

/-- Where a guarded run has got to, from which no guarded step is left, `post` holds. -/
theorem Ends.reached {s s' : σ} (h : Ends step guard post s)
    (hrun : Reaches step guard s s') (hend : forall a s'', guard s' a -> ¬ step s' a s'') :
    post s' := by
  induction hrun using Relation.ReflTransGen.head_induction_on with
  | refl =>
      cases h with
      | intro _ hlast => exact hlast hend
  | head hfirst _ ih =>
      rcases hfirst with ⟨a, hguard, hstep⟩
      cases h with
      | intro hnext _ => exact ih (hnext a _ hguard hstep)

end Foundation
end Ki
