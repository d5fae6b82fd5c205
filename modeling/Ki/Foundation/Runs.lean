import Mathlib.Logic.Relation

/-!
# Guarded runs of transition systems

A labelled step relation together with a guard on the steps taken.  A claim
about "every run whose steps all meet a condition" is a statement about
`Reaches step guard`; a claim about every run is the case of the guard
`anyStep`.  The module supplies the two induction principles used throughout
the development, invariance and forward simulation, and the bridge from an
executable schedule to a run.
-/

namespace Ki
namespace Foundation

variable {σ τ α β : Type}

/-!
# Runs
-/

/-- One step that meets the guard in the state it leaves. -/
def GuardedStep (step : σ -> α -> σ -> Prop) (guard : σ -> α -> Prop)
    (s s' : σ) : Prop :=
  exists a, guard s a ∧ step s a s'

/-- A run, of any length, all of whose steps meet the guard. -/
abbrev Reaches (step : σ -> α -> σ -> Prop) (guard : σ -> α -> Prop) :
    σ -> σ -> Prop :=
  Relation.ReflTransGen (GuardedStep step guard)

/-- The guard that admits every step. -/
def anyStep (_ : σ) (_ : α) : Prop := True

instance (s : σ) (a : α) : Decidable (anyStep s a) :=
  inferInstanceAs (Decidable True)

/-- A state in which no step is possible. -/
def Stuck (step : σ -> α -> σ -> Prop) (s : σ) : Prop :=
  forall a s', ¬ step s a s'

variable {step : σ -> α -> σ -> Prop} {guard : σ -> α -> Prop}

theorem Reaches.invariant (inv : σ -> Prop)
    (hstep : forall s a s', inv s -> guard s a -> step s a s' -> inv s')
    {s s' : σ} (hrun : Reaches step guard s s') (hinit : inv s) : inv s' := by
  induction hrun with
  | refl =>
      exact hinit
  | tail _ hlast ih =>
      rcases hlast with ⟨a, hguard, ha⟩
      exact hstep _ a _ ih hguard ha

theorem Reaches.mono {guard' : σ -> α -> Prop}
    (hguard : forall s a, guard s a -> guard' s a)
    {s s' : σ} (hrun : Reaches step guard s s') : Reaches step guard' s s' := by
  refine Relation.ReflTransGen.mono ?_ _ _ hrun
  intro x y hxy
  rcases hxy with ⟨a, ha, hstep⟩
  exact ⟨a, hguard x a ha, hstep⟩

/--
Of a run under the weaker guard either every step meets the stronger one too, or a
step that does not has lost something for good.
-/
theorem Reaches.meets_or_lost {guard' : σ -> α -> Prop} (inv lost : σ -> Prop)
    (hstep : forall s a s', inv s -> guard s a -> step s a s' -> inv s')
    (hkeep : forall s a s', inv s -> lost s -> step s a s' -> lost s')
    (hlose : forall s a s', inv s -> guard s a -> ¬ guard' s a -> step s a s' ->
      lost s')
    {s s' : σ} (hrun : Reaches step guard s s') (hinit : inv s) :
    inv s' ∧
      (Reaches step (fun x a => guard x a ∧ guard' x a) s s' ∨ lost s') := by
  induction hrun with
  | refl =>
      exact ⟨hinit, Or.inl Relation.ReflTransGen.refl⟩
  | @tail x x' _ hlast ih =>
      rcases ih with ⟨hinv, hcase⟩
      rcases hlast with ⟨a, hguard, ha⟩
      refine ⟨hstep x a x' hinv hguard ha, ?_⟩
      rcases hcase with hreach | hlost
      · by_cases hmeets : guard' x a
        · exact Or.inl (hreach.tail ⟨a, ⟨hguard, hmeets⟩, ha⟩)
        · exact Or.inr (hlose x a x' hinv hguard hmeets ha)
      · exact Or.inr (hkeep x a x' hinv hlost ha)

theorem Reaches.single {s s' : σ} {a : α} (hguard : guard s a)
    (hstep : step s a s') : Reaches step guard s s' :=
  Relation.ReflTransGen.single ⟨a, hguard, hstep⟩

theorem Stuck.reaches_eq {s s' : σ} (hstuck : Stuck step s)
    (hrun : Reaches step guard s s') : s' = s := by
  induction hrun with
  | refl => rfl
  | tail _ hlast ih =>
      rcases hlast with ⟨a, _, ha⟩
      rw [ih] at ha
      exact absurd ha (hstuck a _)

/--
Forward simulation lifts from steps to runs: each concrete step may be answered
by any number of abstract steps.
-/
theorem Reaches.simulates {step' : τ -> β -> τ -> Prop} {guard' : τ -> β -> Prop}
    (R : σ -> τ -> Prop)
    (hsim : forall s a s' t, R s t -> guard s a -> step s a s' ->
      exists t', R s' t' ∧ Reaches step' guard' t t')
    {s s' : σ} {t : τ} (hrun : Reaches step guard s s') (hinit : R s t) :
    exists t', R s' t' ∧ Reaches step' guard' t t' := by
  induction hrun with
  | refl =>
      exact ⟨t, hinit, Relation.ReflTransGen.refl⟩
  | tail _ hlast ih =>
      rcases ih with ⟨u, hRu, hrunU⟩
      rcases hlast with ⟨a, hguard, ha⟩
      rcases hsim _ a _ u hRu hguard ha with ⟨u', hRu', hrunU'⟩
      exact ⟨u', hRu', hrunU.trans hrunU'⟩

/-!
# Schedules

A deterministic step function, one successor for each label, runs on a list of
labels.  Concrete runs are evaluated this way.
-/

/-- The step relation of a step function. -/
def StepOf (next : α -> σ -> Option σ) (s : σ) (a : α) (s' : σ) : Prop :=
  next a s = some s'

/-- The state a schedule leads to, if each of its steps is possible. -/
def exec (next : α -> σ -> Option σ) : List α -> σ -> Option σ
  | [], s => some s
  | a :: rest, s => (next a s).bind (exec next rest)

/-- The schedule's steps all meet the guard. -/
def execGuard (next : α -> σ -> Option σ) (guard : σ -> α -> Prop)
    [forall s a, Decidable (guard s a)] : List α -> σ -> Bool
  | [], _ => true
  | a :: rest, s =>
      decide (guard s a) &&
        match next a s with
        | none => true
        | some s' => execGuard next guard rest s'

theorem reaches_of_exec {next : α -> σ -> Option σ} {guard : σ -> α -> Prop}
    [forall s a, Decidable (guard s a)] (as : List α) {s s' : σ}
    (hguard : execGuard next guard as s = true) (hexec : exec next as s = some s') :
    Reaches (StepOf next) guard s s' := by
  induction as generalizing s with
  | nil =>
      cases hexec
      exact Relation.ReflTransGen.refl
  | cons a rest ih =>
      rw [execGuard, Bool.and_eq_true, decide_eq_true_eq] at hguard
      rcases Option.bind_eq_some_iff.mp hexec with ⟨mid, hmid, hrest⟩
      have htail : execGuard next guard rest mid = true := by
        simpa [hmid] using hguard.right
      exact Relation.ReflTransGen.head ⟨a, hguard.left, hmid⟩ (ih htail hrest)

theorem execGuard_anyStep {next : α -> σ -> Option σ} (as : List α) (s : σ) :
    execGuard next anyStep as s = true := by
  induction as generalizing s with
  | nil => rfl
  | cons a rest ih =>
      rw [execGuard, Bool.and_eq_true, decide_eq_true_eq]
      refine ⟨trivial, ?_⟩
      split
      · rfl
      · exact ih _

theorem reaches_of_exec_any {next : α -> σ -> Option σ} (as : List α) {s s' : σ}
    (hexec : exec next as s = some s') : Reaches (StepOf next) anyStep s s' :=
  reaches_of_exec as (execGuard_anyStep as s) hexec

end Foundation
end Ki
