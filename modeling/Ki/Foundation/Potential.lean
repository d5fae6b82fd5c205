import Ki.Foundation.Runs
import Mathlib.Algebra.Group.Action.Defs
import Mathlib.Algebra.Order.BigOperators.Group.Finset

/-!
# Potentials of components that share a state

Each component has a potential that depends on its own state and on a shared one.  A
step changes one component and the shared state; what it raises the potentials of the
others by has to be paid by the component that moves.  Some steps, the idle ones, need
not lower the total; of the others no schedule has more than the total it starts from.
-/

namespace Ki
namespace Foundation

variable {σ α : Type}

/-!
# Idle steps
-/

section Busy

variable (next : α -> σ -> Option σ) (idle : σ -> α -> Prop)
  [forall s a, Decidable (idle s a)]

/-- The number of steps of a schedule that are not idle. -/
def busySteps : List α -> σ -> Nat
  | [], _ => 0
  | a :: rest, s =>
      (if idle s a then 0 else 1) +
        match next a s with
        | none => 0
        | some s' => busySteps rest s'

variable {next idle}

theorem busySteps_le (inv : σ -> Prop) (measure : σ -> Nat)
    (hinv : forall s a s', inv s -> next a s = some s' -> inv s')
    (hkeep : forall s a s', inv s -> idle s a -> next a s = some s' ->
      measure s' ≤ measure s)
    (hlower : forall s a s', inv s -> ¬ idle s a -> next a s = some s' ->
      measure s' < measure s)
    (as : List α) {s s' : σ} (hinit : inv s) (hexec : exec next as s = some s') :
    busySteps next idle as s + measure s' ≤ measure s := by
  induction as generalizing s with
  | nil =>
      cases hexec
      simp [busySteps]
  | cons a rest ih =>
      rcases Option.bind_eq_some_iff.mp hexec with ⟨mid, hmid, hrest⟩
      have htail := ih (hinv s a mid hinit hmid) hrest
      simp only [busySteps, hmid]
      by_cases hidle : idle s a
      · have hhead := hkeep s a mid hinit hidle hmid
        rw [if_pos hidle]
        omega
      · have hhead := hlower s a mid hinit hidle hmid
        rw [if_neg hidle]
        omega

end Busy

/-!
# The total
-/

section Total

variable {ι κ : Type} [Fintype ι] [DecidableEq ι]

/-- The potentials of all components together. -/
def total (potential : ι -> σ -> κ -> Nat) (sh : σ) (f : ι -> κ) : Nat :=
  Finset.univ.sum fun i => potential i sh (f i)

/-- After a step of one component, with what it raises the others by at most. -/
theorem total_update_le {potential : ι -> σ -> κ -> Nat} {sh sh' : σ} {f : ι -> κ} {i : ι}
    {raise : Nat}
    (hother : forall j, j ≠ i -> potential j sh' (f j) ≤ potential j sh (f j) + raise)
    (c : κ) :
    total potential sh' (Function.update f i c) + potential i sh (f i) ≤
      total potential sh f + potential i sh' c + Fintype.card ι * raise := by
  have hself := Finset.add_sum_erase Finset.univ (fun j => potential j sh (f j))
    (Finset.mem_univ i)
  have hself' := Finset.add_sum_erase Finset.univ
    (fun j => potential j sh' (Function.update f i c j)) (Finset.mem_univ i)
  have hrest : (Finset.univ.erase i).sum
      (fun j => potential j sh' (Function.update f i c j)) ≤
      (Finset.univ.erase i).sum (fun j => potential j sh (f j) + raise) := by
    apply Finset.sum_le_sum
    intro j hj
    have hne := Finset.ne_of_mem_erase hj
    rw [Function.update_of_ne hne]
    exact hother j hne
  have hcard : (Finset.univ.erase i).card * raise ≤ Fintype.card ι * raise :=
    Nat.mul_le_mul_right raise (Finset.card_le_univ _)
  rw [Finset.sum_add_distrib, Finset.sum_const, smul_eq_mul] at hrest
  simp only [Function.update_self] at hself'
  unfold total
  omega

end Total

end Foundation
end Ki
