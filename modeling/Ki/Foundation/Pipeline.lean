import Ki.Foundation.Refinement

/-!
# A pipeline of two stages

The first stage takes the items of a job one after the other, the second passes them
on in the same order, and only so many items fit between the two.  How far each stage
has come is all there is to know.
-/

namespace Ki
namespace Foundation

/-- The items that have gone in, and those that have come out. -/
structure Pipeline where
  taken : Nat
  passed : Nat

inductive Stage where
  | first
  | second

namespace Pipeline

def init : Pipeline where
  taken := 0
  passed := 0

inductive Step (count capacity : Nat) (p : Pipeline) : Stage -> Pipeline -> Prop where
  | take (hmore : p.taken < count) (hroom : p.taken < p.passed + capacity) :
      Step count capacity p .first { p with taken := p.taken + 1 }
  | pass (hready : p.passed < p.taken) :
      Step count capacity p .second { p with passed := p.passed + 1 }

structure Inv (count capacity : Nat) (p : Pipeline) : Prop where
  ordered : p.passed ≤ p.taken
  bounded : p.taken ≤ count
  fits : p.taken ≤ p.passed + capacity

theorem Step.inv {count capacity : Nat} {p p' : Pipeline} {stage : Stage}
    (h : Inv count capacity p) (hstep : Step count capacity p stage p') :
    Inv count capacity p' := by
  cases hstep with
  | take hmore hroom => exact ⟨Nat.le_succ_of_le h.ordered, hmore, hroom⟩
  | pass hready =>
      refine ⟨hready, h.bounded, ?_⟩
      rw [Nat.add_right_comm]
      exact Nat.le_succ_of_le h.fits

theorem init_inv {count capacity : Nat} : Inv count capacity init where
  ordered := Nat.le_refl _
  bounded := Nat.zero_le _
  fits := Nat.zero_le _

theorem reaches_inv {count capacity : Nat} {p : Pipeline}
    (hrun : Reaches (Step count capacity) anyStep init p) : Inv count capacity p :=
  Reaches.invariant (Inv count capacity) (fun _ _ _ hx _ hstep => hstep.inv hx) hrun init_inv

end Pipeline
end Foundation
end Ki
