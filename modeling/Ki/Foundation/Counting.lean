import Mathlib.Data.Finset.Card
import Mathlib.Data.Fintype.Basic

/-!
# Counting threads

The number of threads with a property, and what becomes of it when one thread
changes.
-/

namespace Ki
namespace Foundation

variable {ι : Type} [Fintype ι]

/-- The number of threads with the property. -/
def countOf (p : ι -> Prop) [DecidablePred p] : Nat :=
  (Finset.univ.filter p).card

theorem countOf_eq_zero {p : ι -> Prop} [DecidablePred p] (h : forall t, ¬ p t) :
    countOf p = 0 := by
  rw [countOf, Finset.card_eq_zero, Finset.filter_eq_empty_iff]
  intro t _
  exact h t

variable [DecidableEq ι]

theorem countOf_eq_erase_add (p : ι -> Prop) [DecidablePred p] (t : ι) :
    countOf p = ((Finset.univ.erase t).filter p).card + if p t then 1 else 0 := by
  have huniv : countOf p = ((insert t (Finset.univ.erase t)).filter p).card := by
    rw [Finset.insert_erase (Finset.mem_univ t)]
    rfl
  rw [huniv, Finset.filter_insert]
  by_cases ht : p t
  · rw [if_pos ht, if_pos ht, Finset.card_insert_of_notMem]
    simp
  · rw [if_neg ht, if_neg ht, Nat.add_zero]

/-- One thread changes, the others keep the property or keep being without it. -/
theorem countOf_move {p p' : ι -> Prop} [DecidablePred p] [DecidablePred p'] (t : ι)
    (h : forall u, u ≠ t -> (p' u <-> p u)) :
    countOf p' + (if p t then 1 else 0) = countOf p + if p' t then 1 else 0 := by
  have hrest : (Finset.univ.erase t).filter p' = (Finset.univ.erase t).filter p := by
    apply Finset.filter_congr
    intro u hu
    exact h u (Finset.ne_of_mem_erase hu)
  rw [countOf_eq_erase_add p t, countOf_eq_erase_add p' t, hrest]
  omega

end Foundation
end Ki
