import Mathlib.Data.List.Perm.Basic
import Mathlib.Data.List.Nodup
import Mathlib.Logic.Function.Basic

/-!
# Elements held in exactly one cell

A family of cells, each a list, partitions a domain when every element of the
domain occurs once in one cell and nothing else occurs at all.  Elements move
between cells; the lemmas say that a move keeps the partition.
-/

namespace Ki
namespace Foundation

variable {α β : Type}

/-- Every element of the domain lies once in exactly one cell. -/
def Partitioned (dom : α -> Prop) (cell : β -> List α) : Prop :=
  exists owner : α -> β, forall b,
    (cell b).Nodup ∧ forall a, a ∈ cell b <-> dom a ∧ owner a = b

variable {dom : α -> Prop} {cell cell' : β -> List α}

theorem Partitioned.single {b : β} (hnodup : (cell b).Nodup)
    (hdom : forall a, a ∈ cell b <-> dom a)
    (hother : forall c, c ≠ b -> cell c = []) : Partitioned dom cell := by
  refine ⟨fun _ => b, ?_⟩
  intro c
  by_cases hc : c = b
  · subst c
    exact ⟨hnodup, by simp [hdom]⟩
  · rw [hother c hc]
    exact ⟨List.nodup_nil, by simp [Ne.symm hc]⟩

theorem Partitioned.eq_of_mem (h : Partitioned dom cell) {a : α} {b c : β}
    (hb : a ∈ cell b) (hc : a ∈ cell c) : b = c := by
  rcases h with ⟨owner, howner⟩
  rw [← (((howner b).right a).mp hb).right, ← (((howner c).right a).mp hc).right]

theorem Partitioned.exists_mem (h : Partitioned dom cell) {a : α}
    (ha : dom a) : exists b, a ∈ cell b := by
  rcases h with ⟨owner, howner⟩
  exact ⟨owner a, ((howner (owner a)).right a).mpr ⟨ha, rfl⟩⟩

theorem Partitioned.congr (h : Partitioned dom cell)
    (hperm : forall b, (cell' b).Perm (cell b)) : Partitioned dom cell' := by
  rcases h with ⟨owner, howner⟩
  refine ⟨owner, ?_⟩
  intro b
  refine ⟨(hperm b).nodup_iff.mpr (howner b).left, ?_⟩
  intro a
  rw [(hperm b).mem_iff]
  exact (howner b).right a

/-- Moving one element from the cell `b` to the cell `c` keeps the partition. -/
theorem Partitioned.move (h : Partitioned dom cell) {a : α} {b c : β}
    (hbc : b ≠ c) (hb : (cell b).Perm (a :: cell' b))
    (hc : (cell' c).Perm (a :: cell c))
    (hother : forall d, d ≠ b -> d ≠ c -> cell' d = cell d) :
    Partitioned dom cell' := by
  classical
  rcases h with ⟨owner, howner⟩
  have hmem : a ∈ cell b := hb.mem_iff.mpr List.mem_cons_self
  have hown : dom a ∧ owner a = b := ((howner b).right a).mp hmem
  have hnodupB : (a :: cell' b).Nodup := hb.nodup_iff.mp (howner b).left
  have hnotin : forall d, d ≠ b -> a ∉ cell d := by
    intro d hd hmemD
    exact hd ((((howner d).right a).mp hmemD).right.symm.trans hown.right)
  refine ⟨Function.update owner a c, ?_⟩
  intro d
  by_cases hdb : d = b
  · subst d
    refine ⟨(List.nodup_cons.mp hnodupB).right, ?_⟩
    intro x
    by_cases hxa : x = a
    · subst x
      simp [(List.nodup_cons.mp hnodupB).left, Ne.symm hbc]
    · rw [Function.update_of_ne hxa, ← (howner b).right x, hb.mem_iff]
      simp [hxa]
  · by_cases hdc : d = c
    · subst d
      refine ⟨hc.nodup_iff.mpr (List.nodup_cons.mpr
        ⟨hnotin c hdb, (howner c).left⟩), ?_⟩
      intro x
      rw [hc.mem_iff]
      by_cases hxa : x = a
      · subst x
        simp [hown.left]
      · rw [Function.update_of_ne hxa, ← (howner c).right x]
        simp [hxa]
    · rw [hother d hdb hdc]
      refine ⟨(howner d).left, ?_⟩
      intro x
      by_cases hxa : x = a
      · subst x
        simp [hnotin d hdb, Ne.symm hdc]
      · rw [Function.update_of_ne hxa]
        exact (howner d).right x

/-- Cells that are all different hold no more than there is. -/
theorem Partitioned.length_le (h : Partitioned dom cell) {cells : List β}
    (hcells : cells.Nodup) {all : List α} (hdom : forall a, dom a -> a ∈ all) :
    (cells.flatMap cell).length ≤ all.length := by
  rcases h with ⟨owner, howner⟩
  have hnodup : (cells.flatMap cell).Nodup := by
    apply List.nodup_flatMap.mpr
    refine ⟨fun b _ => (howner b).left, hcells.imp ?_⟩
    intro b c hbc a hb hc
    have hownerB := (((howner b).right a).mp hb).right
    have hownerC := (((howner c).right a).mp hc).right
    exact hbc (hownerB.symm.trans hownerC)
  apply List.Subperm.length_le
  apply List.subperm_of_subset hnodup
  intro a ha
  rcases List.mem_flatMap.mp ha with ⟨b, _, hb⟩
  exact hdom a (((howner b).right a).mp hb).left

end Foundation
end Ki
