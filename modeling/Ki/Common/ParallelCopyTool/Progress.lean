import Ki.Common.ParallelCopyTool.Exactness

/-!
# Progress of the parallel copy tool

`close` stores the flag under the mutex and notifies nobody.  A writer asleep in
`pop` is never woken when `close` comes next; in every other run both threads
finish.
-/

namespace Ki
namespace Common
namespace Parallel

open Foundation
open Queue
open SynchronizedQueue
open Reader
open Writer

namespace ParallelCopyTool

/-- `copy` has returned and `writingFunction` has finished. -/
def Final (s : ParallelCopyTool) : Prop :=
  s.copyPc = .returned ∧ s.writingPc = .left

/-- `close` is not executed while the writer is asleep in `pop`. -/
def ClosesAwake (s : ParallelCopyTool) (a : Action) : Prop :=
  a.1 = .reading -> s.copyPc = .closing -> .writing ∉ s.queue.cv

instance (s : ParallelCopyTool) (a : Action) : Decidable (ClosesAwake s a) :=
  inferInstanceAs (Decidable (_ -> _ -> _))

theorem Final.stuck {src : List UInt8} {defaultBufferSize : Nat}
    {s : ParallelCopyTool} (h : s.Final) :
    Stuck (StepOf (next src defaultBufferSize)) s := by
  intro a s' hstep
  rcases a with ⟨thread, fails⟩
  cases thread with
  | reading => simp [StepOf, next, copy, h.left] at hstep
  | writing => simp [StepOf, next, writingFunction, h.right] at hstep

/-- A sleeping writer keeps the queue open. -/
def SleepsOpen (s : ParallelCopyTool) : Prop :=
  .writing ∈ s.queue.cv -> s.queue.isQueueOpen = true

theorem CopyStep.sleepsOpen {src : List UInt8} {defaultBufferSize : Nat}
    {s s' : ParallelCopyTool} (hawake : s.copyPc = .closing -> .writing ∉ s.queue.cv)
    (h : s.SleepsOpen) (hstep : CopyStep src defaultBufferSize s s') :
    s'.SleepsOpen := by
  intro hmem
  cases hstep with
  | close hpc => exact absurd hmem (hawake hpc)
  | notifyOne hpc => exact h (List.mem_of_mem_erase hmem)
  | _ => exact h hmem

theorem WritingStep.sleepsOpen {s s' : ParallelCopyTool} (h : s.SleepsOpen)
    (hstep : WritingStep s s') : s'.SleepsOpen := by
  intro hmem
  cases hstep with
  | pop hpc hpop =>
      cases pop_cases hpop with
      | wait hfree hgo hempty hopen => exact hopen
      | nullopt hfree hgo hempty hclosed => exact h hmem
      | take hfree hgo hqueue => exact h hmem
  | _ => exact h hmem

theorem copy_eq_none {src : List UInt8} {defaultBufferSize : Nat}
    {s : ParallelCopyTool} (h : Control src s)
    (hnone : s.copy src defaultBufferSize false = none) : s.copyPc = .returned := by
  unfold copy at hnone
  cases hpc : s.copyPc with
  | returned => rfl
  | threw => exact absurd hpc h.notThrown
  | read =>
      have hmapped := h.mapped (by rw [hpc]; rfl)
      simp [hpc, hmapped] at hnone
  | openReader =>
      rw [hpc] at hnone
      cases hopen : s.fileReader.open' src <;> simp [hopen] at hnone
  | mapWriter =>
      rw [hpc] at hnone
      cases hmmap : s.fileWriter.mmap <;> simp [hmmap] at hnone
  | push buf =>
      have hfree := h.mutex (by rw [hpc]; rfl)
      simp [hpc, SynchronizedQueue.lock, hfree] at hnone
  | close =>
      have hfree := h.mutex (by rw [hpc]; rfl)
      simp [hpc, SynchronizedQueue.lock, hfree] at hnone
  | _ =>
      rw [hpc] at hnone
      cases hnone

theorem writingFunction_eq_none {s : ParallelCopyTool}
    (hnone : s.writingFunction = none) :
    s.writingPc = .notStarted ∨ s.writingPc = .left ∨ s.writingPc = .threw ∨
      .writing ∈ s.queue.cv ∨
      s.queue.qm ≠ none ∧ (s.writingPc = .testEmpty ∨ exists pc, s.writingPc = .pop pc) := by
  unfold writingFunction at hnone
  cases hpc : s.writingPc with
  | notStarted => exact Or.inl rfl
  | left => exact Or.inr (Or.inl rfl)
  | threw => exact Or.inr (Or.inr (Or.inl rfl))
  | testEmpty =>
      rw [hpc] at hnone
      have hheld := isEmpty_eq_none (Option.map_eq_none_iff.mp hnone)
      exact Or.inr (Or.inr (Or.inr (Or.inr ⟨hheld, Or.inl rfl⟩)))
  | pop pc =>
      rw [hpc] at hnone
      rcases pop_eq_none (Option.map_eq_none_iff.mp hnone) with hasleep | hheld
      · exact Or.inr (Or.inr (Or.inr (Or.inl hasleep)))
      · exact Or.inr (Or.inr (Or.inr (Or.inr ⟨hheld, Or.inr ⟨pc, rfl⟩⟩)))
  | write buf =>
      rw [hpc] at hnone
      cases hwrite : (MMapFileWriter.write buf).run s.fileWriter <;> simp [hwrite] at hnone
  | _ =>
      rw [hpc] at hnone
      cases hnone

/--
In every run in which no call fails and `close` is not executed while the writer is
asleep, a state without a further step is the final one.
-/
theorem parallel_stuck_only_when_final (src : List UInt8) (hpos : 1 ≤ src.length)
    (hsrc : src.length < 2 ^ 63) (defaultBufferSize : Nat)
    (hpage : defaultBufferSize < 2 ^ 63) (previous : Option (List UInt8))
    (s : ParallelCopyTool)
    (hrun : Reaches (StepOf (next src defaultBufferSize))
      (fun x a => NoFailure x a ∧ ClosesAwake x a) (new src previous) s)
    (hstuck : Stuck (StepOf (next src defaultBufferSize)) s) : s.Final := by
  have hinv : (Inv src s ∧ s.writingPc ≠ .threw) ∧ s.SleepsOpen := by
    refine Reaches.invariant
      (fun x => (Inv src x ∧ x.writingPc ≠ .threw) ∧ x.SleepsOpen) ?_ hrun ?_
    · intro x a x' hx hguard hstep
      refine ⟨next_notThrown hpos hsrc hpage hx.left hguard.left hstep, ?_⟩
      rcases next_cases hguard.left hstep with ⟨hthread, hcopy⟩ | ⟨_, hwriting⟩
      · exact hcopy.sleepsOpen (hguard.right hthread) hx.right
      · exact hwriting.sleepsOpen hx.right
    · refine ⟨⟨new_inv src previous, by simp [new]⟩, ?_⟩
      intro hmem
      cases hmem
  have hcopyNone : s.copy src defaultBufferSize false = none :=
    Option.eq_none_iff_forall_ne_some.mpr (hstuck (.reading, false))
  have hwritingNone : s.writingFunction = none :=
    Option.eq_none_iff_forall_ne_some.mpr (hstuck (.writing, false))
  have hcontrol := hinv.left.left.control
  have hreturned := copy_eq_none hcontrol hcopyNone
  refine ⟨hreturned, ?_⟩
  rcases writingFunction_eq_none hwritingNone with
    hnot | hleft | hthrew | hasleep | ⟨hheld, _⟩
  · have hstarted := hcontrol.started.mpr hnot
    rw [hreturned] at hstarted
    cases hstarted
  · exact hleft
  · exact absurd hthrew hinv.left.right
  · have hopen := hinv.right hasleep
    rw [hcontrol.isOpen, hreturned] at hopen
    cases hopen
  · exact absurd (hcontrol.mutex (by rw [hreturned]; rfl)) hheld

/-- Both threads finish the copy of one byte, the reader first. -/
def readerFirst : List Action :=
  List.replicate 15 (.reading, false) ++ List.replicate 7 (.writing, false)

theorem parallel_stuck_only_when_final_readerFirst :
    exists s, exec (next [1] 4096) readerFirst (new [1] none) = some s ∧
      s.Final := by
  have hview : (exec (next [1] 4096) readerFirst (new [1] none)).map
      (fun s => (s.copyPc, s.writingPc)) = some (.returned, .left) := by
    decide +kernel
  rcases Option.map_eq_some_iff.mp hview with ⟨s, hexec, hpcs⟩
  have hfinal : s.Final := Prod.mk.inj hpcs
  refine ⟨s, hexec, ?_⟩
  exact parallel_stuck_only_when_final [1] (by decide) (by decide) 4096 (by decide) none s
    (reaches_of_exec readerFirst (by decide +kernel) hexec) hfinal.stuck

/-- The writer takes the only chunk and goes to sleep; then the reader closes the queue. -/
def sleepThenClose : List Action :=
  List.replicate 12 (.reading, false) ++ List.replicate 7 (.writing, false) ++
    List.replicate 3 (.reading, false)

/-- A run without failures can end with the writer asleep in a closed queue. -/
theorem parallel_stuck_after_close :
    ¬ forall (src : List UInt8) (defaultBufferSize : Nat)
      (previous : Option (List UInt8)) (s : ParallelCopyTool),
      1 ≤ src.length -> src.length < 2 ^ 63 -> defaultBufferSize < 2 ^ 63 ->
      Reaches (StepOf (next src defaultBufferSize)) NoFailure (new src previous) s ->
      Stuck (StepOf (next src defaultBufferSize)) s -> s.Final := by
  intro h
  have hview : (exec (next [1] 4096) sleepThenClose (new [1] none)).map
      (fun s => (s.copyPc, s.writingPc, s.queue.cv)) =
      some (.returned, .pop .waiting, [.writing]) := by
    decide +kernel
  rcases Option.map_eq_some_iff.mp hview with ⟨s, hexec, hpcs⟩
  simp only [Prod.mk.injEq] at hpcs
  rcases hpcs with ⟨hcopy, hwriting, hcv⟩
  have hstuck : Stuck (StepOf (next [1] 4096)) s := by
    intro a s' hstep
    rcases a with ⟨thread, fails⟩
    cases thread with
    | reading => simp [StepOf, next, copy, hcopy] at hstep
    | writing => simp [StepOf, next, writingFunction, hwriting, pop, hcv] at hstep
  have hfinal := h [1] 4096 none s (by decide) (by decide) (by decide)
    (reaches_of_exec sleepThenClose (by decide +kernel) hexec) hstuck
  rw [hfinal.right] at hwriting
  cases hwriting

end ParallelCopyTool
end Parallel
end Common
end Ki
