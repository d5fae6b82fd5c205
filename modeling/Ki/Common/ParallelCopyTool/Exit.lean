import Ki.Common.Main
import Ki.Common.ParallelCopyTool.Termination

/-!
# How a process with the parallel tool ends

The process exits with the destination equal to the source, or with a destination into
which nothing has been written.  When a signal comes in between, the destructor waits for
a writing thread that waits for the reader.
-/

namespace Ki
namespace Common
namespace Parallel

open Foundation
open Queue
open SynchronizedQueue
open Reader
open Writer

namespace ParallelCopyTool

/-- The tool as `main` sees it. -/
def copyTool (src : List UInt8) (defaultBufferSize : Nat) :
    ICopyTool ParallelCopyTool Action where
  next := next src defaultBufferSize
  inCopy := fun a => a.1 == .reading
  returned := fun s => s.copyPc == .returned
  threw := fun s => s.copyPc == .threw
  joins := fun s => s.writingPc == .notStarted || s.writingPc == .left

/-!
# The tool
-/

/-- Nothing has been stored: the destination is as it was, or created empty, or resized. -/
def Unwritten (src : List UInt8) (previous file : Option (List UInt8)) : Prop :=
  file = previous ∨ file = some (previous.getD []) ∨
    file = some (ftruncate (previous.getD []) src.length)

/-- What the writing thread has done before its start and at its end. -/
structure WritingEnds (src : List UInt8) (previous : Option (List UInt8))
    (s : ParallelCopyTool) : Prop where
  /-- an empty source cannot be mapped -/
  empty : src = [] -> s.writingPc = .notStarted ∧
    (s.copyPc = .openReader ∨ s.copyPc = .threw)
  unopened : s.copyPc = .openReader ∨ s.copyPc = .createWriter ->
    s.fileWriter.file = previous ∧ s.fileWriter.fileSize = src.length
  opened : s.copyPc = .resizeWriter -> s.fileWriter.file = some (previous.getD []) ∧
    s.fileWriter.fileSize = src.length
  unwritten : s.writingPc = .notStarted -> Unwritten src previous s.fileWriter.file
  closed : s.writingPc.Left -> s.queue.isQueueOpen = false

theorem new_writingEnds (src : List UInt8) (previous : Option (List UInt8)) :
    WritingEnds src previous (new src previous) where
  empty := fun _ => ⟨rfl, Or.inl rfl⟩
  unopened := fun _ => ⟨rfl, rfl⟩
  opened := by simp [new]
  unwritten := fun _ => Or.inl rfl
  closed := False.elim

theorem CopyStep.writingEnds {src : List UInt8} {defaultBufferSize : Nat}
    {previous : Option (List UInt8)} {s s' : ParallelCopyTool} (hpaced : Paced src s)
    (h : WritingEnds src previous s) (hstep : CopyStep src defaultBufferSize s s') :
    WritingEnds src previous s' := by
  have hempty : s.copyPc ≠ .openReader -> s.copyPc ≠ .threw -> src ≠ [] := by
    intro hopen hthrew hsrc
    rcases (h.empty hsrc).right with hpc | hpc
    · exact hopen hpc
    · exact hthrew hpc
  -- a step that leaves the file of the writer and the flag of the queue alone
  have hsame : forall (tool : ParallelCopyTool), src ≠ [] ->
      tool.fileWriter.file = s.fileWriter.file -> tool.writingPc = s.writingPc ->
      tool.queue.isQueueOpen = s.queue.isQueueOpen ->
      tool.copyPc ≠ .openReader ∧ tool.copyPc ≠ .createWriter ∧
        tool.copyPc ≠ .resizeWriter ->
      WritingEnds src previous tool := by
    intro tool hsrc hfile hwriting hqueue hpc
    refine ⟨fun hnil => absurd hnil hsrc, ?_, fun hresize => absurd hresize hpc.right.right,
      ?_, ?_⟩
    · intro hunopened
      rcases hunopened with hopen | hcreate
      · exact absurd hopen hpc.left
      · exact absurd hcreate hpc.right.left
    · rw [hwriting, hfile]
      exact h.unwritten
    · rw [hwriting, hqueue]
      exact h.closed
  cases hstep with
  | openReader hpc hopen =>
      refine ⟨?_, fun _ => h.unopened (Or.inl hpc), by simp, h.unwritten, h.closed⟩
      intro hsrc
      rw [MMapFileReader.open', hpaced.size, hsrc] at hopen
      cases hopen
  | openFails hpc hopen =>
      exact ⟨fun hsrc => ⟨(h.empty hsrc).left, Or.inr rfl⟩, by simp, by simp, h.unwritten,
        h.closed⟩
  | createWriter hpc =>
      have hunopened := h.unopened (Or.inr hpc)
      have hfile : s.fileWriter.openFile.file = some (previous.getD []) := by
        rw [MMapFileWriter.openFile, hunopened.left]
      refine ⟨?_, by simp, fun _ => ⟨hfile, hunopened.right⟩,
        fun _ => Or.inr (Or.inl hfile), h.closed⟩
      exact fun hsrc => absurd hsrc (hempty (by simp [hpc]) (by simp [hpc]))
  | resizeWriter hpc =>
      have hopened := h.opened hpc
      have hfile : s.fileWriter.resize.file =
          some (ftruncate (previous.getD []) src.length) := by
        rw [MMapFileWriter.resize, hopened.left, hopened.right, Option.map_some]
      refine ⟨?_, by simp, by simp, fun _ => Or.inr (Or.inr hfile), h.closed⟩
      exact fun hsrc => absurd hsrc (hempty (by simp [hpc]) (by simp [hpc]))
  | mapWriter hpc hmmap =>
      have hsrc := hempty (by simp [hpc]) (by simp [hpc])
      unfold MMapFileWriter.mmap at hmmap
      split at hmmap
      · cases hmmap
      · cases hmmap
        exact hsame _ hsrc rfl rfl rfl (by simp)
  | mapFails hpc hmmap =>
      exact hsame _ (hempty (by simp [hpc]) (by simp [hpc])) rfl rfl rfl (by simp)
  | startWriter hpc =>
      refine ⟨?_, by simp, by simp, by simp, False.elim⟩
      exact fun hsrc => absurd hsrc (hempty (by simp [hpc]) (by simp [hpc]))
  | close hpc =>
      refine ⟨?_, by simp, by simp, h.unwritten, fun _ => rfl⟩
      exact fun hsrc => absurd hsrc (hempty (by simp [hpc]) (by simp [hpc]))
  | _ hpc => exact hsame _ (hempty (by simp [hpc]) (by simp [hpc])) rfl rfl rfl (by simp)

theorem WritingStep.writingEnds {src : List UInt8} {previous : Option (List UInt8)}
    {s s' : ParallelCopyTool} (hpaced : Paced src s) (h : WritingEnds src previous s)
    (hstep : WritingStep s s') : WritingEnds src previous s' := by
  have hstarted : s.writingPc ≠ .notStarted := by
    cases hstep <;> simp [*]
  have hsrc : src ≠ [] := fun hnil => hstarted (h.empty hnil).left
  have hstarting : s.copyPc.starting ≠ true := fun hpc => hstarted (hpaced.unstarted hpc)
  -- the writing thread runs, so `copy` has created the destination
  have hrunning : forall (tool : ParallelCopyTool), tool.copyPc = s.copyPc ->
      tool.writingPc ≠ .notStarted ->
      (tool.writingPc.Left -> tool.queue.isQueueOpen = false) ->
      WritingEnds src previous tool := by
    intro tool hcopy hwriting hclosed
    refine ⟨fun hnil => absurd hnil hsrc, ?_, ?_, fun hnot => absurd hnot hwriting, hclosed⟩
    · rintro (hpc | hpc)
      · exact absurd (by rw [← hcopy, hpc]; rfl) hstarting
      · exact absurd (by rw [← hcopy, hpc]; rfl) hstarting
    · intro hpc
      exact absurd (by rw [← hcopy, hpc]; rfl) hstarting
  cases hstep with
  | empty hpc hempty =>
      have hclosed := ((isEmpty_eq_some hempty).right.mp rfl).right
      exact hrunning _ rfl (by simp) fun _ => hclosed
  | pop hpc hpop =>
      cases pop_cases hpop with
      | nullopt hfree hwake hempty hclosed =>
          exact hrunning _ rfl (by simp [afterPop]) fun _ => hclosed
      | _ => exact hrunning _ rfl (by simp [afterPop]) False.elim
  | finishWrite hpc =>
      exact hrunning _ rfl (by simp) fun _ => h.closed (by rw [hpc]; trivial)
  | _ => exact hrunning _ rfl (by simp) False.elim

theorem reaches_writingEnds {src : List UInt8} {defaultBufferSize : Nat}
    {previous : Option (List UInt8)} {s : ParallelCopyTool}
    (hrun : Reaches (StepOf (next src defaultBufferSize)) NoFailure (new src previous) s) :
    WritingEnds src previous s := by
  have hboth : Paced src s ∧ WritingEnds src previous s := by
    refine Reaches.invariant (fun x => Paced src x ∧ WritingEnds src previous x) ?_ hrun
      ⟨new_paced src previous, new_writingEnds src previous⟩
    intro x a x' hx hok hstep
    rcases next_cases hok hstep with ⟨_, hcopy⟩ | ⟨_, hwriting⟩
    · exact ⟨hcopy.paced hx.left, hcopy.writingEnds hx.left hx.right⟩
    · exact ⟨hwriting.paced hx.left, hwriting.writingEnds hx.left hx.right⟩
  exact hboth.right

/-- A call of `copy` that has returned has started the writing thread. -/
theorem started_of_returned {src : List UInt8} (hsrc : src.length < 2 ^ 63)
    {defaultBufferSize : Nat} (hpage : defaultBufferSize < 2 ^ 63)
    {previous : Option (List UInt8)} {s : ParallelCopyTool}
    (hrun : Reaches (StepOf (next src defaultBufferSize)) NoSystemFailure
      (new src previous) s)
    (hreturned : s.copyPc = .returned) : s.writingPc ≠ .notStarted := by
  rcases reaches_unthrown hrun with ⟨pc, hreach, rfl | ⟨hthrew, _⟩⟩
  · have hpos : 1 ≤ src.length := by
      refine List.length_pos_iff.mpr fun hnil => ?_
      rcases ((reaches_writingEnds hreach).empty hnil).right with hopen | hthrew
      · cases hopen.symm.trans hreturned
      · cases hthrew.symm.trans hreturned
    intro hnot
    have hunstarted := (reaches_inv hpos hsrc hpage hreach).control.started.mpr hnot
    rw [hreturned] at hunstarted
    cases hunstarted
  · cases hreturned.symm.trans hthrew

/-- The writing thread leaves its function with everything stored. -/
theorem copied_of_left {src : List UInt8} (hsrc : src.length < 2 ^ 63)
    {defaultBufferSize : Nat} (hpage : defaultBufferSize < 2 ^ 63)
    {previous : Option (List UInt8)} {s : ParallelCopyTool}
    (hrun : Reaches (StepOf (next src defaultBufferSize)) NoSystemFailure
      (new src previous) s)
    (hleft : s.writingPc = .left) : s.fileWriter.file = some src := by
  rcases reaches_unthrown hrun with ⟨pc, hreach, _⟩
  have hpos : 1 ≤ src.length := by
    refine List.length_pos_iff.mpr fun hnil => ?_
    cases ((reaches_writingEnds hreach).empty hnil).left.symm.trans hleft
  exact (reaches_inv hpos hsrc hpage hreach).copied (by
    show s.writingPc.Left
    rw [hleft]
    trivial)

/-- `writingThread` is in its loop, and the queue is open. -/
structure Waited (s : ParallelCopyTool) : Prop where
  started : s.writingPc ≠ .notStarted
  running : ¬ s.writingPc.Left
  isOpen : s.queue.isQueueOpen = true

theorem WritingStep.waited {s s' : ParallelCopyTool} (h : Waited s)
    (hstep : WritingStep s s') : Waited s' := by
  cases hstep with
  | empty hpc hempty =>
      cases ((isEmpty_eq_some hempty).right.mp rfl).right.symm.trans h.isOpen
  | pop hpc hpop =>
      cases pop_cases hpop with
      | nullopt hfree hwake hempty hclosed => cases hclosed.symm.trans h.isOpen
      | _ => exact ⟨by simp [afterPop], id, h.isOpen⟩
  | finishWrite hpc => exact absurd (by rw [hpc]; trivial) h.running
  | _ => exact ⟨by simp, id, h.isOpen⟩

/-!
# The process
-/

variable {src : List UInt8} {defaultBufferSize : Nat}

theorem copyTool_writing {a : Action} {s s' : ParallelCopyTool}
    (hcaller : (copyTool src defaultBufferSize).inCopy a = false)
    (hstep : (copyTool src defaultBufferSize).next a s = some s') : WritingStep s s' := by
  rcases a with ⟨thread, fails⟩
  cases thread with
  | reading => cases hcaller
  | writing => exact writingFunction_cases hstep

theorem copyTool_returned {s : ParallelCopyTool}
    (h : (copyTool src defaultBufferSize).returned s = true) : s.copyPc = .returned := by
  simpa [copyTool] using h

theorem copyTool_joins {s : ParallelCopyTool}
    (h : (copyTool src defaultBufferSize).joins s = true) :
    s.writingPc = .notStarted ∨ s.writingPc = .left := by
  simpa [copyTool] using h

theorem copyTool_stays_returned {a : Action} {s s' : ParallelCopyTool}
    (hcaller : (copyTool src defaultBufferSize).inCopy a = false)
    (hstep : (copyTool src defaultBufferSize).next a s = some s')
    (hreturned : (copyTool src defaultBufferSize).returned s = true) :
    (copyTool src defaultBufferSize).returned s' = true := by
  cases copyTool_writing hcaller hstep <;> exact hreturned

/-- A process that has exited has copied the source, or has not written. -/
theorem copied_or_unwritten (hsrc : src.length < 2 ^ 63) (hpage : defaultBufferSize < 2 ^ 63)
    {previous : Option (List UInt8)} {s : Main ParallelCopyTool}
    (hrun : Reaches (StepOf (Main.next (copyTool src defaultBufferSize)))
      (Main.Meets NoSystemFailure) (Main.start (new src previous)) s)
    {code : Nat} (hexited : s.pc = .exited code) :
    s.tool.fileWriter.file = some src ∨
      code = 1 ∧ Unwritten src previous s.tool.fileWriter.file := by
  have htool := Main.tool_run hrun
  have hends := Main.run_ends (fun _ _ _ => copyTool_stays_returned) hrun
  rcases hends.exited code hexited with ⟨hjoins, hcode⟩
  rcases copyTool_joins hjoins with hnot | hleft
  · right
    rcases reaches_unthrown htool with ⟨pc, hreach, _⟩
    refine ⟨?_, (reaches_writingEnds hreach).unwritten hnot⟩
    rcases hcode with hone | ⟨hzero, hreturned⟩
    · exact hone
    · have hstarted := started_of_returned hsrc hpage htool (copyTool_returned hreturned)
      exact absurd hnot hstarted
  · exact Or.inl (copied_of_left hsrc hpage htool hleft)

/--
At whatever moment a signal interrupts the process: if it exits, the destination is the
source, or the exit code is 1 and the destination is as it was, or has been created empty,
or resized and no more.  If `copy` has been left after the start of `writingThread` and
before the queue is closed, the process never exits.
-/
theorem parallel_exits_whole_or_empty (src : List UInt8) (hsrc : src.length < 2 ^ 63)
    (defaultBufferSize : Nat) (hpage : defaultBufferSize < 2 ^ 63)
    (previous : Option (List UInt8)) (s : Main ParallelCopyTool)
    (hrun : Reaches (StepOf (Main.next (copyTool src defaultBufferSize)))
      (Main.Meets NoSystemFailure) (Main.start (new src previous)) s) :
    (forall code, s.pc = .exited code -> s.tool.fileWriter.file = some src ∨
      code = 1 ∧ Unwritten src previous s.tool.fileWriter.file) ∧
    (forall code, s.pc = .destroy code -> s.tool.writingPc ≠ .notStarted ->
      s.tool.queue.isQueueOpen = true -> forall s' code',
        Reaches (StepOf (Main.next (copyTool src defaultBufferSize))) anyStep s s' ->
        s'.pc ≠ .exited code') := by
  rcases reaches_unthrown (Main.tool_run hrun) with ⟨pc, hreach, _⟩
  have hwriting := reaches_writingEnds hreach
  constructor
  · intro code hexited
    exact copied_or_unwritten hsrc hpage hrun hexited
  · intro code hpc hstarted hopen s' code' hafter
    have hwaited : Waited s.tool := by
      refine ⟨hstarted, ?_, hopen⟩
      intro hleft
      cases (hwriting.closed hleft).symm.trans hopen
    refine Main.never_exits (P := Waited) ?_ ?_ hpc hwaited hafter code'
    · intro a t t' hcaller hstep h
      exact (copyTool_writing hcaller hstep).waited h
    · intro t h
      have hrunning : t.writingPc ≠ .left := by
        intro hleft
        exact h.running (by rw [hleft]; trivial)
      simp [copyTool, h.started, hrunning]

/-- The signal comes when the first of two pages has been queued. -/
def interruptedReading : List (Main.Action Action) :=
  List.replicate 11 (.thread (.reading, false)) ++ [.signal] ++
    List.replicate 5 (.thread (.writing, false))

theorem parallel_exits_whole_or_empty_interruptedReading :
    exists s : Main ParallelCopyTool,
      exec (Main.next (copyTool [1, 2, 3] 2)) interruptedReading
        (Main.start (new [1, 2, 3] none)) = some s ∧
      s.tool.fileWriter.file = some [1, 2, 0] ∧
      forall s' code, Reaches (StepOf (Main.next (copyTool [1, 2, 3] 2))) anyStep s s' ->
        s'.pc ≠ .exited code := by
  have hview : (exec (Main.next (copyTool [1, 2, 3] 2)) interruptedReading
      (Main.start (new [1, 2, 3] none))).map (fun s =>
        (s.pc, s.tool.writingPc, s.tool.queue.isQueueOpen, s.tool.fileWriter.file)) =
      some (.destroy 1, .pop .waiting, true, some [1, 2, 0]) := by
    decide +kernel
  rcases Option.map_eq_some_iff.mp hview with ⟨s, hexec, hpcs⟩
  simp only [Prod.mk.injEq] at hpcs
  rcases hpcs with ⟨hpc, hwriting, hopen, hfile⟩
  refine ⟨s, hexec, hfile, ?_⟩
  exact (parallel_exits_whole_or_empty [1, 2, 3] (by decide) 2 (by decide) none s
    (reaches_of_exec interruptedReading (by decide +kernel) hexec)).right 1 hpc
    (by simp [hwriting]) hopen

end ParallelCopyTool
end Parallel
end Common
end Ki
