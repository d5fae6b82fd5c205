import Ki.Common.Interruption
import Ki.Common.ParallelCopyTool.Exit

/-!
# What becomes of a process with the parallel tool

As for the buffered tool: every process comes to rest, and one that has not exited then
waits for a writing thread that sleeps in `pop`, or needs the mutex with which `copy` was
left.
-/

namespace Ki
namespace Common
namespace Parallel

open Foundation
open Queue
open SynchronizedQueue
open Reader
open Writer

namespace ParallelCopyTool

variable {src : List UInt8} {defaultBufferSize : Nat} {previous : Option (List UInt8)}
  {s : Main ParallelCopyTool}

theorem reaches_orderly (hpos : 1 ≤ src.length) (hsrc : src.length < 2 ^ 63)
    (hpage : defaultBufferSize < 2 ^ 63) {s : ParallelCopyTool}
    (hrun : Reaches (StepOf (next src defaultBufferSize)) NoFailure (new src previous) s) :
    Orderly src s :=
  Reaches.invariant (Orderly src)
    (fun _ _ _ hx hok hstep => next_orderly hpos hsrc hpage hx hok hstep) hrun
    (new_orderly src previous)

/-- A process at rest. -/
inductive Outcome (src : List UInt8) (previous : Option (List UInt8))
    (s : Main ParallelCopyTool) : Prop where
  | copied {code : Nat} (hpc : s.pc = .exited code) (hfile : s.tool.fileWriter.file = some src)
  | unwritten (hpc : s.pc = .exited 1) (hfile : Unwritten src previous s.tool.fileWriter.file)
  /-- the destructor joins a writing thread that sleeps -/
  | waits {code : Nat} (hpc : s.pc = .destroy code)
      (hwriting : s.tool.writingPc = .pop .waiting) (hasleep : .writing ∈ s.tool.queue.cv)
      (hfile : exists n, s.tool.fileWriter.file =
        some (src.take n ++ (ftruncate (previous.getD []) src.length).drop n))
      (hcopied : code = 0 -> s.tool.fileWriter.file = some src)
  /-- the destructor joins a writing thread that needs the mutex -/
  | lockedOut (hpc : s.pc = .destroy 1) (hcopy : s.tool.copyPc.holdsMutex = true)
      (hwriting : s.tool.writingPc = .testEmpty ∨ exists pc, s.tool.writingPc = .pop pc)
      (hfile : exists n, s.tool.fileWriter.file =
        some (src.take n ++ (ftruncate (previous.getD []) src.length).drop n))

theorem rests_writing
    (hrests : Main.Rests (copyTool src defaultBufferSize) NoSystemFailure s)
    (hlive : forall code, s.pc ≠ .exited code) : s.tool.writingFunction = none :=
  hrests.thread (a := (.writing, false)) (by simp [NoSystemFailure]) hlive (Or.inr rfl)

/-- `copy` always goes on until it has returned or thrown. -/
theorem not_rests_in_copy (hsrc : src.length < 2 ^ 63) (hpage : defaultBufferSize < 2 ^ 63)
    (hrun : Reaches (StepOf (Main.next (copyTool src defaultBufferSize)))
      (Main.Meets NoSystemFailure) (Main.start (new src previous)) s)
    (hrests : Main.Rests (copyTool src defaultBufferSize) NoSystemFailure s) :
    s.pc ≠ .copy := by
  intro hpc
  rcases hrests.copy hpc with ⟨hreturned, hthrew⟩
  have hcopyNone : s.tool.copy src defaultBufferSize false = none :=
    hrests.thread (a := (.reading, false)) (by simp [NoSystemFailure]) (by simp [hpc])
      (Or.inl hpc)
  rcases reaches_unthrown (Main.tool_run hrun) with ⟨pc, htool, rfl | ⟨hthrown, _⟩⟩
  · by_cases hnil : src = []
    · rcases ((reaches_writingEnds htool).empty hnil).right with hopen | hthrown
      · change s.tool.copyPc = .openReader at hopen
        unfold copy at hcopyNone
        rw [hopen] at hcopyNone
        cases hreader : s.tool.fileReader.open' src <;> simp [hreader] at hcopyNone
      · change s.tool.copyPc = .threw at hthrown
        simp [copyTool, hthrown] at hthrew
    · have hpos : 1 ≤ src.length := List.length_pos_iff.mpr hnil
      have hdone : s.tool.copyPc = .returned :=
        copy_eq_none (reaches_inv hpos hsrc hpage htool).control hcopyNone
      simp [copyTool, hdone] at hreturned
  · simp [copyTool, hthrown] at hthrew

/--
In the destructor only a writing thread that sleeps, or needs the mutex, can be waited
for.
-/
theorem outcome_of_destroy (hsrc : src.length < 2 ^ 63) (hpage : defaultBufferSize < 2 ^ 63)
    (hrun : Reaches (StepOf (Main.next (copyTool src defaultBufferSize)))
      (Main.Meets NoSystemFailure) (Main.start (new src previous)) s)
    (hrests : Main.Rests (copyTool src defaultBufferSize) NoSystemFailure s) {code : Nat}
    (hpc : s.pc = .destroy code) : Outcome src previous s := by
  have hnone := rests_writing hrests (by simp [hpc])
  have hjoins := hrests.destroy hpc
  have hends := (Main.run_ends (fun _ _ _ => copyTool_stays_returned) hrun).destroy code hpc
  rcases reaches_unthrown (Main.tool_run hrun) with ⟨pc, htool, hbefore⟩
  have hstarted : s.tool.writingPc ≠ .notStarted := by
    intro hnot
    simp [copyTool, hnot] at hjoins
  have hpos : 1 ≤ src.length := by
    refine List.length_pos_iff.mpr fun hnil => ?_
    exact hstarted ((reaches_writingEnds htool).empty hnil).left
  have horderly := reaches_orderly hpos hsrc hpage htool
  have hcreated := (horderly.inv.control.created hstarted).right
  have hfile := (reaches_overwrites hpos hsrc hpage htool).created hcreated
  have hnone' : writingFunction { s.tool with copyPc := pc } = none := by
    rw [writingFunction_copyPc, hnone]
    rfl
  rcases horderly.writing_cases hnone' with
    hnot | hleft | ⟨hwaiting, hasleep⟩ | ⟨hheld, hlocks⟩
  · exact absurd hnot hstarted
  · change s.tool.writingPc = .left at hleft
    simp [copyTool, hleft] at hjoins
  · refine Outcome.waits hpc hwaiting hasleep ⟨_, hfile⟩ ?_
    intro hzero
    rcases hends with hone | ⟨_, hreturned⟩
    · cases hzero.symm.trans hone
    · have hdone := copyTool_returned hreturned
      rcases hbefore with rfl | ⟨hthrew, _⟩
      · exact horderly.copied_of_waiting hdone hasleep
      · cases hdone.symm.trans hthrew
  · change pc.holdsMutex = true at hheld
    rcases hbefore with rfl | ⟨_, rfl⟩
    · rcases hends with rfl | ⟨_, hreturned⟩
      · exact Outcome.lockedOut hpc hheld hlocks ⟨_, hfile⟩
      · rw [copyTool_returned hreturned] at hheld
        cases hheld
    · cases hheld

/--
No process takes more than two steps more than `stepsFor` the source.  When nothing but a
signal can happen any more, it has exited with the source copied or nothing written, or
waits for good for a writing thread that sleeps in `pop` or needs the mutex.
-/
theorem parallel_process_ends (src : List UInt8) (hsrc : src.length < 2 ^ 63)
    (defaultBufferSize : Nat) (hpage : defaultBufferSize < 2 ^ 63)
    (hpos : 1 ≤ defaultBufferSize) (previous : Option (List UInt8)) :
    (forall as s, exec (Main.next (copyTool src defaultBufferSize)) as
        (Main.start (new src previous)) = some s ->
      as.length ≤ stepsFor src.length defaultBufferSize + 2) ∧
    (forall s, Reaches (StepOf (Main.next (copyTool src defaultBufferSize)))
        (Main.Meets NoSystemFailure) (Main.start (new src previous)) s ->
      Main.Rests (copyTool src defaultBufferSize) NoSystemFailure s ->
      Outcome src previous s) := by
  constructor
  · intro as s hexec
    have hlength := Main.length_le (copyTool src defaultBufferSize) (Paced src)
      (potential defaultBufferSize)
      (fun _ _ _ hx hstep => next_paced hx hstep)
      (fun _ _ _ hx hstep => next_lowers hsrc hpage hpos hx hstep)
      as (new_paced src previous) hexec
    rwa [new_potential] at hlength
  · intro s hrun hrests
    cases hpc : s.pc with
    | copy => exact absurd hpc (not_rests_in_copy hsrc hpage hrun hrests)
    | destroy code => exact outcome_of_destroy hsrc hpage hrun hrests hpc
    | exited code =>
        rcases copied_or_unwritten hsrc hpage hrun hpc with hcopied | ⟨rfl, hunwritten⟩
        · exact Outcome.copied hpc hcopied
        · exact Outcome.unwritten hpc hunwritten

theorem parallel_process_ends_interruptedReading :
    exists s : Main ParallelCopyTool,
      exec (Main.next (copyTool [1, 2, 3] 2)) interruptedReading
        (Main.start (new [1, 2, 3] none)) = some s ∧
      interruptedReading.length ≤ stepsFor 3 2 + 2 ∧ Outcome [1, 2, 3] none s := by
  have hview : (exec (Main.next (copyTool [1, 2, 3] 2)) interruptedReading
      (Main.start (new [1, 2, 3] none))).map (fun s =>
        (s.pc, s.tool.writingPc, s.tool.queue.cv)) =
      some (.destroy 1, .pop .waiting, [.writing]) := by
    decide +kernel
  rcases Option.map_eq_some_iff.mp hview with ⟨s, hexec, hpcs⟩
  simp only [Prod.mk.injEq] at hpcs
  rcases hpcs with ⟨hpc, hwriting, hcv⟩
  have hrests : Main.Rests (copyTool [1, 2, 3] 2) NoSystemFailure s := by
    intro a s' hsignal _ hstep
    cases Main.next_cases hstep with
    | @thread a tool hlive hleft hnext =>
        cases copyTool_writing (hleft.resolve_left (by simp [hpc])) hnext with
        | pop hpc hpop =>
            cases hwriting.symm.trans hpc
            simp [pop, hcv] at hpop
        | _ => simp_all
    | signal => exact hsignal rfl
    | exit hpc hjoins => simp [copyTool, hwriting] at hjoins
    | _ => simp_all
  have hends := parallel_process_ends [1, 2, 3] (by decide) 2 (by decide) (by decide) none
  exact ⟨s, hexec, hends.left _ s hexec,
    hends.right s (reaches_of_exec interruptedReading (by decide +kernel) hexec) hrests⟩

end ParallelCopyTool
end Parallel
end Common
end Ki
