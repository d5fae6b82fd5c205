import Ki.Common.BPCopyTool.Exit
import Ki.Common.BPCopyTool.Termination

/-!
# What becomes of a process with the buffered tool

No process runs for ever.  One that has come to rest has exited, or its destructor waits
for a writing thread that waits in the queue.
-/

namespace Ki
namespace Common

open Foundation
open Queue
open FixedBufferQueue
open Reader
open Writer
open BufferedFileWriter
open Stdio

namespace BPCopyTool

/-- `writingThread` sleeps in `getFilledBuffer`, or `copy` has been left with the mutex. -/
def WaitsForReader (s : BPCopyTool) : Prop :=
  s.writingPc = .write (.getFilledBuffer .blocked) ∧ .writing ∈ s.queue.cv ∨
    s.queue.queueMutex = some .reading

theorem Linked.waits {s : BPCopyTool} {returned delivered : List Payload}
    (h : Linked s returned delivered) (hnone : s.writingFunction Io.success = none) :
    s.writingPc = .notStarted ∨ s.writingPc = .left ∨ s.WaitsForReader := by
  rcases writingFunction_eq_none h.control (h.safe.safe .writing) hnone with
    hnot | hleft | hasleep | ⟨hmutex, hwriting⟩
  · exact Or.inl hnot
  · exact Or.inr (Or.inl hleft)
  · exact Or.inr (Or.inr (Or.inl hasleep))
  · right
    right
    right
    cases howner : s.queue.queueMutex with
    | none => exact absurd howner hmutex
    | some t =>
        have hholds := (h.clients.mutex t).mp howner
        cases t with
        | reading => rfl
        | writing => exact absurd hholds hwriting

/-- A writer that waits after `copy` has returned has written everything. -/
theorem Linked.written_of_waits {src : List UInt8} {s : BPCopyTool}
    {returned delivered : List Payload} (h : Linked s returned delivered)
    (hdata : Data src s returned delivered) (hreturned : s.copyPc = .returned)
    (hwaits : s.WaitsForReader) : s.fileWriter.written = src := by
  rcases hwaits with ⟨hwriting, hasleep⟩ | hmutex
  · have hdrained := h.drained_of_asleep hreturned hwriting hasleep
    have hpending : pending s.queue.buffers s.writingPc.writePc = [] := by
      rw [hwriting]
      rfl
    exact hdata.written_drained h hreturned hdrained hpending
  · have hholds : s.copyPc.client.call.holdsMutex := (h.clients.mutex .reading).mp hmutex
    rw [hreturned] at hholds
    cases hholds

/-- A process at rest. -/
inductive Outcome (src : List UInt8) (s : Main BPCopyTool) : Prop where
  | whole {code : Nat} (hpc : s.pc = .exited code)
      (hwritten : s.tool.fileWriter.written = src)
  | empty (hpc : s.pc = .exited 1) (hwritten : s.tool.fileWriter.written = [])
  /-- the destructor joins a writing thread that waits -/
  | waits {code : Nat} (hpc : s.pc = .destroy code) (hwaits : s.tool.WaitsForReader)
      (hpart : s.tool.fileWriter.written <+: src)
      (hwhole : code = 0 -> s.tool.fileWriter.written = src)

theorem copyTool_threw {src : List UInt8} {s : BPCopyTool}
    (h : (copyTool src).threw s = false) (held : List Buffer) : s.copyPc ≠ .threw held := by
  intro hthrew
  simp [copyTool, hthrew] at h

section Rest

variable {src : List UInt8} {dst : String} {buffers : Nat -> List UInt8}
  {s : Main BPCopyTool}

theorem rests_writing (hrests : Main.Rests (copyTool src) TransfersAll s)
    (hlive : forall code, s.pc ≠ .exited code) :
    s.tool.writingFunction Io.success = none :=
  hrests.thread (a := (.writing, Io.success)) ⟨rfl, rfl⟩ hlive (Or.inr rfl)

/-- The two threads cannot both be stuck before `copy` has returned. -/
theorem not_rests_in_copy (hsrc : src.length < 2 ^ 63)
    (hrun : Reaches (StepOf (Main.next (copyTool src))) (Main.Meets TransfersAll)
      (Main.start (new src dst buffers)) s)
    (hrests : Main.Rests (copyTool src) TransfersAll s) : s.pc ≠ .copy := by
  intro hpc
  rcases hrests.copy hpc with ⟨hreturned, hthrew⟩
  have hlive : forall code, s.pc ≠ .exited code := by simp [hpc]
  have hcopyNone : s.tool.copy src Io.success = none :=
    hrests.thread (a := (.reading, Io.success)) ⟨rfl, rfl⟩ hlive (Or.inl hpc)
  rcases reaches_linked hsrc (Main.tool_run hrun) (copyTool_threw hthrew) with
    ⟨returned, delivered, hlinked, _⟩
  have hstuck := stuck_cases hlinked hcopyNone (rests_writing hrests hlive)
  simp [copyTool, hstuck.left] at hreturned

/-- In the destructor only the writing thread can be waited for. -/
theorem outcome_of_destroy (hsrc : src.length < 2 ^ 63)
    (hrun : Reaches (StepOf (Main.next (copyTool src))) (Main.Meets TransfersAll)
      (Main.start (new src dst buffers)) s)
    (hrests : Main.Rests (copyTool src) TransfersAll s) {code : Nat}
    (hpc : s.pc = .destroy code) : Outcome src s := by
  have hnone := rests_writing hrests (by simp [hpc])
  have hjoins := hrests.destroy hpc
  have hends := (Main.run_ends (fun _ _ _ => copyTool_stays_returned) hrun).destroy code hpc
  -- the invariants are those of the tool whose reading thread stands still
  rcases reaches_unthrown (Main.tool_run hrun) with ⟨pc, _, hreach, hbefore⟩
  rcases reaches_data hsrc hreach with ⟨returned, delivered, hlinked, hdata⟩
  have hstill : writingFunction Io.success { s.tool with copyPc := pc } = none := by
    rw [writingFunction_copyPc, hnone]
    rfl
  rcases hlinked.waits hstill with hnot | hleft | hwaits
  · have hnot' : s.tool.writingPc = .notStarted := hnot
    simp [copyTool, hnot'] at hjoins
  · have hleft' : s.tool.writingPc = .left := hleft
    simp [copyTool, hleft'] at hjoins
  · have hpart := (hdata.written_prefix hlinked).trans (List.take_prefix _ _)
    refine Outcome.waits hpc hwaits hpart ?_
    intro hzero
    rcases hends with hone | ⟨_, hreturned⟩
    · cases hzero.symm.trans hone
    · have hcopy := copyTool_returned hreturned
      rcases hbefore with rfl | ⟨held, hthrew⟩
      · exact hlinked.written_of_waits hdata hcopy hwaits
      · cases hthrew.symm.trans hcopy

end Rest

/--
No process takes more than two steps more than `stepsFor` the source.  When nothing but a
signal can happen any more, it has exited with the whole source passed to `fwrite` or
nothing, or waits for good for a writing thread that waits in the queue.
-/
theorem process_ends (src : List UInt8) (hsrc : src.length < 2 ^ 63) (dst : String)
    (buffers : Nat -> List UInt8) :
    (forall as s, exec (Main.next (copyTool src)) as
        (Main.start (new src dst buffers)) = some s -> as.length ≤ stepsFor src.length + 2) ∧
    (forall s, Reaches (StepOf (Main.next (copyTool src))) (Main.Meets TransfersAll)
        (Main.start (new src dst buffers)) s ->
      Main.Rests (copyTool src) TransfersAll s -> Outcome src s) := by
  constructor
  · intro as s hexec
    have hlength := Main.length_le (copyTool src) (Paced src) potential
      (fun _ _ _ hx hstep => next_paced hx hstep)
      (fun _ _ _ hx hstep => next_lowers hsrc hx hstep)
      as (new_paced src dst buffers) hexec
    rwa [new_potential] at hlength
  · intro s hrun hrests
    cases hpc : s.pc with
    | copy => exact absurd hpc (not_rests_in_copy hsrc hrun hrests)
    | destroy code => exact outcome_of_destroy hsrc hrun hrests hpc
    | exited code =>
        rcases whole_or_empty hsrc hrun hpc with hwhole | ⟨rfl, hempty⟩
        · exact Outcome.whole hpc hwhole
        · exact Outcome.empty hpc hempty

theorem process_ends_interruptedReading :
    exists s : Main BPCopyTool,
      exec (Main.next (copyTool [1])) interruptedReading
        (Main.start (new [1] "dst" fun _ => [])) = some s ∧
      interruptedReading.length ≤ stepsFor 1 + 2 ∧ Outcome [1] s := by
  have hview : (exec (Main.next (copyTool [1])) interruptedReading
      (Main.start (new [1] "dst" fun _ => []))).map (fun s =>
        (s.pc, s.tool.writingPc, s.tool.queue.cv)) =
      some (.destroy 1, .write (.getFilledBuffer .blocked), [.writing]) := by
    decide +kernel
  rcases Option.map_eq_some_iff.mp hview with ⟨s, hexec, hpcs⟩
  simp only [Prod.mk.injEq] at hpcs
  rcases hpcs with ⟨hpc, hwriting, hcv⟩
  have hrests : Main.Rests (copyTool [1]) TransfersAll s := by
    intro a s' hsignal _ hstep
    cases Main.next_cases hstep with
    | @thread a tool hlive hleft hnext =>
        cases copyTool_writing (hleft.resolve_left (by simp [hpc])) hnext with
        | write hpc hwrite =>
            cases hwriting.symm.trans hpc
            simp [writeStep, getFilledBuffer, getStep, hcv] at hwrite
        | _ => simp_all
    | signal => exact hsignal rfl
    | exit hpc hjoins => simp [copyTool, hwriting] at hjoins
    | _ => simp_all
  have hends := process_ends [1] (by decide) "dst" fun _ => []
  exact ⟨s, hexec, hends.left _ s hexec,
    hends.right s (reaches_of_exec interruptedReading (by decide +kernel) hexec) hrests⟩

end BPCopyTool
end Common
end Ki
