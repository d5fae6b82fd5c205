import Ki.Common.BPCopyTool.Faults
import Ki.Common.Main

/-!
# How a process with the buffered tool ends

The process exits with the whole source passed to `fwrite`, or with nothing.  When
`copy` is left in between, by a signal or an exception, the destructor waits for a
writing thread that waits for the reader.
-/

namespace Ki
namespace Common

open Foundation
open Queue
open FixedBufferQueue
open Reader
open BufferedReader
open Writer
open BufferedFileWriter
open Stdio

namespace BPCopyTool

/-- The tool as `main` sees it. -/
def copyTool (src : List UInt8) : ICopyTool BPCopyTool Action where
  next := next src
  inCopy := fun a => a.1 == .reading
  returned := fun s => s.copyPc == .returned
  threw := fun s =>
    match s.copyPc with
    | .threw _ => true
    | _ => false
  joins := fun s => s.writingPc == .notStarted || s.writingPc == .left

/-- `fgetc` and `fwrite` transfer all they are asked for; what is checked may fail. -/
def TransfersAll (_ : BPCopyTool) (a : Action) : Prop :=
  a.2.shortRead = 0 ∧ a.2.shortWrite = 0

instance (s : BPCopyTool) (a : Action) : Decidable (TransfersAll s a) :=
  inferInstanceAs (Decidable (_ ∧ _))

/-!
# The tool
-/

/-- What the writing thread has done before its start and at its end. -/
structure WritingEnds (s : BPCopyTool) : Prop where
  isOpen : s.queue.isOpen = s.copyPc.queueOpen
  unwritten : s.writingPc = .notStarted -> s.fileWriter.written = []
  closed : s.writingPc = .left -> s.queue.isOpen = false

theorem CopyStep.writingEnds {src : List UInt8} {io : Io} {s s' : BPCopyTool}
    (hunannounced : Unannounced s) (h : WritingEnds s) (hstep : CopyStep src io s s') :
    WritingEnds s' := by
  have hisOpen := hstep.isOpen h.isOpen
  cases hstep with
  | openQueue hpc =>
      have hnot := hunannounced.notStarted (by rw [hpc]; rfl)
      refine ⟨hisOpen, h.unwritten, ?_⟩
      intro hleft
      cases hnot.symm.trans hleft
  | createWriter hpc => exact ⟨hisOpen, fun _ => rfl, h.closed⟩
  | startWriter hpc => exact ⟨hisOpen, by simp, by simp⟩
  | read hpc hread =>
      refine ⟨hisOpen, h.unwritten, ?_⟩
      intro hleft
      exact (readStep_isOpen hread).trans (h.closed hleft)
  | close hpc => exact ⟨hisOpen, h.unwritten, fun _ => rfl⟩
  | _ => exact ⟨hisOpen, h.unwritten, h.closed⟩

theorem WritingStep.writingEnds {io : Io} {s s' : BPCopyTool} (h : WritingEnds s)
    (hstep : WritingStep io s s') : WritingEnds s' := by
  have hisOpen := hstep.isOpen.trans h.isOpen
  cases hstep with
  | empty hpc hfree hempty hclosed => exact ⟨hisOpen, by simp, fun _ => hclosed⟩
  | @write pc r writer q hpc hwrite =>
      cases r <;> exact ⟨hisOpen, by simp [afterWrite], by simp [afterWrite]⟩
  | _ => exact ⟨hisOpen, by simp, by simp⟩

theorem reaches_writingEnds {src : List UInt8} {dst : String}
    {buffers : Nat -> List UInt8} {guard : BPCopyTool -> Action -> Prop} {s : BPCopyTool}
    (hrun : Reaches (StepOf (next src)) guard (new src dst buffers) s) :
    WritingEnds s := by
  have hboth : Unannounced s ∧ WritingEnds s := by
    refine Reaches.invariant (fun x => Unannounced x ∧ WritingEnds x) ?_ hrun
      ⟨new_unannounced src dst buffers, rfl, fun _ => rfl, by simp [new]⟩
    intro x a x' hx _ hstep
    rcases next_cases hstep with ⟨_, hcopy⟩ | ⟨_, hwriting⟩
    · exact ⟨hcopy.unannounced hx.left, hcopy.writingEnds hx.left hx.right⟩
    · exact ⟨hwriting.unannounced hx.left, hwriting.writingEnds hx.right⟩
  exact hboth.right

theorem writingFunction_copyPc (io : Io) (s : BPCopyTool) (pc : CopyPc) :
    writingFunction io { s with copyPc := pc } =
      (s.writingFunction io).map fun s' => { s' with copyPc := pc } := by
  unfold writingFunction
  cases hpc : s.writingPc <;> simp [Function.comp_def]

/-- An exception leaves everything but the program point of `copy` as it is. -/
theorem CopyStep.threw {src : List UInt8} {io : Io} {s s' : BPCopyTool}
    {held : List Buffer} (hisOpen : s.queue.isOpen = s.copyPc.queueOpen)
    (hstep : CopyStep src io s s') (hthrew : s'.copyPc = .threw held) :
    { s' with copyPc := s.copyPc } = s := by
  cases hstep with
  | openFails hpc hfails => rfl
  | @read pc r reader q hpc hread =>
      cases r with
      | threw held' =>
          have hqueue : q = s.queue := by
            generalize hr : ReadResult.threw held' = r at hread
            cases readStep_cases hread with
            | getFreeBuffer hget =>
                cases getStep_cases hget with
                | nullopt hempty hclosed =>
                    rw [hisOpen, hpc] at hclosed
                    cases hclosed
                | _ => cases hr
            | setvbufFails buf hfails => rfl
            | _ => cases hr
          rw [hqueue, (readStep_threw hread).right]
      | _ => cases hthrew
  | _ => cases hthrew

theorem next_settled_alone {src : List UInt8} {a : Action} {s s' : BPCopyTool}
    (hfull : TransfersAll s a) (hnot : forall held, s'.copyPc ≠ .threw held)
    (hstep : next src a s = some s') : StepOf (next src) s (a.1, settled a.2) s' := by
  have hshort : Fetching.NothingShort { tool := s, fetched := [] } a := by
    constructor
    · intro _ buf file _ _
      rw [FILE.load, hfull.left, Nat.sub_zero, List.take_length]
    · intro _ buf _
      rw [hfull.right, Nat.sub_zero, List.take_length]
  exact next_settled hshort hnot hstep

/--
No failure has been noticed up to an exception that leaves `copy`, and what comes after
it could also come if the reading thread stood still.
-/
theorem reaches_unthrown {src : List UInt8} {dst : String} {buffers : Nat -> List UInt8}
    {s : BPCopyTool}
    (hrun : Reaches (StepOf (next src)) TransfersAll (new src dst buffers) s) :
    exists pc, (forall held, pc ≠ .threw held) ∧
      Reaches (StepOf (next src)) Succeeds (new src dst buffers) { s with copyPc := pc } ∧
      (s.copyPc = pc ∨ exists held, s.copyPc = .threw held) := by
  refine Reaches.invariant (fun x => exists pc, (forall held, pc ≠ .threw held) ∧
    Reaches (StepOf (next src)) Succeeds (new src dst buffers) { x with copyPc := pc } ∧
    (x.copyPc = pc ∨ exists held, x.copyPc = .threw held)) ?_ hrun
    ⟨.openQueue, by simp, Relation.ReflTransGen.refl, Or.inl rfl⟩
  rintro x a x' ⟨pc, hpc, hreach, hbefore⟩ hfull hstep
  have hsucceeds : Succeeds { x with copyPc := pc } (a.1, settled a.2) :=
    settled_succeeds a.2
  rcases next_cases hstep with ⟨_, hcopy⟩ | ⟨hthread, hwriting⟩
  · rcases hbefore with rfl | ⟨held, hthrew⟩
    · by_cases hthrew : exists held, x'.copyPc = .threw held
      · rcases hthrew with ⟨held, hheld⟩
        have hsame := hcopy.threw (reaches_writingEnds hreach).isOpen hheld
        exact ⟨x.copyPc, hpc, hsame.symm ▸ hreach, Or.inr ⟨held, hheld⟩⟩
      · have hnot : forall held, x'.copyPc ≠ .threw held := by simpa using hthrew
        exact ⟨x'.copyPc, hnot,
          hreach.tail ⟨_, hsucceeds, next_settled_alone hfull hnot hstep⟩, Or.inl rfl⟩
    · exact absurd hthrew (hcopy.not_threw held)
  · have hsame : x'.copyPc = x.copyPc := by
      cases hwriting <;> rfl
    have hmoved : next src a { x with copyPc := pc } = some { x' with copyPc := pc } := by
      rcases a with ⟨thread, io⟩
      cases hthread
      have hwrites : x.writingFunction io = some x' := hstep
      change writingFunction io { x with copyPc := pc } = _
      rw [writingFunction_copyPc, hwrites]
      rfl
    refine ⟨pc, hpc, hreach.tail ⟨_, hsucceeds, ?_⟩, hsame.symm ▸ hbefore⟩
    exact next_settled_alone hfull hpc hmoved

/-- `writingThread` runs and the queue is open. -/
structure Waited (s : BPCopyTool) : Prop where
  started : s.writingPc ≠ .notStarted
  running : s.writingPc ≠ .left
  isOpen : s.queue.isOpen = true

theorem WritingStep.waited {io : Io} {s s' : BPCopyTool} (h : Waited s)
    (hstep : WritingStep io s s') : Waited s' := by
  have hisOpen := hstep.isOpen.trans h.isOpen
  cases hstep with
  | empty hpc hfree hempty hclosed => cases hclosed.symm.trans h.isOpen
  | @write pc r writer q hpc hwrite =>
      cases r <;> exact ⟨by simp [afterWrite], by simp [afterWrite], hisOpen⟩
  | _ => exact ⟨by simp, by simp, hisOpen⟩

/-!
# The process
-/

theorem copyTool_writing {src : List UInt8} {a : Action} {s s' : BPCopyTool}
    (hcaller : (copyTool src).inCopy a = false)
    (hstep : (copyTool src).next a s = some s') : WritingStep a.2 s s' := by
  rcases next_cases hstep with ⟨hreading, _⟩ | ⟨_, hwriting⟩
  · simp [copyTool, hreading] at hcaller
  · exact hwriting

theorem copyTool_returned {src : List UInt8} {s : BPCopyTool}
    (h : (copyTool src).returned s = true) : s.copyPc = .returned := by
  simpa [copyTool] using h

theorem copyTool_joins {src : List UInt8} {s : BPCopyTool}
    (h : (copyTool src).joins s = true) :
    s.writingPc = .notStarted ∨ s.writingPc = .left := by
  simpa [copyTool] using h

theorem copyTool_stays_returned {src : List UInt8} {a : Action} {s s' : BPCopyTool}
    (hcaller : (copyTool src).inCopy a = false)
    (hstep : (copyTool src).next a s = some s')
    (hreturned : (copyTool src).returned s = true) :
    (copyTool src).returned s' = true := by
  cases copyTool_writing hcaller hstep <;> exact hreturned

/-- Unless an exception has left `copy`, no failure has been noticed. -/
theorem reaches_linked {src : List UInt8} (hsrc : src.length < 2 ^ 63) {dst : String}
    {buffers : Nat -> List UInt8} {s : BPCopyTool}
    (hrun : Reaches (StepOf (next src)) TransfersAll (new src dst buffers) s)
    (hnot : forall held, s.copyPc ≠ .threw held) :
    exists returned delivered, Linked s returned delivered ∧
      Data src s returned delivered := by
  rcases reaches_unthrown hrun with ⟨pc, _, hreach, rfl | ⟨held, hthrew⟩⟩
  · exact reaches_data hsrc hreach
  · exact absurd hthrew (hnot held)

/-- The writing thread leaves its function with everything written. -/
theorem written_of_left {src : List UInt8} (hsrc : src.length < 2 ^ 63) {dst : String}
    {buffers : Nat -> List UInt8} {s : BPCopyTool}
    (hrun : Reaches (StepOf (next src)) TransfersAll (new src dst buffers) s)
    (hleft : s.writingPc = .left) : s.fileWriter.written = src := by
  have hends := reaches_writingEnds hrun
  have hclosed := hends.isOpen.symm.trans (hends.closed hleft)
  have hnot : forall held, s.copyPc ≠ .threw held := by
    intro held hthrew
    rw [hthrew] at hclosed
    cases hclosed
  rcases reaches_linked hsrc hrun hnot with ⟨returned, delivered, hlinked, hdata⟩
  exact hdata.written_all hlinked hleft

/-- A call of `copy` that has returned has started the writing thread. -/
theorem started_of_returned {src : List UInt8} (hsrc : src.length < 2 ^ 63) {dst : String}
    {buffers : Nat -> List UInt8} {s : BPCopyTool}
    (hrun : Reaches (StepOf (next src)) TransfersAll (new src dst buffers) s)
    (hreturned : s.copyPc = .returned) : s.writingPc ≠ .notStarted := by
  rcases reaches_linked hsrc hrun (by simp [hreturned]) with
    ⟨returned, delivered, hlinked, hdata⟩
  intro hnot
  have hunstarted := hlinked.control.started.mpr hnot
  rw [hreturned] at hunstarted
  cases hunstarted

/-- A process that has exited has passed everything to `fwrite`, or nothing. -/
theorem whole_or_empty {src : List UInt8} (hsrc : src.length < 2 ^ 63) {dst : String}
    {buffers : Nat -> List UInt8} {s : Main BPCopyTool}
    (hrun : Reaches (StepOf (Main.next (copyTool src))) (Main.Meets TransfersAll)
      (Main.start (new src dst buffers)) s)
    {code : Nat} (hexited : s.pc = .exited code) :
    s.tool.fileWriter.written = src ∨ code = 1 ∧ s.tool.fileWriter.written = [] := by
  have htool := Main.tool_run hrun
  have hends := Main.run_ends (fun _ _ _ => copyTool_stays_returned) hrun
  rcases hends.exited code hexited with ⟨hjoins, hcode⟩
  rcases copyTool_joins hjoins with hnot | hleft
  · right
    refine ⟨?_, (reaches_writingEnds htool).unwritten hnot⟩
    rcases hcode with hone | ⟨hzero, hreturned⟩
    · exact hone
    · exact absurd hnot (started_of_returned hsrc htool (copyTool_returned hreturned))
  · exact Or.inl (written_of_left hsrc htool hleft)

/--
However the process is interrupted and whatever exceptions leave `copy`: if it exits, the
whole source has been passed to `fwrite`, or nothing and the exit code is 1.  If `copy`
has been left after the start of `writingThread` and before the queue is closed, the
process never exits.
-/
theorem exits_whole_or_empty (src : List UInt8) (hsrc : src.length < 2 ^ 63) (dst : String)
    (buffers : Nat -> List UInt8) (s : Main BPCopyTool)
    (hrun : Reaches (StepOf (Main.next (copyTool src))) (Main.Meets TransfersAll)
      (Main.start (new src dst buffers)) s) :
    (forall code, s.pc = .exited code -> s.tool.fileWriter.written = src ∨
      code = 1 ∧ s.tool.fileWriter.written = []) ∧
    (forall code, s.pc = .destroy code -> s.tool.writingPc ≠ .notStarted ->
      s.tool.queue.isOpen = true -> forall s' code',
        Reaches (StepOf (Main.next (copyTool src))) anyStep s s' ->
        s'.pc ≠ .exited code') := by
  have hwriting := reaches_writingEnds (Main.tool_run hrun)
  constructor
  · intro code hexited
    exact whole_or_empty hsrc hrun hexited
  · intro code hpc hstarted hopen s' code' hafter
    have hwaited : Waited s.tool := by
      refine ⟨hstarted, ?_, hopen⟩
      intro hleft
      cases (hwriting.closed hleft).symm.trans hopen
    refine Main.never_exits (P := Waited) ?_ ?_ hpc hwaited hafter code'
    · intro a t t' hcaller hstep h
      exact (copyTool_writing hcaller hstep).waited h
    · intro t h
      simp [copyTool, h.started, h.running]

/-- The signal comes when the only chunk has been read and not yet queued. -/
def interruptedReading : List (Main.Action Action) :=
  List.replicate 9 (.thread (.reading, Io.success)) ++ [.signal] ++
    List.replicate 4 (.thread (.writing, Io.success))

theorem exits_whole_or_empty_interruptedReading :
    exists s : Main BPCopyTool,
      exec (Main.next (copyTool [1])) interruptedReading
        (Main.start (new [1] "dst" fun _ => [])) = some s ∧
      forall s' code, Reaches (StepOf (Main.next (copyTool [1]))) anyStep s s' ->
        s'.pc ≠ .exited code := by
  have hview : (exec (Main.next (copyTool [1])) interruptedReading
      (Main.start (new [1] "dst" fun _ => []))).map (fun s =>
        (s.pc, s.tool.writingPc, s.tool.queue.isOpen)) =
      some (.destroy 1, .write (.getFilledBuffer .blocked), true) := by
    decide +kernel
  rcases Option.map_eq_some_iff.mp hview with ⟨s, hexec, hpcs⟩
  simp only [Prod.mk.injEq] at hpcs
  rcases hpcs with ⟨hpc, hwriting, hopen⟩
  refine ⟨s, hexec, ?_⟩
  exact (exits_whole_or_empty [1] (by decide) "dst" _ s
    (reaches_of_exec interruptedReading (by decide +kernel) hexec)).right 1 hpc
    (by simp [hwriting]) hopen

end BPCopyTool
end Common
end Ki
