import Ki.Common.BPCopyTool.Exceptions
import Ki.Common.BPCopyTool.Exactness
import Ki.Common.BPCopyTool.Stages

/-!
# The buffered parallel copy tool as a pipeline

The thread that calls `copy` takes the chunks of the source, and `writingThread` passes
them on.
-/

namespace Ki
namespace Common

open Foundation
open Queue
open FixedBufferQueue
open Clients
open Reader
open BufferedReader
open Writer
open BufferedFileWriter
open Stdio

namespace BPCopyTool

/-!
# The two threads
-/

/-- How far the two threads have come, against the two histories of the queue. -/
structure Staged (src : List UInt8) (s : BPCopyTool)
    (returned delivered : List Payload) (p : Pipeline) : Prop where
  taking : Taking src s.fileReader s.copyPc.readPc returned p.taken
  passing : Passing src s.fileWriter s.writingPc.writePc delivered p.passed

theorem new_staged (src : List UInt8) (dst : String) (buffers : Nat -> List UInt8) :
    Staged src (new src dst buffers) [] [] Pipeline.init where
  taking := Taking.new src
  passing := Passing.new src dst

/-- With a free buffer in its hands `copy` finds room for one more chunk. -/
theorem Staged.room {src : List UInt8} {s : BPCopyTool}
    {returned delivered : List Payload} {p : Pipeline}
    (hlinked : Linked s returned delivered) (h : Staged src s returned delivered p)
    {buf : Buffer} (hpc : s.copyPc = .read (.fill buf)) :
    p.taken < p.passed + buffersInQueue := by
  have htaken := h.taking.taken
  rw [hpc] at htaken
  have hreading : (s.clients returned delivered).client .reading =
      ReadPc.client (.fill buf) := by
    show s.copyPc.client = _
    rw [hpc]
    rfl
  have hwriting : unwritten s.writingPc.writePc ≤
      ((s.clients returned delivered).client .writing).held.length := by
    show _ ≤ s.writingPc.client.held.length
    have hclient : s.writingPc.client =
        s.writingPc.writePc.elim { call := .idle, held := [] } WritePc.client := by
      cases s.writingPc <;> rfl
    rw [hclient]
    exact unwritten_le _
  exact room_of_fill hlinked.clients (by simp) hreading hwriting htaken h.passing.passed

theorem CopyStep.staged {src : List UInt8} (hsrc : src.length < 2 ^ 63) {io : Io}
    (hio : io.Succeeds) {s s' : BPCopyTool} {returned delivered : List Payload}
    {p : Pipeline} (hlinked : Linked s returned delivered)
    (hdata : Data src s returned delivered) (hunannounced : Unannounced s)
    (h : Staged src s returned delivered p) (hstep : CopyStep src io s s') :
    Staged src s' (returned ++ s.copyPc.produced s.queue) delivered p ∨
      exists p', Pipeline.Step (chunkCount src.length) buffersInQueue p .first p' ∧
        Staged src s' (returned ++ s.copyPc.produced s.queue) delivered p' := by
  have htaking := h.taking
  have hread := hdata.read
  -- `copy` moves to another point outside of `read`, or enters it
  have hmove : forall (pc : CopyPc) (q : FixedBufferQueue Thread),
      s.copyPc.readPc = none -> pc.readPc = none ∨ pc.readPc = some (.getFreeBuffer .lock) ->
      Staged src { s with queue := q, copyPc := pc } (returned ++ []) delivered p := by
    intro pc q hnone hpc
    rw [List.append_nil]
    refine ⟨htaking.move ?_ ?_, h.passing⟩
    · rw [hnone]
      rcases hpc with hpc | hpc <;> simp only [hpc, filled]
    · intro _
      rw [hnone]
      exact none_notLast
  cases hstep with
  | openQueue hpc =>
      left
      rw [hpc]
      exact hmove _ _ (by rw [hpc]; rfl) (Or.inl rfl)
  | openFails hpc hfails =>
      rw [hio.left] at hfails
      cases hfails
  | openReader hpc =>
      left
      rcases hdata.unopened (by rw [hpc]; rfl) with ⟨hnew, rfl⟩
      have htaken : p.taken = 0 := by
        have htaken := htaking.taken
        rw [hpc] at htaken
        exact htaken
      simp only [hpc, CopyPc.produced, List.append_nil]
      refine ⟨?_, h.passing⟩
      simp only [hnew, htaken]
      exact Taking.opened src
  | createWriter hpc =>
      left
      have hdelivered := hdata.uncreated (by rw [hpc]; rfl)
      have hnot : s.writingPc = .notStarted := hlinked.control.started.mp (by rw [hpc]; rfl)
      have hpassed : p.passed = 0 := by
        have hpassed := h.passing.passed
        rw [hnot, hdelivered] at hpassed
        exact hpassed
      simp only [hpc, CopyPc.produced, List.append_nil]
      refine ⟨?_, ?_⟩
      · rw [hpc] at htaking
        exact htaking
      · simp only [hnot, hdelivered, hpassed]
        exact Passing.created src s.fileWriter
  | startWriter hpc =>
      left
      have hpassing := h.passing
      have hnot : s.writingPc = .notStarted := hlinked.control.started.mp (by rw [hpc]; rfl)
      simp only [hpc, CopyPc.produced, List.append_nil]
      rw [hpc] at htaking
      rw [hnot] at hpassing
      exact ⟨htaking, hpassing⟩
  | finished hpc hfinished =>
      left
      rw [hpc]
      exact hmove _ _ (by rw [hpc]; rfl) (Or.inl rfl)
  | unfinished hpc hunfinished =>
      left
      rw [hpc]
      exact hmove _ _ (by rw [hpc]; rfl) (Or.inr rfl)
  | @read pc r reader q hpc hreadStep =>
      have hready := hlinked.control.reader (by rw [hpc]; rfl)
      have hafter : (afterRead r).readPc = r.pc := by
        cases r <;> rfl
      have hearly : forall buf, pc = .fill buf -> s.fileReader.readFinished = false := by
        rintro buf rfl
        exact hunannounced.early _ hpc trivial
      rw [hpc] at hready hread htaking
      rcases htaking.readStep hsrc hio (hready.typed pc rfl) hearly hread hreadStep with
        hkept | ⟨⟨buf, rfl⟩, hmore, htaken⟩
      · left
        simp only [hpc, CopyPc.produced]
        refine ⟨?_, h.passing⟩
        rw [hafter]
        exact hkept
      · right
        simp only [hpc, CopyPc.produced]
        refine ⟨_, Pipeline.Step.take hmore (h.room hlinked hpc), ?_, h.passing⟩
        rw [hafter]
        exact htaken
  | close hpc =>
      left
      rw [hpc]
      exact hmove _ _ (by rw [hpc]; rfl) (Or.inl rfl)

/-- A step of `writingFunction` passes a chunk on, or none. -/
theorem WritingStep.staged {src : List UInt8} {io : Io} (hio : io.Succeeds)
    {s s' : BPCopyTool} {returned delivered : List Payload} {p : Pipeline}
    (hlinked : Linked s returned delivered) (hdata : Data src s returned delivered)
    (h : Staged src s returned delivered p) (hstep : WritingStep io s s') :
    Staged src s' returned (delivered ++ s'.writingPc.delivered s.queue) p ∨
      exists p', Pipeline.Step (chunkCount src.length) buffersInQueue p .second p' ∧
        Staged src s' returned (delivered ++ s'.writingPc.delivered s.queue) p' := by
  have hpassing := h.passing
  have hmove : forall pc : WritingPc, unwritten pc.writePc = unwritten s.writingPc.writePc ->
      Staged src { s with writingPc := pc } returned (delivered ++ []) p := by
    intro pc hunwritten
    rw [List.append_nil]
    exact ⟨h.taking, hpassing.move hunwritten⟩
  cases hstep with
  | @write pc r writer q hpc hwriteStep =>
      have hfifo : delivered ++ s.queue.writeBuffers.map s.queue.payload = returned :=
        hlinked.clients.fifo
      have hafter : (afterWrite r).writePc = r.pc := by
        cases r <;> rfl
      have hwrite := hdata.write
      rw [hpc] at hwrite hpassing
      rw [afterWrite_delivered]
      rcases hpassing.writeStep hio h.taking.chunked hfifo hwrite hwriteStep with
        hkept | ⟨hless, hpassed⟩
      · left
        refine ⟨h.taking, ?_⟩
        rw [hafter]
        exact hkept
      · right
        have hlength := congrArg List.length hfifo
        have htaken := h.taking.taken
        rw [List.length_append] at hlength
        refine ⟨_, Pipeline.Step.pass (by omega), h.taking, ?_⟩
        rw [hafter]
        exact hpassed
  | _ hpc => exact Or.inl (hmove _ (by rw [hpc]; rfl))

/-!
# The refinement
-/

/-- The thread that calls `copy` is the first stage, `writingThread` the second. -/
def stage : Action -> Stage
  | (.reading, _) => .first
  | (.writing, _) => .second

/-- What is seen of the two stages: where the reader stands and what has been written. -/
def Shows (src : List UInt8) (s : BPCopyTool) (p : Pipeline) : Prop :=
  s.fileReader.currentOffset = min (p.taken * bufferSize) src.length ∧
    s.fileWriter.written = src.take (p.passed * bufferSize)

/-- Each step of the tool is a step of the pipeline or leaves it as it is. -/
theorem new_refines (src : List UInt8) (hsrc : src.length < 2 ^ 63) (dst : String)
    (buffers : Nat -> List UInt8) :
    Refinement (StepOf (next src)) Succeeds (new src dst buffers)
      (Pipeline.Step (chunkCount src.length) buffersInQueue) Pipeline.init stage
      (Shows src) := by
  refine ⟨fun s p => exists returned delivered, Linked s returned delivered ∧
    Data src s returned delivered ∧ Unannounced s ∧ Staged src s returned delivered p,
    ?_, ?_, ?_⟩
  · exact ⟨[], [], new_linked src dst buffers, new_data src dst buffers,
      new_unannounced src dst buffers, new_staged src dst buffers⟩
  · rintro s p ⟨returned, delivered, _, _, _, hstaged⟩
    exact ⟨hstaged.taking.offset, hstaged.passing.bytes⟩
  · rintro s ⟨thread, io⟩ s' p ⟨returned, delivered, hlinked, hdata, hunannounced,
      hstaged⟩ hok hstep
    rcases next_cases hstep with ⟨hthread, hcopy⟩ | ⟨hthread, hwriting⟩
    · cases hthread
      have hlinked' := hlinked.copyStep hok.left hcopy
      have hdata' := hlinked.dataCopyStep hsrc hok hdata hcopy
      have hunannounced' := hcopy.unannounced hunannounced
      rcases hcopy.staged hsrc hok hlinked hdata hunannounced hstaged with
        hsame | ⟨p', htake, hstaged'⟩
      · exact Or.inl ⟨_, _, hlinked', hdata', hunannounced', hsame⟩
      · exact Or.inr ⟨p', htake, _, _, hlinked', hdata', hunannounced', hstaged'⟩
    · cases hthread
      have hlinked' := hlinked.writingStep hwriting
      have hdata' := hdata.writingStep hok hlinked.control hwriting
      have hunannounced' := hwriting.unannounced hunannounced
      rcases hwriting.staged hok hlinked hdata hstaged with
        hsame | ⟨p', hpass, hstaged'⟩
      · exact Or.inl ⟨_, _, hlinked', hdata', hunannounced', hsame⟩
      · exact Or.inr ⟨p', hpass, _, _, hlinked', hdata', hunannounced', hstaged'⟩

/--
If its stdio calls succeed, the tool is a pipeline with room for the buffers of the
queue: each step of `copy` takes the next chunk of the source or none, each step of
`writingFunction` passes the next chunk on, whole, or none.  So the reader is never
further ahead of the writer than the queue has room.
-/
theorem refines_pipeline (src : List UInt8) (hsrc : src.length < 2 ^ 63) (dst : String)
    (buffers : Nat -> List UInt8) :
    Refinement (StepOf (next src)) Succeeds (new src dst buffers)
        (Pipeline.Step (chunkCount src.length) buffersInQueue) Pipeline.init stage
        (Shows src) ∧
      forall s, Reaches (StepOf (next src)) Succeeds (new src dst buffers) s ->
        s.fileReader.currentOffset ≤
          s.fileWriter.written.length + buffersInQueue * bufferSize := by
  have hrefines := new_refines src hsrc dst buffers
  refine ⟨hrefines, ?_⟩
  intro s hrun
  rcases hrefines.reaches hrun with ⟨p, hreach, hoffset, hwritten⟩
  have hfits := Nat.mul_le_mul_right bufferSize (Pipeline.reaches_inv hreach).fits
  rw [Nat.add_mul] at hfits
  rw [hoffset, hwritten, List.length_take]
  omega

/-- The reader has taken the one chunk of the source, and the writer none. -/
theorem refines_pipeline_chunkTaken :
    exists s, exec (next [1, 2, 3]) (List.replicate 14 (.reading, Io.success))
        (new [1, 2, 3] "dst" fun _ => []) = some s ∧
      s.fileReader.currentOffset = 3 ∧ s.fileWriter.written = [] ∧
      (exists p, Reaches (Pipeline.Step (chunkCount 3) buffersInQueue) anyStep
        Pipeline.init p ∧ Shows [1, 2, 3] s p) ∧
      s.fileReader.currentOffset ≤
        s.fileWriter.written.length + buffersInQueue * bufferSize := by
  have hview : (exec (next [1, 2, 3]) (List.replicate 14 (.reading, Io.success))
      (new [1, 2, 3] "dst" fun _ => [])).map
      (fun s => (s.fileReader.currentOffset, s.fileWriter.written)) = some (3, []) := by
    decide +kernel
  rcases Option.map_eq_some_iff.mp hview with ⟨s, hexec, hview⟩
  rw [Prod.mk.injEq] at hview
  have hrun : Reaches (StepOf (next [1, 2, 3])) Succeeds
      (new [1, 2, 3] "dst" fun _ => []) s :=
    reaches_of_exec _ (by decide +kernel) hexec
  have hrefines := refines_pipeline [1, 2, 3] (by decide) "dst" fun _ => []
  exact ⟨s, hexec, hview.left, hview.right, hrefines.left.reaches hrun,
    hrefines.right s hrun⟩

end BPCopyTool
end Common
end Ki
