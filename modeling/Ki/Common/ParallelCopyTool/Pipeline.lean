import Ki.Common.ParallelCopyTool.Termination
import Ki.Foundation.Chunks
import Ki.Foundation.Pipeline

/-!
# The parallel copy tool as a pipeline

`copy` takes one page of the source after the other, `writingFunction` stores them one
after the other, and the queue between the two has room for all of them.
-/

namespace Ki
namespace Common
namespace Parallel

open Foundation
open Queue
open SynchronizedQueue
open Reader
open Writer

/-- The chunk in the reader's hands, if there is one. -/
def CopyPc.chunks : CopyPc -> List (List UInt8)
  | .storeFinished buf => [buf]
  | .push buf => [buf]
  | .pushing buf => [buf]
  | _ => []

/-- The chunk in the writer's hands, if there is one. -/
def WritingPc.chunks : WritingPc -> List (List UInt8)
  | .write buf => [buf]
  | _ => []

/-- The last chunk is not in the hands of `copy`, still to be announced. -/
def CopyPc.NotLast (pc : CopyPc) : Prop :=
  forall buf, pc ≠ .storeFinished buf

namespace ParallelCopyTool

/-- The chunks that have been read and not yet written, the oldest first. -/
def inFlight (s : ParallelCopyTool) : List (List UInt8) :=
  s.writingPc.chunks ++ s.queue.queue ++ s.copyPc.chunks

/-- What is seen of the two stages: the two offsets, the chunks between them, the file. -/
structure Shows (src : List UInt8) (defaultBufferSize : Nat) (s : ParallelCopyTool)
    (p : Pipeline) : Prop where
  reader : s.fileReader.currentOffset = min (p.taken * defaultBufferSize) src.length
  inFlight : s.inFlight = (List.range' p.passed (p.taken - p.passed)).map
    (chunkAt defaultBufferSize src)
  file : s.copyPc.created = true -> exists file, s.fileWriter.file = some file ∧
    file.length = src.length ∧
    file.take (p.passed * defaultBufferSize) = src.take (p.passed * defaultBufferSize)

/-- How far the two threads have come. -/
structure Staged (src : List UInt8) (defaultBufferSize : Nat) (s : ParallelCopyTool)
    (p : Pipeline) : Prop where
  taken : p.taken = p.passed + s.inFlight.length
  inFlight : s.inFlight =
    (List.range' p.passed s.inFlight.length).map (chunkAt defaultBufferSize src)
  reader : s.fileReader.currentOffset = min (p.taken * defaultBufferSize) src.length
  writer : s.fileWriter.currentOffset = min (p.passed * defaultBufferSize) src.length
  more : s.fileReader.readFinished = false -> s.copyPc.NotLast ->
    p.taken < src.length ⌈/⌉ defaultBufferSize

theorem new_staged (src : List UInt8) (hpos : 1 ≤ src.length) {defaultBufferSize : Nat}
    (hpage : 1 ≤ defaultBufferSize) (previous : Option (List UInt8)) :
    Staged src defaultBufferSize (new src previous) Pipeline.init := by
  constructor
  · rfl
  · rfl
  · simp [new, MMapFileReader.new, Pipeline.init]
  · simp [new, MMapFileWriter.new, Pipeline.init]
  · intro _ _
    apply (lt_ceilDiv_iff hpage).mpr
    simp only [Pipeline.init, Nat.zero_mul]
    exact hpos

theorem Staged.shows {src : List UInt8} {defaultBufferSize : Nat}
    {s : ParallelCopyTool} {p : Pipeline} (hinv : Inv src s)
    (h : Staged src defaultBufferSize s p) : Shows src defaultBufferSize s p := by
  constructor
  · exact h.reader
  · have hcount : p.taken - p.passed = s.inFlight.length := by
      have htaken := h.taken
      omega
    rw [hcount]
    exact h.inFlight
  · intro hcreated
    rcases hinv.fileData.file hcreated with ⟨file, hfile, hlength, htake⟩
    refine ⟨file, hfile, hlength, ?_⟩
    rw [h.writer] at htake
    rw [← List.take_take, ← List.take_take, List.take_length, ← hlength,
      List.take_length] at htake
    exact htake

/-- A step that takes no chunk and passes none on. -/
theorem Staged.keep {src : List UInt8} {defaultBufferSize : Nat}
    {s s' : ParallelCopyTool} {p : Pipeline} (h : Staged src defaultBufferSize s p)
    (hflight : s'.inFlight = s.inFlight)
    (hreader : s'.fileReader.currentOffset = s.fileReader.currentOffset)
    (hwriter : s'.fileWriter.currentOffset = s.fileWriter.currentOffset)
    (hmore : s'.fileReader.readFinished = false -> s'.copyPc.NotLast ->
      p.taken < src.length ⌈/⌉ defaultBufferSize) :
    Staged src defaultBufferSize s' p := by
  constructor
  · rw [hflight]
    exact h.taken
  · rw [hflight]
    exact h.inFlight
  · rw [hreader]
    exact h.reader
  · rw [hwriter]
    exact h.writer
  · exact hmore

/-- The next page of the source is copied out of the mapping. -/
theorem Staged.read {src : List UInt8} (hsrc : src.length < 2 ^ 63)
    {defaultBufferSize : Nat} (hpos : 1 ≤ defaultBufferSize)
    (hpage : defaultBufferSize < 2 ^ 63) {s : ParallelCopyTool} {p : Pipeline}
    (hinv : Inv src s) (hpaced : Paced src s) (h : Staged src defaultBufferSize s p)
    (hpc : s.copyPc = .read) :
    let s' : ParallelCopyTool := { s with
      fileReader := s.fileReader.advance defaultBufferSize
      copyPc := .storeFinished (s.fileReader.chunk defaultBufferSize src) }
    exists p', Pipeline.Step (src.length ⌈/⌉ defaultBufferSize)
        (src.length ⌈/⌉ defaultBufferSize) p .first p' ∧
      Staged src defaultBufferSize s' p' := by
  intro s'
  have hmore : p.taken < src.length ⌈/⌉ defaultBufferSize :=
    h.more (hpaced.reading hpc) (by simp [CopyPc.NotLast, hpc])
  have hbytes := (lt_ceilDiv_iff hpos).mp hmore
  have hreader := h.reader
  have hcount := MMapFileReader.readCount_eq hsrc hpage hinv.data.readSize
    hinv.data.readBound
  have hsucc := Nat.add_one_mul p.taken defaultBufferSize
  have hchunk : s.fileReader.chunk defaultBufferSize src =
      chunkAt defaultBufferSize src p.taken := by
    rw [MMapFileReader.chunk, hcount, hreader, Nat.min_eq_left (Nat.le_of_lt hbytes),
      chunkAt, List.take_eq_take_iff, List.length_drop]
    omega
  have hflight : s'.inFlight = s.inFlight ++ [chunkAt defaultBufferSize src p.taken] := by
    rw [← hchunk]
    simp [s', ParallelCopyTool.inFlight, CopyPc.chunks, hpc]
  refine ⟨_, Pipeline.Step.take hmore (by omega), ?_⟩
  constructor
  · show p.taken + 1 = p.passed + s'.inFlight.length
    rw [hflight, List.length_append, List.length_singleton, h.taken, Nat.add_assoc]
  · show s'.inFlight = (List.range' p.passed s'.inFlight.length).map _
    rw [hflight, List.length_append, List.length_singleton, List.range'_concat,
      List.map_append, ← h.inFlight, Nat.one_mul, ← h.taken]
    rfl
  · show s.fileReader.readCount defaultBufferSize =
      min ((p.taken + 1) * defaultBufferSize) src.length
    rw [hcount]
    omega
  · exact h.writer
  · intro _ hnotLast
    exact absurd rfl (hnotLast _)

theorem CopyStep.staged {src : List UInt8} (hsrc : src.length < 2 ^ 63)
    {defaultBufferSize : Nat} (hpos : 1 ≤ defaultBufferSize)
    (hpage : defaultBufferSize < 2 ^ 63) {s s' : ParallelCopyTool} {p : Pipeline}
    (hinv : Inv src s) (hpaced : Paced src s) (h : Staged src defaultBufferSize s p)
    (hstep : CopyStep src defaultBufferSize s s') :
    Staged src defaultBufferSize s' p ∨
      exists p', Pipeline.Step (src.length ⌈/⌉ defaultBufferSize)
          (src.length ⌈/⌉ defaultBufferSize) p .first p' ∧
        Staged src defaultBufferSize s' p' := by
  have hmore : s.copyPc.NotLast -> s.fileReader.readFinished = false ->
      p.taken < src.length ⌈/⌉ defaultBufferSize :=
    fun hnotLast hunfinished => h.more hunfinished hnotLast
  cases hstep with
  | openReader hpc hopen =>
      left
      have hbound := hinv.data.readBound
      have hsize := hinv.data.readSize
      unfold MMapFileReader.open' at hopen
      split at hopen
      · cases hopen
      · cases hopen
        apply h.keep
        · simp [inFlight, CopyPc.chunks, hpc]
        · rfl
        · rfl
        · intro hunfinished _
          apply hmore (by simp [CopyPc.NotLast, hpc])
          simpa [Nat.not_lt.mpr (hsize ▸ hbound)] using hunfinished
  | mapWriter hpc hmmap =>
      left
      unfold MMapFileWriter.mmap at hmmap
      split at hmmap
      · cases hmmap
      · cases hmmap
        apply h.keep
        · simp [inFlight, CopyPc.chunks, hpc]
        · rfl
        · rfl
        · exact fun hunfinished _ => hmore (by simp [CopyPc.NotLast, hpc]) hunfinished
  | startWriter hpc =>
      left
      have hnot : s.writingPc = .notStarted :=
        hinv.control.started.mp (by rw [hpc]; rfl)
      apply h.keep
      · simp [inFlight, CopyPc.chunks, WritingPc.chunks, hpc, hnot]
      · rfl
      · rfl
      · exact fun hunfinished _ => hmore (by simp [CopyPc.NotLast, hpc]) hunfinished
  | @read mapped hpc hmapped =>
      right
      have hsource : mapped = src := by
        have hboth := hinv.control.mapped (by rw [hpc]; rfl)
        rw [hmapped] at hboth
        exact Option.some.inj hboth
      subst mapped
      exact h.read hsrc hpos hpage hinv hpaced hpc
  | storeFinished hpc =>
      left
      apply h.keep
      · simp [inFlight, CopyPc.chunks, hpc]
      · rfl
      · rfl
      · intro hunfinished _
        apply (lt_ceilDiv_iff hpos).mpr
        have hreader := h.reader
        have hsize := hinv.data.readSize
        simp only [MMapFileReader.storeFinished] at hunfinished
        split at hunfinished
        · cases hunfinished
        · omega
  | push hpc =>
      left
      apply h.keep
      · simp [inFlight, CopyPc.chunks, SynchronizedQueue.push, hpc]
      · rfl
      · rfl
      · exact fun hunfinished _ => hmore (by simp [CopyPc.NotLast, hpc]) hunfinished
  | finishRead hpc =>
      left
      apply h.keep
      · simp [inFlight, CopyPc.chunks, hpc]
      · rfl
      · rfl
      · intro hunfinished
        cases hunfinished
  | _ hpc =>
      left
      apply h.keep
      · simp [inFlight, CopyPc.chunks, SynchronizedQueue.notifyOne,
          SynchronizedQueue.close, hpc]
      · rfl
      · rfl
      · exact fun hunfinished _ => hmore (by simp [CopyPc.NotLast, hpc]) hunfinished

/-- A step of `writingFunction` stores a chunk, or none. -/
theorem WritingStep.staged {src : List UInt8} (hsrc : src.length < 2 ^ 63)
    {defaultBufferSize : Nat} {s s' : ParallelCopyTool} {p : Pipeline}
    (hinv : Inv src s) (h : Staged src defaultBufferSize s p) (hstep : WritingStep s s') :
    Staged src defaultBufferSize s' p ∨
      exists p', Pipeline.Step (src.length ⌈/⌉ defaultBufferSize)
          (src.length ⌈/⌉ defaultBufferSize) p .second p' ∧
        Staged src defaultBufferSize s' p' := by
  cases hstep with
  | pop hpc hpop =>
      left
      cases pop_cases hpop <;>
        exact h.keep (by simp_all [inFlight, WritingPc.chunks, afterPop]) rfl rfl h.more
  | @write buf writer hpc hwrite =>
      right
      rw [hinv.data.write hsrc hpc] at hwrite
      cases hwrite
      have hflight : s.inFlight = buf :: (s.queue.queue ++ s.copyPc.chunks) := by
        simp [inFlight, WritingPc.chunks, hpc]
      have htaken := h.taken
      have hchunks := h.inFlight
      have hwriter := h.writer
      rw [hflight, List.length_cons] at htaken
      rw [hflight, List.length_cons, List.range'_succ, List.map_cons, List.cons.injEq]
        at hchunks
      refine ⟨_, Pipeline.Step.pass (by omega), ?_⟩
      constructor
      · show p.taken = p.passed + 1 + (s.queue.queue ++ s.copyPc.chunks).length
        omega
      · exact hchunks.right
      · exact h.reader
      · show s.fileWriter.currentOffset + buf.length =
          min ((p.passed + 1) * defaultBufferSize) src.length
        rw [hchunks.left, chunkAt_length, hwriter, Nat.add_one_mul]
        omega
      · exact h.more
  | writeThrows hpc hwrite =>
      rw [hinv.data.write hsrc hpc] at hwrite
      cases hwrite
  | finishWrite hpc =>
      left
      have hoffset : s.fileWriter.finishWrite.currentOffset =
          s.fileWriter.currentOffset := by
        unfold MMapFileWriter.finishWrite
        split <;> rfl
      exact h.keep (by simp [inFlight, WritingPc.chunks, hpc]) rfl hoffset h.more
  | _ hpc =>
      exact Or.inl (h.keep (by simp [inFlight, WritingPc.chunks, hpc]) rfl rfl h.more)

/-!
# The refinement
-/

/-- The thread that calls `copy` is the first stage, `writingThread` the second. -/
def stage : Action -> Stage
  | (.reading, _) => .first
  | (.writing, _) => .second

/--
If no call fails, the tool is a pipeline: each step of `copy` takes the next page
of the source or none, each step of `writingFunction` stores the next page or none, and
between the two stand exactly the pages taken and not yet stored, in their order.
-/
theorem parallel_refines_pipeline (src : List UInt8) (hpos : 1 ≤ src.length)
    (hsrc : src.length < 2 ^ 63) (defaultBufferSize : Nat) (hpage : 1 ≤ defaultBufferSize)
    (hpage' : defaultBufferSize < 2 ^ 63) (previous : Option (List UInt8)) :
    Refinement (StepOf (next src defaultBufferSize)) NoFailure (new src previous)
      (Pipeline.Step (src.length ⌈/⌉ defaultBufferSize)
        (src.length ⌈/⌉ defaultBufferSize)) Pipeline.init stage
      (Shows src defaultBufferSize) := by
  refine ⟨fun s p => Inv src s ∧ Paced src s ∧ Staged src defaultBufferSize s p,
    ?_, ?_, ?_⟩
  · exact ⟨new_inv src previous, new_paced src previous, new_staged src hpos hpage previous⟩
  · rintro s p ⟨hinv, _, hstaged⟩
    exact hstaged.shows hinv
  · rintro s ⟨thread, fails⟩ s' p ⟨hinv, hpaced, hstaged⟩ hok hstep
    have hinv' := next_inv hpos hsrc hpage' hinv hok hstep
    have hpaced' := next_paced hpaced hstep
    rcases next_cases hok hstep with ⟨hthread, hcopy⟩ | ⟨hthread, hwriting⟩
    · cases hthread
      rcases hcopy.staged hsrc hpage hpage' hinv hpaced hstaged with
        hsame | ⟨p', htake, hstaged'⟩
      · exact Or.inl ⟨hinv', hpaced', hsame⟩
      · exact Or.inr ⟨p', htake, hinv', hpaced', hstaged'⟩
    · cases hthread
      rcases hwriting.staged hsrc hinv hstaged with hsame | ⟨p', hpass, hstaged'⟩
      · exact Or.inl ⟨hinv', hpaced', hsame⟩
      · exact Or.inr ⟨p', hpass, hinv', hpaced', hstaged'⟩

/-- The first page is stored, the second has just been read. -/
def secondPageRead : List Action :=
  List.replicate 11 (.reading, false) ++ List.replicate 3 (.writing, false) ++
    List.replicate 3 (.reading, false)

theorem parallel_refines_pipeline_secondPageRead :
    exists s, exec (next [1, 2, 3] 2) secondPageRead (new [1, 2, 3] none) = some s ∧
      s.inFlight = [[3]] ∧ s.fileWriter.file = some [1, 2, 0] ∧
      exists p, Reaches (Pipeline.Step 2 2) anyStep Pipeline.init p ∧
        Shows [1, 2, 3] 2 s p := by
  have hview : (exec (next [1, 2, 3] 2) secondPageRead (new [1, 2, 3] none)).map
      (fun s => (s.inFlight, s.fileWriter.file)) = some ([[3]], some [1, 2, 0]) := by
    decide +kernel
  rcases Option.map_eq_some_iff.mp hview with ⟨s, hexec, hview⟩
  rw [Prod.mk.injEq] at hview
  have hrun : Reaches (StepOf (next [1, 2, 3] 2)) NoFailure (new [1, 2, 3] none) s :=
    reaches_of_exec secondPageRead (by decide +kernel) hexec
  have hrefines := parallel_refines_pipeline [1, 2, 3] (by decide) (by decide) 2 (by decide)
    (by decide) none
  exact ⟨s, hexec, hview.left, hview.right, hrefines.reaches hrun⟩

end ParallelCopyTool
end Parallel
end Common
end Ki
