import Ki.Common.ParallelCopyTool

/-!
# The parallel copy tool copies exactly

What the writer has stored, the chunk in its hands, the queue and the chunk in
the reader's hands are, in this order, the part of the source before the
reader's offset.
-/

namespace Ki
namespace Common
namespace Parallel

open Foundation
open Queue
open SynchronizedQueue
open Reader
open Writer

namespace CopyPc

/-- The source is mapped. -/
def mapped : CopyPc -> Bool
  | .openReader => false
  | .returned => false
  | .threw => false
  | _ => true

/-- The destination has been resized. -/
def created : CopyPc -> Bool
  | .openReader => false
  | .createWriter => false
  | .resizeWriter => false
  | .threw => false
  | _ => true

/-- `writingThread` has been started. -/
def started (pc : CopyPc) : Bool :=
  pc.created && pc != .mapWriter && pc != .startWriter

/-- In the critical section of `push` or `close`. -/
def holdsMutex : CopyPc -> Bool
  | .pushing _ => true
  | .closing => true
  | _ => false

/-- The queue is open until `copy` has closed it. -/
def queueOpen : CopyPc -> Bool
  | .finishRead => false
  | .returned => false
  | _ => true

/-- The loop of `copy` has been left. -/
def Done : CopyPc -> Prop
  | .close => True
  | .closing => True
  | .finishRead => True
  | .returned => True
  | _ => False

/-- The chunk in the reader's hands. -/
def inHand : CopyPc -> List UInt8
  | .storeFinished buf => buf
  | .push buf => buf
  | .pushing buf => buf
  | _ => []

end CopyPc

namespace WritingPc

/-- The chunk in the writer's hands. -/
def inHand : WritingPc -> List UInt8
  | .write buf => buf
  | _ => []

/-- The loop of `writingFunction` has been left, by its test or by `break`. -/
def Left : WritingPc -> Prop
  | .finishWrite => True
  | .left => True
  | _ => False

end WritingPc

namespace ParallelCopyTool

/-- How the flags and the two threads' program points go together. -/
structure Control (src : List UInt8) (s : ParallelCopyTool) : Prop where
  isOpen : s.queue.isQueueOpen = s.copyPc.queueOpen
  notThrown : s.copyPc ≠ .threw
  started : s.copyPc.started = false <-> s.writingPc = .notStarted
  mapped : s.copyPc.mapped = true -> s.fileReader.mmappedFile = some src
  done : s.copyPc.Done -> s.fileReader.readFinished = true
  left : s.writingPc.Left -> s.copyPc.queueOpen = false ∧ s.queue.queue = []
  mutex : s.copyPc.holdsMutex = false -> s.queue.qm = none

/-- The destination file up to the writer's offset is the source. -/
structure FileData (src : List UInt8) (s : ParallelCopyTool) : Prop where
  uncreated : s.copyPc.created = false -> s.fileWriter.currentOffset = 0
  opened : s.copyPc = .resizeWriter -> exists file, s.fileWriter.file = some file
  file : s.copyPc.created = true -> exists file, s.fileWriter.file = some file ∧
    file.length = src.length ∧
    file.take s.fileWriter.currentOffset = src.take s.fileWriter.currentOffset

structure Data (src : List UInt8) (s : ParallelCopyTool) : Prop where
  readSize : s.fileReader.fileSize = src.length
  writeSize : s.fileWriter.fileSize = src.length
  readBound : s.fileReader.currentOffset ≤ src.length
  writeBound : s.fileWriter.currentOffset ≤ src.length
  finished : s.fileReader.readFinished = true ->
    s.fileReader.currentOffset = src.length
  bytes : src.take s.fileWriter.currentOffset ++ s.writingPc.inHand ++
    s.queue.queue.flatten ++ s.copyPc.inHand =
    src.take s.fileReader.currentOffset

/-!
# Control
-/

theorem new_control (src : List UInt8) (previous : Option (List UInt8)) :
    Control src (new src previous) := by
  constructor <;> simp [new, CopyPc.queueOpen, CopyPc.started, CopyPc.created,
    CopyPc.mapped, CopyPc.Done, WritingPc.Left, SynchronizedQueue.new,
    SynchronizedQueue.open']

theorem Control.created {src : List UInt8} {s : ParallelCopyTool}
    (h : Control src s) (hpc : s.writingPc ≠ .notStarted) :
    s.copyPc.started = true ∧ s.copyPc.created = true := by
  have hstarted : s.copyPc.started = true := by
    cases hstarted : s.copyPc.started with
    | true => rfl
    | false => exact absurd (h.started.mp hstarted) hpc
  have hboth := hstarted
  simp only [CopyPc.started, Bool.and_eq_true] at hboth
  exact ⟨hstarted, hboth.left.left⟩

/-- A step of the loop of `copy` that leaves flag, mapping and writer alone. -/
theorem Control.loop {src : List UInt8} {s s' : ParallelCopyTool}
    (h : Control src s) (hqueue : s'.queue.isQueueOpen = s.queue.isQueueOpen)
    (hfile : s'.fileReader.mmappedFile = s.fileReader.mmappedFile)
    (hwriting : s'.writingPc = s.writingPc) (hopen : s.copyPc.queueOpen = true)
    (hmapped : s.copyPc.mapped = true) (hopen' : s'.copyPc.queueOpen = true)
    (hstarted : s'.copyPc.started = s.copyPc.started)
    (hthrown : s'.copyPc ≠ .threw)
    (hdone : s'.copyPc.Done -> s'.fileReader.readFinished = true)
    (hmutex : s'.copyPc.holdsMutex = false -> s'.queue.qm = none) :
    Control src s' := by
  constructor
  · rw [hqueue, h.isOpen, hopen, hopen']
  · exact hthrown
  · rw [hstarted, hwriting]
    exact h.started
  · intro _
    rw [hfile]
    exact h.mapped hmapped
  · exact hdone
  · intro hl
    rw [hwriting] at hl
    rw [(h.left hl).left] at hopen
    cases hopen
  · exact hmutex

theorem CopyStep.control {src : List UInt8} (hsrc : 1 ≤ src.length)
    {defaultBufferSize : Nat} {s s' : ParallelCopyTool} (h : Control src s)
    (hdata : Data src s) (hstep : CopyStep src defaultBufferSize s s') :
    Control src s' := by
  have hisOpen := h.isOpen
  have hmapped := h.mapped
  have hsize : s.fileReader.fileSize ≠ 0 := by
    rw [hdata.readSize]
    omega
  have hstarted := h.started
  have hfree := h.mutex
  cases hstep with
  | openReader hpc hopen =>
      rw [MMapFileReader.open', if_neg hsize] at hopen
      cases hopen
      have hnot : s.writingPc = .notStarted := hstarted.mp (by rw [hpc]; rfl)
      have hnone := hfree (by rw [hpc]; rfl)
      constructor <;> simp [hnot, hisOpen, hpc, hnone, CopyPc.queueOpen, CopyPc.started,
        CopyPc.created, CopyPc.Done, WritingPc.Left]
  | openFails hpc hopen =>
      rw [MMapFileReader.open', if_neg hsize] at hopen
      cases hopen
  | mapFails hpc hmmap =>
      have hsize' : s.fileWriter.fileSize ≠ 0 := by
        rw [hdata.writeSize]
        omega
      rw [MMapFileWriter.mmap, if_neg hsize'] at hmmap
      cases hmmap
  | startWriter hpc =>
      have hsrcMapped := hmapped (by rw [hpc]; rfl)
      have hnone := hfree (by rw [hpc]; rfl)
      constructor <;> simp [hisOpen, hpc, hsrcMapped, hnone, CopyPc.queueOpen,
        CopyPc.started, CopyPc.created, CopyPc.Done, WritingPc.Left]
  | finished hpc hfinished =>
      exact h.loop rfl rfl rfl (by rw [hpc]; rfl) (by rw [hpc]; rfl) rfl
        (by rw [hpc]; rfl) (by simp) (fun _ => hfinished)
        (fun _ => hfree (by rw [hpc]; rfl))
  | lockPush hpc hunlocked =>
      exact h.loop rfl rfl rfl (by rw [hpc]; rfl) (by rw [hpc]; rfl) rfl
        (by rw [hpc]; rfl) (by simp) (by simp [CopyPc.Done]) (by simp [CopyPc.holdsMutex])
  | push hpc =>
      exact h.loop rfl rfl rfl (by rw [hpc]; rfl) (by rw [hpc]; rfl) rfl
        (by rw [hpc]; rfl) (by simp) (by simp [CopyPc.Done]) (fun _ => rfl)
  | lockClose hpc hunlocked =>
      exact h.loop rfl rfl rfl (by rw [hpc]; rfl) (by rw [hpc]; rfl) rfl
        (by rw [hpc]; rfl) (by simp) (fun _ => h.done (by rw [hpc]; trivial))
        (by simp [CopyPc.holdsMutex])
  | close hpc =>
      constructor
      · rfl
      · simp
      · rw [← hstarted, hpc]
        rfl
      · intro _
        exact hmapped (by rw [hpc]; rfl)
      · intro _
        exact h.done (by rw [hpc]; trivial)
      · intro hl
        have hclosed := (h.left hl).left
        rw [hpc] at hclosed
        cases hclosed
      · intro _
        rfl
  | finishRead hpc =>
      constructor
      · rw [hisOpen, hpc]
        rfl
      · simp
      · rw [← hstarted, hpc]
        rfl
      · intro hfalse
        cases hfalse
      · intro _
        rfl
      · intro hl
        exact ⟨rfl, (h.left hl).right⟩
      · intro _
        exact hfree (by rw [hpc]; rfl)
  | _ hpc =>
      exact h.loop rfl rfl rfl (by rw [hpc]; rfl) (by rw [hpc]; rfl) rfl
        (by rw [hpc]; rfl) (by simp) (by simp [CopyPc.Done])
        (fun _ => hfree (by rw [hpc]; rfl))

theorem WritingStep.control {src : List UInt8} {s s' : ParallelCopyTool}
    (h : Control src s) (hstep : WritingStep s s') : Control src s' := by
  have hrun : s.writingPc ≠ .notStarted -> forall pc : WritingPc,
      pc ≠ .notStarted -> (s.copyPc.started = false <-> pc = .notStarted) := by
    intro hne pc hpc
    simp [(h.created hne).left, hpc]
  cases hstep with
  | finished hpc hfinished =>
      exact ⟨h.isOpen, h.notThrown, hrun (by simp [hpc]) _ (by simp), h.mapped,
        h.done, by simp [WritingPc.Left], h.mutex⟩
  | unfinished hpc hunfinished =>
      exact ⟨h.isOpen, h.notThrown, hrun (by simp [hpc]) _ (by simp), h.mapped,
        h.done, by simp [WritingPc.Left], h.mutex⟩
  | empty hpc hempty =>
      have hboth := (isEmpty_eq_some hempty).right.mp rfl
      refine ⟨h.isOpen, h.notThrown, hrun (by simp [hpc]) _ (by simp), h.mapped,
        h.done, ?_, h.mutex⟩
      intro _
      rw [← h.isOpen]
      exact ⟨hboth.right, hboth.left⟩
  | nonempty hpc hnonempty =>
      exact ⟨h.isOpen, h.notThrown, hrun (by simp [hpc]) _ (by simp), h.mapped,
        h.done, by simp [WritingPc.Left], h.mutex⟩
  | pop hpc hpop =>
      cases pop_cases hpop with
      | wait hfree hgo hempty hopen =>
          exact ⟨h.isOpen, h.notThrown, hrun (by simp [hpc]) _ (by simp [afterPop]),
            h.mapped, h.done, by simp [afterPop, WritingPc.Left], h.mutex⟩
      | nullopt hfree hgo hempty hclosed =>
          refine ⟨h.isOpen, h.notThrown,
            hrun (by simp [hpc]) _ (by simp [afterPop]), h.mapped, h.done, ?_, h.mutex⟩
          intro _
          rw [← h.isOpen]
          exact ⟨hclosed, hempty⟩
      | take hfree hgo hqueue =>
          exact ⟨h.isOpen, h.notThrown, hrun (by simp [hpc]) _ (by simp [afterPop]),
            h.mapped, h.done, by simp [afterPop, WritingPc.Left], h.mutex⟩
  | write hpc hwrite =>
      exact ⟨h.isOpen, h.notThrown, hrun (by simp [hpc]) _ (by simp), h.mapped,
        h.done, by simp [WritingPc.Left], h.mutex⟩
  | writeThrows hpc hwrite =>
      exact ⟨h.isOpen, h.notThrown, hrun (by simp [hpc]) _ (by simp), h.mapped,
        h.done, by simp [WritingPc.Left], h.mutex⟩
  | finishWrite hpc =>
      exact ⟨h.isOpen, h.notThrown, hrun (by simp [hpc]) _ (by simp), h.mapped,
        h.done, fun _ => h.left (by rw [hpc]; trivial), h.mutex⟩

/-!
# The bytes
-/

theorem new_data (src : List UInt8) (previous : Option (List UInt8)) :
    Data src (new src previous) := by
  constructor <;> simp [new, MMapFileReader.new, MMapFileWriter.new,
    WritingPc.inHand, CopyPc.inHand, SynchronizedQueue.new,
    SynchronizedQueue.open']

theorem new_fileData (src : List UInt8) (previous : Option (List UInt8)) :
    FileData src (new src previous) := by
  constructor
  · intro _
    rfl
  · intro hpc
    cases hpc
  · intro hcreated
    cases hcreated

/-- The bytes in flight are those between the writer's offset and the reader's. -/
theorem Data.offset {src : List UInt8} {s : ParallelCopyTool} (h : Data src s) :
    s.fileWriter.currentOffset + s.writingPc.inHand.length +
      s.queue.queue.flatten.length + s.copyPc.inHand.length =
      s.fileReader.currentOffset := by
  have hlength := congrArg List.length h.bytes
  have hread := h.readBound
  have hwrite := h.writeBound
  simp only [List.length_append, List.length_take] at hlength
  omega

/-- The chunk in the writer's hands continues what it has stored. -/
theorem Data.take_append_inHand {src : List UInt8} {s : ParallelCopyTool}
    (h : Data src s) :
    src.take s.fileWriter.currentOffset ++ s.writingPc.inHand =
      src.take (s.fileWriter.currentOffset + s.writingPc.inHand.length) := by
  have hoffset := h.offset
  have hread := h.readBound
  have hbytes := congrArg
    (List.take (s.fileWriter.currentOffset + s.writingPc.inHand.length)) h.bytes
  have hlength : (src.take s.fileWriter.currentOffset ++
      s.writingPc.inHand).length =
      s.fileWriter.currentOffset + s.writingPc.inHand.length := by
    simp only [List.length_append, List.length_take]
    omega
  rw [List.append_assoc (_ ++ _), ← hlength, List.take_left, hlength,
    List.take_take] at hbytes
  rw [hbytes]
  congr 1
  omega

/-- `write` never throws, and the offset does not wrap. -/
theorem Data.write {src : List UInt8} (hsrc : src.length < 2 ^ 63)
    {s : ParallelCopyTool} (h : Data src s) {buf : List UInt8}
    (hpc : s.writingPc = .write buf) :
    (MMapFileWriter.write buf).run s.fileWriter = .ok () { s.fileWriter with
      file := s.fileWriter.file.map fun file =>
        copyTo file s.fileWriter.currentOffset buf
      currentOffset := s.fileWriter.currentOffset + buf.length } := by
  have hoffset := h.offset
  have hread := h.readBound
  have hhand : s.writingPc.inHand = buf := by
    rw [hpc]
    rfl
  rw [hhand] at hoffset
  have hsum : SizeT.add s.fileWriter.currentOffset buf.length =
      s.fileWriter.currentOffset + buf.length :=
    SizeT.add_eq (by unfold SizeT.modulus; omega)
  rw [MMapFileWriter.write_run, hsum, if_neg (by rw [h.writeSize]; omega)]

/-- A step that keeps the offsets and moves no byte. -/
theorem Data.keep {src : List UInt8} {s s' : ParallelCopyTool} (h : Data src s)
    (hreader : s'.fileReader = s.fileReader)
    (hsize : s'.fileWriter.fileSize = s.fileWriter.fileSize)
    (hoffset : s'.fileWriter.currentOffset = s.fileWriter.currentOffset)
    (hmoved : s'.writingPc.inHand ++ s'.queue.queue.flatten ++ s'.copyPc.inHand =
      s.writingPc.inHand ++ s.queue.queue.flatten ++ s.copyPc.inHand) :
    Data src s' := by
  have hbytes := h.bytes
  constructor
  · rw [hreader]
    exact h.readSize
  · rw [hsize]
    exact h.writeSize
  · rw [hreader]
    exact h.readBound
  · rw [hoffset]
    exact h.writeBound
  · rw [hreader]
    exact h.finished
  · simp only [List.append_assoc] at hbytes hmoved
    rw [hreader, hoffset, ← hbytes, ← hmoved]
    simp only [List.append_assoc]

theorem CopyStep.data {src : List UInt8} (hsrc : src.length < 2 ^ 63)
    {defaultBufferSize : Nat} (hpage : defaultBufferSize < 2 ^ 63)
    {s s' : ParallelCopyTool} (hcontrol : Control src s) (h : Data src s)
    (hstep : CopyStep src defaultBufferSize s s') : Data src s' := by
  have hbytes := h.bytes
  cases hstep with
  | openReader hpc hopen =>
      unfold MMapFileReader.open' at hopen
      split at hopen
      · cases hopen
      · cases hopen
        rw [hpc] at hbytes
        refine ⟨h.readSize, h.writeSize, h.readBound, h.writeBound, ?_, hbytes⟩
        intro hfinished
        change (if _ then _ else _) = true at hfinished
        split at hfinished
        · cases hfinished
        · exact h.finished hfinished
  | mapWriter hpc hmmap =>
      unfold MMapFileWriter.mmap at hmmap
      split at hmmap
      · cases hmmap
      · cases hmmap
        exact h.keep rfl rfl rfl (by simp [hpc, CopyPc.inHand])
  | startWriter hpc =>
      have hnot : s.writingPc = .notStarted :=
        hcontrol.started.mp (by rw [hpc]; rfl)
      exact h.keep rfl rfl rfl (by simp [hpc, hnot, CopyPc.inHand, WritingPc.inHand])
  | @read mapped hpc hmapped =>
      have hsource : mapped = src := by
        have hboth := hcontrol.mapped (by rw [hpc]; rfl)
        rw [hmapped] at hboth
        exact Option.some.inj hboth
      subst mapped
      have hcount := MMapFileReader.readCount_eq hsrc hpage h.readSize h.readBound
      have hchunk := MMapFileReader.take_append_chunk hsrc hpage h.readSize
        h.readBound
      have hbound := h.readBound
      refine ⟨h.readSize, h.writeSize, ?_, h.writeBound, ?_, ?_⟩
      · change s.fileReader.readCount defaultBufferSize ≤ src.length
        omega
      · intro hfinished
        have hend := h.finished hfinished
        change s.fileReader.readCount defaultBufferSize = src.length
        omega
      · rw [hpc] at hbytes
        change _ ++ s.fileReader.chunk defaultBufferSize src =
          src.take (s.fileReader.readCount defaultBufferSize)
        rw [← hchunk, ← hbytes]
        simp [CopyPc.inHand]
  | storeFinished hpc =>
      rw [hpc] at hbytes
      refine ⟨h.readSize, h.writeSize, h.readBound, h.writeBound, ?_, hbytes⟩
      intro hfinished
      have hsize := h.readSize
      have hbound := h.readBound
      change (if _ then _ else _) = true at hfinished
      change s.fileReader.currentOffset = src.length
      split at hfinished
      · omega
      · exact h.finished hfinished
  | push hpc =>
      exact h.keep rfl rfl rfl (by simp [hpc, SynchronizedQueue.push, CopyPc.inHand])
  | finishRead hpc =>
      have hend := h.finished (hcontrol.done (by rw [hpc]; trivial))
      rw [hpc] at hbytes
      exact ⟨h.readSize, h.writeSize, h.readBound, h.writeBound, fun _ => hend,
        hbytes⟩
  | _ hpc =>
      exact h.keep rfl rfl rfl (by rw [hpc]; rfl)

theorem WritingStep.data {src : List UInt8} (hsrc : src.length < 2 ^ 63)
    {s s' : ParallelCopyTool} (h : Data src s) (hstep : WritingStep s s') :
    Data src s' := by
  have hbytes := h.bytes
  cases hstep with
  | pop hpc hpop =>
      cases pop_cases hpop with
      | wait hfree hgo hempty hopen =>
          exact h.keep rfl rfl rfl (by rw [hpc]; rfl)
      | nullopt hfree hgo hempty hclosed =>
          exact h.keep rfl rfl rfl (by rw [hpc]; rfl)
      | take hfree hgo hqueue =>
          exact h.keep rfl rfl rfl (by simp [hpc, hqueue, afterPop, WritingPc.inHand])
  | @write buf writer hpc hwrite =>
      have hoffset := h.offset
      have hread := h.readBound
      have hhand := h.take_append_inHand
      rw [h.write hsrc hpc] at hwrite
      cases hwrite
      simp only [hpc, WritingPc.inHand] at hoffset hhand hbytes
      refine ⟨h.readSize, h.writeSize, h.readBound, ?_, h.finished, ?_⟩
      · change s.fileWriter.currentOffset + buf.length ≤ src.length
        omega
      · change src.take (s.fileWriter.currentOffset + buf.length) ++ [] ++ _ ++ _ = _
        rw [← hbytes, hhand]
        simp
  | writeThrows hpc hwrite =>
      rw [h.write hsrc hpc] at hwrite
      cases hwrite
  | finishWrite hpc =>
      unfold MMapFileWriter.finishWrite
      split
      · exact h.keep rfl rfl rfl (by rw [hpc]; rfl)
      · exact h.keep rfl rfl rfl (by rw [hpc]; rfl)
  | _ hpc =>
      exact h.keep rfl rfl rfl (by rw [hpc]; rfl)

/-!
# The destination file
-/

theorem CopyStep.fileData {src : List UInt8} {defaultBufferSize : Nat}
    {s s' : ParallelCopyTool} (hdata : Data src s) (h : FileData src s)
    (hstep : CopyStep src defaultBufferSize s s') : FileData src s' := by
  have hsame : s'.fileWriter = s.fileWriter ->
      s'.copyPc.created = s.copyPc.created -> s'.copyPc ≠ .resizeWriter ->
      FileData src s' := by
    intro hwriter hcreated hpc
    constructor
    · rw [hcreated, hwriter]
      exact h.uncreated
    · exact fun hresize => absurd hresize hpc
    · rw [hcreated, hwriter]
      exact h.file
  cases hstep with
  | createWriter hpc =>
      have hzero := h.uncreated (by rw [hpc]; rfl)
      exact ⟨fun _ => hzero, fun _ => ⟨_, rfl⟩, by simp [CopyPc.created]⟩
  | resizeWriter hpc =>
      have hzero := h.uncreated (by rw [hpc]; rfl)
      rcases h.opened hpc with ⟨file, hfile⟩
      constructor
      · exact fun _ => hzero
      · simp
      · intro _
        refine ⟨ftruncate file s.fileWriter.fileSize, ?_, ?_, ?_⟩
        · simp [MMapFileWriter.resize, hfile]
        · rw [ftruncate_length, hdata.writeSize]
        · simp [MMapFileWriter.resize, hzero]
  | mapWriter hpc hmmap =>
      unfold MMapFileWriter.mmap at hmmap
      split at hmmap
      · cases hmmap
      · cases hmmap
        exact ⟨by simp [CopyPc.created], by simp, fun _ => h.file (by rw [hpc]; rfl)⟩
  | mapFails hpc hmmap =>
      have hbound := hdata.writeBound
      have hsize := hdata.writeSize
      unfold MMapFileWriter.mmap at hmmap
      split at hmmap
      · refine ⟨?_, by simp, by simp [CopyPc.created]⟩
        intro _
        show s.fileWriter.currentOffset = 0
        omega
      · cases hmmap
  | _ hpc => exact hsame rfl (by rw [hpc]; rfl) (by simp)

theorem WritingStep.fileData {src : List UInt8} (hsrc : src.length < 2 ^ 63)
    {s s' : ParallelCopyTool} (hcontrol : Control src s) (hdata : Data src s)
    (h : FileData src s) (hstep : WritingStep s s') : FileData src s' := by
  cases hstep with
  | @write buf writer hpc hwrite =>
      have hcreated := (hcontrol.created (by simp [hpc])).right
      have hoffset := hdata.offset
      have hread := hdata.readBound
      have hhand := hdata.take_append_inHand
      simp only [hpc, WritingPc.inHand] at hoffset hhand
      rw [hdata.write hsrc hpc] at hwrite
      cases hwrite
      rcases h.file hcreated with ⟨file, hfile, hlength, htake⟩
      constructor
      · intro huncreated
        change s.copyPc.created = false at huncreated
        rw [hcreated] at huncreated
        cases huncreated
      · intro hresize
        change s.copyPc = .resizeWriter at hresize
        rw [hresize] at hcreated
        cases hcreated
      · intro _
        refine ⟨copyTo file s.fileWriter.currentOffset buf, ?_, ?_, ?_⟩
        · simp [hfile]
        · rw [copyTo_length (by omega), hlength]
        · change (copyTo file s.fileWriter.currentOffset buf).take
            (s.fileWriter.currentOffset + buf.length) = _
          rw [take_copyTo (by omega), htake, hhand]
  | finishWrite hpc =>
      unfold MMapFileWriter.finishWrite
      split
      · exact ⟨h.uncreated, h.opened, h.file⟩
      · exact ⟨h.uncreated, h.opened, h.file⟩
  | writeThrows hpc hwrite =>
      rw [hdata.write hsrc hpc] at hwrite
      cases hwrite
  | _ => exact ⟨h.uncreated, h.opened, h.file⟩

/-- Everything known of a state reached without a failing call. -/
structure Inv (src : List UInt8) (s : ParallelCopyTool) : Prop where
  control : Control src s
  data : Data src s
  fileData : FileData src s

theorem new_inv (src : List UInt8) (previous : Option (List UInt8)) :
    Inv src (new src previous) where
  control := new_control src previous
  data := new_data src previous
  fileData := new_fileData src previous

theorem next_inv {src : List UInt8} (hpos : 1 ≤ src.length)
    (hsrc : src.length < 2 ^ 63) {defaultBufferSize : Nat}
    (hpage : defaultBufferSize < 2 ^ 63) {a : Action} {s s' : ParallelCopyTool}
    (h : Inv src s) (hok : NoFailure s a)
    (hstep : next src defaultBufferSize a s = some s') : Inv src s' := by
  rcases next_cases hok hstep with ⟨_, hcopy⟩ | ⟨_, hwriting⟩
  · exact ⟨hcopy.control hpos h.control h.data, hcopy.data hsrc hpage h.control h.data,
      hcopy.fileData h.data h.fileData⟩
  · exact ⟨hwriting.control h.control, hwriting.data hsrc h.data,
      hwriting.fileData hsrc h.control h.data h.fileData⟩

theorem next_notThrown {src : List UInt8} (hpos : 1 ≤ src.length)
    (hsrc : src.length < 2 ^ 63) {defaultBufferSize : Nat}
    (hpage : defaultBufferSize < 2 ^ 63) {a : Action} {s s' : ParallelCopyTool}
    (h : Inv src s ∧ s.writingPc ≠ .threw) (hok : NoFailure s a)
    (hstep : next src defaultBufferSize a s = some s') :
    Inv src s' ∧ s'.writingPc ≠ .threw := by
  refine ⟨next_inv hpos hsrc hpage h.left hok hstep, ?_⟩
  have hsame := h.right
  rcases next_cases hok hstep with ⟨_, hcopy⟩ | ⟨_, hwriting⟩
  · cases hcopy with
    | startWriter hpc => simp
    | _ => exact hsame
  · cases hwriting with
    | writeThrows hpc hwrite =>
        rw [h.left.data.write hsrc hpc] at hwrite
        cases hwrite
    | pop hpc hpop => cases pop_cases hpop <;> simp [afterPop]
    | _ => simp

/-- The loop of `copy` is over, the queue is empty and so are the hands of the writer. -/
theorem Inv.copied_drained {src : List UInt8} {s : ParallelCopyTool} (h : Inv src s)
    (hdone : s.copyPc.Done) (hdrained : s.queue.queue = [])
    (hwriting : s.writingPc.inHand = []) : s.fileWriter.file = some src := by
  have hcreated : s.copyPc.created = true := by
    cases hpc : s.copyPc <;> simp_all [CopyPc.Done, CopyPc.created]
  rcases h.fileData.file hcreated with ⟨file, hfile, hlength, htake⟩
  have hhand : s.copyPc.inHand = [] := by
    cases hpc : s.copyPc <;> simp_all [CopyPc.Done, CopyPc.inHand]
  have hoffset := h.data.offset
  rw [hwriting, hdrained, hhand, h.data.finished (h.control.done hdone)] at hoffset
  have hend : s.fileWriter.currentOffset = src.length := hoffset
  rw [hend, List.take_length, ← hlength, List.take_length] at htake
  rw [hfile, htake]

theorem Inv.copied {src : List UInt8} {s : ParallelCopyTool} (h : Inv src s)
    (hleft : s.writingPc.Left) : s.fileWriter.file = some src := by
  have hdrained := h.control.left hleft
  have hwriting : s.writingPc.inHand = [] := by
    cases hpc : s.writingPc <;> simp_all [WritingPc.Left, WritingPc.inHand]
  have hdone : s.copyPc.Done := by
    cases hpc : s.copyPc <;> simp_all [CopyPc.queueOpen, CopyPc.Done]
  exact h.copied_drained hdone hdrained.right hwriting

theorem reaches_inv {src : List UInt8} (hpos : 1 ≤ src.length)
    (hsrc : src.length < 2 ^ 63) {defaultBufferSize : Nat}
    (hpage : defaultBufferSize < 2 ^ 63) {previous : Option (List UInt8)}
    {s : ParallelCopyTool}
    (hrun : Reaches (StepOf (next src defaultBufferSize)) NoFailure
      (new src previous) s) : Inv src s :=
  Reaches.invariant (Inv src)
    (fun _ _ _ hx hguard hstep => next_inv hpos hsrc hpage hx hguard hstep) hrun
    (new_inv src previous)

theorem reaches_notThrown {src : List UInt8} (hpos : 1 ≤ src.length)
    (hsrc : src.length < 2 ^ 63) {defaultBufferSize : Nat}
    (hpage : defaultBufferSize < 2 ^ 63) {previous : Option (List UInt8)}
    {s : ParallelCopyTool}
    (hrun : Reaches (StepOf (next src defaultBufferSize)) NoFailure
      (new src previous) s) : Inv src s ∧ s.writingPc ≠ .threw :=
  Reaches.invariant (fun x => Inv src x ∧ x.writingPc ≠ .threw)
    (fun _ _ _ hx hguard hstep => next_notThrown hpos hsrc hpage hx hguard hstep) hrun
    ⟨new_inv src previous, by simp [new]⟩

/-!
# A reservation that fails
-/

theorem writingFunction_copyPc (s : ParallelCopyTool) (pc : CopyPc) :
    writingFunction { s with copyPc := pc } =
      s.writingFunction.map fun s' => { s' with copyPc := pc } := by
  unfold writingFunction
  cases hpc : s.writingPc with
  | testEmpty => simp [Option.map_map, Function.comp_def]
  | pop _ => simp [Option.map_map, Function.comp_def]
  | write buf => cases hwrite : (MMapFileWriter.write buf).run s.fileWriter <;> simp [hwrite]
  | _ => rfl

/-- When the reservation fails nothing but `copy` is left. -/
theorem copy_unreserved {src : List UInt8} {defaultBufferSize : Nat}
    {s s' : ParallelCopyTool} (hpc : s.copyPc = .read)
    (h : s.copy src defaultBufferSize true = some s') : s' = { s with copyPc := .threw } := by
  simp only [copy, hpc, if_true] at h
  cases h
  rfl

/--
Up to the exception of a failing reservation no call has failed, and what comes after it
could also come if `copy` stood still.
-/
theorem reaches_unthrown {src : List UInt8} {defaultBufferSize : Nat}
    {previous : Option (List UInt8)} {s : ParallelCopyTool}
    (hrun : Reaches (StepOf (next src defaultBufferSize)) NoSystemFailure
      (new src previous) s) :
    exists pc, Reaches (StepOf (next src defaultBufferSize)) NoFailure (new src previous)
        { s with copyPc := pc } ∧
      (s.copyPc = pc ∨ s.copyPc = .threw ∧ pc = .read) := by
  refine Reaches.invariant (fun x => exists pc,
    Reaches (StepOf (next src defaultBufferSize)) NoFailure (new src previous)
        { x with copyPc := pc } ∧
      (x.copyPc = pc ∨ x.copyPc = .threw ∧ pc = .read)) ?_ hrun
    ⟨.openReader, Relation.ReflTransGen.refl, Or.inl rfl⟩
  rintro x ⟨thread, fails⟩ x' ⟨pc, hreach, hbefore⟩ hguard hstep
  cases thread with
  | writing =>
      have hwrites : x.writingFunction = some x' := hstep
      have hsame : x'.copyPc = x.copyPc := by
        cases writingFunction_cases hwrites <;> rfl
      have hmoved : next src defaultBufferSize (.writing, false) { x with copyPc := pc } =
          some { x' with copyPc := pc } := by
        show writingFunction { x with copyPc := pc } = _
        rw [writingFunction_copyPc, hwrites]
        rfl
      exact ⟨pc, hreach.tail ⟨(.writing, false), rfl, hmoved⟩, by rwa [hsame]⟩
  | reading =>
      have hcopy : x.copy src defaultBufferSize fails = some x' := hstep
      rcases hbefore with rfl | ⟨hthrew, _⟩
      · cases fails with
        | false => exact ⟨_, hreach.tail ⟨(.reading, false), rfl, hcopy⟩, Or.inl rfl⟩
        | true =>
            have hread := hguard rfl
            cases copy_unreserved hread hcopy
            exact ⟨.read, by rwa [hread] at hreach, Or.inr ⟨rfl, rfl⟩⟩
      · simp [copy, hthrew] at hcopy

/--
In every run without failing system calls `write` does not throw, and once the writer
has left its loop the destination is the source, also when a reservation has failed.
-/
theorem copies_source (src : List UInt8) (hpos : 1 ≤ src.length)
    (hsrc : src.length < 2 ^ 63) (defaultBufferSize : Nat)
    (hpage : defaultBufferSize < 2 ^ 63)
    (previous : Option (List UInt8)) (s : ParallelCopyTool)
    (hrun : Reaches (StepOf (next src defaultBufferSize)) NoSystemFailure
      (new src previous) s) :
    s.writingPc ≠ .threw ∧
      (s.writingPc.Left -> s.fileWriter.file = some src) := by
  rcases reaches_unthrown hrun with ⟨pc, hreach, _⟩
  have hinv := reaches_notThrown hpos hsrc hpage hreach
  exact ⟨hinv.right, hinv.left.copied⟩

/-- Two chunks over a longer file, the writer asleep when the first is pushed. -/
def writerWaits : List Action :=
  List.replicate 6 (.reading, false) ++ List.replicate 2 (.writing, false) ++
    List.replicate 15 (.reading, false) ++ List.replicate 9 (.writing, false)

theorem copies_source_writerWaits :
    exists s, exec (next [1, 2, 3] 2) writerWaits
        (new [1, 2, 3] (some [9, 9, 9, 9, 9])) = some s ∧
      s.writingPc = .left ∧ s.fileWriter.file = some [1, 2, 3] := by
  have hview : (exec (next [1, 2, 3] 2) writerWaits
      (new [1, 2, 3] (some [9, 9, 9, 9, 9]))).map (fun s => s.writingPc) =
      some .left := by
    decide +kernel
  rcases Option.map_eq_some_iff.mp hview with ⟨s, hexec, hleft⟩
  have hcopied := copies_source [1, 2, 3] (by decide) (by decide) 2 (by decide)
    (some [9, 9, 9, 9, 9]) s (reaches_of_exec writerWaits (by decide +kernel) hexec)
  exact ⟨s, hexec, hleft, hcopied.right (by rw [hleft]; trivial)⟩

end ParallelCopyTool
end Parallel
end Common
end Ki
