import Ki.Common.BPCopyTool.Termination
import Ki.Common.IPCTool.Session

/-!
# The potential of a process

Each process has a potential, the steps that are left to it if the others leave it
alone, and the filled buffers in the queue have one.  Others may set a process back by
six steps at most: they wake it, open or close the queue, or queue or take a buffer.
-/

namespace Ki

namespace Queue
namespace FixedBufferQueue

variable {ι : Type}

/-- No reader has opened the queue yet. -/
def Unopened (q : FixedBufferQueue ι) : Prop :=
  q.isOpen = false ∧ q.isReadFinished_ = false ∧ q.writeBuffers = []

instance (q : FixedBufferQueue ι) : Decidable q.Unopened :=
  inferInstanceAs (Decidable (_ ∧ _ ∧ _))

end FixedBufferQueue
end Queue

namespace Common

open Queue

instance {ι : Type} (q : FixedBufferQueue ι) : Decidable (Drained q) :=
  decidable_of_iff (q.isReadFinished_ = true ∧ q.isOpen = false ∧ q.writeBuffers = [])
    ⟨fun h => ⟨h.left, h.right.left, h.right.right⟩,
      fun h => ⟨h.finished, h.closed, h.empty⟩⟩

end Common

namespace IPC

open Queue
open FixedBufferQueue
open Clients
open Reader
open BufferedReader
open Writer
open BufferedFileWriter
open Common

/-- The points of the round of a writer that gets no buffer from a closed queue. -/
def WriterPc.Polls : WriterPc -> Prop
  | .testFinished => True
  | .write (.getFilledBuffer .lock) => True
  | .write (.getFilledBuffer .recheck) => True
  | _ => False

instance (pc : WriterPc) : Decidable pc.Polls :=
  match pc with
  | .testFinished => isTrue trivial
  | .write (.getFilledBuffer .lock) => isTrue trivial
  | .write (.getFilledBuffer .recheck) => isTrue trivial
  | .write (.getFilledBuffer .wait) => isFalse id
  | .write (.getFilledBuffer .blocked) => isFalse id
  | .write (.fwrite _) => isFalse id
  | .write (.returnBuffer _) => isFalse id
  | .write .notifyAll => isFalse id
  | .write .popEmpty => isFalse id
  | .create => isFalse id
  | .startWriting => isFalse id
  | .checkFinished => isFalse id
  | .startObserver => isFalse id
  | .testEmpty => isFalse id
  | .stopTimer => isFalse id
  | .returned => isFalse id
  | .threw => isFalse id

def Tool.Polls : Tool -> Prop
  | .writer _ pc => pc.Polls
  | _ => False

instance (tool : Tool) : Decidable tool.Polls :=
  match tool with
  | .none => isFalse id
  | .reader _ _ => isFalse id
  | .writer _ pc => inferInstanceAs (Decidable pc.Polls)

/-!
# The potentials

`loud` is what a step pays that may set other processes back.
-/

/-- What a chunk still to be read costs, and a filled buffer still to be written. -/
def chunkCost (loud : Nat) : Nat :=
  5 * loud + 15

def bufferCost (loud : Nat) : Nat :=
  2 * loud + 7

/-- The distance of a reader from the end of its round. -/
def ReaderPc.potential (loud : Nat) (asleep waiting : Bool) : ReaderPc -> Nat
  | .openQueue => 2 * loud + 15
  | .openFile => loud + 14
  | .startObserver => loud + 13
  | .testFinished => loud + 8
  | .read (.getFreeBuffer pc) => loud + 5 + pc.potential asleep
  | .read (.fill _) => loud + 5
  | .read (.storeFinished _) => 4 * loud + 12
  | .read (.finishRead _) => 4 * loud + 11
  | .read (.returnBuffer _) => 3 * loud + 10
  | .read .notifyAll => 2 * loud + 9
  | .read .popEmpty => 0
  | .close => loud + 4
  | .awaitStarted => 3
  | .waiting => if waiting then 2 else 3
  | .stopTimer => 1
  | .returned => 0
  | .threw _ => 0

/-- The filled buffers in the hands of a reader. -/
def ReaderPc.filled : ReaderPc -> Nat
  | .read (.storeFinished _) => 1
  | .read (.finishRead _) => 1
  | .read (.returnBuffer _) => 1
  | _ => 0

/-- The chunks a reader has not yet filled a buffer with. -/
def ReaderPc.toRead (reader : BufferedReader) : ReaderPc -> Nat
  | .read (.storeFinished _) => 0
  | _ => if reader.readFinished then 0 else BPCopyTool.fullChunks reader + 1

/-- The distance of a writer from the end of its round, the last one if it is drained. -/
def WriterPc.potential (loud : Nat) (asleep unopened drained : Bool) : WriterPc -> Nat
  | .create => loud + 17
  | .startWriting => loud + 16
  | .checkFinished => 15
  | .startObserver => 14
  | .testFinished => if drained then 3 else if unopened then 6 else 9
  | .testEmpty => if drained then 2 else 8
  | .write (.getFilledBuffer .lock) => if unopened then 6 else 7
  | .write (.getFilledBuffer .recheck) => 6
  | .write (.getFilledBuffer .wait) => 5
  | .write (.getFilledBuffer .blocked) => if asleep then 4 else 7
  | .write (.fwrite _) => loud + 12
  | .write (.returnBuffer _) => loud + 11
  | .write .notifyAll => loud + 10
  | .write .popEmpty => 0
  | .stopTimer => 1
  | .returned => 0
  | .threw => 0

def Observer.potential : Observer -> Nat
  | .off => 0
  | .watching => 4
  | .expired => 3
  | .removing => 2
  | .terminating => 1
  | .returned => 0

theorem Observer.potential_le (timer : Observer) : timer.potential ≤ 4 := by
  cases timer <;> simp [Observer.potential]

section Potential

variable {ι : Type} [DecidableEq ι]

def Tool.potential (loud : Nat) (me : ι) (sh : Segment ι) : Tool -> Nat
  | .none => 0
  | .reader fileReader pc =>
      chunkCost loud * pc.toRead fileReader + bufferCost loud * pc.filled +
        pc.potential loud (decide (me ∈ sh.queue.cv))
          (decide (me ∈ sh.procInfo.writingStartedCondition))
  | .writer _ pc =>
      pc.potential loud (decide (me ∈ sh.queue.cv)) (decide sh.queue.Unopened)
        (decide (Drained sh.queue))

/-- The most a tool can cost that has just been built. -/
def freshCost (loud n : Nat) : Nat :=
  chunkCost loud * (n / bufferSize + 1) + 2 * loud + 17

/-- What is left of a process that is given a source of `n` bytes. -/
def Process.potential (loud n : Nat) (me : ι) (sh : Segment ι) (p : Process) : Nat :=
  if p.crashed then 0
  else
    match p.phase with
    | .attach => freshCost loud n + 16
    | .constructProcInfo => freshCost loud n + 15
    | .findProcInfo => freshCost loud n + 15
    | .getQueue => freshCost loud n + 14
    | .storeDst => freshCost loud n + 13
    | .decideType => freshCost loud n + 12
    | .register => 7 + p.timer.potential + p.tool.potential loud me sh
    | .copy => 6 + p.timer.potential + p.tool.potential loud me sh
    | .deregister => 5 + p.timer.potential
    | .joinTimer => 4 + p.timer.potential
    | .readWriterCount => 3
    | .readReaderCount => 2
    | .removeObject => 1
    | .gone => 0

/-!
# What others do to a potential
-/

theorem ReaderPc.potential_raise (loud : Nat) (pc : ReaderPc)
    (asleep waiting asleep' waiting' : Bool) :
    pc.potential loud asleep' waiting' ≤ pc.potential loud asleep waiting + 6 := by
  cases pc with
  | read pc =>
      cases pc with
      | getFreeBuffer pc =>
          cases pc <;> cases asleep <;> cases asleep' <;>
            simp [ReaderPc.potential, GetPc.potential]
      | _ => exact Nat.le_add_right _ _
  | waiting => cases waiting <;> cases waiting' <;> simp [ReaderPc.potential]
  | _ => exact Nat.le_add_right _ _

theorem WriterPc.potential_raise (loud : Nat) (pc : WriterPc)
    (asleep unopened drained asleep' unopened' drained' : Bool) :
    pc.potential loud asleep' unopened' drained' ≤
      pc.potential loud asleep unopened drained + 6 := by
  cases pc with
  | write pc =>
      cases pc with
      | getFilledBuffer pc =>
          cases pc <;> cases asleep <;> cases asleep' <;> cases unopened <;>
            cases unopened' <;> simp [WriterPc.potential]
      | _ => exact Nat.le_add_right _ _
  | testFinished =>
      cases drained <;> cases drained' <;> cases unopened <;> cases unopened' <;>
        simp [WriterPc.potential]
  | testEmpty => cases drained <;> cases drained' <;> simp [WriterPc.potential]
  | _ => exact Nat.le_add_right _ _

/-- Whatever happens to the shared state sets a process back by six steps at most. -/
theorem Process.potential_raise (loud n : Nat) (me : ι) (sh sh' : Segment ι)
    (p : Process) :
    p.potential loud n me sh' ≤ p.potential loud n me sh + 6 := by
  have htool : p.tool.potential loud me sh' ≤ p.tool.potential loud me sh + 6 := by
    cases p.tool with
    | none => simp [Tool.potential]
    | reader reader pc =>
        have hraise := pc.potential_raise loud (decide (me ∈ sh.queue.cv))
          (decide (me ∈ sh.procInfo.writingStartedCondition))
          (decide (me ∈ sh'.queue.cv))
          (decide (me ∈ sh'.procInfo.writingStartedCondition))
        simp only [Tool.potential]
        omega
    | writer writer pc =>
        simp only [Tool.potential]
        exact pc.potential_raise loud _ _ _ _ _ _
  unfold Process.potential
  split
  · exact Nat.zero_le _
  · split <;> omega

end Potential
end IPC

namespace Common

open Foundation
open Queue
open FixedBufferQueue
open Clients
open Reader
open BufferedReader
open Writer
open BufferedFileWriter
open Stdio
open IPC
open IPCTool

variable {ι : Type} [DecidableEq ι]

/-!
# What the measure rests on
-/

/-- What holds of the tool of a process in every run, whatever happens to it. -/
def Tool.Paced (src : List UInt8) : Tool -> Prop
  | .none => True
  | .reader fileReader pc =>
      fileReader.fileSize = src.length ∧ fileReader.currentOffset ≤ src.length ∧
        forall rpc, pc = .read rpc ->
          rpc.Typed ∧ (rpc.Early -> fileReader.readFinished = false)
  | .writer _ pc => forall wpc, pc = .write wpc -> wpc.Typed

theorem reader_paced {src : List UInt8} {reader : BufferedReader} {pc : ReaderPc}
    (hsize : reader.fileSize = src.length) (hbound : reader.currentOffset ≤ src.length)
    (hpc : forall rpc, pc ≠ .read rpc) : Tool.Paced src (.reader reader pc) :=
  ⟨hsize, hbound, fun rpc hrpc => absurd hrpc (hpc rpc)⟩

theorem IPCTool.ReadingStep.paced {src : List UInt8} {me : ι} {io : Io}
    {sh sh' : Segment ι} {p p' : Process} {reader : BufferedReader} {pc : ReaderPc}
    (htool : p.tool = .reader reader pc) (h : Tool.Paced src p.tool)
    (hstep : ReadingStep src me io sh p reader pc p' sh') : Tool.Paced src p'.tool := by
  have hcrash := h
  rw [htool] at h
  rcases h with ⟨hsize, hbound, hread⟩
  cases hstep with
  | crash hnull => exact hcrash
  | unfinished hunfinished =>
      refine ⟨hsize, hbound, ?_⟩
      intro rpc hrpc
      cases hrpc
      refine ⟨?_, fun _ => hunfinished⟩
      intro b hb
      cases hb
  | @read rpc r reader' q hreadStep =>
      have hreader := readStep_bound (by rw [hsize]; exact hbound) hreadStep
      rw [hsize] at hreader
      have hbefore := hread rpc rfl
      cases r with
      | next rpc' =>
          refine ⟨hreader.left, hreader.right, ?_⟩
          intro rpc'' hrpc
          cases hrpc
          exact ⟨readStep_typed hbefore.left hreadStep,
            fun hearly => readStep_early hbefore.right hearly hreadStep⟩
      | done => exact reader_paced hreader.left hreader.right (by simp)
      | threw held => exact reader_paced hreader.left hreader.right (by simp)
  | _ => exact reader_paced hsize hbound (by simp)

theorem IPCTool.WritingStep.paced {src : List UInt8} {me : ι} {io : Io}
    {sh sh' : Segment ι} {p p' : Process} {writer : BufferedFileWriter} {pc : WriterPc}
    (htool : p.tool = .writer writer pc) (h : Tool.Paced src p.tool)
    (hstep : WritingStep me io sh p writer pc p' sh') : Tool.Paced src p'.tool := by
  have hcrash := h
  rw [htool] at h
  have henter : forall wpc, WriterPc.write (.getFilledBuffer .lock) = .write wpc ->
      wpc.Typed := by
    intro wpc hwpc b hb
    cases hwpc
    cases hb
  cases hstep with
  | crash hnull => exact hcrash
  | unfinished hunfinished => exact henter
  | nonempty => exact henter
  | @write wpc r writer' q hwrite =>
      cases r with
      | next wpc' =>
          intro wpc'' hwpc
          cases hwpc
          exact writeStep_typed (h wpc rfl) hwrite
      | done =>
          intro wpc' hwpc
          cases hwpc
  | _ =>
      intro wpc hwpc
      cases hwpc

theorem ProcessStep.paced {args : Args} {me : ι} {event : Event} {sh sh' : Segment ι}
    {p p' : Process} (h : Tool.Paced args.src p.tool)
    (hstep : ProcessStep args me sh p event p' sh') : Tool.Paced args.src p'.tool := by
  cases hstep with
  | start hstart =>
      cases hstart with
      | decideReader hphase hcount =>
          exact reader_paced rfl (Nat.zero_le _) (by simp)
      | decideWriter hphase hcount =>
          intro wpc hwpc
          cases hwpc
      | _ => exact h
  | reading hphase htype htool hreading => exact hreading.paced htool h
  | writing hphase htype htool hwriting => exact hwriting.paced htool h
  | leave hleave => cases hleave <;> exact h
  | observe hphase hobserve => cases hobserve <;> exact h
  | linger hphase hobserve => cases hobserve <;> exact h
  | _ => exact h

/-!
# What a step pays
-/

/-- What the others see of the queue has not changed. -/
structure StillQueue (me : ι) (q q' : FixedBufferQueue ι) : Prop where
  cv : forall t, t ≠ me -> (t ∈ q'.cv <-> t ∈ q.cv)
  isOpen : q'.isOpen = q.isOpen
  finished : q'.isReadFinished_ = q.isReadFinished_
  writeBuffers : q'.writeBuffers = q.writeBuffers

structure Quiet (me : ι) (sh sh' : Segment ι) : Prop where
  queue : StillQueue me sh.queue sh'.queue
  started : forall t, t ≠ me ->
    (t ∈ sh'.procInfo.writingStartedCondition <->
      t ∈ sh.procInfo.writingStartedCondition)

/-- A step leaves the others alone, or it pays for what it sets them back. -/
def Pays (loud : Nat) (me : ι) (sh sh' : Segment ι) (old new : Nat) : Prop :=
  Quiet me sh sh' ∧ new < old ∨
    new + bufferCost loud * sh'.queue.writeBuffers.length + loud <
      old + bufferCost loud * sh.queue.writeBuffers.length

omit [DecidableEq ι] in
theorem quiet_of_queue_eq {me : ι} {sh sh' : Segment ι} (hqueue : sh'.queue = sh.queue)
    (hstarted : sh'.procInfo.writingStartedCondition =
      sh.procInfo.writingStartedCondition) : Quiet me sh sh' := by
  constructor
  · rw [hqueue]
    exact ⟨fun _ _ => Iff.rfl, rfl, rfl, rfl⟩
  · intro t _
    rw [hstarted]

omit [DecidableEq ι] in
theorem quiet_of_still {me : ι} {sh : Segment ι} {q' : FixedBufferQueue ι}
    (h : StillQueue me sh.queue q') : Quiet me sh { sh with queue := q' } :=
  ⟨h, fun _ _ => Iff.rfl⟩

omit [DecidableEq ι] in
theorem StillQueue.unopened {me : ι} {q q' : FixedBufferQueue ι}
    (h : StillQueue me q q') : q'.Unopened <-> q.Unopened := by
  unfold FixedBufferQueue.Unopened
  rw [h.isOpen, h.finished, h.writeBuffers]

omit [DecidableEq ι] in
theorem StillQueue.drained {me : ι} {q q' : FixedBufferQueue ι}
    (h : StillQueue me q q') : Drained q' <-> Drained q := by
  constructor
  · intro hdrained
    exact ⟨h.finished ▸ hdrained.finished, h.isOpen ▸ hdrained.closed,
      h.writeBuffers ▸ hdrained.empty⟩
  · intro hdrained
    exact ⟨h.finished.trans hdrained.finished, h.isOpen.trans hdrained.closed,
      h.writeBuffers.trans hdrained.empty⟩

theorem Quiet.writer_potential {me : ι} {sh sh' : Segment ι} (h : Quiet me sh sh')
    (loud : Nat) (t : ι) (writer : BufferedFileWriter) (pc : WriterPc) :
    Tool.potential loud t sh' (.writer writer pc) =
      pc.potential loud (decide (t ∈ sh'.queue.cv)) (decide sh.queue.Unopened)
        (decide (Drained sh.queue)) := by
  rw [Tool.potential, decide_eq_decide.mpr h.queue.unopened,
    decide_eq_decide.mpr h.queue.drained]

/-- A quiet step does not change the potential of another process. -/
theorem Quiet.potential_eq {me t : ι} {sh sh' : Segment ι} (h : Quiet me sh sh')
    (ht : t ≠ me) (loud n : Nat) (p : Process) :
    p.potential loud n t sh' = p.potential loud n t sh := by
  have htool : p.tool.potential loud t sh' = p.tool.potential loud t sh := by
    cases p.tool with
    | none => rfl
    | reader reader pc =>
        rw [Tool.potential, Tool.potential, decide_eq_decide.mpr (h.queue.cv t ht),
          decide_eq_decide.mpr (h.started t ht)]
    | writer writer pc =>
        rw [h.writer_potential, Tool.potential, decide_eq_decide.mpr (h.queue.cv t ht)]
  rw [Process.potential, Process.potential, htool]

section Moves

variable {p : Process} {sh : Segment ι} (loud n : Nat) (me : ι)

theorem potential_copy (hlive : p.crashed = false) (hphase : p.phase = .copy) :
    p.potential loud n me sh =
      6 + p.timer.potential + p.tool.potential loud me sh := by
  simp [Process.potential, hlive, hphase]

theorem potential_goto (hlive : p.crashed = false) (hphase : p.phase = .copy)
    (tool : Tool) :
    (p.goto tool).potential loud n me sh =
      6 + p.timer.potential + tool.potential loud me sh :=
  potential_copy loud n me hlive hphase

theorem potential_startObserver (hlive : p.crashed = false) (hphase : p.phase = .copy)
    (tool : Tool) :
    (p.startObserver tool).potential loud n me sh = 10 + tool.potential loud me sh :=
  potential_copy loud n me hlive hphase

theorem potential_leave (hlive : p.crashed = false) (tool : Tool) :
    (p.leave tool).potential loud n me sh = 5 + p.timer.potential := by
  simp [Process.potential, Process.leave, hlive]

theorem potential_stopTimer (hlive : p.crashed = false) (tool : Tool) :
    (p.stopTimer tool).potential loud n me sh = 5 := by
  simp [Process.potential, Process.stopTimer, hlive, Observer.potential]

theorem potential_crash : p.crash.potential loud n me sh = 0 := by
  simp [Process.potential, Process.crash]

end Moves

theorem Tool.potential_congr {loud : Nat} {me : ι} {sh sh' : Segment ι} {tool : Tool}
    (hqueue : sh'.queue = sh.queue)
    (hstarted : sh'.procInfo.writingStartedCondition =
      sh.procInfo.writingStartedCondition) :
    tool.potential loud me sh' = tool.potential loud me sh := by
  cases tool with
  | none => rfl
  | reader reader pc => rw [Tool.potential, Tool.potential, hqueue, hstarted]
  | writer writer pc => rw [Tool.potential, Tool.potential, hqueue]

end Common
end Ki
