import Ki.Common.BPCopyTool.Exactness
import Ki.Common.BPCopyTool.Exceptions
import Ki.Common.BPCopyTool.Progress
import Ki.Foundation.Termination

/-!
# Termination of the buffered parallel copy tool

Every step of either thread lowers one measure: the chunks that are still to be
read and written, each with the steps it costs, and the distance of each thread
from the end of its round.  A notification wakes the other thread for at most
two more steps.
-/

namespace Ki
namespace Queue
namespace FixedBufferQueue

variable {ι : Type} [DecidableEq ι]

/-- The steps left before the thread has to be notified or leaves the get function. -/
def GetPc.potential (asleep : Bool) : GetPc -> Nat
  | .lock => 2
  | .wait => 1
  | .blocked => if asleep then 0 else 2
  | .recheck => 1

def GetResult.potential (asleep : Bool) : GetResult -> Nat
  | .next pc => pc.potential asleep
  | _ => 0

theorem getStep_lowers {q q' : FixedBufferQueue ι} {side : BufferType} {me : ι}
    {pc : GetPc} {r : GetResult} (h : q.getStep side me pc = some (r, q')) :
    r.potential (decide (me ∈ q'.cv)) < pc.potential (decide (me ∈ q.cv)) := by
  cases getStep_cases h with
  | ready hpc hfree htest =>
      rcases hpc with rfl | ⟨rfl, hawake⟩
      · simp [GetResult.potential, GetPc.potential]
      · simp [GetResult.potential, GetPc.potential, hawake]
  | unready hpc hfree hempty hopen =>
      rcases hpc with rfl | ⟨rfl, hawake⟩
      · simp [GetResult.potential, GetPc.potential]
      · simp [GetResult.potential, GetPc.potential, hawake]
  | _ => simp [GetResult.potential, GetPc.potential]

theorem getStep_cv_iff {q q' : FixedBufferQueue ι} {side : BufferType} {me t : ι}
    {pc : GetPc} {r : GetResult} (h : q.getStep side me pc = some (r, q'))
    (ht : t ≠ me) : t ∈ q'.cv <-> t ∈ q.cv := by
  cases getStep_cases h with
  | sleep => simp [ht]
  | take hpop => simp
  | _ => rfl

theorem getFreeBuffer_writeBuffers {q q' : FixedBufferQueue ι} {me : ι} {pc : GetPc}
    {r : GetResult} (h : q.getStep .read me pc = some (r, q')) :
    q'.writeBuffers = q.writeBuffers := by
  cases getStep_cases h <;> rfl

end FixedBufferQueue
end Queue

namespace Reader
namespace BufferedReader

open Queue
open Stdio

/-- The offset stays within the size that has been read off when the reader was built. -/
theorem readStep_bound {ι : Type} [DecidableEq ι] {me : ι} {io : Io}
    {reader reader' : BufferedReader} {q q' : FixedBufferQueue ι} {pc : ReadPc}
    {r : ReadResult} (hbound : reader.currentOffset ≤ reader.fileSize)
    (hstep : reader.readStep me io q pc = some (r, reader', q')) :
    reader'.fileSize = reader.fileSize ∧ reader'.currentOffset ≤ reader.fileSize := by
  cases readStep_cases hstep with
  | fill hopen hok => exact ⟨rfl, Nat.min_le_right _ _⟩
  | _ => exact ⟨rfl, hbound⟩

end BufferedReader
end Reader

namespace Common

open Foundation
open Queue
open FixedBufferQueue
open Clients
open Reader
open BufferedReader
open Writer
open BufferedFileWriter
open Stdio

/-!
# The measure
-/

/-- The distance of `copy` from the end of its round. -/
def CopyPc.potential (asleep : Bool) : CopyPc -> Nat
  | .openQueue => 8
  | .openReader => 7
  | .createWriter => 6
  | .startWriter => 5
  | .testFinished => 4
  | .read (.getFreeBuffer pc) => 1 + pc.potential asleep
  | .read (.fill _) => 1
  | .read (.storeFinished _) => 10
  | .read (.finishRead _) => 9
  | .read (.returnBuffer _) => 8
  | .read .notifyAll => 7
  | .read .popEmpty => 0
  | .close => 1
  | .returned => 0
  | .threw _ => 0

/-- The filled buffers in the hands of `copy`. -/
def CopyPc.filled : CopyPc -> Nat
  | .read (.storeFinished _) => 1
  | .read (.finishRead _) => 1
  | .read (.returnBuffer _) => 1
  | _ => 0

/--
The distance of `writingFunction` from the end of its round; `drained` says that
nothing will be queued any more, and then its next round is the last.
-/
def WritingPc.potential (asleep drained : Bool) : WritingPc -> Nat
  | .notStarted => 8
  | .testFinished => if drained then 3 else 8
  | .testEmpty => if drained then 2 else 7
  | .write (.getFilledBuffer pc) => 4 + pc.potential asleep
  | .write (.fwrite _) => 13
  | .write (.returnBuffer _) => 12
  | .write .notifyAll => 11
  | .write .popEmpty => 0
  | .left => 0

/-- A notification costs the thread that it wakes at most two steps. -/
theorem WritingPc.potential_wake (pc : WritingPc) (asleep drained : Bool) :
    pc.potential false drained ≤ pc.potential asleep drained + 2 := by
  cases asleep with
  | false => omega
  | true =>
      cases pc with
      | write pc =>
          cases pc with
          | getFilledBuffer pc => cases pc <;> simp [WritingPc.potential, GetPc.potential]
          | _ => simp [WritingPc.potential]
      | _ => simp [WritingPc.potential]

theorem CopyPc.potential_wake (pc : CopyPc) (asleep : Bool) :
    pc.potential false ≤ pc.potential asleep + 2 := by
  cases asleep with
  | false => omega
  | true =>
      cases pc with
      | read pc =>
          cases pc with
          | getFreeBuffer pc => cases pc <;> simp [CopyPc.potential, GetPc.potential]
          | _ => simp [CopyPc.potential]
      | _ => simp [CopyPc.potential]

/-- The last round is the shorter one. -/
theorem WritingPc.potential_drained (pc : WritingPc) (asleep drained : Bool) :
    pc.potential asleep drained ≤ pc.potential asleep false := by
  cases drained with
  | false => exact Nat.le_refl _
  | true =>
      cases pc with
      | write pc => cases pc <;> exact Nat.le_refl _
      | _ => simp [WritingPc.potential]

namespace BPCopyTool

/-- The chunks before the end of the source that fill a buffer to its end. -/
def fullChunks (reader : BufferedReader) : Nat :=
  (reader.fileSize - reader.currentOffset) / bufferSize

/-- The chunks `copy` has not yet filled a buffer with. -/
def toRead (reader : BufferedReader) : CopyPc -> Nat
  | .read (.storeFinished _) => 0
  | _ => if reader.readFinished then 0 else fullChunks reader + 1

/-- The reading side of the measure. -/
def readingPotential (reader : BufferedReader) (q : FixedBufferQueue Thread)
    (pc : CopyPc) : Nat :=
  19 * toRead reader pc + 9 * (pc.filled + q.writeBuffers.length) +
    pc.potential (decide (Thread.reading ∈ q.cv))

/-- The writing side of the measure. -/
def writingPotential (q : FixedBufferQueue Thread) (copyPc : CopyPc)
    (pc : WritingPc) : Nat :=
  pc.potential (decide (Thread.writing ∈ q.cv))
    (decide (copyPc = .returned ∧ q.writeBuffers = []))

def potential (s : BPCopyTool) : Nat :=
  readingPotential s.fileReader s.queue s.copyPc +
    writingPotential s.queue s.copyPc s.writingPc

theorem writingPotential_of_ne {q : FixedBufferQueue Thread} {copyPc : CopyPc}
    {pc : WritingPc} (h : copyPc ≠ .returned) :
    writingPotential q copyPc pc =
      pc.potential (decide (Thread.writing ∈ q.cv)) false := by
  simp [writingPotential, h]

/-- The number of steps in which a source of `n` bytes is copied. -/
def stepsFor (n : Nat) : Nat :=
  19 * (n / bufferSize) + 35

theorem new_potential (src : List UInt8) (dst : String)
    (buffers : Nat -> List UInt8) :
    (new src dst buffers).potential = stepsFor src.length := by
  have hread : toRead (BufferedReader.new src) .openQueue =
      src.length / bufferSize + 1 := rfl
  simp only [potential, readingPotential, writingPotential, stepsFor, new, hread,
    FixedBufferQueue.new, CopyPc.filled, CopyPc.potential, WritingPc.potential,
    List.length_nil]
  omega

/-!
# What the measure rests on
-/

/-- What holds in every run, whatever the stdio calls do. -/
structure Paced (src : List UInt8) (s : BPCopyTool) : Prop where
  size : s.fileReader.fileSize = src.length
  bound : s.fileReader.currentOffset ≤ src.length
  isOpen : s.queue.isOpen = s.copyPc.queueOpen
  unannounced : Unannounced s
  closing : s.copyPc = .close ∨ s.copyPc = .returned -> s.fileReader.readFinished = true
  reads : forall pc, s.copyPc = .read pc -> pc.Typed
  writes : forall pc, s.writingPc = .write pc -> pc.Typed

theorem new_paced (src : List UInt8) (dst : String) (buffers : Nat -> List UInt8) :
    Paced src (new src dst buffers) where
  size := rfl
  bound := Nat.zero_le _
  isOpen := rfl
  unannounced := new_unannounced src dst buffers
  closing := by simp [new]
  reads := by simp [new]
  writes := by simp [new]

theorem CopyStep.paced {src : List UInt8} {io : Io} {s s' : BPCopyTool}
    (h : Paced src s) (hstep : CopyStep src io s s') : Paced src s' := by
  have hisOpen := hstep.isOpen h.isOpen
  have hunannounced := hstep.unannounced h.unannounced
  have hwrites := h.writes
  cases hstep with
  | startWriter hpc =>
      exact ⟨h.size, h.bound, hisOpen, hunannounced, by simp, by simp, by simp⟩
  | finished hpc hfinished =>
      exact ⟨h.size, h.bound, hisOpen, hunannounced, fun _ => hfinished, by simp, hwrites⟩
  | unfinished hpc hunfinished =>
      refine ⟨h.size, h.bound, hisOpen, hunannounced, by simp, ?_, hwrites⟩
      intro pc hpc' b hb
      cases hpc'
      cases hb
  | @read pc r reader q hpc hread =>
      have hbound : s.fileReader.currentOffset ≤ s.fileReader.fileSize := by
        rw [h.size]
        exact h.bound
      have hreader := readStep_bound hbound hread
      rw [h.size] at hreader
      refine ⟨hreader.left, hreader.right, hisOpen, hunannounced, ?_, ?_, hwrites⟩
      · cases r <;> simp [afterRead]
      · intro pc' hpc'
        cases r with
        | next pc'' =>
            cases hpc'
            exact readStep_typed (h.reads pc hpc) hread
        | _ => cases hpc'
  | close hpc =>
      exact ⟨h.size, h.bound, hisOpen, hunannounced,
        fun _ => h.closing (Or.inl hpc), by simp, hwrites⟩
  | _ => exact ⟨h.size, h.bound, hisOpen, hunannounced, by simp, by simp, hwrites⟩

theorem WritingStep.paced {src : List UInt8} {io : Io} {s s' : BPCopyTool}
    (h : Paced src s) (hstep : WritingStep io s s') : Paced src s' := by
  have hisOpen := hstep.isOpen.trans h.isOpen
  have hunannounced := hstep.unannounced h.unannounced
  have henter : forall pc, WritingPc.write (.getFilledBuffer .lock) = .write pc ->
      pc.Typed := by
    intro pc hpc b hb
    cases hpc
    cases hb
  cases hstep with
  | unfinished hpc hunfinished =>
      exact ⟨h.size, h.bound, hisOpen, hunannounced, h.closing, h.reads, henter⟩
  | nonempty hpc =>
      exact ⟨h.size, h.bound, hisOpen, hunannounced, h.closing, h.reads, henter⟩
  | @write pc r writer q hpc hwrite =>
      refine ⟨h.size, h.bound, hisOpen, hunannounced, h.closing, h.reads, ?_⟩
      intro pc' hpc'
      cases r with
      | next pc'' =>
          cases hpc'
          exact writeStep_typed (h.writes pc hpc) hwrite
      | done => cases hpc'
  | _ => exact ⟨h.size, h.bound, hisOpen, hunannounced, h.closing, h.reads, by simp⟩

theorem next_paced {src : List UInt8} {a : Action} {s s' : BPCopyTool}
    (h : Paced src s) (hstep : next src a s = some s') : Paced src s' := by
  rcases next_cases hstep with ⟨_, hcopy⟩ | ⟨_, hwriting⟩
  · exact hcopy.paced h
  · exact hwriting.paced h

/-!
# Every step lowers the measure
-/

/-- A chunk that is not the last leaves one chunk less. -/
theorem fullChunks_fill {reader : BufferedReader} (hsize : reader.fileSize < 2 ^ 63)
    (hbound : reader.currentOffset ≤ reader.fileSize)
    (hmore : reader.readCount < reader.fileSize) (file : FILE) (io : Io) :
    fullChunks (reader.afterFgetc file io) + 1 = fullChunks reader := by
  have hcount := readCount_eq hsize rfl hbound
  have hroom : reader.currentOffset + bufferSize < reader.fileSize := by
    omega
  have hfirst : (reader.fileSize - reader.currentOffset) / bufferSize =
      (reader.fileSize - reader.currentOffset - bufferSize) / bufferSize + 1 :=
    Nat.div_eq_sub_div bufferSize_pos (by omega)
  show (reader.fileSize - reader.readCount) / bufferSize + 1 =
    (reader.fileSize - reader.currentOffset) / bufferSize
  rw [hcount, Nat.min_eq_left (Nat.le_of_lt hroom), hfirst, Nat.sub_sub]

theorem readStep_lowers {io : Io} {reader reader' : BufferedReader}
    {q q' : FixedBufferQueue Thread} {pc : ReadPc} {r : ReadResult}
    (hsize : reader.fileSize < 2 ^ 63) (hbound : reader.currentOffset ≤ reader.fileSize)
    (htyped : pc.Typed) (hearly : pc.Early -> reader.readFinished = false)
    (hstep : reader.readStep .reading io q pc = some (r, reader', q')) :
    readingPotential reader' q' (afterRead r) + (if pc = .notifyAll then 2 else 0) <
      readingPotential reader q (.read pc) := by
  cases readStep_cases hstep with
  | @getFreeBuffer gpc got q' hget =>
      have hlower := getStep_lowers hget
      have hqueued := getFreeBuffer_writeBuffers hget
      cases got with
      | next gpc' =>
          simpa [readingPotential, afterRead, afterGetFreeBuffer, toRead, hqueued,
            CopyPc.filled, CopyPc.potential, GetResult.potential] using hlower
      | buffer b =>
          simpa [readingPotential, afterRead, afterGetFreeBuffer, toRead, hqueued,
            CopyPc.filled, CopyPc.potential, GetResult.potential] using hlower
      | _ =>
          simp only [readingPotential, afterRead, afterGetFreeBuffer, toRead, hqueued,
            CopyPc.filled, CopyPc.potential, reduceCtorEq, if_false]
          omega
  | setvbufFails buf hfails =>
      simp [readingPotential, afterRead, toRead, CopyPc.filled, CopyPc.potential]
  | @fill buf file hopen hok =>
      have hunfinished := hearly trivial
      by_cases hmore : reader.readCount < reader.fileSize
      · have hless := fullChunks_fill hsize hbound hmore (file.setvbuf buf.data) io
        have hstill : (reader.afterFgetc (file.setvbuf buf.data) io).readFinished =
            false := hunfinished
        simp [hmore, readingPotential, afterRead, toRead, hunfinished, hstill,
          CopyPc.filled, CopyPc.potential]
        omega
      · simp [hmore, readingPotential, afterRead, toRead, hunfinished,
          CopyPc.filled, CopyPc.potential]
        omega
  | storeFinished buf =>
      simp [readingPotential, afterRead, toRead, CopyPc.filled, CopyPc.potential]
  | finishRead buf hfree =>
      simp [readingPotential, afterRead, toRead, CopyPc.filled, CopyPc.potential]
  | @returnBuffer buf q' hreturn =>
      have htype := htyped buf (by simp [ReadPc.client])
      rcases returnBuffer_cases hreturn with ⟨_, rfl⟩
      simp only [readingPotential, afterRead, toRead, CopyPc.filled, CopyPc.potential,
        htype, BufferType.flip, setDeque, dequeOf, List.length_append, List.length_cons,
        List.length_nil, reduceCtorEq, if_false]
      omega
  | notifyAll =>
      simp [readingPotential, afterRead, toRead, CopyPc.filled, CopyPc.potential,
        FixedBufferQueue.notifyAll]

theorem readStep_cv_iff {io : Io} {reader reader' : BufferedReader}
    {q q' : FixedBufferQueue Thread} {pc : ReadPc} {r : ReadResult}
    (hstep : reader.readStep .reading io q pc = some (r, reader', q'))
    (hpc : pc ≠ .notifyAll) : .writing ∈ q'.cv <-> .writing ∈ q.cv := by
  cases readStep_cases hstep with
  | getFreeBuffer hget => exact getStep_cv_iff hget (by simp)
  | returnBuffer hreturn =>
      rcases returnBuffer_cases hreturn with ⟨_, rfl⟩
      simp
  | notifyAll => exact absurd rfl hpc
  | _ => rfl

theorem CopyStep.lowers {src : List UInt8} (hsrc : src.length < 2 ^ 63) {io : Io}
    {s s' : BPCopyTool} (h : Paced src s) (hstep : CopyStep src io s s') :
    s'.potential < s.potential := by
  cases hstep with
  | openQueue hpc =>
      have hwriting : writingPotential s.queue.open' .openReader s.writingPc =
          writingPotential s.queue .openQueue s.writingPc := by
        rw [writingPotential_of_ne (by simp), writingPotential_of_ne (by simp)]
        rfl
      simp only [potential, hpc, hwriting]
      simp [readingPotential, toRead, FixedBufferQueue.open', CopyPc.filled,
        CopyPc.potential]
  | openFails hpc hfails =>
      rcases hpc with hpc | hpc
      · simp [potential, readingPotential, writingPotential, hpc, toRead,
          CopyPc.filled, CopyPc.potential]
      · simp [potential, readingPotential, writingPotential, hpc, toRead,
          CopyPc.filled, CopyPc.potential]
  | openReader hpc =>
      have hbound : ¬ s.fileReader.fileSize < s.fileReader.currentOffset := by
        rw [h.size]
        exact Nat.not_lt.mpr h.bound
      simp [potential, readingPotential, writingPotential, hpc, toRead,
        BufferedReader.open', hbound, fullChunks, CopyPc.filled, CopyPc.potential]
  | createWriter hpc =>
      simp [potential, readingPotential, writingPotential, hpc, toRead,
        CopyPc.filled, CopyPc.potential]
  | startWriter hpc =>
      have hnot := h.unannounced.notStarted (by rw [hpc]; rfl)
      simp [potential, readingPotential, writingPotential, hpc, hnot, toRead,
        CopyPc.filled, CopyPc.potential, WritingPc.potential]
  | finished hpc hfinished =>
      simp [potential, readingPotential, writingPotential, hpc, toRead,
        CopyPc.filled, CopyPc.potential]
  | unfinished hpc hunfinished =>
      simp [potential, readingPotential, writingPotential, hpc, toRead,
        CopyPc.filled, CopyPc.potential, GetPc.potential]
  | @read pc r reader q hpc hread =>
      have hsize : s.fileReader.fileSize < 2 ^ 63 := by
        rw [h.size]
        exact hsrc
      have hbound : s.fileReader.currentOffset ≤ s.fileReader.fileSize := by
        rw [h.size]
        exact h.bound
      have hlower := readStep_lowers hsize hbound (h.reads pc hpc)
        (h.unannounced.early pc hpc) hread
      have hafter : afterRead r ≠ .returned := by
        cases r <;> simp [afterRead]
      have hwriting : writingPotential q (afterRead r) s.writingPc ≤
          writingPotential s.queue s.copyPc s.writingPc +
            (if pc = .notifyAll then 2 else 0) := by
        rw [writingPotential_of_ne hafter, writingPotential_of_ne (by simp [hpc])]
        by_cases hnotify : pc = .notifyAll
        · subst hnotify
          cases readStep_cases hread with
          | notifyAll => exact WritingPc.potential_wake s.writingPc _ false
        · simp [hnotify, readStep_cv_iff hread hnotify]
      rw [hpc] at hwriting
      simp only [potential, hpc]
      omega
  | close hpc =>
      have hwriting : writingPotential s.queue.close .returned s.writingPc ≤
          writingPotential s.queue s.copyPc s.writingPc := by
        have hbefore : writingPotential s.queue s.copyPc s.writingPc = _ :=
          writingPotential_of_ne (by simp [hpc])
        rw [hbefore]
        exact WritingPc.potential_drained s.writingPc _ _
      have hreading : readingPotential s.fileReader s.queue.close .returned <
          readingPotential s.fileReader s.queue s.copyPc := by
        simp [readingPotential, hpc, toRead, FixedBufferQueue.close, CopyPc.filled,
          CopyPc.potential]
      simp only [potential]
      omega

theorem writeStep_lowers {io : Io} {writer writer' : BufferedFileWriter}
    {q q' : FixedBufferQueue Thread} {pc : WritePc} {r : WriteResult}
    {copyPc : CopyPc} (htyped : pc.Typed)
    (hclosed : q.isOpen = false -> copyPc = .returned)
    (hstep : writer.writeStep .writing io q pc = some (r, writer', q')) :
    9 * q'.writeBuffers.length + writingPotential q' copyPc (afterWrite r) +
        (if pc = .notifyAll then 2 else 0) <
      9 * q.writeBuffers.length + writingPotential q copyPc (.write pc) := by
  cases writeStep_cases hstep with
  | @getFilledBuffer gpc got q' hget =>
      have hlower := getStep_lowers hget
      cases getStep_cases hget with
      | nullopt hempty hclose =>
          -- the deque stays empty: the next round is the last
          have hwriteBuffers : q.writeBuffers = [] := hempty
          simp [writingPotential, afterWrite, afterGetFilledBuffer, hwriteBuffers,
            hclosed hclose, WritingPc.potential, GetPc.potential]
      | @take b rest hpop =>
          have hwriteBuffers : q.writeBuffers = b :: rest := popFrom_write hpop
          simp [writingPotential, afterWrite, afterGetFilledBuffer, hwriteBuffers,
            setDeque, WritingPc.potential, GetPc.potential]
          omega
      | popEmpty hempty hopen =>
          simp [writingPotential, afterWrite, afterGetFilledBuffer, WritingPc.potential,
            GetPc.potential]
      | _ =>
          simpa [writingPotential, afterWrite, afterGetFilledBuffer, WritingPc.potential,
            GetResult.potential] using hlower
  | fwrite hopen => simp [writingPotential, afterWrite, WritingPc.potential]
  | @returnBuffer buf q' hreturn =>
      have htype := htyped buf (by simp [WritePc.client])
      rcases returnBuffer_cases hreturn with ⟨_, rfl⟩
      simp [writingPotential, afterWrite, htype, BufferType.flip, setDeque,
        WritingPc.potential]
  | notifyAll =>
      have htestFinished : forall asleep drained,
          WritingPc.potential asleep drained .testFinished ≤ 8 := by
        intro asleep drained
        cases drained <;> simp [WritingPc.potential]
      have hafter := htestFinished (decide (.writing ∈ q.notifyAll.cv))
        (decide (copyPc = .returned ∧ q.notifyAll.writeBuffers = []))
      simp only [writingPotential, afterWrite] at hafter ⊢
      simp [WritingPc.potential, FixedBufferQueue.notifyAll] at hafter ⊢
      omega

theorem writeStep_cv_iff {io : Io} {writer writer' : BufferedFileWriter}
    {q q' : FixedBufferQueue Thread} {pc : WritePc} {r : WriteResult}
    (hstep : writer.writeStep .writing io q pc = some (r, writer', q'))
    (hpc : pc ≠ .notifyAll) : .reading ∈ q'.cv <-> .reading ∈ q.cv := by
  cases writeStep_cases hstep with
  | getFilledBuffer hget => exact getStep_cv_iff hget (by simp)
  | returnBuffer hreturn =>
      rcases returnBuffer_cases hreturn with ⟨_, rfl⟩
      simp
  | notifyAll => exact absurd rfl hpc
  | _ => rfl

/-- The writer goes on only if a buffer is queued or may still be. -/
theorem not_drained_of_nonempty {io : Io} {s s' : BPCopyTool}
    (hstep : s.writingFunction io = some s') (hpc : s.writingPc = .testEmpty)
    (hpc' : s'.writingPc ≠ .left) :
    ¬ (s.queue.writeBuffers = [] ∧ s.queue.isOpen = false) := by
  intro hdrained
  unfold writingFunction at hstep
  rw [hpc] at hstep
  rcases Option.map_eq_some_iff.mp hstep with ⟨isEmpty, hisEmpty, rfl⟩
  have hempty := (FixedBufferQueue.isEmpty_cases hisEmpty).right.mpr hdrained
  simp [hempty] at hpc'

theorem writingFunction_lowers {src : List UInt8} {io : Io} {s s' : BPCopyTool}
    (h : Paced src s) (hstep : s.writingFunction io = some s') :
    s'.potential < s.potential := by
  have hreturned : s.copyPc = .returned -> s.queue.isOpen = false := by
    intro hpc
    rw [h.isOpen, hpc]
    rfl
  cases writingFunction_cases hstep with
  | finished hpc hfinished =>
      simp only [potential, writingPotential, hpc, WritingPc.potential]
      split <;> omega
  | unfinished hpc hunfinished =>
      have hgoing : s.copyPc ≠ .returned := by
        intro hcopy
        rw [h.closing (Or.inr hcopy)] at hunfinished
        cases hunfinished
      simp [potential, writingPotential, hpc, hgoing, WritingPc.potential,
        GetPc.potential]
  | empty hpc hfree hempty hclosed =>
      simp only [potential, writingPotential, hpc, WritingPc.potential]
      split <;> omega
  | nonempty hpc =>
      have hgoing := not_drained_of_nonempty hstep hpc (by simp)
      have hmore : ¬ (s.copyPc = .returned ∧ s.queue.writeBuffers = []) :=
        fun hdrained => hgoing ⟨hdrained.right, hreturned hdrained.left⟩
      simp [potential, writingPotential, hpc, hmore, WritingPc.potential,
        GetPc.potential]
  | @write pc r writer q hpc hwrite =>
      have hclosed : s.queue.isOpen = false -> s.copyPc = .returned := by
        intro hclosed
        rw [h.isOpen] at hclosed
        cases hcopy : s.copyPc with
        | returned => rfl
        | openQueue =>
            -- nothing has been started yet
            rw [h.unannounced.notStarted (by rw [hcopy]; rfl)] at hpc
            cases hpc
        | _ =>
            rw [hcopy] at hclosed
            cases hclosed
      have hlower := writeStep_lowers (h.writes pc hpc) hclosed hwrite
      have hreading : s.copyPc.potential (decide (.reading ∈ q.cv)) ≤
          s.copyPc.potential (decide (.reading ∈ s.queue.cv)) +
            (if pc = .notifyAll then 2 else 0) := by
        by_cases hnotify : pc = .notifyAll
        · subst hnotify
          cases writeStep_cases hwrite with
          | notifyAll => exact CopyPc.potential_wake s.copyPc _
        · simp [hnotify, writeStep_cv_iff hwrite hnotify]
      simp only [potential, readingPotential, hpc]
      omega

theorem next_lowers {src : List UInt8} (hsrc : src.length < 2 ^ 63) {a : Action}
    {s s' : BPCopyTool} (h : Paced src s) (hstep : next src a s = some s') :
    s'.potential < s.potential := by
  rcases a with ⟨thread, io⟩
  cases thread with
  | reading => exact (copy_cases hstep).lowers hsrc h
  | writing => exact writingFunction_lowers h hstep

/-!
# Every run ends
-/

/--
No run is longer than `stepsFor` the source, whatever the interleaving and whatever
the stdio calls do: neither thread ever spins or is woken in vain for ever.
-/
theorem steps_bounded (src : List UInt8) (hsrc : src.length < 2 ^ 63) (dst : String)
    (buffers : Nat -> List UInt8) (as : List Action) (s : BPCopyTool)
    (hexec : exec (next src) as (new src dst buffers) = some s) :
    as.length ≤ stepsFor src.length := by
  have hlength := exec_length_le (Paced src) potential
    (fun _ _ _ hx hstep => next_paced hx hstep)
    (fun _ _ _ hx hstep => next_lowers hsrc hx hstep)
    as (new_paced src dst buffers) hexec
  rw [new_potential] at hlength
  omega

/-- The first `setvbuf` fails and the writer goes to sleep. -/
theorem steps_bounded_afterThrow :
    exists s, exec (next [1]) (aboutToFill ++ setvbufFails :: sleepsAfterThrow)
        (new [1] "dst" fun _ => []) = some s ∧
      (aboutToFill ++ setvbufFails :: sleepsAfterThrow).length ≤ stepsFor 1 := by
  have hview : (exec (next [1]) (aboutToFill ++ setvbufFails :: sleepsAfterThrow)
      (new [1] "dst" fun _ => [])).map (fun s => s.copyPc) =
      some (.threw [Buffer.new 511]) := by
    decide +kernel
  rcases Option.map_eq_some_iff.mp hview with ⟨s, hexec, _⟩
  exact ⟨s, hexec, steps_bounded [1] (by decide) "dst" _ _ s hexec⟩

/-- A writer that sleeps after `copy` has returned has seen the queue empty. -/
theorem Linked.drained_of_asleep {s : BPCopyTool} {returned delivered : List Payload}
    (h : Linked s returned delivered) (hcopy : s.copyPc = .returned)
    (hwriting : s.writingPc = .write (.getFilledBuffer .blocked))
    (hasleep : .writing ∈ s.queue.cv) : s.queue.writeBuffers = [] := by
  cases hqueued : s.queue.writeBuffers with
  | nil => rfl
  | cons b rest =>
      have hcall : ((s.clients returned delivered).client .writing).call =
          .get .write .blocked := by
        show s.writingPc.client.call = _
        rw [hwriting]
        rfl
      have hne : (s.clients returned delivered).queue.dequeOf .write ≠ [] := by
        show s.queue.writeBuffers ≠ []
        simp [hqueued]
      rcases h.clients.wakeup .writing .write hasleep hcall hne with ⟨t, hnotify⟩
      cases t with
      | reading =>
          simp [BPCopyTool.clients, hcopy, CopyPc.client] at hnotify
      | writing =>
          rw [hcall] at hnotify
          cases hnotify

/-- Both threads have stopped: `copy` has returned, the writer has left or sleeps for good. -/
structure Stopped (s : BPCopyTool) : Prop where
  returned : s.copyPc = .returned
  writer : s.writingPc = .left ∨
    s.writingPc = .write (.getFilledBuffer .blocked) ∧ .writing ∈ s.queue.cv

/--
Every run whose stdio calls succeed ends, and where it ends the whole source has been
written, also when the writer has slept through `close`.
-/
theorem ends_copied (src : List UInt8) (hsrc : src.length < 2 ^ 63) (dst : String)
    (buffers : Nat -> List UInt8) :
    Ends (StepOf (next src)) Succeeds
      (fun s => s.Stopped ∧ s.fileWriter.written = src) (new src dst buffers) := by
  apply Ends.of_measure
    (fun x => Paced src x ∧ exists returned delivered,
      Linked x returned delivered ∧ Data src x returned delivered) potential
  · rintro x a x' ⟨hpaced, returned, delivered, hlinked, hdata⟩ hguard hstep
    refine ⟨next_paced hpaced hstep, ?_⟩
    rcases next_cases hstep with ⟨_, hcopy⟩ | ⟨_, hwriting⟩
    · exact ⟨_, _, hlinked.copyStep hguard.left hcopy,
        hlinked.dataCopyStep hsrc hguard hdata hcopy⟩
    · exact ⟨_, _, hlinked.writingStep hwriting,
        hdata.writingStep hguard hlinked.control hwriting⟩
  · intro x a x' hx _ hstep
    exact next_lowers hsrc hx.left hstep
  · rintro x ⟨_, returned, delivered, hlinked, hdata⟩ hlast
    have hcopyNone : x.copy src Io.success = none :=
      Option.eq_none_iff_forall_ne_some.mpr fun x' =>
        hlast (.reading, Io.success) x' Io.success_succeeds
    have hwritingNone : x.writingFunction Io.success = none :=
      Option.eq_none_iff_forall_ne_some.mpr fun x' =>
        hlast (.writing, Io.success) x' Io.success_succeeds
    rcases stuck_cases hlinked hcopyNone hwritingNone with ⟨hcopy, hleft | hasleep⟩
    · exact ⟨⟨hcopy, Or.inl hleft⟩, hdata.written_all hlinked hleft⟩
    · have hdrained := hlinked.drained_of_asleep hcopy hasleep.left hasleep.right
      have hpending : pending x.queue.buffers x.writingPc.writePc = [] := by
        rw [hasleep.left]
        rfl
      exact ⟨⟨hcopy, Or.inr hasleep⟩,
        hdata.written_drained hlinked hcopy hdrained hpending⟩
  · exact ⟨new_paced src dst buffers, [], [], new_linked src dst buffers,
      new_data src dst buffers⟩

theorem ends_copied_readerFirst :
    exists s, exec (next [1, 2, 3]) readerFirst (new [1, 2, 3] "dst" fun _ => []) =
        some s ∧
      s.Stopped ∧ s.fileWriter.written = [1, 2, 3] := by
  have hview : (exec (next [1, 2, 3]) readerFirst (new [1, 2, 3] "dst" fun _ => [])).map
      (fun s => (s.copyPc, s.writingPc)) = some (.returned, .left) := by
    decide +kernel
  rcases Option.map_eq_some_iff.mp hview with ⟨s, hexec, hpcs⟩
  have hfinal : s.Final := Prod.mk.inj hpcs
  have hends := ends_copied [1, 2, 3] (by decide) "dst" fun _ => []
  exact ⟨s, hexec, hends.reached (reaches_of_exec readerFirst (by decide +kernel) hexec)
    fun a s' _ => hfinal.stuck a s'⟩

end BPCopyTool
end Common
end Ki
