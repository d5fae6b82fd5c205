import Ki.Common.BPCopyTool
import Ki.Queue.SynchronizedQueue
import Ki.Reader.MMapFileReader
import Ki.Writer.MMapFileWriter

/-!
# The parallel copy tool

Translation of `src/common/ParallelCopyTool.hpp` for chunks that are vectors of
bytes.  The calling thread runs `copy`, the thread `writingThread` runs
`writingFunction`.
-/

namespace Ki
namespace Common
namespace Parallel

open Foundation
open Queue
open SynchronizedQueue
open Reader
open Writer

/-- Program points of `copy`. -/
inductive CopyPc where
  | openReader
  | createWriter
  /-- inside `create`, before `ftruncate` -/
  | resizeWriter
  /-- inside `create`, before `mmap` -/
  | mapWriter
  | startWriter
  | testFinished
  | read
  /-- inside `read`, the chunk copied -/
  | storeFinished (buf : List UInt8)
  | push (buf : List UInt8)
  /-- inside `push`, holding the mutex -/
  | pushing (buf : List UInt8)
  /-- inside `push`, between releasing the mutex and `notify_one` -/
  | notifyOne
  | close
  /-- inside `close`, holding the mutex -/
  | closing
  | finishRead
  | returned
  /-- an exception has left `copy` -/
  | threw
deriving DecidableEq, Repr

/-- Program points of `writingFunction`. -/
inductive WritingPc where
  | notStarted
  | testFinished
  | testEmpty
  | pop (pc : PopPc)
  | write (buf : List UInt8)
  /-- out of the loop -/
  | finishWrite
  | left
  /-- an exception has left `writingFunction` -/
  | threw
deriving DecidableEq, Repr

structure ParallelCopyTool where
  fileReader : MMapFileReader
  fileWriter : MMapFileWriter
  queue : SynchronizedQueue Thread (List UInt8)
  copyPc : CopyPc
  writingPc : WritingPc
deriving DecidableEq, Repr

namespace ParallelCopyTool

/-- The tool for a source and the previous content of the destination. -/
def new (src : List UInt8) (previous : Option (List UInt8)) : ParallelCopyTool where
  fileReader := MMapFileReader.new src
  fileWriter := MMapFileWriter.new previous (MMapFileReader.new src).fileSize
  queue := SynchronizedQueue.new.open'
  copyPc := .openReader
  writingPc := .notStarted

/-- One step of `copy`; `none` while it cannot take the mutex and after it has ended. -/
def copy (src : List UInt8) (defaultBufferSize : Nat) (fails : Bool)
    (s : ParallelCopyTool) : Option ParallelCopyTool :=
  match s.copyPc with
  | .openReader =>
      if fails then some { s with copyPc := .threw }
      else
        match s.fileReader.open' src with
        | none => some { s with copyPc := .threw }
        | some reader => some { s with fileReader := reader, copyPc := .createWriter }
  | .createWriter =>
      if fails then some { s with copyPc := .threw }
      else some { s with fileWriter := s.fileWriter.openFile, copyPc := .resizeWriter }
  | .resizeWriter =>
      if fails then some { s with copyPc := .threw }
      else some { s with fileWriter := s.fileWriter.resize, copyPc := .mapWriter }
  | .mapWriter =>
      if fails then some { s with copyPc := .threw }
      else
        match s.fileWriter.mmap with
        | none => some { s with copyPc := .threw }
        | some writer => some { s with fileWriter := writer, copyPc := .startWriter }
  | .startWriter =>
      some { s with copyPc := .testFinished, writingPc := .testFinished }
  | .testFinished =>
      some { s with
        copyPc := if s.fileReader.readFinished then .close else .read }
  | .read =>
      if fails then some { s with copyPc := .threw }
      else
        s.fileReader.mmappedFile.map fun mapped =>
          { s with
            fileReader := s.fileReader.advance defaultBufferSize
            copyPc := .storeFinished (s.fileReader.chunk defaultBufferSize mapped) }
  | .storeFinished buf =>
      some { s with fileReader := s.fileReader.storeFinished, copyPc := .push buf }
  | .push buf =>
      (s.queue.lock .reading).map fun queue =>
        { s with queue := queue, copyPc := .pushing buf }
  | .pushing buf => some { s with queue := s.queue.push buf, copyPc := .notifyOne }
  | .notifyOne =>
      some { s with queue := s.queue.notifyOne .writing, copyPc := .testFinished }
  | .close =>
      (s.queue.lock .reading).map fun queue =>
        { s with queue := queue, copyPc := .closing }
  | .closing => some { s with queue := s.queue.close, copyPc := .finishRead }
  | .finishRead =>
      some { s with fileReader := s.fileReader.finishRead, copyPc := .returned }
  | .returned => none
  | .threw => none

def afterPop : PopResult (List UInt8) -> WritingPc
  | .wait => .pop .waiting
  | .nullopt => .finishWrite
  | .buffer buf => .write buf

/--
One step of `writingFunction`; `none` while it is asleep or cannot take the mutex, and
before and after it runs.
-/
def writingFunction (s : ParallelCopyTool) : Option ParallelCopyTool :=
  match s.writingPc with
  | .notStarted => none
  | .testFinished =>
      some { s with
        writingPc := if s.fileReader.readFinished then .testEmpty else .pop .lock }
  | .testEmpty =>
      s.queue.isEmpty.map fun empty =>
        { s with writingPc := if empty then .finishWrite else .pop .lock }
  | .pop pc =>
      (s.queue.pop .writing pc).map fun out =>
        { s with queue := out.2, writingPc := afterPop out.1 }
  | .write buf =>
      match (MMapFileWriter.write buf).run s.fileWriter with
      | .error _ writer => some { s with fileWriter := writer, writingPc := .threw }
      | .ok _ writer => some { s with fileWriter := writer, writingPc := .testFinished }
  | .finishWrite =>
      some { s with fileWriter := s.fileWriter.finishWrite, writingPc := .left }
  | .left => none
  | .threw => none

/-- A step of the tool: the thread that moves, and whether a call in it fails. -/
abbrev Action := Thread × Bool

def next (src : List UInt8) (defaultBufferSize : Nat) :
    Action -> ParallelCopyTool -> Option ParallelCopyTool
  | (.reading, fails), s => s.copy src defaultBufferSize fails
  | (.writing, _), s => s.writingFunction

/-- No system call fails in the step, nor the reservation in `read`. -/
def NoFailure (_ : ParallelCopyTool) (a : Action) : Prop :=
  a.2 = false

instance (s : ParallelCopyTool) (a : Action) : Decidable (NoFailure s a) :=
  inferInstanceAs (Decidable (_ = _))

/-- No system call fails in the step; the reservation in `read` may. -/
def NoSystemFailure (s : ParallelCopyTool) (a : Action) : Prop :=
  a.2 = true -> s.copyPc = .read

instance (s : ParallelCopyTool) (a : Action) : Decidable (NoSystemFailure s a) :=
  inferInstanceAs (Decidable (_ -> _))

/-- The steps of `copy` without failing calls. -/
inductive CopyStep (src : List UInt8) (defaultBufferSize : Nat)
    (s : ParallelCopyTool) : ParallelCopyTool -> Prop where
  | openReader {reader : MMapFileReader} (hpc : s.copyPc = .openReader)
      (hopen : s.fileReader.open' src = some reader) :
      CopyStep src defaultBufferSize s
        { s with fileReader := reader, copyPc := .createWriter }
  | openFails (hpc : s.copyPc = .openReader)
      (hopen : s.fileReader.open' src = none) :
      CopyStep src defaultBufferSize s { s with copyPc := .threw }
  | createWriter (hpc : s.copyPc = .createWriter) :
      CopyStep src defaultBufferSize s
        { s with fileWriter := s.fileWriter.openFile, copyPc := .resizeWriter }
  | resizeWriter (hpc : s.copyPc = .resizeWriter) :
      CopyStep src defaultBufferSize s
        { s with fileWriter := s.fileWriter.resize, copyPc := .mapWriter }
  | mapWriter {writer : MMapFileWriter} (hpc : s.copyPc = .mapWriter)
      (hmmap : s.fileWriter.mmap = some writer) :
      CopyStep src defaultBufferSize s
        { s with fileWriter := writer, copyPc := .startWriter }
  | mapFails (hpc : s.copyPc = .mapWriter) (hmmap : s.fileWriter.mmap = none) :
      CopyStep src defaultBufferSize s { s with copyPc := .threw }
  | startWriter (hpc : s.copyPc = .startWriter) :
      CopyStep src defaultBufferSize s
        { s with copyPc := .testFinished, writingPc := .testFinished }
  | finished (hpc : s.copyPc = .testFinished)
      (hfinished : s.fileReader.readFinished = true) :
      CopyStep src defaultBufferSize s { s with copyPc := .close }
  | unfinished (hpc : s.copyPc = .testFinished)
      (hunfinished : s.fileReader.readFinished = false) :
      CopyStep src defaultBufferSize s { s with copyPc := .read }
  | read {mapped : List UInt8} (hpc : s.copyPc = .read)
      (hmapped : s.fileReader.mmappedFile = some mapped) :
      CopyStep src defaultBufferSize s
        { s with
          fileReader := s.fileReader.advance defaultBufferSize
          copyPc := .storeFinished (s.fileReader.chunk defaultBufferSize mapped) }
  | storeFinished {buf : List UInt8} (hpc : s.copyPc = .storeFinished buf) :
      CopyStep src defaultBufferSize s
        { s with fileReader := s.fileReader.storeFinished, copyPc := .push buf }
  | lockPush {buf : List UInt8} (hpc : s.copyPc = .push buf) (hfree : s.queue.qm = none) :
      CopyStep src defaultBufferSize s
        { s with
          queue := { s.queue with qm := some .reading }
          copyPc := .pushing buf }
  | push {buf : List UInt8} (hpc : s.copyPc = .pushing buf) :
      CopyStep src defaultBufferSize s
        { s with queue := s.queue.push buf, copyPc := .notifyOne }
  | notifyOne (hpc : s.copyPc = .notifyOne) :
      CopyStep src defaultBufferSize s
        { s with queue := s.queue.notifyOne .writing, copyPc := .testFinished }
  | lockClose (hpc : s.copyPc = .close) (hfree : s.queue.qm = none) :
      CopyStep src defaultBufferSize s
        { s with queue := { s.queue with qm := some .reading }, copyPc := .closing }
  | close (hpc : s.copyPc = .closing) :
      CopyStep src defaultBufferSize s
        { s with queue := s.queue.close, copyPc := .finishRead }
  | finishRead (hpc : s.copyPc = .finishRead) :
      CopyStep src defaultBufferSize s
        { s with fileReader := s.fileReader.finishRead, copyPc := .returned }

theorem copy_cases {src : List UInt8} {defaultBufferSize : Nat}
    {s s' : ParallelCopyTool} (h : s.copy src defaultBufferSize false = some s') :
    CopyStep src defaultBufferSize s s' := by
  unfold copy at h
  cases hpc : s.copyPc with
  | openReader =>
      rw [hpc] at h
      cases hopen : s.fileReader.open' src with
      | none =>
          simp only [hopen] at h
          cases h
          exact CopyStep.openFails hpc hopen
      | some reader =>
          simp only [hopen] at h
          cases h
          exact CopyStep.openReader hpc hopen
  | createWriter =>
      rw [hpc] at h
      cases h
      exact CopyStep.createWriter hpc
  | resizeWriter =>
      rw [hpc] at h
      cases h
      exact CopyStep.resizeWriter hpc
  | mapWriter =>
      rw [hpc] at h
      cases hmmap : s.fileWriter.mmap with
      | none =>
          simp only [hmmap] at h
          cases h
          exact CopyStep.mapFails hpc hmmap
      | some writer =>
          simp only [hmmap] at h
          cases h
          exact CopyStep.mapWriter hpc hmmap
  | startWriter =>
      rw [hpc] at h
      cases h
      exact CopyStep.startWriter hpc
  | testFinished =>
      rw [hpc] at h
      cases hfinished : s.fileReader.readFinished with
      | true =>
          simp only [hfinished, if_true] at h
          cases h
          exact CopyStep.finished hpc hfinished
      | false =>
          simp only [hfinished] at h
          cases h
          exact CopyStep.unfinished hpc hfinished
  | read =>
      rw [hpc] at h
      rcases Option.map_eq_some_iff.mp h with ⟨mapped, hmapped, rfl⟩
      exact CopyStep.read hpc hmapped
  | storeFinished buf =>
      rw [hpc] at h
      cases h
      exact CopyStep.storeFinished hpc
  | push buf =>
      rw [hpc] at h
      rcases Option.map_eq_some_iff.mp h with ⟨queue, hlock, rfl⟩
      rcases lock_cases hlock with ⟨hfree, rfl⟩
      exact CopyStep.lockPush hpc hfree
  | pushing buf =>
      rw [hpc] at h
      cases h
      exact CopyStep.push hpc
  | notifyOne =>
      rw [hpc] at h
      cases h
      exact CopyStep.notifyOne hpc
  | close =>
      rw [hpc] at h
      rcases Option.map_eq_some_iff.mp h with ⟨queue, hlock, rfl⟩
      rcases lock_cases hlock with ⟨hfree, rfl⟩
      exact CopyStep.lockClose hpc hfree
  | closing =>
      rw [hpc] at h
      cases h
      exact CopyStep.close hpc
  | finishRead =>
      rw [hpc] at h
      cases h
      exact CopyStep.finishRead hpc
  | returned =>
      rw [hpc] at h
      cases h
  | threw =>
      rw [hpc] at h
      cases h

/-- The steps of `writingFunction`, guards included. -/
inductive WritingStep (s : ParallelCopyTool) : ParallelCopyTool -> Prop where
  | finished (hpc : s.writingPc = .testFinished)
      (hfinished : s.fileReader.readFinished = true) :
      WritingStep s { s with writingPc := .testEmpty }
  | unfinished (hpc : s.writingPc = .testFinished)
      (hunfinished : s.fileReader.readFinished = false) :
      WritingStep s { s with writingPc := .pop .lock }
  | empty (hpc : s.writingPc = .testEmpty) (hempty : s.queue.isEmpty = some true) :
      WritingStep s { s with writingPc := .finishWrite }
  | nonempty (hpc : s.writingPc = .testEmpty) (hnonempty : s.queue.isEmpty = some false) :
      WritingStep s { s with writingPc := .pop .lock }
  | pop {pc : PopPc} {r : PopResult (List UInt8)}
      {q : SynchronizedQueue Thread (List UInt8)} (hpc : s.writingPc = .pop pc)
      (hpop : s.queue.pop .writing pc = some (r, q)) :
      WritingStep s { s with queue := q, writingPc := afterPop r }
  | write {buf : List UInt8} {writer : MMapFileWriter}
      (hpc : s.writingPc = .write buf)
      (hwrite : (MMapFileWriter.write buf).run s.fileWriter = .ok () writer) :
      WritingStep s { s with fileWriter := writer, writingPc := .testFinished }
  | writeThrows {buf : List UInt8} {message : String} {writer : MMapFileWriter}
      (hpc : s.writingPc = .write buf)
      (hwrite : (MMapFileWriter.write buf).run s.fileWriter = .error message writer) :
      WritingStep s { s with fileWriter := writer, writingPc := .threw }
  | finishWrite (hpc : s.writingPc = .finishWrite) :
      WritingStep s
        { s with fileWriter := s.fileWriter.finishWrite, writingPc := .left }

theorem writingFunction_cases {s s' : ParallelCopyTool}
    (h : s.writingFunction = some s') : WritingStep s s' := by
  unfold writingFunction at h
  cases hpc : s.writingPc with
  | notStarted =>
      rw [hpc] at h
      cases h
  | testFinished =>
      rw [hpc] at h
      cases hfinished : s.fileReader.readFinished with
      | true =>
          simp only [hfinished, if_true] at h
          cases h
          exact WritingStep.finished hpc hfinished
      | false =>
          simp only [hfinished] at h
          cases h
          exact WritingStep.unfinished hpc hfinished
  | testEmpty =>
      rw [hpc] at h
      rcases Option.map_eq_some_iff.mp h with ⟨empty, hempty, rfl⟩
      cases empty with
      | true => exact WritingStep.empty hpc hempty
      | false => exact WritingStep.nonempty hpc hempty
  | pop pc =>
      rw [hpc] at h
      rcases Option.map_eq_some_iff.mp h with ⟨⟨r, q⟩, hpop, rfl⟩
      exact WritingStep.pop hpc hpop
  | write buf =>
      rw [hpc] at h
      cases hwrite : (MMapFileWriter.write buf).run s.fileWriter with
      | error message writer =>
          simp only [hwrite] at h
          cases h
          exact WritingStep.writeThrows hpc hwrite
      | ok _ writer =>
          simp only [hwrite] at h
          cases h
          exact WritingStep.write hpc hwrite
  | finishWrite =>
      rw [hpc] at h
      cases h
      exact WritingStep.finishWrite hpc
  | left =>
      rw [hpc] at h
      cases h
  | threw =>
      rw [hpc] at h
      cases h

/-- A step of the tool without a failing call is a step of one of its threads. -/
theorem next_cases {src : List UInt8} {defaultBufferSize : Nat} {a : Action}
    {s s' : ParallelCopyTool} (hok : NoFailure s a)
    (h : next src defaultBufferSize a s = some s') :
    a.1 = .reading ∧ CopyStep src defaultBufferSize s s' ∨
      a.1 = .writing ∧ WritingStep s s' := by
  rcases a with ⟨thread, fails⟩
  cases thread with
  | reading =>
      change fails = false at hok
      rw [hok] at h
      exact Or.inl ⟨rfl, copy_cases h⟩
  | writing =>
      exact Or.inr ⟨rfl, writingFunction_cases h⟩

end ParallelCopyTool
end Parallel
end Common
end Ki
