import Ki.Reader.Chunks
import Ki.Writer.BufferedFileWriter

/-!
# The buffered parallel copy tool

Translation of `src/common/BufferedParallelCopyTool.hpp`.  The calling thread
runs `copy`, the thread `writingThread` runs `writingFunction`; a step of the
tool is a step of one of them.
-/

namespace Ki
namespace Common

open Foundation
open Queue
open Clients
open Reader
open BufferedReader
open Writer
open BufferedFileWriter
open Stdio

inductive Thread where
  /-- the thread that calls `copy` -/
  | reading
  /-- `writingThread` -/
  | writing
deriving DecidableEq, Repr

/-- Program points of `copy`. -/
inductive CopyPc where
  | openQueue
  | openReader
  | createWriter
  | startWriter
  | testFinished
  | read (pc : ReadPc)
  | close
  | returned
  /-- an exception has left `copy`, with the buffers in hand lost -/
  | threw (held : List Buffer)
deriving DecidableEq, Repr

/-- Program points of `writingFunction`. -/
inductive WritingPc where
  | notStarted
  | testFinished
  | testEmpty
  | write (pc : WritePc)
  | left
deriving DecidableEq, Repr

structure BPCopyTool where
  fileReader : BufferedReader
  fileWriter : BufferedFileWriter
  queue : FixedBufferQueue Thread
  copyPc : CopyPc
  writingPc : WritingPc

namespace BPCopyTool

/-- The tool as the factory builds it for a source and a destination. -/
def new (src : List UInt8) (dst : String) (buffers : Nat -> List UInt8) :
    BPCopyTool where
  fileReader := BufferedReader.new src
  fileWriter := BufferedFileWriter.new dst
  queue := FixedBufferQueue.new buffers
  copyPc := .openQueue
  writingPc := .notStarted

def afterRead : ReadResult -> CopyPc
  | .next pc => .read pc
  | .done => .testFinished
  | .threw held => .threw held

def afterWrite : WriteResult -> WritingPc
  | .next pc => .write pc
  | .done => .testFinished

/-- One step of `copy`; `none` while it is blocked and after it has ended. -/
def copy (src : List UInt8) (io : Io) (s : BPCopyTool) : Option BPCopyTool :=
  match s.copyPc with
  | .openQueue =>
      some { s with queue := s.queue.open', copyPc := .openReader }
  | .openReader =>
      if io.fails then some { s with copyPc := .threw [] }
      else some { s with
        fileReader := s.fileReader.open' src
        copyPc := .createWriter }
  | .createWriter =>
      if io.fails then some { s with copyPc := .threw [] }
      else some { s with
        fileWriter := s.fileWriter.create
        copyPc := .startWriter }
  | .startWriter =>
      some { s with copyPc := .testFinished, writingPc := .testFinished }
  | .testFinished =>
      some { s with
        copyPc :=
          if s.fileReader.readFinished then .close
          else .read (.getFreeBuffer .lock) }
  | .read pc =>
      (s.fileReader.readStep .reading io s.queue pc).map fun out =>
        { s with
          fileReader := out.2.1
          queue := out.2.2
          copyPc := afterRead out.1 }
  | .close => some { s with queue := s.queue.close, copyPc := .returned }
  | .returned => none
  | .threw _ => none

/-- One step of `writingFunction`; `none` while it is blocked, and before and after it runs. -/
def writingFunction (io : Io) (s : BPCopyTool) : Option BPCopyTool :=
  match s.writingPc with
  | .notStarted => none
  | .testFinished =>
      some { s with
        writingPc :=
          if s.fileReader.readFinished then .testEmpty
          else .write (.getFilledBuffer .lock) }
  | .testEmpty =>
      s.queue.isEmpty.map fun isEmpty =>
        { s with
          writingPc :=
            if isEmpty then .left else .write (.getFilledBuffer .lock) }
  | .write pc =>
      (s.fileWriter.writeStep .writing io s.queue pc).map fun out =>
        { s with
          fileWriter := out.2.1
          queue := out.2.2
          writingPc := afterWrite out.1 }
  | .left => none

/-- A step of the tool: the thread that moves and the outcome of its stdio calls. -/
abbrev Action := Thread × Io

def next (src : List UInt8) : Action -> BPCopyTool -> Option BPCopyTool
  | (.reading, io), s => s.copy src io
  | (.writing, io), s => s.writingFunction io

/-- The steps of `copy`, guards included. -/
inductive CopyStep (src : List UInt8) (io : Io) (s : BPCopyTool) :
    BPCopyTool -> Prop where
  | openQueue (hpc : s.copyPc = .openQueue) :
      CopyStep src io s { s with queue := s.queue.open', copyPc := .openReader }
  | openFails (hpc : s.copyPc = .openReader ∨ s.copyPc = .createWriter)
      (hfails : io.fails = true) :
      CopyStep src io s { s with copyPc := .threw [] }
  | openReader (hpc : s.copyPc = .openReader) :
      CopyStep src io s
        { s with fileReader := s.fileReader.open' src, copyPc := .createWriter }
  | createWriter (hpc : s.copyPc = .createWriter) :
      CopyStep src io s
        { s with fileWriter := s.fileWriter.create, copyPc := .startWriter }
  | startWriter (hpc : s.copyPc = .startWriter) :
      CopyStep src io s
        { s with copyPc := .testFinished, writingPc := .testFinished }
  | finished (hpc : s.copyPc = .testFinished)
      (hfinished : s.fileReader.readFinished = true) :
      CopyStep src io s { s with copyPc := .close }
  | unfinished (hpc : s.copyPc = .testFinished)
      (hunfinished : s.fileReader.readFinished = false) :
      CopyStep src io s { s with copyPc := .read (.getFreeBuffer .lock) }
  | read {pc : ReadPc} {r : ReadResult} {reader : BufferedReader}
      {q : FixedBufferQueue Thread} (hpc : s.copyPc = .read pc)
      (hread : s.fileReader.readStep .reading io s.queue pc =
        some (r, reader, q)) :
      CopyStep src io s
        { s with fileReader := reader, queue := q, copyPc := afterRead r }
  | close (hpc : s.copyPc = .close) :
      CopyStep src io s { s with queue := s.queue.close, copyPc := .returned }

theorem copy_cases {src : List UInt8} {io : Io} {s s' : BPCopyTool}
    (h : s.copy src io = some s') : CopyStep src io s s' := by
  unfold copy at h
  cases hpc : s.copyPc with
  | openQueue =>
      rw [hpc] at h
      cases h
      exact CopyStep.openQueue hpc
  | openReader =>
      rw [hpc] at h
      cases hfails : io.fails with
      | true =>
          simp only [hfails, if_true] at h
          cases h
          exact CopyStep.openFails (Or.inl hpc) hfails
      | false =>
          simp only [hfails] at h
          cases h
          exact CopyStep.openReader hpc
  | createWriter =>
      rw [hpc] at h
      cases hfails : io.fails with
      | true =>
          simp only [hfails, if_true] at h
          cases h
          exact CopyStep.openFails (Or.inr hpc) hfails
      | false =>
          simp only [hfails] at h
          cases h
          exact CopyStep.createWriter hpc
  | startWriter =>
      rw [hpc] at h
      cases h
      exact CopyStep.startWriter hpc
  | testFinished =>
      rw [hpc] at h
      cases hfinished : s.fileReader.readFinished with
      | true =>
          simp only [hfinished, if_true] at h
          cases h
          exact CopyStep.finished hpc hfinished
      | false =>
          simp only [hfinished] at h
          cases h
          exact CopyStep.unfinished hpc hfinished
  | read pc =>
      rw [hpc] at h
      rcases Option.map_eq_some_iff.mp h with ⟨⟨r, reader, q⟩, hread, rfl⟩
      exact CopyStep.read hpc hread
  | close =>
      rw [hpc] at h
      cases h
      exact CopyStep.close hpc
  | returned =>
      rw [hpc] at h
      cases h
  | threw held =>
      rw [hpc] at h
      cases h

/-- The steps of `writingFunction`, guards included. -/
inductive WritingStep (io : Io) (s : BPCopyTool) : BPCopyTool -> Prop where
  | finished (hpc : s.writingPc = .testFinished)
      (hfinished : s.fileReader.readFinished = true) :
      WritingStep io s { s with writingPc := .testEmpty }
  | unfinished (hpc : s.writingPc = .testFinished)
      (hunfinished : s.fileReader.readFinished = false) :
      WritingStep io s { s with writingPc := .write (.getFilledBuffer .lock) }
  | empty (hpc : s.writingPc = .testEmpty) (hfree : s.queue.queueMutex = none)
      (hempty : s.queue.writeBuffers = []) (hclosed : s.queue.isOpen = false) :
      WritingStep io s { s with writingPc := .left }
  | nonempty (hpc : s.writingPc = .testEmpty) :
      WritingStep io s { s with writingPc := .write (.getFilledBuffer .lock) }
  | write {pc : WritePc} {r : WriteResult} {writer : BufferedFileWriter}
      {q : FixedBufferQueue Thread} (hpc : s.writingPc = .write pc)
      (hwrite : s.fileWriter.writeStep .writing io s.queue pc =
        some (r, writer, q)) :
      WritingStep io s
        { s with fileWriter := writer, queue := q, writingPc := afterWrite r }

theorem writingFunction_cases {io : Io} {s s' : BPCopyTool}
    (h : s.writingFunction io = some s') : WritingStep io s s' := by
  unfold writingFunction at h
  cases hpc : s.writingPc with
  | notStarted =>
      rw [hpc] at h
      cases h
  | testFinished =>
      rw [hpc] at h
      cases hfinished : s.fileReader.readFinished with
      | true =>
          simp only [hfinished, if_true] at h
          cases h
          exact WritingStep.finished hpc hfinished
      | false =>
          simp only [hfinished] at h
          cases h
          exact WritingStep.unfinished hpc hfinished
  | testEmpty =>
      rw [hpc] at h
      rcases Option.map_eq_some_iff.mp h with ⟨isEmpty, hisEmpty, rfl⟩
      cases isEmpty with
      | true =>
          rcases FixedBufferQueue.isEmpty_cases hisEmpty with ⟨hfree, hboth⟩
          exact WritingStep.empty hpc hfree (hboth.mp rfl).left (hboth.mp rfl).right
      | false =>
          exact WritingStep.nonempty hpc
  | write pc =>
      rw [hpc] at h
      rcases Option.map_eq_some_iff.mp h with ⟨⟨r, writer, q⟩, hwrite, rfl⟩
      exact WritingStep.write hpc hwrite
  | left =>
      rw [hpc] at h
      cases h

/-- A step of the tool is a step of one of its threads. -/
theorem next_cases {src : List UInt8} {a : Action} {s s' : BPCopyTool}
    (h : next src a s = some s') :
    a.1 = .reading ∧ CopyStep src a.2 s s' ∨
      a.1 = .writing ∧ WritingStep a.2 s s' := by
  rcases a with ⟨thread, io⟩
  cases thread with
  | reading =>
      exact Or.inl ⟨rfl, copy_cases h⟩
  | writing =>
      exact Or.inr ⟨rfl, writingFunction_cases h⟩

end BPCopyTool
end Common
end Ki
