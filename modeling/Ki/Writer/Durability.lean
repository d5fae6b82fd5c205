import Ki.Foundation.Runs
import Ki.Writer.BufferedFileWriter

/-!
# What is on the disk after finishWrite

A thread calls `write` again and again after `create`, with other threads at
work on the queue all the time, and then `finishWrite`.
-/

namespace Ki
namespace Writer

open Foundation
open Queue
open Clients
open Stdio

namespace BufferedFileWriter

/-- Sync and close the file, if it is open; what is left is the closed file. -/
def finishWrite (writer : BufferedFileWriter) : BufferedFileWriter × Option OutFILE :=
  match writer.fileDesc with
  | none => (writer, none)
  | some file => ({ writer with fileDesc := none }, some file.fsync.fclose)

/-- A thread that repeats `write`, and the bytes it has passed to `fwrite`. -/
structure WriteLoop where
  writer : BufferedFileWriter
  pc : Option WritePc
  bytes : List UInt8
deriving DecidableEq, Repr

namespace WriteLoop

/-- The writer has just created its file. -/
def created (fileName : String) : WriteLoop where
  writer := (BufferedFileWriter.new fileName).create
  pc := none
  bytes := []

variable {ι : Type} [DecidableEq ι]

/-- The outcome of the stdio calls of a step, and the queue as the step finds it. -/
abbrev Action (ι : Type) := Io × FixedBufferQueue ι

/-- One step of thread `me`, which calls `write` again when it has returned. -/
def next (me : ι) (a : Action ι) (s : WriteLoop) : Option WriteLoop :=
  match s.pc with
  | none => some { s with pc := some (.getFilledBuffer .lock) }
  | some pc =>
      (s.writer.writeStep me a.1 a.2 pc).map fun out =>
        { writer := out.2.1
          pc := out.1.pc
          bytes := s.bytes ++ pc.pending a.2.buffers }

/-- The stdio calls of the step succeed. -/
def Succeeds (_ : WriteLoop) (a : Action ι) : Prop :=
  a.1.Succeeds

instance (s : WriteLoop) (a : Action ι) : Decidable (Succeeds s a) :=
  inferInstanceAs (Decidable a.1.Succeeds)

/-- The stream has taken all the bytes passed to `fwrite`. -/
def Taken (s : WriteLoop) : Prop :=
  exists file, s.writer.fileDesc = some file ∧ file.written = s.bytes

theorem Taken.next {me : ι} {a : Action ι} {s s' : WriteLoop} (h : Taken s)
    (hio : a.1.Succeeds) (hstep : next me a s = some s') : Taken s' := by
  rcases h with ⟨file, hopen, hwritten⟩
  unfold WriteLoop.next at hstep
  cases hpc : s.pc with
  | none =>
      rw [hpc] at hstep
      cases hstep
      exact ⟨file, hopen, hwritten⟩
  | some pc =>
      rw [hpc] at hstep
      rcases Option.map_eq_some_iff.mp hstep with ⟨⟨r, writer, q⟩, hwrite, rfl⟩
      cases writeStep_cases hwrite with
      | @fwrite buf file' hopen' =>
          cases hopen.symm.trans hopen'
          refine ⟨_, rfl, ?_⟩
          rw [file.fwrite_written _ hio, hwritten]
          rfl
      | _ => exact ⟨file, hopen, by simpa [WritePc.pending] using hwritten⟩

/--
After `finishWrite` the disk holds all the bytes written, in order, if and only
if the last calls of `fwrite` had left nothing in the stdio buffer.
-/
theorem durable_iff_flushed (fileName : String) (me : ι) (s : WriteLoop)
    (hrun : Reaches (StepOf (WriteLoop.next me)) Succeeds (created fileName) s) :
    exists file closed, s.writer.fileDesc = some file ∧
      s.writer.finishWrite = ({ s.writer with fileDesc := none }, some closed) ∧
      (closed.disk = s.bytes <-> file.buffer = []) := by
  have htaken : Taken s := Reaches.invariant Taken
    (fun _ _ _ h hguard hstep => h.next hguard hstep) hrun ⟨OutFILE.fopen, rfl, rfl⟩
  rcases htaken with ⟨file, hopen, hwritten⟩
  refine ⟨file, file.fsync.fclose, hopen, ?_, ?_⟩
  · rw [finishWrite, hopen]
  · rw [← hwritten]
    exact file.fclose_fsync_disk_iff

/-- One call up to its `fwrite` of one byte, which may leave `kept` bytes in the stdio buffer. -/
def oneByte (kept : Nat) : List (Action Unit) :=
  List.replicate 4 ({ Io.success with kept := kept },
    { FixedBufferQueue.new (fun _ => List.replicate bufferSize 5) with
      writeBuffers := [{ data := 0, bytesUsed := 1, bufferType := .write }] })

theorem durable_iff_flushed_oneByte :
    exists s file closed, exec (WriteLoop.next ()) (oneByte 0) (created "dst") = some s ∧
      s.writer.fileDesc = some file ∧ s.writer.finishWrite.2 = some closed ∧
      (closed.disk = s.bytes <-> file.buffer = []) := by
  have hview : (exec (WriteLoop.next ()) (oneByte 0) (created "dst")).map
      (fun s => s.bytes) = some [5] := by
    decide +kernel
  rcases Option.map_eq_some_iff.mp hview with ⟨s, hexec, _⟩
  rcases durable_iff_flushed "dst" () s
    (reaches_of_exec (oneByte 0) (by decide +kernel) hexec) with
    ⟨file, closed, hopen, hfinish, hiff⟩
  exact ⟨s, file, closed, hexec, hopen, by rw [hfinish], hiff⟩

/-- The byte is still in the stdio buffer when the file is synced. -/
theorem closed_after_sync :
    ¬ forall (fileName : String) (s : WriteLoop) (closed : OutFILE),
      Reaches (StepOf (WriteLoop.next ())) Succeeds (created fileName) s ->
      s.writer.finishWrite.2 = some closed -> closed.disk = s.bytes := by
  intro h
  have hview : (exec (WriteLoop.next ()) (oneByte 1) (created "dst")).map
      (fun s => (s.writer.finishWrite.2, s.bytes)) =
      some (some { buffer := [], cache := [5], disk := [] }, [5]) := by
    decide +kernel
  rcases Option.map_eq_some_iff.mp hview with ⟨s, hexec, hpair⟩
  rw [Prod.mk.injEq] at hpair
  have hdisk := h "dst" s _ (reaches_of_exec (oneByte 1) (by decide +kernel) hexec) hpair.left
  rw [hpair.right] at hdisk
  cases hdisk

end WriteLoop
end BufferedFileWriter
end Writer
end Ki
