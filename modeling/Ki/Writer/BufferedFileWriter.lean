import Ki.Queue.EmptyPop
import Ki.Stdio.Streams

/-!
# The buffered writer

Translation of `src/writer/BufferedFileWriter.hpp`.  `write` is given as a
function of the writing thread's program point, in the same way as `read` of the
buffered reader.
-/

namespace Ki
namespace Writer

open Foundation
open Queue
open FixedBufferQueue
open Clients
open Stdio

structure BufferedFileWriter where
  fileName : String
  fileDesc : Option OutFILE
deriving DecidableEq, Repr

namespace BufferedFileWriter

def new (fileName : String) : BufferedFileWriter where
  fileName := fileName
  fileDesc := none

/-- `create` when the file can be created. -/
def create (writer : BufferedFileWriter) : BufferedFileWriter :=
  { writer with fileDesc := some OutFILE.fopen }

/-- The bytes passed to `fwrite` so far. -/
def written (writer : BufferedFileWriter) : List UInt8 :=
  writer.fileDesc.elim [] OutFILE.written

/-- The writer after `fwrite` of some bytes to its open stream. -/
def afterFwrite (writer : BufferedFileWriter) (file : OutFILE)
    (bytes : List UInt8) (io : Io) : BufferedFileWriter :=
  { writer with fileDesc := some (file.fwrite bytes io) }

/-- Program points of a thread inside `write`. -/
inductive WritePc where
  | getFilledBuffer (pc : GetPc)
  | fwrite (buf : Buffer)
  | returnBuffer (buf : Buffer)
  | notifyAll
  /-- stopped: an empty deque was popped -/
  | popEmpty
deriving DecidableEq, Repr

inductive WriteResult where
  | next (pc : WritePc)
  | done
deriving DecidableEq, Repr

/-- `write` returns at once when it gets no buffer. -/
def afterGetFilledBuffer : GetResult -> WriteResult
  | .next pc => .next (.getFilledBuffer pc)
  | .nullopt => .done
  | .buffer buf => .next (.fwrite buf)
  | .popEmpty => .next .popEmpty

section Step

variable {ι : Type} [DecidableEq ι]

/-- One step of thread `me` inside `write`; `none` while it is blocked. -/
def writeStep (me : ι) (io : Io) (writer : BufferedFileWriter)
    (q : FixedBufferQueue ι) :
    WritePc -> Option (WriteResult × BufferedFileWriter × FixedBufferQueue ι)
  | .getFilledBuffer pc =>
      (q.getFilledBuffer me pc).map fun got =>
        (afterGetFilledBuffer got.1, writer, got.2)
  | .fwrite buf =>
      writer.fileDesc.map fun file =>
        (.next (.returnBuffer buf),
          writer.afterFwrite file ((q.buffers buf.data).take buf.bytesUsed) io, q)
  | .returnBuffer buf =>
      (q.returnBuffer buf).map fun q' => (.next .notifyAll, writer, q')
  | .notifyAll => some (.done, writer, q.notifyAll)
  | .popEmpty => none

/-- The cases of `writeStep`, guards included. -/
inductive WriteStep (me : ι) (io : Io) (writer : BufferedFileWriter)
    (q : FixedBufferQueue ι) :
    WritePc -> WriteResult -> BufferedFileWriter -> FixedBufferQueue ι -> Prop where
  | getFilledBuffer {pc : GetPc} {r : GetResult} {q' : FixedBufferQueue ι}
      (hget : q.getStep .write me pc = some (r, q')) :
      WriteStep me io writer q (.getFilledBuffer pc) (afterGetFilledBuffer r)
        writer q'
  | fwrite {buf : Buffer} {file : OutFILE} (hopen : writer.fileDesc = some file) :
      WriteStep me io writer q (.fwrite buf) (.next (.returnBuffer buf))
        (writer.afterFwrite file ((q.buffers buf.data).take buf.bytesUsed) io) q
  | returnBuffer {buf : Buffer} {q' : FixedBufferQueue ι}
      (hreturn : q.returnBuffer buf = some q') :
      WriteStep me io writer q (.returnBuffer buf) (.next .notifyAll) writer q'
  | notifyAll : WriteStep me io writer q .notifyAll .done writer q.notifyAll

theorem writeStep_cases {me : ι} {io : Io} {writer writer' : BufferedFileWriter}
    {q q' : FixedBufferQueue ι} {pc : WritePc} {r : WriteResult}
    (h : writer.writeStep me io q pc = some (r, writer', q')) :
    WriteStep me io writer q pc r writer' q' := by
  cases pc with
  | getFilledBuffer pc =>
      rcases Option.map_eq_some_iff.mp h with ⟨⟨got, q''⟩, hget, heq⟩
      cases heq
      exact WriteStep.getFilledBuffer hget
  | fwrite buf =>
      rcases Option.map_eq_some_iff.mp h with ⟨file, hopen, heq⟩
      cases heq
      exact WriteStep.fwrite hopen
  | returnBuffer buf =>
      rcases Option.map_eq_some_iff.mp h with ⟨q'', hreturn, heq⟩
      cases heq
      exact WriteStep.returnBuffer hreturn
  | notifyAll =>
      cases h
      exact WriteStep.notifyAll
  | popEmpty => cases h

end Step

/-!
# The writing thread as a client of the queue
-/

def WritePc.client : WritePc -> Client
  | .getFilledBuffer pc => { call := .get .write pc, held := [] }
  | .fwrite buf => { call := .idle, held := [buf] }
  | .returnBuffer buf => { call := .idle, held := [buf] }
  | .notifyAll => { call := .notify, held := [] }
  | .popEmpty => { call := .popEmpty, held := [] }

def WriteResult.client : WriteResult -> Client
  | .next pc => pc.client
  | .done => { call := .idle, held := [] }

/-- What a step of `write` with this result adds to the history of the consumers. -/
def WriteResult.delivered {ι : Type} (q : FixedBufferQueue ι) :
    WriteResult -> List Payload
  | .next (.fwrite buf) => [q.payload buf]
  | _ => []

/-- The buffer in the writer's hands was taken for writing. -/
def WritePc.Typed (pc : WritePc) : Prop :=
  forall buf, buf ∈ pc.client.held -> buf.bufferType = .write

/-- Program point after a step of `write`; `none` outside of it. -/
def WriteResult.pc : WriteResult -> Option WritePc
  | .next pc => some pc
  | .done => none

/-- The file is created, and so the thread can go on inside `write`. -/
structure Ready (writer : BufferedFileWriter) (pc : Option WritePc) : Prop where
  isOpen : writer.fileDesc ≠ none
  typed : forall p, pc = some p -> p.Typed

theorem Ready.outside {writer : BufferedFileWriter} (h : writer.fileDesc ≠ none) :
    Ready writer none where
  isOpen := h
  typed := by
    intro p hp
    cases hp

/-- A thread that enters `write`. -/
theorem Ready.enter {writer : BufferedFileWriter} {pc : Option WritePc}
    (h : Ready writer pc) : Ready writer (some (.getFilledBuffer .lock)) where
  isOpen := h.isOpen
  typed := by
    intro p hp b hb
    cases hp
    cases hb

theorem writeStep_typed {ι : Type} [DecidableEq ι] {me : ι} {io : Io}
    {writer writer' : BufferedFileWriter} {q q' : FixedBufferQueue ι}
    {pc pc' : WritePc} (h : pc.Typed)
    (hstep : writer.writeStep me io q pc = some (.next pc', writer', q')) :
    pc'.Typed := by
  generalize hr : WriteResult.next pc' = r at hstep
  cases writeStep_cases hstep with
  | @getFilledBuffer gpc got _ hget =>
      intro b hb
      cases getStep_cases hget with
      | take hpop =>
          cases hr
          rcases List.mem_singleton.mp hb with rfl
          rfl
      | nullopt hempty hclosed => cases hr
      | _ =>
          cases hr
          cases hb
  | fwrite hopen =>
      cases hr
      exact h
  | returnBuffer hreturn =>
      cases hr
      intro b hb
      cases hb
  | notifyAll => cases hr

theorem Ready.writeStep {ι : Type} [DecidableEq ι] {me : ι} {io : Io}
    {writer writer' : BufferedFileWriter} {q q' : FixedBufferQueue ι}
    {pc : WritePc} {r : WriteResult} (h : Ready writer (some pc))
    (hstep : writer.writeStep me io q pc = some (r, writer', q')) :
    Ready writer' r.pc := by
  constructor
  · cases writeStep_cases hstep with
    | fwrite hopen => simp [afterFwrite]
    | _ => exact h.isOpen
  · intro p hp
    cases r with
    | next pc' =>
        cases hp
        exact writeStep_typed (h.typed pc rfl) hstep
    | done => cases hp

theorem writeStep_isOpen {ι : Type} [DecidableEq ι] {me : ι} {io : Io}
    {writer writer' : BufferedFileWriter} {q q' : FixedBufferQueue ι}
    {pc : WritePc} {r : WriteResult}
    (hstep : writer.writeStep me io q pc = some (r, writer', q')) :
    q'.isOpen = q.isOpen := by
  cases writeStep_cases hstep with
  | getFilledBuffer hget => exact getStep_isOpen hget
  | returnBuffer hreturn =>
      rcases returnBuffer_cases hreturn with ⟨_, rfl⟩
      simp
  | _ => rfl

theorem writeStep_isReadFinished {ι : Type} [DecidableEq ι] {me : ι} {io : Io}
    {writer writer' : BufferedFileWriter} {q q' : FixedBufferQueue ι}
    {pc : WritePc} {r : WriteResult}
    (hstep : writer.writeStep me io q pc = some (r, writer', q')) :
    q'.isReadFinished_ = q.isReadFinished_ := by
  cases writeStep_cases hstep with
  | getFilledBuffer hget => exact getStep_isReadFinished hget
  | returnBuffer hreturn =>
      rcases returnBuffer_cases hreturn with ⟨_, rfl⟩
      simp
  | _ => rfl

/-- `write` never puts a buffer into the deque it takes from. -/
theorem writeStep_writeBuffers {ι : Type} [DecidableEq ι] {me : ι} {io : Io}
    {writer writer' : BufferedFileWriter} {q q' : FixedBufferQueue ι}
    {pc : WritePc} {r : WriteResult} (htyped : pc.Typed)
    (hstep : writer.writeStep me io q pc = some (r, writer', q'))
    (hempty : q.writeBuffers = []) : q'.writeBuffers = [] := by
  cases writeStep_cases hstep with
  | getFilledBuffer hget =>
      cases getStep_cases hget with
      | take hpop =>
          rw [dequeOf, hempty] at hpop
          cases hpop
      | _ => exact hempty
  | @returnBuffer buf _ hreturn =>
      have htype : buf.bufferType = .write := htyped buf (by simp [WritePc.client])
      rcases returnBuffer_cases hreturn with ⟨_, rfl⟩
      rw [htype]
      exact hempty
  | _ => exact hempty

theorem writeStep_buffers {ι : Type} [DecidableEq ι] {me : ι} {io : Io}
    {writer writer' : BufferedFileWriter} {q q' : FixedBufferQueue ι}
    {pc : WritePc} {r : WriteResult}
    (hstep : writer.writeStep me io q pc = some (r, writer', q')) :
    q'.buffers = q.buffers := by
  cases writeStep_cases hstep with
  | getFilledBuffer hget => exact getStep_buffers hget
  | returnBuffer hreturn =>
      rcases returnBuffer_cases hreturn with ⟨_, rfl⟩
      simp
  | _ => rfl

/-- Why a thread inside `write` cannot go on. -/
theorem writeStep_eq_none {ι : Type} [DecidableEq ι] {me : ι} {io : Io}
    {writer : BufferedFileWriter} {q : FixedBufferQueue ι} {pc : WritePc}
    (hready : Ready writer (some pc)) (h : writer.writeStep me io q pc = none) :
    q.queueMutex ≠ none ∧ ¬ pc.client.call.holdsMutex ∨
      pc = .popEmpty ∨ pc = .getFilledBuffer .blocked ∧ me ∈ q.cv := by
  cases pc with
  | getFilledBuffer pc =>
      rcases getStep_eq_none (Option.map_eq_none_iff.mp h) with hmutex | hasleep
      · left
        rcases hmutex with ⟨htaken, hwait, hrecheck⟩
        refine ⟨htaken, ?_⟩
        cases pc <;> simp_all [WritePc.client, Call.holdsMutex]
      · right
        right
        rcases hasleep with ⟨rfl, hmem⟩
        exact ⟨rfl, hmem⟩
  | fwrite buf =>
      exact absurd (Option.map_eq_none_iff.mp h) hready.isOpen
  | returnBuffer buf =>
      left
      constructor
      · intro hfree
        simp [BufferedFileWriter.writeStep, FixedBufferQueue.returnBuffer,
          hfree] at h
      · simp [WritePc.client, Call.holdsMutex]
  | notifyAll => cases h
  | popEmpty =>
      right
      left
      rfl

/-- A step of `write` is a step of the queue's client `me`, or leaves the queue's clients alone. -/
theorem writeStep_refines {ι : Type} [DecidableEq ι] {s : Clients ι} {me : ι}
    {io : Io} {writer writer' : BufferedFileWriter} {q : FixedBufferQueue ι}
    {pc : WritePc} {r : WriteResult} (hclient : s.client me = pc.client)
    (htyped : pc.Typed)
    (hstep : writer.writeStep me io s.queue pc = some (r, writer', q)) :
    Reaches Step OpenOutsideTests s
      (s.advance me q r.client [] (r.delivered s.queue)) := by
  cases writeStep_cases hstep with
  | @getFilledBuffer gpc got _ hget =>
      have hcall : (s.client me).call = .get .write gpc := by
        rw [hclient]
        rfl
      have hheld : (s.client me).held = [] := by
        rw [hclient]
        rfl
      have hbuffers : q.buffers = s.queue.buffers := getStep_buffers hget
      have hadvance : s.advance me q (afterGetFilledBuffer got).client []
          ((afterGetFilledBuffer got).delivered s.queue) =
          s.advance me q (Client.afterGet (s.client me).held .write got) []
            (deliveredBy q .write got) := by
        rw [hheld]
        cases got with
        | buffer b =>
            simp [afterGetFilledBuffer, WriteResult.client, WritePc.client,
              Client.afterGet, WriteResult.delivered, deliveredBy,
              payload_congr hbuffers]
        | _ => rfl
      rw [hadvance]
      exact Reaches.single (OpenOutsideTests.thread _ me)
        (Step.get hcall hget)
  | @fwrite buf file hopen =>
      have hend : s.advance me s.queue
          (WriteResult.next (.returnBuffer buf)).client []
          ((WriteResult.next (.returnBuffer buf)).delivered s.queue) = s := by
        change s.advance me s.queue (WritePc.fwrite buf).client [] [] = s
        rw [← hclient, advance_self]
      rw [hend]
  | @returnBuffer buf _ hreturn =>
      have hidle : (s.client me).call = .idle := by
        rw [hclient]
        rfl
      have hheld : (s.client me).held = [buf] := by
        rw [hclient]
        rfl
      have hret := Step.returnBuffer (s := s) (t := me) hidle
        (by simp [hheld]) hreturn
      have htype := htyped buf (by simp [WritePc.client])
      rw [hheld] at hret
      simp only [List.erase_cons_head, returnedBy, htype] at hret
      exact Reaches.single (OpenOutsideTests.thread _ me) hret
  | notifyAll =>
      have hcall : (s.client me).call = .notify := by
        rw [hclient]
        rfl
      have hnotify := Step.notify (s := s) (t := me) hcall
      rw [hclient] at hnotify
      exact Reaches.single (OpenOutsideTests.thread _ me) hnotify

/-!
# What the writer has written
-/

/-- The bytes delivered to a thread inside `write` and not yet passed to `fwrite`. -/
def WritePc.pending (buffers : Nat -> List UInt8) : WritePc -> List UInt8
  | .getFilledBuffer _ => []
  | .fwrite buf => (buffers buf.data).take buf.bytesUsed
  | .returnBuffer _ => []
  | .notifyAll => []
  | .popEmpty => []

def pending (buffers : Nat -> List UInt8) (pc : Option WritePc) : List UInt8 :=
  pc.elim [] (WritePc.pending buffers)

/-- The writer with its thread at `pc`. -/
def WriteData (writer : BufferedFileWriter) (buffers : Nat -> List UInt8)
    (pc : Option WritePc) (delivered : List Payload) : Prop :=
  writer.written ++ pending buffers pc = bytesOf delivered

theorem WriteData.created (writer : BufferedFileWriter)
    (buffers : Nat -> List UInt8) : WriteData writer.create buffers none [] := rfl

theorem WriteData.writeStep {ι : Type} [DecidableEq ι] {me : ι} {io : Io}
    (hio : io.Succeeds) {writer writer' : BufferedFileWriter}
    {q q' : FixedBufferQueue ι} {pc : WritePc} {r : WriteResult}
    {delivered : List Payload}
    (h : WriteData writer q.buffers (some pc) delivered)
    (hstep : writer.writeStep me io q pc = some (r, writer', q')) :
    WriteData writer' q'.buffers r.pc (delivered ++ r.delivered q) := by
  unfold WriteData at h
  unfold WriteData
  cases writeStep_cases hstep with
  | @getFilledBuffer gpc got _ hget =>
      have hbuffers : q'.buffers = q.buffers := getStep_buffers hget
      simp only [pending, WritePc.pending, Option.elim, List.append_nil] at h
      rw [hbuffers]
      cases got with
      | buffer b =>
          simp [afterGetFilledBuffer, WriteResult.pc, WriteResult.delivered,
            pending, WritePc.pending, h, bytesOf_singleton, payload]
      | _ =>
          simp [afterGetFilledBuffer, WriteResult.pc, WriteResult.delivered,
            pending, WritePc.pending, h]
  | @fwrite buf file hopen =>
      simp only [written, hopen, pending, WritePc.pending, Option.elim] at h
      simp [written, afterFwrite, WriteResult.pc, WriteResult.delivered, pending,
        WritePc.pending, file.fwrite_written _ hio, h]
  | returnBuffer hreturn =>
      simpa [pending, WritePc.pending, WriteResult.pc, WriteResult.delivered]
        using h
  | notifyAll =>
      simpa [pending, WritePc.pending, WriteResult.pc, WriteResult.delivered]
        using h

/-- A step of another thread keeps the bytes of the buffer in the writer's hands. -/
theorem WriteData.frame {writer : BufferedFileWriter}
    {buffers buffers' : Nat -> List UInt8} {pc : Option WritePc}
    {delivered : List Payload} (h : WriteData writer buffers pc delivered)
    (hsame : forall p, pc = some p -> forall b, b ∈ p.client.held ->
      buffers' b.data = buffers b.data) :
    WriteData writer buffers' pc delivered := by
  have hpending : pending buffers' pc = pending buffers pc := by
    cases pc with
    | none => rfl
    | some p =>
        cases p with
        | fwrite buf =>
            have hbuf := hsame _ rfl buf (by simp [WritePc.client])
            simp [pending, WritePc.pending, hbuf]
        | _ => rfl
  rw [WriteData, hpending]
  exact h

end BufferedFileWriter
end Writer
end Ki
