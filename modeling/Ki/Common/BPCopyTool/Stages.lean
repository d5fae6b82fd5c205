import Ki.Foundation.Chunks
import Ki.Foundation.Pipeline
import Ki.Reader.Chunks
import Ki.Writer.BufferedFileWriter

/-!
# The reader and the writer of a queue as two stages

A buffered reader takes the chunks of its source in their order, one `fgetc` for each,
and a buffered writer passes each of them on with one `fwrite`.  The buffers of the
queue are the room between the two.
-/

namespace Ki
namespace Common

open Foundation
open Queue
open FixedBufferQueue
open Clients
open Reader
open BufferedReader
open Writer
open BufferedFileWriter
open Stdio

namespace BPCopyTool

/-- The chunks of a source of `n` bytes; an empty source is one empty chunk. -/
def chunkCount (n : Nat) : Nat :=
  max 1 (n ⌈/⌉ bufferSize)

theorem lt_chunkCount {n k : Nat} (h : k * bufferSize < n) : k < chunkCount n :=
  Nat.lt_of_lt_of_le ((lt_ceilDiv_iff bufferSize_pos).mpr h) (Nat.le_max_right _ _)

theorem chunkCount_pos (n : Nat) : 0 < chunkCount n :=
  Nat.lt_of_lt_of_le Nat.one_pos (Nat.le_max_left _ _)

/-!
# The chunks in the queue
-/

/-- The payloads are the first chunks of the source, one each. -/
def Chunked (src : List UInt8) (ps : List Payload) : Prop :=
  forall k, k ≤ ps.length -> bytesOf (ps.take k) = src.take (k * bufferSize)

theorem nil_chunked (src : List UInt8) : Chunked src [] := by
  intro k hk
  rw [Nat.le_zero.mp hk]
  simp

theorem Chunked.append {src : List UInt8} {ps : List Payload} (h : Chunked src ps)
    {p : Payload}
    (hall : bytesOf (ps ++ [p]) = src.take ((ps.length + 1) * bufferSize)) :
    Chunked src (ps ++ [p]) := by
  intro k hk
  rw [List.length_append, List.length_singleton] at hk
  by_cases hlast : k = ps.length + 1
  · rw [hlast, List.take_of_length_le (by simp)]
    exact hall
  · have hbefore : k ≤ ps.length := by
      omega
    rw [List.take_append_of_le_length hbefore]
    exact h k hbefore

/-- So are those that come before the payloads still queued. -/
theorem Chunked.bytesOf_delivered {src : List UInt8} {returned delivered queued : List Payload}
    (h : Chunked src returned) (hfifo : delivered ++ queued = returned) :
    bytesOf delivered = src.take (delivered.length * bufferSize) := by
  have hprefix : returned.take delivered.length = delivered := by
    rw [← hfifo, List.take_left]
  have hlength : delivered.length ≤ returned.length := by
    rw [← hfifo, List.length_append]
    exact Nat.le_add_right _ _
  rw [← h delivered.length hlength, hprefix]

/-!
# Taking chunks
-/

/-- The chunk in the hands of a thread inside `read`, once it is in the buffer. -/
def filled : Option ReadPc -> Nat
  | some (.storeFinished _) => 1
  | some (.finishRead _) => 1
  | some (.returnBuffer _) => 1
  | _ => 0

/-- The last chunk is not in hand, still to be announced. -/
def NotLast (pc : Option ReadPc) : Prop :=
  forall buf, pc ≠ some (.storeFinished buf)

theorem none_notLast : NotLast none := by
  intro buf h
  cases h

/-- The reader has taken `n` chunks of its source. -/
structure Taking (src : List UInt8) (reader : BufferedReader) (pc : Option ReadPc)
    (returned : List Payload) (n : Nat) : Prop where
  taken : n = returned.length + filled pc
  offset : reader.currentOffset = min (n * bufferSize) src.length
  more : reader.readFinished = false -> NotLast pc -> n < chunkCount src.length
  chunked : Chunked src returned

theorem Taking.new (src : List UInt8) : Taking src (BufferedReader.new src) none [] 0 where
  taken := rfl
  offset := by
    simp [BufferedReader.new]
  more := fun _ _ => chunkCount_pos src.length
  chunked := nil_chunked src

theorem Taking.opened (src : List UInt8) :
    Taking src ((BufferedReader.new src).open' src) none [] 0 where
  taken := rfl
  offset := by
    simp [BufferedReader.open', BufferedReader.new]
  more := fun _ _ => chunkCount_pos src.length
  chunked := nil_chunked src

/-- A step that takes no chunk and returns none. -/
theorem Taking.move {src : List UInt8} {reader : BufferedReader} {pc pc' : Option ReadPc}
    {returned : List Payload} {n : Nat} (h : Taking src reader pc returned n)
    (hfilled : filled pc' = filled pc) (hnot : NotLast pc' -> NotLast pc) :
    Taking src reader pc' returned n where
  taken := by
    rw [hfilled]
    exact h.taken
  offset := h.offset
  more := fun hunfinished hnotLast => h.more hunfinished (hnot hnotLast)
  chunked := h.chunked

/-- A chunk taken by `fgetc`. -/
theorem Taking.fill {src : List UInt8} (hsrc : src.length < 2 ^ 63) {io : Io}
    {reader : BufferedReader} {buffers : Nat -> List UInt8} {returned : List Payload}
    {n : Nat} {buf : Buffer} (hdata : ReadData src reader buffers (some (.fill buf)) returned)
    (h : Taking src reader (some (.fill buf)) returned n) (file : FILE) :
    Taking src (reader.afterFgetc file io)
      (some (if reader.readCount < reader.fileSize then
        .returnBuffer { buf with bytesUsed := reader.bytesUsed }
        else .storeFinished { buf with bytesUsed := reader.bytesUsed }))
      returned (n + 1) := by
  have hcount := readCount_eq hsrc hdata.size hdata.bound
  have hoffset : reader.readCount = min ((n + 1) * bufferSize) src.length := by
    rw [hcount, h.offset, Nat.add_one_mul]
    omega
  constructor
  · have hbefore : n = returned.length + 0 := h.taken
    rw [hbefore]
    split <;> rfl
  · exact hoffset
  · intro _ hnotLast
    by_cases hless : reader.readCount < reader.fileSize
    · rw [hdata.size, hoffset] at hless
      have hnext : (n + 1) * bufferSize < src.length := by
        omega
      exact lt_chunkCount hnext
    · rw [if_neg hless] at hnotLast
      exact absurd rfl (hnotLast _)
  · exact h.chunked

/-- A step of `read` takes the next chunk, or none. -/
theorem Taking.readStep {ι : Type} [DecidableEq ι] {src : List UInt8}
    (hsrc : src.length < 2 ^ 63) {me : ι} {io : Io} (hio : io.Succeeds)
    {reader reader' : BufferedReader} {q q' : FixedBufferQueue ι} {pc : ReadPc}
    {r : ReadResult} {returned : List Payload} {n : Nat} (htyped : pc.Typed)
    (hearly : forall buf, pc = .fill buf -> reader.readFinished = false)
    (hdata : ReadData src reader q.buffers (some pc) returned)
    (h : Taking src reader (some pc) returned n)
    (hread : reader.readStep me io q pc = some (r, reader', q')) :
    Taking src reader' r.pc (returned ++ pc.returned q) n ∨
      (exists buf, pc = .fill buf) ∧ n < chunkCount src.length ∧
        Taking src reader' r.pc (returned ++ pc.returned q) (n + 1) := by
  have hdata' := hdata.readStep hsrc hio htyped hread
  cases readStep_cases hread with
  | @getFreeBuffer gpc got _ hget =>
      left
      simp only [ReadPc.returned, List.append_nil]
      apply h.move
      · cases got <;> rfl
      · intro _ buf hbuf
        cases hbuf
  | setvbufFails buf hfails =>
      rw [hio.left] at hfails
      cases hfails
  | @fill buf file hopen hok =>
      right
      have hmore : n < chunkCount src.length := by
        apply h.more (hearly buf rfl)
        intro buf' hbuf
        cases hbuf
      simp only [ReadPc.returned, List.append_nil]
      exact ⟨⟨buf, rfl⟩, hmore, h.fill hsrc hdata _⟩
  | storeFinished buf =>
      left
      simp only [ReadPc.returned, List.append_nil]
      refine ⟨h.taken, h.offset, ?_, h.chunked⟩
      intro hunfinished
      cases hunfinished
  | finishRead buf hfree =>
      left
      simp only [ReadPc.returned, List.append_nil]
      refine h.move rfl ?_
      intro _ buf' hbuf
      cases hbuf
  | @returnBuffer buf _ hreturn =>
      left
      have htype : buf.bufferType = .read := htyped buf (by simp [ReadPc.client])
      have hreturned : ReadPc.returned q (.returnBuffer buf) = [q.payload buf] := by
        simp [ReadPc.returned, returnedBy, htype]
      have htaken : n = returned.length + 1 := h.taken
      have hbytes := hdata'.bytes
      rw [hreturned] at hbytes
      rw [hreturned]
      refine ⟨?_, h.offset, ?_, ?_⟩
      · rw [htaken, List.length_append]
        rfl
      · intro hunfinished _
        apply h.more hunfinished
        intro buf' hbuf
        cases hbuf
      · apply h.chunked.append
        have hoffset := h.offset
        rw [htaken] at hoffset
        have hlast : src.take reader.currentOffset =
            src.take ((returned.length + 1) * bufferSize) := by
          rw [hoffset, ← List.take_take, List.take_length]
        rw [← hlast]
        simpa [ReadResult.pc, inHand, ReadPc.inHand] using hbytes
  | notifyAll =>
      left
      simp only [ReadPc.returned, List.append_nil]
      refine h.move rfl ?_
      intro _ buf' hbuf
      cases hbuf

/-!
# Passing them on
-/

/-- The filled buffer in the hands of a thread inside `write`, not yet written. -/
def unwritten : Option WritePc -> Nat
  | some (.fwrite _) => 1
  | _ => 0

/-- The writer has passed on `n` chunks of the source. -/
structure Passing (src : List UInt8) (writer : BufferedFileWriter) (pc : Option WritePc)
    (delivered : List Payload) (n : Nat) : Prop where
  passed : n + unwritten pc = delivered.length
  bytes : writer.written = src.take (n * bufferSize)

theorem Passing.new (src : List UInt8) (dst : String) :
    Passing src (BufferedFileWriter.new dst) none [] 0 where
  passed := rfl
  bytes := by
    simp [BufferedFileWriter.new, written]

theorem Passing.created (src : List UInt8) (writer : BufferedFileWriter) :
    Passing src writer.create none [] 0 where
  passed := rfl
  bytes := by
    simp [create, written, OutFILE.fopen, OutFILE.written]

theorem Passing.move {src : List UInt8} {writer : BufferedFileWriter}
    {pc pc' : Option WritePc} {delivered : List Payload} {n : Nat}
    (h : Passing src writer pc delivered n) (hunwritten : unwritten pc' = unwritten pc) :
    Passing src writer pc' delivered n where
  passed := by
    rw [hunwritten]
    exact h.passed
  bytes := h.bytes

/-- A step of `write` passes the next chunk on, or none. -/
theorem Passing.writeStep {ι : Type} [DecidableEq ι] {src : List UInt8} {me : ι} {io : Io}
    (hio : io.Succeeds) {writer writer' : BufferedFileWriter} {q q' : FixedBufferQueue ι}
    {pc : WritePc} {r : WriteResult} {returned delivered queued : List Payload} {n : Nat}
    (hchunked : Chunked src returned) (hfifo : delivered ++ queued = returned)
    (hdata : WriteData writer q.buffers (some pc) delivered)
    (h : Passing src writer (some pc) delivered n)
    (hwrite : writer.writeStep me io q pc = some (r, writer', q')) :
    Passing src writer' r.pc (delivered ++ r.delivered q) n ∨
      n < delivered.length ∧
        Passing src writer' r.pc (delivered ++ r.delivered q) (n + 1) := by
  have hdata' := hdata.writeStep hio hwrite
  cases writeStep_cases hwrite with
  | @getFilledBuffer gpc got _ hget =>
      left
      cases got with
      | buffer buf =>
          have hpassed : n + 0 = delivered.length := h.passed
          refine ⟨?_, h.bytes⟩
          rw [List.length_append, ← hpassed]
          rfl
      | _ =>
          simp only [afterGetFilledBuffer, WriteResult.delivered, List.append_nil]
          exact h.move rfl
  | @fwrite buf file hopen =>
      right
      have hpassed : n + 1 = delivered.length := h.passed
      have hbytes := hchunked.bytesOf_delivered hfifo
      refine ⟨?_, ?_, ?_⟩
      · omega
      · simp only [WriteResult.delivered, List.append_nil]
        exact hpassed
      · rw [hpassed, ← hbytes]
        simpa [WriteData, pending, WritePc.pending, WriteResult.pc, WriteResult.delivered]
          using hdata'
  | returnBuffer hreturn =>
      left
      simp only [WriteResult.delivered, List.append_nil]
      exact h.move rfl
  | notifyAll =>
      left
      simp only [WriteResult.delivered, List.append_nil]
      exact h.move rfl

/-!
# The room between the two
-/

/-- The arrays in the queue and in the hands of two threads are not more than there are. -/
theorem held_length_le {ι : Type} {s : Clients ι} (h : Inv s) {t u : ι} (htu : t ≠ u) :
    s.queue.writeBuffers.length + (s.client t).held.length + (s.client u).held.length ≤
      buffersInQueue := by
  have hcells : ([.writeBuffers, .heldBy t, .heldBy u].flatMap s.cells).length ≤
      (List.range buffersInQueue).length :=
    h.owned.length_le (by simp [htu]) (fun _ => List.mem_range.mpr)
  have hclients : ([.writeBuffers, .heldBy t, .heldBy u].flatMap s.cells).length =
      s.queue.writeBuffers.length + (s.client t).held.length + (s.client u).held.length := by
    simp [Clients.cells, Nat.add_assoc]
  rw [hclients, List.length_range] at hcells
  exact hcells

theorem unwritten_le (pc : Option WritePc) :
    unwritten pc ≤ (pc.elim { call := .idle, held := [] } WritePc.client).held.length := by
  cases pc with
  | none => exact Nat.zero_le _
  | some wpc => cases wpc <;> simp [unwritten, WritePc.client]

/-- A reader with a free buffer in hand finds room for one more chunk. -/
theorem room_of_fill {ι : Type} {s : Clients ι} (h : Inv s) {t u : ι} (htu : t ≠ u)
    {buf : Buffer} (ht : s.client t = ReadPc.client (.fill buf)) {k : Nat}
    (hu : k ≤ (s.client u).held.length) {taken passed : Nat}
    (htaken : taken = s.returned.length) (hpassed : passed + k = s.delivered.length) :
    taken < passed + buffersInQueue := by
  have hroom := held_length_le h htu
  have hfifo := congrArg List.length h.fifo
  have hheld : (s.client t).held.length = 1 := by
    rw [ht]
    rfl
  rw [List.length_append, List.length_map] at hfifo
  omega

end BPCopyTool
end Common
end Ki
