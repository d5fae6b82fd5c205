import Ki.Foundation.Chunks
import Ki.Reader.Chunks

/-!
# Repeated calls of the buffered reader

A reader that has been constructed and opened calls `read` again and again.
Every call finds the queue in another state, with other free buffers and other
contents of the arrays.
-/

namespace Ki
namespace Reader

open Foundation
open Queue
open FixedBufferQueue
open Stdio

namespace BufferedReader

variable {ι : Type} [DecidableEq ι]

/--
Thread `me` inside `read` up to its return, while nobody else uses the queue and
the stdio calls succeed: the program points it passes, the queue and the reader.
-/
def runRead (me : ι) : Nat -> ReadPc -> FixedBufferQueue ι -> BufferedReader ->
    Option ((List ReadPc × FixedBufferQueue ι) × BufferedReader)
  | 0, _, _, _ => none
  | fuel + 1, pc, q, reader =>
      match reader.readStep me Io.success q pc with
      | some (.next pc', reader', q') =>
          (runRead me fuel pc' q' reader').map fun out =>
            ((pc :: out.1.1, out.1.2), out.2)
      | some (.done, reader', q') => some (([pc], q'), reader')
      | _ => none

/-- One call of `read`, which passes at most seven program points. -/
def read (me : ι) (q : FixedBufferQueue ι) (reader : BufferedReader) :
    Option ((List ReadPc × FixedBufferQueue ι) × BufferedReader) :=
  runRead me 7 (.getFreeBuffer .lock) q reader

/-- The mutex is free and there is a buffer to read into. -/
structure HasFree (q : FixedBufferQueue ι) : Prop where
  unlocked : q.queueMutex = none
  nonempty : q.readBuffers ≠ []

/-- The buffer handed out by `getFreeBuffer`, with the amount `read` stores in it. -/
def filled (reader : BufferedReader) (buf : Buffer) : Buffer :=
  { buf.setType .read with bytesUsed := reader.bytesUsed }

theorem filled_data (reader : BufferedReader) (buf : Buffer) :
    (reader.filled buf).data = buf.data := by
  simp only [filled, Buffer.setType_data]

theorem filled_bytesUsed (reader : BufferedReader) (buf : Buffer) :
    (reader.filled buf).bytesUsed = reader.bytesUsed := by
  simp only [filled]

/-- The program points of a call that takes `buf`; `finishRead` is among those of the last call. -/
def callPoints (buf filled : Buffer) (last : Bool) : List ReadPc :=
  [.getFreeBuffer .lock, .getFreeBuffer .recheck, .fill (buf.setType .read)] ++
    (if last then [.storeFinished filled, .finishRead filled] else []) ++
    [.returnBuffer filled, .notifyAll]

/-- The queue after a call that takes `buf` and leaves `rest`. -/
def queueAfter (q : FixedBufferQueue ι) (reader : BufferedReader) (file : FILE)
    (buf : Buffer) (rest : List Buffer) : FixedBufferQueue ι where
  buffers := (file.setvbuf buf.data).fgetcBuffers Io.success q.buffers
  readBuffers := rest
  writeBuffers := q.writeBuffers ++ [(reader.filled buf).setType .write]
  queueMutex := none
  cv := []
  isOpen := q.isOpen
  isReadFinished_ := if reader.readCount < reader.fileSize then q.isReadFinished_ else true

omit [DecidableEq ι] in
theorem queueAfter_buffers (q : FixedBufferQueue ι) (reader : BufferedReader)
    (file : FILE) (buf : Buffer) (rest : List Buffer) :
    (reader.queueAfter q file buf rest).buffers =
      (file.setvbuf buf.data).fgetcBuffers Io.success q.buffers := rfl

/-- The bytes of the buffer queued last. -/
def queued (q : FixedBufferQueue ι) : List UInt8 :=
  q.writeBuffers.getLast?.elim [] fun buf => (q.buffers buf.data).take buf.bytesUsed

/-- The reader after a call that takes `buf`. -/
def readerAfter (reader : BufferedReader) (file : FILE) (buf : Buffer) : BufferedReader :=
  { reader.afterFgetc (file.setvbuf buf.data) Io.success with
    readFinished :=
      if reader.readCount < reader.fileSize then reader.readFinished else true }

theorem read_eq {me : ι} {q : FixedBufferQueue ι} {reader : BufferedReader}
    {file : FILE} {buf : Buffer} {rest : List Buffer} (hfree : q.queueMutex = none)
    (hbuffers : q.readBuffers = rest ++ [buf]) (hopen : reader.fileDesc = some file) :
    reader.read me q = some ((callPoints buf (reader.filled buf)
        (decide (reader.fileSize ≤ reader.readCount)),
      reader.queueAfter q file buf rest), reader.readerAfter file buf) := by
  have hlock : q.getFreeBuffer me .lock =
      some (.next .recheck, { q with queueMutex := some me }) := by
    simp [getFreeBuffer, getStep, lockAndTest, dequeOf, hfree, hbuffers]
  have htake : ({ q with queueMutex := some me } : FixedBufferQueue ι).getFreeBuffer me
      .recheck = some (.buffer (buf.setType .read),
        { q with readBuffers := rest, queueMutex := none }) := by
    simp [getFreeBuffer, getStep, dequeOf, setDeque, popFrom, hbuffers]
  by_cases hmore : reader.readCount < reader.fileSize
  · have hnotLast := Nat.not_le.mpr hmore
    simp [read, runRead, readStep, hlock, htake, afterGetFreeBuffer, hopen, hmore, hnotLast,
      Io.success, callPoints, queueAfter, readerAfter, afterFgetc, filled,
      FixedBufferQueue.returnBuffer, FixedBufferQueue.notifyAll, setDeque, dequeOf,
      BufferType.flip, Buffer.setType]
  · have hlast := Nat.le_of_not_lt hmore
    simp [read, runRead, readStep, hlock, htake, afterGetFreeBuffer, hopen, hmore, hlast,
      Io.success, callPoints, queueAfter, readerAfter, afterFgetc, filled,
      FixedBufferQueue.returnBuffer, FixedBufferQueue.notifyAll,
      FixedBufferQueue.finishRead, setDeque, dequeOf, BufferType.flip, Buffer.setType]

/-!
# The state before a call
-/

/-- The number of calls that read a file of `n` bytes: an empty one takes a call too. -/
def callCount (n : Nat) : Nat :=
  max 1 (n ⌈/⌉ bufferSize)

theorem lt_callCount_iff {n k : Nat} :
    k < callCount n <-> k = 0 ∨ k * bufferSize < n := by
  rw [callCount, lt_max_iff, lt_ceilDiv_iff bufferSize_pos]
  omega

/-- The reader of the source `src` that is about to call `read` after `k` calls. -/
structure AtCall (src : List UInt8) (k : Nat) (reader : BufferedReader) : Prop where
  size : reader.fileSize = src.length
  offset : reader.currentOffset = min (k * bufferSize) src.length
  stream : exists file, reader.fileDesc = some file ∧ file.contents = src ∧
    (k < callCount src.length -> file.position = reader.currentOffset)
  finished : reader.readFinished = true <-> callCount src.length ≤ k

/-- What a call of `read` does that reads the `k`-th chunk from `file` and queues it in `buf`. -/
structure ReadsChunk (src : List UInt8) (k : Nat) (reader : BufferedReader)
    (file : FILE) (q q' : FixedBufferQueue ι) (buf : Buffer) : Prop where
  queued : q'.writeBuffers = q.writeBuffers ++ [buf]
  bytes : (q'.buffers buf.data).take buf.bytesUsed = chunkAt bufferSize src k
  fits : buf.bytesUsed ≤ bufferSize
  loaded : buf.bytesUsed ≤ ((file.setvbuf buf.data).load Io.success).length
  sum : SizeT.add reader.currentOffset bufferSize = reader.currentOffset + bufferSize
  difference : reader.currentOffset ≤ reader.fileSize ∧
    SizeT.sub reader.fileSize reader.currentOffset =
      reader.fileSize - reader.currentOffset

variable {src : List UInt8} {k : Nat} {reader : BufferedReader}

theorem AtCall.opened (src : List UInt8) : AtCall src 0 ((new src).open' src) where
  size := rfl
  offset := by simp [open', new]
  stream := ⟨FILE.fopen src, rfl, rfl, fun _ => rfl⟩
  finished := by simp [open', new, callCount]

theorem AtCall.bound (h : AtCall src k reader) : reader.currentOffset ≤ src.length := by
  rw [h.offset]
  exact Nat.min_le_right _ _

theorem AtCall.readCount (hsrc : src.length < 2 ^ 63) (h : AtCall src k reader) :
    reader.readCount = min ((k + 1) * bufferSize) src.length := by
  rw [readCount_eq hsrc h.size h.bound, h.offset, Nat.add_one_mul]
  omega

/-- The chunk is not the last one. -/
theorem AtCall.more_iff (hsrc : src.length < 2 ^ 63) (h : AtCall src k reader) :
    reader.readCount < reader.fileSize <-> k + 1 < callCount src.length := by
  rw [h.size, h.readCount hsrc, lt_callCount_iff]
  omega

theorem AtCall.rest (h : AtCall src k reader) :
    (src.drop reader.currentOffset).take bufferSize = chunkAt bufferSize src k := by
  rw [h.offset]
  by_cases hmore : k * bufferSize ≤ src.length
  · rw [Nat.min_eq_left hmore, chunkAt]
  · rw [chunkAt_eq_nil (Nat.le_of_not_le hmore), Nat.min_eq_right (Nat.le_of_not_le hmore),
      List.drop_length, List.take_nil]

theorem AtCall.position (h : AtCall src k reader) {file : FILE}
    (hopen : reader.fileDesc = some file) (hk : k < callCount src.length) :
    file.position = reader.currentOffset := by
  rcases h.stream with ⟨file', hopen', _, hposition⟩
  cases hopen.symm.trans hopen'
  exact hposition hk

theorem AtCall.contents (h : AtCall src k reader) {file : FILE}
    (hopen : reader.fileDesc = some file) : file.contents = src := by
  rcases h.stream with ⟨file', hopen', hcontents, _⟩
  cases hopen.symm.trans hopen'
  exact hcontents

theorem AtCall.position_of_more (h : AtCall src k reader) {file : FILE}
    (hopen : reader.fileDesc = some file)
    (hmore : reader.currentOffset < src.length) :
    file.position = reader.currentOffset := by
  apply h.position hopen
  rw [h.offset] at hmore
  exact lt_callCount_iff.mpr (Or.inr (by omega))

omit [DecidableEq ι] in
theorem AtCall.readsChunk (hsrc : src.length < 2 ^ 63) (h : AtCall src k reader)
    {file : FILE} (hopen : reader.fileDesc = some file) (q : FixedBufferQueue ι)
    (buf : Buffer) (rest : List Buffer) :
    ReadsChunk src k reader file q (reader.queueAfter q file buf rest)
      ((reader.filled buf).setType .write) := by
  have hbound := h.bound
  have hused := bytesUsed_eq hsrc h.size hbound
  have hcontents := h.contents hopen
  constructor
  · rfl
  · rw [queueAfter_buffers, Buffer.setType_data, Buffer.setType_bytesUsed, filled_data,
      filled_bytesUsed, ← h.rest]
    exact filled_bytes hsrc Io.success_succeeds h.size hbound hcontents
      (h.position_of_more hopen) buf.data
  · rw [Buffer.setType_bytesUsed, filled_bytesUsed, hused]
    exact Nat.min_le_left _ _
  · have hlength : ((file.setvbuf buf.data).load Io.success).length =
        min bufferSize (src.length - file.position) := by
      rw [FILE.load_of_succeeds _ Io.success_succeeds, FILE.wanted_length, ← hcontents]
      rfl
    rw [Buffer.setType_bytesUsed, Buffer.setType_data, filled_bytesUsed, filled_data, hused,
      hlength]
    by_cases hmore : reader.currentOffset < src.length
    · rw [h.position_of_more hopen hmore]
    · omega
  · apply SizeT.add_eq
    unfold SizeT.modulus bufferSize
    omega
  · rw [h.size]
    exact ⟨hbound, SizeT.sub_eq hbound (SizeT.lt_modulus_of_lt_half hsrc)⟩

theorem AtCall.after (hsrc : src.length < 2 ^ 63) (h : AtCall src k reader)
    {file : FILE} (hopen : reader.fileDesc = some file) (buf : Buffer) :
    AtCall src (k + 1) (reader.readerAfter file buf) := by
  have hcount := h.readCount hsrc
  have hcontents := h.contents hopen
  have hmore_iff := h.more_iff hsrc
  constructor
  · exact h.size
  · exact hcount
  · refine ⟨_, rfl, ?_, ?_⟩
    · split <;> exact hcontents
    · intro hk
      have hmore := hmore_iff.mpr hk
      rw [if_pos hmore]
      rw [h.size] at hmore
      exact filled_position hsrc Io.success_succeeds h.size h.bound hcontents
        (h.position_of_more hopen) hmore buf.data
  · simp only [readerAfter]
    split
    · rename_i hmore
      have hk := hmore_iff.mp hmore
      rw [h.finished]
      omega
    · rename_i hend
      have hk := mt hmore_iff.mpr hend
      simp only [true_iff]
      omega

theorem AtCall.read (hsrc : src.length < 2 ^ 63) (h : AtCall src k reader) (me : ι)
    {q : FixedBufferQueue ι} (hq : HasFree q) :
    exists file free q', reader.fileDesc = some file ∧
      reader.read me q = some ((callPoints free (reader.filled free)
        (decide (callCount src.length ≤ k + 1)), q'), reader.readerAfter file free) ∧
      ReadsChunk src k reader file q q' ((reader.filled free).setType .write) ∧
      AtCall src (k + 1) (reader.readerAfter file free) := by
  rcases h.stream with ⟨file, hopen, _⟩
  rcases List.eq_nil_or_concat q.readBuffers with hnil | ⟨rest, free, hbuffers⟩
  · exact absurd hnil hq.nonempty
  · have hlast : reader.fileSize ≤ reader.readCount <-> callCount src.length ≤ k + 1 := by
      rw [← not_lt, h.more_iff hsrc, not_lt]
    rw [List.concat_eq_append] at hbuffers
    refine ⟨file, free, reader.queueAfter q file free rest, hopen, ?_,
      h.readsChunk hsrc hopen q free rest, h.after hsrc hopen free⟩
    rw [read_eq hq.unlocked hbuffers hopen, decide_eq_decide.mpr hlast]

omit [DecidableEq ι] in
theorem ReadsChunk.queued_eq {file : FILE} {q q' : FixedBufferQueue ι} {buf : Buffer}
    (h : ReadsChunk src k reader file q q' buf) :
    BufferedReader.queued q' = chunkAt bufferSize src k := by
  rw [BufferedReader.queued, h.queued, List.getLast?_concat]
  exact h.bytes

/--
Repeating `read` until `isReadFinished` takes `callCount` calls, whatever state
the calls find the queue in, and queues the chunks of the file; `finishRead` is
called in the last of them only, and further calls queue empty buffers.
-/
theorem reads_chunks (src : List UInt8) (hsrc : src.length < 2 ^ 63) (me : ι)
    (q : Nat -> FixedBufferQueue ι) (hq : forall k, HasFree (q k)) :
    (exists outs last,
      (forall fuel, callsUntil BufferedReader.readFinished (fun k => read me (q k)) 0 fuel
          ((new src).open' src) =
        if max 1 (src.length ⌈/⌉ bufferSize) ≤ fuel then some (outs, last) else none) ∧
      outs.length = max 1 (src.length ⌈/⌉ bufferSize) ∧
      (outs.map fun out => queued out.2).flatten = src) ∧
    forall k, exists outs reader file buf free q' reader',
      calls (fun k => read me (q k)) 0 k ((new src).open' src) = some (outs, reader) ∧
      read me (q k) reader = some ((callPoints free buf
        (decide (max 1 (src.length ⌈/⌉ bufferSize) ≤ k + 1)), q'), reader') ∧
      reader.fileDesc = some file ∧
      (k < max 1 (src.length ⌈/⌉ bufferSize) -> file.position = reader.currentOffset) ∧
      ReadsChunk src k reader file (q k) q' (buf.setType .write) ∧
      (max 1 (src.length ⌈/⌉ bufferSize) ≤ k ->
        buf.bytesUsed = 0 ∧ reader.currentOffset = reader.fileSize) := by
  have hcall : CallsKeep (fun k => read me (q k)) (AtCall src)
      (fun out => queued out.2) (chunkAt bufferSize src) := by
    intro k reader h
    rcases h.read hsrc me (hq k) with ⟨file, free, q', _, hread, hchunk, hafter⟩
    exact ⟨_, _, hread, hchunk.queued_eq, hafter⟩
  have hstop : forall k reader, AtCall src k reader ->
      (reader.readFinished = true <-> callCount src.length ≤ k) :=
    fun _ _ h => h.finished
  have hinit := AtCall.opened src
  constructor
  · rcases calls_spec hcall (callCount src.length) hinit with
      ⟨outs, last, hcalls, hmap, _⟩
    rw [← List.range_eq_range'] at hmap
    refine ⟨outs, last, ?_, ?_, ?_⟩
    · intro fuel
      rw [callsUntil_eq_calls hcall hstop fuel (Nat.zero_le _) hinit, Nat.zero_add,
        Nat.sub_zero, hcalls]
      rfl
    · have hlength := congrArg List.length hmap
      rwa [List.length_map, List.length_map, List.length_range] at hlength
    · rw [hmap]
      exact flatten_chunkAt_all bufferSize_pos src (le_max_right _ _)
  · intro k
    rcases calls_spec hcall k hinit with ⟨outs, reader, hcalls, _, h⟩
    rw [Nat.zero_add] at h
    rcases h.read hsrc me (hq k) with ⟨file, free, q', hopen, hread, hchunk, _⟩
    refine ⟨outs, reader, file, reader.filled free, free, q', _, hcalls, hread, hopen,
      h.position hopen, hchunk, ?_⟩
    intro hk
    have hend : reader.currentOffset = src.length := by
      have hnotMore := mt lt_callCount_iff.mpr (Nat.not_lt.mpr hk)
      rw [h.offset]
      omega
    rw [filled_bytesUsed, bytesUsed_eq hsrc h.size h.bound, h.size, hend]
    simp

/-- A source one byte longer than a buffer. -/
def longSource : List UInt8 :=
  List.replicate (bufferSize + 1) 7

/-- It takes two calls, and the second one starts where `fseek` has left the stream. -/
theorem reads_chunks_longSource :
    (exists outs last, callsUntil BufferedReader.readFinished
        (fun _ => read () (FixedBufferQueue.new fun _ => [1, 2])) 0 2
        ((new longSource).open' longSource) = some (outs, last) ∧
      outs.length = 2 ∧ (outs.map fun out => queued out.2).flatten = longSource) ∧
    exists outs reader file, calls
        (fun _ => read () (FixedBufferQueue.new fun _ => [1, 2])) 0 1
        ((new longSource).open' longSource) = some (outs, reader) ∧
      reader.fileDesc = some file ∧ file.position = reader.currentOffset := by
  have hfree : HasFree (FixedBufferQueue.new fun _ => [1, 2] : FixedBufferQueue Unit) :=
    ⟨rfl, by simp [FixedBufferQueue.new, buffersInQueue]⟩
  have hcount : max 1 (longSource.length ⌈/⌉ bufferSize) = 2 := by
    rw [longSource, List.length_replicate, Nat.ceilDiv_eq_add_pred_div]
    rfl
  have hsrc : longSource.length < 2 ^ 63 := by
    rw [longSource, List.length_replicate, bufferSize]
    decide
  have hreads := reads_chunks longSource hsrc () _ fun _ => hfree
  rw [hcount] at hreads
  constructor
  · rcases hreads.left with ⟨outs, last, hloop, hlength, hbytes⟩
    exact ⟨outs, last, (hloop 2).trans (if_pos (Nat.le_refl 2)), hlength, hbytes⟩
  · rcases hreads.right 1 with
      ⟨outs, reader, file, _, _, _, _, hcalls, _, hopen, hposition, _⟩
    exact ⟨outs, reader, file, hcalls, hopen, hposition (by decide)⟩

end BufferedReader
end Reader
end Ki
