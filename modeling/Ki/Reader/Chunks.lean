import Ki.Reader.BufferedReader

/-!
# What the buffered reader puts into the queue

The bytes of the chunks a reader has returned, followed by those of the chunk
in its hands, are the part of the source before `currentOffset`.
-/

namespace Ki
namespace Reader

open Foundation
open Queue
open FixedBufferQueue
open Clients
open Stdio

namespace BufferedReader

variable {ι : Type}

/-- The bytes in the hands of a thread inside `read`, once its buffer is filled. -/
def ReadPc.inHand (buffers : Nat -> List UInt8) : ReadPc -> List UInt8
  | .getFreeBuffer _ => []
  | .fill _ => []
  | .storeFinished buf => (buffers buf.data).take buf.bytesUsed
  | .finishRead buf => (buffers buf.data).take buf.bytesUsed
  | .returnBuffer buf => (buffers buf.data).take buf.bytesUsed
  | .notifyAll => []
  | .popEmpty => []

/-- The last chunk is in hand and not yet announced as the last. -/
def ReadPc.AtLast : ReadPc -> Prop
  | .storeFinished _ => True
  | .finishRead _ => True
  | _ => False

/-- The bytes in hand of a thread that is at `pc`, or outside of `read`. -/
def inHand (buffers : Nat -> List UInt8) (pc : Option ReadPc) : List UInt8 :=
  pc.elim [] (ReadPc.inHand buffers)

/-- The reader of the source `src` with its thread at `pc`. -/
structure ReadData (src : List UInt8) (reader : BufferedReader)
    (buffers : Nat -> List UInt8) (pc : Option ReadPc) (returned : List Payload) :
    Prop where
  size : reader.fileSize = src.length
  stream : forall f, reader.fileDesc = some f -> f.contents = src ∧
    (reader.currentOffset < src.length -> f.position = reader.currentOffset)
  bound : reader.currentOffset ≤ src.length
  finished : reader.readFinished = true -> reader.currentOffset = src.length
  last : forall p, pc = some p -> p.AtLast -> reader.currentOffset = src.length
  bytes : bytesOf returned ++ inHand buffers pc = src.take reader.currentOffset

theorem ReadData.new (src : List UInt8) (buffers : Nat -> List UInt8) :
    ReadData src (BufferedReader.new src) buffers none [] where
  size := rfl
  stream := by
    intro f hf
    cases hf
  bound := Nat.zero_le _
  finished := by
    intro h
    cases h
  last := by
    intro p hp
    cases hp
  bytes := by
    simp [inHand, BufferedReader.new]

/-- A reader that has just been constructed and opened. -/
theorem ReadData.opened (src : List UInt8) (buffers : Nat -> List UInt8) :
    ReadData src ((BufferedReader.new src).open' src) buffers none [] where
  size := rfl
  stream := by
    intro f hf
    cases hf
    exact ⟨rfl, fun _ => rfl⟩
  bound := Nat.zero_le _
  finished := by
    intro h
    simp [open', BufferedReader.new] at h
  last := by
    intro p hp
    cases hp
  bytes := by
    simp [inHand, open', BufferedReader.new]

section Arithmetic

variable {reader : BufferedReader} {n : Nat}

theorem bytesUsed_eq (hn : n < 2 ^ 63) (hsize : reader.fileSize = n)
    (hbound : reader.currentOffset ≤ n) :
    reader.bytesUsed = min bufferSize (n - reader.currentOffset) := by
  have hsum : SizeT.add reader.currentOffset bufferSize =
      reader.currentOffset + bufferSize :=
    SizeT.add_eq (by unfold SizeT.modulus bufferSize; omega)
  have hdiff : SizeT.sub reader.fileSize reader.currentOffset =
      n - reader.currentOffset := by
    rw [hsize]
    exact SizeT.sub_eq hbound (SizeT.lt_modulus_of_lt_half hn)
  rw [bytesUsed, hsum, hdiff, hsize]
  split <;> omega

theorem readCount_eq (hn : n < 2 ^ 63) (hsize : reader.fileSize = n)
    (hbound : reader.currentOffset ≤ n) :
    reader.readCount = min (reader.currentOffset + bufferSize) n := by
  have hsum : SizeT.add reader.currentOffset bufferSize =
      reader.currentOffset + bufferSize :=
    SizeT.add_eq (by unfold SizeT.modulus bufferSize; omega)
  rw [readCount, hsum, hsize]

end Arithmetic

section Fill

variable {src : List UInt8} {reader : BufferedReader}
  {buffers : Nat -> List UInt8} {returned : List Payload} {buf : Buffer}
  {file : FILE} {io : Io}

/-- The bytes in hand after `fgetc` are the next chunk of the source. -/
theorem filled_bytes (hsrc : src.length < 2 ^ 63) (hio : io.Succeeds)
    (hsize : reader.fileSize = src.length) (hbound : reader.currentOffset ≤ src.length)
    (hcontents : file.contents = src)
    (hposition : reader.currentOffset < src.length ->
      file.position = reader.currentOffset) (data : Nat) :
    ((file.setvbuf data).fgetcBuffers io buffers data).take reader.bytesUsed =
      (src.drop reader.currentOffset).take bufferSize := by
  rw [fgetcBuffers_setvbuf, Function.update_self, file.load_of_succeeds hio,
    bytesUsed_eq hsrc hsize hbound]
  by_cases hoffset : reader.currentOffset < src.length
  · have hwanted : file.wanted = (src.drop reader.currentOffset).take bufferSize := by
      rw [FILE.wanted, hcontents, hposition hoffset]
    have hlength : min bufferSize (src.length - reader.currentOffset) =
        file.wanted.length := by
      rw [FILE.wanted_length, hcontents, hposition hoffset]
    rw [hlength, List.take_left, hwanted]
  · have hend : src.length ≤ reader.currentOffset := by
      omega
    rw [List.drop_eq_nil_of_le hend, Nat.sub_eq_zero_of_le hend]
    simp

/-- Before the last chunk, `fseek` leaves the stream at the next one. -/
theorem filled_position (hsrc : src.length < 2 ^ 63) (hio : io.Succeeds)
    (hsize : reader.fileSize = src.length) (hbound : reader.currentOffset ≤ src.length)
    (hcontents : file.contents = src)
    (hposition : reader.currentOffset < src.length ->
      file.position = reader.currentOffset)
    (hmore : reader.readCount < src.length) (data : Nat) :
    (((file.setvbuf data).fgetc io).fseek (bufferSize - 1)).position =
      reader.readCount := by
  have hcount := readCount_eq hsrc hsize hbound
  have hoffset : reader.currentOffset < src.length := by
    omega
  have hload : (file.setvbuf data).load io = file.wanted := by
    rw [FILE.load_of_succeeds _ hio]
    rfl
  have hnonempty : file.wanted.isEmpty = false := by
    rw [List.isEmpty_eq_false_iff, ← List.length_pos_iff, FILE.wanted_length,
      hcontents, hposition hoffset]
    have hpos := bufferSize_pos
    omega
  have hpos := bufferSize_pos
  simp only [FILE.fseek, FILE.fgetc, hload, hnonempty]
  change file.position + 1 + (bufferSize - 1) = reader.readCount
  rw [hposition hoffset]
  omega

theorem ReadData.fill (hsrc : src.length < 2 ^ 63) (hio : io.Succeeds)
    (h : ReadData src reader buffers (some (.fill buf)) returned)
    (hopen : reader.fileDesc = some file) :
    ReadData src (reader.afterFgetc (file.setvbuf buf.data) io)
      ((file.setvbuf buf.data).fgetcBuffers io buffers)
      (some (if reader.readCount < reader.fileSize then
        .returnBuffer { buf with bytesUsed := reader.bytesUsed }
        else .storeFinished { buf with bytesUsed := reader.bytesUsed }))
      returned := by
  have hcount := readCount_eq hsrc h.size h.bound
  have hbound := h.bound
  constructor
  · exact h.size
  · intro f hf
    rcases h.stream file hopen with ⟨hcontents, hposition⟩
    cases hf
    constructor
    · split <;> exact hcontents
    · intro hmore
      change reader.readCount < src.length at hmore
      rw [h.size, if_pos hmore]
      exact filled_position hsrc hio h.size hbound hcontents hposition hmore buf.data
  · change reader.readCount ≤ src.length
    omega
  · intro hfinished
    change reader.readCount = src.length
    have hoffset := h.finished hfinished
    omega
  · intro p hp hlast
    change reader.readCount = src.length
    by_cases hmore : reader.readCount < reader.fileSize
    · rw [if_pos hmore] at hp
      cases hp
      cases hlast
    · rw [h.size] at hmore
      omega
  · rcases h.stream file hopen with ⟨hcontents, hposition⟩
    have hchunk : ((file.setvbuf buf.data).fgetcBuffers io buffers buf.data).take
        reader.bytesUsed = (src.drop reader.currentOffset).take bufferSize :=
      filled_bytes hsrc hio h.size hbound hcontents hposition buf.data
    have hhand : inHand ((file.setvbuf buf.data).fgetcBuffers io buffers)
        (some (if reader.readCount < reader.fileSize then
          .returnBuffer { buf with bytesUsed := reader.bytesUsed }
          else .storeFinished { buf with bytesUsed := reader.bytesUsed })) =
        (src.drop reader.currentOffset).take bufferSize := by
      rw [← hchunk]
      split <;> simp [inHand, ReadPc.inHand]
    have hbytes : bytesOf returned = src.take reader.currentOffset := by
      simpa [inHand, ReadPc.inHand] using h.bytes
    change _ = src.take reader.readCount
    rw [hhand, hbytes, ← List.take_add, hcount]
    simp

end Fill

/-- The reader's thread takes no part in a step that leaves the arrays alone. -/
theorem ReadData.frame {src : List UInt8} {reader : BufferedReader}
    {buffers buffers' : Nat -> List UInt8} {pc : Option ReadPc}
    {returned : List Payload} (h : ReadData src reader buffers pc returned)
    (hbuffers : buffers' = buffers) :
    ReadData src reader buffers' pc returned := by
  rw [hbuffers]
  exact h

/-- A step inside `read` that fills no array and moves to a point with the same bytes in hand. -/
theorem ReadData.move {src : List UInt8} {reader : BufferedReader}
    {buffers buffers' : Nat -> List UInt8} {pc pc' : Option ReadPc}
    {returned returned' : List Payload}
    (h : ReadData src reader buffers pc returned)
    (hlast : forall p, pc' = some p -> p.AtLast ->
      reader.currentOffset = src.length)
    (hbytes : bytesOf returned' ++ inHand buffers' pc' =
      bytesOf returned ++ inHand buffers pc) :
    ReadData src reader buffers' pc' returned' where
  size := h.size
  stream := h.stream
  bound := h.bound
  finished := h.finished
  last := hlast
  bytes := hbytes.trans h.bytes

/-- A thread that enters `read`. -/
theorem ReadData.enter {src : List UInt8} {reader : BufferedReader}
    {buffers : Nat -> List UInt8} {returned : List Payload}
    (h : ReadData src reader buffers none returned) :
    ReadData src reader buffers (some (.getFreeBuffer .lock)) returned := by
  apply h.move
  · intro p hp hlast
    cases hp
    cases hlast
  · rfl

theorem ReadData.readStep [DecidableEq ι] {src : List UInt8}
    (hsrc : src.length < 2 ^ 63) {me : ι} {io : Io} (hio : io.Succeeds)
    {reader reader' : BufferedReader} {q q' : FixedBufferQueue ι} {pc : ReadPc}
    {r : ReadResult} {returned : List Payload} (htyped : pc.Typed)
    (h : ReadData src reader q.buffers (some pc) returned)
    (hstep : reader.readStep me io q pc = some (r, reader', q')) :
    ReadData src reader' q'.buffers r.pc (returned ++ pc.returned q) := by
  cases readStep_cases hstep with
  | @getFreeBuffer gpc got _ hget =>
      rw [getStep_buffers hget]
      cases got with
      | next gpc' =>
          apply h.move
          · intro p hp hlast
            cases hp
            cases hlast
          · simp [ReadPc.returned, inHand, ReadPc.inHand, ReadResult.pc,
              afterGetFreeBuffer]
      | nullopt =>
          apply h.move
          · intro p hp
            cases hp
          · simp [ReadPc.returned, inHand, ReadPc.inHand, ReadResult.pc,
              afterGetFreeBuffer]
      | buffer b =>
          apply h.move
          · intro p hp hlast
            cases hp
            cases hlast
          · simp [ReadPc.returned, inHand, ReadPc.inHand, ReadResult.pc,
              afterGetFreeBuffer]
      | popEmpty =>
          apply h.move
          · intro p hp hlast
            cases hp
            cases hlast
          · simp [ReadPc.returned, inHand, ReadPc.inHand, ReadResult.pc,
              afterGetFreeBuffer]
  | setvbufFails buf hfails =>
      rw [hio.left] at hfails
      cases hfails
  | fill hopen hok =>
      simp only [ReadPc.returned, List.append_nil]
      exact h.fill hsrc hio hopen
  | storeFinished buf =>
      have hend := h.last _ rfl trivial
      simp only [ReadPc.returned, List.append_nil]
      exact ⟨h.size, h.stream, h.bound, fun _ => hend, fun _ _ _ => hend, h.bytes⟩
  | finishRead buf hfree =>
      apply h.move
      · intro p hp hlast
        cases hp
        cases hlast
      · simp [ReadPc.returned, inHand, ReadPc.inHand, ReadResult.pc]
  | @returnBuffer buf _ hreturn =>
      have htype : buf.bufferType = .read :=
        htyped buf (by simp [ReadPc.client])
      apply h.move
      · intro p hp hlast
        cases hp
        cases hlast
      · simp [ReadPc.returned, returnedBy, htype, inHand, ReadPc.inHand,
          ReadResult.pc, bytesOf_singleton, payload]
  | notifyAll =>
      apply h.move
      · intro p hp
        cases hp
      · simp [ReadPc.returned, inHand, ReadPc.inHand, ReadResult.pc]

end BufferedReader
end Reader
end Ki
