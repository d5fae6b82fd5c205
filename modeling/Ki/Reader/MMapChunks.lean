import Ki.Foundation.Chunks
import Ki.Reader.MMapFileReader

/-!
# The chunks of the memory-mapped reader

A reader that has been constructed and opened returns the pages of its file one
after another, sets the flag with the last of them and returns empty chunks
from then on, as long as the memory for a page can be reserved.
-/

namespace Ki
namespace Reader

open Foundation

namespace MMapFileReader

/-- The reader of the source `src` after `k` calls of `read`. -/
structure AfterReads (src : List UInt8) (defaultBufferSize k : Nat)
    (reader : MMapFileReader) : Prop where
  mapped : reader.mmappedFile = some src
  size : reader.fileSize = src.length
  offset : reader.currentOffset = min (k * defaultBufferSize) src.length
  finished : reader.readFinished = true <-> src.length ≤ k * defaultBufferSize

variable {reader : MMapFileReader} {src : List UInt8} {defaultBufferSize k : Nat}
  {allocates : Nat -> Bool}

theorem AfterReads.opened (hne : 1 ≤ src.length)
    (hopen : (new src).open' src = some reader) :
    AfterReads src defaultBufferSize 0 reader := by
  have hsize : (new src).fileSize ≠ 0 := Nat.ne_of_gt hne
  rw [open', if_neg hsize] at hopen
  cases hopen
  constructor
  · rfl
  · rfl
  · simp [new]
  · simp only [new, Nat.not_lt_zero, if_false, Bool.false_eq_true, false_iff]
    omega

theorem AfterReads.bound (h : AfterReads src defaultBufferSize k reader) :
    reader.currentOffset ≤ src.length := by
  rw [h.offset]
  exact Nat.min_le_right _ _

theorem AfterReads.readCount (hsrc : src.length < 2 ^ 63)
    (hpage : defaultBufferSize < 2 ^ 63)
    (h : AfterReads src defaultBufferSize k reader) :
    reader.readCount defaultBufferSize =
      min ((k + 1) * defaultBufferSize) src.length := by
  rw [readCount_eq hsrc hpage h.size h.bound, h.offset, Nat.succ_mul]
  omega

/-- The next chunk; past the end of the file it is empty. -/
theorem AfterReads.chunk (hsrc : src.length < 2 ^ 63)
    (hpage : defaultBufferSize < 2 ^ 63)
    (h : AfterReads src defaultBufferSize k reader) :
    reader.chunk defaultBufferSize src = chunkAt defaultBufferSize src k := by
  rw [MMapFileReader.chunk, h.readCount hsrc hpage, h.offset]
  by_cases hmore : k * defaultBufferSize ≤ src.length
  · rw [Nat.min_eq_left hmore, chunkAt, List.take_eq_take_iff, List.length_drop,
      Nat.succ_mul]
    omega
  · rw [chunkAt_eq_nil (Nat.le_of_not_le hmore), Nat.min_eq_right (Nat.le_of_not_le hmore),
      List.drop_length, List.take_nil]

theorem AfterReads.read (hsrc : src.length < 2 ^ 63)
    (hpage : defaultBufferSize < 2 ^ 63) (hreserve : allocates defaultBufferSize = true)
    (h : AfterReads src defaultBufferSize k reader) :
    exists chunk reader', reader.read allocates defaultBufferSize = some (chunk, reader') ∧
      chunk = chunkAt defaultBufferSize src k ∧
      AfterReads src defaultBufferSize (k + 1) reader' := by
  have hcount := h.readCount hsrc hpage
  refine ⟨_, _, by rw [MMapFileReader.read, if_pos hreserve, h.mapped, Option.map_some],
    h.chunk hsrc hpage, ?_⟩
  constructor
  · exact h.mapped
  · exact h.size
  · exact hcount
  · have hsucc := Nat.add_one_mul k defaultBufferSize
    simp only [storeFinished, advance, h.size, hcount]
    split
    · simp only [true_iff]
      omega
    · rw [h.finished]
      omega

/-- `read` after the end of the file. -/
theorem AfterReads.read_finished (hsrc : src.length < 2 ^ 63)
    (hpage : defaultBufferSize < 2 ^ 63) (hreserve : allocates defaultBufferSize = true)
    (h : AfterReads src defaultBufferSize k reader)
    (hend : src.length ≤ k * defaultBufferSize) :
    reader.read allocates defaultBufferSize = some ([], reader) := by
  have hcount := h.readCount hsrc hpage
  have hoffset := h.offset
  have hfinished := h.finished.mpr hend
  have hsucc := Nat.add_one_mul k defaultBufferSize
  have hsame : reader.readCount defaultBufferSize = reader.currentOffset := by
    omega
  rw [MMapFileReader.read, if_pos hreserve, h.mapped, Option.map_some, h.chunk hsrc hpage,
    chunkAt_eq_nil hend]
  simp only [storeFinished, advance, hsame, hfinished, ite_self]
  rw [← hfinished]

/-- In no call does the copied range leave the file, or a sum wrap around. -/
theorem AfterReads.inRange (hsrc : src.length < 2 ^ 63)
    (hpage : defaultBufferSize < 2 ^ 63)
    (h : AfterReads src defaultBufferSize k reader) :
    SizeT.add reader.currentOffset defaultBufferSize =
        reader.currentOffset + defaultBufferSize ∧
      reader.currentOffset ≤ reader.readCount defaultBufferSize ∧
      reader.readCount defaultBufferSize ≤ src.length := by
  have hbound := h.bound
  have hcount := readCount_eq hsrc hpage h.size hbound
  refine ⟨SizeT.add_eq ?_, ?_, ?_⟩
  · unfold SizeT.modulus
    omega
  · omega
  · omega

/--
As long as the memory for a page can be reserved, repeating `read` until
`isReadFinished` takes as many calls as the file has pages and returns these pages;
every further call returns the empty chunk and changes nothing.  `allocates` says
which reservations succeed in which call.
-/
theorem reads_pages (src : List UInt8) (hne : 1 ≤ src.length)
    (hsrc : src.length < 2 ^ 63) (defaultBufferSize : Nat)
    (hpos : 1 ≤ defaultBufferSize) (hpage : defaultBufferSize < 2 ^ 63)
    (allocates : Nat -> Nat -> Bool)
    (hreserve : forall k, allocates k defaultBufferSize = true)
    (reader : MMapFileReader) (hopen : (new src).open' src = some reader) :
    exists chunks last,
      (forall fuel, callsUntil MMapFileReader.readFinished
          (fun k => MMapFileReader.read (allocates k) defaultBufferSize) 0 fuel reader =
        if src.length ⌈/⌉ defaultBufferSize ≤ fuel then some (chunks, last) else none) ∧
      chunks.length = src.length ⌈/⌉ defaultBufferSize ∧
      (forall c, c ∈ chunks.dropLast -> c.length = defaultBufferSize) ∧
      (forall c, chunks.getLast? = some c -> 1 ≤ c.length ∧ c.length ≤ defaultBufferSize) ∧
      chunks.flatten = src ∧
      (forall k, exists cs r,
        calls (fun k => MMapFileReader.read (allocates k) defaultBufferSize) 0 k reader =
            some (cs, r) ∧
          SizeT.add r.currentOffset defaultBufferSize =
            r.currentOffset + defaultBufferSize ∧
          r.currentOffset ≤ r.readCount defaultBufferSize ∧
          r.readCount defaultBufferSize ≤ src.length) ∧
      forall k, calls (fun k => MMapFileReader.read (allocates k) defaultBufferSize)
          (src.length ⌈/⌉ defaultBufferSize) k last =
        some (List.replicate k [], last) := by
  have hinit : AfterReads src defaultBufferSize 0 reader := AfterReads.opened hne hopen
  have hcall : CallsKeep (fun k => MMapFileReader.read (allocates k) defaultBufferSize)
      (AfterReads src defaultBufferSize) id (chunkAt defaultBufferSize src) :=
    fun k _ h => h.read hsrc hpage (hreserve k)
  have hstop : forall k r, AfterReads src defaultBufferSize k r ->
      (r.readFinished = true <-> src.length ⌈/⌉ defaultBufferSize ≤ k) := by
    intro k r h
    rw [h.finished, ceilDiv_le_iff_le_mul hpos, Nat.mul_comm]
  generalize hcount : src.length ⌈/⌉ defaultBufferSize = count at hstop
  have hmost : src.length ≤ count * defaultBufferSize := by
    rw [Nat.mul_comm]
    exact (ceilDiv_le_iff_le_mul hpos).mp (Nat.le_of_eq hcount)
  rcases calls_spec hcall count hinit with ⟨chunks, last, hcalls, hmap, hlast⟩
  rw [Nat.zero_add] at hlast
  have hchunks : chunks = (List.range count).map (chunkAt defaultBufferSize src) := by
    rw [List.range_eq_range', ← hmap, List.map_id]
  refine ⟨chunks, last, ?_, ?_, ?_, ?_, ?_, ?_, ?_⟩
  · intro fuel
    rw [callsUntil_eq_calls hcall hstop fuel (Nat.zero_le count) hinit, Nat.zero_add,
      Nat.sub_zero, hcalls]
  · rw [hchunks, List.length_map, List.length_range]
  · intro c hc
    rw [hchunks, ← hcount] at hc
    exact length_of_mem_dropLast hpos hc
  · intro c hc
    rw [hchunks, ← hcount] at hc
    exact length_of_getLast? hpos hc
  · rw [hchunks, flatten_chunkAt_all hpos src (Nat.le_of_eq hcount)]
  · intro k
    rcases calls_spec hcall k hinit with ⟨cs, r, hcs, _, hr⟩
    exact ⟨cs, r, hcs, hr.inRange hsrc hpage⟩
  · intro k
    exact calls_fixed (fun k => hlast.read_finished hsrc hpage (hreserve k) hmost) k count

/-- The addresses of a process end at `2 ^ 47`. -/
def belowAddressLimit (size : Nat) : Bool :=
  decide (size < 2 ^ 47)

/-- A file of five bytes read in pages of two. -/
theorem reads_pages_five :
    exists reader chunks last, (new [1, 2, 3, 4, 5]).open' [1, 2, 3, 4, 5] = some reader ∧
      callsUntil MMapFileReader.readFinished
          (fun _ => MMapFileReader.read belowAddressLimit 2) 0 3 reader =
        some (chunks, last) ∧ chunks.flatten = [1, 2, 3, 4, 5] := by
  rcases reads_pages [1, 2, 3, 4, 5] (by decide) (by decide) 2 (by decide) (by decide)
    (fun _ => belowAddressLimit) (fun _ => rfl) _ rfl with
    ⟨chunks, last, hloop, _, _, _, hflatten, _⟩
  have hcount : ([1, 2, 3, 4, 5] : List UInt8).length ⌈/⌉ 2 = 3 := rfl
  exact ⟨_, chunks, last, rfl, (hloop 3).trans (if_pos (Nat.le_of_eq hcount)), hflatten⟩

/-- A page of `2 ^ 62` bytes cannot be reserved, and a file of one byte is never read. -/
theorem reads_pages_unreserved :
    ¬ forall (src : List UInt8) (defaultBufferSize : Nat) (allocates : Nat -> Nat -> Bool)
      (reader : MMapFileReader), 1 ≤ src.length -> src.length < 2 ^ 63 ->
      1 ≤ defaultBufferSize -> defaultBufferSize < 2 ^ 63 ->
      (new src).open' src = some reader ->
      exists fuel chunks last, callsUntil MMapFileReader.readFinished
          (fun k => MMapFileReader.read (allocates k) defaultBufferSize) 0 fuel reader =
        some (chunks, last) := by
  intro h
  rcases h [1] (2 ^ 62) (fun _ => belowAddressLimit) _ (by decide) (by decide) (by decide)
    (by decide) rfl with ⟨fuel, chunks, last, hloop⟩
  cases fuel with
  | zero => cases hloop
  | succ fuel => cases hloop

end MMapFileReader
end Reader
end Ki
