import Ki.Writer.MMapFileWriter

/-!
# Sequences of writes to the memory-mapped writer

A writer that has been created is given one chunk after another; the caller goes
on after a `write` that throws.  The chunks accepted so far are the part of the
file before `currentOffset`.
-/

namespace Ki
namespace Writer

open Foundation

theorem copyTo_append {accepted old buf : List UInt8} :
    copyTo (accepted ++ old.drop accepted.length) accepted.length buf =
      (accepted ++ buf) ++ old.drop (accepted ++ buf).length := by
  rw [copyTo, List.take_left, ← List.drop_drop, List.drop_left, List.drop_drop,
    List.length_append]

/-!
# A chunk that is being stored
-/

section PartlyStored

variable {src resized buf file' : List UInt8} {offset : Nat}

/-- The next chunk of the source is stored. -/
theorem copyTo_take_append_drop (resized : List UInt8) (hoffset : offset ≤ src.length)
    (hbuf : src.take offset ++ buf = src.take (offset + buf.length)) :
    copyTo (src.take offset ++ resized.drop offset) offset buf =
      src.take (offset + buf.length) ++ resized.drop (offset + buf.length) := by
  have hlength : (src.take offset).length = offset := by
    rw [List.length_take, Nat.min_eq_left hoffset]
  have hstored : copyTo (src.take offset ++ resized.drop (src.take offset).length)
      (src.take offset).length buf = _ := copyTo_append
  rwa [List.length_append, hlength, hbuf] at hstored

theorem getElem?_take_append_drop {i : Nat} (hoffset : offset ≤ src.length) :
    (src.take offset ++ resized.drop offset)[i]? =
      if i < offset then src[i]? else resized[i]? := by
  have hlength : (src.take offset).length = offset := by
    rw [List.length_take, Nat.min_eq_left hoffset]
  by_cases hi : i < offset
  · rw [if_pos hi, List.getElem?_append_left (by omega), List.getElem?_take_of_lt hi]
  · rw [if_neg hi, List.getElem?_append_right (by omega), List.getElem?_drop, hlength,
      Nat.add_sub_cancel' (Nat.not_lt.mp hi)]

/--
The file is the source before an offset and the resized earlier content behind a range
that starts there; within the range stands at every place the byte of one of them.
-/
structure Overwritten (src resized : List UInt8) (offset size : Nat)
    (file : List UInt8) : Prop where
  length : file.length = src.length
  before : file.take offset = src.take offset
  within : forall i : Nat, file[i]? = src[i]? ∨ file[i]? = resized[i]?
  after : file.drop (offset + size) = resized.drop (offset + size)

/-- While the next chunk of the source is stored. -/
theorem PartlyStored.overwritten (hresized : resized.length = src.length)
    (hbound : offset + buf.length ≤ src.length)
    (hbuf : src.take offset ++ buf = src.take (offset + buf.length))
    (h : PartlyStored (src.take offset ++ resized.drop offset) offset buf file') :
    Overwritten src resized offset buf.length file' := by
  have hoffset : offset ≤ src.length := Nat.le_trans (Nat.le_add_right _ _) hbound
  -- the byte at a place is the one of the file before the chunk or after it
  have hbyte : forall i : Nat, file'[i]? =
      (if i < offset then src[i]? else resized[i]?) ∨ file'[i]? =
        if i < offset + buf.length then src[i]? else resized[i]? := by
    intro i
    have hboth := h.byte i
    rwa [copyTo_take_append_drop resized hoffset hbuf, getElem?_take_append_drop hoffset,
      getElem?_take_append_drop hbound] at hboth
  constructor
  · rw [h.length, List.length_append, List.length_drop, List.length_take]
    omega
  · apply List.ext_getElem?
    intro i
    rw [List.getElem?_take, List.getElem?_take]
    by_cases hi : i < offset
    · have hfirst : i < offset + buf.length := Nat.lt_add_right _ hi
      simpa [hi, hfirst] using hbyte i
    · simp [hi]
  · intro i
    have hboth := hbyte i
    split at hboth <;> split at hboth
    · exact Or.inl (hboth.elim id id)
    · exact hboth
    · exact hboth.symm
    · exact Or.inr (hboth.elim id id)
  · apply List.ext_getElem?
    intro i
    have hpast : ¬ offset + buf.length + i < offset := by omega
    have hlast : ¬ offset + buf.length + i < offset + buf.length := by omega
    rw [List.getElem?_drop, List.getElem?_drop]
    simpa [hpast, hlast] using hbyte (offset + buf.length + i)

end PartlyStored

namespace MMapFileWriter

/-- A call of `write`, whether it throws, and the writer after it. -/
def tryWrite (writer : MMapFileWriter) (buf : List UInt8) : Bool × MMapFileWriter :=
  match (write buf).run writer with
  | .error _ writer' => (true, writer')
  | .ok _ writer' => (false, writer')

theorem tryWrite_eq (writer : MMapFileWriter) (buf : List UInt8) :
    writer.tryWrite buf =
      if writer.fileSize < SizeT.add writer.currentOffset buf.length then (true, writer)
      else (false, { writer with
        file := writer.file.map fun file => copyTo file writer.currentOffset buf
        currentOffset := SizeT.add writer.currentOffset buf.length }) := by
  rw [tryWrite, write_run]
  by_cases hmore : writer.fileSize < SizeT.add writer.currentOffset buf.length
  · rw [if_pos hmore, if_pos hmore]
  · rw [if_neg hmore, if_neg hmore]

/-- The chunks accepted of those passed to `write` one after another, and the writer in the end. -/
def tryWrites (writer : MMapFileWriter) :
    List (List UInt8) -> List (List UInt8) × MMapFileWriter
  | [] => ([], writer)
  | buf :: rest =>
      let call := writer.tryWrite buf
      let later := call.2.tryWrites rest
      (if call.1 then later.1 else buf :: later.1, later.2)

theorem tryWrites_concat (writer : MMapFileWriter) (chunks : List (List UInt8))
    (buf : List UInt8) :
    writer.tryWrites (chunks ++ [buf]) =
      let before := writer.tryWrites chunks
      let call := before.2.tryWrite buf
      (if call.1 then before.1 else before.1 ++ [buf], call.2) := by
  induction chunks generalizing writer with
  | nil => rfl
  | cons chunk rest ih =>
      simp only [List.cons_append, tryWrites, ih]
      split <;> split <;> rfl

/-- The writer that has accepted these bytes since `create`. -/
structure Accepted (old : List UInt8) (fileSize : Nat) (accepted : List UInt8)
    (writer : MMapFileWriter) : Prop where
  size : writer.fileSize = fileSize
  offset : writer.currentOffset = accepted.length
  bound : accepted.length ≤ fileSize
  file : writer.file = some (accepted ++ (ftruncate old fileSize).drop accepted.length)

variable {old accepted buf : List UInt8} {fileSize : Nat} {writer : MMapFileWriter}

theorem Accepted.created {file : Option (List UInt8)}
    (hcreate : (new file fileSize).create = some writer) :
    Accepted (file.getD []) fileSize [] writer := by
  unfold create mmap at hcreate
  split at hcreate
  · cases hcreate
  · cases hcreate
    exact ⟨rfl, rfl, Nat.zero_le _, rfl⟩

theorem Accepted.add_eq (hsize : fileSize < 2 ^ 63) (hbuf : buf.length < 2 ^ 63)
    (h : Accepted old fileSize accepted writer) :
    SizeT.add writer.currentOffset buf.length = writer.currentOffset + buf.length := by
  have hoffset := h.offset
  have hbound := h.bound
  apply SizeT.add_eq
  unfold SizeT.modulus
  omega

theorem Accepted.throws_iff (hsize : fileSize < 2 ^ 63) (hbuf : buf.length < 2 ^ 63)
    (h : Accepted old fileSize accepted writer) :
    (writer.tryWrite buf).1 = true <-> fileSize < accepted.length + buf.length := by
  rw [tryWrite_eq, h.add_eq hsize hbuf, h.size, h.offset]
  split <;> simp_all

/-- A `write` that throws has changed nothing. -/
theorem Accepted.throws (hthrows : (writer.tryWrite buf).1 = true) :
    (writer.tryWrite buf).2 = writer := by
  rw [tryWrite_eq] at hthrows ⊢
  split <;> simp_all

theorem Accepted.file_length (h : Accepted old fileSize accepted writer) {file : List UInt8}
    (hfile : writer.file = some file) : file.length = fileSize := by
  have hbound := h.bound
  rw [h.file] at hfile
  cases hfile
  rw [List.length_append, List.length_drop, ftruncate_length]
  omega

theorem Accepted.write (hsize : fileSize < 2 ^ 63) (hbuf : buf.length < 2 ^ 63)
    (h : Accepted old fileSize accepted writer)
    (haccepts : (writer.tryWrite buf).1 = false) :
    Accepted old fileSize (accepted ++ buf) (writer.tryWrite buf).2 := by
  have hfits : ¬ fileSize < accepted.length + buf.length := by
    rw [← h.throws_iff hsize hbuf, haccepts]
    simp
  have hwrite : (writer.tryWrite buf).2 = { writer with
      file := writer.file.map fun file => copyTo file writer.currentOffset buf
      currentOffset := writer.currentOffset + buf.length } := by
    rw [tryWrite_eq, h.add_eq hsize hbuf, h.size, h.offset, if_neg hfits]
  rw [hwrite]
  constructor
  · exact h.size
  · rw [h.offset, List.length_append]
  · rw [List.length_append]
    omega
  · rw [h.file, h.offset, Option.map_some, copyTo_append]

theorem Accepted.writes (hsize : fileSize < 2 ^ 63) {chunks : List (List UInt8)}
    (hchunks : forall buf, buf ∈ chunks -> buf.length < 2 ^ 63)
    (h : Accepted old fileSize accepted writer) :
    Accepted old fileSize (accepted ++ (writer.tryWrites chunks).1.flatten)
      (writer.tryWrites chunks).2 := by
  induction chunks generalizing writer accepted with
  | nil => simpa [tryWrites] using h
  | cons buf rest ih =>
      have hbuf := hchunks buf (List.mem_cons_self)
      have hrest : forall b, b ∈ rest -> b.length < 2 ^ 63 :=
        fun b hb => hchunks b (List.mem_cons_of_mem _ hb)
      cases hthrows : (writer.tryWrite buf).1 with
      | true =>
          have hsame := Accepted.throws hthrows
          simp only [tryWrites, hthrows, hsame, if_true]
          exact ih hrest h
      | false =>
          have hnext := ih hrest (h.write hsize hbuf hthrows)
          simpa [tryWrites, hthrows] using hnext

/--
Of any sequence of chunks those are accepted that still fit into the declared
size; the file is what has been accepted, followed by the rest of the old
content, and a `write` that throws changes nothing.
-/
theorem writes_what_fits (file : Option (List UInt8)) (fileSize : Nat)
    (hpos : 1 ≤ fileSize) (hsize : fileSize < 2 ^ 63) (chunks : List (List UInt8))
    (hchunks : forall buf, buf ∈ chunks -> buf.length < 2 ^ 63) :
    exists created accepted writer, (new file fileSize).create = some created ∧
      created.tryWrites chunks = (accepted, writer) ∧
      writer.currentOffset = accepted.flatten.length ∧
      writer.file = some (accepted.flatten ++
        (ftruncate (file.getD []) fileSize).drop accepted.flatten.length) ∧
      forall buf, buf.length < 2 ^ 63 ->
        SizeT.add writer.currentOffset buf.length = writer.currentOffset + buf.length ∧
        ((writer.tryWrite buf).1 = true <->
          fileSize < accepted.flatten.length + buf.length) ∧
        ((writer.tryWrite buf).1 = true ->
          created.tryWrites (chunks ++ [buf]) = (accepted, writer)) ∧
        ((writer.tryWrite buf).1 = false ->
          created.tryWrites (chunks ++ [buf]) =
              (accepted ++ [buf], (writer.tryWrite buf).2) ∧
            writer.currentOffset + buf.length ≤ fileSize ∧
            forall f, (writer.tryWrite buf).2.file = some f -> f.length = fileSize) := by
  have hne : (new file fileSize).fileSize ≠ 0 := Nat.ne_of_gt hpos
  rcases Option.isSome_iff_exists.mp
    (show (new file fileSize).create.isSome = true by
      simp [create, mmap, resize, openFile, hne]) with
    ⟨created, hcreate⟩
  have haccepted := (Accepted.created hcreate).writes hsize hchunks
  rw [List.nil_append] at haccepted
  refine ⟨created, _, _, hcreate, rfl, haccepted.offset, haccepted.file, ?_⟩
  intro buf hbuf
  refine ⟨haccepted.add_eq hsize hbuf, haccepted.throws_iff hsize hbuf, ?_, ?_⟩
  · intro hthrows
    rw [tryWrites_concat]
    simp only [hthrows, Accepted.throws hthrows, if_true]
  · intro haccepts
    have hfits := mt (haccepted.throws_iff hsize hbuf).mpr (by simp [haccepts])
    refine ⟨?_, ?_, ?_⟩
    · rw [tryWrites_concat]
      simp [haccepts]
    · rw [haccepted.offset]
      omega
    · intro f hf
      exact (haccepted.write hsize hbuf haccepts).file_length hf

/-- Three bytes do not fit behind two into four; one byte after them does. -/
theorem writes_what_fits_smallerLater :
    exists created accepted writer, (new (some [9, 9, 9, 9, 9]) 4).create = some created ∧
      created.tryWrites [[1, 2], [3, 4, 5], [6]] = (accepted, writer) ∧
      accepted = [[1, 2], [6]] ∧ writer.file = some [1, 2, 6, 9] := by
  rcases writes_what_fits (some [9, 9, 9, 9, 9]) 4 (by decide) (by decide)
    [[1, 2], [3, 4, 5], [6]] (by decide) with
    ⟨created, accepted, writer, hcreate, hwrites, _, hfile, _⟩
  cases hcreate
  cases hwrites
  exact ⟨_, _, _, rfl, rfl, rfl, hfile⟩

end MMapFileWriter
end Writer
end Ki
