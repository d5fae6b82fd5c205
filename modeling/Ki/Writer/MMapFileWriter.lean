import Ki.Foundation.SizeT
import Mathlib.Data.List.Basic

/-!
# The memory-mapped writer

Translation of `src/writer/MMapFileWriter.hpp`.  The mapping is shared, so what
is stored in it is the content of the destination file.
-/

namespace Ki
namespace Writer

open Foundation

structure MMapFileWriter where
  /-- the content of the destination, unless it does not exist -/
  file : Option (List UInt8)
  fileSize : Nat
  mmappedFile : Bool
  currentOffset : Nat
  writeFinished : Bool
deriving DecidableEq, Repr

/-- `ftruncate`: cut the file, or extend it with zeros. -/
def ftruncate (file : List UInt8) (size : Nat) : List UInt8 :=
  file.take size ++ List.replicate (size - file.length) 0

/-- `std::copy` of a chunk to an offset of the mapping. -/
def copyTo (file : List UInt8) (offset : Nat) (buf : List UInt8) : List UInt8 :=
  file.take offset ++ buf ++ file.drop (offset + buf.length)

theorem ftruncate_length (file : List UInt8) (size : Nat) :
    (ftruncate file size).length = size := by
  simp only [ftruncate, List.length_append, List.length_take,
    List.length_replicate]
  omega

theorem copyTo_length {file : List UInt8} {offset : Nat} {buf : List UInt8}
    (h : offset + buf.length ≤ file.length) :
    (copyTo file offset buf).length = file.length := by
  simp only [copyTo, List.length_append, List.length_take, List.length_drop]
  omega

theorem take_copyTo {file : List UInt8} {offset : Nat} {buf : List UInt8}
    (h : offset ≤ file.length) :
    (copyTo file offset buf).take (offset + buf.length) =
      file.take offset ++ buf := by
  have hlength : (file.take offset ++ buf).length = offset + buf.length := by
    rw [List.length_append, List.length_take, Nat.min_eq_left h]
  rw [copyTo, ← hlength, List.take_left]

/--
What a file may hold while `std::copy` stores a chunk at an offset of it: each byte is
the old one or the new one.
-/
structure PartlyStored (file : List UInt8) (offset : Nat) (buf file' : List UInt8) : Prop where
  length : file'.length = file.length
  byte : forall i : Nat, file'[i]? = file[i]? ∨ file'[i]? = (copyTo file offset buf)[i]?

namespace MMapFileWriter

def new (file : Option (List UInt8)) (fileSize : Nat) : MMapFileWriter where
  file := file
  fileSize := fileSize
  mmappedFile := false
  currentOffset := 0
  writeFinished := false

/-- `open` in `create`: with `O_CREAT` a destination that is missing is created empty. -/
def openFile (writer : MMapFileWriter) : MMapFileWriter :=
  { writer with file := some (writer.file.getD []) }

/-- `ftruncate` in `create`. -/
def resize (writer : MMapFileWriter) : MMapFileWriter :=
  { writer with file := writer.file.map fun file => ftruncate file writer.fileSize }

/-- `mmap` in `create`; a file of size 0 cannot be mapped. -/
def mmap (writer : MMapFileWriter) : Option MMapFileWriter :=
  if writer.fileSize = 0 then none
  else some { writer with mmappedFile := true }

def create (writer : MMapFileWriter) : Option MMapFileWriter :=
  writer.openFile.resize.mmap

/-- `write`; the test comes before anything is stored. -/
def write (buf : List UInt8) : EStateM String MMapFileWriter Unit := do
  let writer <- get
  if writer.fileSize < SizeT.add writer.currentOffset buf.length then
    throw "Writer: writing more than expected"
  modify fun writer => { writer with
    file := writer.file.map fun file => copyTo file writer.currentOffset buf }
  modify fun writer => { writer with
    currentOffset := SizeT.add writer.currentOffset buf.length }

def finishWrite (writer : MMapFileWriter) : MMapFileWriter :=
  if writer.mmappedFile then
    { writer with mmappedFile := false, writeFinished := true }
  else writer

theorem write_run (writer : MMapFileWriter) (buf : List UInt8) :
    (write buf).run writer =
      if writer.fileSize < SizeT.add writer.currentOffset buf.length then
        .error "Writer: writing more than expected" writer
      else
        .ok () { writer with
          file := writer.file.map fun file => copyTo file writer.currentOffset buf
          currentOffset := SizeT.add writer.currentOffset buf.length } := by
  show (ite (writer.fileSize < SizeT.add writer.currentOffset buf.length) _ _ :
    EStateM String MMapFileWriter Unit) writer = _
  by_cases hmore : writer.fileSize < SizeT.add writer.currentOffset buf.length
  · rw [if_pos hmore, if_pos hmore]
    rfl
  · rw [if_neg hmore, if_neg hmore]
    rfl

end MMapFileWriter
end Writer
end Ki
