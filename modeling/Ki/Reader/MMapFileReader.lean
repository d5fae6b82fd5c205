import Ki.Foundation.SizeT

/-!
# The memory-mapped reader

Translation of `src/reader/MMapFileReader.hpp`.  A chunk is a list of bytes;
`read` first reserves the memory for one and stores the offset and the flag in
separate steps.
-/

namespace Ki
namespace Reader

open Foundation

structure MMapFileReader where
  /-- the bytes behind the mapping, once the file is mapped -/
  mmappedFile : Option (List UInt8)
  fileSize : Nat
  currentOffset : Nat
  readFinished : Bool
deriving DecidableEq, Repr

namespace MMapFileReader

/-- The constructor captures the size of the source file. -/
def new (file : List UInt8) : MMapFileReader where
  mmappedFile := none
  fileSize := file.length
  currentOffset := 0
  readFinished := false

/-- `open`; a file of size 0 cannot be mapped. -/
def open' (reader : MMapFileReader) (file : List UInt8) : Option MMapFileReader :=
  if reader.fileSize = 0 then none
  else some { reader with
    mmappedFile := some file
    readFinished :=
      if reader.fileSize < reader.currentOffset then false
      else reader.readFinished }

/-- The end of the range one call of `read` copies. -/
def readCount (reader : MMapFileReader) (defaultBufferSize : Nat) : Nat :=
  min (SizeT.add reader.currentOffset defaultBufferSize) reader.fileSize

/-- The chunk `read` copies out of the mapping. -/
def chunk (reader : MMapFileReader) (defaultBufferSize : Nat)
    (mapped : List UInt8) : List UInt8 :=
  (mapped.drop reader.currentOffset).take
    (reader.readCount defaultBufferSize - reader.currentOffset)

/-- The reader after the copy. -/
def advance (reader : MMapFileReader) (defaultBufferSize : Nat) : MMapFileReader :=
  { reader with currentOffset := reader.readCount defaultBufferSize }

/-- The last step of `read`. -/
def storeFinished (reader : MMapFileReader) : MMapFileReader :=
  { reader with
    readFinished :=
      if reader.fileSize ≤ reader.currentOffset then true
      else reader.readFinished }

/--
One call of `read`: the chunk and the reader after it.  `allocates` says for which
sizes `reserve` gets its memory; `none` stands for its exception.
-/
def read (allocates : Nat -> Bool) (defaultBufferSize : Nat) (reader : MMapFileReader) :
    Option (List UInt8 × MMapFileReader) :=
  if allocates defaultBufferSize then
    reader.mmappedFile.map fun mapped =>
      (reader.chunk defaultBufferSize mapped,
        (reader.advance defaultBufferSize).storeFinished)
  else none

def finishRead (reader : MMapFileReader) : MMapFileReader :=
  { reader with mmappedFile := none, readFinished := true }

variable {reader : MMapFileReader} {src : List UInt8} {defaultBufferSize : Nat}

theorem readCount_eq (hsrc : src.length < 2 ^ 63)
    (hpage : defaultBufferSize < 2 ^ 63) (hsize : reader.fileSize = src.length)
    (hbound : reader.currentOffset ≤ src.length) :
    reader.readCount defaultBufferSize =
      min (reader.currentOffset + defaultBufferSize) src.length := by
  have hsum : SizeT.add reader.currentOffset defaultBufferSize =
      reader.currentOffset + defaultBufferSize :=
    SizeT.add_eq (by unfold SizeT.modulus; omega)
  rw [readCount, hsum, hsize]

/-- A chunk continues the part of the source that has been read. -/
theorem take_append_chunk (hsrc : src.length < 2 ^ 63)
    (hpage : defaultBufferSize < 2 ^ 63) (hsize : reader.fileSize = src.length)
    (hbound : reader.currentOffset ≤ src.length) :
    src.take reader.currentOffset ++ reader.chunk defaultBufferSize src =
      src.take (reader.readCount defaultBufferSize) := by
  have hcount := readCount_eq hsrc hpage hsize hbound
  rw [chunk, ← List.take_add]
  congr 1
  omega

end MMapFileReader
end Reader
end Ki
