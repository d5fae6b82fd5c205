import Ki.Queue.FixedBufferQueue

/-!
# The standard streams of the copy tools

What `setvbuf`, `fgetc` and `fseek` do to a stream that is read through an
installed buffer: `fgetc` finds the buffer empty and loads it from the file at
the current position.  A stream that is written passes its bytes from the
stdio buffer to the cache of the operating system and from there to the disk.
-/

namespace Ki
namespace Stdio

open Queue

/--
The outcome of the stdio calls made in one step: whether a call whose result is
checked fails, how many bytes `fgetc` and `fwrite` fall short of what they are
asked for, and how many bytes `fwrite` leaves in the stdio buffer.
-/
structure Io where
  fails : Bool
  shortRead : Nat
  shortWrite : Nat
  kept : Nat
deriving DecidableEq, Repr

/-- Every call succeeds and transfers all it is asked for. -/
def Io.Succeeds (io : Io) : Prop :=
  io.fails = false ∧ io.shortRead = 0 ∧ io.shortWrite = 0

instance (io : Io) : Decidable io.Succeeds :=
  inferInstanceAs (Decidable (_ ∧ _))

def Io.success : Io where
  fails := false
  shortRead := 0
  shortWrite := 0
  kept := 0

theorem Io.success_succeeds : Io.success.Succeeds := by
  decide

/-- An open input stream; `buffer` points to the array installed by `setvbuf`. -/
structure FILE where
  contents : List UInt8
  position : Nat
  buffer : Option Nat
deriving DecidableEq, Repr

namespace FILE

def fopen (contents : List UInt8) : FILE where
  contents := contents
  position := 0
  buffer := none

def setvbuf (f : FILE) (data : Nat) : FILE :=
  { f with buffer := some data }

/-- The bytes one refill of the buffer asks for. -/
def wanted (f : FILE) : List UInt8 :=
  (f.contents.drop f.position).take bufferSize

/-- The bytes one refill of the buffer brings in. -/
def load (f : FILE) (io : Io) : List UInt8 :=
  f.wanted.take (f.wanted.length - io.shortRead)

/-- The arrays after `fgetc` has refilled the installed one. -/
def fgetcBuffers (f : FILE) (io : Io) (buffers : Nat -> List UInt8) :
    Nat -> List UInt8 :=
  match f.buffer with
  | none => buffers
  | some data =>
      Function.update buffers data
        (f.load io ++ (buffers data).drop (f.load io).length)

/-- `fgetc` takes one byte, unless it hits the end of the file. -/
def fgetc (f : FILE) (io : Io) : FILE :=
  { f with position := if (f.load io).isEmpty then f.position else f.position + 1 }

/-- `fseek` relative to the current position. -/
def fseek (f : FILE) (offset : Nat) : FILE :=
  { f with position := f.position + offset }

theorem load_of_succeeds (f : FILE) {io : Io} (hio : io.Succeeds) :
    f.load io = f.wanted := by
  rw [load, hio.right.left, Nat.sub_zero, List.take_length]

theorem wanted_length (f : FILE) :
    f.wanted.length = min bufferSize (f.contents.length - f.position) := by
  simp [wanted]

end FILE

/-- An open output stream. -/
structure OutFILE where
  /-- the bytes in the stdio buffer -/
  buffer : List UInt8
  cache : List UInt8
  disk : List UInt8
deriving DecidableEq, Repr

namespace OutFILE

/-- `fopen` with mode `wb` truncates the file. -/
def fopen : OutFILE where
  buffer := []
  cache := []
  disk := []

/-- All the bytes the stream has taken, in order. -/
def written (f : OutFILE) : List UInt8 :=
  f.disk ++ f.cache ++ f.buffer

/-- `fwrite` may leave any tail shorter than the stdio buffer in it. -/
def fwrite (f : OutFILE) (bytes : List UInt8) (io : Io) : OutFILE :=
  let pending := f.buffer ++ bytes.take (bytes.length - io.shortWrite)
  let passed := pending.length - min io.kept (bufferSize - 1)
  { f with
    cache := f.cache ++ pending.take passed
    buffer := pending.drop passed }

/-- `fsync` moves what is in the cache to the disk; it knows nothing of the stdio buffer. -/
def fsync (f : OutFILE) : OutFILE :=
  { f with cache := [], disk := f.disk ++ f.cache }

/-- `fclose` flushes the stdio buffer to the cache. -/
def fclose (f : OutFILE) : OutFILE :=
  { f with buffer := [], cache := f.cache ++ f.buffer }

/-- Closed after the `fsync`, a file is on the disk but for what was in the stdio buffer. -/
theorem fclose_fsync_disk_iff (f : OutFILE) :
    f.fsync.fclose.disk = f.written <-> f.buffer = [] := by
  exact List.self_eq_append_right

theorem fwrite_written (f : OutFILE) (bytes : List UInt8) {io : Io}
    (hio : io.Succeeds) : (f.fwrite bytes io).written = f.written ++ bytes := by
  simp only [written, fwrite, hio.right.right, Nat.sub_zero, List.take_length]
  rw [List.append_assoc, List.append_assoc, List.take_append_drop]
  simp

end OutFILE
end Stdio
end Ki
