import Ki.Foundation.SizeT
import Ki.Queue.EmptyPop
import Ki.Stdio.Streams

/-!
# The buffered reader

Translation of `src/reader/BufferedFileReader.hpp`.  `read` is given as a
function of the reading thread's program point, one call for each step that
another thread can observe.
-/

namespace Ki
namespace Reader

open Foundation
open Queue
open FixedBufferQueue
open Clients
open Stdio

structure BufferedReader where
  fileDesc : Option FILE
  fileSize : Nat
  currentOffset : Nat
  readFinished : Bool
deriving DecidableEq, Repr

namespace BufferedReader

/-- The constructor captures the size of the source file. -/
def new (file : List UInt8) : BufferedReader where
  fileDesc := none
  fileSize := file.length
  currentOffset := 0
  readFinished := false

/-- `open` on a source file that can be opened. -/
def open' (reader : BufferedReader) (file : List UInt8) : BufferedReader :=
  { reader with
    fileDesc := some (FILE.fopen file)
    readFinished :=
      if reader.fileSize < reader.currentOffset then false
      else reader.readFinished }

/-- The amount of bytes `read` stores in the buffer. -/
def bytesUsed (reader : BufferedReader) : Nat :=
  if SizeT.add reader.currentOffset bufferSize ≤ reader.fileSize then bufferSize
  else SizeT.sub reader.fileSize reader.currentOffset

def readCount (reader : BufferedReader) : Nat :=
  min (SizeT.add reader.currentOffset bufferSize) reader.fileSize

/-- The reader after `fgetc` and, before the last chunk, `fseek`. -/
def afterFgetc (reader : BufferedReader) (file : FILE) (io : Io) : BufferedReader :=
  { reader with
    currentOffset := reader.readCount
    fileDesc := some (if reader.readCount < reader.fileSize then
      (file.fgetc io).fseek (bufferSize - 1) else file.fgetc io) }

/-- Program points of a thread inside `read`. -/
inductive ReadPc where
  | getFreeBuffer (pc : GetPc)
  /-- a free buffer is in hand: about to fill it through the stream -/
  | fill (buf : Buffer)
  | storeFinished (buf : Buffer)
  | finishRead (buf : Buffer)
  | returnBuffer (buf : Buffer)
  | notifyAll
  /-- stopped: an empty deque was popped -/
  | popEmpty
deriving DecidableEq, Repr

inductive ReadResult where
  | next (pc : ReadPc)
  | done
  /-- an exception leaves `read`; the buffer in hand is lost -/
  | threw (held : List Buffer)
deriving DecidableEq, Repr

/-- `value()` throws on `nullopt`. -/
def afterGetFreeBuffer : GetResult -> ReadResult
  | .next pc => .next (.getFreeBuffer pc)
  | .nullopt => .threw []
  | .buffer buf => .next (.fill buf)
  | .popEmpty => .next .popEmpty

section Step

variable {ι : Type} [DecidableEq ι]

/-- One step of thread `me` inside `read`; `none` while it is blocked. -/
def readStep (me : ι) (io : Io) (reader : BufferedReader)
    (q : FixedBufferQueue ι) :
    ReadPc -> Option (ReadResult × BufferedReader × FixedBufferQueue ι)
  | .getFreeBuffer pc =>
      (q.getFreeBuffer me pc).map fun got =>
        (afterGetFreeBuffer got.1, reader, got.2)
  | .fill buf =>
      match reader.fileDesc with
      | none => none
      | some file =>
          if io.fails then some (.threw [buf], reader, q)
          else
            let filled := { buf with bytesUsed := reader.bytesUsed }
            some
              (.next (if reader.readCount < reader.fileSize then
                .returnBuffer filled else .storeFinished filled),
                reader.afterFgetc (file.setvbuf buf.data) io,
                { q with buffers :=
                    (file.setvbuf buf.data).fgetcBuffers io q.buffers })
  | .storeFinished buf =>
      some (.next (.finishRead buf), { reader with readFinished := true }, q)
  | .finishRead buf =>
      q.finishRead.map fun q' => (.next (.returnBuffer buf), reader, q')
  | .returnBuffer buf =>
      (q.returnBuffer buf).map fun q' => (.next .notifyAll, reader, q')
  | .notifyAll => some (.done, reader, q.notifyAll)
  | .popEmpty => none

/-- The cases of `readStep`, guards included. -/
inductive ReadStep (me : ι) (io : Io) (reader : BufferedReader)
    (q : FixedBufferQueue ι) :
    ReadPc -> ReadResult -> BufferedReader -> FixedBufferQueue ι -> Prop where
  | getFreeBuffer {pc : GetPc} {r : GetResult} {q' : FixedBufferQueue ι}
      (hget : q.getStep .read me pc = some (r, q')) :
      ReadStep me io reader q (.getFreeBuffer pc) (afterGetFreeBuffer r) reader q'
  | setvbufFails (buf : Buffer) (hfails : io.fails = true) :
      ReadStep me io reader q (.fill buf) (.threw [buf]) reader q
  | fill {buf : Buffer} {file : FILE} (hopen : reader.fileDesc = some file)
      (hok : io.fails = false) :
      ReadStep me io reader q (.fill buf)
        (.next (if reader.readCount < reader.fileSize then
          .returnBuffer { buf with bytesUsed := reader.bytesUsed }
          else .storeFinished { buf with bytesUsed := reader.bytesUsed }))
        (reader.afterFgetc (file.setvbuf buf.data) io)
        { q with buffers := (file.setvbuf buf.data).fgetcBuffers io q.buffers }
  | storeFinished (buf : Buffer) :
      ReadStep me io reader q (.storeFinished buf) (.next (.finishRead buf))
        { reader with readFinished := true } q
  | finishRead (buf : Buffer) (hfree : q.queueMutex = none) :
      ReadStep me io reader q (.finishRead buf) (.next (.returnBuffer buf))
        reader { q with isReadFinished_ := true }
  | returnBuffer {buf : Buffer} {q' : FixedBufferQueue ι}
      (hreturn : q.returnBuffer buf = some q') :
      ReadStep me io reader q (.returnBuffer buf) (.next .notifyAll) reader q'
  | notifyAll : ReadStep me io reader q .notifyAll .done reader q.notifyAll

theorem readStep_cases {me : ι} {io : Io} {reader reader' : BufferedReader}
    {q q' : FixedBufferQueue ι} {pc : ReadPc} {r : ReadResult}
    (h : reader.readStep me io q pc = some (r, reader', q')) :
    ReadStep me io reader q pc r reader' q' := by
  cases pc with
  | getFreeBuffer pc =>
      rcases Option.map_eq_some_iff.mp h with ⟨⟨got, q''⟩, hget, heq⟩
      cases heq
      exact ReadStep.getFreeBuffer hget
  | fill buf =>
      rw [readStep] at h
      cases hopen : reader.fileDesc with
      | none =>
          rw [hopen] at h
          cases h
      | some file =>
          rw [hopen] at h
          by_cases hfails : io.fails = true
          · simp only [hfails, if_true] at h
            cases h
            exact ReadStep.setvbufFails buf hfails
          · simp only [hfails] at h
            cases h
            exact ReadStep.fill hopen (by simpa using hfails)
  | storeFinished buf =>
      cases h
      exact ReadStep.storeFinished buf
  | finishRead buf =>
      rcases Option.map_eq_some_iff.mp h with ⟨q'', hfinish, heq⟩
      cases heq
      rcases finishRead_cases hfinish with ⟨hfree, rfl⟩
      exact ReadStep.finishRead buf hfree
  | returnBuffer buf =>
      rcases Option.map_eq_some_iff.mp h with ⟨q'', hreturn, heq⟩
      cases heq
      exact ReadStep.returnBuffer hreturn
  | notifyAll =>
      cases h
      exact ReadStep.notifyAll
  | popEmpty => cases h

end Step

/-!
# The reading thread as a client of the queue
-/

def ReadPc.client : ReadPc -> Client
  | .getFreeBuffer pc => { call := .get .read pc, held := [] }
  | .fill buf => { call := .idle, held := [buf] }
  | .storeFinished buf => { call := .idle, held := [buf] }
  | .finishRead buf => { call := .idle, held := [buf] }
  | .returnBuffer buf => { call := .idle, held := [buf] }
  | .notifyAll => { call := .notify, held := [] }
  | .popEmpty => { call := .popEmpty, held := [] }

def ReadResult.client : ReadResult -> Client
  | .next pc => pc.client
  | .done => { call := .idle, held := [] }
  | .threw held => { call := .idle, held := held }

/-- What a step of `read` adds to the history of the producers. -/
def ReadPc.returned {ι : Type} (q : FixedBufferQueue ι) : ReadPc -> List Payload
  | .getFreeBuffer _ => []
  | .fill _ => []
  | .storeFinished _ => []
  | .finishRead _ => []
  | .returnBuffer buf => returnedBy q buf
  | .notifyAll => []
  | .popEmpty => []

/-- The buffer in the reader's hands was taken for reading. -/
def ReadPc.Typed (pc : ReadPc) : Prop :=
  forall buf, buf ∈ pc.client.held -> buf.bufferType = .read

/-- Program point after a step of `read`; `none` outside of it. -/
def ReadResult.pc : ReadResult -> Option ReadPc
  | .next pc => some pc
  | .done => none
  | .threw _ => none

/-- The file is open, and so the thread can go on inside `read`. -/
structure Ready (reader : BufferedReader) (pc : Option ReadPc) : Prop where
  isOpen : reader.fileDesc ≠ none
  typed : forall p, pc = some p -> p.Typed

theorem Ready.outside {reader : BufferedReader} (h : reader.fileDesc ≠ none) :
    Ready reader none where
  isOpen := h
  typed := by
    intro p hp
    cases hp

/-- A thread that enters `read`. -/
theorem Ready.enter {reader : BufferedReader} {pc : Option ReadPc}
    (h : Ready reader pc) : Ready reader (some (.getFreeBuffer .lock)) where
  isOpen := h.isOpen
  typed := by
    intro p hp b hb
    cases hp
    cases hb

theorem readStep_typed {ι : Type} [DecidableEq ι] {me : ι} {io : Io}
    {reader reader' : BufferedReader} {q q' : FixedBufferQueue ι}
    {pc pc' : ReadPc} (h : pc.Typed)
    (hstep : reader.readStep me io q pc = some (.next pc', reader', q')) :
    pc'.Typed := by
  generalize hr : ReadResult.next pc' = r at hstep
  cases readStep_cases hstep with
  | @getFreeBuffer gpc got _ hget =>
      intro b hb
      cases getStep_cases hget with
      | take hpop =>
          cases hr
          rcases List.mem_singleton.mp hb with rfl
          rfl
      | nullopt hempty hclosed => cases hr
      | _ =>
          cases hr
          cases hb
  | setvbufFails buf hfails => cases hr
  | @fill buf file hopen hok =>
      intro b hb
      have htype : buf.bufferType = .read := h buf (by simp [ReadPc.client])
      have hdata : b = { buf with bytesUsed := reader.bytesUsed } := by
        cases hr
        split at hb <;> simpa [ReadPc.client] using hb
      rw [hdata]
      exact htype
  | storeFinished buf =>
      cases hr
      exact h
  | finishRead buf hfree =>
      cases hr
      exact h
  | returnBuffer hreturn =>
      cases hr
      intro b hb
      cases hb
  | notifyAll => cases hr

theorem readStep_fileDesc {ι : Type} [DecidableEq ι] {me : ι} {io : Io}
    {reader reader' : BufferedReader} {q q' : FixedBufferQueue ι} {pc : ReadPc}
    {r : ReadResult} (h : reader.fileDesc ≠ none)
    (hstep : reader.readStep me io q pc = some (r, reader', q')) :
    reader'.fileDesc ≠ none := by
  cases readStep_cases hstep with
  | fill hopen hok => simp [afterFgetc]
  | _ => exact h

theorem Ready.readStep {ι : Type} [DecidableEq ι] {me : ι} {io : Io}
    {reader reader' : BufferedReader} {q q' : FixedBufferQueue ι} {pc : ReadPc}
    {r : ReadResult} (h : Ready reader (some pc))
    (hstep : reader.readStep me io q pc = some (r, reader', q')) :
    Ready reader' r.pc := by
  constructor
  · exact readStep_fileDesc h.isOpen hstep
  · intro p hp
    cases r with
    | next pc' =>
        cases hp
        exact readStep_typed (h.typed pc rfl) hstep
    | _ => cases hp

theorem readStep_readFinished {ι : Type} [DecidableEq ι] {me : ι} {io : Io}
    {reader reader' : BufferedReader} {q q' : FixedBufferQueue ι} {pc : ReadPc}
    {r : ReadResult}
    (hstep : reader.readStep me io q pc = some (r, reader', q'))
    (hfinished : reader.readFinished = true) : reader'.readFinished = true := by
  cases readStep_cases hstep with
  | storeFinished buf => rfl
  | _ => exact hfinished

theorem readStep_isOpen {ι : Type} [DecidableEq ι] {me : ι} {io : Io}
    {reader reader' : BufferedReader} {q q' : FixedBufferQueue ι} {pc : ReadPc}
    {r : ReadResult}
    (hstep : reader.readStep me io q pc = some (r, reader', q')) :
    q'.isOpen = q.isOpen := by
  cases readStep_cases hstep with
  | getFreeBuffer hget => exact getStep_isOpen hget
  | returnBuffer hreturn =>
      rcases returnBuffer_cases hreturn with ⟨_, rfl⟩
      simp
  | _ => rfl

theorem readStep_cv {ι : Type} [DecidableEq ι] {me t : ι} {io : Io}
    {reader reader' : BufferedReader} {q q' : FixedBufferQueue ι} {pc : ReadPc}
    {r : ReadResult}
    (hstep : reader.readStep me io q pc = some (r, reader', q')) (ht : t ≠ me)
    (hmem : t ∈ q'.cv) : t ∈ q.cv := by
  cases readStep_cases hstep with
  | getFreeBuffer hget => exact getStep_cv hget ht hmem
  | returnBuffer hreturn =>
      rcases returnBuffer_cases hreturn with ⟨_, rfl⟩
      simpa using hmem
  | notifyAll => cases hmem
  | _ => exact hmem

/-- `read` fills no array but the one in its hands. -/
theorem readStep_buffers {ι : Type} [DecidableEq ι] {me : ι} {io : Io}
    {reader reader' : BufferedReader} {q q' : FixedBufferQueue ι} {pc : ReadPc}
    {r : ReadResult} {data : Nat}
    (hstep : reader.readStep me io q pc = some (r, reader', q'))
    (hdata : forall buf, buf ∈ pc.client.held -> data ≠ buf.data) :
    q'.buffers data = q.buffers data := by
  cases readStep_cases hstep with
  | getFreeBuffer hget => rw [getStep_buffers hget]
  | @fill buf file hopen hok =>
      have hne := hdata buf (by simp [ReadPc.client])
      exact Function.update_of_ne hne _ _
  | returnBuffer hreturn =>
      rcases returnBuffer_cases hreturn with ⟨_, rfl⟩
      simp
  | _ => rfl

/-- In an open queue `read` throws only when `setvbuf` fails. -/
theorem readStep_throws {ι : Type} [DecidableEq ι] {me : ι} {io : Io}
    {reader reader' : BufferedReader} {q q' : FixedBufferQueue ι} {pc : ReadPc}
    {held : List Buffer} (hopen : q.isOpen = true)
    (hstep : reader.readStep me io q pc = some (.threw held, reader', q')) :
    io.fails = true := by
  generalize hr : ReadResult.threw held = r at hstep
  cases readStep_cases hstep with
  | getFreeBuffer hget =>
      cases getStep_cases hget with
      | nullopt hempty hclosed =>
          rw [hopen] at hclosed
          cases hclosed
      | _ => cases hr
  | setvbufFails buf hfails => exact hfails
  | _ => cases hr

/-- Why a thread inside `read` cannot go on. -/
theorem readStep_eq_none {ι : Type} [DecidableEq ι] {me : ι} {io : Io}
    {reader : BufferedReader} {q : FixedBufferQueue ι} {pc : ReadPc}
    (hready : Ready reader (some pc)) (h : reader.readStep me io q pc = none) :
    q.queueMutex ≠ none ∧ ¬ pc.client.call.holdsMutex ∨
      pc = .popEmpty ∨ pc = .getFreeBuffer .blocked ∧ me ∈ q.cv := by
  have hheld : forall {α : Type} {x : Option α},
      (if q.queueMutex.isSome then none else x) = none -> x ≠ none ->
        q.queueMutex ≠ none := by
    intro α x hnone hx hfree
    rw [hfree] at hnone
    exact hx hnone
  cases pc with
  | getFreeBuffer pc =>
      rcases getStep_eq_none (Option.map_eq_none_iff.mp h) with hmutex | hasleep
      · left
        rcases hmutex with ⟨htaken, hwait, hrecheck⟩
        refine ⟨htaken, ?_⟩
        cases pc <;> simp_all [ReadPc.client, Call.holdsMutex]
      · right
        right
        rcases hasleep with ⟨rfl, hmem⟩
        exact ⟨rfl, hmem⟩
  | fill buf =>
      have hopen := hready.isOpen
      cases hfile : reader.fileDesc with
      | none => exact absurd hfile hopen
      | some file =>
          simp only [BufferedReader.readStep, hfile] at h
          split at h <;> cases h
  | storeFinished buf => cases h
  | finishRead buf =>
      left
      exact ⟨hheld (Option.map_eq_none_iff.mp h) (by simp),
        by simp [ReadPc.client, Call.holdsMutex]⟩
  | returnBuffer buf =>
      left
      exact ⟨hheld (Option.map_eq_none_iff.mp h) (by simp),
        by simp [ReadPc.client, Call.holdsMutex]⟩
  | notifyAll => cases h
  | popEmpty =>
      right
      left
      rfl

theorem fgetcBuffers_setvbuf (file : FILE) (data : Nat) (io : Io)
    (buffers : Nat -> List UInt8) :
    (file.setvbuf data).fgetcBuffers io buffers =
      Function.update buffers data
        (file.load io ++ (buffers data).drop (file.load io).length) := rfl

/-- A step of `read` is a step of the queue's client `me`, or leaves the queue's clients alone. -/
theorem readStep_refines {ι : Type} [DecidableEq ι] {s : Clients ι} {me : ι}
    {io : Io} {reader reader' : BufferedReader} {q : FixedBufferQueue ι}
    {pc : ReadPc} {r : ReadResult} (hclient : s.client me = pc.client)
    (htyped : pc.Typed)
    (hstep : reader.readStep me io s.queue pc = some (r, reader', q)) :
    Reaches Step OpenOutsideTests s
      (s.advance me q r.client (pc.returned s.queue) []) := by
  have hself : s.advance me s.queue pc.client [] [] = s := by
    rw [← hclient, advance_self]
  cases readStep_cases hstep with
  | @getFreeBuffer gpc got _ hget =>
      have hcall : (s.client me).call = .get .read gpc := by
        rw [hclient]
        rfl
      have hheld : (s.client me).held = [] := by
        rw [hclient]
        rfl
      have hadvance : s.advance me q (afterGetFreeBuffer got).client [] [] =
          s.advance me q (Client.afterGet (s.client me).held .read got) []
            (deliveredBy q .read got) := by
        rw [hheld]
        cases got <;> rfl
      rw [ReadPc.returned, hadvance]
      exact Reaches.single (OpenOutsideTests.thread _ me)
        (Step.get hcall hget)
  | setvbufFails buf hfails =>
      have hend : s.advance me s.queue (ReadResult.threw [buf]).client [] [] = s :=
        hself
      rw [ReadPc.returned, hend]
  | @fill buf file hopen hok =>
      have hidle : (s.client me).call = .idle := by
        rw [hclient]
        rfl
      have hheld : (s.client me).held = [buf] := by
        rw [hclient]
        rfl
      have hfill := Step.fill (s := s) (t := me) (b := buf) hidle
        (by simp [hheld]) (htyped buf (by simp [ReadPc.client]))
        reader.bytesUsed
        (file.load io ++ (s.queue.buffers buf.data).drop (file.load io).length)
      refine Reaches.single (OpenOutsideTests.thread _ me) ?_
      rw [hheld] at hfill
      simp only [List.erase_cons_head] at hfill
      rw [fgetcBuffers_setvbuf]
      split <;> exact hfill
  | storeFinished buf =>
      have hend : s.advance me s.queue
          (ReadResult.next (.finishRead buf)).client [] [] = s := hself
      rw [ReadPc.returned, hend]
  | finishRead buf hfree =>
      have hfinish : s.queue.finishRead =
          some { s.queue with isReadFinished_ := true } := by
        simp [FixedBufferQueue.finishRead, hfree]
      have hend : s.advance me { s.queue with isReadFinished_ := true }
          (ReadResult.next (.returnBuffer buf)).client [] [] =
          { s with queue := { s.queue with isReadFinished_ := true } } := by
        rw [← advance_self s me, hclient]
        rfl
      rw [ReadPc.returned, hend]
      exact Reaches.single (a := .finishRead) (by intro h; cases h)
        (Step.finishRead hfinish)
  | @returnBuffer buf _ hreturn =>
      have hidle : (s.client me).call = .idle := by
        rw [hclient]
        rfl
      have hheld : (s.client me).held = [buf] := by
        rw [hclient]
        rfl
      have hret := Step.returnBuffer (s := s) (t := me) hidle
        (by simp [hheld]) hreturn
      rw [hheld] at hret
      simp only [List.erase_cons_head] at hret
      exact Reaches.single (OpenOutsideTests.thread _ me) hret
  | notifyAll =>
      have hcall : (s.client me).call = .notify := by
        rw [hclient]
        rfl
      have hnotify := Step.notify (s := s) (t := me) hcall
      rw [hclient] at hnotify
      exact Reaches.single (OpenOutsideTests.thread _ me) hnotify

end BufferedReader
end Reader
end Ki
