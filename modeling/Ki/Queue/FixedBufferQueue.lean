import Mathlib.Data.List.Basic
import Mathlib.Data.List.Perm.Basic
import Mathlib.Logic.Function.Basic

/-!
# The fixed buffer queue

Translation of `src/queue/Buffer.hpp` and `src/queue/BufferedQueue.hpp`.  The
member functions that block are given as functions of the caller's program
point, one call of the function for each step another thread can observe: taking
the mutex together with the first test of the wait predicate, going to sleep,
and the second test together with the pop and the release of the mutex.  The
deques change only under the mutex, so nothing can be observed between the
emptiness test and the load of `isOpen` that follows it.
-/

namespace Ki
namespace Queue

/-- `BUFFER_SIZE` -/
def bufferSize : Nat := 4096

/-- `BUFFERS_IN_QUEUE` -/
def buffersInQueue : Nat := 512

theorem bufferSize_pos : 0 < bufferSize := by
  decide

theorem buffersInQueue_pos : 0 < buffersInQueue := by
  decide

inductive BufferType where
  | read
  | write
deriving DecidableEq, Repr

/-- The opposite type, set by `returnBuffer` on the returned buffer. -/
def BufferType.flip : BufferType -> BufferType
  | .read => .write
  | .write => .read

instance {P : BufferType -> Prop} [DecidablePred P] : Decidable (forall side, P side) :=
  decidable_of_iff (P .read ∧ P .write)
    ⟨fun h side => match side with
      | .read => h.left
      | .write => h.right,
    fun h => ⟨h .read, h .write⟩⟩

/--
A buffer object.  `data` names one of the arrays of the pool; the array's
contents are kept by the queue.
-/
structure Buffer where
  data : Nat
  bytesUsed : Nat
  bufferType : BufferType
deriving DecidableEq, Repr

/-- The constructor: no bytes used, type `READ` by default. -/
def Buffer.new (data : Nat) : Buffer where
  data := data
  bytesUsed := 0
  bufferType := .read

def Buffer.setType (b : Buffer) (type : BufferType) : Buffer :=
  { b with bufferType := type }

@[simp] theorem Buffer.setType_data (b : Buffer) (type : BufferType) :
    (b.setType type).data = b.data := rfl

@[simp] theorem Buffer.setType_bytesUsed (b : Buffer) (type : BufferType) :
    (b.setType type).bytesUsed = b.bytesUsed := rfl

/--
The queue and the arrays its buffers point to.  `queueMutex` records the thread
that holds the mutex, `cv` the threads asleep on the condition variable.
-/
structure FixedBufferQueue (ι : Type) where
  buffers : Nat -> List UInt8
  readBuffers : List Buffer
  writeBuffers : List Buffer
  queueMutex : Option ι
  cv : List ι
  isOpen : Bool
  isReadFinished_ : Bool

namespace FixedBufferQueue

variable {ι : Type}

/-- The constructor puts every array in `readBuffers`; the queue starts closed. -/
def new (buffers : Nat -> List UInt8) : FixedBufferQueue ι where
  buffers := buffers
  readBuffers := (List.range buffersInQueue).map Buffer.new
  writeBuffers := []
  queueMutex := none
  cv := []
  isOpen := false
  isReadFinished_ := false

/-- The deque a caller takes from: free buffers to read into, filled ones to write from. -/
def dequeOf (q : FixedBufferQueue ι) : BufferType -> List Buffer
  | .read => q.readBuffers
  | .write => q.writeBuffers

def setDeque (q : FixedBufferQueue ι) : BufferType -> List Buffer -> FixedBufferQueue ι
  | .read, bs => { q with readBuffers := bs }
  | .write, bs => { q with writeBuffers := bs }

/-- `back` and `pop_back` on the free buffers, `front` and `pop_front` on the filled ones. -/
def popFrom : BufferType -> List Buffer -> Option (Buffer × List Buffer)
  | .read, bs => bs.getLast?.map fun b => (b, bs.dropLast)
  | .write, [] => none
  | .write, b :: bs => some (b, bs)

@[simp] theorem setDeque_buffers (q : FixedBufferQueue ι)
    (side : BufferType) (bs : List Buffer) :
    (q.setDeque side bs).buffers = q.buffers := by
  cases side <;> rfl

@[simp] theorem setDeque_queueMutex (q : FixedBufferQueue ι)
    (side : BufferType) (bs : List Buffer) :
    (q.setDeque side bs).queueMutex = q.queueMutex := by
  cases side <;> rfl

@[simp] theorem setDeque_cv (q : FixedBufferQueue ι)
    (side : BufferType) (bs : List Buffer) :
    (q.setDeque side bs).cv = q.cv := by
  cases side <;> rfl

@[simp] theorem setDeque_isOpen (q : FixedBufferQueue ι)
    (side : BufferType) (bs : List Buffer) :
    (q.setDeque side bs).isOpen = q.isOpen := by
  cases side <;> rfl

@[simp] theorem setDeque_isReadFinished_ (q : FixedBufferQueue ι)
    (side : BufferType) (bs : List Buffer) :
    (q.setDeque side bs).isReadFinished_ = q.isReadFinished_ := by
  cases side <;> rfl

@[simp] theorem dequeOf_setDeque_self (q : FixedBufferQueue ι) (side : BufferType)
    (bs : List Buffer) : (q.setDeque side bs).dequeOf side = bs := by
  cases side <;> rfl

theorem dequeOf_setDeque_of_ne (q : FixedBufferQueue ι) {side side' : BufferType}
    (bs : List Buffer) (h : side' ≠ side) :
    (q.setDeque side bs).dequeOf side' = q.dequeOf side' := by
  cases side <;> cases side' <;> first | rfl | exact absurd rfl h

/-!
# Getting a buffer

`getFreeBuffer` and `getFilledBuffer` differ in the deque, in the end they pop
and in the type they set.
-/

/-- Program points of a thread inside `getFreeBuffer` or `getFilledBuffer`. -/
inductive GetPc where
  /-- about to take the mutex and test the wait predicate -/
  | lock
  /-- holding the mutex, the predicate was false: about to wait -/
  | wait
  /-- inside `cv.wait`, asleep or woken and about to take the mutex again -/
  | blocked
  /-- holding the mutex, `cv.wait` has returned: about to test again and pop -/
  | recheck
deriving DecidableEq, Repr

inductive GetResult where
  | next (pc : GetPc)
  | nullopt
  | buffer (b : Buffer)
  /-- `back`, `front` or a pop was applied to an empty deque -/
  | popEmpty
deriving DecidableEq, Repr

/-- Take the mutex, if it is free, and evaluate the wait predicate. -/
def lockAndTest (q : FixedBufferQueue ι) (side : BufferType) (me : ι) :
    Option (GetResult × FixedBufferQueue ι) :=
  if q.queueMutex.isSome then none
  else if !(q.dequeOf side).isEmpty || !q.isOpen then
    some (.next .recheck, { q with queueMutex := some me })
  else
    some (.next .wait, { q with queueMutex := some me })

/-- One step of thread `me` inside a get function; `none` while it is blocked. -/
def getStep [DecidableEq ι] (q : FixedBufferQueue ι) (side : BufferType)
    (me : ι) : GetPc -> Option (GetResult × FixedBufferQueue ι)
  | .lock => q.lockAndTest side me
  | .wait =>
      some (.next .blocked, { q with queueMutex := none, cv := me :: q.cv })
  | .blocked => if me ∈ q.cv then none else q.lockAndTest side me
  | .recheck =>
      if (q.dequeOf side).isEmpty && !q.isOpen then
        some (.nullopt, { q with queueMutex := none })
      else
        match popFrom side (q.dequeOf side) with
        | none => some (.popEmpty, q)
        | some (b, rest) =>
            some (.buffer (b.setType side),
              { q.setDeque side rest with queueMutex := none })

def getFreeBuffer [DecidableEq ι] (q : FixedBufferQueue ι) (me : ι) :
    GetPc -> Option (GetResult × FixedBufferQueue ι) :=
  q.getStep .read me

def getFilledBuffer [DecidableEq ι] (q : FixedBufferQueue ι) (me : ι) :
    GetPc -> Option (GetResult × FixedBufferQueue ι) :=
  q.getStep .write me

/-!
# The other member functions

A function that takes the mutex gives `none` while another thread holds it.
-/

def isEmpty (q : FixedBufferQueue ι) : Option Bool :=
  if q.queueMutex.isSome then none
  else some (q.writeBuffers.isEmpty && !q.isOpen)

def close (q : FixedBufferQueue ι) : FixedBufferQueue ι :=
  { q with isOpen := false }

def open' (q : FixedBufferQueue ι) : FixedBufferQueue ι :=
  { q with isOpen := true }

/-- The critical section of `returnBuffer`; `notifyAll` follows as a step of its own. -/
def returnBuffer (q : FixedBufferQueue ι) (buffer : Buffer) :
    Option (FixedBufferQueue ι) :=
  if q.queueMutex.isSome then none
  else
    let typeToSet := buffer.bufferType.flip
    some (q.setDeque typeToSet (q.dequeOf typeToSet ++ [buffer.setType typeToSet]))

def notifyAll (q : FixedBufferQueue ι) : FixedBufferQueue ι :=
  { q with cv := [] }

def isReadFinished (q : FixedBufferQueue ι) : Option Bool :=
  if q.queueMutex.isSome then none else some q.isReadFinished_

def finishRead (q : FixedBufferQueue ι) : Option (FixedBufferQueue ι) :=
  if q.queueMutex.isSome then none else some { q with isReadFinished_ := true }

/-!
# What one step of a get function can do

The cases of `getStep`, guards included.  Later proofs split on these and never
unfold the function.
-/

inductive GetStep (q : FixedBufferQueue ι) (side : BufferType) (me : ι) :
    GetPc -> GetResult -> FixedBufferQueue ι -> Prop where
  /-- the wait predicate holds -/
  | ready {pc : GetPc} (hpc : pc = .lock ∨ pc = .blocked ∧ me ∉ q.cv)
      (hfree : q.queueMutex = none)
      (htest : q.dequeOf side ≠ [] ∨ q.isOpen = false) :
      GetStep q side me pc (.next .recheck) { q with queueMutex := some me }
  /-- the wait predicate fails -/
  | unready {pc : GetPc} (hpc : pc = .lock ∨ pc = .blocked ∧ me ∉ q.cv)
      (hfree : q.queueMutex = none)
      (hempty : q.dequeOf side = []) (hopen : q.isOpen = true) :
      GetStep q side me pc (.next .wait) { q with queueMutex := some me }
  | sleep :
      GetStep q side me .wait (.next .blocked)
        { q with queueMutex := none, cv := me :: q.cv }
  | nullopt (hempty : q.dequeOf side = []) (hclosed : q.isOpen = false) :
      GetStep q side me .recheck .nullopt { q with queueMutex := none }
  | popEmpty (hempty : q.dequeOf side = []) (hopen : q.isOpen = true) :
      GetStep q side me .recheck .popEmpty q
  | take {b : Buffer} {rest : List Buffer}
      (hpop : popFrom side (q.dequeOf side) = some (b, rest)) :
      GetStep q side me .recheck (.buffer (b.setType side))
        { q.setDeque side rest with queueMutex := none }

theorem popFrom_eq_none {side : BufferType} {bs : List Buffer}
    (h : popFrom side bs = none) : bs = [] := by
  cases side with
  | read =>
      simpa [popFrom] using h
  | write =>
      cases bs with
      | nil => rfl
      | cons b rest => cases h

theorem popFrom_perm {side : BufferType} {bs rest : List Buffer} {b : Buffer}
    (h : popFrom side bs = some (b, rest)) : bs.Perm (b :: rest) := by
  cases side with
  | read =>
      rcases Option.map_eq_some_iff.mp h with ⟨last, hlast, heq⟩
      cases heq
      rcases List.getLast?_eq_some_iff.mp hlast with ⟨front, rfl⟩
      simp
  | write =>
      cases bs with
      | nil => cases h
      | cons c cs =>
          cases h
          exact List.Perm.refl _

theorem popFrom_write {bs rest : List Buffer} {b : Buffer}
    (h : popFrom .write bs = some (b, rest)) : bs = b :: rest := by
  cases bs with
  | nil => cases h
  | cons c cs =>
      cases h
      rfl

theorem lockAndTest_cases [DecidableEq ι] {q q' : FixedBufferQueue ι}
    {side : BufferType} {me : ι} {pc : GetPc} {r : GetResult}
    (hpc : pc = .lock ∨ pc = .blocked ∧ me ∉ q.cv)
    (h : q.lockAndTest side me = some (r, q')) :
    GetStep q side me pc r q' := by
  unfold lockAndTest at h
  by_cases hfree : q.queueMutex.isSome = true
  · simp [hfree] at h
  · have hnone : q.queueMutex = none := by
      simpa using hfree
    by_cases htest : (!(q.dequeOf side).isEmpty || !q.isOpen) = true
    · simp only [hfree, htest, if_true] at h
      cases h
      exact GetStep.ready hpc hnone (by simpa [List.isEmpty_iff] using htest)
    · simp only [hfree, htest] at h
      cases h
      have hboth : q.dequeOf side = [] ∧ q.isOpen = true := by
        simpa [List.isEmpty_iff] using htest
      exact GetStep.unready hpc hnone hboth.left hboth.right

theorem getStep_cases [DecidableEq ι] {q q' : FixedBufferQueue ι}
    {side : BufferType} {me : ι} {pc : GetPc} {r : GetResult}
    (h : q.getStep side me pc = some (r, q')) :
    GetStep q side me pc r q' := by
  cases pc with
  | lock =>
      exact lockAndTest_cases (Or.inl rfl) h
  | wait =>
      cases h
      exact GetStep.sleep
  | blocked =>
      by_cases hme : me ∈ q.cv
      · simp [getStep, hme] at h
      · rw [getStep, if_neg hme] at h
        exact lockAndTest_cases (Or.inr ⟨rfl, hme⟩) h
  | recheck =>
      rw [getStep] at h
      by_cases hclosed : ((q.dequeOf side).isEmpty && !q.isOpen) = true
      · rw [if_pos hclosed] at h
        cases h
        have hboth : q.dequeOf side = [] ∧ q.isOpen = false := by
          simpa [List.isEmpty_iff] using hclosed
        exact GetStep.nullopt hboth.left hboth.right
      · rw [if_neg hclosed] at h
        cases hpop : popFrom side (q.dequeOf side) with
        | none =>
            rw [hpop] at h
            cases h
            have hempty := popFrom_eq_none hpop
            exact GetStep.popEmpty hempty (by simpa [hempty] using hclosed)
        | some taken =>
            rcases taken with ⟨b, rest⟩
            rw [hpop] at h
            cases h
            exact GetStep.take hpop

/-- A get function stands still while the mutex is taken or its thread is asleep. -/
theorem getStep_eq_none [DecidableEq ι] {q : FixedBufferQueue ι}
    {side : BufferType} {me : ι} {pc : GetPc} (h : q.getStep side me pc = none) :
    q.queueMutex ≠ none ∧ pc ≠ .wait ∧ pc ≠ .recheck ∨
      pc = .blocked ∧ me ∈ q.cv := by
  have hlock : q.lockAndTest side me = none -> q.queueMutex ≠ none := by
    intro hnone hfree
    rw [lockAndTest, hfree, if_neg (by simp)] at hnone
    split at hnone <;> cases hnone
  cases pc with
  | lock =>
      exact Or.inl ⟨hlock h, by simp, by simp⟩
  | wait => cases h
  | blocked =>
      by_cases hme : me ∈ q.cv
      · exact Or.inr ⟨rfl, hme⟩
      · rw [getStep, if_neg hme] at h
        exact Or.inl ⟨hlock h, by simp, by simp⟩
  | recheck =>
      rw [getStep] at h
      split at h
      · cases h
      · split at h <;> cases h

theorem getStep_buffers [DecidableEq ι] {q q' : FixedBufferQueue ι}
    {side : BufferType} {me : ι} {pc : GetPc} {r : GetResult}
    (h : q.getStep side me pc = some (r, q')) : q'.buffers = q.buffers := by
  cases getStep_cases h with
  | take hpop => simp
  | _ => rfl

theorem getStep_isOpen [DecidableEq ι] {q q' : FixedBufferQueue ι}
    {side : BufferType} {me : ι} {pc : GetPc} {r : GetResult}
    (h : q.getStep side me pc = some (r, q')) : q'.isOpen = q.isOpen := by
  cases getStep_cases h with
  | take hpop => simp
  | _ => rfl

theorem getStep_isReadFinished [DecidableEq ι] {q q' : FixedBufferQueue ι}
    {side : BufferType} {me : ι} {pc : GetPc} {r : GetResult}
    (h : q.getStep side me pc = some (r, q')) :
    q'.isReadFinished_ = q.isReadFinished_ := by
  cases getStep_cases h with
  | take hpop => simp
  | _ => rfl

/-- A get function puts no other thread to sleep. -/
theorem getStep_cv [DecidableEq ι] {q q' : FixedBufferQueue ι}
    {side : BufferType} {me t : ι} {pc : GetPc} {r : GetResult}
    (h : q.getStep side me pc = some (r, q')) (ht : t ≠ me) (hmem : t ∈ q'.cv) :
    t ∈ q.cv := by
  cases getStep_cases h with
  | sleep => simpa [ht] using hmem
  | take hpop => simpa using hmem
  | _ => exact hmem

theorem returnBuffer_cases {q q' : FixedBufferQueue ι} {b : Buffer}
    (h : q.returnBuffer b = some q') :
    q.queueMutex = none ∧ q' = q.setDeque b.bufferType.flip
      (q.dequeOf b.bufferType.flip ++ [b.setType b.bufferType.flip]) := by
  unfold returnBuffer at h
  by_cases hfree : q.queueMutex.isSome = true
  · simp [hfree] at h
  · simp only [hfree] at h
    cases h
    exact ⟨by simpa using hfree, rfl⟩

theorem finishRead_cases {q q' : FixedBufferQueue ι}
    (h : q.finishRead = some q') :
    q.queueMutex = none ∧ q' = { q with isReadFinished_ := true } := by
  unfold finishRead at h
  by_cases hfree : q.queueMutex.isSome = true
  · simp [hfree] at h
  · simp only [hfree] at h
    cases h
    exact ⟨by simpa using hfree, rfl⟩

theorem isReadFinished_cases {q : FixedBufferQueue ι} {finished : Bool}
    (h : q.isReadFinished = some finished) : q.isReadFinished_ = finished := by
  unfold isReadFinished at h
  split at h
  · cases h
  · exact Option.some.inj h

theorem isEmpty_cases {q : FixedBufferQueue ι} {empty : Bool}
    (h : q.isEmpty = some empty) :
    q.queueMutex = none ∧
      (empty = true <-> q.writeBuffers = [] ∧ q.isOpen = false) := by
  unfold isEmpty at h
  by_cases hfree : q.queueMutex.isSome = true
  · simp [hfree] at h
  · simp only [hfree] at h
    cases h
    exact ⟨by simpa using hfree, by simp [List.isEmpty_iff]⟩

end FixedBufferQueue
end Queue
end Ki
