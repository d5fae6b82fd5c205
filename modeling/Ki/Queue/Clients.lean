import Ki.Foundation.Partition
import Ki.Foundation.Runs
import Ki.Queue.FixedBufferQueue

/-!
# Threads sharing one queue

The queue together with any number of threads that call its member functions in
any order.  A thread holds the buffers it has obtained and not yet returned, and
may fill the memory of a buffer it obtained for reading.  This is the abstract
view of the copy tools: their threads and processes are clients of one queue,
and what is proved here of every client holds of them.
-/

namespace Ki
namespace Queue

open Foundation
open FixedBufferQueue

/-- Where a thread stands in the member function it is executing. -/
inductive Call where
  | idle
  | get (side : BufferType) (pc : GetPc)
  /-- inside `returnBuffer`, between releasing the mutex and `notify_all` -/
  | notify
  /-- stopped: an empty deque was popped -/
  | popEmpty
deriving DecidableEq, Repr

/-- The points at which a thread owns `queueMutex`. -/
def Call.holdsMutex : Call -> Prop
  | .get _ .wait => True
  | .get _ .recheck => True
  | .popEmpty => True
  | _ => False

/-- A thread and the buffers in its hands. -/
structure Client where
  call : Call
  held : List Buffer
deriving DecidableEq, Repr

/-- The client after a step of a get function with the given result. -/
def Client.afterGet (held : List Buffer) (side : BufferType) :
    GetResult -> Client
  | .next pc => { call := .get side pc, held := held }
  | .nullopt => { call := .idle, held := held }
  | .buffer b => { call := .idle, held := b :: held }
  | .popEmpty => { call := .popEmpty, held := held }

/-- The pair a consumer sees: `bytesUsed` and the contents of the array. -/
abbrev Payload := Nat × List UInt8

/-- The bytes a sequence of payloads stands for. -/
def bytesOf (ps : List Payload) : List UInt8 :=
  ps.flatMap fun p => p.2.take p.1

@[simp] theorem bytesOf_nil : bytesOf [] = [] := rfl

@[simp] theorem bytesOf_append (ps ps' : List Payload) :
    bytesOf (ps ++ ps') = bytesOf ps ++ bytesOf ps' := by
  simp [bytesOf]

theorem bytesOf_singleton (p : Payload) : bytesOf [p] = p.2.take p.1 := by
  simp [bytesOf]

/--
The queue, its clients, and two histories: the pairs producers have returned and
the pairs `getFilledBuffer` has delivered.
-/
structure Clients (ι : Type) where
  queue : FixedBufferQueue ι
  client : ι -> Client
  returned : List Payload
  delivered : List Payload

def FixedBufferQueue.payload {ι : Type} (q : FixedBufferQueue ι) (b : Buffer) :
    Payload :=
  (b.bytesUsed, q.buffers b.data)

theorem FixedBufferQueue.payload_congr {ι : Type} {q q' : FixedBufferQueue ι}
    (h : q'.buffers = q.buffers) : q'.payload = q.payload := by
  funext b
  simp [FixedBufferQueue.payload, h]

namespace Clients

variable {ι : Type} [DecidableEq ι]

/-!
# Steps
-/

/-- The state after thread `t` has made a step. -/
def advance (s : Clients ι) (t : ι) (q : FixedBufferQueue ι) (c : Client)
    (ret del : List Payload) : Clients ι where
  queue := q
  client := Function.update s.client t c
  returned := s.returned ++ ret
  delivered := s.delivered ++ del

@[simp] theorem advance_queue (s : Clients ι) (t : ι) (q : FixedBufferQueue ι)
    (c : Client) (ret del : List Payload) :
    (s.advance t q c ret del).queue = q := rfl

@[simp] theorem advance_client_self (s : Clients ι) (t : ι)
    (q : FixedBufferQueue ι) (c : Client) (ret del : List Payload) :
    (s.advance t q c ret del).client t = c := by
  simp [advance]

theorem advance_client_of_ne (s : Clients ι) {t u : ι} (q : FixedBufferQueue ι)
    (c : Client) (ret del : List Payload) (hu : u ≠ t) :
    (s.advance t q c ret del).client u = s.client u := by
  simp [advance, hu]

theorem advance_self (s : Clients ι) (t : ι) (q : FixedBufferQueue ι) :
    s.advance t q (s.client t) [] [] = { s with queue := q } := by
  simp [advance]

/-- What a step of a get function delivers to a consumer. -/
def deliveredBy (q : FixedBufferQueue ι) (side : BufferType) :
    GetResult -> List Payload
  | .buffer b => if side = .write then [q.payload b] else []
  | _ => []

/-- What returning a buffer adds to the history of the producers. -/
def returnedBy (q : FixedBufferQueue ι) (b : Buffer) : List Payload :=
  if b.bufferType = .read then [q.payload b] else []

/-- The labels of the steps. -/
inductive Op (ι : Type) where
  | thread (t : ι)
  | finishRead
  | open'
  | close
deriving DecidableEq, Repr

inductive Step (s : Clients ι) : Op ι -> Clients ι -> Prop where
  | call {t : ι} (side : BufferType) (hidle : (s.client t).call = .idle) :
      Step s (.thread t)
        (s.advance t s.queue ⟨.get side .lock, (s.client t).held⟩ [] [])
  | get {t : ι} {side : BufferType} {pc : GetPc} {r : GetResult}
      {q : FixedBufferQueue ι} (hcall : (s.client t).call = .get side pc)
      (hget : s.queue.getStep side t pc = some (r, q)) :
      Step s (.thread t)
        (s.advance t q (Client.afterGet (s.client t).held side r) []
          (deliveredBy q side r))
  | fill {t : ι} {b : Buffer} (hidle : (s.client t).call = .idle)
      (hheld : b ∈ (s.client t).held) (hread : b.bufferType = .read)
      (bytesUsed : Nat) (contents : List UInt8) :
      Step s (.thread t)
        (s.advance t
          { s.queue with buffers := Function.update s.queue.buffers b.data contents }
          ⟨.idle, { b with bytesUsed := bytesUsed } :: (s.client t).held.erase b⟩ [] [])
  | returnBuffer {t : ι} {b : Buffer} {q : FixedBufferQueue ι}
      (hidle : (s.client t).call = .idle) (hheld : b ∈ (s.client t).held)
      (hreturn : s.queue.returnBuffer b = some q) :
      Step s (.thread t)
        (s.advance t q ⟨.notify, (s.client t).held.erase b⟩
          (returnedBy s.queue b) [])
  | notify {t : ι} (hcall : (s.client t).call = .notify) :
      Step s (.thread t)
        (s.advance t s.queue.notifyAll ⟨.idle, (s.client t).held⟩ [] [])
  | finishRead {q : FixedBufferQueue ι} (hfinish : s.queue.finishRead = some q) :
      Step s .finishRead { s with queue := q }
  | open' : Step s .open' { s with queue := s.queue.open' }
  | close : Step s .close { s with queue := s.queue.close }

/-- Every thread idle and empty-handed on a new queue. -/
def init (buffers : Nat -> List UInt8) : Clients ι where
  queue := FixedBufferQueue.new buffers
  client := fun _ => { call := .idle, held := [] }
  returned := []
  delivered := []

/-!
# Schedules
-/

/-- A step with what its thread decides; it fills or returns what it has obtained last. -/
inductive Choice (ι : Type) where
  | call (t : ι) (side : BufferType)
  | get (t : ι)
  | fill (t : ι) (bytesUsed : Nat) (contents : List UInt8)
  | returnBuffer (t : ι)
  | notify (t : ι)
  | open'
  | close
deriving DecidableEq, Repr

def Choice.op : Choice ι -> Op ι
  | .call t _ => .thread t
  | .get t => .thread t
  | .fill t _ _ => .thread t
  | .returnBuffer t => .thread t
  | .notify t => .thread t
  | .open' => .open'
  | .close => .close

def next : Choice ι -> Clients ι -> Option (Clients ι)
  | .call t side, s =>
      if (s.client t).call = .idle then
        some (s.advance t s.queue ⟨.get side .lock, (s.client t).held⟩ [] [])
      else none
  | .get t, s =>
      match (s.client t).call with
      | .get side pc =>
          (s.queue.getStep side t pc).map fun out =>
            s.advance t out.2 (Client.afterGet (s.client t).held side out.1) []
              (deliveredBy out.2 side out.1)
      | _ => none
  | .fill t bytesUsed contents, s =>
      match (s.client t).call, (s.client t).held with
      | .idle, b :: rest =>
          if b.bufferType = .read then
            some (s.advance t
              { s.queue with buffers := Function.update s.queue.buffers b.data contents }
              ⟨.idle, { b with bytesUsed := bytesUsed } :: rest⟩ [] [])
          else none
      | _, _ => none
  | .returnBuffer t, s =>
      match (s.client t).call, (s.client t).held with
      | .idle, b :: rest =>
          (s.queue.returnBuffer b).map fun q =>
            s.advance t q ⟨.notify, rest⟩ (returnedBy s.queue b) []
      | _, _ => none
  | .notify t, s =>
      if (s.client t).call = .notify then
        some (s.advance t s.queue.notifyAll ⟨.idle, (s.client t).held⟩ [] [])
      else none
  | .open', s => some { s with queue := s.queue.open' }
  | .close, s => some { s with queue := s.queue.close }

theorem next_step {c : Choice ι} {s s' : Clients ι} (h : next c s = some s') :
    Step s c.op s' := by
  cases c with
  | call t side =>
      rw [next] at h
      split at h
      · rename_i hidle
        cases h
        exact Step.call side hidle
      · cases h
  | get t =>
      simp only [next] at h
      split at h
      · rename_i side pc hcall
        rcases Option.map_eq_some_iff.mp h with ⟨⟨r, q⟩, hget, rfl⟩
        exact Step.get hcall hget
      · cases h
  | fill t bytesUsed contents =>
      simp only [next] at h
      split at h
      · rename_i b rest hidle hheld
        split at h
        · rename_i hread
          cases h
          have hstep := Step.fill (s := s) hidle (by rw [hheld]; exact List.mem_cons_self)
            hread bytesUsed contents
          rw [hheld, List.erase_cons_head] at hstep
          exact hstep
        · cases h
      · cases h
  | returnBuffer t =>
      simp only [next] at h
      split at h
      · rename_i b rest hidle hheld
        rcases Option.map_eq_some_iff.mp h with ⟨q, hreturn, rfl⟩
        have hstep := Step.returnBuffer hidle (by rw [hheld]; exact List.mem_cons_self)
          hreturn
        rw [hheld, List.erase_cons_head] at hstep
        exact hstep
      · cases h
  | notify t =>
      rw [next] at h
      split at h
      · rename_i hcall
        cases h
        exact Step.notify hcall
      · cases h
  | open' =>
      cases h
      exact Step.open'
  | close =>
      cases h
      exact Step.close

theorem reaches_of_choices {guard : Clients ι -> Op ι -> Prop}
    [forall s (c : Choice ι), Decidable (guard s c.op)] (cs : List (Choice ι))
    {s s' : Clients ι} (hguard : execGuard next (fun x c => guard x c.op) cs s = true)
    (hexec : exec next cs s = some s') : Reaches Step guard s s' := by
  refine Relation.ReflTransGen.mono ?_ _ _ (reaches_of_exec cs hguard hexec)
  rintro x y ⟨c, hc, hnext⟩
  exact ⟨c.op, hc, next_step hnext⟩

/-- The threads of the concrete runs. -/
inductive Party where
  | producer
  | consumer
deriving DecidableEq, Repr

instance {P : Party -> Prop} [DecidablePred P] : Decidable (forall t, P t) :=
  decidable_of_iff (P .producer ∧ P .consumer)
    ⟨fun h t => match t with
      | .producer => h.left
      | .consumer => h.right,
    fun h => ⟨h .producer, h .consumer⟩⟩

/-!
# The invariant
-/

/-- The places a buffer can be in. -/
inductive Place (ι : Type) where
  | readBuffers
  | writeBuffers
  | heldBy (t : ι)

/-- The data pointers in a place. -/
def cells (s : Clients ι) : Place ι -> List Nat
  | .readBuffers => s.queue.readBuffers.map Buffer.data
  | .writeBuffers => s.queue.writeBuffers.map Buffer.data
  | .heldBy t => (s.client t).held.map Buffer.data

structure Inv (s : Clients ι) : Prop where
  /-- the mutex is held by the one thread inside a critical section -/
  mutex : forall t, s.queue.queueMutex = some t <-> (s.client t).call.holdsMutex
  /-- a thread about to wait has seen its deque empty, and it still is -/
  unready : forall t side, (s.client t).call = .get side .wait ->
    s.queue.dequeOf side = []
  asleep : forall t, t ∈ s.queue.cv ->
    exists side, (s.client t).call = .get side .blocked
  /-- a sleeper whose deque has a buffer is about to be notified -/
  wakeup : forall t side, t ∈ s.queue.cv ->
    (s.client t).call = .get side .blocked -> s.queue.dequeOf side ≠ [] ->
    exists t', (s.client t').call = .notify
  /-- every array is in exactly one place -/
  owned : Partitioned (fun a => a < buffersInQueue) s.cells
  fifo : s.delivered ++ s.queue.writeBuffers.map s.queue.payload = s.returned

omit [DecidableEq ι] in
theorem init_inv (buffers : Nat -> List UInt8) :
    Inv (init buffers : Clients ι) where
  mutex := by
    intro t
    simp [init, FixedBufferQueue.new, Call.holdsMutex]
  unready := by
    intro t side h
    cases h
  asleep := by
    intro t h
    cases h
  wakeup := by
    intro t side h
    cases h
  owned := by
    have hdata : (init buffers : Clients ι).cells .readBuffers =
        List.range buffersInQueue := by
      simp [cells, init, FixedBufferQueue.new, Buffer.new, Function.comp_def]
    refine Partitioned.single (b := .readBuffers) ?_ ?_ ?_
    · rw [hdata]
      exact List.nodup_range
    · intro a
      rw [hdata]
      exact List.mem_range
    · intro place hplace
      cases place with
      | readBuffers => exact absurd rfl hplace
      | writeBuffers => rfl
      | heldBy t => rfl
  fifo := by
    simp [init, FixedBufferQueue.new]

end Clients
end Queue
end Ki
