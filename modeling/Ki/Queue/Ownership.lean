import Ki.Queue.EmptyPop

/-!
# Who owns which buffer

The type of a buffer says which deque it was taken from, so `returnBuffer`, which
goes by the type, always moves a buffer to the opposite deque.  The deque an
array was last taken from is recorded beside the clients.
-/

namespace Ki
namespace Queue

open Foundation
open FixedBufferQueue

namespace Clients

variable {ι : Type}

/-- The clients, and for each array the deque it was last taken from. -/
structure Tracked (ι : Type) where
  clients : Clients ι
  takenFrom : Nat -> BufferType

/-- What the result of a get function adds to the record. -/
def recordTake (takenFrom : Nat -> BufferType) (side : BufferType) :
    GetResult -> Nat -> BufferType
  | .buffer b => Function.update takenFrom b.data side
  | _ => takenFrom

def Tracked.init (buffers : Nat -> List UInt8) : Tracked ι where
  clients := Clients.init buffers
  takenFrom := fun _ => .read

variable [DecidableEq ι]

/-- The steps of the clients, with `isEmpty`, which changes nothing. -/
inductive TrackedStep (s : Tracked ι) : Op ι -> Tracked ι -> Prop where
  | get {t : ι} {side : BufferType} {pc : GetPc} {r : GetResult}
      {q : FixedBufferQueue ι} (hcall : (s.clients.client t).call = .get side pc)
      (hget : s.clients.queue.getStep side t pc = some (r, q)) :
      TrackedStep s (.thread t)
        { clients := s.clients.advance t q
            (Client.afterGet (s.clients.client t).held side r) [] (deliveredBy q side r)
          takenFrom := recordTake s.takenFrom side r }
  | other {op : Op ι} {x : Clients ι} (hstep : Step s.clients op x)
      (hnoget : forall t side pc, op = .thread t ->
        (s.clients.client t).call ≠ .get side pc) :
      TrackedStep s op { clients := x, takenFrom := s.takenFrom }
  | isEmpty {t : ι} {empty : Bool} (hidle : (s.clients.client t).call = .idle)
      (hempty : s.clients.queue.isEmpty = some empty) :
      TrackedStep s (.thread t) s

/-- `open` is not executed between the two tests of a get function in progress. -/
def TrackedGuard (s : Tracked ι) (op : Op ι) : Prop :=
  s.clients.OpenOutsideTests op

theorem TrackedStep.inv {s s' : Tracked ι} {op : Op ι} (h : Inv s.clients)
    (hstep : TrackedStep s op s') : Inv s'.clients := by
  cases hstep with
  | get hcall hget => exact h.get hcall hget
  | other hstep hnoget => exact step_inv h hstep
  | isEmpty hidle hempty => exact h

/-!
# The types
-/

/-- The types of the buffers in the deques and in hand. -/
structure Typed (s : Tracked ι) : Prop where
  deques : forall side b, b ∈ s.clients.queue.dequeOf side -> b.bufferType = side
  held : forall t b, b ∈ (s.clients.client t).held ->
    b.bufferType = s.takenFrom b.data

omit [DecidableEq ι] in
theorem init_typed (buffers : Nat -> List UInt8) :
    Typed (Tracked.init buffers : Tracked ι) where
  deques := by
    intro side b hb
    cases side with
    | read =>
        simp only [Tracked.init, Clients.init, FixedBufferQueue.new, dequeOf,
          List.mem_map] at hb
        rcases hb with ⟨data, _, hnew⟩
        rw [← hnew]
        rfl
    | write =>
        have hnil : b ∈ ([] : List Buffer) := hb
        cases hnil
  held := by
    intro t b hb
    cases hb

/-- The types after a step that only takes buffers and changes no type in hand. -/
theorem Typed.advance {s : Tracked ι} (h : Typed s) {t : ι}
    {q : FixedBufferQueue ι} {c : Client} {ret del : List Payload}
    (hdeques : forall side b, b ∈ q.dequeOf side -> b.bufferType = side)
    (hheld : forall b, b ∈ c.held -> b.bufferType = s.takenFrom b.data) :
    Typed { clients := s.clients.advance t q c ret del, takenFrom := s.takenFrom } where
  deques := hdeques
  held := by
    intro u b hb
    by_cases hu : u = t
    · subst u
      exact hheld b (by simpa using hb)
    · rw [advance_client_of_ne s.clients q c ret del hu] at hb
      exact h.held u b hb

omit [DecidableEq ι] in
/-- An array in a deque is in nobody's hands. -/
theorem Inv.not_held {s : Clients ι} (h : Inv s) {side : BufferType} {b b' : Buffer}
    {t : ι} (hb : b ∈ s.queue.dequeOf side) (hb' : b' ∈ (s.client t).held) :
    b'.data ≠ b.data := by
  intro heq
  have hdeque : b.data ∈ s.cells (placeOf side) := by
    rw [cells_placeOf]
    exact List.mem_map_of_mem hb
  have hhand : b.data ∈ s.cells (.heldBy t) := by
    rw [← heq]
    exact List.mem_map_of_mem hb'
  have hplace := h.owned.eq_of_mem hdeque hhand
  cases side <;> cases hplace

theorem Typed.take {s : Tracked ι} (h : Typed s) (hinv : Inv s.clients) {t : ι}
    {side : BufferType} {b : Buffer} {rest : List Buffer}
    (hpop : popFrom side (s.clients.queue.dequeOf side) = some (b, rest)) :
    Typed
      { clients := s.clients.advance t
          { s.clients.queue.setDeque side rest with queueMutex := none }
          (Client.afterGet (s.clients.client t).held side (.buffer (b.setType side))) []
          (deliveredBy { s.clients.queue.setDeque side rest with queueMutex := none }
            side (.buffer (b.setType side)))
        takenFrom := Function.update s.takenFrom b.data side } := by
  have hperm := popFrom_perm hpop
  have hmem : b ∈ s.clients.queue.dequeOf side :=
    hperm.mem_iff.mpr List.mem_cons_self
  have hold : forall u b', b' ∈ (s.clients.client u).held ->
      b'.bufferType = Function.update s.takenFrom b.data side b'.data := by
    intro u b' hb'
    rw [Function.update_of_ne (hinv.not_held hmem hb')]
    exact h.held u b' hb'
  constructor
  · intro side' b' hb'
    by_cases hside : side' = side
    · subst side'
      have hrest : b' ∈ rest := by
        cases side <;> exact hb'
      exact h.deques side b' (hperm.mem_iff.mpr (List.mem_cons_of_mem b hrest))
    · apply h.deques side' b'
      rw [← dequeOf_setDeque_of_ne s.clients.queue rest hside]
      cases side' <;> exact hb'
  · intro u b' hb'
    by_cases hu : u = t
    · subst u
      rw [advance_client_self] at hb'
      rcases List.mem_cons.mp hb' with rfl | hb'
      · simp [Buffer.setType]
      · exact hold _ b' hb'
    · rw [advance_client_of_ne _ _ _ _ _ hu] at hb'
      exact hold u b' hb'

theorem Typed.step {s s' : Tracked ι} {op : Op ι} (h : Typed s)
    (hinv : Inv s.clients) (hstep : TrackedStep s op s') : Typed s' := by
  cases hstep with
  | get hcall hget =>
      cases getStep_cases hget with
      | take hpop => exact h.take hinv hpop
      | _ => exact h.advance h.deques (h.held _)
  | other hstep hnoget =>
      cases hstep with
      | call side hidle => exact h.advance h.deques (h.held _)
      | get hcall hget => exact absurd hcall (hnoget _ _ _ rfl)
      | @fill t b hidle hheld hread bytesUsed contents =>
          refine h.advance h.deques ?_
          intro b' hb'
          rcases List.mem_cons.mp hb' with rfl | hb'
          · exact h.held t b hheld
          · exact h.held t b' (List.mem_of_mem_erase hb')
      | @returnBuffer t b q hidle hheld hreturn =>
          rcases returnBuffer_cases hreturn with ⟨_, rfl⟩
          refine h.advance ?_ (fun b' hb' => h.held t b' (List.mem_of_mem_erase hb'))
          intro side b' hb'
          by_cases hside : side = b.bufferType.flip
          · subst side
            rw [dequeOf_setDeque_self] at hb'
            rcases List.mem_append.mp hb' with hb' | hb'
            · exact h.deques _ b' hb'
            · rw [List.mem_singleton.mp hb']
              rfl
          · rw [dequeOf_setDeque_of_ne s.clients.queue _ hside] at hb'
            exact h.deques side b' hb'
      | notify hcall => exact h.advance h.deques (h.held _)
      | finishRead hfinish =>
          rcases finishRead_cases hfinish with ⟨_, rfl⟩
          exact ⟨h.deques, h.held⟩
      | open' => exact ⟨h.deques, h.held⟩
      | close => exact ⟨h.deques, h.held⟩
  | isEmpty hidle hempty => exact h

theorem reaches_typed {buffers : Nat -> List UInt8} {s : Tracked ι}
    {guard : Tracked ι -> Op ι -> Prop}
    (hrun : Reaches TrackedStep guard (Tracked.init buffers) s) :
    Inv s.clients ∧ Typed s := by
  refine Reaches.invariant (fun x => Inv x.clients ∧ Typed x) ?_ hrun
    ⟨init_inv buffers, init_typed buffers⟩
  intro x op x' hx _ hstep
  exact ⟨hstep.inv hx.left, hx.right.step hx.left hstep⟩

/--
In every run every array is in exactly one place, every buffer in a deque has the
type of the deque and every buffer in hand the type of the deque it was taken
from, and `returnBuffer` moves it to the opposite deque.
-/
theorem buffers_conserved (buffers : Nat -> List UInt8) (s : Tracked ι)
    (hrun : Reaches TrackedStep TrackedGuard (Tracked.init buffers) s) :
    Partitioned (fun a => a < buffersInQueue) s.clients.cells ∧
      (forall b, b ∈ s.clients.queue.readBuffers -> b.bufferType = .read) ∧
      (forall b, b ∈ s.clients.queue.writeBuffers -> b.bufferType = .write) ∧
      forall t b, b ∈ (s.clients.client t).held ->
        b.bufferType = s.takenFrom b.data ∧
        forall q, s.clients.queue.returnBuffer b = some q ->
          q = s.clients.queue.setDeque (s.takenFrom b.data).flip
            (s.clients.queue.dequeOf (s.takenFrom b.data).flip ++
              [b.setType (s.takenFrom b.data).flip]) := by
  rcases reaches_typed hrun with ⟨hinv, htyped⟩
  refine ⟨hinv.owned, htyped.deques .read, htyped.deques .write, ?_⟩
  intro t b hb
  have htype := htyped.held t b hb
  refine ⟨htype, ?_⟩
  intro q hreturn
  rw [← htype]
  exact (returnBuffer_cases hreturn).right

/-!
# A run
-/

/-- The record only watches: every step of the clients can be taken with it. -/
theorem Step.tracked {x x' : Clients ι} {op : Op ι} (hstep : Step x op x')
    (takenFrom : Nat -> BufferType) :
    exists takenFrom', TrackedStep ⟨x, takenFrom⟩ op ⟨x', takenFrom'⟩ := by
  have hother : forall t, op = .thread t ->
      (x.client t).call = .idle ∨ (x.client t).call = .notify ->
      exists takenFrom', TrackedStep ⟨x, takenFrom⟩ op ⟨x', takenFrom'⟩ := by
    rintro t rfl hcall
    refine ⟨takenFrom, TrackedStep.other hstep ?_⟩
    rintro u side pc ⟨⟩ hget
    rw [hget] at hcall
    simp at hcall
  cases hstep with
  | get hcall hget => exact ⟨_, TrackedStep.get hcall hget⟩
  | call side hidle => exact hother _ rfl (Or.inl hidle)
  | fill hidle hheld hread bytesUsed contents => exact hother _ rfl (Or.inl hidle)
  | returnBuffer hidle hheld hreturn => exact hother _ rfl (Or.inl hidle)
  | notify hnotify => exact hother _ rfl (Or.inr hnotify)
  | finishRead hfinish => exact ⟨_, TrackedStep.other (Step.finishRead hfinish) nofun⟩
  | open' => exact ⟨_, TrackedStep.other Step.open' nofun⟩
  | close => exact ⟨_, TrackedStep.other Step.close nofun⟩

/-- Every run of the clients is a run with the record. -/
theorem Reaches.tracked {x x' : Clients ι} (hrun : Reaches Step OpenOutsideTests x x')
    (takenFrom : Nat -> BufferType) :
    exists takenFrom',
      Reaches TrackedStep TrackedGuard ⟨x, takenFrom⟩ ⟨x', takenFrom'⟩ := by
  have hsim : exists y : Tracked ι, y.clients = x' ∧
      Reaches TrackedStep TrackedGuard ⟨x, takenFrom⟩ y := by
    refine Reaches.simulates (fun z (y : Tracked ι) => y.clients = z) ?_ hrun rfl
    rintro z op z' ⟨y, takenFrom₀⟩ rfl hguard hstep
    rcases Step.tracked hstep takenFrom₀ with ⟨takenFrom₁, htracked⟩
    exact ⟨_, rfl, Reaches.single hguard htracked⟩
  rcases hsim with ⟨⟨y, takenFrom'⟩, rfl, hreach⟩
  exact ⟨takenFrom', hreach⟩

/-- The consumer has a buffer in hand that was filled twice. -/
theorem buffers_conserved_secondRound :
    exists (s : Tracked Party) (b : Buffer),
      Reaches TrackedStep TrackedGuard (Tracked.init fun _ => []) s ∧
      s.clients.returned = [(2, [1, 2]), (1, [7])] ∧
      (s.clients.client .consumer).held = [b] ∧ s.clients.queue.payload b = (1, [7]) ∧
      b.bufferType = s.takenFrom b.data ∧
      forall q, s.clients.queue.returnBuffer b = some q ->
        q = s.clients.queue.setDeque (s.takenFrom b.data).flip
          (s.clients.queue.dequeOf (s.takenFrom b.data).flip ++
            [b.setType (s.takenFrom b.data).flip]) := by
  have hview : (exec next secondRound (init fun _ => [])).map (fun x =>
      (x.returned, (x.client .consumer).held, x.queue.payload ⟨511, 1, .write⟩)) =
      some ([(2, [1, 2]), (1, [7])], [⟨511, 1, .write⟩], (1, [7])) := by
    decide +kernel
  rcases Option.map_eq_some_iff.mp hview with ⟨x, hexec, hview⟩
  simp only [Prod.mk.injEq] at hview
  rcases hview with ⟨hreturned, hheld, hpayload⟩
  have hrun : Reaches Step OpenOutsideTests (init fun _ => []) x :=
    reaches_of_choices secondRound (by decide +kernel) hexec
  rcases Reaches.tracked hrun (fun _ => .read) with ⟨takenFrom, htracked⟩
  have hconserved := buffers_conserved (fun _ => []) _ htracked
  have hmine := hconserved.right.right.right .consumer ⟨511, 1, .write⟩
    (by simp [hheld])
  exact ⟨_, _, htracked, hreturned, hheld, hpayload, hmine⟩

end Clients
end Queue
end Ki
