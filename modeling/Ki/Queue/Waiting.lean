import Ki.Queue.EmptyPop

/-!
# Producers and consumers on an open queue

Every thread repeats one get function and `returnBuffer`.  Producers and consumers
sleep on one condition variable, but never all of them: the arrays are somewhere,
and a sleeper whose deque holds one is about to be notified.
-/

namespace Ki
namespace Queue

open Foundation
open FixedBufferQueue

namespace Clients

variable {ι : Type}

/-- A new queue after `open`. -/
def opened (buffers : Nat -> List UInt8) : Clients ι :=
  { init buffers with queue := (FixedBufferQueue.new buffers).open' }

theorem opened_inv (buffers : Nat -> List UInt8) :
    Inv (opened buffers : Clients ι) :=
  (init_inv buffers).flags true false

/-- The wait predicate of the get function for `side`. -/
def Awaited (s : Clients ι) (side : BufferType) : Prop :=
  s.queue.dequeOf side ≠ [] ∨ s.queue.isOpen = false

variable [DecidableEq ι]

/--
The steps of the loops: a thread calls the get function of its role, `.read` for
a producer, with nothing in hand.
-/
def LoopStep (role : ι -> BufferType) (s : Clients ι) (t : ι) (s' : Clients ι) : Prop :=
  Step s (.thread t) s' ∧
    forall side, (s'.client t).call = .get side .lock ->
      (s.client t).call = .idle -> side = role t ∧ (s.client t).held = []

/-- On an open queue a thread inside a get function has called its own, empty-handed. -/
structure Looping (role : ι -> BufferType) (s : Clients ι) : Prop where
  inv : Inv s
  opened : s.queue.isOpen = true
  getting : forall t side pc, (s.client t).call = .get side pc ->
    side = role t ∧ (s.client t).held = []

omit [DecidableEq ι] in
theorem opened_looping (role : ι -> BufferType) (buffers : Nat -> List UInt8) :
    Looping role (Clients.opened buffers) where
  inv := opened_inv buffers
  opened := rfl
  getting := by
    intro t side pc h
    cases h

theorem Step.isOpen {s s' : Clients ι} {t : ι} (hstep : Step s (.thread t) s') :
    s'.queue.isOpen = s.queue.isOpen := by
  cases hstep with
  | get hcall hget => exact getStep_isOpen hget
  | returnBuffer hidle hheld hreturn =>
      rcases returnBuffer_cases hreturn with ⟨_, rfl⟩
      exact setDeque_isOpen _ _ _
  | _ => rfl

theorem Step.client_of_ne {s s' : Clients ι} {t u : ι} (hstep : Step s (.thread t) s')
    (hu : u ≠ t) : s'.client u = s.client u := by
  cases hstep <;> exact advance_client_of_ne s _ _ _ _ hu

/-- A thread inside a get function has just called it or was inside it before. -/
theorem Step.getting {s s' : Clients ι} {t : ι} {side : BufferType} {pc : GetPc}
    (hstep : Step s (.thread t) s') (hcall : (s'.client t).call = .get side pc) :
    (s'.client t).held = (s.client t).held ∧
      ((s.client t).call = .idle ∧ pc = .lock ∨
        exists pc', (s.client t).call = .get side pc') := by
  cases hstep with
  | call side' hidle =>
      rw [advance_client_self] at hcall ⊢
      cases hcall
      exact ⟨rfl, Or.inl ⟨hidle, rfl⟩⟩
  | @get t side' pc' r q hget hstep =>
      rw [advance_client_self] at hcall ⊢
      cases r with
      | next pc'' =>
          cases hcall
          exact ⟨rfl, Or.inr ⟨pc', hget⟩⟩
      | nullopt => cases hcall
      | buffer b => cases hcall
      | popEmpty => cases hcall
  | fill => simp at hcall
  | returnBuffer => simp at hcall
  | notify => simp at hcall

theorem Looping.step {role : ι -> BufferType} {s s' : Clients ι} {t : ι}
    (h : Looping role s) (hstep : LoopStep role s t s') : Looping role s' where
  inv := step_inv h.inv hstep.left
  opened := by
    rw [hstep.left.isOpen]
    exact h.opened
  getting := by
    intro u side pc hcall
    by_cases hu : u = t
    · subst u
      rcases hstep.left.getting hcall with ⟨hheld, hcase⟩
      rw [hheld]
      rcases hcase with ⟨hidle, rfl⟩ | ⟨pc', hbefore⟩
      · exact hstep.right side hcall hidle
      · exact h.getting t side pc' hbefore
    · rw [hstep.left.client_of_ne hu] at hcall ⊢
      exact h.getting u side pc hcall

theorem Looping.run {role : ι -> BufferType} {s s' : Clients ι} (h : Looping role s)
    (hrun : Reaches (LoopStep role) anyStep s s') : Looping role s' :=
  Reaches.invariant (Looping role) (fun _ _ _ hx _ hstep => hx.step hstep) hrun h

omit [DecidableEq ι] in
/-- A sleeper whose predicate holds is about to be notified. -/
theorem Looping.notified {role : ι -> BufferType} {s : Clients ι} (h : Looping role s)
    {t : ι} (hasleep : t ∈ s.queue.cv) (hready : s.Awaited (role t)) :
    exists u, (s.client u).call = .notify := by
  rcases h.inv.asleep t hasleep with ⟨side, hcall⟩
  have hside := (h.getting t side _ hcall).left
  subst side
  refine h.inv.wakeup t _ hasleep hcall ?_
  refine hready.resolve_right ?_
  rw [h.opened]
  simp

omit [DecidableEq ι] in
/-- If nobody holds an array, one of the two wait predicates holds. -/
theorem Looping.awaited {role : ι -> BufferType} {s : Clients ι} (h : Looping role s)
    (hheld : forall t, (s.client t).held = []) : exists side, s.Awaited side := by
  have hdeque : forall side, 0 ∈ s.cells (placeOf side) -> s.Awaited side := by
    intro side hmem
    refine Or.inl ?_
    intro hnil
    rw [cells_placeOf, hnil] at hmem
    cases hmem
  rcases h.inv.owned.exists_mem buffersInQueue_pos with ⟨place, hplace⟩
  cases place with
  | readBuffers => exact ⟨.read, hdeque .read hplace⟩
  | writeBuffers => exact ⟨.write, hdeque .write hplace⟩
  | heldBy t =>
      rw [cells, hheld t] at hplace
      cases hplace

omit [DecidableEq ι] in
theorem Looping.awake {role : ι -> BufferType} {s : Clients ι} (h : Looping role s)
    (hroles : forall side, exists t, role t = side) : exists t, t ∉ s.queue.cv := by
  apply Classical.byContradiction
  intro hall
  have hasleep : forall t, t ∈ s.queue.cv := by
    intro t
    apply Classical.byContradiction
    intro ht
    exact hall ⟨t, ht⟩
  have hcalls : forall t, exists side, (s.client t).call = .get side .blocked :=
    fun t => h.inv.asleep t (hasleep t)
  have hheld : forall t, (s.client t).held = [] := by
    intro t
    rcases hcalls t with ⟨side, hcall⟩
    exact (h.getting t side _ hcall).right
  rcases h.awaited hheld with ⟨side, hready⟩
  rcases hroles side with ⟨t, rfl⟩
  rcases h.notified (hasleep t) hready with ⟨u, hu⟩
  rcases hcalls u with ⟨side, hcall⟩
  rw [hu] at hcall
  cases hcall

/--
In every run of producers and consumers on an open queue some thread is awake, and
a thread is asleep with its predicate true only while `notify_all` is still to come.
-/
theorem never_all_asleep (role : ι -> BufferType) (producer consumer : ι)
    (hproducer : role producer = .read) (hconsumer : role consumer = .write)
    (buffers : Nat -> List UInt8) (s : Clients ι)
    (hrun : Reaches (LoopStep role) anyStep (opened buffers) s) :
    (exists t, t ∉ s.queue.cv) ∧
      forall t, t ∈ s.queue.cv -> s.Awaited (role t) ->
        exists u, (s.client u).call = .notify := by
  have hlooping := (opened_looping role buffers).run hrun
  refine ⟨hlooping.awake ?_, fun t => hlooping.notified⟩
  intro side
  cases side with
  | read => exact ⟨producer, hproducer⟩
  | write => exact ⟨consumer, hconsumer⟩

/-- The role is asked for at the call of a get function only. -/
theorem LoopStep.of_busy (role : ι -> BufferType) {s s' : Clients ι} {t : ι}
    (hstep : Step s (.thread t) s') (hbusy : (s.client t).call ≠ .idle) :
    LoopStep role s t s' :=
  ⟨hstep, fun _ _ hidle => absurd hidle hbusy⟩

/-- A consumer asleep on the new queue, its producer awake. -/
theorem never_all_asleep_consumerWaits :
    exists s : Clients BufferType,
      Reaches (LoopStep id) anyStep (opened fun _ => []) s ∧
      .write ∈ s.queue.cv ∧ exists t, t ∉ s.queue.cv := by
  have hcall := Step.call (s := opened fun _ => []) (t := BufferType.write) .write rfl
  have hlock : (opened fun _ => [] : Clients BufferType).queue.getStep .write .write
      .lock = some (.next .wait,
        { (opened fun _ => [] : Clients BufferType).queue with
          queueMutex := some .write }) := rfl
  rcases Step.advances
      (s := (opened fun _ => []).advance .write (opened fun _ => []).queue
        ⟨.get .write .lock, []⟩ [] [])
      (by rw [advance_client_self]) hlock with ⟨s₁, hstep₁, hclient₁, hqueue₁⟩
  rcases Step.advances hclient₁ (r := .next .blocked) rfl with
    ⟨s₂, hstep₂, _, hqueue₂⟩
  have hloop : LoopStep id (opened fun _ => []) BufferType.write _ :=
    ⟨hcall, fun side hside _ => by
      rw [advance_client_self] at hside
      cases hside
      exact ⟨rfl, rfl⟩⟩
  have hloop₁ := LoopStep.of_busy id hstep₁ (by rw [advance_client_self]; nofun)
  have hloop₂ := LoopStep.of_busy id hstep₂ (by rw [hclient₁]; nofun)
  have hrun : Reaches (LoopStep id) anyStep (opened fun _ => []) s₂ :=
    ((Reaches.single trivial hloop).tail ⟨_, trivial, hloop₁⟩).tail
      ⟨_, trivial, hloop₂⟩
  have hasleep : BufferType.write ∈ s₂.queue.cv := by
    rw [hqueue₂]
    exact List.mem_cons_self
  have hawake := never_all_asleep id .read .write rfl rfl _ s₂ hrun
  exact ⟨s₂, hrun, hasleep, hawake.left⟩

end Clients
end Queue
end Ki
