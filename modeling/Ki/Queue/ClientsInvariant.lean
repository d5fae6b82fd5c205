import Ki.Queue.Clients

/-!
# The invariant of the queue's clients

Every operation of every client keeps `Clients.Inv`: mutual exclusion, the
sleepers' side of the wait and notify protocol, exclusive ownership of the
arrays, and first-in first-out delivery.
-/

namespace Ki
namespace Queue

open Foundation
open FixedBufferQueue

namespace Clients

variable {ι : Type} [DecidableEq ι]

theorem cells_advance {s : Clients ι} {t : ι} {q : FixedBufferQueue ι}
    {c : Client} (ret del : List Payload)
    (hread : q.readBuffers = s.queue.readBuffers)
    (hwrite : q.writeBuffers = s.queue.writeBuffers)
    (hheld : c.held.map Buffer.data = (s.client t).held.map Buffer.data) :
    (s.advance t q c ret del).cells = s.cells := by
  funext place
  cases place with
  | readBuffers => simp [cells, hread]
  | writeBuffers => simp [cells, hwrite]
  | heldBy u =>
      by_cases hu : u = t
      · subst u
        simpa [cells] using hheld
      · simp [cells, advance_client_of_ne s q c ret del hu]

/-- The place of the buffers in a deque. -/
def placeOf : BufferType -> Place ι
  | .read => .readBuffers
  | .write => .writeBuffers

omit [DecidableEq ι] in
theorem cells_placeOf (s : Clients ι) (side : BufferType) :
    s.cells (placeOf side) = (s.queue.dequeOf side).map Buffer.data := by
  cases side <;> rfl

theorem cells_advance_of_ne {s : Clients ι} {t : ι} {side : BufferType}
    {q : FixedBufferQueue ι} {c : Client} (ret del : List Payload)
    (hq : forall side', side' ≠ side -> q.dequeOf side' = s.queue.dequeOf side')
    {place : Place ι} (hplace : place ≠ placeOf side)
    (hheld : place ≠ .heldBy t) :
    (s.advance t q c ret del).cells place = s.cells place := by
  cases place with
  | heldBy u =>
      have hu : u ≠ t := by
        intro heq
        exact hheld (heq ▸ rfl)
      simp [cells, advance_client_of_ne s _ c ret del hu]
  | readBuffers =>
      have hside : BufferType.read ≠ side := by
        intro heq
        exact hplace (heq ▸ rfl)
      exact congrArg (List.map Buffer.data) (hq .read hside)
  | writeBuffers =>
      have hside : BufferType.write ≠ side := by
        intro heq
        exact hplace (heq ▸ rfl)
      exact congrArg (List.map Buffer.data) (hq .write hside)

/--
The invariant after a step of thread `t`, from what the step does to the queue
and to the thread itself.
-/
theorem Inv.advance {s : Clients ι} (h : Inv s) {t : ι} {q : FixedBufferQueue ι}
    {c : Client} {ret del : List Payload}
    (hmutex : q.queueMutex = some t <-> c.call.holdsMutex)
    (hothers : forall u, u ≠ t ->
      (q.queueMutex = some u <-> s.queue.queueMutex = some u))
    (hunready : forall side, c.call = .get side .wait -> q.dequeOf side = [])
    (hdeques : s.queue.queueMutex = none ∨ (s.client t).call.holdsMutex ∨
      forall side, q.dequeOf side = s.queue.dequeOf side)
    (hasleep : t ∈ q.cv -> exists side, c.call = .get side .blocked)
    (hcv : forall u, u ≠ t -> u ∈ q.cv -> u ∈ s.queue.cv)
    (hwakeup : c.call = .notify ∨ q.cv = [] ∨
      (s.client t).call ≠ .notify ∧
      (forall side, q.dequeOf side ≠ [] -> s.queue.dequeOf side ≠ []) ∧
      (forall side, t ∈ q.cv -> c.call = .get side .blocked ->
        q.dequeOf side = []))
    (howned : Partitioned (fun a => a < buffersInQueue)
      (s.advance t q c ret del).cells)
    (hfifo : (s.delivered ++ del) ++ q.writeBuffers.map q.payload =
      s.returned ++ ret) :
    Inv (s.advance t q c ret del) where
  mutex := by
    intro u
    by_cases hu : u = t
    · subst u
      simpa using hmutex
    · rw [advance_client_of_ne s q c ret del hu, advance_queue, hothers u hu]
      exact h.mutex u
  unready := by
    intro u side hcall
    by_cases hu : u = t
    · subst u
      exact hunready side (by simpa using hcall)
    · rw [advance_client_of_ne s q c ret del hu] at hcall
      have hholds : s.queue.queueMutex = some u :=
        (h.mutex u).mpr (by simp [hcall, Call.holdsMutex])
      -- the mutex is in the hands of `u`, so `t` cannot have changed a deque
      rcases hdeques with hnone | hmine | hsame
      · rw [hnone] at hholds
        cases hholds
      · have hboth : some t = some u := ((h.mutex t).mpr hmine).symm.trans hholds
        exact absurd (Option.some.inj hboth).symm hu
      · rw [advance_queue, hsame side]
        exact h.unready u side hcall
  asleep := by
    intro u hmem
    by_cases hu : u = t
    · subst u
      simpa using hasleep hmem
    · rw [advance_client_of_ne s q c ret del hu]
      exact h.asleep u (hcv u hu hmem)
  wakeup := by
    intro u side hmem hcall hne
    rcases hwakeup with hnotify | hnil | ⟨hquiet, hshrink, hself⟩
    · exact ⟨t, by simpa using hnotify⟩
    · rw [advance_queue, hnil] at hmem
      cases hmem
    · by_cases hu : u = t
      · subst u
        exact absurd (hself side hmem (by simpa using hcall)) hne
      · rw [advance_client_of_ne s q c ret del hu] at hcall
        rcases h.wakeup u side (hcv u hu hmem) hcall (hshrink side hne) with
          ⟨t', ht'⟩
        have hne' : t' ≠ t := by
          intro heq
          exact hquiet (heq ▸ ht')
        exact ⟨t', by rw [advance_client_of_ne s q c ret del hne']; exact ht'⟩
  owned := howned
  fifo := hfifo


/-- The case of a step that leaves the deques, the arrays and the buffers in hand alone. -/
theorem Inv.advance_control {s : Clients ι} (h : Inv s) {t : ι}
    {q : FixedBufferQueue ι} {c : Client}
    (hbuffers : q.buffers = s.queue.buffers)
    (hread : q.readBuffers = s.queue.readBuffers)
    (hwrite : q.writeBuffers = s.queue.writeBuffers)
    (hheld : c.held = (s.client t).held)
    (hmutex : q.queueMutex = some t <-> c.call.holdsMutex)
    (hothers : forall u, u ≠ t ->
      (q.queueMutex = some u <-> s.queue.queueMutex = some u))
    (hunready : forall side, c.call = .get side .wait -> q.dequeOf side = [])
    (hasleep : t ∈ q.cv -> exists side, c.call = .get side .blocked)
    (hcv : forall u, u ≠ t -> u ∈ q.cv -> u ∈ s.queue.cv)
    (hwakeup : q.cv = [] ∨ (s.client t).call ≠ .notify ∧
      (forall side, t ∈ q.cv -> c.call = .get side .blocked ->
        q.dequeOf side = [])) :
    Inv (s.advance t q c [] []) := by
  have hdeque : forall side, q.dequeOf side = s.queue.dequeOf side := by
    intro side
    cases side with
    | read => exact hread
    | write => exact hwrite
  have hpayload := payload_congr hbuffers
  refine h.advance hmutex hothers hunready (Or.inr (Or.inr hdeque)) hasleep hcv
    ?_ ?_ ?_
  · rcases hwakeup with hnil | ⟨hquiet, hself⟩
    · exact Or.inr (Or.inl hnil)
    · refine Or.inr (Or.inr ⟨hquiet, ?_, hself⟩)
      intro side hne
      rwa [← hdeque side]
  · rw [cells_advance [] [] hread hwrite (by rw [hheld])]
    exact h.owned
  · simpa [hwrite, hpayload] using h.fifo

omit [DecidableEq ι] in
theorem Inv.not_holds {s : Clients ι} (h : Inv s) {t : ι}
    (hcall : ¬ (s.client t).call.holdsMutex) : s.queue.queueMutex ≠ some t := by
  intro hmutex
  exact hcall ((h.mutex t).mp hmutex)

omit [DecidableEq ι] in
theorem Inv.not_asleep {s : Clients ι} (h : Inv s) {t : ι}
    (hcall : forall side, (s.client t).call ≠ .get side .blocked) :
    t ∉ s.queue.cv := by
  intro hmem
  rcases h.asleep t hmem with ⟨side, hside⟩
  exact hcall side hside

theorem Inv.call {s : Clients ι} (h : Inv s) {t : ι} (side : BufferType)
    (hidle : (s.client t).call = .idle) :
    Inv (s.advance t s.queue ⟨.get side .lock, (s.client t).held⟩ [] []) := by
  have hnot := h.not_holds (t := t) (by simp [hidle, Call.holdsMutex])
  have hawake := h.not_asleep (t := t) (by simp [hidle])
  refine h.advance_control rfl rfl rfl rfl ?_ ?_ ?_ ?_ ?_ ?_
  · simp [Call.holdsMutex, hnot]
  · simp
  · simp
  · simp [hawake]
  · simp
  · simp [hidle, hawake]

theorem Inv.enter {s : Clients ι} (h : Inv s) {t : ι} {side : BufferType}
    {pc pc' : GetPc} (hcall : (s.client t).call = .get side pc)
    (hpc : pc = .lock ∨ pc = .blocked ∧ t ∉ s.queue.cv)
    (hfree : s.queue.queueMutex = none)
    (hpc' : pc' = .recheck ∨ pc' = .wait ∧ s.queue.dequeOf side = []) :
    Inv (s.advance t { s.queue with queueMutex := some t }
      ⟨.get side pc', (s.client t).held⟩ [] []) := by
  have hawake : t ∉ s.queue.cv := by
    rcases hpc with rfl | ⟨_, hnotin⟩
    · exact h.not_asleep (by simp [hcall])
    · exact hnotin
  refine h.advance_control rfl rfl rfl rfl ?_ ?_ ?_ ?_ ?_ ?_
  · rcases hpc' with rfl | ⟨rfl, _⟩ <;> simp [Call.holdsMutex]
  · intro u hu
    simp [hfree, Ne.symm hu]
  · intro side' hcall'
    rcases hpc' with rfl | ⟨rfl, hempty⟩
    · cases hcall'
    · cases hcall'
      exact hempty
  · simp [hawake]
  · simp
  · simp [hcall, hawake]

theorem Inv.take {s : Clients ι} (h : Inv s) {t : ι} {side : BufferType}
    {b : Buffer} {rest : List Buffer}
    (hcall : (s.client t).call = .get side .recheck)
    (hpop : popFrom side (s.queue.dequeOf side) = some (b, rest)) :
    Inv (s.advance t { s.queue.setDeque side rest with queueMutex := none }
      (Client.afterGet (s.client t).held side (.buffer (b.setType side))) []
      (deliveredBy { s.queue.setDeque side rest with queueMutex := none } side
        (.buffer (b.setType side)))) := by
  have hmine : (s.client t).call.holdsMutex := by simp [hcall, Call.holdsMutex]
  have hmutex := (h.mutex t).mpr hmine
  have hawake := h.not_asleep (t := t) (by simp [hcall])
  have hperm := popFrom_perm hpop
  refine h.advance ?_ ?_ ?_ ?_ ?_ ?_ ?_ ?_ ?_
  · simp [Client.afterGet, Call.holdsMutex]
  · intro u hu
    simp [hmutex, Ne.symm hu]
  · simp [Client.afterGet]
  · exact Or.inr (Or.inl hmine)
  · simp [hawake]
  · simp
  · refine Or.inr (Or.inr ⟨by simp [hcall], ?_, by simp [Client.afterGet]⟩)
    intro side' hne hnil
    by_cases hside : side' = side
    · subst side'
      rw [hnil] at hperm
      exact absurd hperm.nil_eq (by simp)
    · refine hne ?_
      rw [← hnil]
      exact dequeOf_setDeque_of_ne s.queue rest hside
  · refine h.owned.move (a := b.data) (b := placeOf side) (c := .heldBy t)
      ?_ ?_ ?_ ?_
    · cases side <;> simp [placeOf]
    · rw [cells_placeOf, cells_placeOf]
      have hdata := hperm.map Buffer.data
      cases side <;> exact hdata
    · simp [cells, Client.afterGet]
    · intro place hplace hheld
      exact cells_advance_of_ne
        (q := { s.queue.setDeque side rest with queueMutex := none }) _ _
        (fun _ hne => dequeOf_setDeque_of_ne s.queue rest hne) hplace hheld
  · rw [payload_congr (q := s.queue) (by simp)]
    have hfifo := h.fifo
    cases side with
    | read => simpa [deliveredBy, setDeque] using hfifo
    | write =>
        have hfront : s.queue.writeBuffers = b :: rest := popFrom_write hpop
        rw [hfront] at hfifo
        simpa [deliveredBy, setDeque, FixedBufferQueue.payload] using hfifo

theorem Inv.get {s : Clients ι} (h : Inv s) {t : ι} {side : BufferType}
    {pc : GetPc} {r : GetResult} {q : FixedBufferQueue ι}
    (hcall : (s.client t).call = .get side pc)
    (hget : s.queue.getStep side t pc = some (r, q)) :
    Inv (s.advance t q (Client.afterGet (s.client t).held side r) []
      (deliveredBy q side r)) := by
  cases getStep_cases hget with
  | ready hpc hfree htest =>
      exact h.enter hcall hpc hfree (Or.inl rfl)
  | unready hpc hfree hempty hopen =>
      exact h.enter hcall hpc hfree (Or.inr ⟨rfl, hempty⟩)
  | sleep =>
      have hmutex : s.queue.queueMutex = some t :=
        (h.mutex t).mpr (by simp [hcall, Call.holdsMutex])
      refine h.advance_control rfl rfl rfl rfl ?_ ?_ ?_ ?_ ?_ ?_
      · simp [Client.afterGet, Call.holdsMutex]
      · intro u hu
        simp [hmutex, Ne.symm hu]
      · simp [Client.afterGet]
      · simp [Client.afterGet]
      · intro u hu hmem
        exact (List.mem_cons.mp hmem).resolve_left hu
      · refine Or.inr ⟨by simp [hcall], ?_⟩
        intro side' _ hcall'
        cases hcall'
        exact h.unready t side hcall
  | nullopt hempty hclosed =>
      have hmutex : s.queue.queueMutex = some t :=
        (h.mutex t).mpr (by simp [hcall, Call.holdsMutex])
      have hawake := h.not_asleep (t := t) (by simp [hcall])
      refine h.advance_control rfl rfl rfl rfl ?_ ?_ ?_ ?_ ?_ ?_
      · simp [Client.afterGet, Call.holdsMutex]
      · intro u hu
        simp [hmutex, Ne.symm hu]
      · simp [Client.afterGet]
      · simp [hawake]
      · simp
      · simp [hcall, hawake]
  | popEmpty hempty hopen =>
      have hmutex : s.queue.queueMutex = some t :=
        (h.mutex t).mpr (by simp [hcall, Call.holdsMutex])
      have hawake := h.not_asleep (t := t) (by simp [hcall])
      refine h.advance_control rfl rfl rfl rfl ?_ ?_ ?_ ?_ ?_ ?_
      · simp [Client.afterGet, Call.holdsMutex, hmutex]
      · simp
      · simp [Client.afterGet]
      · simp [hawake]
      · simp
      · simp [hcall, hawake]
  | take hpop =>
      exact h.take hcall hpop

theorem Inv.fill {s : Clients ι} (h : Inv s) {t : ι} {b : Buffer}
    (hidle : (s.client t).call = .idle) (hheld : b ∈ (s.client t).held)
    (bytesUsed : Nat) (contents : List UInt8) :
    Inv (s.advance t
      { s.queue with buffers := Function.update s.queue.buffers b.data contents }
      ⟨.idle, { b with bytesUsed := bytesUsed } :: (s.client t).held.erase b⟩ [] []) := by
  have hnot := h.not_holds (t := t) (by simp [hidle, Call.holdsMutex])
  have hawake := h.not_asleep (t := t) (by simp [hidle])
  refine h.advance ?_ ?_ ?_ ?_ ?_ ?_ ?_ ?_ ?_
  · simp [Call.holdsMutex, hnot]
  · simp
  · simp
  · exact Or.inr (Or.inr (fun side => by cases side <;> rfl))
  · simp [hawake]
  · simp
  · refine Or.inr (Or.inr ⟨by simp [hidle], ?_, by simp⟩)
    intro side hne
    cases side <;> exact hne
  · refine h.owned.congr ?_
    intro place
    cases place with
    | readBuffers => exact List.Perm.refl _
    | writeBuffers => exact List.Perm.refl _
    | heldBy u =>
        by_cases hu : u = t
        · subst u
          simpa [cells] using
            ((List.perm_cons_erase hheld).map Buffer.data).symm
        · simp [cells, advance_client_of_ne s _ _ [] [] hu]
  · -- no filled buffer shares its array with the buffer in hand
    have hpayload : forall b', b' ∈ s.queue.writeBuffers ->
        ({ s.queue with buffers :=
            Function.update s.queue.buffers b.data contents } :
          FixedBufferQueue ι).payload b' = s.queue.payload b' := by
      intro b' hb'
      have hne : b'.data ≠ b.data := by
        intro heq
        have hw : b.data ∈ s.cells .writeBuffers := by
          rw [← heq]
          exact List.mem_map_of_mem hb'
        have hh : b.data ∈ s.cells (.heldBy t) := List.mem_map_of_mem hheld
        cases h.owned.eq_of_mem hw hh
      simp [FixedBufferQueue.payload, hne]
    have hmap := List.map_congr_left hpayload
    simp only [List.append_nil]
    rw [hmap]
    exact h.fifo

theorem Inv.returnBuffer {s : Clients ι} (h : Inv s) {t : ι} {b : Buffer}
    {q : FixedBufferQueue ι} (hidle : (s.client t).call = .idle)
    (hheld : b ∈ (s.client t).held) (hreturn : s.queue.returnBuffer b = some q) :
    Inv (s.advance t q ⟨.notify, (s.client t).held.erase b⟩
      (returnedBy s.queue b) []) := by
  rcases returnBuffer_cases hreturn with ⟨hfree, rfl⟩
  have hawake := h.not_asleep (t := t) (by simp [hidle])
  refine h.advance ?_ ?_ ?_ ?_ ?_ ?_ ?_ ?_ ?_
  · simp [Call.holdsMutex, hfree]
  · simp
  · simp
  · exact Or.inl hfree
  · simp [hawake]
  · simp
  · exact Or.inl rfl
  · refine h.owned.move (a := b.data) (b := .heldBy t)
      (c := placeOf b.bufferType.flip) ?_ ?_ ?_ ?_
    · cases b.bufferType <;> simp [placeOf, BufferType.flip]
    · simpa [cells] using (List.perm_cons_erase hheld).map Buffer.data
    · rw [cells_placeOf, cells_placeOf]
      simp
    · intro place hplace hplace'
      exact cells_advance_of_ne _ _
        (fun _ hne => dequeOf_setDeque_of_ne s.queue _ hne) hplace' hplace
  · rw [payload_congr (q := s.queue) (by simp)]
    have hfifo := h.fifo
    cases htype : b.bufferType with
    | read =>
        simp [returnedBy, htype, BufferType.flip, setDeque, dequeOf,
          FixedBufferQueue.payload, ← hfifo]
    | write =>
        simpa [returnedBy, htype, BufferType.flip, setDeque] using hfifo

theorem Inv.notify {s : Clients ι} (h : Inv s) {t : ι}
    (hcall : (s.client t).call = .notify) :
    Inv (s.advance t s.queue.notifyAll ⟨.idle, (s.client t).held⟩ [] []) := by
  have hnot := h.not_holds (t := t) (by simp [hcall, Call.holdsMutex])
  refine h.advance_control rfl rfl rfl rfl ?_ ?_ ?_ ?_ ?_ ?_
  · simp [Call.holdsMutex, notifyAll, hnot]
  · simp [notifyAll]
  · simp
  · simp [notifyAll]
  · simp [notifyAll]
  · exact Or.inl rfl

omit [DecidableEq ι] in
theorem Inv.flags {s : Clients ι} (h : Inv s) (isOpen isReadFinished_ : Bool) :
    Inv { s with queue := { s.queue with
      isOpen := isOpen
      isReadFinished_ := isReadFinished_ } } where
  mutex := h.mutex
  unready := by
    intro t side hcall
    have hempty := h.unready t side hcall
    cases side <;> exact hempty
  asleep := h.asleep
  wakeup := by
    intro t side hmem hcall hne
    refine h.wakeup t side hmem hcall ?_
    cases side <;> exact hne
  owned := by
    refine h.owned.congr ?_
    intro place
    cases place <;> exact List.Perm.refl _
  fifo := h.fifo

theorem step_inv {s s' : Clients ι} {op : Op ι} (h : Inv s)
    (hstep : Step s op s') : Inv s' := by
  cases hstep with
  | call side hidle => exact h.call side hidle
  | get hcall hget => exact h.get hcall hget
  | fill hidle hheld hread bytesUsed contents =>
      exact h.fill hidle hheld bytesUsed contents
  | returnBuffer hidle hheld hreturn => exact h.returnBuffer hidle hheld hreturn
  | notify hcall => exact h.notify hcall
  | finishRead hfinish =>
      rcases finishRead_cases hfinish with ⟨_, rfl⟩
      exact h.flags _ _
  | open' => exact h.flags _ _
  | close => exact h.flags _ _

theorem Step.advances {s : Clients ι} {t : ι} {side : BufferType} {pc : GetPc}
    {held : List Buffer} {r : GetResult} {q : FixedBufferQueue ι}
    (hclient : s.client t = ⟨.get side pc, held⟩)
    (hget : s.queue.getStep side t pc = some (r, q)) :
    exists s', Step s (.thread t) s' ∧ s'.client t = Client.afterGet held side r ∧
      s'.queue = q := by
  refine ⟨_, Step.get (by rw [hclient]) hget, ?_, rfl⟩
  rw [advance_client_self, hclient]

/-- The invariant holds of every state of every run. -/
theorem Inv.run {s s' : Clients ι} {guard : Clients ι -> Op ι -> Prop} (h : Inv s)
    (hrun : Reaches Step guard s s') : Inv s' :=
  Reaches.invariant Inv (fun _ _ _ hx _ hstep => step_inv hx hstep) hrun h

end Clients
end Queue
end Ki
