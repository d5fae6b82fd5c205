import Ki.Queue.ClientsInvariant

/-!
# Popping an empty deque

A get function reads `isOpen` twice, in the wait predicate and in the test that
returns `nullopt`, and `open` does not take the mutex.  A thread whose first
test has seen the queue closed and its deque empty pops the empty deque if the
queue is opened before the second test.  No other order of steps leads there.
-/

namespace Ki
namespace Queue

open Foundation
open FixedBufferQueue

namespace Clients

variable {ι : Type}

/-- Thread `t` has passed the wait predicate on an empty deque and has not tested again. -/
def BetweenTests (s : Clients ι) (t : ι) (side : BufferType) : Prop :=
  (s.client t).call = .get side .recheck ∧ s.queue.dequeOf side = []

/-- No thread is between its two tests when the queue is opened. -/
def OpenOutsideTests (s : Clients ι) (op : Op ι) : Prop :=
  op = .open' -> forall t side, ¬ s.BetweenTests t side

theorem OpenOutsideTests.thread (s : Clients ι) (t : ι) :
    OpenOutsideTests s (.thread t) := by
  intro hop
  cases hop

instance (s : Clients Party) (op : Op Party) : Decidable (OpenOutsideTests s op) :=
  inferInstanceAs (Decidable (_ -> forall (_ : Party) (_ : BufferType), ¬ (_ ∧ _)))

structure NoEmptyPop (s : Clients ι) : Prop where
  closed : forall t side, s.BetweenTests t side -> s.queue.isOpen = false
  safe : forall t, (s.client t).call ≠ .popEmpty

variable [DecidableEq ι]

theorem NoEmptyPop.advance {s : Clients ι} (hn : NoEmptyPop s) (h : Inv s)
    {t : ι} {q : FixedBufferQueue ι} {c : Client} {ret del : List Payload}
    (hsafe : c.call ≠ .popEmpty)
    (hclosed : forall side, c.call = .get side .recheck ->
      q.dequeOf side = [] -> q.isOpen = false)
    (hopen : q.isOpen = s.queue.isOpen)
    (hdeques : s.queue.queueMutex = none ∨ (s.client t).call.holdsMutex ∨
      forall side, q.dequeOf side = s.queue.dequeOf side) :
    NoEmptyPop (s.advance t q c ret del) where
  closed := by
    intro u side hbetween
    rcases hbetween with ⟨hcall, hempty⟩
    by_cases hu : u = t
    · subst u
      exact hclosed side (by simpa using hcall) hempty
    · rw [advance_client_of_ne s q c ret del hu] at hcall
      have hholds : s.queue.queueMutex = some u :=
        (h.mutex u).mpr (by simp [hcall, Call.holdsMutex])
      rw [advance_queue, hopen]
      rcases hdeques with hnone | hmine | hsame
      · rw [hnone] at hholds
        cases hholds
      · have hboth : some t = some u := ((h.mutex t).mpr hmine).symm.trans hholds
        exact absurd (Option.some.inj hboth).symm hu
      · rw [advance_queue, hsame side] at hempty
        exact hn.closed u side ⟨hcall, hempty⟩
  safe := by
    intro u
    by_cases hu : u = t
    · subst u
      simpa using hsafe
    · rw [advance_client_of_ne s q c ret del hu]
      exact hn.safe u

theorem noEmptyPop_step {s s' : Clients ι} {op : Op ι} (hn : NoEmptyPop s)
    (h : Inv s) (hguard : s.OpenOutsideTests op) (hstep : Step s op s') :
    NoEmptyPop s' := by
  have hsame : forall side, s.queue.dequeOf side = s.queue.dequeOf side :=
    fun _ => rfl
  cases hstep with
  | call side hidle =>
      exact hn.advance h (by simp) (by simp) rfl (Or.inr (Or.inr hsame))
  | get hcall hget =>
      cases getStep_cases hget with
      | ready hpc hfree htest =>
          refine hn.advance h (by simp [Client.afterGet]) ?_ rfl (Or.inl hfree)
          intro side' hcall' hempty
          cases hcall'
          exact htest.resolve_left (fun hne => hne hempty)
      | unready hpc hfree hempty hopen =>
          exact hn.advance h (by simp [Client.afterGet])
            (by simp [Client.afterGet]) rfl (Or.inl hfree)
      | sleep =>
          exact hn.advance h (by simp [Client.afterGet])
            (by simp [Client.afterGet]) rfl
            (Or.inr (Or.inl (by simp [hcall, Call.holdsMutex])))
      | nullopt hempty hclosed =>
          exact hn.advance h (by simp [Client.afterGet])
            (by simp [Client.afterGet]) rfl
            (Or.inr (Or.inl (by simp [hcall, Call.holdsMutex])))
      | popEmpty hempty hopen =>
          have hclosed := hn.closed _ _ ⟨hcall, hempty⟩
          rw [hopen] at hclosed
          cases hclosed
      | take hpop =>
          exact hn.advance h (by simp [Client.afterGet])
            (by simp [Client.afterGet]) (setDeque_isOpen _ _ _)
            (Or.inr (Or.inl (by simp [hcall, Call.holdsMutex])))
  | fill hidle hheld hread bytesUsed contents =>
      refine hn.advance h (by simp) (by simp) rfl (Or.inr (Or.inr ?_))
      intro side
      cases side <;> rfl
  | returnBuffer hidle hheld hreturn =>
      rcases returnBuffer_cases hreturn with ⟨hfree, rfl⟩
      exact hn.advance h (by simp) (by simp) (setDeque_isOpen _ _ _)
        (Or.inl hfree)
  | notify hcall =>
      refine hn.advance h (by simp) (by simp) rfl (Or.inr (Or.inr ?_))
      intro side
      cases side <;> rfl
  | finishRead hfinish =>
      rcases finishRead_cases hfinish with ⟨_, rfl⟩
      exact ⟨hn.closed, hn.safe⟩
  | open' =>
      refine ⟨?_, hn.safe⟩
      intro t side hbetween
      exact absurd hbetween (hguard rfl t side)
  | close =>
      exact ⟨fun _ _ _ => rfl, hn.safe⟩

omit [DecidableEq ι] in
theorem init_noEmptyPop (buffers : Nat -> List UInt8) :
    NoEmptyPop (init buffers : Clients ι) where
  closed := fun _ _ _ => rfl
  safe := by
    intro t h
    cases h

theorem reaches_inv {s s' : Clients ι} (h : Inv s) (hn : NoEmptyPop s)
    (hrun : Reaches Step OpenOutsideTests s s') : Inv s' ∧ NoEmptyPop s' := by
  refine Reaches.invariant (fun x => Inv x ∧ NoEmptyPop x) ?_ hrun ⟨h, hn⟩
  intro x op x' hx hguard hstep
  exact ⟨step_inv hx.left hstep, noEmptyPop_step hx.right hx.left hguard hstep⟩

/--
In every run of any number of clients that opens the queue only while no thread
is between its two tests, no get function ever pops an empty deque.
-/
theorem pops_nonempty (buffers : Nat -> List UInt8) (s : Clients ι)
    (hrun : Reaches Step OpenOutsideTests (init buffers) s) (t : ι) :
    (s.client t).call ≠ .popEmpty := by
  have hinv := reaches_inv (init_inv buffers) (init_noEmptyPop buffers) hrun
  exact hinv.right.safe t

/-- What the second test of a caller does on an empty deque. -/
theorem getStep_recheck {q : FixedBufferQueue ι} {side : BufferType} (t : ι)
    (hempty : q.dequeOf side = []) :
    q.getStep side t .recheck =
      some (if q.isOpen then (.popEmpty, q)
        else (.nullopt, { q with queueMutex := none })) := by
  cases hopen : q.isOpen with
  | true =>
      cases side with
      | read => simp [getStep, hempty, hopen, popFrom]
      | write => simp [getStep, hempty, hopen, popFrom]
  | false => simp [getStep, hempty, hopen]

/-- A thread between its two tests on a new queue. -/
theorem reaches_betweenTests {guard : Clients Unit -> Op Unit -> Prop}
    (hguard : forall x, guard x (.thread ())) (buffers : Nat -> List UInt8) :
    exists s, Reaches Step guard (init buffers) s ∧ s.BetweenTests () .write ∧
      s.queue.isOpen = false := by
  have hcall := Step.call (s := init buffers) (t := ()) .write rfl
  have hget : (FixedBufferQueue.new buffers).getStep .write () .lock =
      some (.next .recheck,
        { FixedBufferQueue.new buffers with queueMutex := some () }) := rfl
  have hlock := Step.get (s := (init buffers).advance () (FixedBufferQueue.new buffers)
    ⟨.get .write .lock, []⟩ [] []) (t := ()) (by rw [advance_client_self]) hget
  refine ⟨_, (Reaches.single (hguard _) hcall).tail ⟨_, hguard _, hlock⟩, ?_, rfl⟩
  constructor
  · rw [advance_client_self]
    rfl
  · rfl

/-- The thread gets no buffer, and the queue is opened after that. -/
theorem pops_nonempty_openedLater :
    exists s, Reaches Step OpenOutsideTests (init fun _ => [] : Clients Unit) s ∧
      s.queue.isOpen = true ∧ (s.client ()).call ≠ .popEmpty := by
  have hthread : forall x : Clients Unit, OpenOutsideTests x (.thread ()) :=
    fun x => OpenOutsideTests.thread x ()
  rcases reaches_betweenTests hthread (fun _ => []) with
    ⟨s, hrun, hbetween, hclosed⟩
  have hget := getStep_recheck () hbetween.right
  rw [hclosed] at hget
  have hnullopt := Step.get hbetween.left hget
  have hmid := hrun.tail ⟨.thread (), hthread s, hnullopt⟩
  have hafter := hmid.tail ⟨.open', ?_, Step.open'⟩
  · exact ⟨_, hafter, rfl, pops_nonempty (fun _ => []) _ hafter ()⟩
  · intro _ t side htests
    rw [BetweenTests, advance_client_self] at htests
    cases htests.left

/-- In general a get function can pop an empty deque. -/
theorem pops_empty :
    ¬ forall (buffers : Nat -> List UInt8) (s : Clients Unit),
      Reaches Step anyStep (init buffers) s ->
      forall t, (s.client t).call ≠ .popEmpty := by
  intro h
  have hthread : forall x : Clients Unit, anyStep x (Op.thread ()) :=
    fun _ => trivial
  rcases reaches_betweenTests hthread (fun _ => []) with ⟨s, hrun, hbetween, _⟩
  -- `open` falls between the two tests
  have hopened := hrun.tail ⟨.open', trivial, Step.open'⟩
  have hempty : s.queue.open'.dequeOf .write = [] := hbetween.right
  have hget := getStep_recheck () hempty
  have hpop := Step.get (s := { s with queue := s.queue.open' }) hbetween.left hget
  apply h (fun _ => []) _ (hopened.tail ⟨.thread (), trivial, hpop⟩) ()
  rw [advance_client_self]
  rfl

/-!
# A run
-/

/-- The producer fills a free buffer and returns it. -/
def Party.produce (bytesUsed : Nat) (contents : List UInt8) : List (Choice Party) :=
  [.call .producer .read, .get .producer, .get .producer,
    .fill .producer bytesUsed contents, .returnBuffer .producer, .notify .producer]

/-- The consumer takes a filled buffer. -/
def Party.consume : List (Choice Party) :=
  [.call .consumer .write, .get .consumer, .get .consumer]

/-- The second round fills the array that the consumer has returned in the first. -/
def secondRound : List (Choice Party) :=
  [.open'] ++ Party.produce 2 [1, 2] ++ Party.consume ++
    [.returnBuffer .consumer, .notify .consumer] ++ Party.produce 1 [7] ++ Party.consume

end Clients
end Queue
end Ki
