import Ki.Foundation.Counting
import Ki.Foundation.Runs
import Ki.Queue.SynchronizedQueue

/-!
# Threads pushing to and popping from a synchronized queue

Any number of threads on one open queue.  `push` wakes one sleeper, and the chunk
may be gone before the woken thread tests again; what is left of each push is
either taken, owed to a woken thread, or still to be announced by `notify_one`.
Nobody leaves a critical section half-way, so each is one step and the mutex is
free between the steps.
-/

namespace Ki
namespace Queue

open Foundation
open SynchronizedQueue

/-- Where a thread stands in the member function it is executing. -/
inductive Work where
  | idle
  /-- inside `push`, between releasing the mutex and `notify_one` -/
  | notify
  | pop (pc : PopPc)
deriving DecidableEq, Repr

/-- The thread after a step of `pop` with the given result. -/
def Work.afterPop {χ : Type} : PopResult χ -> Work
  | .wait => .pop .waiting
  | .nullopt => .idle
  | .buffer _ => .idle

/-- What a step of `pop` takes out of the queue. -/
def poppedBy {χ : Type} : PopResult χ -> List χ
  | .buffer b => [b]
  | _ => []

/-- The queue, its threads, and the chunks pushed and popped, in order. -/
structure Workers (ι χ : Type) where
  queue : SynchronizedQueue ι χ
  thread : ι -> Work
  pushed : List χ
  popped : List χ

namespace Workers

variable {ι χ : Type}

/-- Every thread idle on a new queue that has been opened. -/
def opened : Workers ι χ where
  queue := SynchronizedQueue.new.open'
  thread := fun _ => .idle
  pushed := []
  popped := []

variable [DecidableEq ι]

/-- The state after thread `t` has made a step. -/
def advance (s : Workers ι χ) (t : ι) (q : SynchronizedQueue ι χ) (w : Work)
    (pushed popped : List χ) : Workers ι χ where
  queue := q
  thread := Function.update s.thread t w
  pushed := s.pushed ++ pushed
  popped := s.popped ++ popped

@[simp] theorem advance_queue (s : Workers ι χ) (t : ι) (q : SynchronizedQueue ι χ)
    (w : Work) (pushed popped : List χ) :
    (s.advance t q w pushed popped).queue = q := rfl

@[simp] theorem advance_thread_self (s : Workers ι χ) (t : ι)
    (q : SynchronizedQueue ι χ) (w : Work) (pushed popped : List χ) :
    (s.advance t q w pushed popped).thread t = w := by
  simp [advance]

theorem advance_thread_of_ne (s : Workers ι χ) {t u : ι} (q : SynchronizedQueue ι χ)
    (w : Work) (pushed popped : List χ) (hu : u ≠ t) :
    (s.advance t q w pushed popped).thread u = s.thread u := by
  simp [advance, hu]

/-- The state after the sleeper `u` has been woken. -/
def wake (s : Workers ι χ) (u : ι) : Workers ι χ :=
  { s with queue := s.queue.notifyOne u }

@[simp] theorem wake_thread (s : Workers ι χ) (u : ι) :
    (s.wake u).thread = s.thread := rfl

/--
The steps.  `notify_one` wakes any one of the sleepers, and nobody if there is
none; a sleeper may also wake up by itself.
-/
inductive Step (s : Workers ι χ) : ι -> Workers ι χ -> Prop where
  | push {t : ι} (b : χ) (hidle : s.thread t = .idle) :
      Step s t (s.advance t (s.queue.push b) .notify [b] [])
  | notify {t u : ι} (hnotify : s.thread t = .notify) (hu : u ∈ s.queue.cv) :
      Step s t ((s.wake u).advance t (s.wake u).queue .idle [] [])
  | notifyNobody {t : ι} (hnotify : s.thread t = .notify) (hcv : s.queue.cv = []) :
      Step s t (s.advance t s.queue .idle [] [])
  | call {t : ι} (hidle : s.thread t = .idle) :
      Step s t (s.advance t s.queue (.pop .lock) [] [])
  | pop {t : ι} {pc : PopPc} {r : PopResult χ} {q : SynchronizedQueue ι χ}
      (hcall : s.thread t = .pop pc) (hpop : s.queue.pop t pc = some (r, q)) :
      Step s t (s.advance t q (Work.afterPop r) [] (poppedBy r))
  | spurious {t : ι} (ht : t ∈ s.queue.cv) :
      Step s t (s.wake t)

/-!
# The invariant
-/

/-- Woken, by `notify_one` or by itself, and not yet back at the test. -/
def Woken (s : Workers ι χ) (t : ι) : Prop :=
  s.thread t = .pop .waiting ∧ t ∉ s.queue.cv

instance (s : Workers ι χ) : DecidablePred s.Woken :=
  fun t => inferInstanceAs (Decidable (s.thread t = .pop .waiting ∧ t ∉ s.queue.cv))

/-- Between the critical section of `push` and its `notify_one`. -/
def Notifying (s : Workers ι χ) (t : ι) : Prop :=
  s.thread t = .notify

instance (s : Workers ι χ) : DecidablePred s.Notifying :=
  fun t => inferInstanceAs (Decidable (s.thread t = .notify))

structure Inv [Fintype ι] (s : Workers ι χ) : Prop where
  opened : s.queue.isQueueOpen = true
  asleep : forall t, t ∈ s.queue.cv -> s.thread t = .pop .waiting
  nodup : s.queue.cv.Nodup
  fifo : s.popped ++ s.queue.queue = s.pushed
  /-- while somebody sleeps every chunk is owed to a thread -/
  owed : s.queue.cv ≠ [] ->
    s.queue.queue.length ≤ countOf s.Woken + countOf s.Notifying

variable [Fintype ι]

omit [DecidableEq ι] in
theorem opened_inv [DecidableEq ι] : Inv (opened : Workers ι χ) where
  opened := rfl
  asleep := by
    intro t h
    cases h
  nodup := List.nodup_nil
  fifo := rfl
  owed := fun h => absurd rfl h

omit [Fintype ι] in
@[simp] theorem woken_advance (s : Workers ι χ) (t : ι) (q : SynchronizedQueue ι χ)
    (w : Work) (pushed popped : List χ) :
    (s.advance t q w pushed popped).Woken t <-> w = .pop .waiting ∧ t ∉ q.cv := by
  simp [Woken]

omit [Fintype ι] in
@[simp] theorem notifying_advance (s : Workers ι χ) (t : ι) (q : SynchronizedQueue ι χ)
    (w : Work) (pushed popped : List χ) :
    (s.advance t q w pushed popped).Notifying t <-> w = .notify := by
  simp [Notifying]

/-- One thread moves, nobody falls asleep or wakes up: only its own counts change. -/
theorem counts_advance (s : Workers ι χ) (t : ι) {q : SynchronizedQueue ι χ} (w : Work)
    (pushed popped : List χ) (hcv : q.cv = s.queue.cv) :
    countOf (s.advance t q w pushed popped).Woken +
        countOf (s.advance t q w pushed popped).Notifying +
        (if s.Woken t then 1 else 0) + (if s.Notifying t then 1 else 0) =
      countOf s.Woken + countOf s.Notifying +
        (if (s.advance t q w pushed popped).Woken t then 1 else 0) +
        if (s.advance t q w pushed popped).Notifying t then 1 else 0 := by
  have hwoken : forall u, u ≠ t ->
      ((s.advance t q w pushed popped).Woken u <-> s.Woken u) := by
    intro u hu
    rw [Woken, Woken, advance_thread_of_ne s q w pushed popped hu, advance_queue, hcv]
  have hnotifying : forall u, u ≠ t ->
      ((s.advance t q w pushed popped).Notifying u <-> s.Notifying u) := by
    intro u hu
    rw [Notifying, Notifying, advance_thread_of_ne s q w pushed popped hu]
  have hmoveWoken := countOf_move t hwoken
  have hmoveNotifying := countOf_move t hnotifying
  omega

/-- The thread that makes the step makes up for the chunks that come and go with it. -/
theorem Inv.owed_advance {s : Workers ι χ} (h : Inv s) {t : ι}
    {q : SynchronizedQueue ι χ} {w : Work} {pushed popped : List χ}
    (hcv : q.cv = s.queue.cv)
    (hlength : q.queue.length + (if s.Woken t then 1 else 0) +
        (if s.Notifying t then 1 else 0) ≤
      s.queue.queue.length +
        (if (s.advance t q w pushed popped).Woken t then 1 else 0) +
        if (s.advance t q w pushed popped).Notifying t then 1 else 0) :
    q.cv ≠ [] -> q.queue.length ≤
      countOf (s.advance t q w pushed popped).Woken +
        countOf (s.advance t q w pushed popped).Notifying := by
  intro hne
  have howed := h.owed (by rwa [← hcv])
  have hcounts := counts_advance s t w pushed popped hcv
  omega

omit [Fintype ι] in
/-- After thread `t`, awake, has moved the sleepers are still inside `pop`. -/
theorem asleep_advance {s : Workers ι χ}
    (h : forall u, u ∈ s.queue.cv -> s.thread u = .pop .waiting) {t : ι}
    {q : SynchronizedQueue ι χ} {w : Work} {pushed popped : List χ}
    (hcv : forall u, u ∈ q.cv -> u ≠ t ∧ u ∈ s.queue.cv) :
    forall u, u ∈ q.cv -> (s.advance t q w pushed popped).thread u = .pop .waiting := by
  intro u hu
  rcases hcv u hu with ⟨hne, hmem⟩
  rw [advance_thread_of_ne s q w pushed popped hne]
  exact h u hmem

theorem Inv.not_asleep {s : Workers ι χ} (h : Inv s) {t : ι}
    (hthread : s.thread t ≠ .pop .waiting) : t ∉ s.queue.cv :=
  fun hmem => hthread (h.asleep t hmem)

theorem Inv.push {s : Workers ι χ} (h : Inv s) {t : ι} (b : χ)
    (hidle : s.thread t = .idle) :
    Inv (s.advance t (s.queue.push b) .notify [b] []) := by
  have hawake := h.not_asleep (t := t) (by simp [hidle])
  refine ⟨h.opened, ?_, h.nodup, ?_, h.owed_advance rfl ?_⟩
  · exact asleep_advance h.asleep (fun u hu => ⟨ne_of_mem_of_not_mem hu hawake, hu⟩)
  · simp [advance, SynchronizedQueue.push, ← h.fifo]
  · simp [Woken, Notifying, hidle, SynchronizedQueue.push]

theorem Inv.call {s : Workers ι χ} (h : Inv s) {t : ι} (hidle : s.thread t = .idle) :
    Inv (s.advance t s.queue (.pop .lock) [] []) := by
  have hawake := h.not_asleep (t := t) (by simp [hidle])
  refine ⟨h.opened, ?_, h.nodup, ?_, h.owed_advance rfl ?_⟩
  · exact asleep_advance h.asleep (fun u hu => ⟨ne_of_mem_of_not_mem hu hawake, hu⟩)
  · simpa [advance] using h.fifo
  · simp [Woken, Notifying, hidle]

theorem Inv.notifyNobody {s : Workers ι χ} (h : Inv s) {t : ι}
    (hcv : s.queue.cv = []) : Inv (s.advance t s.queue .idle [] []) where
  opened := h.opened
  asleep := by simp [hcv]
  nodup := h.nodup
  fifo := by simpa [advance] using h.fifo
  owed := fun hne => absurd hcv hne

/-- A thread woken from its sleep counts as woken; nobody else is affected. -/
theorem Inv.woken_wake {s : Workers ι χ} (h : Inv s) {u : ι} (hu : u ∈ s.queue.cv) :
    countOf (s.wake u).Woken = countOf s.Woken + 1 := by
  have hother : forall v, v ≠ u -> ((s.wake u).Woken v <-> s.Woken v) := by
    intro v hv
    simp [Woken, wake, notifyOne, List.mem_erase_of_ne hv]
  have hmove := countOf_move u hother
  have hbefore : ¬ s.Woken u := fun hwoken => hwoken.right hu
  have hafter : (s.wake u).Woken u := ⟨h.asleep u hu, h.nodup.not_mem_erase⟩
  rwa [if_neg hbefore, if_pos hafter] at hmove

theorem Inv.owed_wake {s : Workers ι χ} (h : Inv s) {u : ι} (hu : u ∈ s.queue.cv) :
    (s.wake u).queue.queue.length + 1 ≤
      countOf (s.wake u).Woken + countOf (s.wake u).Notifying := by
  have howed := h.owed (List.ne_nil_of_mem hu)
  rw [h.woken_wake hu]
  show s.queue.queue.length + 1 ≤ countOf s.Woken + 1 + countOf s.Notifying
  omega

theorem Inv.wake {s : Workers ι χ} (h : Inv s) {u : ι} (hu : u ∈ s.queue.cv) :
    Inv (s.wake u) where
  opened := h.opened
  asleep := fun t ht => h.asleep t (List.mem_of_mem_erase ht)
  nodup := h.nodup.erase u
  fifo := h.fifo
  owed := fun _ => Nat.le_of_succ_le (h.owed_wake hu)

theorem Inv.notify {s : Workers ι χ} (h : Inv s) {t u : ι}
    (hnotify : s.thread t = .notify) (hu : u ∈ s.queue.cv) :
    Inv ((s.wake u).advance t (s.wake u).queue .idle [] []) := by
  have hwake := h.wake hu
  have hawake := hwake.not_asleep (t := t) (by simp [hnotify])
  refine ⟨hwake.opened, ?_, hwake.nodup, ?_, ?_⟩
  · exact asleep_advance hwake.asleep
      (fun v hv => ⟨ne_of_mem_of_not_mem hv hawake, hv⟩)
  · simpa [advance] using hwake.fifo
  · -- the chunk `t` was to announce is owed to the thread it woke
    intro _
    have howed := h.owed_wake hu
    have hcounts := counts_advance (s.wake u) t .idle ([] : List χ) [] rfl
    have hnotifying : (s.wake u).Notifying t := hnotify
    rw [if_neg (by simp [Woken, hnotify]), if_pos hnotifying, if_neg (by simp),
      if_neg (by simp)] at hcounts
    rw [advance_queue]
    omega

theorem Inv.pop {s : Workers ι χ} (h : Inv s) {t : ι} {pc : PopPc} {r : PopResult χ}
    {q : SynchronizedQueue ι χ} (hcall : s.thread t = .pop pc)
    (hpop : s.queue.pop t pc = some (r, q)) :
    Inv (s.advance t q (Work.afterPop r) [] (poppedBy r)) := by
  have hawake : t ∉ s.queue.cv := by
    intro hmem
    have hwaiting := h.asleep t hmem
    rw [hcall] at hwaiting
    cases hwaiting
    simp [SynchronizedQueue.pop, hmem] at hpop
  cases pop_cases hpop with
  | wait hfree hpc hempty hopen =>
      refine ⟨h.opened, ?_, List.nodup_cons.mpr ⟨hawake, h.nodup⟩, ?_, ?_⟩
      · intro u hu
        by_cases hut : u = t
        · subst u
          exact advance_thread_self s _ _ _ _ _
        · rw [advance_thread_of_ne s _ _ _ _ hut]
          exact h.asleep u ((List.mem_cons.mp hu).resolve_left hut)
      · simpa [advance, poppedBy] using h.fifo
      · intro _
        simp [hempty]
  | nullopt hfree hpc hempty hclosed =>
      rw [h.opened] at hclosed
      cases hclosed
  | @take b rest hfree hpc hqueue =>
      refine ⟨h.opened, ?_, h.nodup, ?_, h.owed_advance rfl ?_⟩
      · exact asleep_advance h.asleep (fun u hu => ⟨ne_of_mem_of_not_mem hu hawake, hu⟩)
      · simp [advance, poppedBy, ← h.fifo, hqueue]
      · have hquiet : ¬ s.Notifying t := by simp [Notifying, hcall]
        have hone : (if s.Woken t then 1 else 0) ≤ 1 := by
          split <;> simp
        show rest.length + _ + _ ≤ _
        rw [if_neg hquiet, hqueue, List.length_cons]
        omega

theorem step_inv {s s' : Workers ι χ} {t : ι} (h : Inv s) (hstep : Step s t s') :
    Inv s' := by
  cases hstep with
  | push b hidle => exact h.push b hidle
  | notify hnotify hu => exact h.notify hnotify hu
  | notifyNobody hnotify hcv => exact h.notifyNobody hcv
  | call hidle => exact h.call hidle
  | pop hcall hpop => exact h.pop hcall hpop
  | spurious ht => exact h.wake ht

theorem Inv.run {s s' : Workers ι χ} (h : Inv s) (hrun : Reaches Step anyStep s s') :
    Inv s' :=
  Reaches.invariant Inv (fun _ _ _ hx _ hstep => step_inv hx hstep) hrun h

/--
In every run of any number of threads on an open queue the chunks are popped in the
order they were pushed, and while a thread sleeps every queued chunk is owed to a
woken thread or still to be announced.
-/
theorem pops_in_order (s : Workers ι χ) (hrun : Reaches Step anyStep opened s) :
    s.popped ++ s.queue.queue = s.pushed ∧
      ((exists t, t ∈ s.queue.cv) ->
        s.queue.queue.length ≤ countOf s.Woken + countOf s.Notifying) ∧
      ((exists t, t ∈ s.queue.cv) -> (forall t, ¬ s.Woken t) ->
        (forall t, ¬ s.Notifying t) -> s.queue.queue = []) := by
  have hinv := opened_inv.run hrun
  have howed : (exists t, t ∈ s.queue.cv) ->
      s.queue.queue.length ≤ countOf s.Woken + countOf s.Notifying := by
    rintro ⟨t, ht⟩
    exact hinv.owed (List.ne_nil_of_mem ht)
  refine ⟨hinv.fifo, howed, ?_⟩
  intro hasleep hwoken hnotifying
  have hlength := howed hasleep
  rw [countOf_eq_zero hwoken, countOf_eq_zero hnotifying] at hlength
  exact List.length_eq_zero_iff.mp (Nat.le_zero.mp hlength)

/-- One thread sleeps, the other has pushed a chunk and is about to announce it. -/
theorem pops_in_order_announced :
    exists s : Workers Bool Nat, Reaches Step anyStep opened s ∧
      true ∈ s.queue.cv ∧ s.queue.queue = [7] ∧
      s.queue.queue.length ≤ countOf s.Woken + countOf s.Notifying := by
  have hcall := Step.call (s := (opened : Workers Bool Nat)) (t := true) rfl
  have hpop := Step.pop
    (s := (opened : Workers Bool Nat).advance true opened.queue (.pop .lock) [] [])
    (t := true) (by rw [advance_thread_self])
    (show SynchronizedQueue.pop _ true .lock = some (.wait, _) from rfl)
  have hsleeps : exists s : Workers Bool Nat, Reaches Step anyStep opened s ∧
      s.thread false = .idle ∧ true ∈ s.queue.cv ∧ s.queue.queue = [] :=
    ⟨_, (Reaches.single trivial hcall).tail ⟨true, trivial, hpop⟩, rfl,
      List.mem_cons_self, rfl⟩
  rcases hsleeps with ⟨s, hrun, hidle, hasleep, hempty⟩
  have hpush := hrun.tail ⟨false, trivial, Step.push 7 hidle⟩
  refine ⟨_, hpush, hasleep, ?_, (pops_in_order _ hpush).right.left ⟨true, hasleep⟩⟩
  rw [advance_queue, SynchronizedQueue.push, hempty]
  rfl

end Workers
end Queue
end Ki
