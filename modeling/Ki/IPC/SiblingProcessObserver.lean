import Ki.Common.IPCTool

/-!
# The stopwatch of the sibling observer

Translation of `src/IPC/SiblingProcessObserver.cpp`.  A poll reads the counter
of the siblings and the clock, which is given in nanoseconds; the stopwatch adds
up milliseconds.
-/

namespace Ki
namespace IPC

/-- `stopwatchCallback` tells whether a callback is assigned. -/
structure SiblingProcessObserver where
  stopwatchCallback : Bool
  stopwatchStarted : Bool
  prevCheck : Int
  stopwatch : Int
deriving DecidableEq, Repr

/-- What one pass through the loop finds. -/
structure Poll where
  siblingAreRunning : Bool
  now : Int
deriving DecidableEq, Repr

inductive PollResult where
  | goOn
  /-- the callback is called, and the thread returns -/
  | callback
  /-- no callback is assigned, and the thread returns -/
  | returned
deriving DecidableEq, Repr

namespace SiblingProcessObserver

open Common.IPCTool

/-- The constructor; `stopwatch` is not initialised. -/
def new (stopwatchCallback : Bool) (stopwatch : Int) : SiblingProcessObserver where
  stopwatchCallback := stopwatchCallback
  stopwatchStarted := false
  prevCheck := 0
  stopwatch := stopwatch

/-- `duration_cast` of nanoseconds, which truncates. -/
def toMilliseconds (nanoseconds : Int) : Int :=
  nanoseconds.tdiv 1000000

/-- `duration_cast` of milliseconds, which truncates. -/
def toSeconds (milliseconds : Int) : Int :=
  milliseconds.tdiv 1000

/-- In seconds. -/
def waitingTime : Int := 10

/-- The stopwatch after a poll that sees no sibling. -/
def tick (observer : SiblingProcessObserver) (now : Int) : SiblingProcessObserver :=
  if !observer.stopwatchStarted then
    { observer with stopwatchStarted := true, prevCheck := now, stopwatch := 0 }
  else
    { observer with
      stopwatch := observer.stopwatch + toMilliseconds (now - observer.prevCheck)
      prevCheck := now }

/-- One pass through the loop of `observeSiblings`. -/
def poll (observer : SiblingProcessObserver) (found : Poll) :
    PollResult × SiblingProcessObserver :=
  if found.siblingAreRunning then
    (.goOn, { observer with stopwatchStarted := false })
  else
    let observer := observer.tick found.now
    if waitingTime ≤ toSeconds observer.stopwatch then
      (if observer.stopwatchCallback then .callback else .returned, observer)
    else (.goOn, observer)

/-- The observer before poll number `k`; `none` if the thread has returned. -/
def observeSiblings (polls : Nat -> Poll) (observer : SiblingProcessObserver) :
    Nat -> Option SiblingProcessObserver
  | 0 => some observer
  | k + 1 =>
      (observeSiblings polls observer k).bind fun before =>
        match before.poll (polls k) with
        | (.goOn, after) => some after
        | _ => none

/-- The callback is called at poll number `m`. -/
def CallsBack (polls : Nat -> Poll) (observer : SiblingProcessObserver) (m : Nat) : Prop :=
  exists before, observeSiblings polls observer m = some before ∧
    (before.poll (polls m)).1 = .callback

/-- The polls `s` to `m` see no sibling, and `s` is the first of them. -/
structure Unseen (polls : Nat -> Poll) (s m : Nat) : Prop where
  le : s ≤ m
  none : forall i, s ≤ i -> i ≤ m -> (polls i).siblingAreRunning = false
  first : forall i, i + 1 = s -> (polls i).siblingAreRunning = true

/--
The stopwatch at poll `m` against the time since poll `s`: each of the polls in
between has lost less than a millisecond.
-/
structure Measures (polls : Nat -> Poll) (s m : Nat)
    (observer : SiblingProcessObserver) : Prop where
  unseen : Unseen polls s m
  running : observer.stopwatchStarted = true
  prevCheck : observer.prevCheck = (polls m).now
  nonneg : 0 ≤ observer.stopwatch
  notMore : observer.stopwatch * 1000000 ≤ (polls m).now - (polls s).now
  notLess : (polls m).now - (polls s).now ≤
    observer.stopwatch * 1000000 + (m - s : Nat) * 999999

/-- The observer before poll number `k`. -/
structure Tracks (polls : Nat -> Poll) (k : Nat) (observer : SiblingProcessObserver) :
    Prop where
  assigned : observer.stopwatchCallback = true
  stopped : observer.stopwatchStarted = false ->
    forall i, i + 1 = k -> (polls i).siblingAreRunning = true
  started : observer.stopwatchStarted = true -> exists s m, k = m + 1 ∧
    Measures polls s m observer

theorem toMilliseconds_bounds {gap : Int} (h : 0 ≤ gap) :
    toMilliseconds gap * 1000000 ≤ gap ∧
      gap ≤ toMilliseconds gap * 1000000 + 999999 := by
  rw [toMilliseconds, Int.tdiv_eq_ediv_of_nonneg h]
  omega

theorem waitingTime_le_iff {milliseconds : Int} (h : 0 ≤ milliseconds) :
    waitingTime ≤ toSeconds milliseconds <-> 10000 ≤ milliseconds := by
  rw [waitingTime, toSeconds, Int.tdiv_eq_ediv_of_nonneg h]
  omega

section Clock

variable {polls : Nat -> Poll} {observer : SiblingProcessObserver} {s m k : Nat}

theorem Unseen.succ (h : Unseen polls s m)
    (hunseen : (polls (m + 1)).siblingAreRunning = false) : Unseen polls s (m + 1) where
  le := Nat.le_succ_of_le h.le
  none := by
    intro i hsi him
    rcases Nat.le_succ_iff.mp him with hle | rfl
    · exact h.none i hsi hle
    · exact hunseen
  first := h.first

theorem Measures.tick (hclock : forall i j, i ≤ j -> (polls i).now ≤ (polls j).now)
    (h : Measures polls s m observer)
    (hunseen : (polls (m + 1)).siblingAreRunning = false) :
    Measures polls s (m + 1) (observer.tick (polls (m + 1)).now) := by
  have hle := h.unseen.le
  have hnotMore := h.notMore
  have hnotLess := h.notLess
  have hgap := hclock m (m + 1) (Nat.le_succ m)
  have hbounds := toMilliseconds_bounds (Int.sub_nonneg.mpr hgap)
  rw [← h.prevCheck] at hbounds hgap hnotMore hnotLess
  have hsum : ((m + 1 - s : Nat) : Int) = (m - s : Nat) + 1 := by
    omega
  have htick : observer.tick (polls (m + 1)).now = { observer with
      stopwatch := observer.stopwatch +
        toMilliseconds ((polls (m + 1)).now - observer.prevCheck)
      prevCheck := (polls (m + 1)).now } := by
    simp [SiblingProcessObserver.tick, h.running]
  rw [htick]
  constructor
  · exact h.unseen.succ hunseen
  · exact h.running
  · rfl
  · change 0 ≤ observer.stopwatch + _
    have hnonneg := h.nonneg
    omega
  · change (observer.stopwatch + _) * 1000000 ≤ _
    omega
  · change _ ≤ (observer.stopwatch + _) * 1000000 + _
    omega

theorem Tracks.tick (hclock : forall i j, i ≤ j -> (polls i).now ≤ (polls j).now)
    (h : Tracks polls k observer) (hunseen : (polls k).siblingAreRunning = false) :
    exists s, Measures polls s k (observer.tick (polls k).now) := by
  cases hstarted : observer.stopwatchStarted with
  | false =>
      refine ⟨k, ⟨Nat.le_refl k, ?_, h.stopped hstarted⟩, ?_, ?_, ?_, ?_, ?_⟩
      · intro i hki hik
        rw [Nat.le_antisymm hik hki]
        exact hunseen
      · simp [SiblingProcessObserver.tick, hstarted]
      · simp [SiblingProcessObserver.tick, hstarted]
      · simp [SiblingProcessObserver.tick, hstarted]
      · simp [SiblingProcessObserver.tick, hstarted]
      · simp [SiblingProcessObserver.tick, hstarted]
  | true =>
      rcases h.started hstarted with ⟨s, m, rfl, hmeasures⟩
      exact ⟨s, hmeasures.tick hclock hunseen⟩

end Clock

/-!
# Whole runs
-/

section Runs

variable {polls : Nat -> Poll} {observer : SiblingProcessObserver} {s m k : Nat}

theorem Unseen.first_unique {s' : Nat} (h : Unseen polls s m) (h' : Unseen polls s' m) :
    s = s' := by
  have hnotLt : forall {a b : Nat}, Unseen polls a m -> Unseen polls b m -> ¬ a < b := by
    intro a b ha hb hlt
    have hseen := hb.first (b - 1) (by omega)
    have hle := hb.le
    rw [ha.none (b - 1) (by omega) (by omega)] at hseen
    cases hseen
  exact Nat.le_antisymm (Nat.le_of_not_lt (hnotLt h' h)) (Nat.le_of_not_lt (hnotLt h h'))

theorem tick_stopwatchCallback (observer : SiblingProcessObserver) (now : Int) :
    (observer.tick now).stopwatchCallback = observer.stopwatchCallback := by
  unfold SiblingProcessObserver.tick
  split <;> rfl

/-- What one poll does to the thread, and what it says about the time that has passed. -/
theorem Tracks.poll (hclock : forall i j, i ≤ j -> (polls i).now ≤ (polls j).now)
    (h : Tracks polls k observer) :
    (exists after, observer.poll (polls k) = (.goOn, after) ∧ Tracks polls (k + 1) after ∧
      forall s, Unseen polls s k -> (polls k).now - (polls s).now <
        waitingTime * 1000000000 + (k - s : Nat) * 1000000) ∨
    (exists after, observer.poll (polls k) = (.callback, after) ∧
      exists s, Unseen polls s k ∧
        waitingTime * 1000000000 ≤ (polls k).now - (polls s).now) := by
  cases hseen : (polls k).siblingAreRunning with
  | true =>
      left
      refine ⟨{ observer with stopwatchStarted := false }, ?_, ⟨h.assigned, ?_, ?_⟩, ?_⟩
      · simp [SiblingProcessObserver.poll, hseen]
      · intro _ i hi
        rw [Nat.succ.inj hi]
        exact hseen
      · intro hstarted
        cases hstarted
      · intro s hunseen
        rw [hunseen.none k hunseen.le (Nat.le_refl k)] at hseen
        cases hseen
  | false =>
      rcases h.tick hclock hseen with ⟨s, hmeasures⟩
      have hassigned := (tick_stopwatchCallback observer (polls k).now).trans h.assigned
      have hexpired := waitingTime_le_iff hmeasures.nonneg
      have hnotMore := hmeasures.notMore
      have hnotLess := hmeasures.notLess
      by_cases hexpires : waitingTime ≤ toSeconds (observer.tick (polls k).now).stopwatch
      · right
        refine ⟨observer.tick (polls k).now, ?_, s, hmeasures.unseen, ?_⟩
        · simp only [SiblingProcessObserver.poll, hseen, hexpires, hassigned, if_true]
          rfl
        · have hlong := hexpired.mp hexpires
          unfold waitingTime
          omega
      · left
        refine ⟨observer.tick (polls k).now, ?_, ⟨hassigned, ?_, ?_⟩, ?_⟩
        · simp only [SiblingProcessObserver.poll, hseen, hexpires, if_false]
          rfl
        · intro hstopped
          rw [hmeasures.running] at hstopped
          cases hstopped
        · exact fun _ => ⟨s, k, rfl, hmeasures⟩
        · intro s' hunseen
          rw [← hmeasures.unseen.first_unique hunseen]
          have hshort := mt hexpired.mpr hexpires
          unfold waitingTime
          omega

theorem Tracks.new (polls : Nat -> Poll) (stopwatch : Int) :
    Tracks polls 0 (new true stopwatch) where
  assigned := rfl
  stopped := by
    intro _ i hi
    cases hi
  started := by
    intro hstarted
    cases hstarted

theorem tracks (hclock : forall i j, i ≤ j -> (polls i).now ≤ (polls j).now)
    (h : Tracks polls 0 observer) {before : SiblingProcessObserver}
    (hbefore : observeSiblings polls observer k = some before) :
    Tracks polls k before := by
  induction k generalizing before with
  | zero =>
      cases hbefore
      exact h
  | succ k ih =>
      rcases Option.bind_eq_some_iff.mp hbefore with ⟨earlier, hearlier, hpoll⟩
      rcases (ih hearlier).poll hclock with ⟨after, heq, hafter, _⟩ | ⟨after, heq, _⟩
      · rw [heq] at hpoll
        cases hpoll
        exact hafter
      · rw [heq] at hpoll
        cases hpoll

/-- A thread that has not called back goes on polling. -/
theorem polls_until_callsBack
    (hclock : forall i j, i ≤ j -> (polls i).now ≤ (polls j).now)
    (h : Tracks polls 0 observer) (hnot : forall i, i < k -> ¬ CallsBack polls observer i) :
    exists before, observeSiblings polls observer k = some before := by
  induction k with
  | zero => exact ⟨observer, rfl⟩
  | succ k ih =>
      rcases ih (fun i hi => hnot i (Nat.lt_succ_of_lt hi)) with ⟨before, hbefore⟩
      rcases (tracks hclock h hbefore).poll hclock with ⟨after, heq, _⟩ | ⟨after, heq, _⟩
      · refine ⟨after, ?_⟩
        rw [observeSiblings, hbefore, Option.bind_some, heq]
      · exact absurd ⟨before, hbefore, by rw [heq]⟩ (hnot k (Nat.lt_succ_self k))

theorem CallsBack.returned (h : CallsBack polls observer m) (hk : m < k) :
    observeSiblings polls observer k = none := by
  induction k with
  | zero => cases hk
  | succ k ih =>
      rcases Nat.lt_succ_iff_lt_or_eq.mp hk with hlt | rfl
      · rw [observeSiblings, ih hlt]
        rfl
      · rcases h with ⟨before, hbefore, hcallback⟩
        rw [observeSiblings, hbefore, Option.bind_some]
        split
        · rename_i after heq
          rw [heq] at hcallback
          cases hcallback
        · rfl

/-- Two observers that differ at most in what a stopped stopwatch has measured. -/
def Same (observer observer' : SiblingProcessObserver) : Prop :=
  observer = observer' ∨
    observer.stopwatchCallback = observer'.stopwatchCallback ∧
      observer.stopwatchStarted = false ∧ observer'.stopwatchStarted = false

theorem Same.poll {observer' : SiblingProcessObserver} (h : Same observer observer')
    (found : Poll) :
    (observer.poll found).1 = (observer'.poll found).1 ∧
      Same (observer.poll found).2 (observer'.poll found).2 := by
  rcases h with rfl | ⟨hassigned, hstopped, hstopped'⟩
  · exact ⟨rfl, Or.inl rfl⟩
  · cases hseen : found.siblingAreRunning with
    | true =>
        simp only [SiblingProcessObserver.poll, hseen, if_true]
        exact ⟨trivial, Or.inr ⟨hassigned, rfl, rfl⟩⟩
    | false =>
        -- both stopwatches are started now, from zero
        have htick : observer.tick found.now = observer'.tick found.now := by
          simp [SiblingProcessObserver.tick, hstopped, hstopped', hassigned]
        have hpoll : observer.poll found = observer'.poll found := by
          simp [SiblingProcessObserver.poll, hseen, htick]
        rw [hpoll]
        exact ⟨rfl, Or.inl rfl⟩

theorem Same.callsBack {observer' : SiblingProcessObserver} (h : Same observer observer')
    (hcall : CallsBack polls observer m) : CallsBack polls observer' m := by
  have hrun : forall k before, observeSiblings polls observer k = some before ->
      exists before', observeSiblings polls observer' k = some before' ∧
        Same before before' := by
    intro k
    induction k with
    | zero =>
        intro before hbefore
        cases hbefore
        exact ⟨observer', rfl, h⟩
    | succ k ih =>
        intro before hbefore
        rcases Option.bind_eq_some_iff.mp hbefore with ⟨earlier, hearlier, hpoll⟩
        rcases ih earlier hearlier with ⟨earlier', hearlier', hsame⟩
        have hresult := hsame.poll (polls k)
        split at hpoll
        · rename_i after heq
          cases hpoll
          rcases hpair : earlier'.poll (polls k) with ⟨result, after'⟩
          rw [heq, hpair] at hresult
          rcases hresult with ⟨rfl, hafter⟩
          refine ⟨after', ?_, hafter⟩
          rw [observeSiblings, hearlier', Option.bind_some, hpair]
        · cases hpoll
  rcases hcall with ⟨before, hbefore, hcallback⟩
  rcases hrun m before hbefore with ⟨before', hbefore', hsame⟩
  exact ⟨before', hbefore', (hsame.poll (polls m)).left.symm.trans hcallback⟩

theorem Same.symm {observer' : SiblingProcessObserver} (h : Same observer observer') :
    Same observer' observer := by
  rcases h with rfl | ⟨hassigned, hstopped, hstopped'⟩
  · exact Or.inl rfl
  · exact Or.inr ⟨hassigned.symm, hstopped', hstopped⟩

/--
The callback is called no earlier than `waitingTime` after the first poll of an
uninterrupted run that sees no sibling, and no later than that plus a
millisecond for each poll since; a sibling that is seen discards all the time
before, and after the callback there is no poll.
-/
theorem fires_on_time (stopwatch : Int) (polls : Nat -> Poll)
    (hclock : forall i j, i ≤ j -> (polls i).now ≤ (polls j).now) :
    (forall m, CallsBack polls (new true stopwatch) m -> exists s, Unseen polls s m ∧
      waitingTime * 1000000000 ≤ (polls m).now - (polls s).now) ∧
    (forall s m, (forall i, i ≤ m -> ¬ CallsBack polls (new true stopwatch) i) ->
      Unseen polls s m -> (polls m).now - (polls s).now <
        waitingTime * 1000000000 + (m - s : Nat) * 1000000) ∧
    (forall k before, observeSiblings polls (new true stopwatch) k = some before ->
      (polls k).siblingAreRunning = true -> forall stopwatch' m,
        CallsBack (fun i => polls (k + 1 + i)) (before.poll (polls k)).2 m <->
          CallsBack (fun i => polls (k + 1 + i)) (new true stopwatch') m) ∧
    (forall m, CallsBack polls (new true stopwatch) m ->
      (forall k, m < k -> observeSiblings polls (new true stopwatch) k = none) ∧
      forall m', CallsBack polls (new true stopwatch) m' -> m' = m) := by
  have hinit := Tracks.new polls stopwatch
  refine ⟨?_, ?_, ?_, ?_⟩
  · intro m hcall
    rcases hcall with ⟨before, hbefore, hcallback⟩
    rcases (tracks hclock hinit hbefore).poll hclock with ⟨after, heq, _⟩ | ⟨_, _, hlong⟩
    · rw [heq] at hcallback
      cases hcallback
    · exact hlong
  · intro s m hnot hunseen
    rcases polls_until_callsBack hclock hinit (fun i hi => hnot i (Nat.le_of_lt hi)) with
      ⟨before, hbefore⟩
    rcases (tracks hclock hinit hbefore).poll hclock with
      ⟨_, _, _, hshort⟩ | ⟨after, heq, _⟩
    · exact hshort s hunseen
    · exact absurd ⟨before, hbefore, by rw [heq]⟩ (hnot m (Nat.le_refl m))
  · intro k before hbefore hseen stopwatch' m
    have hassigned := (tracks hclock hinit hbefore).assigned
    have hsame : Same (before.poll (polls k)).2 (new true stopwatch') := by
      simp only [SiblingProcessObserver.poll, hseen, if_true]
      exact Or.inr ⟨hassigned, rfl, rfl⟩
    exact ⟨hsame.callsBack, hsame.symm.callsBack⟩
  · intro m hcall
    constructor
    · intro k hk
      exact hcall.returned hk
    · intro m' hcall'
      rcases Nat.lt_trichotomy m' m with hlt | heq | hlt
      · rcases hcall with ⟨before, hbefore, _⟩
        rw [hcall'.returned hlt] at hbefore
        cases hbefore
      · exact heq
      · rcases hcall' with ⟨before, hbefore, _⟩
        rw [hcall.returned hlt] at hbefore
        cases hbefore

end Runs

/-- A sibling is seen once, then never again, with five seconds between the polls. -/
def seenOnce (i : Nat) : Poll where
  siblingAreRunning := i == 0
  now := i * 5000000000

theorem fires_on_time_seenOnce :
    exists s, Unseen seenOnce s 3 ∧
      waitingTime * 1000000000 ≤ (seenOnce 3).now - (seenOnce s).now := by
  have hclock : forall i j, i ≤ j -> (seenOnce i).now ≤ (seenOnce j).now := by
    intro i j hij
    simp only [seenOnce]
    omega
  have hcall : CallsBack seenOnce (new true 7) 3 := ⟨_, rfl, rfl⟩
  exact (fires_on_time 7 seenOnce hclock).left 3 hcall

/-- The observation thread of a process makes the steps that its stopwatch allows. -/
theorem poll_observes {ι : Type} {sh : Segment ι} {p : Process}
    {observer after : SiblingProcessObserver} {found : Poll} {result : PollResult}
    (htimer : p.timer = .watching)
    (hfound : found.siblingAreRunning =
      decide (0 < sh.procInfo.counter (observed p.ipcToolType)))
    (hpoll : observer.poll found = (result, after)) :
    ObserverStep sh p (if result = .goOn then p else { p with timer := .expired }) sh := by
  by_cases hresult : result = .goOn
  · rw [if_pos hresult]
    exact ObserverStep.sibling
  · rw [if_neg hresult]
    apply ObserverStep.expire htimer
    unfold SiblingProcessObserver.poll at hpoll
    split at hpoll
    · cases hpoll
      exact absurd rfl hresult
    · rename_i hseen
      rw [hfound, decide_eq_true_eq] at hseen
      exact Nat.eq_zero_of_not_pos hseen

end SiblingProcessObserver
end IPC
end Ki
