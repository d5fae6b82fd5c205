import Mathlib.Data.List.Basic

/-!
# The synchronized queue

Translation of `src/queue/SynchronizedQueue.hpp`.  The deque and the flag are
read and written under the mutex only, so the critical section of `pop` or
`isEmpty` is one step; a thread goes to sleep in the step that finds the wait
predicate false.  `push` and `close` can be left by a signal, so they take the
mutex in a step of its own, and release it with what they do under it.
-/

namespace Ki
namespace Queue

/--
`qm` records the thread that holds the mutex, `cv` the threads asleep on the
condition variable.
-/
structure SynchronizedQueue (ι χ : Type) where
  queue : List χ
  qm : Option ι
  cv : List ι
  isQueueOpen : Bool
deriving DecidableEq, Repr

namespace SynchronizedQueue

variable {ι χ : Type}

def new : SynchronizedQueue ι χ where
  queue := []
  qm := none
  cv := []
  isQueueOpen := false

/-- Thread `me` takes the mutex; `none` while it is held. -/
def lock (q : SynchronizedQueue ι χ) (me : ι) : Option (SynchronizedQueue ι χ) :=
  if q.qm.isSome then none else some { q with qm := some me }

/-- `push` under the mutex; `notifyOne` follows as a step of its own. -/
def push (q : SynchronizedQueue ι χ) (buffer : χ) : SynchronizedQueue ι χ :=
  { q with queue := q.queue ++ [buffer], qm := none }

/-- Thread `t` is the one that is woken, if it is asleep. -/
def notifyOne [DecidableEq ι] (q : SynchronizedQueue ι χ) (t : ι) :
    SynchronizedQueue ι χ :=
  { q with cv := q.cv.erase t }

/-- Program points of a thread inside `pop`. -/
inductive PopPc where
  | lock
  /-- inside `cv.wait`, asleep or woken and about to take the mutex again -/
  | waiting
deriving DecidableEq, Repr

inductive PopResult (χ : Type) where
  | wait
  | nullopt
  | buffer (b : χ)
deriving DecidableEq, Repr

/-- The critical section of `pop`; `none` while the mutex is held. -/
def lockAndPop (q : SynchronizedQueue ι χ) (me : ι) :
    Option (PopResult χ × SynchronizedQueue ι χ) :=
  if q.qm.isSome then none
  else
    match q.queue with
    | [] =>
        if q.isQueueOpen then some (.wait, { q with cv := me :: q.cv })
        else some (.nullopt, q)
    | b :: rest => some (.buffer b, { q with queue := rest })

/-- One step of thread `me` inside `pop`; `none` while it is asleep or cannot take the mutex. -/
def pop [DecidableEq ι] (q : SynchronizedQueue ι χ) (me : ι) :
    PopPc -> Option (PopResult χ × SynchronizedQueue ι χ)
  | .lock => q.lockAndPop me
  | .waiting => if me ∈ q.cv then none else q.lockAndPop me

/-- `none` while the mutex is held. -/
def isEmpty (q : SynchronizedQueue ι χ) : Option Bool :=
  if q.qm.isSome then none else some (q.queue.isEmpty && !q.isQueueOpen)

/-- `close` under the mutex. -/
def close (q : SynchronizedQueue ι χ) : SynchronizedQueue ι χ :=
  { q with isQueueOpen := false, qm := none }

def open' (q : SynchronizedQueue ι χ) : SynchronizedQueue ι χ :=
  { q with isQueueOpen := true }

/-- The cases of `pop`, guards included. -/
inductive PopStep (q : SynchronizedQueue ι χ) (me : ι) :
    PopPc -> PopResult χ -> SynchronizedQueue ι χ -> Prop where
  | wait {pc : PopPc} (hfree : q.qm = none) (hpc : pc = .waiting -> me ∉ q.cv)
      (hempty : q.queue = []) (hopen : q.isQueueOpen = true) :
      PopStep q me pc .wait { q with cv := me :: q.cv }
  | nullopt {pc : PopPc} (hfree : q.qm = none) (hpc : pc = .waiting -> me ∉ q.cv)
      (hempty : q.queue = []) (hclosed : q.isQueueOpen = false) :
      PopStep q me pc .nullopt q
  | take {pc : PopPc} {b : χ} {rest : List χ} (hfree : q.qm = none)
      (hpc : pc = .waiting -> me ∉ q.cv) (hqueue : q.queue = b :: rest) :
      PopStep q me pc (.buffer b) { q with queue := rest }

theorem lock_cases {q q' : SynchronizedQueue ι χ} {me : ι} (h : q.lock me = some q') :
    q.qm = none ∧ q' = { q with qm := some me } := by
  unfold lock at h
  split at h
  · cases h
  · rename_i hfree
    cases h
    exact ⟨by simpa using hfree, rfl⟩

theorem lockAndPop_cases {q q' : SynchronizedQueue ι χ} {me : ι} {pc : PopPc}
    {r : PopResult χ} (hpc : pc = .waiting -> me ∉ q.cv)
    (h : q.lockAndPop me = some (r, q')) : PopStep q me pc r q' := by
  unfold lockAndPop at h
  split at h
  · cases h
  · rename_i hheld
    have hfree : q.qm = none := by simpa using hheld
    split at h
    · rename_i hqueue
      split at h
      · rename_i hopen
        cases h
        exact PopStep.wait hfree hpc hqueue hopen
      · rename_i hclosed
        cases h
        exact PopStep.nullopt hfree hpc hqueue (by simpa using hclosed)
    · rename_i b rest hqueue
      cases h
      exact PopStep.take hfree hpc hqueue

theorem pop_cases [DecidableEq ι] {q q' : SynchronizedQueue ι χ} {me : ι}
    {pc : PopPc} {r : PopResult χ} (h : q.pop me pc = some (r, q')) :
    PopStep q me pc r q' := by
  cases pc with
  | lock =>
      apply lockAndPop_cases
      · intro hpc
        cases hpc
      · exact h
  | waiting =>
      by_cases hme : me ∈ q.cv
      · simp [pop, hme] at h
      · rw [pop, if_neg hme] at h
        exact lockAndPop_cases (fun _ => hme) h

theorem lockAndPop_eq_none {q : SynchronizedQueue ι χ} {me : ι}
    (h : q.lockAndPop me = none) : q.qm ≠ none := by
  unfold lockAndPop at h
  split at h
  · rename_i hheld
    exact Option.isSome_iff_ne_none.mp hheld
  · split at h
    · split at h <;> cases h
    · cases h

theorem pop_eq_none [DecidableEq ι] {q : SynchronizedQueue ι χ} {me : ι}
    {pc : PopPc} (h : q.pop me pc = none) : me ∈ q.cv ∨ q.qm ≠ none := by
  cases pc with
  | lock => exact Or.inr (lockAndPop_eq_none h)
  | waiting =>
      by_cases hme : me ∈ q.cv
      · exact Or.inl hme
      · rw [pop, if_neg hme] at h
        exact Or.inr (lockAndPop_eq_none h)

theorem isEmpty_eq_some {q : SynchronizedQueue ι χ} {empty : Bool}
    (h : q.isEmpty = some empty) :
    q.qm = none ∧ (empty = true <-> q.queue = [] ∧ q.isQueueOpen = false) := by
  unfold isEmpty at h
  split at h
  · cases h
  · rename_i hheld
    cases h
    exact ⟨by simpa using hheld, by simp [List.isEmpty_iff]⟩

theorem isEmpty_eq_none {q : SynchronizedQueue ι χ} (h : q.isEmpty = none) :
    q.qm ≠ none := by
  unfold isEmpty at h
  split at h
  · rename_i hheld
    exact Option.isSome_iff_ne_none.mp hheld
  · cases h

end SynchronizedQueue
end Queue
end Ki
