import Ki.Foundation.Termination

/-!
# From the call of copy to the exit of the process

Translation of `src/main.cpp` from `cp->copy()` on, with the handlers of
`src/common/ProcessTerminator.hpp`.  An exception that leaves `copy` ends in the terminate
handler; this handler and that of the signals jump back into `main`, which then destroys
the tool and returns 1.  The destructor of a tool joins its writing thread first.
A second signal, while the tool is being destroyed, is not modelled.
-/

namespace Ki
namespace Common

open Foundation

/-- What `main` sees of a copy tool. -/
structure ICopyTool (τ α : Type) where
  /-- a step of the tool's threads -/
  next : α -> τ -> Option τ
  /-- the step is one of the thread that has called `copy` -/
  inCopy : α -> Bool
  returned : τ -> Bool
  /-- an exception has left `copy` -/
  threw : τ -> Bool
  /-- the writing thread has not been started or has ended, and can be joined -/
  joins : τ -> Bool

inductive MainPc where
  | copy
  /-- in the destructor of the tool, before `main` returns `code` -/
  | destroy (code : Nat)
  | exited (code : Nat)
deriving DecidableEq, Repr

/-- The steps that `main` itself can still take. -/
def MainPc.toCome : MainPc -> Nat
  | .copy => 2
  | .destroy _ => 1
  | .exited _ => 0

structure Main (τ : Type) where
  tool : τ
  pc : MainPc

namespace Main

variable {τ α : Type}

def start (tool : τ) : Main τ where
  tool := tool
  pc := .copy

inductive Action (α : Type) where
  | thread (a : α)
  /-- `SIGINT` or `SIGABRT` -/
  | signal
  /-- a step of `main` itself -/
  | main
deriving DecidableEq, Repr

def next (cp : ICopyTool τ α) (a : Action α) (s : Main τ) : Option (Main τ) :=
  match a, s.pc with
  | .thread a, .copy => (cp.next a s.tool).map fun tool => { s with tool := tool }
  | .thread a, .destroy _ =>
      if cp.inCopy a then none
      else (cp.next a s.tool).map fun tool => { s with tool := tool }
  | .signal, .copy => some { s with pc := .destroy 1 }
  | .main, .copy =>
      if cp.returned s.tool then some { s with pc := .destroy 0 }
      else if cp.threw s.tool then some { s with pc := .destroy 1 }
      else none
  | .main, .destroy code =>
      if cp.joins s.tool then some { s with pc := .exited code } else none
  | _, _ => none

/-- The steps of the process, guards included. -/
inductive Step (cp : ICopyTool τ α) (s : Main τ) : Action α -> Main τ -> Prop where
  | thread {a : α} {tool : τ} (hlive : forall code, s.pc ≠ .exited code)
      (hleft : s.pc = .copy ∨ cp.inCopy a = false) (hnext : cp.next a s.tool = some tool) :
      Step cp s (.thread a) { s with tool := tool }
  | signal (hpc : s.pc = .copy) : Step cp s .signal { s with pc := .destroy 1 }
  | returns (hpc : s.pc = .copy) (hreturned : cp.returned s.tool = true) :
      Step cp s .main { s with pc := .destroy 0 }
  | throws (hpc : s.pc = .copy) (hthrew : cp.threw s.tool = true) :
      Step cp s .main { s with pc := .destroy 1 }
  | exit {code : Nat} (hpc : s.pc = .destroy code) (hjoins : cp.joins s.tool = true) :
      Step cp s .main { s with pc := .exited code }

theorem next_cases {cp : ICopyTool τ α} {a : Action α} {s s' : Main τ}
    (h : next cp a s = some s') : Step cp s a s' := by
  unfold next at h
  split at h
  · rename_i hpc
    rcases Option.map_eq_some_iff.mp h with ⟨tool, hnext, rfl⟩
    exact Step.thread (by simp [hpc]) (Or.inl hpc) hnext
  · rename_i hpc
    split at h
    · cases h
    · rename_i hcaller
      rcases Option.map_eq_some_iff.mp h with ⟨tool, hnext, rfl⟩
      exact Step.thread (by simp [hpc]) (Or.inr (by simpa using hcaller)) hnext
  · rename_i hpc
    cases h
    exact Step.signal hpc
  · rename_i hpc
    split at h
    · rename_i hreturned
      cases h
      exact Step.returns hpc hreturned
    · split at h
      · rename_i hthrew
        cases h
        exact Step.throws hpc hthrew
      · cases h
  · rename_i hpc
    split at h
    · rename_i hjoins
      cases h
      exact Step.exit hpc hjoins
    · cases h
  · cases h

/-- The threads' steps meet the guard. -/
def Meets (guard : τ -> α -> Prop) (s : Main τ) : Action α -> Prop
  | .thread a => guard s.tool a
  | _ => True

instance (guard : τ -> α -> Prop) [forall t a, Decidable (guard t a)] (s : Main τ)
    (a : Action α) : Decidable (Meets guard s a) :=
  match a with
  | .thread a => inferInstanceAs (Decidable (guard s.tool a))
  | .signal => isTrue trivial
  | .main => isTrue trivial

/-!
# Every tool
-/

section Runs

variable {cp : ICopyTool τ α} {guard : τ -> α -> Prop} {t : τ} {s : Main τ}

/-- The tool runs as it does without `main`, as far as it gets. -/
theorem tool_run (hrun : Reaches (StepOf (next cp)) (Meets guard) (start t) s) :
    Reaches (StepOf cp.next) guard t s.tool := by
  refine Reaches.invariant (fun x => Reaches (StepOf cp.next) guard t x.tool) ?_ hrun
    Relation.ReflTransGen.refl
  intro x a x' hx hguard hstep
  cases next_cases hstep with
  | thread hlive hleft hnext => exact hx.tail ⟨_, hguard, hnext⟩
  | _ => exact hx

/-- What `main` returns, and what it has waited for. -/
structure Ends (cp : ICopyTool τ α) (s : Main τ) : Prop where
  destroy : forall code, s.pc = .destroy code ->
    code = 1 ∨ code = 0 ∧ cp.returned s.tool = true
  exited : forall code, s.pc = .exited code -> cp.joins s.tool = true ∧
    (code = 1 ∨ code = 0 ∧ cp.returned s.tool = true)

theorem run_ends
    (hreturned : forall a t t', cp.inCopy a = false -> cp.next a t = some t' ->
      cp.returned t = true -> cp.returned t' = true)
    (hrun : Reaches (StepOf (next cp)) (Meets guard) (start t) s) : Ends cp s := by
  refine Reaches.invariant (Ends cp) ?_ hrun ⟨by simp [start], by simp [start]⟩
  intro x a x' hx _ hstep
  cases next_cases hstep with
  | @thread a tool hlive hleft hnext =>
      constructor
      · intro code hpc
        have hpc' : x.pc = .destroy code := hpc
        have hcaller : cp.inCopy a = false := by
          refine hleft.resolve_left ?_
          rw [hpc']
          simp
        rcases hx.destroy code hpc' with hone | ⟨hzero, hret⟩
        · exact Or.inl hone
        · exact Or.inr ⟨hzero, hreturned a x.tool tool hcaller hnext hret⟩
      · intro code hpc
        exact absurd hpc (hlive code)
  | signal hpc => exact ⟨by simp, by simp⟩
  | returns hpc hret => exact ⟨by simp [hret], by simp⟩
  | throws hpc hthrew => exact ⟨by simp, by simp⟩
  | @exit code hpc hjoins =>
      constructor
      · simp
      · intro code' hpc'
        cases hpc'
        exact ⟨hjoins, hx.destroy code hpc⟩

/-- The destructor waits for ever if the writing thread, left alone, never ends. -/
theorem never_exits {P : τ -> Prop}
    (hkeep : forall a t t', cp.inCopy a = false -> cp.next a t = some t' -> P t -> P t')
    (hjoins : forall t, P t -> cp.joins t = false)
    {s' : Main τ} {code : Nat} (hpc : s.pc = .destroy code) (hP : P s.tool)
    (hrun : Reaches (StepOf (next cp)) anyStep s s') (code' : Nat) :
    s'.pc ≠ .exited code' := by
  have hboth : s'.pc = .destroy code ∧ P s'.tool := by
    refine Reaches.invariant (fun x => x.pc = .destroy code ∧ P x.tool) ?_ hrun
      ⟨hpc, hP⟩
    intro x a x' hx _ hstep
    cases next_cases hstep with
    | @thread a tool hlive hleft hnext =>
        have hcaller : cp.inCopy a = false := by
          refine hleft.resolve_left ?_
          rw [hx.left]
          simp
        exact ⟨hx.left, hkeep a x.tool tool hcaller hnext hx.right⟩
    | signal hcopy => cases hx.left.symm.trans hcopy
    | returns hcopy hret => cases hx.left.symm.trans hcopy
    | throws hcopy hthrew => cases hx.left.symm.trans hcopy
    | exit hdestroy hjoined => cases (hjoins x.tool hx.right).symm.trans hjoined
  rw [hboth.left]
  simp

/-- A process takes at most two steps more than its tool. -/
theorem length_le (cp : ICopyTool τ α) (inv : τ -> Prop) (measure : τ -> Nat)
    (hinv : forall x a x', inv x -> cp.next a x = some x' -> inv x')
    (hlower : forall x a x', inv x -> cp.next a x = some x' -> measure x' < measure x)
    (as : List (Action α)) (hinit : inv t)
    (hexec : exec (next cp) as (start t) = some s) : as.length ≤ measure t + 2 := by
  have hkept : forall x a x', inv x.tool -> next cp a x = some x' -> inv x'.tool := by
    intro x a x' hx hstep
    cases next_cases hstep with
    | thread hlive hleft hnext => exact hinv _ _ _ hx hnext
    | _ => exact hx
  have hlowered : forall x a x', inv x.tool -> next cp a x = some x' ->
      measure x'.tool + x'.pc.toCome < measure x.tool + x.pc.toCome := by
    intro x a x' hx hstep
    cases next_cases hstep with
    | thread hlive hleft hnext => exact Nat.add_lt_add_right (hlower _ _ _ hx hnext) _
    | _ hpc => simp [hpc, MainPc.toCome]
  have hlength := exec_length_le (fun x : Main τ => inv x.tool)
    (fun x => measure x.tool + x.pc.toCome) hkept hlowered as hinit hexec
  exact Nat.le_trans (Nat.le_add_right _ _) hlength

/-- Nothing is left to happen but a signal. -/
def Rests (cp : ICopyTool τ α) (guard : τ -> α -> Prop) (s : Main τ) : Prop :=
  forall a s', a ≠ .signal -> Meets guard s a -> ¬ StepOf (next cp) s a s'

theorem Rests.thread (h : Rests cp guard s) {a : α} (hguard : guard s.tool a)
    (hlive : forall code, s.pc ≠ .exited code)
    (hleft : s.pc = .copy ∨ cp.inCopy a = false) : cp.next a s.tool = none := by
  refine Option.eq_none_iff_forall_ne_some.mpr fun tool hnext => ?_
  refine h (.thread a) { s with tool := tool } (by simp) hguard ?_
  unfold StepOf next
  cases hpc : s.pc with
  | copy => simp [hnext]
  | destroy code => simp [hnext, hleft.resolve_left (by simp [hpc])]
  | exited code => exact absurd hpc (hlive code)

/-- A process that rests in `copy` has not been told to go on. -/
theorem Rests.copy (h : Rests cp guard s) (hpc : s.pc = .copy) :
    cp.returned s.tool = false ∧ cp.threw s.tool = false := by
  have hnone : next cp .main s = none :=
    Option.eq_none_iff_forall_ne_some.mpr fun s' => h .main s' (by simp) trivial
  simp only [next, hpc] at hnone
  split at hnone
  · cases hnone
  · split at hnone
    · cases hnone
    · simp_all

/-- A process that rests in the destructor cannot join the writing thread. -/
theorem Rests.destroy (h : Rests cp guard s) {code : Nat} (hpc : s.pc = .destroy code) :
    cp.joins s.tool = false := by
  have hnone : next cp .main s = none :=
    Option.eq_none_iff_forall_ne_some.mpr fun s' => h .main s' (by simp) trivial
  simp only [next, hpc] at hnone
  split at hnone
  · cases hnone
  · simp_all

end Runs

end Main
end Common
end Ki
