import Ki.Common.IPCTool.Roles

/-!
# Publication of the shared objects

Creating the segment, constructing `kiProcInfo` and constructing the queue are
three steps.  A process that opens the segment finds an object only if the first
process has constructed it by then, and it keeps what it has found.
-/

namespace Ki
namespace Common

open Foundation
open Queue
open Reader
open BufferedReader
open Writer
open Stdio
open IPC
open IPCTool

variable {ι : Type} [DecidableEq ι]

/-!
# One process
-/

/-- The process has constructed or looked up `kiProcInfo`. -/
def HasLookedUpProcInfo : Phase -> Prop
  | .attach => False
  | .constructProcInfo => False
  | .findProcInfo => False
  | _ => True

/-- The process has constructed or looked up the queue. -/
def HasLookedUpQueue : Phase -> Prop
  | .attach => False
  | .constructProcInfo => False
  | .findProcInfo => False
  | .getQueue => False
  | _ => True

/-- No pointer the process has looked up is null, and it has not crashed. -/
structure HasObjects (p : Process) : Prop where
  procInfo : HasLookedUpProcInfo p.phase -> p.hasProcInfo = true
  queue : HasLookedUpQueue p.phase -> p.hasQueue = true
  alive : p.crashed = false

/-- The object the process is about to find has been constructed. -/
def FindsConstructed (s : World ι) (a : World.Action ι) : Prop :=
  ((s.proc a.1).phase = .findProcInfo -> s.segment.procInfoConstructed = true) ∧
    ((s.proc a.1).phase = .getQueue -> (s.proc a.1).isFirstProcess_ = false ->
      s.segment.queueConstructed = true)

omit [DecidableEq ι] in
instance (s : World ι) (a : World.Action ι) : Decidable (FindsConstructed s a) :=
  inferInstanceAs (Decidable ((_ -> _) ∧ (_ -> _ -> _)))

/-- What a step does to the pointers of its process. -/
inductive LookupStep (sh : Segment ι) (p p' : Process) : Prop where
  | attach (hbefore : p.phase = .attach)
      (hafter : p'.phase = .constructProcInfo ∨ p'.phase = .findProcInfo)
      (hcrashed : p'.crashed = p.crashed)
  | procInfo (hbefore : p.phase = .constructProcInfo ∨ p.phase = .findProcInfo)
      (hafter : p'.phase = .getQueue)
      (hpointer : p'.hasProcInfo = true <->
        (p.phase = .findProcInfo -> sh.procInfoConstructed = true))
      (hcrashed : p'.crashed = p.crashed)
  | queue (hbefore : p.phase = .getQueue)
      (hafter : HasLookedUpQueue p'.phase) (hkept : p'.hasProcInfo = p.hasProcInfo)
      (hpointer : p'.hasQueue = true <->
        (p.isFirstProcess_ = false -> sh.queueConstructed = true))
      (hcrashed : p'.crashed = p.crashed)
  | after (hbefore : HasLookedUpQueue p.phase) (hafter : HasLookedUpQueue p'.phase)
      (hprocInfo : p'.hasProcInfo = p.hasProcInfo) (hqueue : p'.hasQueue = p.hasQueue)
      (hcrashed : p'.crashed = p.crashed ∨ p.hasProcInfo = false ∨ p.hasQueue = false)

theorem HasLookedUpQueue.of_copy {phase : Phase}
    (h : phase = .copy ∨ phase = .deregister) :
    HasLookedUpQueue phase := by
  rcases h with rfl | rfl <;> trivial

theorem IPCTool.ReadingStep.lookup {src : List UInt8} {me : ι} {io : Io}
    {sh sh' : Segment ι} {p p' : Process} {reader : BufferedReader} {pc : ReaderPc}
    (hphase : p.phase = .copy)
    (h : ReadingStep src me io sh p reader pc p' sh') : LookupStep sh p p' := by
  have hbefore := HasLookedUpQueue.of_copy (Or.inl hphase)
  have hafter := HasLookedUpQueue.of_copy (h.role hphase).right.left
  cases h with
  | crash hnull =>
      exact LookupStep.after hbefore hafter rfl rfl (Or.inr (Or.inr hnull))
  | @read pc r reader' q hread =>
      cases r <;> exact LookupStep.after hbefore hafter rfl rfl (Or.inl rfl)
  | _ => exact LookupStep.after hbefore hafter rfl rfl (Or.inl rfl)

theorem IPCTool.WritingStep.lookup {me : ι} {io : Io} {sh sh' : Segment ι}
    {p p' : Process} {writer : BufferedFileWriter} {pc : WriterPc}
    (hphase : p.phase = .copy) (h : WritingStep me io sh p writer pc p' sh') :
    LookupStep sh p p' := by
  have hbefore := HasLookedUpQueue.of_copy (Or.inl hphase)
  have hafter := HasLookedUpQueue.of_copy (h.role hphase).right.left
  cases h with
  | crash hnull =>
      exact LookupStep.after hbefore hafter rfl rfl (Or.inr (Or.inr hnull))
  | @write pc r writer' q hwrite =>
      cases r <;> exact LookupStep.after hbefore hafter rfl rfl (Or.inl rfl)
  | _ => exact LookupStep.after hbefore hafter rfl rfl (Or.inl rfl)

omit [DecidableEq ι] in
theorem StartStep.lookup {args : Args} {sh sh' : Segment ι} {p p' : Process}
    (h : StartStep args sh p p' sh') : LookupStep sh p p' := by
  cases h with
  | create hphase hcreated => exact LookupStep.attach hphase (Or.inl rfl) rfl
  | openOnly hphase hcreated hnamed => exact LookupStep.attach hphase (Or.inr rfl) rfl
  | constructProcInfo hphase =>
      exact LookupStep.procInfo (Or.inl hphase) rfl (by simp [hphase]) rfl
  | findProcInfo hphase =>
      exact LookupStep.procInfo (Or.inr hphase) rfl (by simp [hphase]) rfl
  | constructQueue hphase hfirst =>
      exact LookupStep.queue hphase trivial rfl (by simp [hfirst]) rfl
  | findQueue hphase hfirst =>
      exact LookupStep.queue hphase trivial rfl (by simp [hfirst]) rfl
  | crash hphase hnull =>
      have hlooked : HasLookedUpQueue p.phase := by
        rw [hphase]
        trivial
      exact LookupStep.after hlooked hlooked rfl rfl (Or.inr (Or.inl hnull))
  | storeDst hphase =>
      exact LookupStep.after (by rw [hphase]; trivial) trivial rfl rfl (Or.inl rfl)
  | decideReader hphase hcount =>
      exact LookupStep.after (by rw [hphase]; trivial) trivial rfl rfl (Or.inl rfl)
  | decideWriter hphase hcount =>
      exact LookupStep.after (by rw [hphase]; trivial) trivial rfl rfl (Or.inl rfl)
  | register hphase htype hcount =>
      exact LookupStep.after (by rw [hphase]; trivial) trivial rfl rfl (Or.inl rfl)
  | reject hphase =>
      exact LookupStep.after (by rw [hphase]; trivial) trivial rfl rfl (Or.inl rfl)

theorem ProcessStep.lookup {args : Args} {me : ι} {event : Event} {sh sh' : Segment ι}
    {p p' : Process} (h : ProcessStep args me sh p event p' sh') :
    LookupStep sh p p' := by
  cases h with
  | start hstart => exact hstart.lookup
  | reading hphase htype htool hreading => exact hreading.lookup hphase
  | writing hphase htype htool hwriting => exact hwriting.lookup hphase
  | invalid hphase htype =>
      exact LookupStep.after (.of_copy (Or.inl hphase)) trivial rfl rfl (Or.inl rfl)
  | leave hleave =>
      have hbefore : HasLookedUpQueue p.phase := by
        cases hleave <;> simp_all [HasLookedUpQueue]
      cases hleave <;> exact LookupStep.after hbefore trivial rfl rfl (Or.inl rfl)
  | interrupt hphase =>
      exact LookupStep.after (.of_copy (Or.inl hphase)) trivial rfl rfl (Or.inl rfl)
  | observe hphase hobserve =>
      have hbefore := HasLookedUpQueue.of_copy (Or.inl hphase)
      have hafter := HasLookedUpQueue.of_copy (hobserve.role hphase).right.left
      cases hobserve <;> exact LookupStep.after hbefore hafter rfl rfl (Or.inl rfl)
  | linger hphase hobserve =>
      have hbefore : HasLookedUpQueue p.phase := by
        rcases hphase with hphase | hphase <;>
        · rw [hphase]
          trivial
      rcases (Lingers.of_observer hphase hobserve).same with ⟨timer, named, rfl, rfl⟩
      exact LookupStep.after hbefore hbefore rfl rfl (Or.inl rfl)

theorem HasLookedUpQueue.procInfo {phase : Phase} (h : HasLookedUpQueue phase) :
    HasLookedUpProcInfo phase := by
  cases phase <;> trivial

omit [DecidableEq ι] in
/-- After a step no pointer is null exactly if none was and it found its object. -/
theorem LookupStep.hasObjects_iff {sh : Segment ι} {p p' : Process}
    (hstep : LookupStep sh p p') : HasObjects p' <-> HasObjects p ∧
      (p.phase = .findProcInfo -> sh.procInfoConstructed = true) ∧
      (p.phase = .getQueue -> p.isFirstProcess_ = false ->
        sh.queueConstructed = true) := by
  cases hstep with
  | attach hbefore hafter hcrashed =>
      have hvacuous : ¬ HasLookedUpProcInfo p'.phase := by
        rcases hafter with hafter | hafter <;> rw [hafter] <;> exact id
      constructor
      · intro h
        refine ⟨⟨?_, ?_, hcrashed.symm.trans h.alive⟩, ?_, ?_⟩ <;> simp [hbefore,
          HasLookedUpProcInfo, HasLookedUpQueue]
      · intro h
        exact ⟨fun hlooked => absurd hlooked hvacuous,
          fun hlooked => absurd hlooked.procInfo hvacuous,
          hcrashed.trans h.left.alive⟩
  | procInfo hbefore hafter hpointer hcrashed =>
      have hlooked : HasLookedUpProcInfo p'.phase := by
        rw [hafter]
        trivial
      have hnotYet : ¬ HasLookedUpProcInfo p.phase := by
        rcases hbefore with hbefore | hbefore <;> rw [hbefore] <;> exact id
      constructor
      · intro h
        refine ⟨⟨fun hp => absurd hp hnotYet, fun hp => absurd hp.procInfo hnotYet,
          hcrashed.symm.trans h.alive⟩, hpointer.mp (h.procInfo hlooked), ?_⟩
        intro hphase
        rw [hphase] at hnotYet
        exact absurd trivial hnotYet
      · intro h
        refine ⟨fun _ => hpointer.mpr h.right.left, ?_, hcrashed.trans h.left.alive⟩
        rw [hafter]
        exact False.elim
  | queue hbefore hafter hkept hpointer hcrashed =>
      have hlooked : HasLookedUpProcInfo p.phase := by
        rw [hbefore]
        trivial
      constructor
      · intro h
        refine ⟨⟨fun _ => hkept.symm.trans (h.procInfo hafter.procInfo), ?_,
          hcrashed.symm.trans h.alive⟩, ?_, fun _ => hpointer.mp (h.queue hafter)⟩
        · rw [hbefore]
          exact False.elim
        · rw [hbefore]
          nofun
      · intro h
        exact ⟨fun _ => hkept.trans (h.left.procInfo hlooked),
          fun _ => hpointer.mpr (h.right.right hbefore), hcrashed.trans h.left.alive⟩
  | after hbefore hafter hprocInfo hqueue hcrashed =>
      constructor
      · intro h
        have hprocInfo' := hprocInfo.symm.trans (h.procInfo hafter.procInfo)
        have hqueue' := hqueue.symm.trans (h.queue hafter)
        refine ⟨⟨fun _ => hprocInfo', fun _ => hqueue', ?_⟩, ?_, ?_⟩
        · simpa [hprocInfo', hqueue', h.alive] using hcrashed
        · intro hphase
          rw [hphase] at hbefore
          cases hbefore
        · intro hphase
          rw [hphase] at hbefore
          cases hbefore
      · intro h
        have hprocInfo' := h.left.procInfo hbefore.procInfo
        have hqueue' := h.left.queue hbefore
        refine ⟨fun _ => hprocInfo.trans hprocInfo', fun _ => hqueue.trans hqueue', ?_⟩
        simpa [hprocInfo', hqueue', h.left.alive] using hcrashed

/-!
# All processes
-/

/-- Every process has found what it has looked for. -/
def Published (s : World ι) : Prop :=
  forall p, HasObjects (s.proc p)

theorem published_next {args : ι -> Args} {s s' : World ι} {a : World.Action ι}
    (hnext : World.next args a s = some s') :
    Published s' <-> Published s ∧ FindsConstructed s a := by
  rcases World.next_cases hnext with ⟨c, sh, rfl, hstep⟩
  have hiff := hstep.lookup.hasObjects_iff
  constructor
  · intro h
    have hc := h a.1
    rw [World.move_proc_self] at hc
    refine ⟨?_, (hiff.mp hc).right⟩
    intro p
    by_cases hp : p = a.1
    · subst p
      exact (hiff.mp hc).left
    · have hother := h p
      rwa [World.move_proc_of_ne s c sh hp] at hother
  · intro h
    exact World.forall_move (P := fun _ p => HasObjects p)
      (hiff.mpr ⟨h.left a.1, h.right⟩) (fun q _ => h.left q)

omit [DecidableEq ι] in
theorem init_published (buffers : Nat -> List UInt8) :
    Published (World.init buffers : World ι) := by
  intro p
  exact ⟨False.elim, False.elim, rfl⟩

/--
No process gets a null pointer, and none dereferences one, exactly if every process
looks for each object after it has been constructed.
-/
theorem published_iff_finds_constructed (args : ι -> Args) (buffers : Nat -> List UInt8)
    (s : World ι)
    (hrun : Reaches (StepOf (World.next args)) anyStep (World.init buffers) s) :
    Published s <->
      Reaches (StepOf (World.next args)) FindsConstructed (World.init buffers) s := by
  constructor
  · intro hpublished
    have hcases : True ∧ (Reaches (StepOf (World.next args))
        (fun x a => anyStep x a ∧ FindsConstructed x a) (World.init buffers) s ∨
          ¬ Published s) := by
      refine Reaches.meets_or_lost (fun _ => True) (fun x => ¬ Published x)
        (fun _ _ _ _ _ _ => trivial) ?_ ?_ hrun trivial
      · intro x a x' _ hlost hnext hpublished'
        exact hlost ((published_next hnext).mp hpublished').left
      · intro x a x' _ _ hlose hnext hpublished'
        exact hlose ((published_next hnext).mp hpublished').right
    rcases hcases.right with hreach | hlost
    · exact hreach.mono (fun _ _ hguard => hguard.right)
    · exact absurd hpublished hlost
  · intro hreach
    refine Reaches.invariant Published ?_ hreach (init_published buffers)
    intro x a x' hx hguard hnext
    exact (published_next hnext).mpr ⟨hx, hguard⟩

/-- The second process starts when the first one has constructed both objects. -/
theorem published_iff_finds_constructed_inTurn :
    exists s : World Pid,
      exec (World.next (sources [] [])) (World.turns .first 3 ++ World.turns .second 5)
        (World.init fun _ => []) = some s ∧
      Published s := by
  have hview : ((exec (World.next (sources [] []))
      (World.turns .first 3 ++ World.turns .second 5)
      (World.init fun _ => [])).map fun s => (s.proc .second).phase) = some .copy := by
    decide +kernel
  rcases Option.map_eq_some_iff.mp hview with ⟨s, hexec, _⟩
  have hany : Reaches (StepOf (World.next (sources [] []))) anyStep
      (World.init fun _ => []) s :=
    reaches_of_exec_any _ hexec
  have hguarded : Reaches (StepOf (World.next (sources [] []))) FindsConstructed
      (World.init fun _ => []) s :=
    reaches_of_exec _ (by decide +kernel) hexec
  exact ⟨s, hexec, (published_iff_finds_constructed _ _ s hany).mpr hguarded⟩

/-- In general a process can look too early and dereference a null pointer. -/
theorem published_too_late :
    ¬ forall (args : Pid -> Args) (buffers : Nat -> List UInt8) (s : World Pid),
      Reaches (StepOf (World.next args)) anyStep (World.init buffers) s ->
      Published s := by
  intro h
  -- the second process finds neither object and locks the mutex of `kiProcInfo`
  have hview : ((exec (World.next (sources [] []))
      (World.turns .first 1 ++ World.turns .second 4)
      (World.init fun _ => [])).map fun s => (s.proc .second).crashed) = some true := by
    decide +kernel
  rcases Option.map_eq_some_iff.mp hview with ⟨s, hexec, hcrashed⟩
  have hrun : Reaches (StepOf (World.next (sources [] []))) anyStep
      (World.init fun _ => []) s :=
    reaches_of_exec_any _ hexec
  have halive := (h _ _ s hrun .second).alive
  rw [hcrashed] at halive
  cases halive

end Common
end Ki
