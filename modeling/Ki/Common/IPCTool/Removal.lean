import Ki.Common.IPCTool.Pairing

/-!
# Removing the shared-memory object

The name of the object may lead to one segment after another, while the processes
attached to an earlier one keep it.  A process that leaves reads the two counters,
and removes the name in a step of its own; so does an observer once it has called
back, even while the destructor of its process runs.  The name is removed from a
segment in use if somebody has come in between.
-/

namespace Ki
namespace Common

open Foundation
open Queue
open Reader
open Writer
open Stdio
open IPC
open IPCTool

variable {ι : Type} [DecidableEq ι]

/-!
# All segments of one name
-/

/-- The segments created under the name, in their order, and the processes. -/
structure Host (ι : Type) where
  segments : Nat -> Segment ι
  /-- how many have been created -/
  count : Nat
  /-- the segment the name leads to -/
  name : Option Nat
  /-- the segment a process is attached to -/
  home : ι -> Nat
  proc : ι -> Process

namespace Host

def init (buffers : Nat -> Nat -> List UInt8) : Host ι where
  segments := fun k => Segment.absent (buffers k)
  count := 0
  name := none
  home := fun _ => 0
  proc := fun _ => Process.new

/-- The segment of a process; while it attaches, the one behind the name or a new one. -/
def target (s : Host ι) (me : ι) : Nat :=
  if (s.proc me).phase = .attach then s.name.getD s.count else s.home me

/-- The segment as its process finds it, the name there until a step removes it. -/
def view (s : Host ι) (me : ι) : Segment ι :=
  { s.segments (s.target me) with named := true }

/-- The state after process `me` has become `c` and its segment `sh`. -/
def move (s : Host ι) (me : ι) (c : Process) (sh : Segment ι) : Host ι where
  segments := Function.update s.segments (s.target me) sh
  count := if (s.proc me).phase = .attach ∧ s.name = none then s.count + 1 else s.count
  name :=
    if sh.named then
      if (s.proc me).phase = .attach then some (s.target me) else s.name
    else none
  home := Function.update s.home me (s.target me)
  proc := Function.update s.proc me c

def next (args : ι -> Args) (a : World.Action ι) (s : Host ι) : Option (Host ι) :=
  (processStep (args a.1) a.1 a.2 (s.view a.1) (s.proc a.1)).map fun out =>
    s.move a.1 out.1 out.2

/-- One segment with the processes attached to it, all others as if they had not run. -/
def world (s : Host ι) (k : Nat) : World ι where
  segment := s.segments k
  proc := fun p => if s.home p = k then s.proc p else Process.new

@[simp] theorem move_proc_self (s : Host ι) (me : ι) (c : Process) (sh : Segment ι) :
    (s.move me c sh).proc me = c := by
  simp [move]

theorem move_proc_of_ne (s : Host ι) {me q : ι} (c : Process) (sh : Segment ι)
    (hq : q ≠ me) : (s.move me c sh).proc q = s.proc q := by
  simp [move, hq]

@[simp] theorem move_home_self (s : Host ι) (me : ι) (c : Process) (sh : Segment ι) :
    (s.move me c sh).home me = s.target me := by
  simp [move]

theorem move_home_of_ne (s : Host ι) {me q : ι} (c : Process) (sh : Segment ι)
    (hq : q ≠ me) : (s.move me c sh).home q = s.home q := by
  simp [move, hq]

/-- What holds of the process that has moved and of all others holds of every process. -/
theorem forall_move {P : ι -> Nat -> Process -> Prop} {s : Host ι} {me : ι} {c : Process}
    {sh : Segment ι} (hself : P me (s.target me) c)
    (hother : forall q, q ≠ me -> P q (s.home q) (s.proc q)) (q : ι) :
    P q ((s.move me c sh).home q) ((s.move me c sh).proc q) := by
  by_cases hq : q = me
  · subst q
    rw [move_home_self, move_proc_self]
    exact hself
  · rw [s.move_home_of_ne c sh hq, s.move_proc_of_ne c sh hq]
    exact hother q hq

omit [DecidableEq ι] in
theorem target_attached {s : Host ι} {me : ι} (hphase : (s.proc me).phase ≠ .attach) :
    s.target me = s.home me :=
  if_neg hphase

theorem name_kept {s : Host ι} {me : ι} {c : Process} {sh : Segment ι}
    (hphase : (s.proc me).phase ≠ .attach) (hnamed : sh.named = true) :
    (s.move me c sh).name = s.name := by
  simp [move, hphase, hnamed]

theorem name_removed {s : Host ι} {me : ι} {c : Process} {sh : Segment ι}
    (hnamed : sh.named = false) : (s.move me c sh).name = none := by
  simp [move, hnamed]

theorem named_of_removed {s : Host ι} {me : ι} {c : Process} {sh : Segment ι} {k : Nat}
    (hname : s.name = some k) (hnone : (s.move me c sh).name = none) :
    sh.named = false := by
  cases hnamed : sh.named with
  | true =>
      simp only [move, hnamed, hname, if_true] at hnone
      split at hnone <;> cases hnone
  | false => rfl

/-- A process that is attached leaves the name as it is, unless it removes it. -/
theorem name_move {s : Host ι} {me : ι} {c : Process} {sh : Segment ι} {k : Nat}
    (hphase : (s.proc me).phase ≠ .attach) (hname : (s.move me c sh).name = some k) :
    s.name = some k := by
  cases hnamed : sh.named with
  | true => rwa [name_kept hphase hnamed] at hname
  | false =>
      rw [name_removed hnamed] at hname
      cases hname

/-!
# The world of one segment
-/

omit [DecidableEq ι] in
theorem world_proc_target {s : Host ι} {me : ι}
    (hattach : (s.proc me).phase = .attach -> s.proc me = Process.new) :
    (s.world (s.target me)).proc me = s.proc me := by
  by_cases hphase : (s.proc me).phase = .attach
  · simp [world, hattach hphase]
  · simp [world, target_attached hphase]

/-- The step of a process is one of the world of its segment. -/
theorem world_move_target (s : Host ι) (me : ι) (c : Process) (sh : Segment ι) :
    (s.move me c sh).world (s.target me) = (s.world (s.target me)).move me c sh := by
  have hproc : ((s.move me c sh).world (s.target me)).proc =
      ((s.world (s.target me)).move me c sh).proc := by
    funext q
    by_cases hq : q = me
    · subst q
      simp [world]
    · simp [world, s.move_proc_of_ne c sh hq, s.move_home_of_ne c sh hq,
        World.move_proc_of_ne _ c sh hq]
  have hsegment : (s.move me c sh).segments (s.target me) = sh := by
    simp [move]
  rw [World.mk.injEq]
  exact ⟨hsegment, hproc⟩

/-- It does not touch the world of any other segment. -/
theorem world_move_of_ne {s : Host ι} {me : ι} (c : Process) (sh : Segment ι) {k : Nat}
    (hattach : (s.proc me).phase = .attach -> s.proc me = Process.new)
    (hk : k ≠ s.target me) : (s.move me c sh).world k = s.world k := by
  have hproc : ((s.move me c sh).world k).proc = (s.world k).proc := by
    funext q
    by_cases hq : q = me
    · subst q
      by_cases hphase : (s.proc me).phase = .attach
      · simp [world, Ne.symm hk, hattach hphase]
      · have hhome : s.home me ≠ k := by
          rw [← target_attached hphase]
          exact Ne.symm hk
        simp [world, Ne.symm hk, hhome]
    · simp [world, s.move_proc_of_ne c sh hq, s.move_home_of_ne c sh hq]
  have hsegment : (s.move me c sh).segments k = s.segments k := by
    simp [move, hk]
  rw [world, World.mk.injEq]
  exact ⟨hsegment, hproc⟩

end Host

/-!
# One process
-/

/-- Attached, and still going to register. -/
def Constructing (p : Process) : Prop :=
  p.crashed = false ∧ Starting p.phase ∧ p.phase ≠ .attach

/-- Registered with a type, and not yet deregistered. -/
def Registered (p : Process) : Prop :=
  p.crashed = false ∧ p.ipcToolType ≠ .invalid ∧ Holds p p.ipcToolType

def Uses (p : Process) : Prop :=
  Constructing p ∨ Registered p

/-- The observation thread, once started, has not been joined by the destructor. -/
def Unjoined (p : Process) : Prop :=
  p.phase = .copy ∨ p.phase = .deregister ∨ p.phase = .joinTimer

/-- The next step of its main or of its observation thread removes the name. -/
def AtRemoval (p : Process) : Prop :=
  p.crashed = false ∧ (p.phase = .removeObject ∨ Unjoined p ∧ p.timer = .removing)

/-- The observation thread calls `std::terminate`. -/
def Terminates (p : Process) (event : Event) : Prop :=
  event = .observe ∧ p.timer = .terminating

/-- The destructor has seen the second counter at zero, or the observer calls back. -/
def DecidesToRemove (sh : Segment ι) (p : Process) : Event -> Prop
  | .run _ => p.phase = .readReaderCount ∧ sh.procInfo.readerProcessCount = 0
  | .interrupt => False
  | .observe => Unjoined p ∧ p.timer = .expired ∧
      (p.ipcToolType = .readerProcess ∨ sh.queue.isReadFinished_ = false)

omit [DecidableEq ι] in
theorem RoleStep.of_procInfo {sh sh₁ sh' : Segment ι} {p p' : Process}
    (h : RoleStep sh₁ p p' sh') (heq : sh₁.procInfo = sh.procInfo) :
    RoleStep sh p p' sh' := by
  cases h with
  | same hcounter hholds =>
      apply RoleStep.same
      · rwa [← heq]
      · exact hholds
  | register type htype hphase htool hcount hprocInfo hholds =>
      rw [heq] at hcount hprocInfo
      exact RoleStep.register type htype hphase htool hcount hprocInfo hholds
  | deregister hphase hprocInfo hholds =>
      rw [heq] at hprocInfo
      exact RoleStep.deregister hphase hprocInfo hholds

theorem processStep_live {args : Args} {me : ι} {event : Event} {sh : Segment ι}
    {p : Process} {out : Process × Segment ι}
    (h : processStep args me event sh p = some out) : p.crashed = false := by
  unfold processStep at h
  split at h
  · cases h
  · rename_i hlive
    simpa using hlive

/-- A process that is attached does not come to construct its tool anew. -/
theorem ProcessStep.constructing {args : Args} {me : ι} {event : Event}
    {sh sh' : Segment ι} {p p' : Process} (hlive : p.crashed = false)
    (hphase : p.phase ≠ .attach) (h : ProcessStep args me sh p event p' sh')
    (hconstructing : Constructing p') : Constructing p := by
  refine ⟨hlive, ?_, hphase⟩
  by_contra hlate
  exact (h.late hlate).left hconstructing.right.left

/-- Nor does it come to use its segment. -/
theorem ProcessStep.uses {args : Args} {me : ι} {event : Event} {sh sh' : Segment ι}
    {p p' : Process} (hconsistent : Consistent args p) (hlive : p.crashed = false)
    (hphase : p.phase ≠ .attach) (h : ProcessStep args me sh p event p' sh')
    (huses : Uses p') : Uses p := by
  rcases huses with hconstructing | ⟨_, htype, hholds⟩
  · exact Or.inl (h.constructing hlive hphase hconstructing)
  · cases h.role hconsistent with
    | same _ hsame =>
        have hbefore := (hsame _ htype).mp hholds
        right
        refine ⟨hlive, ?_, ?_⟩
        · rwa [hbefore.left]
        · rwa [hbefore.left]
    | register _ _ hregister _ _ _ _ =>
        left
        refine ⟨hlive, ?_, hphase⟩
        rw [hregister]
        trivial
    | deregister _ _ hnone => exact absurd hholds (hnone _)

/-- Only a step at a removal takes the name away. -/
theorem ProcessStep.removes {args : Args} {me : ι} {event : Event} {sh sh' : Segment ι}
    {p p' : Process} (hlive : p.crashed = false) (hnamed : sh.named = true)
    (h : ProcessStep args me sh p event p' sh') (hremoved : sh'.named = false) :
    AtRemoval p := by
  cases h with
  | start hstart => cases hstart <;> simp_all
  | reading hphase htype htool hreading => cases hreading <;> simp_all
  | writing hphase htype htool hwriting => cases hwriting <;> simp_all
  | invalid hphase htype => simp_all
  | leave hleave =>
      cases hleave with
      | removeObject hphase => exact ⟨hlive, Or.inl hphase⟩
      | _ => simp_all
  | interrupt hphase => simp_all
  | observe hphase hobserve =>
      cases hobserve with
      | remove htimer => exact ⟨hlive, Or.inr ⟨Or.inl hphase, htimer⟩⟩
      | _ => simp_all
  | linger hphase hobserve =>
      cases hobserve with
      | remove htimer => exact ⟨hlive, Or.inr ⟨Or.inr hphase, htimer⟩⟩
      | _ => simp_all

theorem IPCTool.ReadingStep.removing {src : List UInt8} {me : ι} {io : Io}
    {sh sh' : Segment ι} {p p' : Process} {reader : BufferedReader} {pc : ReaderPc}
    (h : ReadingStep src me io sh p reader pc p' sh') (htimer : p'.timer = .removing) :
    p.timer = .removing := by
  cases h with
  | @read pc r reader' q hread => cases r <;> exact htimer
  | startObserver => cases htimer
  | stopTimer hstop => cases htimer
  | _ => exact htimer

theorem IPCTool.WritingStep.removing {me : ι} {io : Io} {sh sh' : Segment ι}
    {p p' : Process} {writer : BufferedFileWriter} {pc : WriterPc}
    (h : WritingStep me io sh p writer pc p' sh') (htimer : p'.timer = .removing) :
    p.timer = .removing := by
  cases h with
  | @write pc r writer' q hwrite => cases r <;> exact htimer
  | startObserver => cases htimer
  | stopTimer hstop => cases htimer
  | _ => exact htimer

theorem AtRemoval.of_copy {p : Process} (h : AtRemoval p)
    (hphase : p.phase = .copy ∨ p.phase = .deregister) : p.timer = .removing := by
  rcases h.right with hremove | hunjoined
  · rw [hremove] at hphase
    rcases hphase with hphase | hphase <;> cases hphase
  · exact hunjoined.right

/-- A process comes to a removal by a decision. -/
theorem ProcessStep.decides {args : Args} {me : ι} {event : Event} {sh sh' : Segment ι}
    {p p' : Process} (hconsistent : Consistent args p) (hlive : p.crashed = false)
    (h : ProcessStep args me sh p event p' sh') (hremoval : AtRemoval p') :
    AtRemoval p ∨ DecidesToRemove sh p event := by
  cases h with
  | start hstart =>
      have htimer := hconsistent.unobserved hstart.phase
      have hphase := hstart.phase
      cases hstart <;> simp_all [AtRemoval, Process.crash]
  | reading hphase htype htool hreading =>
      have htimer := hremoval.of_copy (hreading.role hphase).right.left
      exact Or.inl ⟨hlive, Or.inr ⟨Or.inl hphase, hreading.removing htimer⟩⟩
  | writing hphase htype htool hwriting =>
      have htimer := hremoval.of_copy (hwriting.role hphase).right.left
      exact Or.inl ⟨hlive, Or.inr ⟨Or.inl hphase, hwriting.removing htimer⟩⟩
  | invalid hphase htype =>
      exact Or.inl ⟨hlive, Or.inr ⟨Or.inl hphase, hremoval.of_copy (Or.inr rfl)⟩⟩
  | leave hleave =>
      cases hleave with
      | deregister hphase =>
          exact Or.inl ⟨hlive, Or.inr ⟨Or.inr (Or.inl hphase),
            (hremoval.right.resolve_left (by simp)).right⟩⟩
      | seesNoReader hphase hcount => exact Or.inr ⟨hphase, hcount⟩
      | _ => simp_all [AtRemoval, Unjoined]
  | interrupt hphase =>
      exact Or.inl ⟨hlive, Or.inr ⟨Or.inl hphase, hremoval.of_copy (Or.inr rfl)⟩⟩
  | observe hphase hobserve =>
      cases hobserve with
      | sibling => exact Or.inl hremoval
      | callback htimer hremove => exact Or.inr ⟨Or.inl hphase, htimer, hremove⟩
      | _ => simp_all [AtRemoval]
  | linger hphase hobserve =>
      cases hobserve with
      | sibling => exact Or.inl hremoval
      | callback htimer hremove => exact Or.inr ⟨Or.inr hphase, htimer, hremove⟩
      | terminate _ hcopy => simp_all
      | _ => rcases hphase with hphase | hphase <;> simp_all [AtRemoval]

/-- A process attaches in one step, and has still to register then. -/
theorem ProcessStep.attaches {args : Args} {me : ι} {event : Event} {sh sh' : Segment ι}
    {p p' : Process} (hphase : p.phase = .attach) (hnamed : sh.named = true)
    (h : ProcessStep args me sh p event p' sh') :
    sh'.named = true ∧ p'.phase ≠ .attach ∧ Starting p'.phase := by
  rcases h.stage with hstart | hleave | hcopy | hlingers
  · cases hstart with
    | create _ hcreated => exact ⟨rfl, by simp, trivial⟩
    | openOnly _ hcreated _ => exact ⟨hnamed, by simp, trivial⟩
    | _ => simp_all
  · cases hleave <;> simp_all
  · cases hphase.symm.trans hcopy.before
  · rcases hlingers.phase with hlate | hlate <;> cases hphase.symm.trans hlate

theorem ProcessStep.attached {args : Args} {me : ι} {event : Event} {sh sh' : Segment ι}
    {p p' : Process} (h : ProcessStep args me sh p event p' sh') :
    p'.phase ≠ .attach := by
  rcases h.stage with hstart | hleave | hcopy | hlingers
  · cases hstart <;> simp_all [Process.crash]
  · cases hleave <;> simp
  · intro hattach
    apply hcopy.not_starting
    rw [hattach]
    trivial
  · intro hattach
    apply hlingers.not_starting
    rw [hattach]
    trivial

theorem AtRemoval.not_starting {p : Process} (h : AtRemoval p) : ¬ Starting p.phase := by
  rcases h.right with hphase | ⟨hphase | hphase | hphase, _⟩ <;>
  · rw [hphase]
    exact id

/-!
# All processes
-/

/-- No other process is registered or going to register on the segment. -/
def OthersGone (s : Host ι) (me : ι) (k : Nat) : Prop :=
  (Holds (s.proc me) .readerProcess ∨
    (s.segments k).procInfo.readerProcessCount = 0) ∧
  (Holds (s.proc me) .writerProcess ∨
    (s.segments k).procInfo.writerProcessCount = 0) ∧
  forall q, q ≠ me -> s.home q = k -> ¬ Constructing (s.proc q)

/-- A process decides to remove the name while nobody else uses the segment behind it. -/
def DecidesWhenUnused (s : Host ι) (a : World.Action ι) : Prop :=
  DecidesToRemove (s.view a.1) (s.proc a.1) a.2 ->
    forall k, k ∈ s.name -> OthersGone s a.1 k

/--
A process attaches while none is between its decision and the removal, and if the
name is gone, after all have deregistered.
-/
def AttachesInTime (s : Host ι) (a : World.Action ι) : Prop :=
  (s.proc a.1).phase = .attach ->
    (forall p, ¬ AtRemoval (s.proc p)) ∧
      (s.name = none -> forall p, ¬ Registered (s.proc p))

def KeepsApart (s : Host ι) (a : World.Action ι) : Prop :=
  DecidesWhenUnused s a ∧ AttachesInTime s a

/-- Who uses which segment, while the name is removed only from unused ones. -/
structure Exclusive (args : ι -> Args) (s : Host ι) : Prop where
  roles : forall k, Roles args (s.world k)
  attaching : forall p, (s.proc p).phase = .attach -> s.proc p = Process.new
  constructing : forall p, Constructing (s.proc p) -> s.name = some (s.home p)
  registered : forall p, Registered (s.proc p) ->
    s.name = none ∨ s.name = some (s.home p)
  shared : forall p q, Uses (s.proc p) -> Uses (s.proc q) -> s.home p = s.home q
  clear : forall p, AtRemoval (s.proc p) ->
    forall q, q ≠ p -> s.name = some (s.home q) -> ¬ Uses (s.proc q)

theorem Process.new_unused : ¬ Uses Process.new := by
  rintro (⟨_, _, hphase⟩ | ⟨_, htype, _⟩)
  · exact hphase rfl
  · exact htype rfl

omit [DecidableEq ι] in
theorem init_exclusive (args : ι -> Args) (buffers : Nat -> Nat -> List UInt8) :
    Exclusive args (Host.init buffers) where
  roles := by
    intro k
    have hworld : (Host.init buffers : Host ι).world k = World.init (buffers k) := by
      unfold Host.world
      rw [World.init, World.mk.injEq]
      exact ⟨rfl, funext fun _ => ite_self _⟩
    rw [hworld]
    exact init_roles args (buffers k)
  attaching := fun _ _ => rfl
  constructing := fun _ h => absurd (Or.inl h) Process.new_unused
  registered := fun _ h => absurd (Or.inr h) Process.new_unused
  shared := fun _ _ h => absurd h Process.new_unused
  clear := fun _ h => absurd trivial h.not_starting

omit [DecidableEq ι] in
theorem OthersGone.counter {s : Host ι} {me : ι} {k : Nat} (h : OthersGone s me k)
    {type : ProcessType} (htype : type ≠ .invalid) :
    Holds (s.proc me) type ∨ (s.segments k).procInfo.counter type = 0 := by
  cases type with
  | readerProcess => exact h.left
  | writerProcess => exact h.right.left
  | invalid => exact absurd rfl htype

omit [DecidableEq ι] in
/-- The counters tell that nobody else uses the segment behind the name. -/
theorem Exclusive.clear_of_gone {args : ι -> Args} {s : Host ι} (h : Exclusive args s)
    {me : ι} (hlive : (s.proc me).crashed = false)
    (hgone : forall k, k ∈ s.name -> OthersGone s me k) {q : ι} (hq : q ≠ me)
    (hname : s.name = some (s.home q)) : ¬ Uses (s.proc q) := by
  have hother := hgone (s.home q) hname
  rintro (hconstructing | ⟨_, htype, hholds⟩)
  · exact hother.right.right q hq rfl hconstructing
  · have hworld : Holds ((s.world (s.home q)).proc q) (s.proc q).ipcToolType := by
      simpa [Host.world] using hholds
    have hone : (s.segments (s.home q)).procInfo.counter (s.proc q).ipcToolType = 1 :=
      (h.roles (s.home q)).counter_eq_one htype hworld
    rcases hother.counter htype with hme | hzero
    · have hregistered : Registered (s.proc me) := by
        refine ⟨hlive, ?_, ?_⟩
        · rwa [hme.left]
        · rwa [hme.left]
      have hhome : s.home me = s.home q := by
        rcases h.registered me hregistered with hnone | hsome
        · cases hnone.symm.trans hname
        · exact Option.some.inj (hsome.symm.trans hname)
      have hmine : Holds ((s.world (s.home q)).proc me) (s.proc q).ipcToolType := by
        simpa [Host.world, hhome] using hme
      exact hq ((h.roles (s.home q)).unique htype hworld hmine)
    · rw [hone] at hzero
      cases hzero

/-!
# Steps
-/

theorem Exclusive.roles_move {args : ι -> Args} {s : Host ι} (h : Exclusive args s)
    {me : ι} {event : Event} {c : Process} {sh : Segment ι}
    (hstep : ProcessStep (args me) me (s.view me) (s.proc me) event c sh) (k : Nat) :
    Roles args ((s.move me c sh).world k) := by
  by_cases hk : k = s.target me
  · subst k
    have hproc := Host.world_proc_target (h.attaching me)
    have hconsistent := (h.roles (s.target me)).consistent me
    rw [hproc] at hconsistent
    rw [Host.world_move_target]
    apply (h.roles (s.target me)).move (hstep.consistent hconsistent)
    rw [hproc]
    exact (hstep.role hconsistent).of_procInfo rfl
  · rw [Host.world_move_of_ne c sh (h.attaching me) hk]
    exact h.roles k

theorem Exclusive.attaching_move {args : ι -> Args} {s : Host ι} (h : Exclusive args s)
    {me : ι} {event : Event} {c : Process} {sh : Segment ι}
    (hstep : ProcessStep (args me) me (s.view me) (s.proc me) event c sh) (p : ι) :
    ((s.move me c sh).proc p).phase = .attach ->
      (s.move me c sh).proc p = Process.new :=
  Host.forall_move (P := fun _ _ p => p.phase = .attach -> p = Process.new)
    (fun hattach => absurd hattach hstep.attached) (fun q _ => h.attaching q) p

/-- While a removal goes on nobody is constructing its tool. -/
theorem Exclusive.not_constructing {args : ι -> Args} {s : Host ι}
    (h : Exclusive args s) {p : ι} (hremoval : AtRemoval (s.proc p)) (q : ι) :
    ¬ Constructing (s.proc q) := by
  intro hconstructing
  by_cases hq : q = p
  · subst q
    exact hremoval.not_starting hconstructing.right.left
  · exact h.clear p hremoval q hq (h.constructing q hconstructing) (Or.inl hconstructing)

theorem Exclusive.move_attached {args : ι -> Args} {s : Host ι} (h : Exclusive args s)
    {me : ι} {event : Event} {c : Process} {sh : Segment ι}
    (hphase : (s.proc me).phase ≠ .attach) (hlive : (s.proc me).crashed = false)
    (hguard : DecidesWhenUnused s (me, event))
    (hstep : ProcessStep (args me) me (s.view me) (s.proc me) event c sh) :
    Exclusive args (s.move me c sh) := by
  have hconsistent : Consistent (args me) (s.proc me) := by
    have hworld := (h.roles (s.target me)).consistent me
    rwa [Host.world_proc_target (h.attaching me)] at hworld
  have hhome : (s.move me c sh).home = s.home := by
    change Function.update s.home me (s.target me) = s.home
    rw [Host.target_attached hphase, Function.update_eq_self]
  have hconstructing : forall q, Constructing ((s.move me c sh).proc q) ->
      Constructing (s.proc q) :=
    Host.forall_move (P := fun q _ p => Constructing p -> Constructing (s.proc q))
      (hstep.constructing hlive hphase) (fun _ _ => id)
  have huses : forall q, Uses ((s.move me c sh).proc q) -> Uses (s.proc q) :=
    Host.forall_move (P := fun q _ p => Uses p -> Uses (s.proc q))
      (hstep.uses hconsistent hlive hphase) (fun _ _ => id)
  have hname : (s.move me c sh).name = s.name ∨
      (s.move me c sh).name = none ∧ AtRemoval (s.proc me) := by
    cases hnamed : sh.named with
    | true => exact Or.inl (Host.name_kept hphase hnamed)
    | false =>
        exact Or.inr ⟨Host.name_removed hnamed, hstep.removes hlive rfl hnamed⟩
  refine ⟨h.roles_move hstep, h.attaching_move hstep, ?_, ?_, ?_, ?_⟩
  · intro p hp
    have hbefore := hconstructing p hp
    rw [hhome]
    rcases hname with hkept | ⟨_, hremoval⟩
    · rw [hkept]
      exact h.constructing p hbefore
    · exact absurd hbefore (h.not_constructing hremoval p)
  · intro p hp
    rw [hhome]
    rcases hname with hkept | ⟨hnone, _⟩
    · rw [hkept]
      rcases huses p (Or.inr hp) with hbefore | hbefore
      · exact Or.inr (h.constructing p hbefore)
      · exact h.registered p hbefore
    · exact Or.inl hnone
  · intro p q hp hq
    rw [hhome]
    exact h.shared p q (huses p hp) (huses q hq)
  · intro p hp q hq hsome hused
    rw [hhome] at hsome
    have hsome' := Host.name_move hphase hsome
    by_cases heq : p = me
    · subst p
      rw [Host.move_proc_self] at hp
      rcases hstep.decides hconsistent hlive hp with hbefore | hdecides
      · exact h.clear me hbefore q hq hsome' (huses q hused)
      · exact h.clear_of_gone hlive (hguard hdecides) hq hsome' (huses q hused)
    · rw [s.move_proc_of_ne c sh heq] at hp
      exact h.clear p hp q hq hsome' (huses q hused)

omit [DecidableEq ι] in
/-- A process that attaches in time finds all others that use a segment on its own one. -/
theorem Exclusive.home_target {args : ι -> Args} {s : Host ι} (h : Exclusive args s)
    {me : ι} (hphase : (s.proc me).phase = .attach)
    (hguard : s.name = none -> forall p, ¬ Registered (s.proc p)) {q : ι}
    (hq : Uses (s.proc q)) : s.home q = s.target me := by
  have hname : s.name = some (s.home q) := by
    rcases hq with hconstructing | hregistered
    · exact h.constructing q hconstructing
    · rcases h.registered q hregistered with hnone | hsome
      · exact absurd hregistered (hguard hnone q)
      · exact hsome
  rw [Host.target, if_pos hphase, hname]
  rfl

theorem Exclusive.move_attach {args : ι -> Args} {s : Host ι} (h : Exclusive args s)
    {me : ι} {event : Event} {c : Process} {sh : Segment ι}
    (hphase : (s.proc me).phase = .attach) (hguard : AttachesInTime s (me, event))
    (hstep : ProcessStep (args me) me (s.view me) (s.proc me) event c sh) :
    Exclusive args (s.move me c sh) := by
  rcases hstep.attaches hphase rfl with ⟨hnamed, _, hstarting⟩
  have hname : (s.move me c sh).name = some (s.target me) := by
    simp [Host.move, hphase, hnamed]
  have hhome : forall q, Uses ((s.move me c sh).proc q) ->
      (s.move me c sh).home q = s.target me :=
    Host.forall_move (P := fun _ k p => Uses p -> k = s.target me) (fun _ => rfl)
      (fun q _ => h.home_target hphase (hguard hphase).right)
  have hremoval : forall q, ¬ AtRemoval ((s.move me c sh).proc q) :=
    Host.forall_move (P := fun _ _ p => ¬ AtRemoval p)
      (fun hc => hc.not_starting hstarting) (fun q _ => (hguard hphase).left q)
  refine ⟨h.roles_move hstep, h.attaching_move hstep, ?_, ?_, ?_, ?_⟩
  · intro p hp
    rw [hname, hhome p (Or.inl hp)]
  · intro p hp
    right
    rw [hname, hhome p (Or.inr hp)]
  · intro p q hp hq
    rw [hhome p hp, hhome q hq]
  · intro p hp
    exact absurd hp (hremoval p)

theorem Exclusive.next {args : ι -> Args} {s s' : Host ι} (h : Exclusive args s)
    {a : World.Action ι} (hguard : KeepsApart s a)
    (hnext : Host.next args a s = some s') : Exclusive args s' := by
  rcases Option.map_eq_some_iff.mp hnext with ⟨⟨c, sh⟩, hprocess, rfl⟩
  have hstep := processStep_cases hprocess
  by_cases hphase : (s.proc a.1).phase = .attach
  · exact h.move_attach hphase hguard.right hstep
  · exact h.move_attached hphase (processStep_live hprocess) hguard.left hstep

/-!
# Runs
-/

/-- No step takes the name away from a segment that another live process uses. -/
def RemovesOnlyUnused (args : ι -> Args) (s : Host ι) : Prop :=
  forall a s' k, Host.next args a s = some s' -> s.name = some k -> s'.name = none ->
    forall q, q ≠ a.1 -> s.home q = k -> ¬ Uses (s.proc q)

/-- The processes registered at one time are on one segment. -/
def OneSegment (s : Host ι) : Prop :=
  forall p q, Registered (s.proc p) -> Registered (s.proc q) -> s.home p = s.home q

theorem Exclusive.removesOnlyUnused {args : ι -> Args} {s : Host ι}
    (h : Exclusive args s) : RemovesOnlyUnused args s := by
  rintro a s' k hnext hname hnone q hq rfl
  rcases Option.map_eq_some_iff.mp hnext with ⟨⟨c, sh⟩, hprocess, rfl⟩
  have hstep := processStep_cases hprocess
  have hnamed : sh.named = false := Host.named_of_removed hname hnone
  have hremoval := hstep.removes (processStep_live hprocess) rfl hnamed
  exact h.clear a.1 hremoval q hq hname

/--
If processes decide to remove the name only while nobody else uses the segment behind
it, and attach neither between a decision and its removal nor after a removal before
all have deregistered, then the name is never removed while it is in use and no two
processes are registered on different segments.
-/
theorem removed_only_unused (args : ι -> Args) (buffers : Nat -> Nat -> List UInt8)
    (s : Host ι)
    (hrun : Reaches (StepOf (Host.next args)) KeepsApart (Host.init buffers) s) :
    RemovesOnlyUnused args s ∧ OneSegment s := by
  have hexclusive : Exclusive args s :=
    Reaches.invariant (Exclusive args) (fun _ _ _ hx hguard hnext => hx.next hguard hnext)
      hrun (init_exclusive args buffers)
  refine ⟨hexclusive.removesOnlyUnused, ?_⟩
  intro p q hp hq
  exact hexclusive.shared p q (Or.inr hp) (Or.inr hq)

instance (p : Process) : Decidable (Constructing p) :=
  inferInstanceAs (Decidable (_ ∧ _ ∧ _))

instance (p : Process) : Decidable (Registered p) :=
  inferInstanceAs (Decidable (_ ∧ _ ∧ _))

instance (p : Process) : Decidable (Unjoined p) :=
  inferInstanceAs (Decidable (_ ∨ _ ∨ _))

instance (p : Process) : Decidable (AtRemoval p) :=
  inferInstanceAs (Decidable (_ ∧ (_ ∨ _ ∧ _)))

omit [DecidableEq ι] in
instance (sh : Segment ι) (p : Process) (event : Event) :
    Decidable (DecidesToRemove sh p event) :=
  match event with
  | .run _ => inferInstanceAs (Decidable (_ ∧ _))
  | .interrupt => isFalse id
  | .observe => inferInstanceAs (Decidable (_ ∧ _ ∧ (_ ∨ _)))

instance (s : Host Pid) (me : Pid) (k : Nat) : Decidable (OthersGone s me k) :=
  inferInstanceAs (Decidable ((_ ∨ _) ∧ (_ ∨ _) ∧ forall _ : Pid, _ -> _ -> ¬ _))

instance (s : Host Pid) (a : World.Action Pid) : Decidable (KeepsApart s a) :=
  inferInstanceAs (Decidable ((_ -> forall k, k ∈ s.name -> _) ∧
    (_ -> (forall _ : Pid, ¬ _) ∧ (_ -> forall _ : Pid, ¬ _))))

/-- The first process is registered as a reader and cannot open its file. -/
def failedReader : List (World.Action Pid) :=
  World.turns .first 7 ++ [(.first, .run { Io.success with fails := true })]

/-- It leaves and removes the name, and the second process starts after that. -/
def leftInTurn : List (World.Action Pid) :=
  failedReader ++ World.turns .first 5 ++ World.turns .second 6

theorem removed_only_unused_inTurn :
    exists s : Host Pid,
      Reaches (StepOf (Host.next (sources [] []))) KeepsApart
        (Host.init fun _ _ => []) s ∧
      s.count = 2 ∧ Registered (s.proc .second) ∧
      RemovesOnlyUnused (sources [] []) s ∧ OneSegment s := by
  have hview : ((exec (Host.next (sources [] [])) leftInTurn
      (Host.init fun _ _ => [])).map fun s =>
        (s.count, decide (Registered (s.proc .second)))) = some (2, true) := by
    decide +kernel
  rcases Option.map_eq_some_iff.mp hview with ⟨s, hexec, hview⟩
  simp only [Prod.mk.injEq, decide_eq_true_eq] at hview
  have hrun : Reaches (StepOf (Host.next (sources [] []))) KeepsApart
      (Host.init fun _ _ => []) s :=
    reaches_of_exec leftInTurn (by decide +kernel) hexec
  exact ⟨s, hrun, hview.left, hview.right, removed_only_unused _ _ s hrun⟩

/-- The second process is registered on the segment whose name the first one removes. -/
def leftTogether : List (World.Action Pid) :=
  failedReader ++ World.turns .first 4 ++ World.turns .second 5

/-- The name is removed then, and the third process is registered on a new segment. -/
def startedApart : List (World.Action Pid) :=
  leftTogether ++ World.turns .first 1 ++ World.turns .third 6

/-- In general the name is removed in use, and then readers wait on two segments. -/
theorem removed_while_used :
    (¬ forall (args : Pid -> Args) (buffers : Nat -> Nat -> List UInt8) (s : Host Pid),
      Reaches (StepOf (Host.next args)) anyStep (Host.init buffers) s ->
      RemovesOnlyUnused args s) ∧
    ¬ forall (args : Pid -> Args) (buffers : Nat -> Nat -> List UInt8) (s : Host Pid),
      Reaches (StepOf (Host.next args)) anyStep (Host.init buffers) s ->
      OneSegment s := by
  constructor
  · intro h
    have hview : ((exec (Host.next (sources [] [])) leftTogether
        (Host.init fun _ _ => [])).bind fun s =>
          (Host.next (sources [] []) (.first, .run Io.success) s).map fun s' =>
            (s.name, s'.name, s.home .second, decide (Registered (s.proc .second)))) =
        some (some 0, none, 0, true) := by
      decide +kernel
    rcases Option.bind_eq_some_iff.mp hview with ⟨s, hexec, hview⟩
    rcases Option.map_eq_some_iff.mp hview with ⟨s', hnext, hview⟩
    simp only [Prod.mk.injEq, decide_eq_true_eq] at hview
    rcases hview with ⟨hname, hnone, hhome, hregistered⟩
    have hrun : Reaches (StepOf (Host.next (sources [] []))) anyStep
        (Host.init fun _ _ => []) s :=
      reaches_of_exec_any leftTogether hexec
    have hsecond : Pid.second ≠ Pid.first := by
      intro heq
      cases heq
    exact h _ _ s hrun _ s' 0 hnext hname hnone .second hsecond hhome
      (Or.inr hregistered)
  · intro h
    have hview : ((exec (Host.next (sources [] [])) startedApart
        (Host.init fun _ _ => [])).map fun s =>
          (s.home .second, s.home .third, decide (Registered (s.proc .second)),
            decide (Registered (s.proc .third)))) = some (0, 1, true, true) := by
      decide +kernel
    rcases Option.map_eq_some_iff.mp hview with ⟨s, hexec, hview⟩
    simp only [Prod.mk.injEq, decide_eq_true_eq] at hview
    rcases hview with ⟨hhome, hhome', hsecond, hthird⟩
    have hrun : Reaches (StepOf (Host.next (sources [] []))) anyStep
        (Host.init fun _ _ => []) s :=
      reaches_of_exec_any startedApart hexec
    have hone := h _ _ s hrun .second .third hsecond hthird
    rw [hhome, hhome'] at hone
    cases hone

end Common
end Ki
