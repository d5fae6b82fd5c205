import Ki.Common.ToolFactory
import Mathlib.Data.Set.Card

/-!
# Roles and their counters

A counter is one exactly while the one process registered with its type has not
deregistered.  This holds in every run, with failures, interruptions and crashes.
-/

namespace Ki
namespace Common

open Foundation
open Queue
open Reader
open Writer
open Stdio
open IPC
open IPCTool

variable {ι : Type} [DecidableEq ι]

/-!
# One process
-/

/-- The constructor of `IPCTool` has not ended. -/
def Starting : Phase -> Prop
  | .attach => True
  | .constructProcInfo => True
  | .findProcInfo => True
  | .getQueue => True
  | .storeDst => True
  | .decideType => True
  | .register => True
  | _ => False

/-- The type of the process has not been decided. -/
def Undecided : Phase -> Prop
  | .attach => True
  | .constructProcInfo => True
  | .findProcInfo => True
  | .getQueue => True
  | .storeDst => True
  | .decideType => True
  | _ => False

/-- The process has been registered with the type and has not deregistered. -/
def Holds (p : Process) (type : ProcessType) : Prop :=
  p.ipcToolType = type ∧ (p.phase = .copy ∨ p.phase = .deregister)

instance (p : Process) (type : ProcessType) : Decidable (Holds p type) :=
  inferInstanceAs (Decidable (_ ∧ (_ ∨ _)))

/-- The tool of a process is built by its decision, the type set by its registration. -/
structure Consistent (args : Args) (p : Process) : Prop where
  undecided : Undecided p.phase -> p.tool = .none
  decided : p.phase = .register ->
    p.tool = .reader (BufferedReader.new args.src) .openQueue ∨
      exists dst, p.tool = .writer (BufferedFileWriter.new dst) .create
  unregistered : Starting p.phase -> p.ipcToolType = .invalid
  unobserved : Starting p.phase -> p.timer = .off
  typed : p.ipcToolType ≠ .invalid -> p.tool.toolType = p.ipcToolType

theorem Process.new_consistent (args : Args) : Consistent args Process.new where
  undecided := fun _ => rfl
  decided := by
    intro h
    cases h
  unregistered := fun _ => rfl
  unobserved := fun _ => rfl
  typed := fun h => absurd rfl h

theorem Consistent.decided_reader {args : Args} {p : Process} (h : Consistent args p)
    (hphase : p.phase = .register) {reader : BufferedReader} {pc : ReaderPc}
    (htool : p.tool = .reader reader pc) :
    reader = BufferedReader.new args.src ∧ pc = .openQueue := by
  rcases h.decided hphase with hdecided | ⟨dst, hdecided⟩
  · cases hdecided.symm.trans htool
    exact ⟨rfl, rfl⟩
  · cases hdecided.symm.trans htool

theorem Consistent.decided_writer {args : Args} {p : Process} (h : Consistent args p)
    (hphase : p.phase = .register) {writer : BufferedFileWriter} {pc : WriterPc}
    (htool : p.tool = .writer writer pc) :
    pc = .create ∧ exists dst, writer = BufferedFileWriter.new dst := by
  rcases h.decided hphase with hdecided | ⟨dst, hdecided⟩
  · cases hdecided.symm.trans htool
  · cases hdecided.symm.trans htool
    exact ⟨rfl, dst, rfl⟩

omit [DecidableEq ι] in
theorem StartStep.phase {args : Args} {sh sh' : Segment ι} {p p' : Process}
    (h : StartStep args sh p p' sh') : Starting p.phase := by
  cases h <;> simp_all [Starting]

theorem IPCTool.ReadingStep.tool {src : List UInt8} {me : ι} {io : Io}
    {sh sh' : Segment ι} {p p' : Process} {reader : BufferedReader}
    {pc : ReaderPc} (htool : p.tool.toolType = .readerProcess)
    (h : ReadingStep src me io sh p reader pc p' sh') :
    p'.tool.toolType = .readerProcess := by
  cases h with
  | crash hnull => exact htool
  | @read pc r reader' q hread => cases r <;> rfl
  | _ => rfl

theorem IPCTool.WritingStep.tool {me : ι} {io : Io} {sh sh' : Segment ι}
    {p p' : Process} {writer : BufferedFileWriter} {pc : WriterPc}
    (htool : p.tool.toolType = .writerProcess)
    (h : WritingStep me io sh p writer pc p' sh') :
    p'.tool.toolType = .writerProcess := by
  cases h with
  | crash hnull => exact htool
  | @write pc r writer' q hwrite => cases r <;> rfl
  | _ => rfl

/-- A step of `copy` keeps the type, and the process registered. -/
theorem IPCTool.ReadingStep.role {src : List UInt8} {me : ι} {io : Io}
    {sh sh' : Segment ι} {p p' : Process} {reader : BufferedReader}
    {pc : ReaderPc} (hphase : p.phase = .copy)
    (h : ReadingStep src me io sh p reader pc p' sh') :
    p'.ipcToolType = p.ipcToolType ∧
      (p'.phase = .copy ∨ p'.phase = .deregister) ∧
      forall type, sh'.procInfo.counter type = sh.procInfo.counter type := by
  cases h with
  | @read pc r reader' q hread =>
      cases r <;> simp [afterRead, Process.goto, Process.leave, hphase]
  | sleep hpc hstarted => simp [Process.goto, hphase]
  | _ => simp [Process.goto, Process.leave, Process.crash, Process.startObserver,
      Process.stopTimer, hphase]

theorem IPCTool.WritingStep.role {me : ι} {io : Io} {sh sh' : Segment ι}
    {p p' : Process} {writer : BufferedFileWriter} {pc : WriterPc}
    (hphase : p.phase = .copy)
    (h : WritingStep me io sh p writer pc p' sh') :
    p'.ipcToolType = p.ipcToolType ∧
      (p'.phase = .copy ∨ p'.phase = .deregister) ∧
      forall type, sh'.procInfo.counter type = sh.procInfo.counter type := by
  cases h with
  | @write pc r writer' q hwrite => cases r <;> simp [afterWrite, Process.goto, hphase]
  | startWriting => simp [Process.goto, hphase]
  | _ => simp [Process.goto, Process.leave, Process.crash, Process.startObserver,
      Process.stopTimer, hphase]

omit [DecidableEq ι] in
theorem IPCTool.ObserverStep.role {sh sh' : Segment ι} {p p' : Process}
    (hphase : p.phase = .copy) (h : ObserverStep sh p p' sh') :
    p'.ipcToolType = p.ipcToolType ∧
      (p'.phase = .copy ∨ p'.phase = .deregister) ∧
      forall type, sh'.procInfo.counter type = sh.procInfo.counter type := by
  cases h <;> simp [hphase]

/-- What every step of a process in `copy` keeps. -/
structure InCopy (sh : Segment ι) (p p' : Process) (sh' : Segment ι) : Prop where
  before : p.phase = .copy
  after : p'.phase = .copy ∨ p'.phase = .deregister
  type : p'.ipcToolType = p.ipcToolType
  tool : p'.tool.toolType = p.tool.toolType
  counter : forall type, sh'.procInfo.counter type = sh.procInfo.counter type

/-- A step of the observation thread while the tool is being destroyed. -/
structure Lingers (sh : Segment ι) (p p' : Process) (sh' : Segment ι) : Prop where
  phase : p.phase = .deregister ∨ p.phase = .joinTimer
  same : exists timer named, p' = { p with timer := timer } ∧ sh' = { sh with named := named }

omit [DecidableEq ι] in
theorem Lingers.of_observer {sh sh' : Segment ι} {p p' : Process}
    (hphase : p.phase = .deregister ∨ p.phase = .joinTimer) (h : ObserverStep sh p p' sh') :
    Lingers sh p p' sh' := by
  refine ⟨hphase, h.lingers ?_⟩
  rcases hphase with hphase | hphase <;> simp [hphase]

omit [DecidableEq ι] in
theorem Lingers.not_starting {sh sh' : Segment ι} {p p' : Process}
    (h : Lingers sh p p' sh') : ¬ Starting p'.phase := by
  rcases h.same with ⟨timer, named, rfl, rfl⟩
  rcases h.phase with hphase | hphase <;> simp [hphase, Starting]

/-- A step belongs to the start of its process, to its end, or to `copy`. -/
theorem ProcessStep.stage {args : Args} {me : ι} {event : Event}
    {sh sh' : Segment ι} {p p' : Process}
    (h : ProcessStep args me sh p event p' sh') :
    StartStep args sh p p' sh' ∨ LeaveStep sh p p' sh' ∨ InCopy sh p p' sh' ∨
      Lingers sh p p' sh' := by
  cases h with
  | start hstart => exact Or.inl hstart
  | leave hleave => exact Or.inr (Or.inl hleave)
  | reading hphase htype htool hreading =>
      have hkept := hreading.tool (by rw [htool]; rfl)
      have hrole := hreading.role hphase
      exact Or.inr (Or.inr (Or.inl ⟨hphase, hrole.right.left, hrole.left,
        by rw [hkept, htool]; rfl, hrole.right.right⟩))
  | writing hphase htype htool hwriting =>
      have hkept := hwriting.tool (by rw [htool]; rfl)
      have hrole := hwriting.role hphase
      exact Or.inr (Or.inr (Or.inl ⟨hphase, hrole.right.left, hrole.left,
        by rw [hkept, htool]; rfl, hrole.right.right⟩))
  | invalid hphase htype =>
      exact Or.inr (Or.inr (Or.inl ⟨hphase, Or.inr rfl, rfl, rfl, fun _ => rfl⟩))
  | interrupt hphase =>
      exact Or.inr (Or.inr (Or.inl ⟨hphase, Or.inr rfl, rfl, rfl, fun _ => rfl⟩))
  | observe hphase hobserve =>
      have hrole := hobserve.role hphase
      refine Or.inr (Or.inr (Or.inl ⟨hphase, hrole.right.left, hrole.left, ?_,
        hrole.right.right⟩))
      cases hobserve <;> rfl
  | linger hphase hobserve =>
      exact Or.inr (Or.inr (Or.inr (Lingers.of_observer hphase hobserve)))

omit [DecidableEq ι] in
theorem InCopy.not_starting {sh sh' : Segment ι} {p p' : Process}
    (h : InCopy sh p p' sh') : ¬ Starting p'.phase := by
  rcases h.after with hphase | hphase <;>
  · rw [hphase]
    exact id

theorem Undecided.starting {phase : Phase} (h : Undecided phase) : Starting phase := by
  cases phase <;> trivial

theorem ProcessStep.consistent {args : Args} {me : ι} {event : Event}
    {sh sh' : Segment ι} {p p' : Process} (h : Consistent args p)
    (hstep : ProcessStep args me sh p event p' sh') : Consistent args p' := by
  rcases hstep.stage with hstart | hleave | hcopy | hlingers
  · have htype := h.unregistered hstart.phase
    have htimer := h.unobserved hstart.phase
    have hundecided := h.undecided
    cases hstart <;> constructor <;>
      simp_all [Process.crash, Starting, Undecided]
  · constructor
    · intro hundecided
      cases hleave <;> cases hundecided
    · intro hregister
      cases hleave <;> cases hregister
    · intro hstarting
      cases hleave <;> cases hstarting
    · intro hstarting
      cases hleave <;> cases hstarting
    · cases hleave <;> exact h.typed
  · constructor
    · exact fun hundecided => absurd hundecided.starting hcopy.not_starting
    · intro hregister
      exact absurd (by rw [hregister]; trivial) hcopy.not_starting
    · exact fun hstarting => absurd hstarting hcopy.not_starting
    · exact fun hstarting => absurd hstarting hcopy.not_starting
    · rw [hcopy.type, hcopy.tool]
      exact h.typed
  · constructor
    · exact fun hundecided => absurd hundecided.starting hlingers.not_starting
    · intro hregister
      exact absurd (by rw [hregister]; trivial) hlingers.not_starting
    · exact fun hstarting => absurd hstarting hlingers.not_starting
    · exact fun hstarting => absurd hstarting hlingers.not_starting
    · rcases hlingers.same with ⟨timer, named, rfl, rfl⟩
      exact h.typed

/-- What a step can do to the registration of its process. -/
inductive RoleStep (sh : Segment ι) (p p' : Process) (sh' : Segment ι) : Prop where
  | same (hcounter : forall type,
        sh'.procInfo.counter type = sh.procInfo.counter type)
      (hholds : forall type, type ≠ .invalid -> (Holds p' type <-> Holds p type))
  | register (type : ProcessType) (htype : type ≠ .invalid)
      (hphase : p.phase = .register) (htool : p.tool.toolType = type)
      (hcount : sh.procInfo.counter type = 0)
      (hprocInfo : sh'.procInfo = sh.procInfo.setCounter type 1)
      (hholds : Holds p' type)
  | deregister (hphase : p.phase = .deregister)
      (hprocInfo : sh'.procInfo = sh.procInfo.deregister p.ipcToolType)
      (hholds : forall type, ¬ Holds p' type)

theorem ProcessStep.role {args : Args} {me : ι} {event : Event}
    {sh sh' : Segment ι} {p p' : Process} (hconsistent : Consistent args p)
    (h : ProcessStep args me sh p event p' sh') : RoleStep sh p p' sh' := by
  rcases h.stage with hstart | hleave | hcopy | hlingers
  · have htype := hconsistent.unregistered hstart.phase
    cases hstart with
    | register hphase htool hcount =>
        exact RoleStep.register _ htool hphase rfl hcount rfl ⟨rfl, Or.inl rfl⟩
    | reject hphase =>
        apply RoleStep.same
        · simp
        · intro type hne
          simp [Holds, hphase, Ne.symm hne]
    | _ =>
        apply RoleStep.same
        · simp
        · intro type hne
          simp_all [Holds, Process.crash]
  · cases hleave with
    | deregister hphase =>
        exact RoleStep.deregister hphase rfl (by simp [Holds])
    | _ =>
        apply RoleStep.same
        · simp
        · intro type hne
          simp_all [Holds]
  · apply RoleStep.same hcopy.counter
    intro type _
    simp [Holds, hcopy.type, hcopy.after, hcopy.before]
  · rcases hlingers.same with ⟨timer, named, rfl, rfl⟩
    exact RoleStep.same (fun _ => rfl) (fun _ _ => Iff.rfl)

/-!
# All processes
-/

/-- The counters against the processes that hold a role. -/
structure Roles (args : ι -> Args) (s : World ι) : Prop where
  consistent : forall p, Consistent (args p) (s.proc p)
  counter : forall type, type ≠ .invalid ->
    (s.segment.procInfo.counter type = 0 ∧ forall p, ¬ Holds (s.proc p) type) ∨
    (s.segment.procInfo.counter type = 1 ∧ exists p, Holds (s.proc p) type ∧
      forall q, Holds (s.proc q) type -> q = p)

omit [DecidableEq ι] in
theorem init_roles (args : ι -> Args) (buffers : Nat -> List UInt8) :
    Roles args (World.init buffers : World ι) where
  consistent := fun p => Process.new_consistent (args p)
  counter := by
    intro type htype
    left
    constructor
    · cases type <;> rfl
    · intro p hholds
      simp [World.init, Process.new, Holds] at hholds

omit [DecidableEq ι] in
/-- No two processes hold one role. -/
theorem Roles.unique {args : ι -> Args} {s : World ι} (h : Roles args s)
    {type : ProcessType} (htype : type ≠ .invalid) {p q : ι} (hp : Holds (s.proc p) type)
    (hq : Holds (s.proc q) type) : p = q := by
  rcases h.counter type htype with ⟨_, hnone⟩ | ⟨_, r, _, hunique⟩
  · exact absurd hp (hnone p)
  · rw [hunique p hp, hunique q hq]

omit [DecidableEq ι] in
theorem Roles.counter_eq_one {args : ι -> Args} {s : World ι} (h : Roles args s)
    {type : ProcessType} (htype : type ≠ .invalid) {p : ι} (hp : Holds (s.proc p) type) :
    s.segment.procInfo.counter type = 1 := by
  rcases h.counter type htype with ⟨_, hnone⟩ | ⟨hone, _⟩
  · exact absurd hp (hnone p)
  · exact hone

omit [DecidableEq ι] in
theorem Roles.exists_holder {args : ι -> Args} {s : World ι} (h : Roles args s)
    {type : ProcessType} (htype : type ≠ .invalid)
    (hcount : s.segment.procInfo.counter type ≠ 0) :
    exists p, Holds (s.proc p) type ∧ forall q, Holds (s.proc q) type -> q = p := by
  rcases h.counter type htype with ⟨hzero, _⟩ | ⟨_, hholder⟩
  · exact absurd hzero hcount
  · exact hholder

/-- A step that leaves the counter of a type and its holders alone. -/
theorem Roles.counter_same {args : ι -> Args} {s : World ι} (h : Roles args s)
    {p : ι} {c : Process} {sh : Segment ι} {type : ProcessType} (htype : type ≠ .invalid)
    (hcounter : sh.procInfo.counter type = s.segment.procInfo.counter type)
    (hholds : Holds c type <-> Holds (s.proc p) type) :
    ((s.move p c sh).segment.procInfo.counter type = 0 ∧
      forall q, ¬ Holds ((s.move p c sh).proc q) type) ∨
    ((s.move p c sh).segment.procInfo.counter type = 1 ∧
      exists r, Holds ((s.move p c sh).proc r) type ∧
        forall q, Holds ((s.move p c sh).proc q) type -> q = r) := by
  have hall : forall q, Holds ((s.move p c sh).proc q) type <->
      Holds (s.proc q) type :=
    World.forall_move (P := fun q p => Holds p type <-> Holds (s.proc q) type)
      hholds (fun _ _ => Iff.rfl)
  simp only [hall, World.move_segment, hcounter]
  exact h.counter type htype

theorem Roles.move {args : ι -> Args} {s : World ι} (h : Roles args s)
    {p : ι} {c : Process} {sh : Segment ι} (hconsistent : Consistent (args p) c)
    (hstep : RoleStep s.segment (s.proc p) c sh) : Roles args (s.move p c sh) := by
  constructor
  · exact World.forall_move (P := fun q p => Consistent (args q) p) hconsistent
      (fun q _ => h.consistent q)
  · intro type htype
    cases hstep with
    | same hcounter hholds =>
        exact h.counter_same htype (hcounter type) (hholds type htype)
    | register type' htype' hphase htool hcount hprocInfo hholds =>
        have hbefore : forall t, ¬ Holds (s.proc p) t := by
          intro t ht
          simp [Holds, hphase] at ht
        by_cases heq : type = type'
        · rw [← heq] at hcount hprocInfo hholds
          right
          have hnone : forall q, ¬ Holds (s.proc q) type := by
            intro q hq
            rw [h.counter_eq_one htype hq] at hcount
            cases hcount
          refine ⟨by simp [hprocInfo, htype], p, by simpa using hholds, ?_⟩
          exact World.forall_move (P := fun q p' => Holds p' type -> q = p)
            (fun _ => rfl) (fun q _ hq => absurd hq (hnone q))
        · apply h.counter_same htype
          · rw [hprocInfo, ProcInfo.counter_setCounter_of_ne _ heq]
          · constructor
            · intro hc
              exact absurd (hc.left.symm.trans hholds.left) heq
            · exact fun hp => absurd hp (hbefore type)
    | deregister hphase hprocInfo hholds =>
        by_cases heq : type = (s.proc p).ipcToolType
        · left
          have hp : Holds (s.proc p) type := ⟨heq.symm, Or.inr hphase⟩
          constructor
          · rw [World.move_segment, hprocInfo, ProcInfo.deregister, ← heq,
              ProcInfo.counter_setCounter_self _ htype, h.counter_eq_one htype hp]
            rfl
          · exact World.forall_move (P := fun _ p' => ¬ Holds p' type)
              (hholds type) (fun q hqp hq => hqp (h.unique htype hq hp))
        · apply h.counter_same htype
          · rw [hprocInfo, ProcInfo.deregister,
              ProcInfo.counter_setCounter_of_ne _ heq]
          · constructor
            · exact fun hc => absurd hc (hholds type)
            · exact fun hp => absurd hp.left.symm heq

theorem next_roles {args : ι -> Args} {a : World.Action ι} {s s' : World ι}
    (h : Roles args s) (hstep : World.next args a s = some s') : Roles args s' := by
  rcases World.next_cases hstep with ⟨c, sh, rfl, hprocess⟩
  have hconsistent := h.consistent a.1
  exact h.move (hprocess.consistent hconsistent) (hprocess.role hconsistent)

theorem reaches_roles {args : ι -> Args} {guard : World ι -> World.Action ι -> Prop}
    {buffers : Nat -> List UInt8} {s : World ι}
    (hrun : Reaches (StepOf (World.next args)) guard (World.init buffers) s) :
    Roles args s :=
  Reaches.invariant (Roles args) (fun _ _ _ hx _ hnext => next_roles hx hnext) hrun
    (init_roles args buffers)

omit [DecidableEq ι] in
/-- The counter is the number of holders. -/
theorem Roles.counter_eq_encard {args : ι -> Args} {s : World ι} (h : Roles args s)
    (type : ProcessType) (htype : type ≠ .invalid) :
    (s.segment.procInfo.counter type : ℕ∞) =
        Set.encard {p | Holds (s.proc p) type} ∧
      s.segment.procInfo.counter type ≤ 1 := by
  rcases h.counter type htype with ⟨hzero, hnone⟩ | ⟨hone, p, hp, hunique⟩
  · have hempty : {p | Holds (s.proc p) type} = ∅ := by
      apply Set.eq_empty_of_forall_notMem
      exact hnone
    rw [hempty, hzero]
    simp
  · have hsingle : {p | Holds (s.proc p) type} = {p} := by
      apply Set.eq_singleton_iff_unique_mem.mpr
      exact ⟨hp, hunique⟩
    rw [hsingle, hone]
    simp

/--
In every run a counter is the number of processes registered with its type that
have not deregistered, it is at most one, and no process deregisters at zero.
-/
theorem counters_count_registered (args : ι -> Args) (buffers : Nat -> List UInt8)
    (s : World ι)
    (hrun : Reaches (StepOf (World.next args)) anyStep (World.init buffers) s) :
    (s.segment.procInfo.readerProcessCount : ℕ∞) =
        Set.encard {p | Holds (s.proc p) .readerProcess} ∧
      (s.segment.procInfo.writerProcessCount : ℕ∞) =
        Set.encard {p | Holds (s.proc p) .writerProcess} ∧
      s.segment.procInfo.readerProcessCount ≤ 1 ∧
      s.segment.procInfo.writerProcessCount ≤ 1 ∧
      forall p, (s.proc p).phase = .deregister -> (s.proc p).ipcToolType ≠ .invalid ->
        0 < s.segment.procInfo.counter (s.proc p).ipcToolType := by
  have hroles := reaches_roles hrun
  have hreader := hroles.counter_eq_encard .readerProcess (by simp)
  have hwriter := hroles.counter_eq_encard .writerProcess (by simp)
  refine ⟨hreader.left, hwriter.left, hreader.right, hwriter.right, ?_⟩
  intro p hphase htype
  rw [hroles.counter_eq_one htype ⟨rfl, Or.inr hphase⟩]
  exact Nat.one_pos

/-- A reader is interrupted and about to deregister. -/
theorem counters_count_registered_interrupted :
    exists s : World Pid,
      Reaches (StepOf (World.next (sources [] []))) anyStep
        (World.init fun _ => []) s ∧
      (s.proc .first).phase = .deregister ∧
      0 < s.segment.procInfo.counter (s.proc .first).ipcToolType := by
  have hview : ((exec (World.next (sources [] []))
      (World.turns .first 6 ++ [(.first, .interrupt)])
      (World.init fun _ => [])).map fun s =>
        ((s.proc .first).phase, (s.proc .first).ipcToolType)) =
      some (.deregister, .readerProcess) := by
    decide +kernel
  rcases Option.map_eq_some_iff.mp hview with ⟨s, hexec, hpcs⟩
  simp only [Prod.mk.injEq] at hpcs
  have hrun : Reaches (StepOf (World.next (sources [] []))) anyStep _ s :=
    reaches_of_exec_any _ hexec
  have hcounters := counters_count_registered _ _ s hrun
  exact ⟨s, hrun, hpcs.left, hcounters.right.right.right.right .first hpcs.left
    (by simp [hpcs.right])⟩

end Common
end Ki
