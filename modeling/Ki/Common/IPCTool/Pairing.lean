import Ki.Common.IPCTool.Delivery

/-!
# One reader and one writer after the start

The type of a process is decided in one critical section and registered in
another.  Of processes that start together all may decide to be readers before
one of them is registered, and then no writer is left.  The pair is there exactly
if the last process to decide does so after a reader has been registered.
-/

namespace Ki
namespace Common

open Foundation
open Queue
open Reader
open BufferedReader
open Writer
open BufferedFileWriter
open Stdio
open IPC
open IPCTool

variable {ι : Type} [DecidableEq ι]

/-!
# One process
-/

/-- What a step does to the start of its process. -/
inductive StartupStep (sh : Segment ι) (p p' : Process) : Prop where
  | early (hbefore : Undecided p.phase) (hafter : Undecided p'.phase)
      (hnull : p.phase = .decideType -> p.hasProcInfo = false)
  | decide (hbefore : p.phase = .decideType) (hpointer : p.hasProcInfo = true)
      (hafter : p'.phase = .register) (htool : p'.tool.toolType ≠ .invalid)
      (hwriter : sh.procInfo.writerProcessCount < sh.procInfo.readerProcessCount ->
        p'.tool.toolType = .writerProcess)
  | register (hbefore : p.phase = .register) (hafter : p'.phase = .copy)
      (htool : p'.tool = p.tool)
      (hregistered : p.tool.toolType ≠ .invalid ->
        p'.ipcToolType = p.tool.toolType ∨ sh.procInfo.counter p.tool.toolType ≠ 0)
  | late (hbefore : ¬ Starting p.phase) (hafter : ¬ Starting p'.phase)
      (htool : p'.tool.toolType = p.tool.toolType)
      (htype : p'.ipcToolType = p.ipcToolType)

omit [DecidableEq ι] in
theorem ProcInfo.register_type (info : ProcInfo ι) {type : ProcessType}
    (htype : type ≠ .invalid) :
    (info.register type).1 = type ∨ info.counter type ≠ 0 := by
  unfold ProcInfo.register
  by_cases hcount : info.counter type = 0
  · left
    rw [if_neg]
    rintro (hinvalid | hne)
    · exact htype hinvalid
    · exact hne hcount
  · exact Or.inr hcount

omit [DecidableEq ι] in
theorem StartStep.early {args : Args} {sh sh' : Segment ι} {p p' : Process}
    (h : StartStep args sh p p' sh') (hundecided : Undecided p.phase)
    (hphase : p.phase ≠ .decideType) : Undecided p'.phase := by
  cases h <;> simp_all [Undecided]

theorem Starting.cases {phase : Phase} (h : Starting phase) :
    phase = .register ∨ phase = .decideType ∨ Undecided phase ∧ phase ≠ .decideType := by
  cases phase <;> simp_all [Starting, Undecided]

omit [DecidableEq ι] in
theorem startStep_startup {args : Args} {sh sh' : Segment ι} {p p' : Process}
    (h : startStep args sh p = some (p', sh')) : StartupStep sh p p' := by
  have hstart := startStep_cases h
  rcases hstart.phase.cases with hphase | hphase | ⟨hundecided, hphase⟩
  · rw [startStep, hphase] at h
    cases h
    exact StartupStep.register hphase rfl rfl (ProcInfo.register_type _)
  · rw [startStep, hphase] at h
    cases hpointer : p.hasProcInfo with
    | true =>
        simp only [hpointer, if_true] at h
        cases h
        refine StartupStep.decide hphase hpointer rfl ?_ ?_
        · split <;> simp [Tool.toolType]
        · intro hcount
          rw [if_neg (Nat.not_le_of_lt hcount)]
          rfl
    | false =>
        simp only [hpointer] at h
        cases h
        exact StartupStep.early (by rw [hphase]; trivial)
          (by rw [Process.crash, hphase]; trivial) (fun _ => hpointer)
  · exact StartupStep.early hundecided (hstart.early hundecided hphase)
      (fun hdecide => absurd hdecide hphase)

/-- A step after the start keeps the kind of the tool and the registered type. -/
theorem ProcessStep.late {args : Args} {me : ι} {event : Event} {sh sh' : Segment ι}
    {p p' : Process} (h : ProcessStep args me sh p event p' sh')
    (hbefore : ¬ Starting p.phase) :
    ¬ Starting p'.phase ∧ p'.tool.toolType = p.tool.toolType ∧
      p'.ipcToolType = p.ipcToolType := by
  rcases h.stage with hstart | hleave | hcopy | hlingers
  · exact absurd hstart.phase hbefore
  · cases hleave <;> exact ⟨id, rfl, rfl⟩
  · exact ⟨hcopy.not_starting, hcopy.tool, hcopy.type⟩
  · have hafter := hlingers.not_starting
    rcases hlingers.same with ⟨timer, named, rfl, rfl⟩
    exact ⟨hafter, rfl, rfl⟩

theorem processStep_startup {args : Args} {me : ι} {event : Event}
    {sh sh' : Segment ι} {p p' : Process}
    (h : processStep args me event sh p = some (p', sh')) : StartupStep sh p p' := by
  by_cases hstarting : Starting p.phase
  · unfold processStep at h
    split at h
    · cases h
    · cases event with
      | run io =>
          have hstart : startStep args sh p = some (p', sh') := by
            cases hphase : p.phase <;> simp_all [Starting]
          exact startStep_startup hstart
      | interrupt => simp_all [Starting]
      | observe => cases hphase : p.phase <;> simp_all [Starting]
  · have hlate := (processStep_cases h).late hstarting
    exact StartupStep.late hstarting hlate.left hlate.right.left hlate.right.right

/-!
# All processes
-/

/-- No process deregisters before all have been constructed. -/
def StaysUntilConstructed (s : World ι) (a : World.Action ι) : Prop :=
  (s.proc a.1).phase = .deregister -> forall p, ¬ Starting (s.proc p).phase

/-- Counters, types and tools while the processes start. -/
structure Settling (args : ι -> Args) (s : World ι) : Prop where
  roles : Roles args s
  decided : forall p, ¬ Undecided (s.proc p).phase ->
    (s.proc p).tool.toolType ≠ .invalid
  /-- nobody has deregistered while somebody starts -/
  stays : (exists p, Starting (s.proc p).phase) -> forall q,
    (s.proc q).ipcToolType ≠ .invalid -> Holds (s.proc q) (s.proc q).ipcToolType
  unique : forall type, type ≠ .invalid -> Unique type s
  follows : forall p, (s.proc p).tool.toolType = .writerProcess ->
    exists r, IsReader (s.proc r)
  /-- a tool that was not registered has found another one of its kind -/
  constructed : forall p, ¬ Starting (s.proc p).phase ->
    exists q, (s.proc q).ipcToolType = (s.proc p).tool.toolType

omit [DecidableEq ι] in
theorem init_settling (args : ι -> Args) (buffers : Nat -> List UInt8) :
    Settling args (World.init buffers) where
  roles := init_roles args buffers
  decided := fun _ hdecided => absurd trivial hdecided
  stays := fun _ _ htype => absurd rfl htype
  unique := by
    intro type htype p q hp
    exact absurd hp.symm htype
  follows := by
    intro p htool
    cases htool
  constructed := fun _ hconstructed => absurd trivial hconstructed

omit [DecidableEq ι] in
theorem StartupStep.starting {sh : Segment ι} {p p' : Process}
    (h : StartupStep sh p p') (hstarting : Starting p'.phase) : Starting p.phase := by
  cases h with
  | early hbefore _ _ => exact hbefore.starting
  | decide hbefore _ _ _ _ => rw [hbefore]; trivial
  | register hbefore _ _ _ => rw [hbefore]; trivial
  | late _ hafter _ _ => exact absurd hstarting hafter

theorem Settling.stays_move {args : ι -> Args} {s : World ι} (h : Settling args s)
    {me : ι} {event : Event} {c : Process} {sh : Segment ι}
    (hguard : StaysUntilConstructed s (me, event))
    (hstartup : StartupStep s.segment (s.proc me) c)
    (hstep : ProcessStep (args me) me s.segment (s.proc me) event c sh)
    (hsome : exists p, Starting ((s.move me c sh).proc p).phase) (q : ι)
    (hq : ((s.move me c sh).proc q).ipcToolType ≠ .invalid) :
    Holds ((s.move me c sh).proc q) ((s.move me c sh).proc q).ipcToolType := by
  have hconsistent := hstep.consistent (h.roles.consistent me)
  have hbefore : exists p, Starting (s.proc p).phase := by
    rcases hsome with ⟨p, hp⟩
    exact ⟨p, World.forall_move
      (P := fun p proc => Starting proc.phase -> Starting (s.proc p).phase)
      hstartup.starting (fun _ _ => id) p hp⟩
  refine World.forall_move
    (P := fun _ proc => proc.ipcToolType ≠ .invalid -> Holds proc proc.ipcToolType)
    ?_ (fun p _ => h.stays hbefore p) q hq
  intro hc
  have hregistered : ¬ Starting c.phase :=
    fun hstarting => hc (hconsistent.unregistered hstarting)
  cases hstartup with
  | early _ hafter _ => exact absurd hafter.starting hregistered
  | decide _ _ hafter _ _ => exact absurd (by rw [hafter]; trivial) hregistered
  | register _ hafter _ _ => exact ⟨rfl, Or.inl hafter⟩
  | late hlate _ _ htype =>
      have hholds := h.stays hbefore me (by rwa [← htype])
      rw [← htype] at hholds
      cases hstep.role (h.roles.consistent me) with
      | same _ hsame => exact (hsame _ hc).mpr hholds
      | register _ _ hphase _ _ _ _ => exact absurd (by rw [hphase]; trivial) hlate
      | deregister hphase _ _ =>
          rcases hbefore with ⟨p, hp⟩
          exact absurd hp (hguard hphase p)

omit [DecidableEq ι] in
theorem Settling.registersOnce {args : ι -> Args} {s : World ι} (h : Settling args s)
    {type : ProcessType} (htype : type ≠ .invalid) (a : World.Action ι) :
    RegistersOnce type s a := by
  intro hphase _ hcount q hq
  have hholds := h.stays ⟨a.1, by rw [hphase]; trivial⟩ q (by rwa [hq])
  rw [hq] at hholds
  rw [h.roles.counter_eq_one htype hholds] at hcount
  cases hcount

theorem Settling.move {args : ι -> Args} {s : World ι} (h : Settling args s)
    {me : ι} {event : Event} {c : Process} {sh : Segment ι}
    (hguard : StaysUntilConstructed s (me, event))
    (hstartup : StartupStep s.segment (s.proc me) c)
    (hstep : ProcessStep (args me) me s.segment (s.proc me) event c sh) :
    Settling args (s.move me c sh) := by
  have hconsistent := h.roles.consistent me
  have hkeeps : forall {type : ProcessType}, type ≠ .invalid ->
      (exists q, (s.proc q).ipcToolType = type) ->
      exists q, ((s.move me c sh).proc q).ipcToolType = type := by
    rintro type htype ⟨q, rfl⟩
    exact ⟨q, h.roles.keeps_type hstep htype⟩
  refine ⟨h.roles.move (hstep.consistent hconsistent) (hstep.role hconsistent), ?_,
    h.stays_move hguard hstartup hstep, ?_, ?_, ?_⟩
  · refine World.forall_move
      (P := fun _ p => ¬ Undecided p.phase -> p.tool.toolType ≠ .invalid) ?_
      (fun q _ => h.decided q)
    intro hdecided
    cases hstartup with
    | early _ hafter _ => exact absurd hafter hdecided
    | decide _ _ _ htool _ => exact htool
    | register hbefore _ htool _ =>
        rw [htool]
        exact h.decided me (by rw [hbefore]; exact id)
    | late hbefore _ htool _ =>
        rw [htool]
        exact h.decided me (fun hundecided => hbefore hundecided.starting)
  · intro type htype
    exact (h.unique type htype).move htype h.roles (h.registersOnce htype _) hstep
  · intro p hp
    apply hkeeps (by simp)
    refine World.forall_move
      (P := fun _ p => p.tool.toolType = .writerProcess -> exists r, IsReader (s.proc r))
      ?_ (fun q _ => h.follows q) p hp
    intro htool
    rcases hstep.decides_writer htool with hbefore | hcount
    · exact h.follows me hbefore
    · rcases h.roles.exists_holder (by simp) hcount with ⟨r, hr, _⟩
      exact ⟨r, hr.left⟩
  · intro p hp
    refine World.forall_move
      (P := fun _ p => ¬ Starting p.phase ->
        exists q, ((s.move me c sh).proc q).ipcToolType = p.tool.toolType) ?_ ?_ p hp
    · intro hconstructed
      cases hstartup with
      | early _ hafter _ => exact absurd hafter.starting hconstructed
      | decide _ _ hafter _ _ => exact absurd (by rw [hafter]; trivial) hconstructed
      | register hbefore _ htool hregistered =>
          have htype := h.decided me (by rw [hbefore]; exact id)
          rw [htool]
          rcases hregistered htype with htaken | hcount
          · exact ⟨me, by rw [World.move_proc_self]; exact htaken⟩
          · rcases h.roles.exists_holder htype hcount with ⟨r, hr, _⟩
            exact hkeeps htype ⟨r, hr.left⟩
      | late hbefore _ htool _ =>
          rw [htool]
          exact hkeeps (h.decided me (fun hundecided => hbefore hundecided.starting))
            (h.constructed me hbefore)
    · intro q _ hconstructed
      exact hkeeps (h.decided q (fun hundecided => hconstructed hundecided.starting))
        (h.constructed q hconstructed)

theorem Settling.next {args : ι -> Args} {s s' : World ι} (h : Settling args s)
    {a : World.Action ι} (hguard : StaysUntilConstructed s a)
    (hnext : World.next args a s = some s') : Settling args s' := by
  rcases Option.map_eq_some_iff.mp hnext with ⟨⟨c, sh⟩, hprocess, rfl⟩
  exact h.move hguard (processStep_startup hprocess) (processStep_cases hprocess)

/-!
# The pair
-/

/-- One reader, one writer, and all others invalid. -/
def Paired (s : World ι) : Prop :=
  exists r w, IsReader (s.proc r) ∧ IsWriter (s.proc w) ∧
    forall p, p ≠ r -> p ≠ w -> (s.proc p).ipcToolType = .invalid

omit [DecidableEq ι] in
theorem Settling.paired {args : ι -> Args} {s : World ι} (h : Settling args s)
    (hconstructed : forall p, ¬ Starting (s.proc p).phase)
    (hwriter : exists p, (s.proc p).tool.toolType = .writerProcess) : Paired s := by
  rcases hwriter with ⟨p, hp⟩
  rcases h.follows p hp with ⟨r, hr⟩
  rcases h.constructed p (hconstructed p) with ⟨w, hw⟩
  rw [hp] at hw
  refine ⟨r, w, hr, hw, ?_⟩
  intro q hqr hqw
  cases htype : (s.proc q).ipcToolType with
  | readerProcess => exact absurd (h.unique .readerProcess (by simp) q r htype hr) hqr
  | writerProcess => exact absurd (h.unique .writerProcess (by simp) q w htype hw) hqw
  | invalid => rfl

/-- The last process to decide its type does so after a reader has been registered. -/
def LastDecidesAfterReader (s : World ι) (a : World.Action ι) : Prop :=
  (s.proc a.1).phase = .decideType -> (s.proc a.1).hasProcInfo = true ->
    (forall q, q ≠ a.1 -> ¬ Undecided (s.proc q).phase) ->
    exists r, Holds (s.proc r) .readerProcess

/-- Nobody leaves early, and the last decision comes after a reader. -/
def PairsUp (s : World ι) (a : World.Action ι) : Prop :=
  StaysUntilConstructed s a ∧ LastDecidesAfterReader s a

/-- Some process may still become a writer. -/
def WriterToCome (s : World ι) : Prop :=
  (exists p, Undecided (s.proc p).phase) ∨
    exists p, (s.proc p).tool.toolType = .writerProcess

/-- All processes have decided, none of them to be a writer. -/
def WithoutWriter (s : World ι) : Prop :=
  forall p, ¬ Undecided (s.proc p).phase ∧
    (s.proc p).tool.toolType ≠ .writerProcess

omit [DecidableEq ι] in
/-- A decided process keeps the kind of its tool. -/
theorem StartupStep.keeps {sh : Segment ι} {p p' : Process} (h : StartupStep sh p p')
    (hdecided : ¬ Undecided p.phase) :
    ¬ Undecided p'.phase ∧ p'.tool.toolType = p.tool.toolType := by
  cases h with
  | early hbefore _ _ => exact absurd hbefore hdecided
  | decide hbefore _ _ _ _ => exact absurd (by rw [hbefore]; trivial) hdecided
  | register _ hafter htool _ => exact ⟨by rw [hafter]; exact id, by rw [htool]⟩
  | late _ hafter htool _ =>
      exact ⟨fun hundecided => hafter hundecided.starting, htool⟩

theorem Settling.writerToCome_move {args : ι -> Args} {s : World ι}
    (h : Settling args s) (hcome : WriterToCome s) {me : ι} {event : Event}
    {c : Process} (sh : Segment ι) (hguard : LastDecidesAfterReader s (me, event))
    (hstartup : StartupStep s.segment (s.proc me) c) :
    WriterToCome (s.move me c sh) := by
  have hkeeps : (exists p, (s.proc p).tool.toolType = .writerProcess) ->
      WriterToCome (s.move me c sh) := by
    rintro ⟨p, hp⟩
    refine Or.inr ⟨p, World.forall_move
      (P := fun q proc => (s.proc q).tool.toolType = .writerProcess ->
        proc.tool.toolType = .writerProcess) ?_ (fun _ _ => id) p hp⟩
    intro htool
    have hdecided : ¬ Undecided (s.proc me).phase := by
      intro hundecided
      rw [(h.roles.consistent me).undecided hundecided] at htool
      cases htool
    rw [(hstartup.keeps hdecided).right]
    exact htool
  rcases hcome with ⟨p, hp⟩ | hwriter
  · by_cases hmore : exists q, Undecided ((s.move me c sh).proc q).phase
    · exact Or.inl hmore
    · -- the last undecided process has decided
      have hothers : forall q, q ≠ me -> ¬ Undecided (s.proc q).phase := by
        intro q hq hundecided
        exact hmore ⟨q, by rwa [World.move_proc_of_ne s c sh hq]⟩
      have hc : ¬ Undecided c.phase := by
        intro hundecided
        exact hmore ⟨me, by rwa [World.move_proc_self]⟩
      have hpm : p = me := by
        apply Classical.byContradiction
        intro hne
        exact hothers p hne hp
      subst p
      cases hstartup with
      | early _ hafter _ => exact absurd hafter hc
      | decide hbefore hpointer _ _ hwriter =>
          rcases hguard hbefore hpointer hothers with ⟨r, hr⟩
          have hone := h.roles.counter_eq_one (by simp) hr
          rcases h.roles.counter .writerProcess (by simp) with
            ⟨hzero, _⟩ | ⟨_, w, hw, _⟩
          · refine Or.inr ⟨me, ?_⟩
            rw [World.move_proc_self]
            apply hwriter
            change s.segment.procInfo.counter .writerProcess <
              s.segment.procInfo.counter .readerProcess
            rw [hzero, hone]
            exact Nat.one_pos
          · apply hkeeps
            have htool := (h.roles.consistent w).typed (by rw [hw.left]; simp)
            exact ⟨w, htool.trans hw.left⟩
      | register hbefore _ _ _ =>
          rw [hbefore] at hp
          cases hp
      | late hbefore _ _ _ => exact absurd hp.starting hbefore
  · exact hkeeps hwriter

omit [DecidableEq ι] in
theorem WithoutWriter.not_paired {args : ι -> Args} {s : World ι}
    (h : WithoutWriter s) (hroles : Roles args s) : ¬ Paired s := by
  rintro ⟨r, w, hr, hw, _⟩
  have htool := (hroles.consistent w).typed hw.type_ne
  exact (h w).right (htool.trans hw)

theorem WithoutWriter.move {s : World ι} (h : WithoutWriter s) {me : ι} {c : Process}
    (sh : Segment ι) (hstartup : StartupStep s.segment (s.proc me) c) :
    WithoutWriter (s.move me c sh) := by
  refine World.forall_move
    (P := fun _ p => ¬ Undecided p.phase ∧ p.tool.toolType ≠ .writerProcess) ?_
    (fun q _ => h q)
  have hkept := hstartup.keeps (h me).left
  refine ⟨hkept.left, ?_⟩
  rw [hkept.right]
  exact (h me).right

/-- If the last decision comes before a reader is registered, nobody becomes a writer. -/
theorem Settling.withoutWriter {args : ι -> Args} {s s' : World ι}
    (h : Settling args s) {a : World.Action ι} (hlast : ¬ LastDecidesAfterReader s a)
    (hnext : World.next args a s = some s') : WithoutWriter s' := by
  unfold LastDecidesAfterReader at hlast
  simp only [Classical.not_imp, not_exists] at hlast
  rcases hlast with ⟨hphase, hpointer, hothers, hnone⟩
  rcases Option.map_eq_some_iff.mp hnext with ⟨⟨c, sh⟩, hprocess, rfl⟩
  refine World.forall_move
    (P := fun _ p => ¬ Undecided p.phase ∧ p.tool.toolType ≠ .writerProcess) ?_ ?_
  · have hnot : c.tool.toolType ≠ .writerProcess := by
      intro htool
      rcases (processStep_cases hprocess).decides_writer htool with hbefore | hcount
      · rw [(h.roles.consistent a.1).undecided (by rw [hphase]; trivial)] at hbefore
        cases hbefore
      · rcases h.roles.exists_holder (by simp) hcount with ⟨r, hr, _⟩
        exact hnone r hr
    cases processStep_startup hprocess with
    | early _ _ hnull =>
        rw [hnull hphase] at hpointer
        cases hpointer
    | decide _ _ hafter _ _ =>
        have hafter' : c.phase = .register := hafter
        exact ⟨by rw [hafter']; exact id, hnot⟩
    | register hbefore _ _ _ => cases hphase.symm.trans hbefore
    | late hbefore _ _ _ => exact absurd (by rw [hphase]; trivial) hbefore
  · intro q hq
    refine ⟨hothers q hq, ?_⟩
    intro htool
    rcases h.follows q htool with ⟨r, hr⟩
    have hholds := h.stays ⟨a.1, by rw [hphase]; trivial⟩ r hr.type_ne
    rw [hr] at hholds
    exact hnone r hholds

theorem reaches_pairsUp_or_withoutWriter {args : ι -> Args}
    {buffers : Nat -> List UInt8} {s : World ι}
    (hrun : Reaches (StepOf (World.next args)) StaysUntilConstructed
      (World.init buffers) s) :
    Settling args s ∧
      (Reaches (StepOf (World.next args)) PairsUp (World.init buffers) s ∨
        WithoutWriter s) := by
  refine Reaches.meets_or_lost (Settling args) WithoutWriter ?_ ?_ ?_ hrun
    (init_settling args buffers)
  · exact fun _ _ _ hx hguard hnext => hx.next hguard hnext
  · intro x a x' _ hwithout hnext
    rcases Option.map_eq_some_iff.mp hnext with ⟨⟨c, sh⟩, hprocess, rfl⟩
    exact hwithout.move sh (processStep_startup hprocess)
  · exact fun _ _ _ hx _ hlast hnext => hx.withoutWriter hlast hnext

theorem writerToCome_of_pairsUp [Nonempty ι] {args : ι -> Args}
    {buffers : Nat -> List UInt8} {s : World ι}
    (hrun : Reaches (StepOf (World.next args)) PairsUp (World.init buffers) s) :
    Settling args s ∧ WriterToCome s := by
  refine Reaches.invariant (fun x => Settling args x ∧ WriterToCome x) ?_ hrun
    ⟨init_settling args buffers, Or.inl ⟨Classical.arbitrary ι, trivial⟩⟩
  intro x a x' hx hguard hnext
  refine ⟨hx.left.next hguard.left hnext, ?_⟩
  rcases Option.map_eq_some_iff.mp hnext with ⟨⟨c, sh⟩, hprocess, rfl⟩
  exact hx.left.writerToCome_move hx.right sh hguard.right (processStep_startup hprocess)

/--
If nobody leaves before all have been constructed, the processes end as one reader,
one writer and the rest invalid exactly if the last process to decide its type did
so after a reader had been registered.
-/
theorem pairs_iff_last_decides_after_reader [Nonempty ι] (args : ι -> Args)
    (buffers : Nat -> List UInt8) (s : World ι)
    (hrun : Reaches (StepOf (World.next args)) StaysUntilConstructed
      (World.init buffers) s)
    (hconstructed : forall p, ¬ Starting (s.proc p).phase) :
    Paired s <->
      Reaches (StepOf (World.next args)) PairsUp (World.init buffers) s := by
  constructor
  · intro hpaired
    rcases reaches_pairsUp_or_withoutWriter hrun with ⟨hsettling, hreach | hwithout⟩
    · exact hreach
    · exact absurd hpaired (hwithout.not_paired hsettling.roles)
  · intro hreach
    rcases writerToCome_of_pairsUp hreach with ⟨hsettling, ⟨p, hp⟩ | hwriter⟩
    · exact absurd hp.starting (hconstructed p)
    · exact hsettling.paired hconstructed hwriter

instance (phase : Phase) : Decidable (Starting phase) :=
  match phase with
  | .attach => isTrue trivial
  | .constructProcInfo => isTrue trivial
  | .findProcInfo => isTrue trivial
  | .getQueue => isTrue trivial
  | .storeDst => isTrue trivial
  | .decideType => isTrue trivial
  | .register => isTrue trivial
  | .copy => isFalse id
  | .deregister => isFalse id
  | .joinTimer => isFalse id
  | .readWriterCount => isFalse id
  | .readReaderCount => isFalse id
  | .removeObject => isFalse id
  | .gone => isFalse id

instance (s : World Pid) (a : World.Action Pid) :
    Decidable (StaysUntilConstructed s a) :=
  inferInstanceAs (Decidable (_ -> forall _ : Pid, ¬ _))

instance : Nonempty Pid :=
  ⟨.first⟩

/-- Three processes start one after the other. -/
def startedInTurn : List (World.Action Pid) :=
  World.turns .first 6 ++ World.turns .second 5 ++ World.turns .third 5

theorem pairs_iff_last_decides_after_reader_inTurn :
    exists s, exec (World.next (sources [] [])) startedInTurn
        (World.init fun _ => []) = some s ∧
      Paired s ∧
      Reaches (StepOf (World.next (sources [] []))) PairsUp
        (World.init fun _ => []) s := by
  have hview : ((exec (World.next (sources [] [])) startedInTurn
      (World.init fun _ => [])).map fun s =>
        ((s.proc .first).phase, (s.proc .second).phase, (s.proc .third).phase,
          (s.proc .first).ipcToolType, (s.proc .second).ipcToolType,
          (s.proc .third).ipcToolType)) =
      some (.copy, .copy, .copy, .readerProcess, .writerProcess, .invalid) := by
    decide +kernel
  rcases Option.map_eq_some_iff.mp hview with ⟨s, hexec, hpcs⟩
  simp only [Prod.mk.injEq] at hpcs
  rcases hpcs with ⟨hfirst, hsecond, hthird, hreader, hwriter, hinvalid⟩
  have hconstructed : forall p, ¬ Starting (s.proc p).phase := by
    rw [Pid.forall_iff, hfirst, hsecond, hthird]
    exact ⟨id, id, id⟩
  have hpaired : Paired s := by
    refine ⟨.first, .second, hreader, hwriter, ?_⟩
    rw [Pid.forall_iff]
    exact ⟨fun hne => absurd rfl hne, fun _ hne => absurd rfl hne, fun _ _ => hinvalid⟩
  have hrun : Reaches (StepOf (World.next (sources [] []))) StaysUntilConstructed
      (World.init fun _ => []) s :=
    reaches_of_exec startedInTurn (by decide +kernel) hexec
  have hiff := pairs_iff_last_decides_after_reader _ _ s hrun hconstructed
  exact ⟨s, hexec, hpaired, hiff.mp hpaired⟩

/-- All three processes decide their type before one of them registers. -/
def decidedTogether : List (World.Action Pid) :=
  World.turns .first 4 ++ World.turns .second 3 ++ World.turns .third 3 ++
    World.turns .first 1 ++ World.turns .second 1 ++ World.turns .third 1 ++
    World.turns .first 1 ++ World.turns .second 1 ++ World.turns .third 1

/-- In general the processes can end without a writer. -/
theorem pairs_without_writer :
    ¬ forall (args : Pid -> Args) (buffers : Nat -> List UInt8) (s : World Pid),
      Reaches (StepOf (World.next args)) StaysUntilConstructed
        (World.init buffers) s ->
      (forall p, ¬ Starting (s.proc p).phase) -> Paired s := by
  intro h
  have hview : ((exec (World.next (sources [] [])) decidedTogether
      (World.init fun _ => [])).map fun s =>
        ((s.proc .first).phase, (s.proc .second).phase, (s.proc .third).phase,
          (s.proc .first).ipcToolType, (s.proc .second).ipcToolType,
          (s.proc .third).ipcToolType)) =
      some (.copy, .copy, .copy, .readerProcess, .invalid, .invalid) := by
    decide +kernel
  rcases Option.map_eq_some_iff.mp hview with ⟨s, hexec, hpcs⟩
  simp only [Prod.mk.injEq] at hpcs
  rcases hpcs with ⟨hfirst, hsecond, hthird, hreader, hinvalid, hinvalid'⟩
  have hconstructed : forall p, ¬ Starting (s.proc p).phase := by
    rw [Pid.forall_iff, hfirst, hsecond, hthird]
    exact ⟨id, id, id⟩
  have hrun : Reaches (StepOf (World.next (sources [] []))) StaysUntilConstructed
      (World.init fun _ => []) s :=
    reaches_of_exec decidedTogether (by decide +kernel) hexec
  rcases h _ _ s hrun hconstructed with ⟨_, w, _, hw, _⟩
  cases w with
  | first => cases hreader.symm.trans hw
  | second => cases hinvalid.symm.trans hw
  | third => cases hinvalid'.symm.trans hw

end Common
end Ki
