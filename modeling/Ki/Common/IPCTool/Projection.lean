import Ki.Common.IPCTool.Removal

/-!
# From the host to the world of one segment

A segment and the processes attached to it do not notice the other segments
created under its name: every run of the host is, for each segment, a run of the
world of that segment.  The two differ in the name only, which the steps inside a
segment do not read once a process is attached.
-/

namespace Ki
namespace IPC

variable {ι : Type}

/-- The segment with the name there or removed. -/
def Segment.rename (sh : Segment ι) (named : Bool) : Segment ι :=
  { sh with named := named }

namespace Segment

@[simp] theorem rename_procInfo (sh : Segment ι) (b : Bool) :
    (sh.rename b).procInfo = sh.procInfo := rfl

@[simp] theorem rename_queue (sh : Segment ι) (b : Bool) :
    (sh.rename b).queue = sh.queue := rfl

end Segment
end IPC

namespace Common

open Foundation
open Queue
open Reader
open BufferedReader
open Writer
open BufferedFileWriter
open Stdio
open IPC
open IPCTool

variable {ι : Type} [DecidableEq ι]

/-!
# Steps do not read the name
-/

/-- The outcome of a step on the segment whose name is there exactly if `b` says so. -/
def renamed (b : Bool) (out : Process × Segment ι) : Process × Segment ι :=
  (out.1, out.2.rename (b && out.2.named))

theorem readingStep_rename {src : List UInt8} {me : ι} {io : Io} {sh : Segment ι}
    (hnamed : sh.named = true) (b : Bool) (p : Process) (reader : BufferedReader)
    (pc : ReaderPc) :
    readingStep src me io (sh.rename b) p reader pc =
      (readingStep src me io sh p reader pc).map (renamed b) := by
  have htest : testStarted me (sh.rename b) p reader =
      renamed b (testStarted me sh p reader) := by
    unfold testStarted
    rw [Segment.rename_procInfo]
    split <;> simp [renamed, hnamed, Segment.rename]
  cases pc with
  | openQueue =>
      rw [readingStep, readingStep]
      split <;> simp [renamed, hnamed, Segment.rename]
  | openFile =>
      rw [readingStep, readingStep]
      split <;> simp [renamed, hnamed]
  | read pc =>
      rw [readingStep, readingStep, Segment.rename_queue, Option.map_map]
      congr 1
      funext out
      simp [renamed, hnamed, Segment.rename]
  | awaitStarted => exact congrArg some htest
  | waiting =>
      rw [readingStep, readingStep, Segment.rename_procInfo, htest]
      split <;> rfl
  | stopTimer =>
      rw [readingStep, readingStep]
      split <;> simp [renamed, hnamed]
  | _ => simp [readingStep, renamed, hnamed, Segment.rename]

theorem writingStep_rename {me : ι} {io : Io} {sh : Segment ι} (hnamed : sh.named = true)
    (b : Bool) (p : Process) (writer : BufferedFileWriter) (pc : WriterPc) :
    writingStep me io (sh.rename b) p writer pc =
      (writingStep me io sh p writer pc).map (renamed b) := by
  cases pc with
  | create =>
      rw [writingStep, writingStep]
      split <;> simp [renamed, hnamed]
  | checkFinished =>
      rw [writingStep, writingStep, Segment.rename_queue]
      split
      · rw [Option.map_map]
        congr 1
        funext finished
        simp [renamed, hnamed]
      · simp [renamed, hnamed]
  | testFinished =>
      rw [writingStep, writingStep, Segment.rename_queue, Option.map_map]
      congr 1
      funext finished
      simp [renamed, hnamed]
  | testEmpty =>
      rw [writingStep, writingStep, Segment.rename_queue, Option.map_map]
      congr 1
      funext empty
      simp [renamed, hnamed]
  | write pc =>
      rw [writingStep, writingStep, Segment.rename_queue, Option.map_map]
      congr 1
      funext out
      simp [renamed, hnamed, Segment.rename]
  | stopTimer =>
      rw [writingStep, writingStep]
      split <;> simp [renamed, hnamed]
  | _ => simp [writingStep, renamed, hnamed, Segment.rename]

omit [DecidableEq ι] in
theorem startStep_rename {args : Args} {sh : Segment ι} (hnamed : sh.named = true)
    (b : Bool) {p : Process} (hphase : p.phase ≠ .attach) :
    startStep args (sh.rename b) p = (startStep args sh p).map (renamed b) := by
  cases hp : p.phase with
  | attach => exact absurd hp hphase
  | getQueue =>
      simp only [startStep, hp]
      split <;> simp [renamed, hnamed, Segment.rename]
  | decideType =>
      by_cases hnull : p.hasProcInfo = true <;>
        by_cases hcount : sh.procInfo.readerProcessCount ≤ sh.procInfo.writerProcessCount <;>
          simp [startStep, hp, hnull, hcount, renamed, hnamed]
  | _ => simp [startStep, hp, renamed, hnamed, Segment.rename]

omit [DecidableEq ι] in
theorem leaveStep_rename {sh : Segment ι} (hnamed : sh.named = true) (b : Bool)
    (p : Process) : leaveStep (sh.rename b) p = (leaveStep sh p).map (renamed b) := by
  cases hp : p.phase with
  | readWriterCount =>
      by_cases hcount : sh.procInfo.writerProcessCount = 0 <;>
        simp [leaveStep, hp, hcount, renamed, hnamed]
  | readReaderCount =>
      by_cases hcount : sh.procInfo.readerProcessCount = 0 <;>
        simp [leaveStep, hp, hcount, renamed, hnamed]
  | joinTimer =>
      by_cases hstop : p.timer.canStop = true <;>
        simp [leaveStep, hp, hstop, renamed, hnamed]
  | _ => simp [leaveStep, hp, renamed, hnamed, Segment.rename]

omit [DecidableEq ι] in
theorem observerStep_rename {sh : Segment ι} (hnamed : sh.named = true) (b : Bool)
    (p : Process) :
    observerStep (sh.rename b) p = (observerStep sh p).map (renamed b) := by
  cases htimer : p.timer with
  | watching =>
      by_cases hcount : sh.procInfo.counter (observed p.ipcToolType) = 0 <;>
        simp [observerStep, htimer, hcount, renamed, hnamed]
  | expired =>
      simp only [observerStep, htimer, Segment.rename_queue]
      split
      · simp [renamed, hnamed]
      · rw [Option.map_map]
        congr 1
        funext finished
        simp [renamed, hnamed]
  | terminating =>
      by_cases hphase : p.phase = .copy <;>
        simp [observerStep, htimer, hphase, renamed, hnamed]
  | _ => simp [observerStep, htimer, renamed, Segment.rename]

theorem copyStep_rename {src : List UInt8} {me : ι} {io : Io} {sh : Segment ι}
    (hnamed : sh.named = true) (b : Bool) (p : Process) :
    copyStep src me io (sh.rename b) p =
      (copyStep src me io sh p).map (renamed b) := by
  unfold copyStep
  split
  · exact readingStep_rename hnamed b p _ _
  · exact writingStep_rename hnamed b p _ _
  · simp [renamed, hnamed]
  · rfl

/-- A process that is attached does what it would do whether or not the name is there. -/
theorem processStep_rename {args : Args} {me : ι} {event : Event} {sh : Segment ι}
    (hnamed : sh.named = true) (b : Bool) {p : Process} (hphase : p.phase ≠ .attach) :
    processStep args me event (sh.rename b) p =
      (processStep args me event sh p).map (renamed b) := by
  unfold processStep
  split
  · rfl
  · cases event with
    | run io =>
        simp only
        split
        · exact copyStep_rename hnamed b p
        · exact leaveStep_rename hnamed b p
        · exact leaveStep_rename hnamed b p
        · exact leaveStep_rename hnamed b p
        · exact leaveStep_rename hnamed b p
        · exact leaveStep_rename hnamed b p
        · rfl
        · exact startStep_rename hnamed b hphase
    | interrupt =>
        simp only
        split <;> simp [renamed, hnamed]
    | observe =>
        simp only
        split
        · exact observerStep_rename hnamed b p
        · rfl

/-- A process that creates the segment does not look for the name. -/
theorem processStep_create {args : Args} {me : ι} {event : Event} {sh : Segment ι}
    (hcreated : sh.created = false) (b : Bool) {p : Process} (hphase : p.phase = .attach) :
    processStep args me event (sh.rename b) p = processStep args me event sh p := by
  cases event <;> simp [processStep, startStep, hphase, hcreated, Segment.rename]

/-!
# One segment of a run
-/

/--
A run from the initial world leads to this one, but perhaps for the name, which it
still has if it has to.
-/
def Follows (args : ι -> Args) (guard : World.Action ι -> Prop)
    (buffers : Nat -> List UInt8) (named : Prop) (v : World ι) : Prop :=
  exists w,
    Reaches (StepOf (World.next args)) (fun _ a => guard a) (World.init buffers) w ∧
    w.proc = v.proc ∧ w.segment = v.segment.rename w.segment.named ∧
    (named -> w.segment.named = true)

omit [DecidableEq ι] in
theorem Host.world_init (buffers : Nat -> Nat -> List UInt8) (k : Nat) :
    (Host.init buffers : Host ι).world k = World.init (buffers k) := by
  rw [Host.world, World.init, World.mk.injEq]
  exact ⟨rfl, funext fun _ => ite_self _⟩

/-- The step of the world that follows, when its process makes one in the other world. -/
theorem Follows.move {args : ι -> Args} {guard : World.Action ι -> Prop}
    {buffers : Nat -> List UInt8} {named : Prop} {v w : World ι} {a : World.Action ι}
    {c : Process} {sh : Segment ι} {b : Bool}
    (hrun : Reaches (StepOf (World.next args)) (fun _ a => guard a)
      (World.init buffers) w)
    (hproc : w.proc = v.proc) (hguard : guard a)
    (hstep : processStep (args a.1) a.1 a.2 w.segment (w.proc a.1) =
      some (c, sh.rename b)) (hnamed : named -> b = true) :
    Follows args guard buffers named (v.move a.1 c sh) := by
  have hnext : World.next args a w = some (w.move a.1 c (sh.rename b)) := by
    rw [World.next, hstep]
    rfl
  refine ⟨w.move a.1 c (sh.rename b), hrun.tail ⟨a, hguard, hnext⟩, ?_, rfl, hnamed⟩
  rw [World.move, World.move, hproc]

/-- Every segment with its processes as some run of its own world has them. -/
structure Projects (args : ι -> Args) (guard : World.Action ι -> Prop)
    (buffers : Nat -> Nat -> List UInt8) (s : Host ι) : Prop where
  attaching : forall p, (s.proc p).phase = .attach -> s.proc p = Process.new
  homes : forall p, (s.proc p).phase ≠ .attach -> s.home p < s.count
  name : forall k, s.name = some k -> k < s.count
  fresh : forall k, s.count ≤ k -> s.segments k = Segment.absent (buffers k)
  follows : forall k, Follows args guard (buffers k) (s.name = some k) (s.world k)

theorem init_projects (args : ι -> Args) (guard : World.Action ι -> Prop)
    (buffers : Nat -> Nat -> List UInt8) :
    Projects args guard buffers (Host.init buffers) where
  attaching := fun _ _ => rfl
  homes := fun _ h => absurd rfl h
  name := by
    intro k hname
    cases hname
  fresh := fun _ _ => rfl
  follows := by
    intro k
    rw [Host.world_init]
    refine ⟨_, Relation.ReflTransGen.refl, rfl, rfl, ?_⟩
    intro hname
    cases hname

/-- The world of the process makes its step. -/
theorem Projects.follows_target {args : ι -> Args} {guard : World.Action ι -> Prop}
    {buffers : Nat -> Nat -> List UInt8} {s : Host ι} (h : Projects args guard buffers s)
    {a : World.Action ι} {c : Process} {sh : Segment ι} (hguard : guard a)
    (hstep : processStep (args a.1) a.1 a.2 (s.view a.1) (s.proc a.1) = some (c, sh)) :
    Follows args guard (buffers (s.target a.1))
      ((s.move a.1 c sh).name = some (s.target a.1))
      ((s.world (s.target a.1)).move a.1 c sh) := by
  rcases h.follows (s.target a.1) with ⟨w, hrun, hproc, hsegment, hnamed⟩
  have hview : w.segment = (s.view a.1).rename w.segment.named := hsegment
  have hself : w.proc a.1 = s.proc a.1 := by
    rw [hproc, Host.world_proc_target (h.attaching a.1)]
  by_cases hphase : (s.proc a.1).phase = .attach
  · have hsh := (processStep_cases hstep).attaches hphase rfl
    apply Follows.move (b := true) hrun hproc hguard
    · rw [hself]
      cases hname : s.name with
      | none =>
          have htarget : s.target a.1 = s.count := by
            rw [Host.target, if_pos hphase, hname]
            rfl
          have hcreated : (s.view a.1).created = false := by
            rw [Host.view, htarget, h.fresh s.count (Nat.le_refl _)]
            rfl
          rw [hview, processStep_create hcreated _ hphase, hstep, ← hsh.left]
          rfl
      | some k =>
          have htarget : s.target a.1 = k := by
            rw [Host.target, if_pos hphase, hname]
            rfl
          rw [htarget] at hnamed
          have hsame : sh.rename true = sh := by
            rw [← hsh.left]
            rfl
          rw [hview, hnamed hname, hsame]
          exact hstep
    · exact fun _ => rfl
  · apply Follows.move (b := w.segment.named && sh.named) hrun hproc hguard
    · rw [hself, hview, processStep_rename rfl _ hphase, hstep]
      rfl
    · intro hname
      have hkept := hnamed (Host.name_move hphase hname)
      cases hsh : sh.named with
      | true => rw [hkept, Bool.true_and]
      | false =>
          rw [Host.name_removed hsh] at hname
          cases hname

theorem Projects.follows_move {args : ι -> Args} {guard : World.Action ι -> Prop}
    {buffers : Nat -> Nat -> List UInt8} {s : Host ι} (h : Projects args guard buffers s)
    {a : World.Action ι} {c : Process} {sh : Segment ι} (hguard : guard a)
    (hstep : processStep (args a.1) a.1 a.2 (s.view a.1) (s.proc a.1) = some (c, sh))
    (k : Nat) :
    Follows args guard (buffers k) ((s.move a.1 c sh).name = some k)
      ((s.move a.1 c sh).world k) := by
  by_cases hk : k = s.target a.1
  · subst k
    rw [Host.world_move_target]
    exact h.follows_target hguard hstep
  · rw [Host.world_move_of_ne c sh (h.attaching a.1) hk]
    rcases h.follows k with ⟨w, hrun, hproc, hsegment, hnamed⟩
    refine ⟨w, hrun, hproc, hsegment, ?_⟩
    intro hname
    by_cases hphase : (s.proc a.1).phase = .attach
    · have hsh := (processStep_cases hstep).attaches hphase rfl
      rw [Host.move, hsh.left, if_pos rfl, if_pos hphase] at hname
      exact absurd (Option.some.inj hname).symm hk
    · exact hnamed (Host.name_move hphase hname)

/-- A process attaches to a segment that has been created, or creates the next one. -/
theorem Projects.target_le {args : ι -> Args} {guard : World.Action ι -> Prop}
    {buffers : Nat -> Nat -> List UInt8} {s : Host ι}
    (h : Projects args guard buffers s) (me : ι) :
    s.target me < s.count ∨
      s.target me = s.count ∧ (s.proc me).phase = .attach ∧ s.name = none := by
  by_cases hphase : (s.proc me).phase = .attach
  · rw [Host.target, if_pos hphase]
    cases hname : s.name with
    | none => exact Or.inr ⟨rfl, hphase, rfl⟩
    | some k => exact Or.inl (h.name k hname)
  · rw [Host.target_attached hphase]
    exact Or.inl (h.homes me hphase)

theorem Projects.next {args : ι -> Args} {guard : World.Action ι -> Prop}
    {buffers : Nat -> Nat -> List UInt8} {s s' : Host ι}
    (h : Projects args guard buffers s) {a : World.Action ι} (hguard : guard a)
    (hnext : Host.next args a s = some s') : Projects args guard buffers s' := by
  rcases Option.map_eq_some_iff.mp hnext with ⟨⟨c, sh⟩, hstep, rfl⟩
  have hattached := (processStep_cases hstep).attached
  have hcount : s.count ≤ (s.move a.1 c sh).count ∧
      s.target a.1 < (s.move a.1 c sh).count := by
    rcases h.target_le a.1 with hless | ⟨htarget, hphase, hname⟩
    · have hle : s.count ≤ (s.move a.1 c sh).count := by
        simp only [Host.move]
        split <;> omega
      exact ⟨hle, Nat.lt_of_lt_of_le hless hle⟩
    · simp [Host.move, hphase, hname, htarget]
  refine ⟨?_, ?_, ?_, ?_, h.follows_move hguard hstep⟩
  · exact Host.forall_move (P := fun _ _ p => p.phase = .attach -> p = Process.new)
      (fun hphase => absurd hphase hattached) (fun q _ => h.attaching q)
  · exact Host.forall_move
      (P := fun _ k p => p.phase ≠ .attach -> k < (s.move a.1 c sh).count)
      (fun _ => hcount.right)
      (fun q _ hphase => Nat.lt_of_lt_of_le (h.homes q hphase) hcount.left)
  · intro k hname
    by_cases hphase : (s.proc a.1).phase = .attach
    · have hsh := (processStep_cases hstep).attaches hphase rfl
      have htarget : (s.move a.1 c sh).name = some (s.target a.1) := by
        simp [Host.move, hphase, hsh.left]
      rw [← Option.some.inj (htarget.symm.trans hname)]
      exact hcount.right
    · exact Nat.lt_of_lt_of_le (h.name k (Host.name_move hphase hname)) hcount.left
  · intro k hk
    have hne : k ≠ s.target a.1 := Nat.ne_of_gt (Nat.lt_of_lt_of_le hcount.right hk)
    have hsegment : (s.move a.1 c sh).segments k = s.segments k := by
      simp [Host.move, hne]
    rw [hsegment]
    exact h.fresh k (Nat.le_trans hcount.left hk)

theorem reaches_projects {args : ι -> Args} {guard : World.Action ι -> Prop}
    {buffers : Nat -> Nat -> List UInt8} {s : Host ι}
    (hrun : Reaches (StepOf (Host.next args)) (fun _ a => guard a) (Host.init buffers) s) :
    Projects args guard buffers s :=
  Reaches.invariant (Projects args guard buffers)
    (fun _ _ _ hx hguard hnext => hx.next hguard hnext) hrun
    (init_projects args guard buffers)

/--
Whatever segments are created and removed under the name, each of them is at every
time, with the processes attached to it, as some run of that segment alone has it,
in which they make steps of the same kind; only the name may differ.
-/
theorem segment_alone (args : ι -> Args) (guard : World.Action ι -> Prop)
    (buffers : Nat -> Nat -> List UInt8) (s : Host ι)
    (hrun : Reaches (StepOf (Host.next args)) (fun _ a => guard a) (Host.init buffers) s)
    (k : Nat) :
    exists w : World ι,
      Reaches (StepOf (World.next args)) (fun _ a => guard a)
        (World.init (buffers k)) w ∧
      w.proc = (s.world k).proc ∧
      w.segment = (s.segments k).rename w.segment.named := by
  rcases (reaches_projects hrun).follows k with ⟨w, hreach, hproc, hsegment, _⟩
  exact ⟨w, hreach, hproc, hsegment⟩

/-- Two processes are registered on two segments. -/
theorem segment_alone_startedApart :
    exists s : Host Pid,
      Reaches (StepOf (Host.next (sources [] []))) (fun _ a => a.2.isRun = true)
        (Host.init fun _ _ => []) s ∧
      s.home .second = 0 ∧ s.home .third = 1 ∧
      forall k, exists w : World Pid,
        Reaches (StepOf (World.next (sources [] []))) (fun _ a => a.2.isRun = true)
          (World.init fun _ => []) w ∧
        w.proc = (s.world k).proc ∧
        w.segment = (s.segments k).rename w.segment.named := by
  have hview : ((exec (Host.next (sources [] [])) startedApart
      (Host.init fun _ _ => [])).map fun s => (s.home .second, s.home .third)) =
      some (0, 1) := by
    decide +kernel
  rcases Option.map_eq_some_iff.mp hview with ⟨s, hexec, hview⟩
  rw [Prod.mk.injEq] at hview
  have hrun : Reaches (StepOf (Host.next (sources [] [])))
      (fun _ a => a.2.isRun = true) (Host.init fun _ _ => []) s :=
    reaches_of_exec startedApart (by decide +kernel) hexec
  exact ⟨s, hrun, hview.left, hview.right, segment_alone _ _ _ s hrun⟩

/-!
# The name at the end
-/

/-- The counters of a segment against its processes, in every run. -/
theorem Projects.roles {args : ι -> Args} {guard : World.Action ι -> Prop}
    {buffers : Nat -> Nat -> List UInt8} {s : Host ι}
    (h : Projects args guard buffers s) (k : Nat) : Roles args (s.world k) := by
  rcases h.follows k with ⟨w, hrun, hproc, hsegment, _⟩
  have hroles := reaches_roles hrun
  have hprocInfo : w.segment.procInfo = (s.world k).segment.procInfo := by
    rw [hsegment, Segment.rename_procInfo]
  constructor
  · intro p
    rw [← hproc]
    exact hroles.consistent p
  · intro type htype
    rw [← hproc, ← hprocInfo]
    exact hroles.counter type htype

/-- The process is attached to the segment and has not gone. -/
def Host.Attached (s : Host ι) (k : Nat) (p : ι) : Prop :=
  s.home p = k ∧ (s.proc p).phase ≠ .attach ∧ (s.proc p).phase ≠ .gone

omit [DecidableEq ι] in
/-- A counter that is not zero tells of a process that is attached. -/
theorem Host.attached_of_counter {args : ι -> Args} {s : Host ι} {k : Nat}
    (hroles : Roles args (s.world k)) {type : ProcessType} (htype : type ≠ .invalid)
    (hcount : (s.segments k).procInfo.counter type ≠ 0) :
    exists q, s.Attached k q ∧ Holds (s.proc q) type := by
  rcases hroles.exists_holder htype hcount with ⟨q, hholds, _⟩
  by_cases hhome : s.home q = k
  · have hq : Holds (s.proc q) type := by
      simpa [Host.world, hhome] using hholds
    refine ⟨q, ⟨hhome, ?_, ?_⟩, hq⟩
    · intro hphase
      simp [Holds, hphase] at hq
    · intro hphase
      simp [Holds, hphase] at hq
  · simp [Host.world, hhome, Holds, Process.new] at hholds

/-- A process that goes without a removal has seen another one in a counter. -/
theorem ProcessStep.leaves_behind {args : Args} {me : ι} {event : Event}
    {sh sh' : Segment ι} {p p' : Process} (h : ProcessStep args me sh p event p' sh')
    (hnamed : sh'.named = true) (hgone : p'.phase = .gone) :
    (forall type, ¬ Holds p type) ∧
      exists type, type ≠ .invalid ∧ sh.procInfo.counter type ≠ 0 := by
  rcases h.stage with hstart | hleave | hcopy | hlingers
  · cases hstart <;> simp_all [Process.crash]
  · cases hleave with
    | seesWriter hphase hcount =>
        refine ⟨?_, .writerProcess, by simp, hcount⟩
        intro type hholds
        simp [Holds, hphase] at hholds
    | seesReader hphase hcount =>
        refine ⟨?_, .readerProcess, by simp, hcount⟩
        intro type hholds
        simp [Holds, hphase] at hholds
    | removeObject hphase => cases hnamed
    | _ => cases hgone
  · rcases hcopy.after with hphase | hphase <;> cases hphase.symm.trans hgone
  · rcases hlingers.same with ⟨timer, named, rfl, rfl⟩
    rcases hlingers.phase with hphase | hphase <;> cases hphase.symm.trans hgone

/-- The segment behind the name has a process attached to it that has not gone. -/
def Attended (s : Host ι) : Prop :=
  forall k, s.name = some k -> exists p, s.Attached k p

theorem Attended.next {args : ι -> Args} {guard : World.Action ι -> Prop}
    {buffers : Nat -> Nat -> List UInt8} {s s' : Host ι} {a : World.Action ι}
    (h : Attended s) (hprojects : Projects args guard buffers s)
    (hnext : Host.next args a s = some s') : Attended s' := by
  rcases Option.map_eq_some_iff.mp hnext with ⟨⟨c, sh⟩, hprocess, rfl⟩
  have hstep := processStep_cases hprocess
  intro k hname
  by_cases hphase : (s.proc a.1).phase = .attach
  · have hattaches := hstep.attaches hphase rfl
    have htarget : (s.move a.1 c sh).name = some (s.target a.1) := by
      simp [Host.move, hphase, hattaches.left]
    rw [← Option.some.inj (htarget.symm.trans hname)]
    refine ⟨a.1, s.move_home_self a.1 c sh, ?_, ?_⟩
    · rw [Host.move_proc_self]
      exact hattaches.right.left
    · rw [Host.move_proc_self]
      intro hgone
      have hstarting := hattaches.right.right
      rw [hgone] at hstarting
      exact hstarting
  · have hname' := Host.name_move hphase hname
    have hnamed : sh.named = true := by
      cases hsh : sh.named with
      | true => rfl
      | false =>
          rw [Host.name_removed hsh] at hname
          cases hname
    have hkeep : forall q, q ≠ a.1 -> s.Attached k q ->
        (s.move a.1 c sh).Attached k q := by
      intro q hq hattached
      rw [Host.Attached, s.move_home_of_ne c sh hq, s.move_proc_of_ne c sh hq]
      exact hattached
    rcases h k hname' with ⟨p, hp⟩
    by_cases heq : p = a.1
    · subst p
      by_cases hgone : c.phase = .gone
      · -- the counter that is not zero has another holder, which stays attached
        rcases hstep.leaves_behind hnamed hgone with ⟨hnone, type, htype, hcount⟩
        have hsegment : (s.view a.1).procInfo = (s.segments k).procInfo := by
          rw [Host.view, Host.target_attached hphase, hp.left]
        rw [hsegment] at hcount
        rcases Host.attached_of_counter (hprojects.roles k) htype hcount with
          ⟨q, hq, hholds⟩
        refine ⟨q, hkeep q ?_ hq⟩
        rintro rfl
        exact hnone type hholds
      · refine ⟨a.1, ?_, ?_, ?_⟩
        · rw [Host.move_home_self, Host.target_attached hphase]
          exact hp.left
        · rw [Host.move_proc_self]
          exact hstep.attached
        · rwa [Host.move_proc_self]
    · exact ⟨p, hkeep p heq hp⟩

theorem reaches_attended {args : ι -> Args} {guard : Host ι -> World.Action ι -> Prop}
    {buffers : Nat -> Nat -> List UInt8} {s : Host ι}
    (hrun : Reaches (StepOf (Host.next args)) guard (Host.init buffers) s) :
    Projects args (fun _ => True) buffers s ∧ Attended s := by
  apply Reaches.invariant (fun s => Projects args (fun _ => True) buffers s ∧ Attended s)
    ?_ hrun
  · refine ⟨init_projects args _ buffers, ?_⟩
    intro k hname
    cases hname
  · rintro x a x' ⟨hprojects, hattended⟩ _ hnext
    exact ⟨hprojects.next trivial hnext, hattended.next hprojects hnext⟩

/-- No observation thread gets as far as `std::terminate`. -/
def Host.NoTerminate (s : Host ι) (a : World.Action ι) : Prop :=
  ¬ Terminates (s.proc a.1) a.2

omit [DecidableEq ι] in
instance Host.decidableNoTerminate (s : Host ι) (a : World.Action ι) :
    Decidable (s.NoTerminate a) :=
  inferInstanceAs (Decidable (¬ (_ ∧ _)))

/--
Whatever the processes do, with failures and interruptions and in any order, the name
does not stay behind: once all that have attached have gone it has been removed.
-/
theorem no_name_left (args : ι -> Args) (buffers : Nat -> Nat -> List UInt8)
    (s : Host ι)
    (hrun : Reaches (StepOf (Host.next args)) Host.NoTerminate (Host.init buffers) s)
    (hgone : forall p, (s.proc p).phase = .attach ∨ (s.proc p).phase = .gone) :
    s.name = none := by
  cases hname : s.name with
  | none => rfl
  | some k =>
      rcases (reaches_attended hrun).right k hname with ⟨p, _, hattach, hleft⟩
      rcases hgone p with hphase | hphase
      · exact absurd hphase hattach
      · exact absurd hphase hleft

/-- A reader that cannot open its file goes, and nobody else has started. -/
theorem no_name_left_failedReader :
    exists s : Host Pid,
      Reaches (StepOf (Host.next (sources [] []))) Host.NoTerminate
        (Host.init fun _ _ => []) s ∧
      (s.proc .first).phase = .gone ∧ s.count = 1 ∧ s.name = none := by
  have hview : ((exec (Host.next (sources [] []))
      (failedReader ++ World.turns .first 5) (Host.init fun _ _ => [])).map fun s =>
        ((s.proc .first).phase, s.count, (s.proc .second).phase,
          (s.proc .third).phase)) = some (.gone, 1, .attach, .attach) := by
    decide +kernel
  rcases Option.map_eq_some_iff.mp hview with ⟨s, hexec, hview⟩
  simp only [Prod.mk.injEq] at hview
  rcases hview with ⟨hfirst, hcount, hsecond, hthird⟩
  have hrun : Reaches (StepOf (Host.next (sources [] []))) Host.NoTerminate
      (Host.init fun _ _ => []) s :=
    reaches_of_exec _ (by decide +kernel) hexec
  have hgone : forall p, (s.proc p).phase = .attach ∨ (s.proc p).phase = .gone :=
    Pid.forall_iff.mpr ⟨Or.inr hfirst, Or.inl hsecond, Or.inl hthird⟩
  exact ⟨s, hrun, hfirst, hcount, no_name_left _ _ s hrun hgone⟩

end Common
end Ki
