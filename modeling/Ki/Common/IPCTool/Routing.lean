import Ki.Common.IPCTool.Roles

/-!
# Where a writer writes to

The destination is stored by the process that created the segment, and read by
the process that becomes writer; which process is the reader is decided in
between.  The two agree in the runs in which every registered reader has asked
for the destination that is stored.
-/

namespace Ki
namespace Common

open Foundation
open Queue
open Writer
open Stdio
open IPC
open IPCTool

variable {ι : Type} [DecidableEq ι]

/--
A process registers as reader only when the stored destination is its own, and
stores its destination only when that is the one of the registered reader.
-/
def StoresOwnDst (args : ι -> Args) (s : World ι) (a : World.Action ι) : Prop :=
  ((s.proc a.1).phase = .register ->
    (s.proc a.1).tool.toolType = .readerProcess ->
    s.segment.procInfo.readerProcessCount = 0 ->
    s.segment.procInfo.dst = (args a.1).dst) ∧
  ((s.proc a.1).phase = .storeDst -> forall r,
    Holds (s.proc r) .readerProcess -> (args a.1).dst = (args r).dst)

instance (args : Pid -> Args) (s : World Pid) (a : World.Action Pid) :
    Decidable (StoresOwnDst args s a) :=
  inferInstanceAs (Decidable (_ ∧ _))

/-- The stored destination is the one of the registered reader. -/
def Routed (args : ι -> Args) (s : World ι) : Prop :=
  forall r, Holds (s.proc r) .readerProcess ->
    s.segment.procInfo.dst = (args r).dst

theorem IPCTool.ReadingStep.dst {src : List UInt8} {me : ι} {io : Io}
    {sh sh' : Segment ι} {p p' : Process} {reader : Reader.BufferedReader}
    {pc : ReaderPc} (h : ReadingStep src me io sh p reader pc p' sh') :
    sh'.procInfo.dst = sh.procInfo.dst := by
  cases h <;> rfl

theorem IPCTool.WritingStep.dst {me : ι} {io : Io} {sh sh' : Segment ι}
    {p p' : Process} {writer : BufferedFileWriter} {pc : WriterPc}
    (h : WritingStep me io sh p writer pc p' sh') :
    sh'.procInfo.dst = sh.procInfo.dst := by
  cases h <;> rfl

/-- Only the step that stores a destination changes it. -/
theorem ProcessStep.dst {args : Args} {me : ι} {event : Event}
    {sh sh' : Segment ι} {p p' : Process}
    (h : ProcessStep args me sh p event p' sh') :
    sh'.procInfo.dst = sh.procInfo.dst ∨
      p.phase = .storeDst ∧ sh'.procInfo.dst = args.dst := by
  cases h with
  | start hstart =>
      cases hstart with
      | storeDst hphase => exact Or.inr ⟨hphase, rfl⟩
      | register hphase htool hcount =>
          left
          exact ProcInfo.dst_setCounter _ _ _
      | _ => exact Or.inl rfl
  | reading hphase htype htool hreading => exact Or.inl hreading.dst
  | writing hphase htype htool hwriting => exact Or.inl hwriting.dst
  | leave hleave =>
      left
      cases hleave with
      | deregister hphase => exact ProcInfo.dst_setCounter _ _ _
      | _ => rfl
  | observe hphase hobserve =>
      left
      cases hobserve <;> rfl
  | linger hphase hobserve =>
      left
      cases hobserve <;> rfl
  | _ => exact Or.inl rfl

theorem Routed.move {args : ι -> Args} {s : World ι} {a : World.Action ι}
    {c : Process} {sh : Segment ι} (hroles : Roles args s) (h : Routed args s)
    (hguard : StoresOwnDst args s a)
    (hstep : ProcessStep (args a.1) a.1 s.segment (s.proc a.1) a.2 c sh) :
    Routed args (s.move a.1 c sh) := by
  intro r hr
  change sh.procInfo.dst = (args r).dst
  -- a reader that is still registered, and registered before the step
  have hbefore : Holds (s.proc r) .readerProcess -> sh.procInfo.dst = (args r).dst := by
    intro hheld
    rcases hstep.dst with hsame | ⟨hphase, hstored⟩
    · rw [hsame]
      exact h r hheld
    · rw [hstored]
      exact hguard.right hphase r hheld
  by_cases hra : r = a.1
  · subst r
    rw [World.move_proc_self] at hr
    cases hstep.role (hroles.consistent a.1) with
    | same hcounter hholds => exact hbefore ((hholds _ (by simp)).mp hr)
    | register type htype hphase htool hcount hprocInfo hholds =>
        have hreader := hholds.left.symm.trans hr.left
        rw [hreader] at hcount
        rw [hprocInfo, ProcInfo.dst_setCounter]
        exact hguard.left hphase (htool.trans hreader) hcount
    | deregister hphase hprocInfo hholds => exact absurd hr (hholds _)
  · rw [World.move_proc_of_ne s c sh hra] at hr
    exact hbefore hr

/--
In every run in which readers and stored destinations agree, a process that
decides to be a writer takes the destination of the one registered reader.
-/
theorem takes_dst_of_reader (args : ι -> Args) (buffers : Nat -> List UInt8)
    (s s' : World ι) (p : ι) (io : Io) (writer : BufferedFileWriter) (pc : WriterPc)
    (hrun : Reaches (StepOf (World.next args)) (StoresOwnDst args)
      (World.init buffers) s)
    (hphase : (s.proc p).phase = .decideType)
    (hstep : World.next args (p, .run io) s = some s')
    (hdecided : (s'.proc p).phase = .register)
    (htool : (s'.proc p).tool = .writer writer pc) :
    exists r, Holds (s.proc r) .readerProcess ∧
      (forall q, Holds (s.proc q) .readerProcess -> q = r) ∧
      writer.fileName = (args r).dst := by
  have hinv : Roles args s ∧ Routed args s := by
    refine Reaches.invariant (fun x => Roles args x ∧ Routed args x) ?_ hrun
      ⟨init_roles args buffers, ?_⟩
    · intro x a x' hx hguard hnext
      refine ⟨next_roles hx.left hnext, ?_⟩
      rcases World.next_cases hnext with ⟨c, sh, rfl, hprocess⟩
      exact hx.right.move hx.left hguard hprocess
    · intro r hr
      simp [World.init, Process.new, Holds] at hr
  rcases World.next_cases hstep with ⟨c, sh, rfl, hprocess⟩
  rw [World.move_proc_self] at htool hdecided
  have hunregistered := (hinv.left.consistent p).unregistered
    (by rw [hphase]; trivial)
  cases hprocess with
  | start hstart =>
      cases hstart with
      | decideWriter hdecide hcount =>
          cases htool
          have hregistered : s.segment.procInfo.counter .readerProcess ≠ 0 := by
            change s.segment.procInfo.readerProcessCount ≠ 0
            omega
          rcases hinv.left.exists_holder (by simp) hregistered with ⟨r, hr, hunique⟩
          exact ⟨r, hr, hunique, hinv.right r hr⟩
      | decideReader hdecide hcount => cases htool
      | _ => simp_all [Process.crash]
  | leave hleave => cases hleave <;> simp_all
  | _ => simp_all

/-- The first process copies an empty file to another destination than the others. -/
def twoArgs : Pid -> Args
  | .first => { src := [], dst := "first" }
  | .second => { src := [], dst := "second" }
  | .third => { src := [], dst := "second" }

/-- The first process starts and registers as reader, then the second one starts. -/
def oneAfterTheOther : List (World.Action Pid) :=
  World.turns .first 6 ++ World.turns .second 3

theorem takes_dst_of_reader_oneAfterTheOther :
    exists s writer, exec (World.next twoArgs) oneAfterTheOther
        (World.init fun _ => []) = some s ∧
      exists r, Holds (s.proc r) .readerProcess ∧
        (forall q, Holds (s.proc q) .readerProcess -> q = r) ∧
        BufferedFileWriter.fileName writer = (twoArgs r).dst := by
  have hview : ((exec (World.next twoArgs) oneAfterTheOther
      (World.init fun _ => [])).bind fun s =>
        (World.next twoArgs (.second, .run Io.success) s).map fun s' =>
          ((s.proc .second).phase, (s'.proc .second).phase, (s'.proc .second).tool)) =
      some (.decideType, .register,
        .writer (BufferedFileWriter.new "first") .create) := by
    decide +kernel
  rcases Option.bind_eq_some_iff.mp hview with ⟨s, hexec, hnext⟩
  rcases Option.map_eq_some_iff.mp hnext with ⟨s', hstep, hpcs⟩
  simp only [Prod.mk.injEq] at hpcs
  exact ⟨s, _, hexec, takes_dst_of_reader twoArgs _ s s' .second Io.success _ _
    (reaches_of_exec oneAfterTheOther (by decide +kernel) hexec) hpcs.left hstep
    hpcs.right.left hpcs.right.right⟩

/--
The first process creates the segment and stores its destination; the second one
starts and registers as reader before the first one decides.
-/
def overtaken : List (World.Action Pid) :=
  World.turns .first 4 ++ World.turns .second 5

/-- In general a writer can take a destination that no registered reader has asked for. -/
theorem takes_other_dst :
    ¬ forall (args : Pid -> Args) (buffers : Nat -> List UInt8)
      (s s' : World Pid) (p : Pid) (io : Io) (writer : BufferedFileWriter)
      (pc : WriterPc),
      Reaches (StepOf (World.next args)) anyStep (World.init buffers) s ->
      (s.proc p).phase = .decideType ->
      World.next args (p, .run io) s = some s' ->
      (s'.proc p).phase = .register -> (s'.proc p).tool = .writer writer pc ->
      exists r, Holds (s.proc r) .readerProcess ∧ writer.fileName = (args r).dst := by
  intro h
  have hview : ((exec (World.next twoArgs) overtaken
      (World.init fun _ => [])).bind fun s =>
        (World.next twoArgs (.first, .run Io.success) s).map fun s' =>
          ((s.proc .first).phase, (s'.proc .first).phase, (s'.proc .first).tool,
            decide (Holds (s.proc .first) .readerProcess))) =
      some (.decideType, .register,
        .writer (BufferedFileWriter.new "first") .create, false) := by
    decide +kernel
  rcases Option.bind_eq_some_iff.mp hview with ⟨s, hexec, hnext⟩
  rcases Option.map_eq_some_iff.mp hnext with ⟨s', hstep, hpcs⟩
  simp only [Prod.mk.injEq, decide_eq_false_iff_not] at hpcs
  rcases hpcs with ⟨hphase, hdecided, htool, hnot⟩
  rcases h twoArgs (fun _ => []) s s' .first Io.success _ _
    (reaches_of_exec_any overtaken hexec) hphase hstep hdecided
    htool with ⟨r, hr, hdst⟩
  cases r with
  | first => exact hnot hr
  | second => exact absurd hdst (by decide)
  | third => exact absurd hdst (by decide)

end Common
end Ki
