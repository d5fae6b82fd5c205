import Ki.Common.IPCTool
import Ki.Foundation.Runs

/-!
# Processes from their start to their end

Translation of the start of a process (`ToolFactory::createTool` for the IPC
type, the constructors of `SharedMemoryManager` and `IPCTool`) and of its end
(their destructors), around the steps of `IPCTool::copy`.  One shared-memory
segment is modelled: a process that starts after the name has been removed
creates another one and takes no part.
-/

namespace Ki
namespace Common

open Foundation
open Queue
open Reader
open BufferedReader
open Writer
open BufferedFileWriter
open Stdio
open IPC
open IPCTool

variable {ι : Type} [DecidableEq ι]

/-!
# The start of a process
-/

/-- One step of `createTool`, up to the end of the constructor of `IPCTool`. -/
def startStep (args : Args) (sh : Segment ι) (p : Process) :
    Option (Process × Segment ι) :=
  match p.phase with
  | .attach =>
      if sh.created then
        if sh.named then some ({ p with phase := .findProcInfo }, sh) else none
      else some ({ p with phase := .constructProcInfo, isFirstProcess_ := true },
        { sh with created := true, named := true })
  | .constructProcInfo =>
      some ({ p with phase := .getQueue, hasProcInfo := true },
        { sh with procInfoConstructed := true })
  | .findProcInfo =>
      some ({ p with phase := .getQueue, hasProcInfo := sh.procInfoConstructed }, sh)
  | .getQueue =>
      if p.isFirstProcess_ then
        some ({ p with phase := .storeDst, hasQueue := true },
          { sh with queueConstructed := true })
      else some ({ p with phase := .decideType, hasQueue := sh.queueConstructed }, sh)
  | .storeDst =>
      some ({ p with phase := .decideType },
        { sh with procInfo := sh.procInfo.storeDst args.dst })
  | .decideType =>
      if p.hasProcInfo then
        some ({ p with
          phase := .register
          tool :=
            if sh.procInfo.readerProcessCount ≤ sh.procInfo.writerProcessCount then
              .reader (BufferedReader.new args.src) .openQueue
            else .writer (BufferedFileWriter.new sh.procInfo.getDst) .create }, sh)
      else some (p.crash, sh)
  | .register =>
      some ({ p with
        phase := .copy
        ipcToolType := (sh.procInfo.register p.tool.toolType).1 },
        { sh with procInfo := (sh.procInfo.register p.tool.toolType).2 })
  | _ => none

/-- The steps of the start of a process, guards included. -/
inductive StartStep (args : Args) (sh : Segment ι) (p : Process) :
    Process -> Segment ι -> Prop where
  | create (hphase : p.phase = .attach) (hcreated : sh.created = false) :
      StartStep args sh p { p with phase := .constructProcInfo, isFirstProcess_ := true }
        { sh with created := true, named := true }
  | openOnly (hphase : p.phase = .attach) (hcreated : sh.created = true)
      (hnamed : sh.named = true) :
      StartStep args sh p { p with phase := .findProcInfo } sh
  | constructProcInfo (hphase : p.phase = .constructProcInfo) :
      StartStep args sh p { p with phase := .getQueue, hasProcInfo := true }
        { sh with procInfoConstructed := true }
  | findProcInfo (hphase : p.phase = .findProcInfo) :
      StartStep args sh p
        { p with phase := .getQueue, hasProcInfo := sh.procInfoConstructed } sh
  | constructQueue (hphase : p.phase = .getQueue) (hfirst : p.isFirstProcess_ = true) :
      StartStep args sh p { p with phase := .storeDst, hasQueue := true }
        { sh with queueConstructed := true }
  | findQueue (hphase : p.phase = .getQueue) (hfirst : p.isFirstProcess_ = false) :
      StartStep args sh p
        { p with phase := .decideType, hasQueue := sh.queueConstructed } sh
  | storeDst (hphase : p.phase = .storeDst) :
      StartStep args sh p { p with phase := .decideType }
        { sh with procInfo := sh.procInfo.storeDst args.dst }
  | crash (hphase : p.phase = .decideType) (hnull : p.hasProcInfo = false) :
      StartStep args sh p p.crash sh
  | decideReader (hphase : p.phase = .decideType)
      (hcount : sh.procInfo.readerProcessCount ≤ sh.procInfo.writerProcessCount) :
      StartStep args sh p
        { p with
          phase := .register
          tool := .reader (BufferedReader.new args.src) .openQueue } sh
  | decideWriter (hphase : p.phase = .decideType)
      (hcount : sh.procInfo.writerProcessCount < sh.procInfo.readerProcessCount) :
      StartStep args sh p
        { p with
          phase := .register
          tool := .writer (BufferedFileWriter.new sh.procInfo.dst) .create } sh
  | register (hphase : p.phase = .register) (htype : p.tool.toolType ≠ .invalid)
      (hcount : sh.procInfo.counter p.tool.toolType = 0) :
      StartStep args sh p { p with phase := .copy, ipcToolType := p.tool.toolType }
        { sh with procInfo := sh.procInfo.setCounter p.tool.toolType 1 }
  | reject (hphase : p.phase = .register) :
      StartStep args sh p { p with phase := .copy, ipcToolType := .invalid } sh

omit [DecidableEq ι] in
theorem startStep_cases {args : Args} {sh sh' : Segment ι} {p p' : Process}
    (h : startStep args sh p = some (p', sh')) : StartStep args sh p p' sh' := by
  unfold startStep at h
  split at h
  · rename_i hphase
    split at h
    · rename_i hcreated
      split at h
      · rename_i hnamed
        cases h
        exact StartStep.openOnly hphase hcreated hnamed
      · cases h
    · rename_i hcreated
      cases h
      exact StartStep.create hphase (by simpa using hcreated)
  · rename_i hphase
    cases h
    exact StartStep.constructProcInfo hphase
  · rename_i hphase
    cases h
    exact StartStep.findProcInfo hphase
  · rename_i hphase
    split at h
    · rename_i hfirst
      cases h
      exact StartStep.constructQueue hphase hfirst
    · rename_i hfirst
      cases h
      exact StartStep.findQueue hphase (by simpa using hfirst)
  · rename_i hphase
    cases h
    exact StartStep.storeDst hphase
  · rename_i hphase
    split at h
    · split at h
      · rename_i hcount
        cases h
        exact StartStep.decideReader hphase hcount
      · rename_i hcount
        cases h
        exact StartStep.decideWriter hphase (Nat.lt_of_not_le hcount)
    · rename_i hnull
      cases h
      exact StartStep.crash hphase (by simpa using hnull)
  · rename_i hphase
    unfold ProcInfo.register at h
    split at h
    · cases h
      exact StartStep.reject hphase
    · rename_i hok
      rw [not_or, not_not] at hok
      rw [hok.right] at h
      cases h
      exact StartStep.register hphase hok.left hok.right
  · cases h

/-!
# The end of a process
-/

/-- One step of the destructors of `IPCTool` and of the shared memory manager. -/
def leaveStep (sh : Segment ι) (p : Process) : Option (Process × Segment ι) :=
  match p.phase with
  | .deregister =>
      some ({ p with phase := .joinTimer },
        { sh with procInfo := sh.procInfo.deregister p.ipcToolType })
  | .joinTimer =>
      if p.timer.canStop then
        some ({ p with phase := .readWriterCount, timer := .off }, sh)
      else none
  | .readWriterCount =>
      if sh.procInfo.writerProcessCount = 0 then
        some ({ p with phase := .readReaderCount }, sh)
      else some ({ p with phase := .gone }, sh)
  | .readReaderCount =>
      if sh.procInfo.readerProcessCount = 0 then
        some ({ p with phase := .removeObject }, sh)
      else some ({ p with phase := .gone }, sh)
  | .removeObject => some ({ p with phase := .gone }, { sh with named := false })
  | _ => none

/-- The steps of the end of a process. -/
inductive LeaveStep (sh : Segment ι) (p : Process) :
    Process -> Segment ι -> Prop where
  | deregister (hphase : p.phase = .deregister) :
      LeaveStep sh p { p with phase := .joinTimer }
        { sh with procInfo := sh.procInfo.deregister p.ipcToolType }
  | joinTimer (hphase : p.phase = .joinTimer) (hstop : p.timer.canStop = true) :
      LeaveStep sh p { p with phase := .readWriterCount, timer := .off } sh
  | seesWriter (hphase : p.phase = .readWriterCount)
      (hcount : sh.procInfo.writerProcessCount ≠ 0) :
      LeaveStep sh p { p with phase := .gone } sh
  | seesNoWriter (hphase : p.phase = .readWriterCount)
      (hcount : sh.procInfo.writerProcessCount = 0) :
      LeaveStep sh p { p with phase := .readReaderCount } sh
  | seesReader (hphase : p.phase = .readReaderCount)
      (hcount : sh.procInfo.readerProcessCount ≠ 0) :
      LeaveStep sh p { p with phase := .gone } sh
  | seesNoReader (hphase : p.phase = .readReaderCount)
      (hcount : sh.procInfo.readerProcessCount = 0) :
      LeaveStep sh p { p with phase := .removeObject } sh
  | removeObject (hphase : p.phase = .removeObject) :
      LeaveStep sh p { p with phase := .gone } { sh with named := false }

omit [DecidableEq ι] in
theorem leaveStep_cases {sh sh' : Segment ι} {p p' : Process}
    (h : leaveStep sh p = some (p', sh')) : LeaveStep sh p p' sh' := by
  unfold leaveStep at h
  split at h
  · rename_i hphase
    cases h
    exact LeaveStep.deregister hphase
  · rename_i hphase
    split at h
    · rename_i hstop
      cases h
      exact LeaveStep.joinTimer hphase hstop
    · cases h
  · rename_i hphase
    split at h
    · rename_i hcount
      cases h
      exact LeaveStep.seesNoWriter hphase hcount
    · rename_i hcount
      cases h
      exact LeaveStep.seesWriter hphase hcount
  · rename_i hphase
    split at h
    · rename_i hcount
      cases h
      exact LeaveStep.seesNoReader hphase hcount
    · rename_i hcount
      cases h
      exact LeaveStep.seesReader hphase hcount
  · rename_i hphase
    cases h
    exact LeaveStep.removeObject hphase
  · cases h

/-!
# Processes and their steps
-/

/-- What can happen to a process. -/
inductive Event where
  /-- its main thread makes a step, with this outcome of its stdio calls -/
  | run (io : Io)
  /-- the signal or terminate handler leaves `copy` and destroys the tool -/
  | interrupt
  /-- its observation thread makes a step -/
  | observe
deriving DecidableEq, Repr

def Event.isRun : Event -> Bool
  | .run _ => true
  | _ => false

/-- One step of `copy`, by the type the tool has been registered with. -/
def copyStep (src : List UInt8) (me : ι) (io : Io) (sh : Segment ι) (p : Process) :
    Option (Process × Segment ι) :=
  match p.ipcToolType, p.tool with
  | .readerProcess, .reader reader pc => readingStep src me io sh p reader pc
  | .writerProcess, .writer writer pc => writingStep me io sh p writer pc
  | .invalid, tool => some (p.leave tool, sh)
  | _, _ => none

def processStep (args : Args) (me : ι) (event : Event) (sh : Segment ι)
    (p : Process) : Option (Process × Segment ι) :=
  if p.crashed then none
  else
    match event with
    | .run io =>
        match p.phase with
        | .copy => copyStep args.src me io sh p
        | .deregister => leaveStep sh p
        | .joinTimer => leaveStep sh p
        | .readWriterCount => leaveStep sh p
        | .readReaderCount => leaveStep sh p
        | .removeObject => leaveStep sh p
        | .gone => none
        | _ => startStep args sh p
    | .interrupt => if p.phase = .copy then some (p.leave p.tool, sh) else none
    | .observe =>
        if p.phase = .copy ∨ p.phase = .deregister ∨ p.phase = .joinTimer then
          observerStep sh p
        else none

/-- The steps of a process, guards included. -/
inductive ProcessStep (args : Args) (me : ι) (sh : Segment ι) (p : Process) :
    Event -> Process -> Segment ι -> Prop where
  | start {io : Io} {p' : Process} {sh' : Segment ι}
      (hstart : StartStep args sh p p' sh') : ProcessStep args me sh p (.run io) p' sh'
  | reading {io : Io} {p' : Process} {sh' : Segment ι} {reader : BufferedReader}
      {pc : ReaderPc} (hphase : p.phase = .copy)
      (htype : p.ipcToolType = .readerProcess) (htool : p.tool = .reader reader pc)
      (hreading : ReadingStep args.src me io sh p reader pc p' sh') :
      ProcessStep args me sh p (.run io) p' sh'
  | writing {io : Io} {p' : Process} {sh' : Segment ι}
      {writer : BufferedFileWriter} {pc : WriterPc} (hphase : p.phase = .copy)
      (htype : p.ipcToolType = .writerProcess) (htool : p.tool = .writer writer pc)
      (hwriting : WritingStep me io sh p writer pc p' sh') :
      ProcessStep args me sh p (.run io) p' sh'
  | invalid {io : Io} (hphase : p.phase = .copy) (htype : p.ipcToolType = .invalid) :
      ProcessStep args me sh p (.run io) (p.leave p.tool) sh
  | leave {io : Io} {p' : Process} {sh' : Segment ι}
      (hleave : LeaveStep sh p p' sh') : ProcessStep args me sh p (.run io) p' sh'
  | interrupt (hphase : p.phase = .copy) :
      ProcessStep args me sh p .interrupt (p.leave p.tool) sh
  | observe {p' : Process} {sh' : Segment ι} (hphase : p.phase = .copy)
      (hobserve : ObserverStep sh p p' sh') :
      ProcessStep args me sh p .observe p' sh'
  /-- the tool is being destroyed, its timer still there -/
  | linger {p' : Process} {sh' : Segment ι}
      (hphase : p.phase = .deregister ∨ p.phase = .joinTimer)
      (hobserve : ObserverStep sh p p' sh') :
      ProcessStep args me sh p .observe p' sh'

theorem processStep_cases {args : Args} {me : ι} {event : Event}
    {sh sh' : Segment ι} {p p' : Process}
    (h : processStep args me event sh p = some (p', sh')) :
    ProcessStep args me sh p event p' sh' := by
  unfold processStep at h
  split at h
  · cases h
  · cases event with
    | run io =>
        simp only at h
        split at h
        · rename_i hphase
          unfold copyStep at h
          split at h
          · rename_i reader pc htype htool
            exact ProcessStep.reading hphase htype htool (readingStep_cases h)
          · rename_i writer pc htype htool
            exact ProcessStep.writing hphase htype htool (writingStep_cases h)
          · rename_i htype
            cases h
            exact ProcessStep.invalid hphase htype
          · cases h
        · exact ProcessStep.leave (leaveStep_cases h)
        · exact ProcessStep.leave (leaveStep_cases h)
        · exact ProcessStep.leave (leaveStep_cases h)
        · exact ProcessStep.leave (leaveStep_cases h)
        · exact ProcessStep.leave (leaveStep_cases h)
        · cases h
        · exact ProcessStep.start (startStep_cases h)
    | interrupt =>
        simp only at h
        split at h
        · rename_i hphase
          cases h
          exact ProcessStep.interrupt hphase
        · cases h
    | observe =>
        simp only at h
        split at h
        · rename_i hphase
          rcases hphase with hcopy | hleaving
          · exact ProcessStep.observe hcopy (observerStep_cases h)
          · exact ProcessStep.linger hleaving (observerStep_cases h)
        · cases h

/-!
# The system
-/

/-- The segment and all the processes. -/
structure World (ι : Type) where
  segment : Segment ι
  proc : ι -> Process

namespace World

/-- No segment, and no process has run. -/
def init (buffers : Nat -> List UInt8) : World ι where
  segment := Segment.absent buffers
  proc := fun _ => Process.new

/-- The state after process `p` has become `c` and the segment `sh`. -/
def move (s : World ι) (p : ι) (c : Process) (sh : Segment ι) : World ι where
  segment := sh
  proc := Function.update s.proc p c

@[simp] theorem move_segment (s : World ι) (p : ι) (c : Process)
    (sh : Segment ι) : (s.move p c sh).segment = sh := rfl

@[simp] theorem move_proc_self (s : World ι) (p : ι) (c : Process)
    (sh : Segment ι) : (s.move p c sh).proc p = c := by
  simp [move]

theorem move_proc_of_ne (s : World ι) {p q : ι} (c : Process) (sh : Segment ι)
    (hq : q ≠ p) : (s.move p c sh).proc q = s.proc q := by
  simp [move, hq]

/-- What holds of the process that has moved and of all others holds of every process. -/
theorem forall_move {P : ι -> Process -> Prop} {s : World ι} {p : ι} {c : Process}
    {sh : Segment ι} (hself : P p c) (hother : forall q, q ≠ p -> P q (s.proc q))
    (q : ι) : P q ((s.move p c sh).proc q) := by
  by_cases hq : q = p
  · subst q
    rw [move_proc_self]
    exact hself
  · rw [s.move_proc_of_ne c sh hq]
    exact hother q hq

/-- A step of the system: a process and what happens to it. -/
abbrev Action (ι : Type) := ι × Event

def next (args : ι -> Args) (a : Action ι) (s : World ι) : Option (World ι) :=
  (processStep (args a.1) a.1 a.2 s.segment (s.proc a.1)).map fun out =>
    s.move a.1 out.1 out.2

theorem next_cases {args : ι -> Args} {a : Action ι} {s s' : World ι}
    (h : next args a s = some s') :
    exists c sh, s' = s.move a.1 c sh ∧
      ProcessStep (args a.1) a.1 s.segment (s.proc a.1) a.2 c sh := by
  rcases Option.map_eq_some_iff.mp h with ⟨⟨c, sh⟩, hstep, heq⟩
  exact ⟨c, sh, heq.symm, processStep_cases hstep⟩

/-- `n` steps of the main thread of `p` whose stdio calls succeed. -/
def turns (p : ι) (n : Nat) : List (Action ι) :=
  List.replicate n (p, .run Io.success)

end World

/-!
# Concrete runs
-/

/-- The processes of the concrete runs. -/
inductive Pid where
  | first
  | second
  | third
  deriving DecidableEq, Repr

theorem Pid.forall_iff {P : Pid -> Prop} :
    (forall p, P p) <-> P .first ∧ P .second ∧ P .third := by
  constructor
  · intro h
    exact ⟨h .first, h .second, h .third⟩
  · intro h p
    cases p with
    | first => exact h.left
    | second => exact h.right.left
    | third => exact h.right.right

instance {P : Pid -> Prop} [DecidablePred P] : Decidable (forall p, P p) :=
  decidable_of_iff' _ Pid.forall_iff

/-- The second process has an empty file to copy. -/
def sources (src src' : List UInt8) : Pid -> Args
  | .first => { src := src, dst := "dst" }
  | .second => { src := [], dst := "dst" }
  | .third => { src := src', dst := "dst" }

end Common
end Ki
