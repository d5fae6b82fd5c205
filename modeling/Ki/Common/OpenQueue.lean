import Ki.Common.BPCopyTool.Progress
import Ki.Common.IPCTool.Flags

/-!
# The reader always gets a buffer

The queue is open from a reader's `open` to its own `close`, in every run of the
two tools: with failing stdio calls, and with readers that are interrupted and
followed by others on the same queue.
-/

namespace Ki
namespace Common

open Foundation
open Queue
open FixedBufferQueue
open Reader
open BufferedReader
open Writer
open BufferedFileWriter
open Stdio
open IPC
open IPCTool

/-- `getFreeBuffer` of an open queue does not return without a buffer. -/
theorem getFreeBuffer_ne_nullopt {ι : Type} [DecidableEq ι] {q q' : FixedBufferQueue ι}
    {me : ι} {pc : GetPc} {r : GetResult} (hopen : q.isOpen = true)
    (hget : q.getFreeBuffer me pc = some (r, q')) : r ≠ .nullopt := by
  intro hr
  cases getStep_cases hget with
  | nullopt hempty hclosed =>
      rw [hopen] at hclosed
      cases hclosed
  | _ => cases hr

/-!
# Two threads
-/

namespace BPCopyTool

/-- In every step of the tool the queue is open where `copy` is between the two calls. -/
theorem next_isOpen {src : List UInt8} {a : Action} {s s' : BPCopyTool}
    (h : s.queue.isOpen = s.copyPc.queueOpen) (hstep : next src a s = some s') :
    s'.queue.isOpen = s'.copyPc.queueOpen := by
  rcases next_cases hstep with ⟨_, hcopy⟩ | ⟨_, hwriting⟩
  · exact hcopy.isOpen h
  · have hisOpen := hwriting.isOpen.trans h
    cases hwriting <;> exact hisOpen

theorem reaches_isOpen {src : List UInt8} {dst : String} {buffers : Nat -> List UInt8}
    {guard : BPCopyTool -> Action -> Prop} {s : BPCopyTool}
    (hrun : Reaches (StepOf (next src)) guard (new src dst buffers) s) :
    s.queue.isOpen = s.copyPc.queueOpen :=
  Reaches.invariant (fun x => x.queue.isOpen = x.copyPc.queueOpen)
    (fun _ _ _ hx _ hstep => next_isOpen hx hstep) hrun rfl

end BPCopyTool

/-!
# Any number of processes
-/

variable {ι : Type} [DecidableEq ι]

/-- The process registered as reader works on an open queue from its `open` to its `close`. -/
def KeepsOpen (s : World ι) : Prop :=
  forall p reader pc, Holds (s.proc p) .readerProcess ->
    (s.proc p).tool = .reader reader pc -> pc.queueOpen = true ->
    s.segment.queue.isOpen = true

theorem IPCTool.ReadingStep.keepsOpen {src : List UInt8} {me : ι} {io : Io}
    {sh sh' : Segment ι} {p p' : Process} {reader reader' : BufferedReader}
    {pc pc' : ReaderPc} (htool : p.tool = .reader reader pc)
    (htool' : p'.tool = .reader reader' pc') (hpc' : pc'.queueOpen = true)
    (h : pc.queueOpen = true -> sh.queue.isOpen = true)
    (hstep : ReadingStep src me io sh p reader pc p' sh') :
    sh'.queue.isOpen = true := by
  cases hstep with
  | openQueue => rfl
  | crash hnull =>
      cases htool.symm.trans htool'
      cases hpc'
  | read hread => exact (readStep_isOpen hread).trans (h rfl)
  | openFails hfails => exact h rfl
  | openFile => exact h rfl
  | startObserver => exact h rfl
  | finished hfinished => exact h rfl
  | unfinished hunfinished => exact h rfl
  | _ =>
      cases htool'
      cases hpc'

/-- No process but the one that moves has the role of the one that moves. -/
theorem Roles.holder_eq {args : ι -> Args} {s : World ι} (h : Roles args s) {me : ι}
    {c : Process} {sh : Segment ι} {type : ProcessType} (htype : type ≠ .invalid)
    (hme : Holds (s.proc me) type) {p : ι}
    (hp : Holds ((s.move me c sh).proc p) type) : p = me :=
  World.forall_move (P := fun p proc => Holds proc type -> p = me) (fun _ => rfl)
    (fun _ _ hq => h.unique htype hq hme) p hp

theorem KeepsOpen.move {args : ι -> Args} {s : World ι} {me : ι} {event : Event}
    {c : Process} {sh : Segment ι} (hroles : Roles args s) (h : KeepsOpen s)
    (hstep : ProcessStep (args me) me s.segment (s.proc me) event c sh) :
    KeepsOpen (s.move me c sh) := by
  intro p reader pc hp htool hpc
  have hconsistent := hroles.consistent me
  have hcopyOrAside := hstep.copyOrAside hconsistent
  cases hcopyOrAside with
  | reading reader₀ pc₀ hphase htype htool₀ hreading =>
      have hme : Holds (s.proc me) .readerProcess := ⟨htype, Or.inl hphase⟩
      have hpme := hroles.holder_eq (by simp) hme hp
      rw [hpme, World.move_proc_self] at htool
      exact hreading.keepsOpen htool₀ htool hpc (h me reader₀ pc₀ hme htool₀)
  | writing writer₀ pc₀ hphase htype htool₀ hwriting =>
      have hwriter := (hwriting.role hphase).left.trans htype
      have hother := move_proc_of_type (by rw [hwriter]; simp) hp.left
      rw [hother.right] at hp htool
      exact hwriting.flags.left.trans (h p reader pc hp htool hpc)
  | aside haside =>
      rw [World.move_segment, haside.queue]
      by_cases hpme : p = me
      · rw [hpme, World.move_proc_self] at hp htool
        have hnew : Holds (s.proc me) .readerProcess ∨ (s.proc me).phase = .register := by
          cases hstep.role hconsistent with
          | same hcounter hholds => exact Or.inl ((hholds _ (by simp)).mp hp)
          | register type htype hphase _ hcount hprocInfo hholds => exact Or.inr hphase
          | deregister hphase hprocInfo hholds => exact absurd hp (hholds _)
        rcases hnew with hme | hphase
        · have hsame := haside.keeps hconsistent (by rw [hme.left]; simp)
          exact h me reader pc hme (hsame.right.symm.trans htool) hpc
        · rcases haside.registered hconsistent (by rw [hp.left]; simp) with
            ⟨htype, _⟩ | ⟨_, _, htool₀, _⟩
          · have hnone := hconsistent.unregistered (by rw [hphase]; trivial)
            rw [hnone, hp.left] at htype
            cases htype
          · -- a reader that has just registered has not opened the queue
            have hdecided := hconsistent.decided_reader hphase (htool₀.symm.trans htool)
            rw [hdecided.right] at hpc
            cases hpc
      · rw [World.move_proc_of_ne s c sh hpme] at hp htool
        exact h p reader pc hp htool hpc

theorem reaches_keepsOpen {args : ι -> Args} {buffers : Nat -> List UInt8}
    {guard : World ι -> World.Action ι -> Prop} {s : World ι}
    (hrun : Reaches (StepOf (World.next args)) guard (World.init buffers) s) :
    KeepsOpen s := by
  have hboth : Roles args s ∧ KeepsOpen s := by
    refine Reaches.invariant (fun x => Roles args x ∧ KeepsOpen x) ?_ hrun
      ⟨init_roles args buffers, ?_⟩
    · intro x a x' hx _ hnext
      refine ⟨next_roles hx.left hnext, ?_⟩
      rcases World.next_cases hnext with ⟨c, sh, rfl, hprocess⟩
      exact hx.right.move hx.left hprocess
    · intro p reader pc hp
      simp [World.init, Process.new, Holds] at hp
  exact hboth.right

/--
In every run of the vbuf tool, and in every run of any number of processes, the
queue is open from the `open` of a registered reader to its own `close`, and its
calls of `getFreeBuffer` never return without a buffer.
-/
theorem reader_gets_buffer (src : List UInt8) (dst : String) (args : ι -> Args)
    (buffers : Nat -> List UInt8) :
    (forall s : BPCopyTool,
      Reaches (StepOf (BPCopyTool.next src)) anyStep (BPCopyTool.new src dst buffers) s ->
      (s.copyPc.queueOpen = true -> s.queue.isOpen = true) ∧
        forall pc r q, s.copyPc = .read (.getFreeBuffer pc) ->
          s.queue.getFreeBuffer .reading pc = some (r, q) -> r ≠ .nullopt) ∧
    (forall s : World ι,
      Reaches (StepOf (World.next args)) anyStep (World.init buffers) s ->
      forall p reader pc, Holds (s.proc p) .readerProcess ->
        (s.proc p).tool = .reader reader pc ->
        (pc.queueOpen = true -> s.segment.queue.isOpen = true) ∧
          forall gpc r q, pc = .read (.getFreeBuffer gpc) ->
            s.segment.queue.getFreeBuffer p gpc = some (r, q) -> r ≠ .nullopt) := by
  constructor
  · intro s hrun
    have hisOpen := BPCopyTool.reaches_isOpen hrun
    constructor
    · exact hisOpen.trans
    · intro pc r q hpc hget
      rw [hpc] at hisOpen
      exact getFreeBuffer_ne_nullopt hisOpen hget
  · intro s hrun p reader pc hp htool
    have hopen := reaches_keepsOpen hrun p reader pc hp htool
    constructor
    · exact hopen
    · intro gpc r q hpc hget
      rw [hpc] at hopen
      exact getFreeBuffer_ne_nullopt (hopen rfl) hget

/-- A reader is interrupted with a buffer in hand, and the next one opens the queue again. -/
def interruptedThenFollowed : List (World.Action Pid) :=
  World.turns .first 11 ++ World.turns .second 3 ++ [(.first, .interrupt)] ++
    World.turns .first 1 ++ World.turns .second 6

theorem reader_gets_buffer_followed :
    exists s : World Pid,
      exec (World.next (sources [1] [])) interruptedThenFollowed
        (World.init fun _ => []) = some s ∧
      Holds (s.proc .second) .readerProcess ∧ s.segment.queue.isOpen = true := by
  have hview : (exec (World.next (sources [1] [])) interruptedThenFollowed
      (World.init fun _ => [])).map
        (fun s => ((s.proc .second).tool, (s.proc .second).ipcToolType,
          (s.proc .second).phase)) =
      some (.reader ((BufferedReader.new []).open' [])
        (.read (.getFreeBuffer .lock)), .readerProcess, .copy) := by
    decide +kernel
  rcases Option.map_eq_some_iff.mp hview with ⟨s, hexec, hpcs⟩
  simp only [Prod.mk.injEq] at hpcs
  rcases hpcs with ⟨htool, htype, hphase⟩
  have hholds : Holds (s.proc .second) .readerProcess := ⟨htype, Or.inl hphase⟩
  have hrun : Reaches (StepOf (World.next (sources [1] []))) anyStep _ s :=
    reaches_of_exec_any interruptedThenFollowed hexec
  have hreader := reader_gets_buffer [] "dst" (sources [1] []) fun _ => []
  exact ⟨s, hexec, hholds, (hreader.right s hrun _ _ _ hholds htool).left rfl⟩

end Common
end Ki
