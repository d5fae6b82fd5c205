import Ki.Common.IPCTool.Delivery
import Ki.Common.IPCTool.Removal
import Ki.Common.IPCTool.StartedFlag

/-!
# How processes can hang

When no process can go on, each one that has not ended waits in one of a few places,
and what it waits for is missing for one of a few reasons.
-/

namespace Ki
namespace IPC
namespace Tool

open Queue
open Clients

/-- `copy` has returned. -/
def Returned : Tool -> Prop
  | .reader _ .returned => True
  | .writer _ .returned => True
  | _ => False

/-- An exception has left `copy`. -/
def Threw : Tool -> Prop
  | .reader _ (.threw _) => True
  | .writer _ .threw => True
  | _ => False

/-- Outside of every function of the queue, with no buffer in hand. -/
def Unengaged (tool : Tool) : Prop :=
  tool.client = { call := .idle, held := [] }

end Tool
end IPC

namespace Common

open Foundation
open Queue
open FixedBufferQueue
open Clients
open Reader
open BufferedReader
open Writer
open BufferedFileWriter
open Stdio
open IPC
open IPCTool

variable {ι : Type} [DecidableEq ι]

/-!
# One process
-/

/-- The file is open wherever `copy` uses it. -/
def FileOpened : Tool -> Prop
  | .none => True
  | .reader reader pc => ¬ Unopened pc -> reader.fileDesc ≠ none
  | .writer writer pc => pc ≠ .create -> writer.fileDesc ≠ none

theorem reader_ready {reader : BufferedReader} {pc : ReadPc}
    (hopened : FileOpened (.reader reader (.read pc)))
    (htyped : Tool.Typed (.reader reader (.read pc))) : reader.Ready (some pc) where
  isOpen := hopened id
  typed := by
    intro pc' hpc
    cases hpc
    exact htyped pc rfl

theorem writer_ready {writer : BufferedFileWriter} {pc : WritePc}
    (hopened : FileOpened (.writer writer (.write pc)))
    (htyped : Tool.Typed (.writer writer (.write pc))) : writer.Ready (some pc) where
  isOpen := hopened (by simp)
  typed := by
    intro pc' hpc
    cases hpc
    exact htyped pc rfl

/-- What holds of a process in every run. -/
structure Placed (p : Process) : Prop where
  unengaged : p.ipcToolType = .invalid ∨ p.crashed = true -> p.tool.Unengaged
  inside : p.phase = .copy -> ¬ p.tool.Returned ∧ ¬ p.tool.Threw
  opened : p.phase = .copy -> FileOpened p.tool

theorem Process.new_placed : Placed Process.new where
  unengaged := fun _ => rfl
  inside := nofun
  opened := nofun

/-- A registered process has only to keep inside of `copy` until it leaves. -/
theorem placed_of_registered {p : Process} (hlive : p.crashed = false)
    (htype : p.ipcToolType ≠ .invalid)
    (hinside : p.phase = .copy -> ¬ p.tool.Returned ∧ ¬ p.tool.Threw)
    (hopened : p.phase = .copy -> FileOpened p.tool) : Placed p where
  unengaged := by
    intro hout
    rcases hout with hinvalid | hcrashed
    · exact absurd hinvalid htype
    · rw [hlive] at hcrashed
      cases hcrashed
  inside := hinside
  opened := hopened

theorem IPCTool.ReadingStep.placed {src : List UInt8} {me : ι} {io : Io}
    {sh sh' : Segment ι} {p p' : Process} {reader : BufferedReader} {pc : ReaderPc}
    (hphase : p.phase = .copy) (hlive : p.crashed = false) (hreader : IsReader p)
    (htool : p.tool = .reader reader pc) (htyped : p.tool.Typed) (h : Placed p)
    (hstep : ReadingStep src me io sh p reader pc p' sh') : Placed p' := by
  have htype := hreader.type_ne
  have hopened := h.opened hphase
  rw [htool] at hopened
  -- the process goes on inside `copy`
  have hgoto : forall (reader' : BufferedReader) (pc' : ReaderPc), pc' ≠ .returned ->
      (forall held, pc' ≠ .threw held) -> FileOpened (.reader reader' pc') ->
      Placed (p.goto (.reader reader' pc')) := by
    intro reader' pc' hreturned hthrew hopened'
    refine placed_of_registered hlive htype (fun _ => ?_) (fun _ => hopened')
    cases pc' with
    | returned => exact absurd rfl hreturned
    | threw held => exact absurd rfl (hthrew held)
    | _ => exact ⟨id, id⟩
  have hleave : forall p' : Process, p'.crashed = p.crashed ->
      p'.ipcToolType = p.ipcToolType -> p'.phase = .deregister -> Placed p' := by
    intro p' hcrashed htype' hleft
    apply placed_of_registered (hcrashed.trans hlive) (by rw [htype']; exact htype)
    · rw [hleft]
      exact nofun
    · rw [hleft]
      exact nofun
  cases hstep with
  | openQueue => exact hgoto _ _ (by simp) (by simp) (fun hnot => absurd trivial hnot)
  | crash hnull =>
      refine ⟨fun _ => ?_, fun _ => h.inside hphase, fun _ => h.opened hphase⟩
      show p.tool.Unengaged
      rw [htool]
      rfl
  | openFails hfails => exact hleave _ rfl rfl rfl
  | openFile =>
      exact hgoto _ _ (by simp) (by simp) (fun _ => by simp [BufferedReader.open'])
  | startObserver =>
      exact placed_of_registered hlive htype (fun _ => ⟨id, id⟩) (fun _ _ => hopened id)
  | finished hfinished => exact hgoto _ _ (by simp) (by simp) (fun _ => hopened id)
  | unfinished hunfinished => exact hgoto _ _ (by simp) (by simp) (fun _ => hopened id)
  | @read rpc r reader' q hread =>
      rw [htool] at htyped
      have hopened' := ((reader_ready hopened htyped).readStep hread).isOpen
      cases r with
      | next rpc' => exact hgoto _ _ (by simp) (by simp) (fun _ => hopened')
      | done => exact hgoto _ _ (by simp) (by simp) (fun _ => hopened')
      | threw held => exact hleave _ rfl rfl rfl
  | close => exact hgoto _ _ (by simp) (by simp) (fun _ => hopened id)
  | started hpc hstarted =>
      rcases hpc with rfl | rfl
      · exact hgoto _ _ (by simp) (by simp) (fun _ => hopened id)
      · exact hgoto _ _ (by simp) (by simp) (fun _ => hopened id)
  | sleep hpc hstarted =>
      rcases hpc with rfl | rfl
      · exact hgoto _ _ (by simp) (by simp) (fun _ => hopened id)
      · exact hgoto _ _ (by simp) (by simp) (fun _ => hopened id)
  | stopTimer hstop => exact hleave _ rfl rfl rfl

theorem IPCTool.WritingStep.placed {me : ι} {io : Io} {sh sh' : Segment ι}
    {p p' : Process} {writer : BufferedFileWriter} {pc : WriterPc}
    (hphase : p.phase = .copy) (hlive : p.crashed = false) (hwriter : IsWriter p)
    (htool : p.tool = .writer writer pc) (htyped : p.tool.Typed) (h : Placed p)
    (hstep : WritingStep me io sh p writer pc p' sh') : Placed p' := by
  have htype := hwriter.type_ne
  have hopened := h.opened hphase
  rw [htool] at hopened
  have hgoto : forall (writer' : BufferedFileWriter) (pc' : WriterPc), pc' ≠ .returned ->
      pc' ≠ .threw -> writer'.fileDesc ≠ none ->
      Placed (p.goto (.writer writer' pc')) := by
    intro writer' pc' hreturned hthrew hopened'
    refine placed_of_registered hlive htype (fun _ => ?_) (fun _ _ => hopened')
    cases pc' with
    | returned => exact absurd rfl hreturned
    | threw => exact absurd rfl hthrew
    | _ => exact ⟨id, id⟩
  have hleave : forall p' : Process, p'.crashed = p.crashed ->
      p'.ipcToolType = p.ipcToolType -> p'.phase = .deregister -> Placed p' := by
    intro p' hcrashed htype' hleft
    apply placed_of_registered (hcrashed.trans hlive) (by rw [htype']; exact htype)
    · rw [hleft]
      exact nofun
    · rw [hleft]
      exact nofun
  cases hstep with
  | createFails hfails => exact hleave _ rfl rfl rfl
  | create => exact hgoto _ _ (by simp) (by simp) (by simp [BufferedFileWriter.create])
  | crash hnull =>
      refine ⟨fun _ => ?_, fun _ => h.inside hphase, fun _ => h.opened hphase⟩
      show p.tool.Unengaged
      rw [htool]
      rfl
  | startObserver =>
      exact placed_of_registered hlive htype (fun _ => ⟨id, id⟩)
        (fun _ _ => hopened (by simp))
  | @write wpc r writer' q hwrite =>
      rw [htool] at htyped
      have hopened' := ((writer_ready hopened htyped).writeStep hwrite).isOpen
      cases r with
      | next wpc' => exact hgoto _ _ (by simp) (by simp) hopened'
      | done => exact hgoto _ _ (by simp) (by simp) hopened'
  | stopTimer hstop => exact hleave _ rfl rfl rfl
  | _ => exact hgoto _ _ (by simp) (by simp) (hopened (by simp))

omit [DecidableEq ι] in
/-- A process about to be registered is at the first point of `copy`. -/
theorem Consistent.at_start {args : Args} {p : Process} (h : Consistent args p)
    (hphase : p.phase = .register) :
    (¬ p.tool.Returned ∧ ¬ p.tool.Threw) ∧ FileOpened p.tool := by
  rcases h.decided hphase with hreader | ⟨dst, hwriter⟩
  · rw [hreader]
    exact ⟨⟨id, id⟩, fun hnot => absurd trivial hnot⟩
  · rw [hwriter]
    exact ⟨⟨id, id⟩, fun hnot => absurd rfl hnot⟩

omit [DecidableEq ι] in
theorem StartStep.placed {args : Args} {sh sh' : Segment ι} {p p' : Process}
    (hconsistent : Consistent args p) (h : Placed p)
    (hstart : StartStep args sh p p' sh') : Placed p' := by
  have htype := hconsistent.unregistered hstart.phase
  have hunengaged : p'.tool.Unengaged :=
    (hstart.aside hconsistent).client.trans (h.unengaged (Or.inl htype))
  have hinside := h.inside
  have hopened := h.opened
  cases hstart with
  | register hphase htool hcount =>
      have hfresh := hconsistent.at_start hphase
      exact ⟨fun _ => hunengaged, fun _ => hfresh.left, fun _ => hfresh.right⟩
  | reject hphase =>
      have hfresh := hconsistent.at_start hphase
      exact ⟨fun _ => hunengaged, fun _ => hfresh.left, fun _ => hfresh.right⟩
  | crash hphase hnull => exact ⟨fun _ => hunengaged, hinside, hopened⟩
  | _ => exact ⟨fun _ => hunengaged, nofun, nofun⟩

/-- A process that is not in `copy` has only to leave its tool alone. -/
theorem Placed.outside {p p' : Process} (h : Placed p) (htool : p'.tool = p.tool)
    (htype : p'.ipcToolType = p.ipcToolType) (hcrashed : p'.crashed = p.crashed)
    (hphase : p'.phase ≠ .copy) : Placed p' where
  unengaged := by
    rw [htool, htype, hcrashed]
    exact h.unengaged
  inside := fun hcopy => absurd hcopy hphase
  opened := fun hcopy => absurd hcopy hphase

theorem ProcessStep.placed {args : Args} {me : ι} {event : Event} {sh sh' : Segment ι}
    {p p' : Process} (hlive : p.crashed = false) (hconsistent : Consistent args p)
    (htyped : p.tool.Typed) (h : Placed p)
    (hstep : ProcessStep args me sh p event p' sh') : Placed p' := by
  cases hstep with
  | start hstart => exact hstart.placed hconsistent h
  | reading hphase htype htool hreading =>
      exact hreading.placed hphase hlive htype htool htyped h
  | writing hphase htype htool hwriting =>
      exact hwriting.placed hphase hlive htype htool htyped h
  | invalid hphase htype => exact h.outside rfl rfl rfl (by simp [Process.leave])
  | leave hleave => cases hleave <;> exact h.outside rfl rfl rfl (by simp)
  | interrupt hphase => exact h.outside rfl rfl rfl (by simp [Process.leave])
  | observe hphase hobserve =>
      cases hobserve with
      | terminate hterminating _ => exact h.outside rfl rfl rfl (by simp)
      | _ => exact ⟨h.unengaged, h.inside, h.opened⟩
  | linger hphase hobserve =>
      rcases (Lingers.of_observer hphase hobserve).same with ⟨timer, named, rfl, rfl⟩
      exact ⟨h.unengaged, h.inside, h.opened⟩

/-!
# Every run
-/

/-- Nobody sleeps on the condition of a flag that is set. -/
def Signalled (sh : Segment ι) : Prop :=
  sh.procInfo.isWritingStarted = true -> sh.procInfo.writingStartedCondition = []

theorem ProcessStep.signalled {args : Args} {me : ι} {event : Event} {sh sh' : Segment ι}
    {p p' : Process} (h : Signalled sh) (hstep : ProcessStep args me sh p event p' sh') :
    Signalled sh' := by
  intro hstarted
  cases hstep with
  | start hstart =>
      cases hstart with
      | storeDst hphase => cases hstarted
      | register hphase htype hcount =>
          rw [ProcInfo.setCounter_writingStartedCondition]
          exact h (by simpa using hstarted)
      | _ => exact h hstarted
  | reading hphase htype htool hreading =>
      cases hreading with
      | sleep hpc hunset => cases hunset.symm.trans hstarted
      | _ => exact h hstarted
  | writing hphase htype htool hwriting =>
      cases hwriting with
      | startWriting => rfl
      | _ => exact h hstarted
  | leave hleave =>
      cases hleave with
      | deregister hphase =>
          rw [ProcInfo.deregister, ProcInfo.setCounter_writingStartedCondition]
          exact h (by simpa [ProcInfo.deregister] using hstarted)
      | _ => exact h hstarted
  | observe hphase hobserve => cases hobserve <;> exact h hstarted
  | linger hphase hobserve => cases hobserve <;> exact h hstarted
  | _ => exact h hstarted

/-- What holds in every run, however its processes are interrupted. -/
structure AnyRun (args : ι -> Args) (s : World ι) : Prop where
  roles : Roles args s
  linked : exists returned delivered, Linked s returned delivered
  signalled : Signalled s.segment
  placed : forall p, Placed (s.proc p)

omit [DecidableEq ι] in
theorem init_anyRun (args : ι -> Args) (buffers : Nat -> List UInt8) :
    AnyRun args (World.init buffers : World ι) where
  roles := init_roles args buffers
  linked := ⟨[], [], init_linked buffers⟩
  signalled := fun _ => rfl
  placed := fun _ => Process.new_placed

theorem AnyRun.next {args : ι -> Args} {s s' : World ι} {a : World.Action ι}
    (h : AnyRun args s) (hnext : World.next args a s = some s') : AnyRun args s' := by
  rcases a with ⟨me, event⟩
  have hroles := next_roles h.roles hnext
  rcases h.linked with ⟨returned, delivered, hlinked⟩
  rcases Option.map_eq_some_iff.mp hnext with ⟨⟨c, sh⟩, hprocess, rfl⟩
  have hstep := processStep_cases hprocess
  refine ⟨hroles, ?_, hstep.signalled h.signalled, ?_⟩
  · cases hstep.copyOrAside (h.roles.consistent me) with
    | reading reader pc hphase htype htool hreading =>
        exact ⟨_, _, hlinked.reading htool hreading⟩
    | writing writer pc hphase htype htool hwriting =>
        rcases hlinked.writing htool hwriting with ⟨writer', pc', htool', hlinked'⟩
        exact ⟨_, _, hlinked'⟩
    | aside haside => exact ⟨_, _, hlinked.aside haside⟩
  · have hplaced := hstep.placed (processStep_live hprocess) (h.roles.consistent me)
      (hlinked.typed me) (h.placed me)
    exact World.forall_move (P := fun _ p => Placed p) hplaced fun p _ => h.placed p

theorem AnyRun.run {args : ι -> Args} {guard : World ι -> World.Action ι -> Prop}
    {buffers : Nat -> List UInt8} {s : World ι}
    (hrun : Reaches (StepOf (World.next args)) guard (World.init buffers) s) :
    AnyRun args s :=
  Reaches.invariant (AnyRun args) (fun _ _ _ hx _ hnext => hx.next hnext) hrun
    (init_anyRun args buffers)

/-!
# Why a process in `copy` makes no step
-/

/-- A reader process in `copy` that cannot go on. -/
inductive ReaderBlocked (sh : Segment ι) (me : ι) (p : Process) : ReaderPc -> Prop where
  | waiting (hwaiting : me ∈ sh.procInfo.writingStartedCondition) :
      ReaderBlocked sh me p .waiting
  | asleep (hasleep : me ∈ sh.queue.cv) :
      ReaderBlocked sh me p (.read (.getFreeBuffer .blocked))
  | popEmpty : ReaderBlocked sh me p (.read .popEmpty)
  | mutex {pc : ReadPc} (hmutex : sh.queue.queueMutex ≠ none)
      (hnot : ¬ pc.client.call.holdsMutex) (hquiet : pc.client.call ≠ .notify) :
      ReaderBlocked sh me p (.read pc)
  | timer (htimer : p.timer.canStop = false) : ReaderBlocked sh me p .stopTimer

/-- A writer process in `copy` that cannot go on. -/
inductive WriterBlocked (sh : Segment ι) (me : ι) (p : Process) : WriterPc -> Prop where
  | asleep (hasleep : me ∈ sh.queue.cv) :
      WriterBlocked sh me p (.write (.getFilledBuffer .blocked))
  | popEmpty : WriterBlocked sh me p (.write .popEmpty)
  | mutex {pc : WriterPc} (hmutex : sh.queue.queueMutex ≠ none)
      (hnot : ¬ pc.client.call.holdsMutex) (hquiet : pc.client.call ≠ .notify) :
      WriterBlocked sh me p pc
  | timer (htimer : p.timer.canStop = false) : WriterBlocked sh me p .stopTimer

theorem readingStep_eq_none {src : List UInt8} {me : ι} {sh : Segment ι} {p : Process}
    {reader : BufferedReader} {pc : ReaderPc} (h : Placed p) (hphase : p.phase = .copy)
    (htyped : p.tool.Typed) (htool : p.tool = .reader reader pc)
    (hnone : readingStep src me Io.success sh p reader pc = none) :
    ReaderBlocked sh me p pc := by
  have hinside := h.inside hphase
  have hopened := h.opened hphase
  rw [htool] at hinside hopened htyped
  cases pc with
  | returned => exact absurd trivial hinside.left
  | threw held => exact absurd trivial hinside.right
  | waiting =>
      rw [readingStep] at hnone
      split at hnone
      · rename_i hwaiting
        exact ReaderBlocked.waiting hwaiting
      · cases hnone
  | stopTimer =>
      rw [readingStep] at hnone
      split at hnone
      · cases hnone
      · rename_i hbusy
        exact ReaderBlocked.timer (by simpa using hbusy)
  | openQueue =>
      rw [readingStep] at hnone
      split at hnone <;> cases hnone
  | read rpc =>
      have hready := reader_ready hopened htyped
      rcases readStep_eq_none hready (Option.map_eq_none_iff.mp hnone) with
        ⟨hmutex, hnot⟩ | rfl | ⟨rfl, hasleep⟩
      · refine ReaderBlocked.mutex hmutex hnot ?_
        intro hnotify
        cases rpc with
        | notifyAll => cases hnone
        | _ => cases hnotify
      · exact ReaderBlocked.popEmpty
      · exact ReaderBlocked.asleep hasleep
  | _ => cases hnone

theorem writingStep_eq_none {me : ι} {sh : Segment ι} {p : Process}
    {writer : BufferedFileWriter} {pc : WriterPc} (h : Placed p) (hphase : p.phase = .copy)
    (htyped : p.tool.Typed) (htool : p.tool = .writer writer pc)
    (hnone : writingStep me Io.success sh p writer pc = none) :
    WriterBlocked sh me p pc := by
  have hinside := h.inside hphase
  have hopened := h.opened hphase
  rw [htool] at hinside hopened htyped
  -- at the three tests of the queue nothing but the mutex can be missing
  have hmutex : forall pc : WriterPc, pc.client = { call := .idle, held := [] } ->
      sh.queue.queueMutex ≠ none -> WriterBlocked sh me p pc := by
    intro pc hidle htaken
    refine WriterBlocked.mutex htaken ?_ ?_
    · rw [hidle]
      exact id
    · rw [hidle]
      simp
  cases pc with
  | returned => exact absurd trivial hinside.left
  | threw => exact absurd trivial hinside.right
  | stopTimer =>
      rw [writingStep] at hnone
      split at hnone
      · cases hnone
      · rename_i hbusy
        exact WriterBlocked.timer (by simpa using hbusy)
  | checkFinished =>
      rw [writingStep] at hnone
      split at hnone
      · refine hmutex _ rfl ?_
        intro hfree
        simp [FixedBufferQueue.isReadFinished, hfree] at hnone
      · cases hnone
  | testFinished =>
      refine hmutex _ rfl ?_
      intro hfree
      simp [writingStep, FixedBufferQueue.isReadFinished, hfree] at hnone
  | testEmpty =>
      refine hmutex _ rfl ?_
      intro hfree
      simp [writingStep, FixedBufferQueue.isEmpty, hfree] at hnone
  | write wpc =>
      have hready := writer_ready hopened htyped
      rcases writeStep_eq_none hready (Option.map_eq_none_iff.mp hnone) with
        ⟨htaken, hnot⟩ | rfl | ⟨rfl, hasleep⟩
      · refine WriterBlocked.mutex htaken hnot ?_
        intro hnotify
        cases wpc with
        | notifyAll => cases hnone
        | _ => cases hnotify
      · exact WriterBlocked.popEmpty
      · exact WriterBlocked.asleep hasleep
  | _ => cases hnone

omit [DecidableEq ι] in
/-- A blocked reader is not about to notify, and holds the mutex only after an empty pop. -/
theorem ReaderBlocked.call {sh : Segment ι} {me : ι} {p : Process} {pc : ReaderPc}
    (h : ReaderBlocked sh me p pc) : pc.client.call ≠ .notify ∧
      (pc.client.call.holdsMutex -> pc.client.call = .popEmpty) := by
  cases h with
  | mutex hmutex hnot hquiet => exact ⟨hquiet, fun hholds => absurd hholds hnot⟩
  | popEmpty => exact ⟨by simp [ReaderPc.client, ReadPc.client], fun _ => rfl⟩
  | asleep hasleep => exact ⟨by simp [ReaderPc.client, ReadPc.client], False.elim⟩
  | _ => exact ⟨by simp [ReaderPc.client], False.elim⟩

omit [DecidableEq ι] in
theorem WriterBlocked.call {sh : Segment ι} {me : ι} {p : Process} {pc : WriterPc}
    (h : WriterBlocked sh me p pc) : pc.client.call ≠ .notify ∧
      (pc.client.call.holdsMutex -> pc.client.call = .popEmpty) := by
  cases h with
  | mutex hmutex hnot hquiet => exact ⟨hquiet, fun hholds => absurd hholds hnot⟩
  | popEmpty => exact ⟨by simp [WriterPc.client, WritePc.client], fun _ => rfl⟩
  | asleep hasleep => exact ⟨by simp [WriterPc.client, WritePc.client], False.elim⟩
  | timer htimer => exact ⟨by simp [WriterPc.client], False.elim⟩

/-!
# Processes that cannot go on
-/

/-- A process in `copy` that cannot go on. -/
inductive Blocked (s : World ι) (p : ι) : Prop where
  | reader {reader : BufferedReader} {pc : ReaderPc}
      (htool : (s.proc p).tool = .reader reader pc)
      (hblocked : ReaderBlocked s.segment p (s.proc p) pc) : Blocked s p
  | writer {writer : BufferedFileWriter} {pc : WriterPc}
      (htool : (s.proc p).tool = .writer writer pc)
      (hblocked : WriterBlocked s.segment p (s.proc p) pc) : Blocked s p

omit [DecidableEq ι] in
theorem Blocked.call {s : World ι} {p : ι} (h : Blocked s p) :
    (s.proc p).tool.client.call ≠ .notify ∧
      ((s.proc p).tool.client.call.holdsMutex ->
        (s.proc p).tool.client.call = .popEmpty) := by
  cases h with
  | reader htool hblocked =>
      rw [htool]
      exact hblocked.call
  | writer htool hblocked =>
      rw [htool]
      exact hblocked.call

theorem AnyRun.reader_blocked {args : ι -> Args} {s : World ι} (h : AnyRun args s)
    {p : ι} {reader : BufferedReader} {pc : ReaderPc}
    (hlive : (s.proc p).crashed = false) (hphase : (s.proc p).phase = .copy)
    (htype : (s.proc p).ipcToolType = .readerProcess)
    (htool : (s.proc p).tool = .reader reader pc)
    (hnone : World.next args (p, .run Io.success) s = none) :
    ReaderBlocked s.segment p (s.proc p) pc := by
  rcases h.linked with ⟨returned, delivered, hlinked⟩
  have hstep := Option.map_eq_none_iff.mp hnone
  simp only [processStep, hlive, hphase, copyStep, htype, htool] at hstep
  exact readingStep_eq_none (h.placed p) hphase (hlinked.typed p) htool hstep

theorem AnyRun.writer_blocked {args : ι -> Args} {s : World ι} (h : AnyRun args s)
    {p : ι} {writer : BufferedFileWriter} {pc : WriterPc}
    (hlive : (s.proc p).crashed = false) (hphase : (s.proc p).phase = .copy)
    (htype : (s.proc p).ipcToolType = .writerProcess)
    (htool : (s.proc p).tool = .writer writer pc)
    (hnone : World.next args (p, .run Io.success) s = none) :
    WriterBlocked s.segment p (s.proc p) pc := by
  rcases h.linked with ⟨returned, delivered, hlinked⟩
  have hstep := Option.map_eq_none_iff.mp hnone
  simp only [processStep, hlive, hphase, copyStep, htype, htool] at hstep
  exact writingStep_eq_none (h.placed p) hphase (hlinked.typed p) htool hstep

/-- Outside of `copy` a process that has been started waits for its observer alone. -/
theorem processStep_eq_none {args : Args} {me : ι} {sh : Segment ι} {p : Process}
    (hlive : p.crashed = false) (hattach : p.phase ≠ .attach)
    (hnone : processStep args me (.run Io.success) sh p = none) :
    p.phase = .gone ∨ p.phase = .copy ∨ p.phase = .joinTimer ∧ p.timer.canStop = false := by
  cases hphase : p.phase with
  | attach => exact absurd hphase hattach
  | copy => exact Or.inr (Or.inl rfl)
  | gone => exact Or.inl rfl
  | joinTimer =>
      refine Or.inr (Or.inr ⟨rfl, ?_⟩)
      simpa [processStep, hlive, hphase, leaveStep] using hnone
  | constructProcInfo => simp [processStep, hlive, hphase, startStep] at hnone
  | findProcInfo => simp [processStep, hlive, hphase, startStep] at hnone
  | getQueue =>
      simp only [processStep, hlive, hphase, startStep, Bool.false_eq_true,
        if_false] at hnone
      split at hnone <;> cases hnone
  | storeDst => simp [processStep, hlive, hphase, startStep] at hnone
  | decideType =>
      simp only [processStep, hlive, hphase, startStep, Bool.false_eq_true,
        if_false] at hnone
      split at hnone <;> cases hnone
  | register => simp [processStep, hlive, hphase, startStep] at hnone
  | deregister => simp [processStep, hlive, hphase, leaveStep] at hnone
  | readWriterCount =>
      simp only [processStep, hlive, hphase, leaveStep, Bool.false_eq_true,
        if_false] at hnone
      split at hnone <;> cases hnone
  | readReaderCount =>
      simp only [processStep, hlive, hphase, leaveStep, Bool.false_eq_true,
        if_false] at hnone
      split at hnone <;> cases hnone
  | removeObject => simp [processStep, hlive, hphase, leaveStep] at hnone

/--
A started process that makes no step has ended or crashed, is blocked in `copy`, or
waits for its observer.
-/
theorem AnyRun.blocked {args : ι -> Args} {s : World ι} (h : AnyRun args s) {p : ι}
    (hattach : (s.proc p).phase ≠ .attach)
    (hnone : World.next args (p, .run Io.success) s = none) :
    (s.proc p).phase = .gone ∨ (s.proc p).crashed = true ∨
      (s.proc p).phase = .copy ∧ Blocked s p ∨
      (s.proc p).phase = .joinTimer ∧ (s.proc p).timer.canStop = false := by
  cases hcrashed : (s.proc p).crashed with
  | true => exact Or.inr (Or.inl rfl)
  | false =>
      rcases processStep_eq_none hcrashed hattach (Option.map_eq_none_iff.mp hnone) with
        hgone | hphase | hjoining
      · exact Or.inl hgone
      · right
        right
        left
        refine ⟨hphase, ?_⟩
        cases htype : (s.proc p).ipcToolType with
        | readerProcess =>
            rcases h.roles.reader_tool htype with ⟨reader, pc, htool⟩
            exact Blocked.reader htool (h.reader_blocked hcrashed hphase htype htool hnone)
        | writerProcess =>
            rcases h.roles.writer_tool htype with ⟨writer, pc, htool⟩
            exact Blocked.writer htool (h.writer_blocked hcrashed hphase htype htool hnone)
        | invalid =>
            have hstep := Option.map_eq_none_iff.mp hnone
            simp [processStep, hcrashed, hphase, copyStep, htype] at hstep
      · exact Or.inr (Or.inr (Or.inr hjoining))

/-!
# Deadlocks
-/

/-- The main thread of a process makes no step, and its observer none that changes anything. -/
structure Stands (args : ι -> Args) (s : World ι) (p : ι) : Prop where
  run : World.next args (p, .run Io.success) s = none
  observe : forall s', World.next args (p, .observe) s = some s' -> s' = s

omit [DecidableEq ι] in
/-- The thread of a timer that cannot stop makes a step, unless it waits for the mutex. -/
theorem observerStep_busy {sh : Segment ι} {p : Process} (hbusy : p.timer.canStop = false)
    (hwaits : ¬ (p.timer = .expired ∧ sh.queue.queueMutex ≠ none)) :
    exists p' sh', observerStep sh p = some (p', sh') ∧ p'.timer ≠ p.timer := by
  cases htimer : p.timer with
  | off =>
      rw [htimer] at hbusy
      cases hbusy
  | watching =>
      rw [htimer] at hbusy
      cases hbusy
  | returned =>
      rw [htimer] at hbusy
      cases hbusy
  | removing => exact ⟨_, _, by simp only [observerStep, htimer]; rfl, by simp⟩
  | terminating =>
      by_cases hphase : p.phase = .copy
      · exact ⟨_, _, by simp only [observerStep, htimer, if_pos hphase]; rfl, by simp⟩
      · exact ⟨_, _, by simp only [observerStep, htimer, if_neg hphase]; rfl, by simp⟩
  | expired =>
      have hfree : sh.queue.queueMutex = none := by
        by_contra htaken
        exact hwaits ⟨htimer, htaken⟩
      cases htype : decide (p.ipcToolType = .readerProcess) with
      | true =>
          have hreader := of_decide_eq_true htype
          exact ⟨_, _, by simp only [observerStep, htimer, if_pos hreader]; rfl, by simp⟩
      | false =>
          have hwriter := of_decide_eq_false htype
          have hstep : observerStep sh p = some ({ p with timer :=
              if sh.queue.isReadFinished_ then .returned else .removing }, sh) := by
            simp [observerStep, htimer, hwriter, FixedBufferQueue.isReadFinished, hfree]
          refine ⟨_, _, hstep, ?_⟩
          cases hfinished : sh.queue.isReadFinished_ <;> simp

/-- The observer of a process that joins it waits for the mutex. -/
theorem Stands.timer {args : ι -> Args} {s : World ι} {p : ι} (h : Stands args s p)
    (hlive : (s.proc p).crashed = false)
    (hphase : (s.proc p).phase = .copy ∨ (s.proc p).phase = .joinTimer)
    (hbusy : (s.proc p).timer.canStop = false) :
    (s.proc p).timer = .expired ∧ s.segment.queue.queueMutex ≠ none := by
  by_contra hwaits
  rcases observerStep_busy hbusy hwaits with ⟨c, sh, hstep, hchanged⟩
  have hnext : World.next args (p, .observe) s = some (s.move p c sh) := by
    rcases hphase with hphase | hphase <;>
      simp [World.next, processStep, hlive, hphase, hstep]
  have hsame := h.observe _ hnext
  have hproc : c = s.proc p := by
    calc
      c = (s.move p c sh).proc p := (s.move_proc_self p c sh).symm
      _ = s.proc p := by rw [hsame]
  exact hchanged (by rw [hproc])

section Deadlock

variable {args : ι -> Args} {s : World ι}

omit [DecidableEq ι] in
/-- A sleeper's deque is empty, or somebody is about to notify. -/
theorem Linked.empty_or_notify {returned delivered : List Payload}
    (hlinked : Linked s returned delivered) {t : ι} {side : BufferType}
    (hcall : (s.proc t).tool.client.call = .get side .blocked)
    (hasleep : t ∈ s.segment.queue.cv) : s.segment.queue.dequeOf side = [] ∨
      exists u, (s.proc u).tool.client.call = .notify := by
  cases hdeque : s.segment.queue.dequeOf side with
  | nil => exact Or.inl rfl
  | cons b rest =>
      have hne : (s.clients returned delivered).queue.dequeOf side ≠ [] := by
        show s.segment.queue.dequeOf side ≠ []
        simp [hdeque]
      exact Or.inr (hlinked.clients.wakeup t side hasleep hcall hne)

end Deadlock

/-- No observation thread gets as far as `std::terminate`. -/
def World.NoTerminate (s : World ι) (a : World.Action ι) : Prop :=
  ¬ Terminates (s.proc a.1) a.2

omit [DecidableEq ι] in
instance World.decidableNoTerminate (s : World ι) (a : World.Action ι) :
    Decidable (s.NoTerminate a) :=
  inferInstanceAs (Decidable (¬ (_ ∧ _)))

end Common
end Ki
