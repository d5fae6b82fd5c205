import Ki.Common.IPCTool.Flags

/-!
# One session on the segment

With one reader, a writer leaves its loop only when the reader has closed the
queue after its last chunk and the queue is empty, and it stays so.
-/

namespace Ki
namespace IPC

/-- Out of the loop of `copy`, by `break`. -/
def WriterPc.Left : WriterPc -> Prop
  | .stopTimer => True
  | .returned => True
  | _ => False

end IPC

namespace Common

open Foundation
open Queue
open FixedBufferQueue
open Reader
open BufferedReader
open Writer
open BufferedFileWriter
open Stdio
open IPC
open IPCTool

variable {ι : Type} [DecidableEq ι]

/-!
# The end of the data
-/

/-- Everything has been read, queued and taken. -/
structure Drained (q : FixedBufferQueue ι) : Prop where
  finished : q.isReadFinished_ = true
  closed : q.isOpen = false
  empty : q.writeBuffers = []

/-- The one reader does nothing more to a queue it has closed. -/
theorem IPCTool.ReadingStep.drained {src : List UInt8} {me : ι} {io : Io}
    {sh sh' : Segment ι} {p p' : Process} {reader : BufferedReader}
    {pc : ReaderPc} (hflags : ReaderFlags sh.queue reader pc)
    (h : Drained sh.queue) (hstep : ReadingStep src me io sh p reader pc p' sh') :
    Drained sh'.queue := by
  have hopen := hflags.isOpen
  rw [h.closed] at hopen
  cases hstep with
  | openQueue =>
      -- a reader that has not opened the queue has not finished reading
      have hfinished : sh.queue.isReadFinished_ = reader.readFinished :=
        hflags.finished
      rw [h.finished, hflags.early trivial] at hfinished
      cases hfinished
  | read hread => cases hopen
  | close => cases hopen
  | _ => exact h

theorem IPCTool.WritingStep.drained {me : ι} {io : Io} {sh sh' : Segment ι}
    {p p' : Process} {writer : BufferedFileWriter} {pc : WriterPc}
    (htool : p.tool = .writer writer pc) (htyped : p.tool.Typed)
    (h : Drained sh.queue) (hstep : WritingStep me io sh p writer pc p' sh') :
    Drained sh'.queue := by
  rw [htool] at htyped
  cases hstep with
  | write hwrite =>
      constructor
      · exact (writeStep_isReadFinished hwrite).trans h.finished
      · exact (writeStep_isOpen hwrite).trans h.closed
      · exact writeStep_writeBuffers (htyped _ rfl) hwrite h.empty
  | _ => exact h

theorem readStep_isReadFinished {me : ι} {io : Io}
    {reader reader' : BufferedReader} {q q' : FixedBufferQueue ι} {pc : ReadPc}
    {r : ReadResult} (hstep : reader.readStep me io q pc = some (r, reader', q'))
    (h : q.isReadFinished_ = true) : q'.isReadFinished_ = true := by
  cases readStep_cases hstep with
  | getFreeBuffer hget => exact (getStep_isReadFinished hget).trans h
  | finishRead buf hfree => rfl
  | returnBuffer hreturn =>
      rcases returnBuffer_cases hreturn with ⟨_, rfl⟩
      rw [setDeque_isReadFinished_]
      exact h
  | _ => exact h

/-- Once set, `isReadFinished_` stays set. -/
theorem ProcessStep.isReadFinished {args : Args} {me : ι} {event : Event}
    {sh sh' : Segment ι} {p p' : Process} (hconsistent : Consistent args p)
    (hstep : ProcessStep args me sh p event p' sh')
    (h : sh.queue.isReadFinished_ = true) : sh'.queue.isReadFinished_ = true := by
  cases hstep.copyOrAside hconsistent with
  | reading reader pc hphase htype htool hreading =>
      cases hreading with
      | read hread => exact readStep_isReadFinished hread h
      | _ => exact h
  | writing writer pc hphase htype htool hwriting =>
      rw [hwriting.flags.right]
      exact h
  | aside haside =>
      rw [haside.queue]
      exact h

/-- What the points of the writers say about the queue. -/
structure Drains (s : World ι) : Prop where
  testEmpty : forall w writer, IsWriter (s.proc w) ->
    (s.proc w).tool = .writer writer .testEmpty ->
    s.segment.queue.isReadFinished_ = true
  left : forall w writer pc, IsWriter (s.proc w) ->
    (s.proc w).tool = .writer writer pc -> pc.Left -> Drained s.segment.queue

omit [DecidableEq ι] in
theorem init_drains (buffers : Nat -> List UInt8) :
    Drains (World.init buffers : World ι) where
  testEmpty := by
    intro w writer hw
    cases hw
  left := by
    intro w writer pc hw
    cases hw

/-- A writer's step to `testEmpty`, or out of the loop. -/
theorem IPCTool.WritingStep.drains {me : ι} {io : Io} {sh sh' : Segment ι}
    {p p' : Process} {writer writer' : BufferedFileWriter} {pc pc' : WriterPc}
    (htool : p.tool = .writer writer pc)
    (htest : pc = .testEmpty -> sh.queue.isReadFinished_ = true)
    (hleft : pc.Left -> Drained sh.queue)
    (htool' : p'.tool = .writer writer' pc')
    (hstep : WritingStep me io sh p writer pc p' sh') :
    (pc' = .testEmpty -> sh'.queue.isReadFinished_ = true) ∧
      (pc'.Left -> Drained sh'.queue) := by
  cases hstep with
  | crash hnull =>
      cases htool.symm.trans htool'
      exact ⟨htest, hleft⟩
  | finished hfinished =>
      cases htool'
      exact ⟨fun _ => hfinished, False.elim⟩
  | empty hempty hclosed =>
      cases htool'
      exact ⟨fun _ => htest rfl, fun _ => ⟨htest rfl, hclosed, hempty⟩⟩
  | stopTimer hstop =>
      cases htool'
      exact ⟨nofun, fun _ => hleft trivial⟩
  | @write wpc r writer'' q hwrite =>
      cases r <;> cases htool' <;> exact ⟨nofun, False.elim⟩
  | _ =>
      cases htool'
      exact ⟨nofun, False.elim⟩

/-!
# Runs with one reader
-/

/-- What holds in every run with one reader. -/
structure Session (args : ι -> Args) (s : World ι) : Prop where
  roles : Roles args s
  reader : OneReader s
  typed : forall p, (s.proc p).tool.Typed
  drains : Drains s

omit [DecidableEq ι] in
theorem init_session (args : ι -> Args) (buffers : Nat -> List UInt8) :
    Session args (World.init buffers : World ι) where
  roles := init_roles args buffers
  reader := init_oneReader buffers
  typed := fun _ => trivial
  drains := init_drains buffers

theorem ProcessStep.typed {args : Args} {me : ι} {event : Event}
    {sh sh' : Segment ι} {p p' : Process} (hconsistent : Consistent args p)
    (htyped : p.tool.Typed) (hstep : ProcessStep args me sh p event p' sh') :
    p'.tool.Typed := by
  cases hstep.copyOrAside hconsistent with
  | reading reader pc hphase htype htool hreading => exact hreading.typed htool htyped
  | writing writer pc hphase htype htool hwriting => exact hwriting.typed htool htyped
  | aside haside => exact haside.typed htyped

/-- A process decides to be a writer only while a reader is registered. -/
theorem ProcessStep.decides_writer {args : Args} {me : ι} {event : Event}
    {sh sh' : Segment ι} {p p' : Process}
    (hstep : ProcessStep args me sh p event p' sh')
    (htool : p'.tool.toolType = .writerProcess) :
    p.tool.toolType = .writerProcess ∨ sh.procInfo.counter .readerProcess ≠ 0 := by
  cases hstep with
  | start hstart =>
      cases hstart with
      | decideReader hphase hcount => cases htool
      | decideWriter hphase hcount =>
          right
          exact Nat.ne_of_gt (Nat.zero_lt_of_lt hcount)
      | _ => exact Or.inl htool
  | reading hphase htype htool' hreading =>
      have hreader := hreading.tool (by rw [htool']; rfl)
      cases hreader.symm.trans htool
  | writing hphase htype htool' hwriting =>
      left
      rw [htool']
      rfl
  | leave hleave =>
      left
      cases hleave <;> exact htool
  | observe hphase hobserve =>
      left
      cases hobserve <;> exact htool
  | linger hphase hobserve =>
      left
      cases hobserve <;> exact htool
  | invalid hphase htype => exact Or.inl htool
  | interrupt hphase => exact Or.inl htool

omit [DecidableEq ι] in
/-- The destructors come after `copy` and leave the tool alone. -/
theorem LeaveStep.after_copy {sh sh' : Segment ι} {p p' : Process}
    (h : LeaveStep sh p p' sh') : p.phase ≠ .copy ∧ p'.phase ≠ .copy ∧
      p'.ipcToolType = p.ipcToolType ∧ p'.tool = p.tool := by
  cases h <;> simp_all

/-- A process that has left `copy` keeps its tool. -/
theorem ProcessStep.after_copy {args : Args} {me : ι} {event : Event}
    {sh sh' : Segment ι} {p p' : Process} (hconsistent : Consistent args p)
    (hstep : ProcessStep args me sh p event p' sh') (hp : p.ipcToolType ≠ .invalid)
    (hphase : p.phase ≠ .copy) : p'.phase ≠ .copy ∧ p'.tool = p.tool := by
  cases hstep with
  | start hstart => exact absurd (hconsistent.unregistered hstart.phase) hp
  | leave hleave =>
      rcases hleave.after_copy with ⟨_, hleft, _, htool⟩
      exact ⟨hleft, htool⟩
  | reading hcopy => exact absurd hcopy hphase
  | writing hcopy => exact absurd hcopy hphase
  | invalid hcopy => exact absurd hcopy hphase
  | interrupt hcopy => exact absurd hcopy hphase
  | observe hcopy => exact absurd hcopy hphase
  | linger hleaving hobserve =>
      rcases hobserve.lingers hphase with ⟨timer, named, rfl, rfl⟩
      exact ⟨hphase, rfl⟩

section Move

variable {args : ι -> Args} {s : World ι} {me : ι} {event : Event} {c : Process}
  {sh : Segment ι}

theorem Session.drained (h : Session args s)
    (hstep : ProcessStep (args me) me s.segment (s.proc me) event c sh)
    (hdrained : Drained s.segment.queue) : Drained sh.queue := by
  cases hstep.copyOrAside (h.roles.consistent me) with
  | reading reader pc hphase htype htool hreading =>
      exact hreading.drained (h.reader.flags me reader pc htype htool) hdrained
  | writing writer pc hphase htype htool hwriting =>
      exact hwriting.drained htool (h.typed me) hdrained
  | aside haside =>
      rw [haside.queue]
      exact hdrained

/-- A writer that does not move in this step. -/
theorem Session.drains_still (h : Session args s)
    (hstep : ProcessStep (args me) me s.segment (s.proc me) event c sh)
    {w : ι} {writer : BufferedFileWriter} {pc : WriterPc}
    (hw : IsWriter (s.proc w)) (htool : (s.proc w).tool = .writer writer pc) :
    (pc = .testEmpty -> sh.queue.isReadFinished_ = true) ∧
      (pc.Left -> Drained sh.queue) := by
  constructor
  · intro hpc
    rw [hpc] at htool
    exact hstep.isReadFinished (h.roles.consistent me)
      (h.drains.testEmpty w writer hw htool)
  · intro hleft
    exact h.drained hstep (h.drains.left w writer pc hw htool hleft)

theorem Session.drains_move (h : Session args s)
    (hstep : ProcessStep (args me) me s.segment (s.proc me) event c sh)
    {w : ι} {writer : BufferedFileWriter} {pc : WriterPc}
    (hw : IsWriter ((s.move me c sh).proc w))
    (htool : ((s.move me c sh).proc w).tool = .writer writer pc) :
    (pc = .testEmpty -> sh.queue.isReadFinished_ = true) ∧
      (pc.Left -> Drained sh.queue) := by
  have hconsistent := h.roles.consistent me
  cases hstep.copyOrAside hconsistent with
  | reading reader rpc hphase htype htool' hreading =>
      have hreader := (hreading.role hphase).left.trans htype
      have hother := move_proc_of_type (by rw [hreader]; simp) hw
      rw [hother.right] at hw htool
      exact h.drains_still hstep hw htool
  | writing writer₀ pc₀ hphase htype htool₀ hwriting =>
      by_cases hwm : w = me
      · subst w
        rw [World.move_proc_self] at htool
        apply hwriting.drains htool₀ _ _ htool
        · intro hpc
          rw [hpc] at htool₀
          exact h.drains.testEmpty me writer₀ htype htool₀
        · exact h.drains.left me writer₀ pc₀ htype htool₀
      · rw [World.move_proc_of_ne s c sh hwm] at hw htool
        exact h.drains_still hstep hw htool
  | aside haside =>
      rcases haside.origin hconsistent (by simp) hw with
        ⟨hw', hsame⟩ | ⟨rfl, hsame, hphase, htype, _⟩
      · rw [hsame] at htool
        exact h.drains_still hstep hw' htool
      · -- just registered, the writer has not created its file yet
        rw [World.move_proc_self, hsame] at htool
        rcases hconsistent.decided_writer hphase htool with ⟨rfl, _⟩
        exact ⟨nofun, False.elim⟩

theorem Session.move (h : Session args s)
    (honce : RegistersOnce .readerProcess s (me, event))
    (hstep : ProcessStep (args me) me s.segment (s.proc me) event c sh) :
    Session args (s.move me c sh) where
  roles := h.roles.move (hstep.consistent (h.roles.consistent me))
    (hstep.role (h.roles.consistent me))
  reader := h.reader.move h.roles honce hstep
  typed := World.forall_move (P := fun _ p => p.tool.Typed)
    (hstep.typed (h.roles.consistent me) (h.typed me)) (fun p _ => h.typed p)
  drains := by
    constructor
    · intro w writer hw htool
      exact (h.drains_move hstep hw htool).left rfl
    · intro w writer pc hw htool
      exact (h.drains_move hstep hw htool).right

end Move

end Common
end Ki
