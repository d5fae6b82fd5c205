import Ki.Common.IPCTool.Session

/-!
# A writer asleep for good

`close` notifies nobody, and the observer of a writer lets it go on once
`isReadFinished_` is set, even if the reader is gone without having closed the
queue.  A writer is left asleep in these two cases only.
-/

namespace Ki
namespace IPC

def Tool.atClose : Tool -> Bool
  | .reader _ .close => true
  | _ => false

/-- In the loop of `copy`. -/
def WriterPc.Looping : WriterPc -> Prop
  | .testFinished => True
  | .testEmpty => True
  | .write _ => True
  | _ => False

end IPC

namespace Common

open Foundation
open Queue
open FixedBufferQueue
open Clients
open Reader
open BufferedReader
open Writer
open BufferedFileWriter
open Stdio
open IPC
open IPCTool

variable {ι : Type} [DecidableEq ι]

/-!
# The two cases
-/

/-- The writer is in `getFilledBuffer`, asleep until it is notified. -/
def WriterAsleep (s : World ι) (w : ι) : Prop :=
  (s.proc w).phase = .copy ∧ IsWriter (s.proc w) ∧
    (s.proc w).tool.client.call = .get .write .blocked ∧ w ∈ s.segment.queue.cv

/-- The writer is asleep, or has made the test that sends it to sleep. -/
def WriterCommitted (s : World ι) (w : ι) : Prop :=
  (s.proc w).phase = .copy ∧ IsWriter (s.proc w) ∧
    ((s.proc w).tool.client.call = .get .write .wait ∨
      (s.proc w).tool.client.call = .get .write .blocked ∧ w ∈ s.segment.queue.cv)

instance (s : World ι) (w : ι) : Decidable (WriterAsleep s w) :=
  inferInstanceAs (Decidable (_ ∧ _ ∧ _ ∧ _))

instance (s : World ι) (w : ι) : Decidable (WriterCommitted s w) :=
  inferInstanceAs (Decidable (_ ∧ _ ∧ (_ ∨ _ ∧ _)))

/-- The reader has called `finishRead` and not yet `close`. -/
def Unclosed (q : FixedBufferQueue ι) : Prop :=
  q.isReadFinished_ = true ∧ q.isOpen = true

omit [DecidableEq ι] in
instance (q : FixedBufferQueue ι) : Decidable (Unclosed q) :=
  inferInstanceAs (Decidable (_ ∧ _))

/-- The reader does not close the queue while a writer is committed to sleep. -/
def ClosesAwake (s : World ι) (a : World.Action ι) : Prop :=
  a.2.isRun = true -> (s.proc a.1).phase = .copy -> IsReader (s.proc a.1) ->
    (s.proc a.1).tool.atClose = true -> forall w, ¬ WriterCommitted s w

/-- The reader is not interrupted, nor terminated, between `finishRead` and `close`. -/
def LeavesClosed (s : World ι) (a : World.Action ι) : Prop :=
  (s.proc a.1).phase = .copy -> IsReader (s.proc a.1) ->
    a.2 = .interrupt ∨ a.2 = .observe ∧ (s.proc a.1).timer = .terminating ->
    ¬ Unclosed s.segment.queue

instance (s : World Pid) (a : World.Action Pid) :
    Decidable (ClosesAwake s a) :=
  inferInstanceAs (Decidable (_ -> _ -> _ -> _ -> forall _ : Pid, ¬ _))

instance (s : World Pid) (a : World.Action Pid) :
    Decidable (LeavesClosed s a) :=
  inferInstanceAs (Decidable (_ -> _ -> _ ∨ _ ∧ _ -> ¬ _))

/--
The reader has left `copy`, the writer is asleep, and the observer of the writer
was never started, has ended, or will find `isReadFinished_` set.
-/
structure WriterStuck (s : World ι) (r w : ι) : Prop where
  reader : IsReader (s.proc r)
  gone : (s.proc r).phase ≠ .copy
  asleep : WriterAsleep s w
  unobserved : (s.proc w).timer = .off ∨ (s.proc w).timer = .returned ∨
    ((s.proc w).timer = .watching ∨ (s.proc w).timer = .expired) ∧
      s.segment.queue.isReadFinished_ = true

/-!
# The reader
-/

theorem ReaderFlags.throws {q q' : FixedBufferQueue ι}
    {reader reader' : BufferedReader} {me : ι} {io : Io} {pc : ReadPc}
    {held : List Buffer} (h : ReaderFlags q reader (.read pc))
    (hread : reader.readStep me io q pc = some (.threw held, reader', q')) :
    ¬ Unclosed q' := by
  generalize hr : ReadResult.threw held = r at hread
  cases readStep_cases hread with
  | getFreeBuffer hget =>
      cases getStep_cases hget with
      | nullopt hempty hclosed =>
          have hopen : q.isOpen = true := h.isOpen
          rw [hopen] at hclosed
          cases hclosed
      | _ => cases hr
  | setvbufFails buf hfails =>
      intro hunclosed
      have hfinished : q.isReadFinished_ = reader.readFinished := h.finished
      rw [hunclosed.left, h.early trivial] at hfinished
      cases hfinished
  | _ => cases hr

/-- A reader leaves by itself only before `finishRead` or after `close`. -/
theorem IPCTool.ReadingStep.leaves {src : List UInt8} {me : ι} {io : Io}
    {sh sh' : Segment ι} {p p' : Process} {reader : BufferedReader}
    {pc : ReaderPc} (h : ReaderFlags sh.queue reader pc) (hphase : p.phase = .copy)
    (hstep : ReadingStep src me io sh p reader pc p' sh')
    (hleft : p'.phase ≠ .copy) : ¬ Unclosed sh'.queue := by
  cases hstep with
  | openFails hfails =>
      intro hunclosed
      have hfinished : sh.queue.isReadFinished_ = reader.readFinished := h.finished
      rw [hunclosed.left, h.early trivial] at hfinished
      cases hfinished
  | @read rpc r reader' q hread =>
      cases r with
      | next rpc' => exact absurd hphase hleft
      | done => exact absurd hphase hleft
      | threw held => exact h.throws hread
  | stopTimer hstop =>
      intro hunclosed
      have hopen : sh.queue.isOpen = false := h.isOpen
      rw [hunclosed.right] at hopen
      cases hopen
  | _ => exact absurd hphase hleft

/-!
# The writer
-/

theorem IPCTool.WritingStep.committed {me : ι} {io : Io} {sh sh' : Segment ι}
    {p p' : Process} {writer : BufferedFileWriter} {pc : WriterPc}
    (htool : p.tool = .writer writer pc)
    (hopen : p.tool.client.call = .get .write .wait -> sh.queue.isOpen = true)
    (hstep : WritingStep me io sh p writer pc p' sh')
    (hcall : p'.tool.client.call = .get .write .wait ∨
      p'.tool.client.call = .get .write .blocked ∧ me ∈ sh'.queue.cv) :
    sh'.queue.isOpen = true := by
  cases hstep with
  | crash hnull =>
      have hidle : p.crash.tool = .writer writer .checkFinished := htool
      rw [hidle] at hcall
      rcases hcall with hcall | ⟨hcall, _⟩ <;> cases hcall
  | write hwrite =>
      rw [htool] at hopen
      cases writeStep_cases hwrite with
      | getFilledBuffer hget =>
          cases getStep_cases hget with
          | unready hpc hfree hempty hisOpen => exact hisOpen
          | sleep => exact hopen rfl
          | _ => rcases hcall with hcall | ⟨hcall, _⟩ <;> cases hcall
      | _ => rcases hcall with hcall | ⟨hcall, _⟩ <;> cases hcall
  | _ => rcases hcall with hcall | ⟨hcall, _⟩ <;> cases hcall

/-- A writer in its loop without an observer has seen `isReadFinished_`. -/
theorem IPCTool.WritingStep.observed {me : ι} {io : Io} {sh sh' : Segment ι}
    {p p' : Process} {writer writer' : BufferedFileWriter} {pc pc' : WriterPc}
    (htool : p.tool = .writer writer pc) (hphase' : p'.phase = .copy)
    (h : pc.Looping -> p.timer = .off ∨ p.timer = .returned ->
      sh.queue.isReadFinished_ = true)
    (hstep : WritingStep me io sh p writer pc p' sh')
    (htool' : p'.tool = .writer writer' pc') (hlooping : pc'.Looping)
    (htimer : p'.timer = .off ∨ p'.timer = .returned) :
    sh'.queue.isReadFinished_ = true := by
  cases hstep with
  | crash hnull =>
      cases htool.symm.trans htool'
      cases hlooping
  | checkFinished hfinished => exact hfinished
  | startObserver => rcases htimer with htimer | htimer <;> cases htimer
  | finished hfinished => exact hfinished
  | unfinished hunfinished => exact h trivial htimer
  | nonempty => exact h trivial htimer
  | @write wpc r writer'' q hwrite =>
      rw [writeStep_isReadFinished hwrite]
      apply h trivial
      cases r <;> exact htimer
  | stopTimer hstop => cases hphase'
  | _ =>
      cases htool'
      cases hlooping

theorem writeStep_cv {me t : ι} {io : Io} {writer writer' : BufferedFileWriter}
    {q q' : FixedBufferQueue ι} {pc : WritePc} {r : WriteResult}
    (hstep : writer.writeStep me io q pc = some (r, writer', q')) (ht : t ≠ me)
    (hmem : t ∈ q'.cv) : t ∈ q.cv := by
  cases writeStep_cases hstep with
  | getFilledBuffer hget => exact getStep_cv hget ht hmem
  | returnBuffer hreturn =>
      rcases returnBuffer_cases hreturn with ⟨_, rfl⟩
      simpa using hmem
  | notifyAll => cases hmem
  | fwrite hopen => exact hmem

/-!
# One process
-/

section Step

variable {args : Args} {me : ι} {event : Event} {sh sh' : Segment ι}
  {p p' : Process}

/-- No step puts another process to sleep. -/
theorem ProcessStep.cv (hconsistent : Consistent args p)
    (hstep : ProcessStep args me sh p event p' sh') {t : ι} (ht : t ≠ me)
    (hmem : t ∈ sh'.queue.cv) : t ∈ sh.queue.cv := by
  cases hstep.copyOrAside hconsistent with
  | reading reader pc hphase htype htool hreading =>
      cases hreading with
      | read hread => exact readStep_cv hread ht hmem
      | _ => exact hmem
  | writing writer pc hphase htype htool hwriting =>
      cases hwriting with
      | write hwrite => exact writeStep_cv hwrite ht hmem
      | _ => exact hmem
  | aside haside =>
      rw [haside.queue] at hmem
      exact hmem

/-- Only the reader's `close` closes the queue. -/
theorem ProcessStep.keepsOpen (hconsistent : Consistent args p)
    (hstep : ProcessStep args me sh p event p' sh')
    (hclose : event.isRun = true -> p.phase = .copy -> IsReader p ->
      p.tool.atClose = false)
    (hopen : sh.queue.isOpen = true) : sh'.queue.isOpen = true := by
  cases hstep.copyOrAside hconsistent with
  | reading reader pc hphase htype htool hreading =>
      cases hreading with
      | openQueue => rfl
      | read hread => exact (readStep_isOpen hread).trans hopen
      | close =>
          have hnot := hclose rfl hphase htype
          rw [htool] at hnot
          cases hnot
      | _ => exact hopen
  | writing writer pc hphase htype htool hwriting =>
      rw [hwriting.flags.left]
      exact hopen
  | aside haside =>
      rw [haside.queue]
      exact hopen

end Step

/-!
# All processes
-/

/-- What keeps a sleeping writer from being stuck. -/
structure Wakes (s : World ι) : Prop where
  left : forall r, IsReader (s.proc r) -> (s.proc r).phase ≠ .copy ->
    ¬ Unclosed s.segment.queue
  committed : forall w, WriterCommitted s w -> s.segment.queue.isOpen = true
  observed : forall w writer pc, IsWriter (s.proc w) -> (s.proc w).phase = .copy ->
    (s.proc w).tool = .writer writer pc -> pc.Looping ->
    (s.proc w).timer = .off ∨ (s.proc w).timer = .returned ->
    s.segment.queue.isReadFinished_ = true

omit [DecidableEq ι] in
theorem init_wakes (buffers : Nat -> List UInt8) :
    Wakes (World.init buffers : World ι) where
  left := nofun
  committed := by
    intro w hw
    cases hw.left
  observed := nofun

section Move

variable {args : ι -> Args} {s : World ι} {me : ι} {event : Event} {c : Process}
  {sh : Segment ι}

theorem Wakes.left_move (hs : Session args s) (h : Wakes s)
    (hguard : LeavesClosed s (me, event))
    (hstep : ProcessStep (args me) me s.segment (s.proc me) event c sh) {r : ι}
    (hr : IsReader ((s.move me c sh).proc r))
    (hphase : ((s.move me c sh).proc r).phase ≠ .copy) : ¬ Unclosed sh.queue := by
  have hconsistent := hs.roles.consistent me
  by_cases hrm : r = me
  · subst r
    rw [World.move_proc_self] at hr hphase
    cases hstep with
    | start hstart =>
        have htype := hconsistent.unregistered hstart.phase
        cases hstart with
        | register hregister htool hcount => exact absurd rfl hphase
        | reject hregister => exact absurd rfl hphase
        | _ => cases htype.symm.trans hr
    | @reading io p' sh' reader pc hcopy htype htool hreading =>
        exact hreading.leaves (hs.reader.flags me reader pc htype htool) hcopy hphase
    | writing hcopy htype htool hwriting =>
        cases ((hwriting.role hcopy).left.trans htype).symm.trans hr
    | invalid hcopy htype => cases htype.symm.trans hr
    | leave hleave =>
        rcases hleave.after_copy with ⟨hbefore, _, htype, _⟩
        have haside : Aside (args me) s.segment sh (s.proc me) c := hleave.aside
        rw [haside.queue]
        exact h.left me (htype.symm.trans hr) hbefore
    | interrupt hcopy => exact hguard hcopy hr (Or.inl rfl)
    | observe hcopy hobserve =>
        cases hobserve with
        | terminate htimer _ => exact hguard hcopy hr (Or.inr ⟨rfl, htimer⟩)
        | terminateLate _ hnot => exact absurd hcopy hnot
        | _ => exact absurd hcopy hphase
    | linger hlate hobserve =>
        have hbefore : (s.proc me).phase ≠ .copy := by
          rcases hlate with hlate | hlate <;> simp [hlate]
        rcases hobserve.lingers hbefore with ⟨timer, named, rfl, rfl⟩
        exact h.left me hr hbefore
  · rw [World.move_proc_of_ne s c sh hrm] at hr hphase
    have hbefore := h.left r hr hphase
    cases hstep.copyOrAside hconsistent with
    | reading reader pc hcopy htype htool hreading =>
        exact absurd (hs.reader.unique r me hr htype) hrm
    | writing writer pc hcopy htype htool hwriting =>
        rw [Unclosed, hwriting.flags.left, hwriting.flags.right]
        exact hbefore
    | aside haside =>
        rw [haside.queue]
        exact hbefore

theorem Wakes.committed_move (hs : Session args s) (h : Wakes s)
    (hguard : ClosesAwake s (me, event))
    (hstep : ProcessStep (args me) me s.segment (s.proc me) event c sh) {w : ι}
    (hw : WriterCommitted (s.move me c sh) w) : sh.queue.isOpen = true := by
  have hconsistent := hs.roles.consistent me
  rcases hw with ⟨hphase, htype, hcall⟩
  rw [World.move_segment] at hcall
  by_cases hwm : w = me
  · subst w
    rw [World.move_proc_self] at hphase htype hcall
    cases hstep.copyOrAside hconsistent with
    | reading reader pc hcopy hreader htool hreading =>
        cases ((hreading.role hcopy).left.trans hreader).symm.trans htype
    | writing writer pc hcopy hwriter htool hwriting =>
        refine hwriting.committed htool ?_ hcall
        intro hwait
        exact h.committed me ⟨hcopy, hwriter, Or.inl hwait⟩
    | aside haside =>
        rw [haside.client] at hcall
        rw [haside.queue] at hcall
        rw [haside.queue]
        rcases haside.registered hconsistent htype.type_ne with
          ⟨hsame, _⟩ | ⟨_, hregister, _, _, _⟩
        · have hwriter : IsWriter (s.proc me) := hsame.trans htype
          have hcopy : (s.proc me).phase = .copy := by
            by_contra hnot
            exact (hstep.after_copy hconsistent hwriter.type_ne hnot).left hphase
          exact h.committed me ⟨hcopy, hwriter, hcall⟩
        · rcases hconsistent.decided hregister with htool | ⟨dst, htool⟩
          · rw [htool] at hcall
            rcases hcall with hcall | ⟨hcall, _⟩ <;> cases hcall
          · rw [htool] at hcall
            rcases hcall with hcall | ⟨hcall, _⟩ <;> cases hcall
  · rw [World.move_proc_of_ne s c sh hwm] at hphase htype hcall
    have hbefore : WriterCommitted s w := by
      refine ⟨hphase, htype, ?_⟩
      rcases hcall with hwait | ⟨hblocked, hmem⟩
      · exact Or.inl hwait
      · exact Or.inr ⟨hblocked, hstep.cv hconsistent hwm hmem⟩
    apply hstep.keepsOpen hconsistent _ (h.committed w hbefore)
    intro hrun hcopy hreader
    by_contra hclose
    exact hguard hrun hcopy hreader (by simpa using hclose) w hbefore

theorem Wakes.observed_move (hs : Session args s) (h : Wakes s)
    (hstep : ProcessStep (args me) me s.segment (s.proc me) event c sh) {w : ι}
    {writer : BufferedFileWriter} {pc : WriterPc}
    (hw : IsWriter ((s.move me c sh).proc w))
    (hphase : ((s.move me c sh).proc w).phase = .copy)
    (htool : ((s.move me c sh).proc w).tool = .writer writer pc)
    (hlooping : pc.Looping)
    (htimer : ((s.move me c sh).proc w).timer = .off ∨
      ((s.move me c sh).proc w).timer = .returned) :
    sh.queue.isReadFinished_ = true := by
  have hconsistent := hs.roles.consistent me
  by_cases hwm : w = me
  · subst w
    rw [World.move_proc_self] at hw hphase htool htimer
    cases hstep with
    | start hstart =>
        have htype := hconsistent.unregistered hstart.phase
        cases hstart with
        | register hregister htype' hcount =>
            rcases hconsistent.decided_writer hregister htool with ⟨rfl, _⟩
            cases hlooping
        | reject hregister => cases hw
        | _ => cases htype.symm.trans hw
    | reading hcopy htype htool' hreading =>
        cases ((hreading.role hcopy).left.trans htype).symm.trans hw
    | @writing io p' sh' writer₀ pc₀ hcopy htype htool₀ hwriting =>
        exact hwriting.observed htool₀ hphase
          (h.observed me writer₀ pc₀ htype hcopy htool₀) htool hlooping htimer
    | invalid hcopy htype => cases hphase
    | leave hleave => exact absurd hphase hleave.after_copy.right.left
    | interrupt hcopy => cases hphase
    | observe hcopy hobserve =>
        cases hobserve with
        | sibling => exact h.observed me writer pc hw hcopy htool hlooping htimer
        | ignore htimer' hfinished => exact hfinished
        | terminate htimer' _ => cases hphase
        | terminateLate _ hnot => exact absurd hcopy hnot
        | _ => rcases htimer with htimer | htimer <;> cases htimer
    | linger hlate hobserve =>
        have hnot : (s.proc me).phase ≠ .copy := by
          rcases hlate with hlate | hlate <;> simp [hlate]
        rcases hobserve.lingers hnot with ⟨timer, named, rfl, rfl⟩
        exact absurd hphase hnot
  · rw [World.move_proc_of_ne s c sh hwm] at hw hphase htool htimer
    exact hstep.isReadFinished hconsistent
      (h.observed w writer pc hw hphase htool hlooping htimer)

theorem Wakes.move (hs : Session args s) (h : Wakes s)
    (hawake : ClosesAwake s (me, event)) (hclosed : LeavesClosed s (me, event))
    (hstep : ProcessStep (args me) me s.segment (s.proc me) event c sh) :
    Wakes (s.move me c sh) where
  left := fun _ hr hphase => h.left_move hs hclosed hstep hr hphase
  committed := fun _ hw => h.committed_move hs hawake hstep hw
  observed := fun _ _ _ hw hphase htool hlooping htimer =>
    h.observed_move hs hstep hw hphase htool hlooping htimer

end Move

omit [DecidableEq ι] in
theorem Wakes.not_stuck {args : ι -> Args} {s : World ι} (hs : Session args s)
    (h : Wakes s) (r w : ι) : ¬ WriterStuck s r w := by
  intro hstuck
  rcases hstuck.asleep with ⟨hphase, hw, hcall, hmem⟩
  have hopen := h.committed w ⟨hphase, hw, Or.inr ⟨hcall, hmem⟩⟩
  have hfinished : s.segment.queue.isReadFinished_ = true := by
    rcases hs.roles.writer_tool hw with ⟨writer, pc, htool⟩
    have hlooping : pc.Looping := by
      rw [htool] at hcall
      cases pc with
      | write wpc => trivial
      | _ => cases hcall
    rcases hstuck.unobserved with hoff | hreturned | ⟨_, hfinished⟩
    · exact h.observed w writer pc hw hphase htool hlooping (Or.inl hoff)
    · exact h.observed w writer pc hw hphase htool hlooping (Or.inr hreturned)
    · exact hfinished
  exact h.left r hstuck.reader hstuck.gone ⟨hfinished, hopen⟩

/-!
# Runs
-/

/-- The condition under which no writer stays asleep. -/
def WakesWriter (s : World ι) (a : World.Action ι) : Prop :=
  RegistersOnce .readerProcess s a ∧ ClosesAwake s a ∧ LeavesClosed s a

instance (s : World Pid) (a : World.Action Pid) :
    Decidable (WakesWriter s a) :=
  inferInstanceAs (Decidable (_ ∧ _ ∧ _))

/--
In every run with one reader that never closes the queue on a writer committed
to sleep, nor is interrupted between `finishRead` and `close`, no writer is
asleep for good after the reader has left.
-/
theorem writer_never_stuck (args : ι -> Args) (buffers : Nat -> List UInt8)
    (s : World ι) (r w : ι)
    (hrun : Reaches (StepOf (World.next args)) WakesWriter (World.init buffers) s) :
    ¬ WriterStuck s r w := by
  have hinv : Session args s ∧ Wakes s := by
    refine Reaches.invariant (fun x => Session args x ∧ Wakes x) ?_ hrun
      ⟨init_session args buffers, init_wakes buffers⟩
    intro x a x' hx hguard hnext
    rcases World.next_cases hnext with ⟨c, sh, rfl, hstep⟩
    exact ⟨hx.left.move hguard.left hstep,
      hx.right.move hx.left hguard.right.left hguard.right.right hstep⟩
  exact hinv.right.not_stuck hinv.left r w

/-- The reader is interrupted before it has read, on a writer that is asleep. -/
def interruptedEarly : List (World.Action Pid) :=
  World.turns .first 6 ++ World.turns .second 5 ++
    World.turns .first 4 ++ World.turns .second 7 ++
    [(.first, .interrupt), (.first, .run Io.success)]

theorem writer_never_stuck_interruptedEarly :
    exists s, exec (World.next (sources [1] [])) interruptedEarly
        (World.init fun _ => []) = some s ∧
      s.segment.procInfo.readerProcessCount = 0 ∧ WriterAsleep s .second ∧
      ¬ WriterStuck s .first .second := by
  have hview : (exec (World.next (sources [1] [])) interruptedEarly
      (World.init fun _ => [])).map (fun s =>
        (s.segment.procInfo.readerProcessCount, decide (WriterAsleep s .second))) =
      some (0, true) := by
    decide +kernel
  rcases Option.map_eq_some_iff.mp hview with ⟨s, hexec, hpcs⟩
  simp only [Prod.mk.injEq, decide_eq_true_eq] at hpcs
  exact ⟨s, hexec, hpcs.left, hpcs.right,
    writer_never_stuck (sources [1] []) _ s .first .second
      (reaches_of_exec interruptedEarly (by decide +kernel) hexec)⟩

/-- A concrete run to a state in which the unobserved writer is stuck. -/
theorem stuck_of_exec {schedule : List (World.Action Pid)}
    (hview : (exec (World.next (sources [1] [])) schedule (World.init fun _ => [])).map
      (fun s => (s.segment.procInfo.readerProcessCount, (s.proc .first).ipcToolType,
        (s.proc .first).phase, (s.proc .second).timer, decide (WriterAsleep s .second))) =
      some (0, .readerProcess, .readWriterCount, .off, true)) :
    exists s, exec (World.next (sources [1] [])) schedule
        (World.init fun _ => []) = some s ∧
      s.segment.procInfo.readerProcessCount = 0 ∧ WriterStuck s .first .second := by
  rcases Option.map_eq_some_iff.mp hview with ⟨s, hexec, hpcs⟩
  simp only [Prod.mk.injEq, decide_eq_true_eq] at hpcs
  rcases hpcs with ⟨hcount, hreader, hgone, htimer, hasleep⟩
  refine ⟨s, hexec, hcount, hreader, ?_, hasleep, Or.inl htimer⟩
  rw [hgone]
  simp

/-- The reader closes the queue on a writer that is asleep, and leaves. -/
def closedOnSleeper : List (World.Action Pid) :=
  World.turns .first 18 ++ World.turns .second 19 ++
    World.turns .first 5

theorem writer_stuck_after_close :
    exists s, exec (World.next (sources [1] [])) closedOnSleeper
        (World.init fun _ => []) = some s ∧
      s.segment.procInfo.readerProcessCount = 0 ∧ WriterStuck s .first .second :=
  stuck_of_exec (by decide +kernel)

/-- The reader is interrupted after `finishRead` and leaves the queue open. -/
def interruptedUnclosed : List (World.Action Pid) :=
  World.turns .first 18 ++ World.turns .second 5 ++
    [(.first, .interrupt)] ++ World.turns .first 2 ++
    World.turns .second 14

theorem writer_stuck_after_interrupt :
    exists s, exec (World.next (sources [1] [])) interruptedUnclosed
        (World.init fun _ => []) = some s ∧
      s.segment.procInfo.readerProcessCount = 0 ∧ WriterStuck s .first .second :=
  stuck_of_exec (by decide +kernel)

end Common
end Ki
