import Ki.Common.IPCTool.Session

/-!
# The handshake between reader and writer

A reader returns from `copy` only after it has seen `isWritingStarted`.  The flag
outlives the session it was set in, so a second reader on the same segment may
see it before any writer of its own has started.  With one reader the flag tells
the truth: a writer is registered until it has taken everything.
-/

namespace Ki
namespace IPC

/-- The writer has set `isWritingStarted`. -/
def WriterPc.Announced : WriterPc -> Prop
  | .create => False
  | .startWriting => False
  | .threw => False
  | _ => True

/-- The reader has seen `isWritingStarted`. -/
def ReaderPc.Passed : ReaderPc -> Prop
  | .stopTimer => True
  | .returned => True
  | _ => False

end IPC

namespace Common

open Foundation
open Queue
open Reader
open BufferedReader
open Writer
open BufferedFileWriter
open Stdio
open IPC
open IPCTool

variable {ι : Type} [DecidableEq ι]

/-!
# One process
-/

/-- The process is registered as writer, or was, and has set `isWritingStarted`. -/
def HasAnnounced (p : Process) : Prop :=
  IsWriter p ∧ exists writer pc, p.tool = .writer writer pc ∧ pc.Announced

theorem IPCTool.WritingStep.announced {me : ι} {io : Io} {sh sh' : Segment ι}
    {p p' : Process} {writer : BufferedFileWriter} {pc : WriterPc}
    (htool : p.tool = .writer writer pc) (hpc : pc.Announced)
    (hstep : WritingStep me io sh p writer pc p' sh') :
    exists writer' pc', p'.tool = .writer writer' pc' ∧ pc'.Announced := by
  cases hstep with
  | createFails hfails => cases hpc
  | create => cases hpc
  | crash hnull => exact ⟨_, _, htool, trivial⟩
  | @write wpc r writer' q hwrite =>
      cases r with
      | next pc' => exact ⟨_, _, rfl, trivial⟩
      | done => exact ⟨_, _, rfl, trivial⟩
  | _ => exact ⟨_, _, rfl, trivial⟩

theorem ProcessStep.announced {args : Args} {me : ι} {event : Event}
    {sh sh' : Segment ι} {p p' : Process} (hconsistent : Consistent args p)
    (hstep : ProcessStep args me sh p event p' sh') (h : HasAnnounced p) :
    HasAnnounced p' := by
  rcases h with ⟨hp, writer, pc, htool, hpc⟩
  refine ⟨(hstep.keeps_type hconsistent hp.type_ne).trans hp, ?_⟩
  cases hstep.copyOrAside hconsistent with
  | reading reader rpc hphase htype htool' hreading =>
      cases htype.symm.trans hp
  | writing writer₀ pc₀ hphase htype htool₀ hwriting =>
      cases htool.symm.trans htool₀
      exact hwriting.announced htool hpc
  | aside haside =>
      rw [(haside.keeps hconsistent hp.type_ne).right]
      exact ⟨writer, pc, htool, hpc⟩

/-- Only a writer sets `isWritingStarted`. -/
theorem ProcessStep.started {args : Args} {me : ι} {event : Event}
    {sh sh' : Segment ι} {p p' : Process} (hconsistent : Consistent args p)
    (hstep : ProcessStep args me sh p event p' sh')
    (h : sh'.procInfo.isWritingStarted = true) :
    sh.procInfo.isWritingStarted = true ∨ HasAnnounced p' := by
  cases hstep.copyOrAside hconsistent with
  | reading reader pc hphase htype htool hreading =>
      left
      cases hreading <;> exact h
  | writing writer pc hphase htype htool hwriting =>
      have hkept := (hwriting.role hphase).left.trans htype
      cases hwriting with
      | startWriting =>
          right
          exact ⟨hkept, _, _, rfl, trivial⟩
      | _ =>
          left
          exact h
  | aside haside => exact Or.inl (haside.started h)

/-- A reader passes only if the flag is set. -/
theorem IPCTool.ReadingStep.passed {src : List UInt8} {me : ι} {io : Io}
    {sh sh' : Segment ι} {p p' : Process} {reader reader' : BufferedReader}
    {pc pc' : ReaderPc} (htool : p.tool = .reader reader pc)
    (hstep : ReadingStep src me io sh p reader pc p' sh')
    (htool' : p'.tool = .reader reader' pc') (hpassed : pc'.Passed) :
    pc.Passed ∨ sh.procInfo.isWritingStarted = true := by
  cases hstep with
  | crash hnull =>
      cases htool.symm.trans htool'
      exact Or.inl hpassed
  | started hpc hstarted => exact Or.inr hstarted
  | stopTimer hstop => exact Or.inl trivial
  | @read rpc r reader'' q hread => cases r <;> cases htool' <;> cases hpassed
  | _ =>
      cases htool'
      cases hpassed

/-!
# The observer of a writer
-/

/-- What a step does to the observation thread of a writer. -/
inductive TimerStep (sh : Segment ι) (p p' : Process) : Prop where
  | same (hp : IsWriter p) (htimer : p'.timer = p.timer)
  | quiet (htimer : p'.timer = .off ∨ p'.timer = .watching)
  | expire (hp : IsWriter p) (hcount : sh.procInfo.counter .readerProcess = 0)
      (htimer : p'.timer = .expired)
  | callback (hp : IsWriter p) (hexpired : p.timer = .expired)
      (hunfinished : sh.queue.isReadFinished_ = false) (htimer : p'.timer = .removing)
  | ignore (hfinished : sh.queue.isReadFinished_ = true) (htimer : p'.timer = .returned)
  | remove (hp : IsWriter p) (hremoving : p.timer = .removing)
      (htimer : p'.timer = .terminating)

theorem IPCTool.WritingStep.timer {me : ι} {io : Io} {sh sh' : Segment ι}
    {p p' : Process} {writer : BufferedFileWriter} {pc : WriterPc}
    (hp : IsWriter p) (hstep : WritingStep me io sh p writer pc p' sh') :
    TimerStep sh p p' := by
  cases hstep with
  | startObserver => exact TimerStep.quiet (Or.inr rfl)
  | stopTimer hstop => exact TimerStep.quiet (Or.inl rfl)
  | @write wpc r writer' q hwrite => cases r <;> exact TimerStep.same hp rfl
  | _ => exact TimerStep.same hp rfl

omit [DecidableEq ι] in
theorem IPCTool.ObserverStep.timer {sh sh' : Segment ι} {p p' : Process}
    (hp : IsWriter p) (hstep : ObserverStep sh p p' sh') : TimerStep sh p p' := by
  cases hstep with
  | sibling => exact TimerStep.same hp rfl
  | expire htimer hcount =>
      rw [hp] at hcount
      exact TimerStep.expire hp hcount rfl
  | callback htimer hremove =>
      rcases hremove with hreader | hunfinished
      · cases hreader.symm.trans hp
      · exact TimerStep.callback hp htimer hunfinished rfl
  | ignore htimer hfinished => exact TimerStep.ignore hfinished rfl
  | remove htimer => exact TimerStep.remove hp htimer rfl
  | terminate htimer hphase => exact TimerStep.quiet (Or.inl rfl)
  | terminateLate htimer hphase => exact TimerStep.quiet (Or.inl rfl)

theorem ProcessStep.timer {args : Args} {me : ι} {event : Event}
    {sh sh' : Segment ι} {p p' : Process} (hconsistent : Consistent args p)
    (hstep : ProcessStep args me sh p event p' sh') (hp' : IsWriter p') :
    TimerStep sh p p' := by
  have hregistered : p.ipcToolType ≠ .invalid -> IsWriter p := by
    intro hp
    exact (hstep.keeps_type hconsistent hp).symm.trans hp'
  cases hstep with
  | start hstart =>
      have htimer := hconsistent.unobserved hstart.phase
      apply TimerStep.quiet
      left
      cases hstart <;> exact htimer
  | reading hphase htype htool hreading =>
      cases htype.symm.trans (hregistered (by rw [htype]; simp))
  | writing hphase htype htool hwriting => exact hwriting.timer htype
  | invalid hphase htype => exact TimerStep.same hp' rfl
  | leave hleave =>
      cases hleave with
      | joinTimer hphase hstop => exact TimerStep.quiet (Or.inl rfl)
      | _ => exact TimerStep.same hp' rfl
  | interrupt hphase => exact TimerStep.same hp' rfl
  | observe hphase hobserve =>
      have hp : IsWriter p := by
        rw [IsWriter, ← (hobserve.role hphase).left]
        exact hp'
      exact hobserve.timer hp
  | linger hphase hobserve =>
      have hp : IsWriter p := by
        rcases (Lingers.of_observer hphase hobserve).same with ⟨timer, named, rfl, rfl⟩
        exact hp'
      exact hobserve.timer hp

/-- The main thread of the process ends `copy` by returning only. -/
def Uncrashed : Event -> Prop
  | .run io => io.fails = false
  | .interrupt => False
  | .observe => True

instance (event : Event) : Decidable (Uncrashed event) :=
  match event with
  | .run io => inferInstanceAs (Decidable (io.fails = false))
  | .interrupt => inferInstanceAs (Decidable False)
  | .observe => inferInstanceAs (Decidable True)

/-- How an uncrashed writer can be outside of `copy`. -/
theorem ProcessStep.writer_stays {args : Args} {me : ι} {event : Event}
    {sh sh' : Segment ι} {p p' : Process} {writer : BufferedFileWriter}
    {pc : WriterPc} (hconsistent : Consistent args p) (huncrashed : Uncrashed event)
    (hstep : ProcessStep args me sh p event p' sh') (hp' : IsWriter p')
    (htool : p'.tool = .writer writer pc) :
    p'.phase = .copy ∨ pc = .returned ∨
      IsWriter p ∧ (p.timer = .terminating ∨
        p.phase ≠ .copy ∧ p.tool = .writer writer pc) := by
  cases hstep with
  | start hstart =>
      left
      have htype := hconsistent.unregistered hstart.phase
      cases hstart with
      | register hphase htool' hcount => rfl
      | reject hphase => rfl
      | _ => cases htype.symm.trans hp'
  | reading hphase htype htool' hreading =>
      cases ((hreading.role hphase).left.trans htype).symm.trans hp'
  | writing hphase htype htool' hwriting =>
      cases hwriting with
      | createFails hfails =>
          rw [show _ = false from huncrashed] at hfails
          cases hfails
      | stopTimer hstop =>
          cases htool
          exact Or.inr (Or.inl rfl)
      | @write wpc r writer' q hwrite => cases r <;> exact Or.inl hphase
      | _ => exact Or.inl hphase
  | invalid hphase htype => cases htype.symm.trans hp'
  | leave hleave =>
      rcases hleave.after_copy with ⟨hphase, _, htype, hsame⟩
      exact Or.inr (Or.inr ⟨htype.symm.trans hp',
        Or.inr ⟨hphase, hsame.symm.trans htool⟩⟩)
  | interrupt hphase => cases huncrashed
  | observe hphase hobserve =>
      cases hobserve with
      | terminate htimer => exact Or.inr (Or.inr ⟨hp', Or.inl htimer⟩)
      | _ => exact Or.inl hphase
  | linger hphase hobserve =>
      have hlingers := Lingers.of_observer hphase hobserve
      rcases hlingers.same with ⟨timer, named, rfl, rfl⟩
      have hleft : p.phase ≠ .copy := by
        rcases hphase with hphase | hphase <;> simp [hphase]
      exact Or.inr (Or.inr ⟨hp', Or.inr ⟨hleft, htool⟩⟩)

/-!
# All processes
-/

/-- The one reader has left `copy` without returning from it. -/
def ReaderLost (s : World ι) : Prop :=
  exists r reader pc, IsReader (s.proc r) ∧ (s.proc r).phase ≠ .copy ∧
    (s.proc r).tool = .reader reader pc ∧ pc ≠ .returned

/-- The flag, the observers and the writers outside of `copy`. -/
structure Handshake (s : World ι) : Prop where
  started : s.segment.procInfo.isWritingStarted = true ->
    exists w, HasAnnounced (s.proc w)
  passed : forall r reader pc, IsReader (s.proc r) ->
    (s.proc r).tool = .reader reader pc -> pc.Passed ->
    exists w, HasAnnounced (s.proc w)
  hasReader : forall w, (s.proc w).tool.toolType = .writerProcess ->
    exists r, IsReader (s.proc r)
  expired : forall w, IsWriter (s.proc w) ->
    (s.proc w).timer = .expired ->
    exists r, IsReader (s.proc r) ∧ (s.proc r).phase ≠ .copy
  removing : forall w, IsWriter (s.proc w) ->
    (s.proc w).timer = .removing ∨ (s.proc w).timer = .terminating -> ReaderLost s
  stays : forall w writer pc, IsWriter (s.proc w) ->
    (s.proc w).tool = .writer writer pc ->
    (s.proc w).phase = .copy ∨ pc = .returned ∨ ReaderLost s

omit [DecidableEq ι] in
theorem init_handshake (buffers : Nat -> List UInt8) :
    Handshake (World.init buffers : World ι) where
  started := nofun
  passed := nofun
  hasReader := nofun
  expired := nofun
  removing := nofun
  stays := nofun

section Move

variable {args : ι -> Args} {s : World ι} {me : ι} {event : Event} {c : Process}
  {sh : Segment ι}

theorem Roles.announced_move (h : Roles args s)
    (hstep : ProcessStep (args me) me s.segment (s.proc me) event c sh)
    (hsome : exists w, HasAnnounced (s.proc w)) :
    exists w, HasAnnounced ((s.move me c sh).proc w) := by
  rcases hsome with ⟨w, hw⟩
  exists w
  exact World.forall_move (P := fun w p => HasAnnounced (s.proc w) -> HasAnnounced p)
    (hstep.announced (h.consistent me)) (fun _ _ => id) w hw

/-- A reader that has left `copy` stays as it is. -/
theorem Roles.left_move (h : Roles args s)
    (hstep : ProcessStep (args me) me s.segment (s.proc me) event c sh) {r : ι}
    (hr : IsReader (s.proc r)) (hphase : (s.proc r).phase ≠ .copy) :
    IsReader ((s.move me c sh).proc r) ∧ ((s.move me c sh).proc r).phase ≠ .copy ∧
      ((s.move me c sh).proc r).tool = (s.proc r).tool := by
  refine ⟨(h.keeps_type hstep hr.type_ne).trans hr, ?_⟩
  exact World.forall_move
    (P := fun r p => IsReader (s.proc r) -> (s.proc r).phase ≠ .copy ->
      p.phase ≠ .copy ∧ p.tool = (s.proc r).tool)
    (fun hr hphase => hstep.after_copy (h.consistent me) hr.type_ne hphase)
    (fun _ _ _ hphase => ⟨hphase, rfl⟩) r hr hphase

theorem Roles.lost_move (h : Roles args s)
    (hstep : ProcessStep (args me) me s.segment (s.proc me) event c sh)
    (hlost : ReaderLost s) : ReaderLost (s.move me c sh) := by
  rcases hlost with ⟨r, reader, pc, hr, hphase, htool, hpc⟩
  rcases h.left_move hstep hr hphase with ⟨hr', hphase', htool'⟩
  exact ⟨r, reader, pc, hr', hphase', htool'.trans htool, hpc⟩

omit [DecidableEq ι] in
/-- A reader that has returned has raised `isReadFinished_` before. -/
theorem OneReader.finished_of_returned (h : OneReader s) {r : ι}
    {reader : BufferedReader} (hr : IsReader (s.proc r))
    (htool : (s.proc r).tool = .reader reader .returned) :
    s.segment.queue.isReadFinished_ = true := by
  have hflags := h.flags r reader .returned hr htool
  rw [hflags.finished]
  exact hflags.late trivial

omit [DecidableEq ι] in
/-- With the reader's counter at zero, the one reader has left. -/
theorem Roles.left_of_counter (h : Roles args s) {r : ι} (hr : IsReader (s.proc r))
    (hcount : s.segment.procInfo.counter .readerProcess = 0) :
    (s.proc r).phase ≠ .copy := by
  intro hphase
  have hone := h.counter_eq_one (by simp) (p := r) ⟨hr, Or.inl hphase⟩
  rw [hcount] at hone
  cases hone

theorem Handshake.passed_move (hs : Session args s) (h : Handshake s)
    (hstep : ProcessStep (args me) me s.segment (s.proc me) event c sh) {r : ι}
    {reader : BufferedReader} {pc : ReaderPc}
    (hr : IsReader ((s.move me c sh).proc r))
    (htool : ((s.move me c sh).proc r).tool = .reader reader pc)
    (hpassed : pc.Passed) : exists w, HasAnnounced ((s.move me c sh).proc w) := by
  have hconsistent := hs.roles.consistent me
  have hbefore : forall r' reader' pc', IsReader (s.proc r') ->
      (s.proc r').tool = .reader reader' pc' -> pc'.Passed ->
      exists w, HasAnnounced ((s.move me c sh).proc w) := by
    intro r' reader' pc' hr' htool' hpassed'
    exact hs.roles.announced_move hstep (h.passed r' reader' pc' hr' htool' hpassed')
  cases hstep.copyOrAside hconsistent with
  | reading reader₀ pc₀ hphase htype htool₀ hreading =>
      by_cases hrm : r = me
      · subst r
        rw [World.move_proc_self] at htool
        rcases hreading.passed htool₀ htool hpassed with hpassed₀ | hflag
        · exact hbefore me reader₀ pc₀ htype htool₀ hpassed₀
        · exact hs.roles.announced_move hstep (h.started hflag)
      · rw [World.move_proc_of_ne s c sh hrm] at hr htool
        exact hbefore r reader pc hr htool hpassed
  | writing writer pc₀ hphase htype htool₀ hwriting =>
      have hwriter := (hwriting.role hphase).left.trans htype
      have hother := move_proc_of_type (by rw [hwriter]; simp) hr
      rw [hother.right] at hr htool
      exact hbefore r reader pc hr htool hpassed
  | aside haside =>
      rcases haside.origin hconsistent (by simp) hr with
        ⟨hr', hsame⟩ | ⟨rfl, hsame, hphase, htype, _⟩
      · rw [hsame] at htool
        exact hbefore r reader pc hr' htool hpassed
      · rw [World.move_proc_self, hsame] at htool
        rcases hconsistent.decided_reader hphase htool with ⟨_, rfl⟩
        cases hpassed

theorem Handshake.hasReader_move (hs : Session args s) (h : Handshake s)
    (hstep : ProcessStep (args me) me s.segment (s.proc me) event c sh) {w : ι}
    (htool : ((s.move me c sh).proc w).tool.toolType = .writerProcess) :
    exists r, IsReader ((s.move me c sh).proc r) := by
  have hbefore : exists r, IsReader (s.proc r) := by
    by_cases hwm : w = me
    · subst w
      rw [World.move_proc_self] at htool
      rcases hstep.decides_writer htool with hsame | hcount
      · exact h.hasReader me hsame
      · rcases hs.roles.exists_holder (by simp) hcount with ⟨r, hr, _⟩
        exact ⟨r, hr.left⟩
    · rw [World.move_proc_of_ne s c sh hwm] at htool
      exact h.hasReader w htool
  rcases hbefore with ⟨r, hr⟩
  exact ⟨r, (hs.roles.keeps_type hstep hr.type_ne).trans hr⟩

theorem Handshake.timer_move (hs : Session args s) (h : Handshake s)
    (hstep : ProcessStep (args me) me s.segment (s.proc me) event c sh) {w : ι}
    (hw : IsWriter ((s.move me c sh).proc w)) :
    (((s.move me c sh).proc w).timer = .expired ->
      exists r, IsReader ((s.move me c sh).proc r) ∧
        ((s.move me c sh).proc r).phase ≠ .copy) ∧
    (((s.move me c sh).proc w).timer = .removing ∨
        ((s.move me c sh).proc w).timer = .terminating ->
      ReaderLost (s.move me c sh)) := by
  have hleft : (exists r, IsReader (s.proc r) ∧ (s.proc r).phase ≠ .copy) ->
      exists r, IsReader ((s.move me c sh).proc r) ∧
        ((s.move me c sh).proc r).phase ≠ .copy := by
    rintro ⟨r, hr, hphase⟩
    rcases hs.roles.left_move hstep hr hphase with ⟨hr', hphase', _⟩
    exact ⟨r, hr', hphase'⟩
  have hbefore : forall w', IsWriter (s.proc w') ->
      ((s.proc w').timer = .expired ->
        exists r, IsReader ((s.move me c sh).proc r) ∧
          ((s.move me c sh).proc r).phase ≠ .copy) ∧
      ((s.proc w').timer = .removing ∨ (s.proc w').timer = .terminating ->
        ReaderLost (s.move me c sh)) := by
    intro w' hw'
    constructor
    · intro htimer
      exact hleft (h.expired w' hw' htimer)
    · intro htimer
      exact hs.roles.lost_move hstep (h.removing w' hw' htimer)
  by_cases hwm : w = me
  · subst w
    have htype : IsWriter c := by
      rw [World.move_proc_self] at hw
      exact hw
    rw [World.move_proc_self]
    cases hstep.timer (hs.roles.consistent me) htype with
    | same hp htimer =>
        rw [htimer]
        exact hbefore me hp
    | quiet htimer => rcases htimer with htimer | htimer <;> simp [htimer]
    | expire hp hcount htimer =>
        constructor
        · intro _
          have htool := (hs.roles.consistent me).typed hp.type_ne
          rcases h.hasReader me (htool.trans hp) with ⟨r, hr⟩
          exact hleft ⟨r, hr, hs.roles.left_of_counter hr hcount⟩
        · simp [htimer]
    | callback hp hexpired hunfinished htimer =>
        constructor
        · simp [htimer]
        · intro _
          rcases h.expired me hp hexpired with ⟨r, hr, hphase⟩
          rcases hs.roles.reader_tool hr with ⟨reader, pc, htool⟩
          apply hs.roles.lost_move hstep
          refine ⟨r, reader, pc, hr, hphase, htool, ?_⟩
          intro hpc
          rw [hpc] at htool
          rw [hs.reader.finished_of_returned hr htool] at hunfinished
          cases hunfinished
    | ignore hfinished htimer => simp [htimer]
    | remove hp hremoving htimer =>
        constructor
        · simp [htimer]
        · intro _
          exact (hbefore me hp).right (Or.inl hremoving)
  · rw [World.move_proc_of_ne s c sh hwm] at hw
    rw [World.move_proc_of_ne s c sh hwm]
    exact hbefore w hw

theorem Handshake.stays_move (hs : Session args s) (h : Handshake s)
    (huncrashed : Uncrashed event)
    (hstep : ProcessStep (args me) me s.segment (s.proc me) event c sh) {w : ι}
    {writer : BufferedFileWriter} {pc : WriterPc}
    (hw : IsWriter ((s.move me c sh).proc w))
    (htool : ((s.move me c sh).proc w).tool = .writer writer pc) :
    ((s.move me c sh).proc w).phase = .copy ∨ pc = .returned ∨
      ReaderLost (s.move me c sh) := by
  by_cases hwm : w = me
  · subst w
    rw [World.move_proc_self] at hw htool
    rw [World.move_proc_self]
    rcases hstep.writer_stays (hs.roles.consistent me) huncrashed hw htool with
      hcopy | hpc | ⟨hp, htimer | ⟨hphase, hsame⟩⟩
    · exact Or.inl hcopy
    · exact Or.inr (Or.inl hpc)
    · have hlost := h.removing me hp (Or.inr htimer)
      exact Or.inr (Or.inr (hs.roles.lost_move hstep hlost))
    · rcases h.stays me writer pc hp hsame with hcopy | hpc | hlost
      · exact absurd hcopy hphase
      · exact Or.inr (Or.inl hpc)
      · exact Or.inr (Or.inr (hs.roles.lost_move hstep hlost))
  · rw [World.move_proc_of_ne s c sh hwm] at hw htool
    rw [World.move_proc_of_ne s c sh hwm]
    rcases h.stays w writer pc hw htool with hcopy | hpc | hlost
    · exact Or.inl hcopy
    · exact Or.inr (Or.inl hpc)
    · exact Or.inr (Or.inr (hs.roles.lost_move hstep hlost))

theorem Handshake.move (hs : Session args s) (h : Handshake s)
    (huncrashed : Uncrashed event)
    (hstep : ProcessStep (args me) me s.segment (s.proc me) event c sh) :
    Handshake (s.move me c sh) := by
  constructor
  · intro hflag
    rcases hstep.started (hs.roles.consistent me) hflag with hbefore | hme
    · exact hs.roles.announced_move hstep (h.started hbefore)
    · exact ⟨me, by rw [World.move_proc_self]; exact hme⟩
  · intro r reader pc hr htool hpassed
    exact h.passed_move hs hstep hr htool hpassed
  · intro w htool
    exact h.hasReader_move hs hstep htool
  · intro w hw
    exact (h.timer_move hs hstep hw).left
  · intro w hw
    exact (h.timer_move hs hstep hw).right
  · intro w writer pc hw htool
    exact h.stays_move hs huncrashed hstep hw htool

end Move

/-!
# The data of a reader that has returned
-/

/-- No process crashes, and only the first reader registers. -/
def OneReaderUncrashed (s : World ι) (a : World.Action ι) : Prop :=
  Uncrashed a.2 ∧ RegistersOnce .readerProcess s a

instance (s : World Pid) (a : World.Action Pid) :
    Decidable (OneReaderUncrashed s a) :=
  inferInstanceAs (Decidable (_ ∧ _))

theorem reaches_handshake {args : ι -> Args} {buffers : Nat -> List UInt8}
    {s : World ι} (hrun : Reaches (StepOf (World.next args)) OneReaderUncrashed
      (World.init buffers) s) : Session args s ∧ Handshake s := by
  refine Reaches.invariant (fun x => Session args x ∧ Handshake x) ?_ hrun
    ⟨init_session args buffers, init_handshake buffers⟩
  intro x a x' hx hguard hnext
  rcases World.next_cases hnext with ⟨c, sh, rfl, hstep⟩
  exact ⟨hx.left.move hguard.right hstep, hx.right.move hx.left hguard.left hstep⟩

/--
In every run without crashes in which the segment serves one reader, a reader
that has returned from `copy` with its data still queued has a registered writer.
-/
theorem returned_reader_has_writer (args : ι -> Args) (buffers : Nat -> List UInt8)
    (s : World ι) (r : ι) (reader : BufferedReader)
    (hrun : Reaches (StepOf (World.next args)) OneReaderUncrashed
      (World.init buffers) s)
    (hr : IsReader (s.proc r)) (htool : (s.proc r).tool = .reader reader .returned)
    (hqueued : s.segment.queue.writeBuffers ≠ []) :
    s.segment.procInfo.writerProcessCount ≠ 0 := by
  rcases reaches_handshake hrun with ⟨hs, h⟩
  rcases h.passed r reader .returned hr htool trivial with
    ⟨w, hw, writer, pc, hwriter, hannounced⟩
  rcases h.stays w writer pc hw hwriter with hcopy | hpc | hlost
  · have hone := hs.roles.counter_eq_one (by simp) (p := w) ⟨hw, Or.inl hcopy⟩
    change s.segment.procInfo.writerProcessCount = 1 at hone
    rw [hone]
    simp
  · rw [hpc] at hwriter
    exact absurd (hs.drains.left w writer .returned hw hwriter trivial).empty hqueued
  · rcases hlost with ⟨r', reader', pc', hr', _, htool', hpc'⟩
    rw [hs.reader.unique r' r hr' hr] at htool'
    cases htool.symm.trans htool'
    exact absurd rfl hpc'

/-- The first process reads and returns; its writer has written nothing. -/
def readerAhead : List (World.Action Pid) :=
  World.turns .first 6 ++ World.turns .second 7 ++
    World.turns .first 15

theorem returned_reader_has_writer_readerAhead :
    exists s, exec (World.next (sources [1] [2])) readerAhead (World.init fun _ => []) =
        some s ∧ (exists reader, (s.proc .first).tool = .reader reader .returned) ∧
      s.segment.queue.writeBuffers ≠ [] ∧
      s.segment.procInfo.writerProcessCount ≠ 0 := by
  have hview : (exec (World.next (sources [1] [2])) readerAhead
      (World.init fun _ => [])).map (fun s => ((s.proc .first).ipcToolType,
        (s.proc .first).tool, s.segment.queue.writeBuffers.length)) =
      some (.readerProcess, .reader
        { fileDesc := some { contents := [1], position := 1, buffer := some 511 }
          fileSize := 1
          currentOffset := 1
          readFinished := true } .returned, 1) := by
    decide +kernel
  rcases Option.map_eq_some_iff.mp hview with ⟨s, hexec, hpcs⟩
  simp only [Prod.mk.injEq] at hpcs
  rcases hpcs with ⟨htype, htool, hlength⟩
  have hqueued : s.segment.queue.writeBuffers ≠ [] := by
    intro hnil
    rw [hnil] at hlength
    cases hlength
  refine ⟨s, hexec, ⟨_, htool⟩, hqueued, ?_⟩
  exact returned_reader_has_writer (sources [1] [2]) _ s .first _
    (reaches_of_exec readerAhead (by decide +kernel) hexec) htype htool hqueued

/--
The first process returns and deregisters; the third one registers as reader while the
second one still has the chunk of the first to write; then the second one leaves,
and the third finds `isWritingStarted` set.
-/
def secondReader : List (World.Action Pid) :=
  World.turns .first 6 ++ World.turns .second 7 ++
    World.turns .first 17 ++ World.turns .third 5 ++
    World.turns .second 14 ++ World.turns .third 15

/-- In general a reader can return with its chunk queued and no writer registered. -/
theorem returns_without_writer :
    exists s reader, Reaches (StepOf (World.next (sources [1] [2])))
        (fun _ a => Uncrashed a.2) (World.init fun _ => []) s ∧
      IsReader (s.proc .third) ∧ (s.proc .third).tool = .reader reader .returned ∧
      s.segment.queue.writeBuffers.map (fun b =>
        (s.segment.queue.buffers b.data).take b.bytesUsed) =
          [(sources [1] [2] .third).src] ∧
      s.segment.procInfo.writerProcessCount = 0 := by
  have hview : (exec (World.next (sources [1] [2])) secondReader
      (World.init fun _ => [])).map (fun s => ((s.proc .third).ipcToolType,
        (s.proc .third).tool, s.segment.queue.writeBuffers.map (fun b =>
          (s.segment.queue.buffers b.data).take b.bytesUsed),
        s.segment.procInfo.writerProcessCount)) =
      some (.readerProcess, .reader
        { fileDesc := some { contents := [2], position := 1, buffer := some 511 }
          fileSize := 1
          currentOffset := 1
          readFinished := true } .returned, [[2]], 0) := by
    decide +kernel
  rcases Option.map_eq_some_iff.mp hview with ⟨s, hexec, hpcs⟩
  simp only [Prod.mk.injEq] at hpcs
  rcases hpcs with ⟨htype, htool, hchunks, hcount⟩
  exact ⟨s, _, reaches_of_exec secondReader (by decide +kernel) hexec, htype, htool,
    hchunks, hcount⟩

end Common
end Ki
