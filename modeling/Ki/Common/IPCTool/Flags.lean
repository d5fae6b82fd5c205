import Ki.Common.IPCTool.Simulation

/-!
# The flags of the queue and the one reader

As long as at most one process has ever been registered as reader, `isOpen` and
`isReadFinished_` are functions of the point that process has reached, whether
it is still running or has been interrupted there.
-/

namespace Ki
namespace IPC

open Queue
open Reader
open BufferedReader

namespace ReaderPc

/-- The queue is open from the reader's `open` to its `close`. -/
def queueOpen : ReaderPc -> Bool
  | .openQueue => false
  | .awaitStarted => false
  | .waiting => false
  | .stopTimer => false
  | .returned => false
  | _ => true

/-- What the reader has told the queue: the flag is stored before it is passed on. -/
def finished (reader : BufferedReader) : ReaderPc -> Bool
  | .read (.finishRead _) => false
  | _ => reader.readFinished

/-- The last chunk has not been read. -/
def Early : ReaderPc -> Prop
  | .openQueue => True
  | .openFile => True
  | .read (.getFreeBuffer _) => True
  | .read (.fill _) => True
  | .read (.storeFinished _) => True
  | _ => False

/-- The last chunk has been read. -/
def Late : ReaderPc -> Prop
  | .read (.finishRead _) => True
  | .close => True
  | .awaitStarted => True
  | .waiting => True
  | .stopTimer => True
  | .returned => True
  | _ => False

end ReaderPc
end IPC

namespace Common

open Foundation
open Queue
open FixedBufferQueue
open Clients
open Reader
open BufferedReader
open Writer
open BufferedFileWriter
open Stdio
open IPC
open IPCTool

variable {ι : Type} [DecidableEq ι]

/-- The flags against the point a reader has reached. -/
structure ReaderFlags (q : FixedBufferQueue ι) (reader : BufferedReader)
    (pc : ReaderPc) : Prop where
  isOpen : q.isOpen = pc.queueOpen
  finished : q.isReadFinished_ = pc.finished reader
  early : pc.Early -> reader.readFinished = false
  late : pc.Late -> reader.readFinished = true

omit [DecidableEq ι] in
theorem ReaderFlags.congr {q q' : FixedBufferQueue ι} {reader : BufferedReader}
    {pc : ReaderPc} (h : ReaderFlags q reader pc) (hopen : q'.isOpen = q.isOpen)
    (hfinished : q'.isReadFinished_ = q.isReadFinished_) :
    ReaderFlags q' reader pc where
  isOpen := hopen.trans h.isOpen
  finished := hfinished.trans h.finished
  early := h.early
  late := h.late

theorem ReaderFlags.readStep {q q' : FixedBufferQueue ι}
    {reader reader' : BufferedReader} {me : ι} {io : Io} {pc : ReadPc}
    {r : ReadResult} (p : Process) (h : ReaderFlags q reader (.read pc))
    (hread : reader.readStep me io q pc = some (r, reader', q')) :
    exists pc', (afterRead p reader' r).tool = .reader reader' pc' ∧
      ReaderFlags q' reader' pc' := by
  have hopen : q.isOpen = true := h.isOpen
  cases readStep_cases hread with
  | @getFreeBuffer gpc got _ hget =>
      have hopen' := (getStep_isOpen hget).trans hopen
      have hfinished := (getStep_isReadFinished hget).trans h.finished
      have hearly := h.early trivial
      cases got with
      | next gpc' => exact ⟨_, rfl, hopen', hfinished, fun _ => hearly, False.elim⟩
      | nullopt =>
          cases getStep_cases hget with
          | nullopt hempty hclosed =>
              rw [hopen] at hclosed
              cases hclosed
      | buffer b => exact ⟨_, rfl, hopen', hfinished, fun _ => hearly, False.elim⟩
      | popEmpty => exact ⟨_, rfl, hopen', hfinished, False.elim, False.elim⟩
  | setvbufFails buf hfails =>
      exact ⟨_, rfl, hopen, h.finished, False.elim, False.elim⟩
  | fill hfile hok =>
      have hearly := h.early trivial
      refine ⟨_, rfl, hopen, ?_, ?_, ?_⟩
      · split <;> exact h.finished
      · exact fun _ => hearly
      · split <;> exact False.elim
  | storeFinished buf =>
      have hearly := h.early trivial
      have hfinished : q.isReadFinished_ = reader.readFinished := h.finished
      rw [hearly] at hfinished
      exact ⟨_, rfl, hopen, hfinished, False.elim, fun _ => rfl⟩
  | finishRead buf hfree =>
      have hlate := h.late trivial
      exact ⟨_, rfl, hopen, hlate.symm, False.elim, False.elim⟩
  | returnBuffer hreturn =>
      have hfinished : q.isReadFinished_ = reader.readFinished := h.finished
      rcases returnBuffer_cases hreturn with ⟨_, rfl⟩
      refine ⟨_, rfl, ?_, ?_, False.elim, False.elim⟩
      · rw [setDeque_isOpen]
        exact hopen
      · rw [setDeque_isReadFinished_]
        exact hfinished
  | notifyAll => exact ⟨_, rfl, hopen, h.finished, False.elim, False.elim⟩

theorem IPCTool.ReadingStep.flags {src : List UInt8} {me : ι} {io : Io}
    {sh sh' : Segment ι} {p p' : Process} {reader : BufferedReader}
    {pc : ReaderPc} (htool : p.tool = .reader reader pc)
    (h : ReaderFlags sh.queue reader pc)
    (hstep : ReadingStep src me io sh p reader pc p' sh') :
    exists reader' pc', p'.tool = .reader reader' pc' ∧
      ReaderFlags sh'.queue reader' pc' := by
  have hfinished := h.finished
  cases hstep with
  | openQueue =>
      exact ⟨_, _, rfl, rfl, hfinished, fun _ => h.early trivial, False.elim⟩
  | crash hnull => exact ⟨_, _, htool, h⟩
  | openFails hfails =>
      exact ⟨_, _, rfl, h.isOpen, hfinished, False.elim, False.elim⟩
  | openFile =>
      have hearly := h.early trivial
      have hopened : (reader.open' src).readFinished = reader.readFinished := by
        simp [BufferedReader.open', hearly]
      refine ⟨_, _, rfl, h.isOpen, ?_, False.elim, False.elim⟩
      exact hfinished.trans hopened.symm
  | startObserver => exact ⟨_, _, rfl, h.isOpen, hfinished, False.elim, False.elim⟩
  | finished hdone =>
      exact ⟨_, _, rfl, h.isOpen, hfinished, False.elim, fun _ => hdone⟩
  | unfinished hunfinished =>
      exact ⟨_, _, rfl, h.isOpen, hfinished, fun _ => hunfinished, False.elim⟩
  | read hread =>
      rcases h.readStep p hread with ⟨pc', htool', hflags⟩
      exact ⟨_, pc', htool', hflags⟩
  | close =>
      exact ⟨_, _, rfl, rfl, hfinished, False.elim, fun _ => h.late trivial⟩
  | started hpc hstarted =>
      have hopen := h.isOpen
      have hlate := h.late
      rcases hpc with rfl | rfl
      · exact ⟨_, _, rfl, hopen, hfinished, False.elim, fun _ => hlate trivial⟩
      · exact ⟨_, _, rfl, hopen, hfinished, False.elim, fun _ => hlate trivial⟩
  | sleep hpc hstarted =>
      have hopen := h.isOpen
      have hlate := h.late
      rcases hpc with rfl | rfl
      · exact ⟨_, _, rfl, hopen, hfinished, False.elim, fun _ => hlate trivial⟩
      · exact ⟨_, _, rfl, hopen, hfinished, False.elim, fun _ => hlate trivial⟩
  | stopTimer hstop =>
      exact ⟨_, _, rfl, h.isOpen, hfinished, False.elim, fun _ => h.late trivial⟩

theorem IPCTool.WritingStep.flags {me : ι} {io : Io} {sh sh' : Segment ι}
    {p p' : Process} {writer : BufferedFileWriter} {pc : WriterPc}
    (hstep : WritingStep me io sh p writer pc p' sh') :
    sh'.queue.isOpen = sh.queue.isOpen ∧
      sh'.queue.isReadFinished_ = sh.queue.isReadFinished_ := by
  cases hstep with
  | write hwrite => exact ⟨writeStep_isOpen hwrite, writeStep_isReadFinished hwrite⟩
  | _ => exact ⟨rfl, rfl⟩

/-!
# Registered processes
-/

/-- The process has been registered as reader, and may have left since. -/
def IsReader (p : Process) : Prop :=
  p.ipcToolType = .readerProcess

/-- The process has been registered as writer, and may have left since. -/
def IsWriter (p : Process) : Prop :=
  p.ipcToolType = .writerProcess

instance (p : Process) : Decidable (IsReader p) :=
  inferInstanceAs (Decidable (_ = _))

instance (p : Process) : Decidable (IsWriter p) :=
  inferInstanceAs (Decidable (_ = _))

theorem IsReader.type_ne {p : Process} (h : IsReader p) : p.ipcToolType ≠ .invalid := by
  rw [h]
  simp

theorem IsWriter.type_ne {p : Process} (h : IsWriter p) : p.ipcToolType ≠ .invalid := by
  rw [h]
  simp

theorem IsReader.not_isWriter {p : Process} (h : IsReader p) : ¬ IsWriter p := by
  intro hw
  cases h.symm.trans hw

omit [DecidableEq ι] in
theorem Roles.reader_tool {args : ι -> Args} {s : World ι} (h : Roles args s)
    {p : ι} (hp : IsReader (s.proc p)) :
    exists reader pc, (s.proc p).tool = .reader reader pc := by
  have htype := (h.consistent p).typed hp.type_ne
  rw [hp] at htype
  cases htool : (s.proc p).tool with
  | reader reader pc => exact ⟨reader, pc, rfl⟩
  | none =>
      rw [htool] at htype
      cases htype
  | writer writer pc =>
      rw [htool] at htype
      cases htype

omit [DecidableEq ι] in
theorem Roles.writer_tool {args : ι -> Args} {s : World ι} (h : Roles args s)
    {p : ι} (hp : IsWriter (s.proc p)) :
    exists writer pc, (s.proc p).tool = .writer writer pc := by
  have htype := (h.consistent p).typed hp.type_ne
  rw [hp] at htype
  cases htool : (s.proc p).tool with
  | writer writer pc => exact ⟨writer, pc, rfl⟩
  | none =>
      rw [htool] at htype
      cases htype
  | reader reader pc =>
      rw [htool] at htype
      cases htype

/-- A process of another type than the one that has moved stands still. -/
theorem move_proc_of_type {s : World ι} {me p : ι} {c : Process} {sh : Segment ι}
    {type : ProcessType} (hc : c.ipcToolType ≠ type)
    (hp : ((s.move me c sh).proc p).ipcToolType = type) :
    p ≠ me ∧ (s.move me c sh).proc p = s.proc p := by
  have hne : p ≠ me := by
    intro heq
    rw [heq, World.move_proc_self] at hp
    exact hc hp
  exact ⟨hne, World.move_proc_of_ne s c sh hne⟩

/-- Where a process registered after a step aside comes from. -/
theorem Aside.origin {args : Args} {s : World ι} {me p : ι} {c : Process}
    {sh : Segment ι} {type : ProcessType} (hconsistent : Consistent args (s.proc me))
    (h : Aside args s.segment sh (s.proc me) c) (htype : type ≠ .invalid)
    (hp : ((s.move me c sh).proc p).ipcToolType = type) :
    (s.proc p).ipcToolType = type ∧
        ((s.move me c sh).proc p).tool = (s.proc p).tool ∨
      p = me ∧ c.tool = (s.proc me).tool ∧ (s.proc me).phase = .register ∧
        (s.proc me).tool.toolType = type ∧
        s.segment.procInfo.counter type = 0 := by
  by_cases hpm : p = me
  · subst p
    rw [World.move_proc_self] at hp
    rw [World.move_proc_self]
    rcases h.registered hconsistent (by rw [hp]; exact htype) with
      ⟨hsame, htool⟩ | ⟨_, hphase, htool, hdecided, hcount⟩
    · exact Or.inl ⟨hsame.trans hp, htool⟩
    · rw [hp] at hdecided
      rw [← hdecided] at hcount
      exact Or.inr ⟨rfl, htool, hphase, hdecided.symm, hcount⟩
  · rw [World.move_proc_of_ne s c sh hpm] at hp
    rw [World.move_proc_of_ne s c sh hpm]
    exact Or.inl ⟨hp, rfl⟩

/-- A registered process keeps its type, in every step. -/
theorem ProcessStep.keeps_type {args : Args} {me : ι} {event : Event}
    {sh sh' : Segment ι} {p p' : Process} (hconsistent : Consistent args p)
    (h : ProcessStep args me sh p event p' sh') (hp : p.ipcToolType ≠ .invalid) :
    p'.ipcToolType = p.ipcToolType := by
  cases h.copyOrAside hconsistent with
  | reading reader pc hphase htype htool hreading => exact (hreading.role hphase).left
  | writing writer pc hphase htype htool hwriting => exact (hwriting.role hphase).left
  | aside haside => exact (haside.keeps hconsistent hp).left

theorem Roles.keeps_type {args : ι -> Args} {s : World ι} (h : Roles args s) {me p : ι}
    {event : Event} {c : Process} {sh : Segment ι}
    (hstep : ProcessStep (args me) me s.segment (s.proc me) event c sh)
    (hp : (s.proc p).ipcToolType ≠ .invalid) :
    ((s.move me c sh).proc p).ipcToolType = (s.proc p).ipcToolType := by
  exact World.forall_move
    (P := fun q p => (s.proc q).ipcToolType ≠ .invalid ->
      p.ipcToolType = (s.proc q).ipcToolType)
    (hstep.keeps_type (h.consistent me)) (fun _ _ _ => rfl) p hp

/-!
# At most one reader
-/

/-- At most one process has ever been registered as reader. -/
structure OneReader (s : World ι) : Prop where
  unique : forall p q, IsReader (s.proc p) -> IsReader (s.proc q) -> p = q
  flags : forall p reader pc, IsReader (s.proc p) ->
    (s.proc p).tool = .reader reader pc -> ReaderFlags s.segment.queue reader pc
  untouched : (forall p, ¬ IsReader (s.proc p)) ->
    s.segment.queue.isOpen = false ∧ s.segment.queue.isReadFinished_ = false

omit [DecidableEq ι] in
theorem init_oneReader (buffers : Nat -> List UInt8) :
    OneReader (World.init buffers : World ι) where
  unique := by
    intro p q hp
    cases hp
  flags := by
    intro p reader pc hp
    cases hp
  untouched := fun _ => ⟨rfl, rfl⟩

/--
A process registers with a type only if none has been registered with it before:
the segment serves one session.
-/
def RegistersOnce (type : ProcessType) (s : World ι) (a : World.Action ι) : Prop :=
  (s.proc a.1).phase = .register -> (s.proc a.1).tool.toolType = type ->
    s.segment.procInfo.counter type = 0 ->
    forall q, (s.proc q).ipcToolType ≠ type

instance (type : ProcessType) (s : World Pid) (a : World.Action Pid) :
    Decidable (RegistersOnce type s a) :=
  inferInstanceAs (Decidable (_ -> _ -> _ -> forall _ : Pid, _ ≠ _))

theorem OneReader.reading {s : World ι} (h : OneReader s) {me : ι} {src : List UInt8}
    {io : Io} {reader : BufferedReader} {pc : ReaderPc} {c : Process}
    {sh : Segment ι} (hphase : (s.proc me).phase = .copy)
    (hme : IsReader (s.proc me)) (htool : (s.proc me).tool = .reader reader pc)
    (hstep : ReadingStep src me io s.segment (s.proc me) reader pc c sh) :
    OneReader (s.move me c sh) := by
  have honly : forall p, IsReader ((s.move me c sh).proc p) -> p = me :=
    World.forall_move (P := fun p proc => IsReader proc -> p = me) (fun _ => rfl)
      (fun p _ hp => h.unique p me hp hme)
  rcases hstep.flags htool (h.flags me reader pc hme htool) with
    ⟨reader', pc', htool', hflags⟩
  constructor
  · intro p q hp hq
    rw [honly p hp, honly q hq]
  · intro p r rpc hp hr
    rw [honly p hp, World.move_proc_self, htool'] at hr
    cases hr
    exact hflags
  · intro hnone
    have hc := hnone me
    rw [World.move_proc_self] at hc
    exact absurd ((hstep.role hphase).left.trans hme) hc

/-- A step in which no reader moves and none is added. -/
theorem OneReader.still {s : World ι} (h : OneReader s) {me : ι} {c : Process}
    {sh : Segment ι} (hopen : sh.queue.isOpen = s.segment.queue.isOpen)
    (hfinished : sh.queue.isReadFinished_ = s.segment.queue.isReadFinished_)
    (hsame : forall p, IsReader ((s.move me c sh).proc p) -> IsReader (s.proc p) ∧
      ((s.move me c sh).proc p).tool = (s.proc p).tool)
    (hkeeps : forall p, IsReader (s.proc p) ->
      IsReader ((s.move me c sh).proc p)) : OneReader (s.move me c sh) := by
  constructor
  · intro p q hp hq
    exact h.unique p q (hsame p hp).left (hsame q hq).left
  · intro p reader pc hp hr
    rcases hsame p hp with ⟨hp', htool⟩
    rw [htool] at hr
    exact (h.flags p reader pc hp' hr).congr hopen hfinished
  · intro hnone
    rw [World.move_segment, hopen, hfinished]
    exact h.untouched fun p hp => hnone p (hkeeps p hp)

/-- The first process registers as reader. -/
theorem OneReader.registered {s : World ι} (h : OneReader s) {me : ι} {c : Process}
    {sh : Segment ι} {src : List UInt8} (hqueue : sh.queue = s.segment.queue)
    (hnone : forall p, ¬ IsReader (s.proc p)) (hc : IsReader c)
    (htool : c.tool = .reader (BufferedReader.new src) .openQueue) :
    OneReader (s.move me c sh) := by
  have honly : forall p, IsReader ((s.move me c sh).proc p) -> p = me :=
    World.forall_move (P := fun p proc => IsReader proc -> p = me) (fun _ => rfl)
      (fun p _ hp => absurd hp (hnone p))
  have hflags := h.untouched hnone
  constructor
  · intro p q hp hq
    rw [honly p hp, honly q hq]
  · intro p reader pc hp hr
    rw [honly p hp, World.move_proc_self, htool] at hr
    cases hr
    rw [World.move_segment, hqueue]
    exact ⟨hflags.left, hflags.right, fun _ => rfl, False.elim⟩
  · intro hnone'
    have hme := hnone' me
    rw [World.move_proc_self] at hme
    exact absurd hc hme

theorem OneReader.move {args : ι -> Args} {s : World ι} {me : ι} {event : Event}
    {c : Process} {sh : Segment ι} (hroles : Roles args s) (h : OneReader s)
    (honce : RegistersOnce .readerProcess s (me, event))
    (hstep : ProcessStep (args me) me s.segment (s.proc me) event c sh) :
    OneReader (s.move me c sh) := by
  have hconsistent := hroles.consistent me
  have hkeeps : forall p, IsReader (s.proc p) ->
      IsReader ((s.move me c sh).proc p) := by
    intro p hp
    exact (hroles.keeps_type hstep hp.type_ne).trans hp
  cases hstep.copyOrAside hconsistent with
  | reading reader pc hphase htype htool hreading =>
      exact h.reading hphase htype htool hreading
  | writing writer pc hphase htype htool hwriting =>
      have hqueue := hwriting.flags
      apply h.still hqueue.left hqueue.right _ hkeeps
      intro p hp
      have hwriter := (hwriting.role hphase).left.trans htype
      have hother := move_proc_of_type (by rw [hwriter]; simp) hp
      rw [IsReader, hother.right] at hp
      exact ⟨hp, by rw [hother.right]⟩
  | aside haside =>
      by_cases hnew : (s.proc me).phase = .register ∧
          (s.proc me).tool.toolType = .readerProcess ∧
          s.segment.procInfo.counter .readerProcess = 0 ∧ IsReader c
      · rcases hnew with ⟨hphase, htype, hcount, hc⟩
        have hnone := honce hphase htype hcount
        rcases haside.registered hconsistent hc.type_ne with
          ⟨hsame, _⟩ | ⟨_, _, htool, _, _⟩
        · exact absurd (hsame.trans hc) (hnone me)
        · rcases hconsistent.decided hphase with hdecided | ⟨dst, hdecided⟩
          · exact h.registered haside.queue hnone hc (htool.trans hdecided)
          · rw [hdecided] at htype
            cases htype
      · apply h.still (by rw [haside.queue]) (by rw [haside.queue]) _ hkeeps
        intro p hp
        rcases haside.origin hconsistent (by simp) hp with
          hsame | ⟨rfl, _, hphase, htype, hcount⟩
        · exact hsame
        · rw [World.move_proc_self] at hp
          exact absurd ⟨hphase, htype, hcount, hp⟩ hnew

end Common
end Ki
