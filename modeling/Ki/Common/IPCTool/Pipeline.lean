import Ki.Common.BPCopyTool.Stages
import Ki.Common.IPCTool.Streams

/-!
# One session as a pipeline

The process registered as reader takes the chunks of its source and the process
registered as writer passes them on, also when other processes start and leave beside
them, and up to the point where either of the two is interrupted.
-/

namespace Ki
namespace IPC
namespace Tool

open Queue
open Reader
open Writer
open Common

/-- The process has taken `n` chunks of the source; a process that reads nothing, none. -/
def Taking (src : List UInt8) (returned : List Payload) (n : Nat) : Tool -> Prop
  | .reader fileReader pc => BPCopyTool.Taking src fileReader pc.readPc returned n
  | _ => n = 0 ∧ returned = []

/-- The process has passed on `n` chunks of the source; a process that writes nothing, none. -/
def Passing (src : List UInt8) (delivered : List Payload) (n : Nat) : Tool -> Prop
  | .writer fileWriter pc => BPCopyTool.Passing src fileWriter pc.writePc delivered n
  | _ => n = 0 ∧ delivered = []

/-- What the process has written. -/
def written : Tool -> List UInt8
  | .writer fileWriter _ => fileWriter.written
  | _ => []

theorem Taking.chunked {src : List UInt8} {returned : List Payload} {n : Nat} {tool : Tool}
    (h : Taking src returned n tool) : BPCopyTool.Chunked src returned := by
  cases tool with
  | reader fileReader pc => exact BPCopyTool.Taking.chunked h
  | none =>
      rw [h.right]
      exact BPCopyTool.nil_chunked src
  | writer fileWriter pc =>
      rw [h.right]
      exact BPCopyTool.nil_chunked src

theorem Taking.length_le {src : List UInt8} {returned : List Payload} {n : Nat} {tool : Tool}
    (h : Taking src returned n tool) : returned.length ≤ n := by
  cases tool with
  | reader fileReader pc =>
      rw [BPCopyTool.Taking.taken h]
      exact Nat.le_add_right _ _
  | none =>
      rw [h.right]
      exact Nat.zero_le _
  | writer fileWriter pc =>
      rw [h.right]
      exact Nat.zero_le _

theorem Taking.offset {src : List UInt8} {returned : List Payload} {n : Nat} {tool : Tool}
    (h : Taking src returned n tool) :
    tool.currentOffset = min (n * bufferSize) src.length := by
  cases tool with
  | reader fileReader pc => exact BPCopyTool.Taking.offset h
  | none =>
      rw [h.left]
      simp [currentOffset]
  | writer fileWriter pc =>
      rw [h.left]
      simp [currentOffset]

theorem Passing.bytes {src : List UInt8} {delivered : List Payload} {n : Nat} {tool : Tool}
    (h : Passing src delivered n tool) : tool.written = src.take (n * bufferSize) := by
  cases tool with
  | writer fileWriter pc => exact BPCopyTool.Passing.bytes h
  | none =>
      rw [h.left]
      simp [written]
  | reader fileReader pc =>
      rw [h.left]
      simp [written]

end Tool
end IPC

namespace Common

open Foundation
open Queue
open FixedBufferQueue
open Clients
open Reader
open BufferedReader
open Writer
open BufferedFileWriter
open Stdio
open IPC
open IPCTool
open BPCopyTool (chunkCount none_notLast unwritten unwritten_le room_of_fill)

variable {ι : Type} [DecidableEq ι]

/-!
# One step of `copy`
-/

/-- A step of a reader process takes the next chunk, or none. -/
theorem IPCTool.ReadingStep.taking {src : List UInt8} (hsrc : src.length < 2 ^ 63)
    {me : ι} {io : Io} (hio : io.Succeeds) {sh sh' : Segment ι} {p p' : Process}
    {reader : BufferedReader} {pc : ReaderPc} {returned : List Payload} {n : Nat}
    (htool : p.tool = .reader reader pc) (htyped : p.tool.Typed)
    (hflags : ReaderFlags sh.queue reader pc)
    (hdata : ReaderData src reader sh.queue.buffers pc returned)
    (h : p.tool.Taking src returned n)
    (hstep : ReadingStep src me io sh p reader pc p' sh') :
    p'.tool.Taking src (returned ++ pc.produced sh.queue) n ∨
      (exists buf, pc = .read (.fill buf)) ∧ n < chunkCount src.length ∧
        p'.tool.Taking src (returned ++ pc.produced sh.queue) (n + 1) := by
  rw [htool] at htyped h
  have hmove : forall pc' : ReaderPc, pc.readPc = none -> pc.produced sh.queue = [] ->
      pc'.readPc = none ∨ pc'.readPc = some (.getFreeBuffer .lock) ->
      Tool.Taking src (returned ++ pc.produced sh.queue) n (.reader reader pc') := by
    intro pc' hnone hproduced hpc
    rw [hproduced, List.append_nil]
    have hkeep : BPCopyTool.Taking src reader pc.readPc returned n := h
    rw [hnone] at hkeep
    refine hkeep.move ?_ (fun _ => none_notLast)
    rcases hpc with hpc | hpc
    · rw [hpc]
    · rw [hpc]
      rfl
  cases hstep with
  | openQueue => exact Or.inl (hmove _ rfl rfl (Or.inl rfl))
  | crash hnull =>
      left
      show p.tool.Taking src _ n
      rw [htool]
      exact hmove _ rfl rfl (Or.inl rfl)
  | openFails hfails =>
      rw [hio.left] at hfails
      cases hfails
  | openFile =>
      left
      rcases hdata.unopened trivial with ⟨rfl, rfl⟩
      have hzero : n = 0 := BPCopyTool.Taking.taken h
      rw [hzero]
      exact BPCopyTool.Taking.opened src
  | startObserver => exact Or.inl (hmove _ rfl rfl (Or.inl rfl))
  | finished hfinished => exact Or.inl (hmove _ rfl rfl (Or.inl rfl))
  | unfinished hunfinished => exact Or.inl (hmove _ rfl rfl (Or.inr rfl))
  | @read rpc r reader' q hread =>
      have hafter : forall k,
          BPCopyTool.Taking src reader' r.pc (returned ++ rpc.returned sh.queue) k ->
          (afterRead p reader' r).tool.Taking src (returned ++ rpc.returned sh.queue) k := by
        intro k hk
        cases r <;> exact hk
      have hearly : forall buf, rpc = .fill buf -> reader.readFinished = false := by
        rintro buf rfl
        exact hflags.early trivial
      rcases BPCopyTool.Taking.readStep hsrc hio (htyped rpc rfl) hearly hdata.read h hread with
        hkept | ⟨⟨buf, rfl⟩, hmore, htaken⟩
      · exact Or.inl (hafter n hkept)
      · exact Or.inr ⟨⟨buf, rfl⟩, hmore, hafter (n + 1) htaken⟩
  | close => exact Or.inl (hmove _ rfl rfl (Or.inl rfl))
  | started hpc hstarted =>
      rcases hpc with rfl | rfl <;> exact Or.inl (hmove _ rfl rfl (Or.inl rfl))
  | sleep hpc hstarted =>
      rcases hpc with rfl | rfl <;> exact Or.inl (hmove _ rfl rfl (Or.inl rfl))
  | stopTimer hstop => exact Or.inl (hmove _ rfl rfl (Or.inl rfl))

/-- A step of a writer process passes the next chunk on, or none. -/
theorem IPCTool.WritingStep.passing {src : List UInt8} {me : ι} {io : Io}
    (hio : io.Succeeds) {sh sh' : Segment ι} {p p' : Process}
    {writer writer' : BufferedFileWriter} {pc pc' : WriterPc}
    {returned delivered queued : List Payload} {n : Nat}
    (htool : p.tool = .writer writer pc) (hchunked : BPCopyTool.Chunked src returned)
    (hfifo : delivered ++ queued = returned)
    (hdata : WriterData writer sh.queue.buffers pc delivered)
    (h : p.tool.Passing src delivered n)
    (hstep : WritingStep me io sh p writer pc p' sh')
    (htool' : p'.tool = .writer writer' pc') :
    p'.tool.Passing src (delivered ++ pc'.delivered sh.queue) n ∨
      n < delivered.length ∧
        p'.tool.Passing src (delivered ++ pc'.delivered sh.queue) (n + 1) := by
  rw [htool] at h
  rw [htool']
  have hmove : forall wpc : WriterPc, pc.writePc = none ->
      wpc.writePc = none ∨ wpc.writePc = some (.getFilledBuffer .lock) ->
      wpc.delivered sh.queue = [] ->
      Tool.Passing src (delivered ++ wpc.delivered sh.queue) n (.writer writer wpc) := by
    intro wpc hnone hwpc hdelivered
    rw [hdelivered, List.append_nil]
    have hkeep : BPCopyTool.Passing src writer pc.writePc delivered n := h
    rw [hnone] at hkeep
    refine hkeep.move ?_
    rcases hwpc with hwpc | hwpc
    · rw [hwpc]
    · rw [hwpc]
      rfl
  cases hstep with
  | createFails hfails =>
      rw [hio.left] at hfails
      cases hfails
  | create =>
      left
      cases htool'
      have hdelivered := hdata.uncreated rfl
      have hzero : n + 0 = delivered.length := BPCopyTool.Passing.passed h
      rw [hdelivered] at hzero
      rw [hdelivered, show n = 0 from hzero]
      exact BPCopyTool.Passing.created src writer
  | crash hnull =>
      cases htool.symm.trans htool'
      exact Or.inl (hmove _ rfl (Or.inl rfl) rfl)
  | @write wpc r writer'' q hwrite =>
      have hdelivered : pc'.delivered sh.queue = r.delivered sh.queue := by
        cases r with
        | next wpc' =>
            cases htool'
            cases wpc' <;> rfl
        | done =>
            cases htool'
            rfl
      have hafter : pc'.writePc = r.pc ∧ writer' = writer'' := by
        cases r <;> cases htool' <;> exact ⟨rfl, rfl⟩
      rcases hafter with ⟨hpc, rfl⟩
      rw [hdelivered]
      simp only [Tool.Passing, hpc]
      rcases BPCopyTool.Passing.writeStep hio hchunked hfifo hdata.write h hwrite with
        hkept | hpassed
      · exact Or.inl hkept
      · exact Or.inr hpassed
  | unfinished hunfinished =>
      cases htool'
      exact Or.inl (hmove _ rfl (Or.inr rfl) rfl)
  | nonempty =>
      cases htool'
      exact Or.inl (hmove _ rfl (Or.inr rfl) rfl)
  | _ =>
      cases htool'
      exact Or.inl (hmove _ rfl (Or.inl rfl) rfl)

/-!
# Who registers
-/

/-- No other process than `p` registers with the type. -/
def RegistersAs (type : ProcessType) (p : ι) (s : World ι) (a : World.Action ι) : Prop :=
  (s.proc a.1).phase = .register -> (s.proc a.1).tool.toolType = type ->
    s.segment.procInfo.counter type = 0 -> a.1 = p

/-- No other process than `p` has ever been registered with the type. -/
def Only (type : ProcessType) (p : ι) (s : World ι) : Prop :=
  forall q, (s.proc q).ipcToolType = type -> q = p

/-- Stdio succeeds, and nobody registers but `r` as reader and `w` as writer. -/
def SessionOf (r w : ι) (s : World ι) (a : World.Action ι) : Prop :=
  Succeeds a.2 ∧ RegistersAs .readerProcess r s a ∧ RegistersAs .writerProcess w s a

omit [DecidableEq ι] in
/-- A process that registers has not been registered before. -/
theorem RegistersAs.once {args : ι -> Args} {s : World ι} {type : ProcessType} {p : ι}
    {a : World.Action ι} (htype : type ≠ .invalid) (hroles : Roles args s)
    (honly : Only type p s) (h : RegistersAs type p s a) : RegistersOnce type s a := by
  intro hphase htool hcount q hq
  have hp := h hphase htool hcount
  rw [honly q hq, ← hp] at hq
  have hinvalid := (hroles.consistent a.1).unregistered (by rw [hphase]; trivial)
  exact htype (hq.symm.trans hinvalid)

theorem Only.move {args : ι -> Args} {s : World ι} {me p : ι} {event : Event} {c : Process}
    {sh : Segment ι} {type : ProcessType} (htype : type ≠ .invalid) (hroles : Roles args s)
    (h : Only type p s) (has : RegistersAs type p s (me, event))
    (hstep : ProcessStep (args me) me s.segment (s.proc me) event c sh) :
    Only type p (s.move me c sh) := by
  have hconsistent := hroles.consistent me
  intro q hq
  by_cases hqm : q = me
  · subst q
    rw [World.move_proc_self] at hq
    by_cases hbefore : (s.proc me).ipcToolType = .invalid
    · cases hstep.copyOrAside hconsistent with
      | reading reader pc hphase hreader htool hreading =>
          rw [hreader] at hbefore
          cases hbefore
      | writing writer pc hphase hwriter htool hwriting =>
          rw [hwriter] at hbefore
          cases hbefore
      | aside haside =>
          rcases haside.registered hconsistent (by rw [hq]; exact htype) with
            ⟨hsame, _⟩ | ⟨_, hphase, _, hdecided, hcount⟩
          · exact h me (hsame.trans hq)
          · have htool := hdecided.symm.trans hq
            rw [htool] at hcount
            exact has hphase htool hcount
    · exact h me ((hstep.keeps_type hconsistent hbefore).symm.trans hq)
  · rw [World.move_proc_of_ne s c sh hqm] at hq
    exact h q hq

/-!
# The two stages
-/

/-- How far the reader `r` and the writer `w` have come. -/
structure Staged (args : ι -> Args) (r w : ι) (s : World ι)
    (returned delivered : List Payload) (p : Pipeline) : Prop where
  taking : (s.proc r).tool.Taking (args r).src returned p.taken
  passing : (s.proc w).tool.Passing (args r).src delivered p.passed

omit [DecidableEq ι] in
theorem init_staged (args : ι -> Args) (r w : ι) (buffers : Nat -> List UInt8) :
    Staged args r w (World.init buffers) [] [] Pipeline.init where
  taking := ⟨rfl, rfl⟩
  passing := ⟨rfl, rfl⟩

section Move

variable {args : ι -> Args} {s : World ι} {r w : ι} {c : Process} {sh : Segment ι}
  {returned delivered : List Payload} {p : Pipeline}

/-- A step aside takes no chunk and passes none on. -/
theorem Staged.aside (h : Staged args r w s returned delivered p) {me : ι}
    (haside : Aside (args me) s.segment sh (s.proc me) c) :
    Staged args r w (s.move me c sh) returned delivered p where
  taking := by
    by_cases hme : r = me
    · subst me
      have htaking := h.taking
      rw [World.move_proc_self]
      rcases haside.tool with htool | ⟨_, hnone, hreader | ⟨dst, hwriter⟩⟩
      · rw [htool]
        exact htaking
      · rw [hnone] at htaking
        rw [hreader, htaking.left, htaking.right]
        exact BPCopyTool.Taking.new (args r).src
      · rw [hnone] at htaking
        rw [hwriter]
        exact htaking
    · rw [World.move_proc_of_ne s c sh hme]
      exact h.taking
  passing := by
    by_cases hme : w = me
    · subst me
      have hpassing := h.passing
      rw [World.move_proc_self]
      rcases haside.tool with htool | ⟨_, hnone, hreader | ⟨dst, hwriter⟩⟩
      · rw [htool]
        exact hpassing
      · rw [hnone] at hpassing
        rw [hreader]
        exact hpassing
      · rw [hnone] at hpassing
        rw [hwriter, hpassing.left, hpassing.right]
        exact BPCopyTool.Passing.new (args r).src dst
    · rw [World.move_proc_of_ne s c sh hme]
      exact h.passing

omit [DecidableEq ι] in
/-- With a free buffer in its hands the reader finds room for one more chunk. -/
theorem Staged.room (hne : r ≠ w) (hlinked : Linked s returned delivered)
    (h : Staged args r w s returned delivered p) {reader : BufferedReader} {buf : Buffer}
    (htool : (s.proc r).tool = .reader reader (.read (.fill buf))) :
    p.taken < p.passed + buffersInQueue := by
  have htaking := h.taking
  have hpassing := h.passing
  rw [htool] at htaking
  have htaken : p.taken = returned.length := BPCopyTool.Taking.taken htaking
  have hreading : (s.clients returned delivered).client r = ReadPc.client (.fill buf) := by
    show (s.proc r).tool.client = _
    rw [htool]
    rfl
  cases hwtool : (s.proc w).tool with
  | writer writer pc =>
      rw [hwtool] at hpassing
      have hwriting : unwritten pc.writePc ≤
          ((s.clients returned delivered).client w).held.length := by
        show _ ≤ (s.proc w).tool.client.held.length
        have hclient : (s.proc w).tool.client =
            pc.writePc.elim { call := .idle, held := [] } WritePc.client := by
          rw [hwtool]
          cases pc <;> rfl
        rw [hclient]
        exact unwritten_le _
      exact room_of_fill hlinked.clients hne hreading hwriting htaken
        (BPCopyTool.Passing.passed hpassing)
  | _ =>
      rw [hwtool] at hpassing
      refine room_of_fill hlinked.clients hne hreading (Nat.zero_le _) htaken ?_
      rw [hpassing.left]
      exact (congrArg List.length hpassing.right).symm

theorem Staged.reading (hne : r ≠ w) (hsrc : (args r).src.length < 2 ^ 63)
    (hsession : Session args s) (hlinked : Linked s returned delivered)
    (hdata : Delivery args s returned delivered)
    (h : Staged args r w s returned delivered p) {io : Io} (hio : io.Succeeds)
    {reader : BufferedReader} {pc : ReaderPc} (hr : IsReader (s.proc r))
    (htool : (s.proc r).tool = .reader reader pc)
    (hstep : ReadingStep (args r).src r io s.segment (s.proc r) reader pc c sh) :
    Staged args r w (s.move r c sh) (returned ++ pc.produced s.segment.queue) delivered p ∨
      exists p', Pipeline.Step (chunkCount (args r).src.length) buffersInQueue p .first p' ∧
        Staged args r w (s.move r c sh) (returned ++ pc.produced s.segment.queue)
          delivered p' := by
  have hother := World.move_proc_of_ne s c sh hne.symm
  rcases hstep.taking hsrc hio htool (hlinked.typed r)
    (hsession.reader.flags r reader pc hr htool) (hdata.reader r reader pc hr htool) h.taking
    with hkept | ⟨⟨buf, rfl⟩, hmore, htaken⟩
  · left
    constructor
    · rw [World.move_proc_self]
      exact hkept
    · rw [hother]
      exact h.passing
  · right
    refine ⟨_, Pipeline.Step.take hmore (h.room hne hlinked htool), ?_, ?_⟩
    · rw [World.move_proc_self]
      exact htaken
    · rw [hother]
      exact h.passing

theorem Staged.writing (hne : r ≠ w) (hlinked : Linked s returned delivered)
    (hdata : Delivery args s returned delivered)
    (h : Staged args r w s returned delivered p) {io : Io} (hio : io.Succeeds)
    {writer writer' : BufferedFileWriter} {pc pc' : WriterPc} (hw : IsWriter (s.proc w))
    (htool : (s.proc w).tool = .writer writer pc)
    (hstep : WritingStep w io s.segment (s.proc w) writer pc c sh)
    (htool' : c.tool = .writer writer' pc') :
    Staged args r w (s.move w c sh) returned
        (delivered ++ pc'.delivered s.segment.queue) p ∨
      exists p', Pipeline.Step (chunkCount (args r).src.length) buffersInQueue p .second p' ∧
        Staged args r w (s.move w c sh) returned
          (delivered ++ pc'.delivered s.segment.queue) p' := by
  have hother := World.move_proc_of_ne s c sh hne
  have hfifo : delivered ++ s.segment.queue.writeBuffers.map s.segment.queue.payload =
      returned := hlinked.clients.fifo
  rcases hstep.passing hio htool h.taking.chunked hfifo (hdata.writer w writer pc hw htool)
    h.passing htool' with hkept | ⟨hless, hpassed⟩
  · left
    constructor
    · rw [hother]
      exact h.taking
    · rw [World.move_proc_self]
      exact hkept
  · right
    have hlength := congrArg List.length hfifo
    rw [List.length_append] at hlength
    have htaken := h.taking.length_le
    refine ⟨_, Pipeline.Step.pass (by omega), ?_, ?_⟩
    · rw [hother]
      exact h.taking
    · rw [World.move_proc_self]
      exact hpassed

end Move

/-!
# The refinement
-/

/-- The stages as processes: `r` takes the items and `w` passes them on. -/
inductive Piped (r w : ι) (count capacity : Nat) (p : Pipeline) : ι -> Pipeline -> Prop where
  | take {p' : Pipeline} (hstep : Pipeline.Step count capacity p .first p') :
      Piped r w count capacity p r p'
  | pass {p' : Pipeline} (hstep : Pipeline.Step count capacity p .second p') :
      Piped r w count capacity p w p'

omit [DecidableEq ι] in
theorem Piped.inv {r w q : ι} {count capacity : Nat} {p p' : Pipeline}
    (h : Pipeline.Inv count capacity p) (hstep : Piped r w count capacity p q p') :
    Pipeline.Inv count capacity p' := by
  cases hstep with
  | take htake => exact htake.inv h
  | pass hpass => exact hpass.inv h

/-- What is seen of the two stages: where the reader stands and what has been written. -/
def Shows (args : ι -> Args) (r w : ι) (s : World ι) (p : Pipeline) : Prop :=
  (s.proc r).tool.currentOffset = min (p.taken * bufferSize) (args r).src.length ∧
    (s.proc w).tool.written = (args r).src.take (p.passed * bufferSize)

/-- The states of a session of `r` and `w`, against those of the pipeline. -/
structure InStep (args : ι -> Args) (r w : ι) (s : World ι) (p : Pipeline) : Prop where
  session : Session args s
  reader : Only .readerProcess r s
  writer : Only .writerProcess w s
  data : exists returned delivered, Linked s returned delivered ∧
    Delivery args s returned delivered ∧ Staged args r w s returned delivered p

omit [DecidableEq ι] in
theorem init_inStep (args : ι -> Args) (r w : ι) (buffers : Nat -> List UInt8) :
    InStep args r w (World.init buffers) Pipeline.init where
  session := init_session args buffers
  reader := nofun
  writer := nofun
  data := ⟨[], [], init_linked buffers, init_delivery args buffers,
    init_staged args r w buffers⟩

omit [DecidableEq ι] in
theorem Only.unique {type : ProcessType} {p : ι} {s : World ι} (h : Only type p s) :
    Unique type s := by
  intro q q' hq hq'
  rw [h q hq, h q' hq']

/-- Each step of a session is a step of the pipeline or leaves it as it is. -/
theorem InStep.next {args : ι -> Args} (hsrc : forall p, (args p).src.length < 2 ^ 63)
    {r w : ι} (hne : r ≠ w) {s s' : World ι} {a : World.Action ι} {p : Pipeline}
    (h : InStep args r w s p) (hguard : SessionOf r w s a)
    (hnext : World.next args a s = some s') :
    InStep args r w s' p ∨
      exists p', Piped r w (chunkCount (args r).src.length) buffersInQueue p a.1 p' ∧
        InStep args r w s' p' := by
  rcases a with ⟨me, event⟩
  rcases hguard with ⟨hsucceeds, hreaders, hwriters⟩
  rcases h.data with ⟨returned, delivered, hlinked, hdata, hstaged⟩
  rcases World.next_cases hnext with ⟨c, sh, rfl, hstep⟩
  have hroles := h.session.roles
  have honce := hreaders.once (by simp) hroles h.reader
  have hsession := h.session.move honce hstep
  have hreader := h.reader.move (by simp) hroles hreaders hstep
  have hwriter := h.writer.move (by simp) hroles hwriters hstep
  cases hstep.copyOrAside (hroles.consistent me) with
  | reading reader pc hphase htype htool hreading =>
      cases h.reader me htype
      have hlinked' := hlinked.reading htool hreading
      have hdata' := hdata.reading (hsrc r) h.session.reader.unique hlinked hsucceeds hphase
        htype htool hreading
      rcases hstaged.reading hne (hsrc r) h.session hlinked hdata hsucceeds htype htool
        hreading with hkept | ⟨p', htake, hstaged'⟩
      · exact Or.inl ⟨hsession, hreader, hwriter, _, _, hlinked', hdata', hkept⟩
      · right
        exact ⟨p', Piped.take htake, hsession, hreader, hwriter, _, _, hlinked', hdata',
          hstaged'⟩
  | writing writer pc hphase htype htool hwriting =>
      cases h.writer me htype
      rcases hlinked.writing htool hwriting with ⟨writer', pc', htool', hlinked'⟩
      have hdata' := hdata.writing h.writer.unique hsucceeds hphase htype htool hwriting htool'
      rcases hstaged.writing hne hlinked hdata hsucceeds htype htool hwriting htool' with
        hkept | ⟨p', hpass, hstaged'⟩
      · exact Or.inl ⟨hsession, hreader, hwriter, _, _, hlinked', hdata', hkept⟩
      · right
        exact ⟨p', Piped.pass hpass, hsession, hreader, hwriter, _, _, hlinked', hdata',
          hstaged'⟩
  | aside haside =>
      exact Or.inl ⟨hsession, hreader, hwriter, _, _, hlinked.aside haside,
        hdata.aside hroles honce (hwriters.once (by simp) hroles h.writer) hstep haside,
        hstaged.aside haside⟩

theorem init_refinement (args : ι -> Args) (hsrc : forall p, (args p).src.length < 2 ^ 63)
    (r w : ι) (hne : r ≠ w) (buffers : Nat -> List UInt8) :
    Refinement (StepOf (World.next args)) (SessionOf r w) (World.init buffers)
      (Piped r w (chunkCount (args r).src.length) buffersInQueue) Pipeline.init Prod.fst
      (Shows args r w) := by
  refine ⟨InStep args r w, init_inStep args r w buffers, ?_, ?_⟩
  · intro s p h
    rcases h.data with ⟨returned, delivered, _, _, hstaged⟩
    exact ⟨hstaged.taking.offset, hstaged.passing.bytes⟩
  · intro s a s' p h hguard hnext
    exact h.next hsrc hne hguard hnext

/--
A session of a reader `r` and a writer `w` on the segment is a pipeline with room for the
buffers of the queue, whatever other processes do and wherever anybody is interrupted:
each step of `r` takes the next chunk of its source or none, each step of `w` passes the
next chunk on, whole, or none, and nobody else takes or passes on any.  So the reader is
never further ahead of the writer than the queue has room.
-/
theorem session_refines_pipeline (args : ι -> Args)
    (hsrc : forall p, (args p).src.length < 2 ^ 63) (r w : ι) (hne : r ≠ w)
    (buffers : Nat -> List UInt8) :
    Refinement (StepOf (World.next args)) (SessionOf r w) (World.init buffers)
        (Piped r w (chunkCount (args r).src.length) buffersInQueue) Pipeline.init Prod.fst
        (Shows args r w) ∧
      forall s, Reaches (StepOf (World.next args)) (SessionOf r w) (World.init buffers) s ->
        (s.proc r).tool.currentOffset ≤
          (s.proc w).tool.written.length + buffersInQueue * bufferSize := by
  have hrefines := init_refinement args hsrc r w hne buffers
  refine ⟨hrefines, ?_⟩
  intro s hrun
  rcases hrefines.reaches hrun with ⟨p, hreach, hoffset, hwritten⟩
  have hinv : Pipeline.Inv (chunkCount (args r).src.length) buffersInQueue p :=
    Reaches.invariant _ (fun _ _ _ hx _ hstep => hstep.inv hx) hreach Pipeline.init_inv
  have hfits := Nat.mul_le_mul_right bufferSize hinv.fits
  rw [Nat.add_mul] at hfits
  rw [hoffset, hwritten, List.length_take]
  omega

instance (r w : ι) (s : World ι) (a : World.Action ι) : Decidable (SessionOf r w s a) :=
  inferInstanceAs (Decidable (Succeeds a.2 ∧ (_ -> _ -> _ -> a.1 = r) ∧
    (_ -> _ -> _ -> a.1 = w)))

/-- The reader takes its one chunk, and the writer passes it on. -/
def chunkPassed : List (World.Action Pid) :=
  World.turns .first 18 ++ World.turns .second 14

theorem session_refines_pipeline_chunkPassed :
    exists s, exec (World.next (sources [1, 2, 3] [])) chunkPassed
        (World.init fun _ => []) = some s ∧
      (s.proc .first).tool.currentOffset = 3 ∧ (s.proc .second).tool.written = [1, 2, 3] ∧
      (exists p, Reaches (Piped Pid.first Pid.second (chunkCount 3) buffersInQueue) anyStep
        Pipeline.init p ∧ Shows (sources [1, 2, 3] []) .first .second s p) ∧
      (s.proc .first).tool.currentOffset ≤
        (s.proc .second).tool.written.length + buffersInQueue * bufferSize := by
  have hview : (exec (World.next (sources [1, 2, 3] [])) chunkPassed
      (World.init fun _ => [])).map (fun s =>
        ((s.proc .first).tool.currentOffset, (s.proc .second).tool.written)) =
      some (3, [1, 2, 3]) := by
    decide +kernel
  rcases Option.map_eq_some_iff.mp hview with ⟨s, hexec, hview⟩
  rw [Prod.mk.injEq] at hview
  have hrun : Reaches (StepOf (World.next (sources [1, 2, 3] [])))
      (SessionOf .first .second) (World.init fun _ => []) s :=
    reaches_of_exec chunkPassed (by decide +kernel) hexec
  have hrefines := session_refines_pipeline (sources [1, 2, 3] []) (by decide) .first
    .second (by simp) fun _ => []
  exact ⟨s, hexec, hview.left, hview.right, hrefines.left.reaches hrun,
    hrefines.right s hrun⟩

end Common
end Ki
