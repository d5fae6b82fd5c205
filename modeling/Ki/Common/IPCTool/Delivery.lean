import Ki.Common.IPCTool.Session

/-!
# What one session delivers

With one reader and one writer on the segment the bytes written are those
delivered to the writer, these come in the order in which the reader returned
them, and the reader returned its source.
-/

namespace Ki
namespace Common

open Foundation
open Queue
open FixedBufferQueue
open Clients
open Reader
open BufferedReader
open Writer
open BufferedFileWriter
open Stdio
open IPC
open IPCTool

variable {ι : Type} [DecidableEq ι]

/-!
# One step of `copy`
-/

/-- The reader has not opened its file. -/
def Unopened : ReaderPc -> Prop
  | .openQueue => True
  | .openFile => True
  | _ => False

/-- A reader process at `pc`, against the history of the producers. -/
structure ReaderData (src : List UInt8) (reader : BufferedReader)
    (buffers : Nat -> List UInt8) (pc : ReaderPc) (returned : List Payload) :
    Prop where
  read : ReadData src reader buffers pc.readPc returned
  unopened : Unopened pc -> reader = BufferedReader.new src ∧ returned = []

/-- A writer process at `pc`, against the history of the consumers. -/
structure WriterData (writer : BufferedFileWriter) (buffers : Nat -> List UInt8)
    (pc : WriterPc) (delivered : List Payload) : Prop where
  write : WriteData writer buffers pc.writePc delivered
  uncreated : pc = .create -> delivered = []

theorem IPCTool.ReadingStep.data {src : List UInt8} (hsrc : src.length < 2 ^ 63)
    {me : ι} {io : Io} (hio : io.Succeeds) {sh sh' : Segment ι} {p p' : Process}
    {reader : BufferedReader} {pc : ReaderPc} {returned : List Payload}
    (htool : p.tool = .reader reader pc) (htyped : p.tool.Typed)
    (h : ReaderData src reader sh.queue.buffers pc returned)
    (hstep : ReadingStep src me io sh p reader pc p' sh') :
    exists reader' pc', p'.tool = .reader reader' pc' ∧
      ReaderData src reader' sh'.queue.buffers pc'
        (returned ++ pc.produced sh.queue) := by
  have hread := h.read
  have hunopened := h.unopened
  have hsilent : pc.produced sh.queue = [] ->
      (exists reader' pc', p'.tool = .reader reader' pc' ∧
        ReaderData src reader' sh'.queue.buffers pc' returned) ->
      exists reader' pc', p'.tool = .reader reader' pc' ∧
        ReaderData src reader' sh'.queue.buffers pc'
          (returned ++ pc.produced sh.queue) := by
    intro hproduced hdata
    rw [hproduced, List.append_nil]
    exact hdata
  cases hstep with
  | openQueue => exact hsilent rfl ⟨_, _, rfl, hread, fun _ => hunopened trivial⟩
  | crash hnull => exact hsilent rfl ⟨_, _, htool, h⟩
  | openFails hfails =>
      rw [hio.left] at hfails
      cases hfails
  | openFile =>
      rcases hunopened trivial with ⟨rfl, rfl⟩
      exact hsilent rfl ⟨_, _, rfl, ReadData.opened src _, False.elim⟩
  | unfinished hunfinished =>
      exact hsilent rfl ⟨_, _, rfl, hread.enter, False.elim⟩
  | @read rpc r reader' q hread' =>
      rw [htool] at htyped
      have hdata := ReadData.readStep hsrc hio (htyped rpc rfl) hread hread'
      cases r with
      | next rpc' => exact ⟨_, _, rfl, hdata, False.elim⟩
      | done => exact ⟨_, _, rfl, hdata, False.elim⟩
      | threw held => exact ⟨_, _, rfl, hdata, False.elim⟩
  | started hpc hstarted =>
      rcases hpc with rfl | rfl
      · exact hsilent rfl ⟨_, _, rfl, hread, False.elim⟩
      · exact hsilent rfl ⟨_, _, rfl, hread, False.elim⟩
  | sleep hpc hstarted =>
      rcases hpc with rfl | rfl
      · exact hsilent rfl ⟨_, _, rfl, hread, False.elim⟩
      · exact hsilent rfl ⟨_, _, rfl, hread, False.elim⟩
  | _ => exact hsilent rfl ⟨_, _, rfl, hread, False.elim⟩

theorem IPCTool.WritingStep.data {me : ι} {io : Io} (hio : io.Succeeds)
    {sh sh' : Segment ι} {p p' : Process} {writer writer' : BufferedFileWriter}
    {pc pc' : WriterPc} {delivered : List Payload}
    (htool : p.tool = .writer writer pc)
    (h : WriterData writer sh.queue.buffers pc delivered)
    (hstep : WritingStep me io sh p writer pc p' sh')
    (htool' : p'.tool = .writer writer' pc') :
    WriterData writer' sh'.queue.buffers pc'
      (delivered ++ pc'.delivered sh.queue) := by
  have hwrite := h.write
  have hsilent : pc'.delivered sh.queue = [] ->
      WriterData writer' sh'.queue.buffers pc' delivered ->
      WriterData writer' sh'.queue.buffers pc'
        (delivered ++ pc'.delivered sh.queue) := by
    intro hdelivered hdata
    rw [hdelivered, List.append_nil]
    exact hdata
  cases hstep with
  | createFails hfails =>
      rw [hio.left] at hfails
      cases hfails
  | create =>
      cases htool'
      rw [h.uncreated rfl]
      exact ⟨WriteData.created writer _, nofun⟩
  | crash hnull =>
      cases htool.symm.trans htool'
      exact hsilent rfl h
  | @write wpc r writer'' q hwrite' =>
      have hdata := WriteData.writeStep hio hwrite hwrite'
      cases r with
      | next wpc' =>
          cases htool'
          cases wpc' <;> exact ⟨hdata, nofun⟩
      | done =>
          cases htool'
          exact ⟨hdata, nofun⟩
  | _ =>
      cases htool'
      exact hsilent rfl ⟨hwrite, nofun⟩

/-- A reader's step writes only to the array in its hands. -/
theorem IPCTool.ReadingStep.buffers {src : List UInt8} {me : ι} {io : Io}
    {sh sh' : Segment ι} {p p' : Process} {reader : BufferedReader}
    {pc : ReaderPc} {data : Nat}
    (hdata : forall buf, buf ∈ pc.client.held -> data ≠ buf.data)
    (hstep : ReadingStep src me io sh p reader pc p' sh') :
    sh'.queue.buffers data = sh.queue.buffers data := by
  cases hstep with
  | read hread => exact readStep_buffers hread hdata
  | _ => rfl

theorem IPCTool.WritingStep.buffers {me : ι} {io : Io} {sh sh' : Segment ι}
    {p p' : Process} {writer : BufferedFileWriter} {pc : WriterPc}
    (hstep : WritingStep me io sh p writer pc p' sh') :
    sh'.queue.buffers = sh.queue.buffers := by
  cases hstep with
  | write hwrite => exact writeStep_buffers hwrite
  | _ => rfl

theorem WriterData.frame {writer : BufferedFileWriter}
    {buffers buffers' : Nat -> List UInt8} {pc : WriterPc}
    {delivered : List Payload} (h : WriterData writer buffers pc delivered)
    (hsame : forall b, b ∈ pc.client.held -> buffers' b.data = buffers b.data) :
    WriterData writer buffers' pc delivered where
  write := by
    refine h.write.frame ?_
    intro wpc hwpc b hb
    apply hsame
    cases pc with
    | write wpc' =>
        cases hwpc
        exact hb
    | _ => cases hwpc
  uncreated := h.uncreated

/-!
# All processes
-/

/-- At most one process has ever been registered with the type. -/
def Unique (type : ProcessType) (s : World ι) : Prop :=
  forall p q, (s.proc p).ipcToolType = type -> (s.proc q).ipcToolType = type -> p = q

theorem Unique.move {args : ι -> Args} {s : World ι} {me : ι} {event : Event}
    {c : Process} {sh : Segment ι} {type : ProcessType} (htype : type ≠ .invalid)
    (hroles : Roles args s) (h : Unique type s)
    (honce : RegistersOnce type s (me, event))
    (hstep : ProcessStep (args me) me s.segment (s.proc me) event c sh) :
    Unique type (s.move me c sh) := by
  have hconsistent := hroles.consistent me
  have horigin : forall p, ((s.move me c sh).proc p).ipcToolType = type ->
      (s.proc p).ipcToolType = type ∨
        p = me ∧ forall q, (s.proc q).ipcToolType ≠ type := by
    intro p hp
    by_cases hpm : p = me
    · subst p
      rw [World.move_proc_self] at hp
      cases hstep.copyOrAside hconsistent with
      | reading reader pc hphase _ htool hreading =>
          exact Or.inl ((hreading.role hphase).left.symm.trans hp)
      | writing writer pc hphase _ htool hwriting =>
          exact Or.inl ((hwriting.role hphase).left.symm.trans hp)
      | aside haside =>
          rcases haside.registered hconsistent (by rw [hp]; exact htype) with
            ⟨hsame, _⟩ | ⟨_, hphase, _, hdecided, hcount⟩
          · exact Or.inl (hsame.trans hp)
          · have htool := hdecided.symm.trans hp
            rw [htool] at hcount
            exact Or.inr ⟨rfl, honce hphase htool hcount⟩
    · rw [World.move_proc_of_ne s c sh hpm] at hp
      exact Or.inl hp
  intro p q hp hq
  rcases horigin p hp with hp' | ⟨hpm, hnone⟩
  · rcases horigin q hq with hq' | ⟨_, hnone⟩
    · exact h p q hp' hq'
    · exact absurd hp' (hnone p)
  · rcases horigin q hq with hq' | ⟨hqm, _⟩
    · exact absurd hq' (hnone q)
    · rw [hpm, hqm]

/-- What the processes have read and written, against the two histories. -/
structure Delivery (args : ι -> Args) (s : World ι)
    (returned delivered : List Payload) : Prop where
  reader : forall r reader pc, IsReader (s.proc r) ->
    (s.proc r).tool = .reader reader pc ->
    ReaderData (args r).src reader s.segment.queue.buffers pc returned
  unread : (forall r, ¬ IsReader (s.proc r)) -> returned = []
  writer : forall w writer pc, IsWriter (s.proc w) ->
    (s.proc w).tool = .writer writer pc ->
    WriterData writer s.segment.queue.buffers pc delivered
  unwritten : (forall w, ¬ IsWriter (s.proc w)) -> delivered = []

omit [DecidableEq ι] in
theorem init_delivery (args : ι -> Args) (buffers : Nat -> List UInt8) :
    Delivery args (World.init buffers : World ι) [] [] where
  reader := nofun
  unread := fun _ => rfl
  writer := nofun
  unwritten := fun _ => rfl

omit [DecidableEq ι] in
/-- Two processes never hold the same array. -/
theorem Linked.distinct {s : World ι} {returned delivered : List Payload}
    (h : Linked s returned delivered) {p q : ι} (hne : p ≠ q) {b b' : Buffer}
    (hb : b ∈ (s.proc p).tool.client.held) (hb' : b' ∈ (s.proc q).tool.client.held) :
    b'.data ≠ b.data := by
  intro heq
  have hplace := h.clients.owned.eq_of_mem (b := .heldBy p) (c := .heldBy q)
    (List.mem_map_of_mem hb) (by rw [← heq]; exact List.mem_map_of_mem hb')
  cases hplace
  exact hne rfl

section Move

variable {args : ι -> Args} {s : World ι} {me : ι} {c : Process} {sh : Segment ι}
  {returned delivered : List Payload}

theorem Delivery.reading (hsrc : (args me).src.length < 2 ^ 63)
    (hunique : Unique .readerProcess s) (hlinked : Linked s returned delivered)
    (h : Delivery args s returned delivered) {io : Io} (hio : io.Succeeds)
    {reader : BufferedReader} {pc : ReaderPc} (hphase : (s.proc me).phase = .copy)
    (hme : IsReader (s.proc me)) (htool : (s.proc me).tool = .reader reader pc)
    (hstep : ReadingStep (args me).src me io s.segment (s.proc me) reader pc c sh) :
    Delivery args (s.move me c sh) (returned ++ pc.produced s.segment.queue)
      delivered := by
  have htype : IsReader c := (hstep.role hphase).left.trans hme
  rcases hstep.data hsrc hio htool (hlinked.typed me)
    (h.reader me reader pc hme htool) with ⟨reader', pc', htool', hdata⟩
  constructor
  · intro r rd rpc hr hrtool
    by_cases hrm : r = me
    · subst r
      rw [World.move_proc_self, htool'] at hrtool
      cases hrtool
      exact hdata
    · rw [World.move_proc_of_ne s c sh hrm] at hr
      exact absurd (hunique r me hr hme) hrm
  · intro hnone
    have hc := hnone me
    rw [World.move_proc_self] at hc
    exact absurd htype hc
  · intro w writer wpc hw hwtool
    rcases move_proc_of_type (by rw [htype]; simp) hw with ⟨hwm, hsame⟩
    rw [hsame] at hw hwtool
    refine (h.writer w writer wpc hw hwtool).frame ?_
    intro b hb
    apply hstep.buffers
    intro b' hb'
    refine hlinked.distinct (Ne.symm hwm) ?_ ?_
    · rw [htool]
      exact hb'
    · rw [hwtool]
      exact hb
  · intro hnone
    apply h.unwritten
    intro w hw
    have hwm : w ≠ me := by
      intro heq
      rw [heq] at hw
      exact hme.not_isWriter hw
    exact hnone w (by rw [World.move_proc_of_ne s c sh hwm]; exact hw)

theorem Delivery.writing (hunique : Unique .writerProcess s)
    (h : Delivery args s returned delivered) {io : Io} (hio : io.Succeeds)
    {writer writer' : BufferedFileWriter} {pc pc' : WriterPc}
    (hphase : (s.proc me).phase = .copy) (hme : IsWriter (s.proc me))
    (htool : (s.proc me).tool = .writer writer pc)
    (hstep : WritingStep me io s.segment (s.proc me) writer pc c sh)
    (htool' : c.tool = .writer writer' pc') :
    Delivery args (s.move me c sh) returned
      (delivered ++ pc'.delivered s.segment.queue) := by
  have htype : IsWriter c := (hstep.role hphase).left.trans hme
  have hdata := hstep.data hio htool (h.writer me writer pc hme htool) htool'
  constructor
  · intro r reader rpc hr hrtool
    rcases move_proc_of_type (by rw [htype]; simp) hr with ⟨_, hsame⟩
    rw [hsame] at hr hrtool
    rw [World.move_segment, hstep.buffers]
    exact h.reader r reader rpc hr hrtool
  · intro hnone
    apply h.unread
    intro r hr
    have hrm : r ≠ me := by
      intro heq
      rw [heq] at hr
      exact hr.not_isWriter hme
    exact hnone r (by rw [World.move_proc_of_ne s c sh hrm]; exact hr)
  · intro w wr wpc hw hwtool
    by_cases hwm : w = me
    · subst w
      rw [World.move_proc_self, htool'] at hwtool
      cases hwtool
      exact hdata
    · rw [World.move_proc_of_ne s c sh hwm] at hw
      exact absurd (hunique w me hw hme) hwm
  · intro hnone
    have hc := hnone me
    rw [World.move_proc_self] at hc
    exact absurd htype hc

theorem Delivery.aside {event : Event} (hroles : Roles args s)
    (hreaders : RegistersOnce .readerProcess s (me, event))
    (hwriters : RegistersOnce .writerProcess s (me, event))
    (h : Delivery args s returned delivered)
    (hstep : ProcessStep (args me) me s.segment (s.proc me) event c sh)
    (haside : Aside (args me) s.segment sh (s.proc me) c) :
    Delivery args (s.move me c sh) returned delivered := by
  have hconsistent := hroles.consistent me
  constructor
  · intro r reader pc hr htool
    rw [World.move_segment, haside.queue]
    rcases haside.origin hconsistent (by simp) hr with
      ⟨hr', hsame⟩ | ⟨rfl, hsame, hphase, htype, hcount⟩
    · rw [hsame] at htool
      exact h.reader r reader pc hr' htool
    · rw [World.move_proc_self, hsame] at htool
      rw [h.unread (hreaders hphase htype hcount)]
      rcases hconsistent.decided_reader hphase htool with ⟨rfl, rfl⟩
      exact ⟨ReadData.new _ _, fun _ => ⟨rfl, rfl⟩⟩
  · intro hnone
    apply h.unread
    intro r hr
    exact hnone r ((hroles.keeps_type hstep hr.type_ne).trans hr)
  · intro w writer pc hw htool
    rw [World.move_segment, haside.queue]
    rcases haside.origin hconsistent (by simp) hw with
      ⟨hw', hsame⟩ | ⟨rfl, hsame, hphase, htype, hcount⟩
    · rw [hsame] at htool
      exact h.writer w writer pc hw' htool
    · rw [World.move_proc_self, hsame] at htool
      rw [h.unwritten (hwriters hphase htype hcount)]
      rcases hconsistent.decided_writer hphase htool with ⟨rfl, dst, rfl⟩
      exact ⟨rfl, fun _ => rfl⟩
  · intro hnone
    apply h.unwritten
    intro w hw
    exact hnone w ((hroles.keeps_type hstep hw.type_ne).trans hw)

end Move

/-!
# Runs of one session
-/

/-- The stdio calls of the step succeed. -/
def Succeeds : Event -> Prop
  | .run io => io.Succeeds
  | .interrupt => True
  | .observe => True

instance (event : Event) : Decidable (Succeeds event) :=
  match event with
  | .run io => inferInstanceAs (Decidable io.Succeeds)
  | .interrupt => inferInstanceAs (Decidable True)
  | .observe => inferInstanceAs (Decidable True)

/-- No stdio call fails, and only the first reader and the first writer register. -/
def OneSession (s : World ι) (a : World.Action ι) : Prop :=
  Succeeds a.2 ∧ RegistersOnce .readerProcess s a ∧ RegistersOnce .writerProcess s a

instance (s : World Pid) (a : World.Action Pid) :
    Decidable (OneSession s a) :=
  inferInstanceAs (Decidable (_ ∧ _ ∧ _))

/-- What holds in every run of one session. -/
structure Delivering (args : ι -> Args) (s : World ι) : Prop where
  session : Session args s
  writers : Unique .writerProcess s
  data : exists returned delivered, Linked s returned delivered ∧
    Delivery args s returned delivered

omit [DecidableEq ι] in
theorem init_delivering (args : ι -> Args) (buffers : Nat -> List UInt8) :
    Delivering args (World.init buffers : World ι) where
  session := init_session args buffers
  writers := nofun
  data := ⟨[], [], init_linked buffers, init_delivery args buffers⟩

theorem Delivering.next {args : ι -> Args}
    (hsrc : forall p, (args p).src.length < 2 ^ 63) {s s' : World ι}
    {a : World.Action ι} (h : Delivering args s) (hguard : OneSession s a)
    (hnext : World.next args a s = some s') : Delivering args s' := by
  rcases a with ⟨me, event⟩
  rcases hguard with ⟨hsucceeds, hreaders, hwriters⟩
  rcases World.next_cases hnext with ⟨c, sh, rfl, hstep⟩
  have hroles := h.session.roles
  refine ⟨h.session.move hreaders hstep,
    h.writers.move (by simp) hroles hwriters hstep, ?_⟩
  rcases h.data with ⟨returned, delivered, hlinked, hdata⟩
  cases hstep.copyOrAside (hroles.consistent me) with
  | reading reader pc hphase htype htool hreading =>
      exact ⟨_, _, hlinked.reading htool hreading,
        hdata.reading (hsrc me) h.session.reader.unique hlinked hsucceeds hphase
          htype htool hreading⟩
  | writing writer pc hphase htype htool hwriting =>
      rcases hlinked.writing htool hwriting with ⟨writer', pc', htool', hlinked'⟩
      exact ⟨_, _, hlinked',
        hdata.writing h.writers hsucceeds hphase htype htool hwriting htool'⟩
  | aside haside =>
      exact ⟨_, _, hlinked.aside haside,
        hdata.aside hroles hreaders hwriters hstep haside⟩

theorem Delivering.run {args : ι -> Args}
    (hsrc : forall p, (args p).src.length < 2 ^ 63) {s s' : World ι}
    (h : Delivering args s)
    (hrun : Reaches (StepOf (World.next args)) OneSession s s') :
    Delivering args s' := by
  refine Reaches.invariant (Delivering args) ?_ hrun h
  intro x a x' hx hguard hnext
  exact hx.next hsrc hguard hnext

omit [DecidableEq ι] in
/-- A reader that has closed the queue after its last chunk has no bytes in hand. -/
theorem ReaderFlags.closed {q : FixedBufferQueue ι} {reader : BufferedReader}
    {pc : ReaderPc} (h : ReaderFlags q reader pc) (hdrained : Drained q) :
    pc.readPc = none ∧ reader.readFinished = true := by
  have hopen := h.isOpen
  have hfinished := h.finished
  rw [hdrained.closed] at hopen
  rw [hdrained.finished] at hfinished
  cases pc with
  | read rpc => cases hopen
  | _ => exact ⟨rfl, hfinished.symm⟩

omit [DecidableEq ι] in
/-- The bytes written are a prefix of those queued, and these of the source. -/
theorem Delivery.written_prefix {args : ι -> Args} {s : World ι}
    {returned delivered : List Payload} (hlinked : Linked s returned delivered)
    (h : Delivery args s returned delivered) {r w : ι} {reader : BufferedReader}
    {rpc : ReaderPc} {writer : BufferedFileWriter} {pc : WriterPc}
    (hr : IsReader (s.proc r)) (hrtool : (s.proc r).tool = .reader reader rpc)
    (hw : IsWriter (s.proc w)) (htool : (s.proc w).tool = .writer writer pc) :
    writer.written <+: (args r).src := by
  have hdelivered : writer.written <+: bytesOf delivered :=
    ⟨_, (h.writer w writer pc hw htool).write⟩
  have hreturned : bytesOf delivered <+: bytesOf returned := by
    have hfifo : delivered ++ _ = returned := hlinked.clients.fifo
    rw [← hfifo, bytesOf_append]
    exact List.prefix_append _ _
  have hsource : bytesOf returned <+: (args r).src.take reader.currentOffset :=
    ⟨_, (h.reader r reader rpc hr hrtool).read.bytes⟩
  exact ((hdelivered.trans hreturned).trans hsource).trans (List.take_prefix _ _)

omit [DecidableEq ι] in
/-- Once everything has been taken from the queue, the bytes written are the source. -/
theorem Delivery.written_drained {args : ι -> Args} {s : World ι}
    {returned delivered : List Payload} (hlinked : Linked s returned delivered)
    (h : Delivery args s returned delivered) {r w : ι} {reader : BufferedReader}
    {rpc : ReaderPc} {writer : BufferedFileWriter} {pc : WriterPc}
    (hr : IsReader (s.proc r)) (hrtool : (s.proc r).tool = .reader reader rpc)
    (hflags : ReaderFlags s.segment.queue reader rpc) (hw : IsWriter (s.proc w))
    (htool : (s.proc w).tool = .writer writer pc) (hdrained : Drained s.segment.queue)
    (hpending : pending s.segment.queue.buffers pc.writePc = []) :
    writer.written = (args r).src := by
  rcases hflags.closed hdrained with ⟨hpc, hfinished⟩
  have hread := (h.reader r reader rpc hr hrtool).read
  have hwrite := (h.writer w writer pc hw htool).write
  have hfifo := hlinked.clients.fifo
  have hempty : (s.clients returned delivered).queue.writeBuffers = [] :=
    hdrained.empty
  rw [hempty, List.map_nil, List.append_nil] at hfifo
  change delivered = returned at hfifo
  calc
    writer.written = bytesOf delivered := by
      simpa [WriteData, hpending] using hwrite
    _ = bytesOf returned := by rw [hfifo]
    _ = (args r).src.take reader.currentOffset := by
      simpa [hpc, inHand] using hread.bytes
    _ = (args r).src := by rw [hread.finished hfinished, List.take_length]

omit [DecidableEq ι] in
theorem Delivery.written_all {args : ι -> Args} {s : World ι}
    {returned delivered : List Payload} (hsession : Session args s)
    (hlinked : Linked s returned delivered)
    (h : Delivery args s returned delivered) {r w : ι} {reader : BufferedReader}
    {rpc : ReaderPc} {writer : BufferedFileWriter} {pc : WriterPc}
    (hr : IsReader (s.proc r)) (hrtool : (s.proc r).tool = .reader reader rpc)
    (hw : IsWriter (s.proc w)) (htool : (s.proc w).tool = .writer writer pc)
    (hleft : pc.Left) : writer.written = (args r).src := by
  have hwpc : pc.writePc = none := by
    cases pc with
    | write wpc => cases hleft
    | _ => rfl
  exact h.written_drained hlinked hr hrtool (hsession.reader.flags r reader rpc hr hrtool)
    hw htool (hsession.drains.left w writer pc hw htool hleft) (by rw [hwpc]; rfl)

omit [DecidableEq ι] in
theorem Delivering.written {args : ι -> Args} {s : World ι} (h : Delivering args s)
    {r w : ι} {writer : BufferedFileWriter} {pc : WriterPc}
    (hr : IsReader (s.proc r)) (hw : IsWriter (s.proc w))
    (htool : (s.proc w).tool = .writer writer pc) :
    writer.written <+: (args r).src ∧ (pc.Left -> writer.written = (args r).src) := by
  rcases h.session.roles.reader_tool hr with ⟨reader, rpc, hrtool⟩
  rcases h.data with ⟨returned, delivered, hlinked, hdata⟩
  constructor
  · exact hdata.written_prefix hlinked hr hrtool hw htool
  · exact hdata.written_all h.session hlinked hr hrtool hw htool

/--
In every run of one reader and one writer the bytes written are a prefix of the
source, and the whole source once the writer has left its loop.
-/
theorem session_writes_source (args : ι -> Args)
    (hsrc : forall p, (args p).src.length < 2 ^ 63) (buffers : Nat -> List UInt8)
    (s : World ι) (r w : ι) (writer : BufferedFileWriter) (pc : WriterPc)
    (hrun : Reaches (StepOf (World.next args)) OneSession (World.init buffers) s)
    (hr : IsReader (s.proc r)) (hw : IsWriter (s.proc w))
    (htool : (s.proc w).tool = .writer writer pc) :
    writer.written <+: (args r).src ∧
      (pc.Left -> writer.written = (args r).src) :=
  ((init_delivering args buffers).run hsrc hrun).written hr hw htool

/-- The writer gets no buffer once before the reader opens the queue. -/
def writerPolls : List (World.Action Pid) :=
  World.turns .first 6 ++ World.turns .second 12 ++
    World.turns .first 14 ++ World.turns .second 9

theorem session_writes_source_writerPolls :
    exists s writer, exec (World.next (sources [1, 2, 3] [])) writerPolls
        (World.init fun _ => []) = some s ∧
      (s.proc .second).tool = .writer writer .stopTimer ∧
      BufferedFileWriter.written writer = [1, 2, 3] := by
  have hview : (exec (World.next (sources [1, 2, 3] [])) writerPolls
      (World.init fun _ => [])).map (fun s => ((s.proc .first).ipcToolType,
        (s.proc .second).ipcToolType, (s.proc .second).tool)) =
      some (.readerProcess, .writerProcess, .writer
        { fileName := "dst"
          fileDesc := some { buffer := [], cache := [1, 2, 3], disk := [] } }
        .stopTimer) := by
    decide +kernel
  rcases Option.map_eq_some_iff.mp hview with ⟨s, hexec, hpcs⟩
  simp only [Prod.mk.injEq] at hpcs
  rcases hpcs with ⟨hr, hw, htool⟩
  refine ⟨s, _, hexec, htool, ?_⟩
  exact (session_writes_source (sources [1, 2, 3] []) (by decide) _ s .first .second
    _ .stopTimer (reaches_of_exec writerPolls (by decide +kernel) hexec) hr hw
    htool).right trivial

end Common
end Ki
