import Ki.Common.IPCTool.Roles

/-!
# The processes as clients of the shared queue

Every process is a client of the queue in the segment.  A process that has left
`copy` by an exception or an interruption keeps for ever what it held.
-/

namespace Ki
namespace IPC

open Queue
open Clients
open Reader
open BufferedReader
open Writer
open BufferedFileWriter

namespace ReaderPc

def client : ReaderPc -> Client
  | .read pc => pc.client
  | .threw held => { call := .idle, held := held }
  | _ => { call := .idle, held := [] }

def readPc : ReaderPc -> Option ReadPc
  | .read pc => some pc
  | _ => none

/-- What a step from this point adds to the history of the producers. -/
def produced {ι : Type} (q : FixedBufferQueue ι) : ReaderPc -> List Payload
  | .read pc => pc.returned q
  | _ => []

end ReaderPc

namespace WriterPc

def client : WriterPc -> Client
  | .write pc => pc.client
  | _ => { call := .idle, held := [] }

def writePc : WriterPc -> Option WritePc
  | .write pc => some pc
  | _ => none

/-- What a step to this point adds to the history of the consumers. -/
def delivered {ι : Type} (q : FixedBufferQueue ι) : WriterPc -> List Payload
  | .write (.fwrite buf) => [q.payload buf]
  | _ => []

end WriterPc

namespace Tool

def client : Tool -> Client
  | .none => { call := .idle, held := [] }
  | .reader _ pc => pc.client
  | .writer _ pc => pc.client

/-- A buffer in the hands of a thread has the type its function gave it. -/
def Typed : Tool -> Prop
  | .none => True
  | .reader _ pc => forall p, pc.readPc = some p -> p.Typed
  | .writer _ pc => forall p, pc.writePc = some p -> p.Typed

end Tool
end IPC

namespace Common

open Foundation
open Queue
open Clients
open Reader
open BufferedReader
open Writer
open BufferedFileWriter
open Stdio
open IPC
open IPCTool

variable {ι : Type} [DecidableEq ι]

/-!
# Steps outside of copying
-/

/-- A step that is no step of `copy`: it leaves the queue alone. -/
structure Aside (args : Args) (sh sh' : Segment ι) (p p' : Process) : Prop where
  queue : sh'.queue = sh.queue
  started : sh'.procInfo.isWritingStarted = true ->
    sh.procInfo.isWritingStarted = true
  tool : p'.tool = p.tool ∨ p.ipcToolType = .invalid ∧ p.tool = .none ∧
    (p'.tool = .reader (BufferedReader.new args.src) .openQueue ∨
      exists dst, p'.tool = .writer (BufferedFileWriter.new dst) .create)
  type : p'.ipcToolType = p.ipcToolType ∨ p.phase = .register ∧ p'.tool = p.tool ∧
    (p'.ipcToolType = .invalid ∨ p'.ipcToolType = p.tool.toolType ∧
      sh.procInfo.counter p.tool.toolType = 0)

omit [DecidableEq ι] in
theorem StartStep.aside {args : Args} {sh sh' : Segment ι} {p p' : Process}
    (hconsistent : Consistent args p) (h : StartStep args sh p p' sh') :
    Aside args sh sh' p p' := by
  have htype := hconsistent.unregistered h.phase
  cases h with
  | decideReader hphase hcount =>
      have htool := hconsistent.undecided (by rw [hphase]; trivial)
      exact ⟨rfl, id, Or.inr ⟨htype, htool, Or.inl rfl⟩, Or.inl rfl⟩
  | decideWriter hphase hcount =>
      have htool := hconsistent.undecided (by rw [hphase]; trivial)
      exact ⟨rfl, id, Or.inr ⟨htype, htool, Or.inr ⟨_, rfl⟩⟩, Or.inl rfl⟩
  | register hphase htool hcount =>
      refine ⟨rfl, ?_, Or.inl rfl, Or.inr ⟨hphase, rfl, Or.inr ⟨rfl, hcount⟩⟩⟩
      intro hstarted
      simpa using hstarted
  | reject hphase =>
      exact ⟨rfl, id, Or.inl rfl, Or.inr ⟨hphase, rfl, Or.inl rfl⟩⟩
  | storeDst hphase =>
      refine ⟨rfl, ?_, Or.inl rfl, Or.inl rfl⟩
      intro hstarted
      cases hstarted
  | _ => exact ⟨rfl, id, Or.inl rfl, Or.inl rfl⟩

omit [DecidableEq ι] in
theorem LeaveStep.aside {args : Args} {sh sh' : Segment ι} {p p' : Process}
    (h : LeaveStep sh p p' sh') : Aside args sh sh' p p' := by
  cases h with
  | deregister hphase =>
      refine ⟨rfl, ?_, Or.inl rfl, Or.inl rfl⟩
      intro hstarted
      simpa [ProcInfo.deregister] using hstarted
  | _ => exact ⟨rfl, id, Or.inl rfl, Or.inl rfl⟩

omit [DecidableEq ι] in
/-- A step aside keeps the type and the tool of a registered process. -/
theorem Aside.keeps {args : Args} {sh sh' : Segment ι} {p p' : Process}
    (hconsistent : Consistent args p) (h : Aside args sh sh' p p')
    (hp : p.ipcToolType ≠ .invalid) :
    p'.ipcToolType = p.ipcToolType ∧ p'.tool = p.tool := by
  constructor
  · rcases h.type with htype | ⟨hphase, _⟩
    · exact htype
    · exact absurd (hconsistent.unregistered (by rw [hphase]; trivial)) hp
  · rcases h.tool with htool | ⟨hinvalid, _⟩
    · exact htool
    · exact absurd hinvalid hp

omit [DecidableEq ι] in
/-- A process registered after a step aside was so before, or has just been registered. -/
theorem Aside.registered {args : Args} {sh sh' : Segment ι} {p p' : Process}
    (hconsistent : Consistent args p) (h : Aside args sh sh' p p')
    (hp' : p'.ipcToolType ≠ .invalid) :
    p.ipcToolType = p'.ipcToolType ∧ p'.tool = p.tool ∨
      p.ipcToolType = .invalid ∧ p.phase = .register ∧ p'.tool = p.tool ∧
        p'.ipcToolType = p.tool.toolType ∧
        sh.procInfo.counter p.tool.toolType = 0 := by
  rcases h.type with htype | ⟨hphase, htool, hinvalid | ⟨htype, hcount⟩⟩
  · have hp : p.ipcToolType ≠ .invalid := by
      rw [← htype]
      exact hp'
    exact Or.inl ⟨htype.symm, (h.keeps hconsistent hp).right⟩
  · exact absurd hinvalid hp'
  · have hunregistered := hconsistent.unregistered (by rw [hphase]; trivial)
    exact Or.inr ⟨hunregistered, hphase, htool, htype, hcount⟩

/-- A step is one of a reader in `copy`, one of a writer in `copy`, or aside. -/
inductive CopyOrAside (args : Args) (me : ι) (sh : Segment ι) (p : Process)
    (p' : Process) (sh' : Segment ι) : Event -> Prop where
  | reading {io : Io} (reader : BufferedReader) (pc : ReaderPc)
      (hphase : p.phase = .copy) (htype : p.ipcToolType = .readerProcess)
      (htool : p.tool = .reader reader pc)
      (hreading : ReadingStep args.src me io sh p reader pc p' sh') :
      CopyOrAside args me sh p p' sh' (.run io)
  | writing {io : Io} (writer : BufferedFileWriter) (pc : WriterPc)
      (hphase : p.phase = .copy) (htype : p.ipcToolType = .writerProcess)
      (htool : p.tool = .writer writer pc)
      (hwriting : WritingStep me io sh p writer pc p' sh') :
      CopyOrAside args me sh p p' sh' (.run io)
  | aside {event : Event} (haside : Aside args sh sh' p p') :
      CopyOrAside args me sh p p' sh' event

theorem ProcessStep.copyOrAside {args : Args} {me : ι} {event : Event}
    {sh sh' : Segment ι} {p p' : Process} (hconsistent : Consistent args p)
    (h : ProcessStep args me sh p event p' sh') :
    CopyOrAside args me sh p p' sh' event := by
  cases h with
  | start hstart => exact CopyOrAside.aside (hstart.aside hconsistent)
  | reading hphase htype htool hreading =>
      exact CopyOrAside.reading _ _ hphase htype htool hreading
  | writing hphase htype htool hwriting =>
      exact CopyOrAside.writing _ _ hphase htype htool hwriting
  | invalid hphase htype =>
      exact CopyOrAside.aside ⟨rfl, id, Or.inl rfl, Or.inl rfl⟩
  | leave hleave => exact CopyOrAside.aside hleave.aside
  | interrupt hphase => exact CopyOrAside.aside ⟨rfl, id, Or.inl rfl, Or.inl rfl⟩
  | observe hphase hobserve =>
      apply CopyOrAside.aside
      cases hobserve <;> exact ⟨rfl, id, Or.inl rfl, Or.inl rfl⟩
  | linger hphase hobserve =>
      apply CopyOrAside.aside
      cases hobserve <;> exact ⟨rfl, id, Or.inl rfl, Or.inl rfl⟩

/-!
# Simulation
-/

/-- The queue in the segment, the processes as clients, and two histories. -/
def World.clients (s : World ι) (returned delivered : List Payload) :
    Clients ι where
  queue := s.segment.queue
  client := fun p => (s.proc p).tool.client
  returned := returned
  delivered := delivered

theorem clients_move (s : World ι) (p : ι) (c : Process) (sh : Segment ι)
    (returned returned' delivered delivered' : List Payload) :
    (s.move p c sh).clients (returned ++ returned') (delivered ++ delivered') =
      (s.clients returned delivered).advance p sh.queue c.tool.client
        returned' delivered' := by
  simp only [World.clients, advance, World.move, Clients.mk.injEq, true_and, and_true]
  funext q
  by_cases hq : q = p
  · subst q
    simp
  · simp [hq]

/-- A step in which no process moves as a client. -/
theorem clients_still {s : World ι} {p : ι} {c : Process} {sh : Segment ι}
    (hclient : c.tool.client = (s.proc p).tool.client)
    (returned delivered : List Payload) :
    (s.move p c sh).clients returned delivered =
      { s.clients returned delivered with queue := sh.queue } := by
  have hmove := clients_move s p c sh returned [] delivered []
  rw [List.append_nil, List.append_nil] at hmove
  rw [hmove, hclient]
  exact advance_self (s.clients returned delivered) p sh.queue

theorem clients_same {s : World ι} {p : ι} {c : Process} {sh : Segment ι}
    (hqueue : sh.queue = s.segment.queue)
    (hclient : c.tool.client = (s.proc p).tool.client)
    (returned delivered : List Payload) :
    (s.move p c sh).clients returned delivered = s.clients returned delivered := by
  rw [clients_still hclient, hqueue]
  rfl

section Guard

variable {guard : Clients ι -> Op ι -> Prop}
  (hguard : forall x op, OpenOutsideTests x op -> guard x op)

include hguard

/-- A thread outside of every function of the queue enters one. -/
theorem clients_call {s : World ι} {p : ι} {c : Process} {side : BufferType}
    (hidle : (s.proc p).tool.client = { call := .idle, held := [] })
    (hcall : c.tool.client = { call := .get side .lock, held := [] })
    (returned delivered : List Payload) :
    Reaches Step guard (s.clients returned delivered)
      ((s.move p c s.segment).clients (returned ++ []) (delivered ++ [])) := by
  have hclient : (s.clients returned delivered).client p =
      { call := .idle, held := [] } := hidle
  have hstep := Step.call (s := s.clients returned delivered) (t := p) side
    (by rw [hclient])
  rw [hclient] at hstep
  rw [clients_move, hcall]
  exact Reaches.single (hguard _ _ (OpenOutsideTests.thread _ p)) hstep

theorem IPCTool.ReadingStep.simulates {s : World ι} {p : ι} {src : List UInt8}
    {io : Io} {reader : BufferedReader} {pc : ReaderPc} {c : Process}
    {sh : Segment ι} (returned delivered : List Payload)
    (htool : (s.proc p).tool = .reader reader pc) (htyped : (s.proc p).tool.Typed)
    (hopen : pc = .openQueue -> guard (s.clients returned delivered) .open')
    (h : ReadingStep src p io s.segment (s.proc p) reader pc c sh) :
    Reaches Step guard (s.clients returned delivered)
      ((s.move p c sh).clients (returned ++ pc.produced s.segment.queue)
        delivered) := by
  have hclient : (s.proc p).tool.client = pc.client := by
    rw [htool]
    rfl
  have hsame : pc.produced s.segment.queue = [] -> sh.queue = s.segment.queue ->
      c.tool.client = pc.client ->
      Reaches Step guard (s.clients returned delivered)
        ((s.move p c sh).clients (returned ++ pc.produced s.segment.queue)
          delivered) := by
    intro hproduced hqueue htool'
    rw [hproduced, List.append_nil,
      clients_same hqueue (by rw [htool', hclient])]
  cases h with
  | openQueue =>
      have hstill : ((s.proc p).goto (.reader reader .openFile)).tool.client =
          (s.proc p).tool.client := by
        rw [hclient]
        rfl
      rw [ReaderPc.produced, List.append_nil, clients_still hstill]
      · exact Reaches.single (hopen rfl) Step.open'
      · simp
  | crash hnull => exact hsame rfl rfl hclient
  | openFails hfails => exact hsame rfl rfl rfl
  | openFile => exact hsame rfl rfl rfl
  | startObserver => exact hsame rfl rfl rfl
  | finished hfinished => exact hsame rfl rfl rfl
  | unfinished hunfinished =>
      have hcall := clients_call hguard (c := (s.proc p).goto
        (.reader reader (.read (.getFreeBuffer .lock)))) hclient rfl
        returned delivered
      rw [List.append_nil delivered] at hcall
      exact hcall
  | @read rpc r reader' q hread =>
      have htyped' : rpc.Typed := by
        rw [htool] at htyped
        exact htyped rpc rfl
      have hmove := clients_move s p (afterRead (s.proc p) reader' r)
        { s.segment with queue := q } returned (rpc.returned s.segment.queue)
        delivered []
      have hafter : (afterRead (s.proc p) reader' r).tool.client = r.client := by
        cases r <;> rfl
      rw [List.append_nil, hafter] at hmove
      rw [ReaderPc.produced, hmove]
      have hrefines := readStep_refines (s := s.clients returned delivered)
        hclient htyped' hread
      exact Reaches.mono hguard hrefines
  | close =>
      have hstill : ((s.proc p).goto (.reader reader .awaitStarted)).tool.client =
          (s.proc p).tool.client := by
        rw [hclient]
        rfl
      rw [ReaderPc.produced, List.append_nil, clients_still hstill]
      · exact Reaches.single (hguard _ .close nofun) Step.close
      · simp
  | started hpc hstarted =>
      rcases hpc with rfl | rfl
      · exact hsame rfl rfl rfl
      · exact hsame rfl rfl rfl
  | sleep hpc hstarted =>
      rcases hpc with rfl | rfl
      · exact hsame rfl rfl rfl
      · exact hsame rfl rfl rfl
  | stopTimer hstop => exact hsame rfl rfl rfl

theorem IPCTool.WritingStep.simulates {s : World ι} {p : ι} {io : Io}
    {writer : BufferedFileWriter} {pc : WriterPc} {c : Process} {sh : Segment ι}
    (returned delivered : List Payload)
    (htool : (s.proc p).tool = .writer writer pc) (htyped : (s.proc p).tool.Typed)
    (h : WritingStep p io s.segment (s.proc p) writer pc c sh) :
    exists writer' pc', c.tool = .writer writer' pc' ∧
      Reaches Step guard (s.clients returned delivered)
        ((s.move p c sh).clients returned
          (delivered ++ pc'.delivered s.segment.queue)) := by
  have hclient : (s.proc p).tool.client = pc.client := by
    rw [htool]
    rfl
  have hsame : forall writer' pc', c.tool = .writer writer' pc' ->
      pc'.delivered s.segment.queue = [] -> sh.queue = s.segment.queue ->
      c.tool.client = pc.client ->
      exists writer' pc', c.tool = .writer writer' pc' ∧
        Reaches Step guard (s.clients returned delivered)
          ((s.move p c sh).clients returned
            (delivered ++ pc'.delivered s.segment.queue)) := by
    intro writer' pc' hc hdelivered hqueue htool'
    refine ⟨writer', pc', hc, ?_⟩
    rw [hdelivered, List.append_nil,
      clients_same hqueue (by rw [htool', hclient])]
  have hcall : pc.client = { call := .idle, held := [] } ->
      exists writer' pc', (Process.goto (s.proc p)
          (.writer writer (.write (.getFilledBuffer .lock)))).tool =
          .writer writer' pc' ∧
        Reaches Step guard (s.clients returned delivered)
          ((s.move p ((s.proc p).goto
              (.writer writer (.write (.getFilledBuffer .lock)))) s.segment).clients
            returned (delivered ++ pc'.delivered s.segment.queue)) := by
    intro hidle
    have hcall := clients_call hguard (c := (s.proc p).goto
      (.writer writer (.write (.getFilledBuffer .lock)))) (hclient.trans hidle) rfl
      returned delivered
    rw [List.append_nil returned] at hcall
    exact ⟨_, _, rfl, hcall⟩
  cases h with
  | createFails hfails => exact hsame _ _ rfl rfl rfl rfl
  | create => exact hsame _ _ rfl rfl rfl rfl
  | startWriting => exact hsame _ _ rfl rfl rfl rfl
  | crash hnull => exact hsame _ _ htool rfl rfl hclient
  | checkFinished hfinished => exact hsame _ _ rfl rfl rfl rfl
  | checkUnfinished hunfinished => exact hsame _ _ rfl rfl rfl rfl
  | startObserver => exact hsame _ _ rfl rfl rfl rfl
  | finished hfinished => exact hsame _ _ rfl rfl rfl rfl
  | unfinished hunfinished => exact hcall rfl
  | empty hempty hclosed => exact hsame _ _ rfl rfl rfl rfl
  | nonempty => exact hcall rfl
  | @write wpc r writer' q hwrite =>
      have htyped' : wpc.Typed := by
        rw [htool] at htyped
        exact htyped wpc rfl
      have hrefines := writeStep_refines (s := s.clients returned delivered)
        hclient htyped' hwrite
      have hmove := clients_move s p (afterWrite (s.proc p) writer' r)
        { s.segment with queue := q } returned [] delivered
        (r.delivered s.segment.queue)
      have hafter : (afterWrite (s.proc p) writer' r).tool.client = r.client := by
        cases r <;> rfl
      rw [List.append_nil, hafter] at hmove
      have hrun : Reaches Step guard (s.clients returned delivered)
          ((s.move p (afterWrite (s.proc p) writer' r)
            { s.segment with queue := q }).clients returned
            (delivered ++ r.delivered s.segment.queue)) := by
        rw [hmove]
        exact Reaches.mono hguard hrefines
      cases r with
      | next pc' => exact ⟨writer', .write pc', rfl, by cases pc' <;> exact hrun⟩
      | done => exact ⟨writer', .testFinished, rfl, hrun⟩
  | stopTimer hstop => exact hsame _ _ rfl rfl rfl rfl

end Guard

omit [DecidableEq ι] in
theorem Aside.client {args : Args} {sh sh' : Segment ι} {p p' : Process}
    (h : Aside args sh sh' p p') : p'.tool.client = p.tool.client := by
  rcases h.tool with htool | ⟨_, hnone, hreader | ⟨dst, hwriter⟩⟩
  · rw [htool]
  · rw [hreader, hnone]
    rfl
  · rw [hwriter, hnone]
    rfl

/-!
# Types of the buffers in hand
-/

theorem IPCTool.ReadingStep.typed {src : List UInt8} {me : ι} {io : Io}
    {sh sh' : Segment ι} {p p' : Process} {reader : BufferedReader}
    {pc : ReaderPc} (htool : p.tool = .reader reader pc) (htyped : p.tool.Typed)
    (h : ReadingStep src me io sh p reader pc p' sh') : p'.tool.Typed := by
  cases h with
  | crash hnull => exact htyped
  | unfinished hunfinished =>
      intro rpc hrpc b hb
      cases hrpc
      cases hb
  | @read rpc r reader' q hread =>
      rw [htool] at htyped
      cases r with
      | next rpc' =>
          intro p hp
          cases hp
          exact readStep_typed (htyped rpc rfl) hread
      | done =>
          intro p hp
          cases hp
      | threw held =>
          intro p hp
          cases hp
  | _ =>
      intro rpc hrpc
      cases hrpc

theorem IPCTool.WritingStep.typed {me : ι} {io : Io} {sh sh' : Segment ι}
    {p p' : Process} {writer : BufferedFileWriter} {pc : WriterPc}
    (htool : p.tool = .writer writer pc) (htyped : p.tool.Typed)
    (h : WritingStep me io sh p writer pc p' sh') : p'.tool.Typed := by
  cases h with
  | crash hnull => exact htyped
  | unfinished hunfinished =>
      intro wpc hwpc b hb
      cases hwpc
      cases hb
  | nonempty =>
      intro wpc hwpc b hb
      cases hwpc
      cases hb
  | @write wpc r writer' q hwrite =>
      rw [htool] at htyped
      cases r with
      | next wpc' =>
          intro p hp
          cases hp
          exact writeStep_typed (htyped wpc rfl) hwrite
      | done =>
          intro p hp
          cases hp
  | _ =>
      intro wpc hwpc
      cases hwpc

omit [DecidableEq ι] in
theorem Aside.typed {args : Args} {sh sh' : Segment ι} {p p' : Process}
    (h : Aside args sh sh' p p') (htyped : p.tool.Typed) : p'.tool.Typed := by
  rcases h.tool with htool | ⟨_, _, hreader | ⟨dst, hwriter⟩⟩
  · rw [htool]
    exact htyped
  · rw [hreader]
    intro rpc hrpc
    cases hrpc
  · rw [hwriter]
    intro wpc hwpc
    cases hwpc

/-!
# All processes
-/

/-- The state with the two histories and everything known of its queue. -/
structure Linked (s : World ι) (returned delivered : List Payload) : Prop where
  typed : forall p, (s.proc p).tool.Typed
  clients : Clients.Inv (s.clients returned delivered)

omit [DecidableEq ι] in
theorem init_linked (buffers : Nat -> List UInt8) :
    Linked (World.init buffers : World ι) [] [] where
  typed := fun _ => trivial
  clients := init_inv buffers

theorem Linked.move {s : World ι} {returned delivered : List Payload}
    (h : Linked s returned delivered) {p : ι} {c : Process} {sh : Segment ι}
    {returned' delivered' : List Payload} (htyped : c.tool.Typed)
    (hrun : Reaches Step anyStep (s.clients returned delivered)
      ((s.move p c sh).clients returned' delivered')) :
    Linked (s.move p c sh) returned' delivered' where
  typed := World.forall_move (P := fun _ p => p.tool.Typed) htyped
    (fun q _ => h.typed q)
  clients := h.clients.run hrun

theorem Linked.reading {s : World ι} {returned delivered : List Payload}
    (h : Linked s returned delivered) {p : ι} {src : List UInt8} {io : Io}
    {reader : BufferedReader} {pc : ReaderPc} {c : Process} {sh : Segment ι}
    (htool : (s.proc p).tool = .reader reader pc)
    (hstep : ReadingStep src p io s.segment (s.proc p) reader pc c sh) :
    Linked (s.move p c sh) (returned ++ pc.produced s.segment.queue) delivered :=
  h.move (hstep.typed htool (h.typed p))
    (hstep.simulates (fun _ _ _ => trivial) returned delivered htool (h.typed p)
      (fun _ => trivial))

theorem Linked.writing {s : World ι} {returned delivered : List Payload}
    (h : Linked s returned delivered) {p : ι} {io : Io}
    {writer : BufferedFileWriter} {pc : WriterPc} {c : Process} {sh : Segment ι}
    (htool : (s.proc p).tool = .writer writer pc)
    (hstep : WritingStep p io s.segment (s.proc p) writer pc c sh) :
    exists writer' pc', c.tool = .writer writer' pc' ∧
      Linked (s.move p c sh) returned
        (delivered ++ pc'.delivered s.segment.queue) := by
  have hany : forall (x : Clients ι) (op : Op ι), OpenOutsideTests x op ->
      anyStep x op := fun _ _ _ => trivial
  rcases hstep.simulates hany returned delivered htool (h.typed p) with
    ⟨writer', pc', hc, hrun⟩
  exact ⟨writer', pc', hc, h.move (hstep.typed htool (h.typed p)) hrun⟩

theorem Linked.aside {s : World ι} {returned delivered : List Payload}
    (h : Linked s returned delivered) {args : Args} {p : ι} {c : Process}
    {sh : Segment ι} (haside : Aside args s.segment sh (s.proc p) c) :
    Linked (s.move p c sh) returned delivered := by
  apply h.move (haside.typed (h.typed p))
  rw [clients_same haside.queue haside.client]

end Common
end Ki
