import Ki.Common.BPCopyTool

/-!
# The tool's threads as clients of its queue

The two threads are two clients of one queue: every step of the tool is answered
by steps of the queue's clients, and the queue is opened before the second
thread runs, outside of every get function.
-/

namespace Ki
namespace Common

open Foundation
open Queue
open Clients
open Reader
open BufferedReader
open Writer
open BufferedFileWriter
open Stdio

namespace CopyPc

def client : CopyPc -> Client
  | .read pc => pc.client
  | .threw held => { call := .idle, held := held }
  | _ => { call := .idle, held := [] }

def readPc : CopyPc -> Option ReadPc
  | .read pc => some pc
  | _ => none

/-- What a step of `copy` adds to the history of the producers. -/
def produced (q : FixedBufferQueue Thread) : CopyPc -> List Payload
  | .read pc => pc.returned q
  | _ => []

/-- The queue is open from the first step of `copy` to its last. -/
def queueOpen : CopyPc -> Bool
  | .openQueue => false
  | .returned => false
  | _ => true

/-- The source has been opened. -/
def opened : CopyPc -> Bool
  | .openQueue => false
  | .openReader => false
  | _ => true

/-- The destination has been created. -/
def created (pc : CopyPc) : Bool :=
  pc.opened && pc != .createWriter

/-- `writingThread` has been started. -/
def started (pc : CopyPc) : Bool :=
  pc.created && pc != .startWriter

end CopyPc

namespace WritingPc

def client : WritingPc -> Client
  | .write pc => pc.client
  | _ => { call := .idle, held := [] }

def writePc : WritingPc -> Option WritePc
  | .write pc => some pc
  | _ => none

/-- What a step to this point adds to the history of the consumers. -/
def delivered (q : FixedBufferQueue Thread) : WritingPc -> List Payload
  | .write (.fwrite buf) => [q.payload buf]
  | _ => []

/-- The last test of `isReadFinished` was positive. -/
def SawFinished : WritingPc -> Prop
  | .testEmpty => True
  | .left => True
  | _ => False

end WritingPc

namespace BPCopyTool

/-- The queue of the tool, its two threads as clients, and two histories. -/
def clients (s : BPCopyTool) (returned delivered : List Payload) :
    Clients Thread where
  queue := s.queue
  client := fun
    | .reading => s.copyPc.client
    | .writing => s.writingPc.client
  returned := returned
  delivered := delivered

@[simp] theorem afterRead_client (r : ReadResult) :
    (afterRead r).client = r.client := by
  cases r <;> rfl

@[simp] theorem afterWrite_client (r : WriteResult) :
    (afterWrite r).client = r.client := by
  cases r <;> rfl

@[simp] theorem afterWrite_delivered (q : FixedBufferQueue Thread)
    (r : WriteResult) : (afterWrite r).delivered q = r.delivered q := by
  cases r with
  | next pc => cases pc <;> rfl
  | done => rfl

theorem clients_copy (s : BPCopyTool) (reader : BufferedReader)
    (q : FixedBufferQueue Thread) (pc : CopyPc)
    (returned returned' delivered : List Payload) :
    { s with fileReader := reader, queue := q, copyPc := pc }.clients
        (returned ++ returned') delivered =
      (s.clients returned delivered).advance .reading q pc.client returned' [] := by
  simp only [clients, advance, List.append_nil, Clients.mk.injEq, true_and, and_true]
  funext t
  cases t <;> simp

theorem clients_writing (s : BPCopyTool) (writer : BufferedFileWriter)
    (q : FixedBufferQueue Thread) (pc : WritingPc)
    (returned delivered delivered' : List Payload) :
    { s with fileWriter := writer, queue := q, writingPc := pc }.clients
        returned (delivered ++ delivered') =
      (s.clients returned delivered).advance .writing q pc.client [] delivered' := by
  simp only [clients, advance, List.append_nil, Clients.mk.injEq, true_and, and_true]
  funext t
  cases t <;> simp

/-!
# Control
-/

/-- No stdio call whose result is checked fails in the step. -/
def NoFailure (_ : BPCopyTool) (a : Action) : Prop :=
  a.2.fails = false

instance (s : BPCopyTool) (a : Action) : Decidable (NoFailure s a) :=
  inferInstanceAs (Decidable (_ = _))

/-- How the flags and the two threads' program points go together. -/
structure Control (s : BPCopyTool) : Prop where
  isOpen : s.queue.isOpen = s.copyPc.queueOpen
  notThrown : forall held, s.copyPc ≠ .threw held
  started : s.copyPc.started = false <-> s.writingPc = .notStarted
  reader : s.copyPc.opened = true -> Ready s.fileReader s.copyPc.readPc
  writer : s.copyPc.created = true -> Ready s.fileWriter s.writingPc.writePc
  closing : s.copyPc = .close ∨ s.copyPc = .returned ->
    s.fileReader.readFinished = true
  sawFinished : s.writingPc.SawFinished -> s.fileReader.readFinished = true
  left : s.writingPc = .left -> s.copyPc = .returned

theorem new_control (src : List UInt8) (dst : String)
    (buffers : Nat -> List UInt8) : Control (new src dst buffers) := by
  constructor <;> simp [new, CopyPc.queueOpen, CopyPc.started, CopyPc.created,
    CopyPc.opened, WritingPc.SawFinished, FixedBufferQueue.new]

/-- `copy` alone opens and closes the queue, at the ends of its open part. -/
theorem CopyStep.isOpen {src : List UInt8} {io : Io} {s s' : BPCopyTool}
    (h : s.queue.isOpen = s.copyPc.queueOpen) (hstep : CopyStep src io s s') :
    s'.queue.isOpen = s'.copyPc.queueOpen := by
  cases hstep with
  | openQueue hpc => rfl
  | openFails hpc hfails =>
      rcases hpc with hpc | hpc
      · rw [hpc] at h
        exact h
      · rw [hpc] at h
        exact h
  | @read pc r reader q hpc hread =>
      rw [hpc] at h
      have hopen := (readStep_isOpen hread).trans h
      cases r <;> exact hopen
  | close hpc => rfl
  | _ hpc =>
      rw [hpc] at h
      exact h

theorem WritingStep.isOpen {io : Io} {s s' : BPCopyTool}
    (hstep : WritingStep io s s') : s'.queue.isOpen = s.queue.isOpen := by
  cases hstep with
  | write hpc hwrite => exact writeStep_isOpen hwrite
  | _ => rfl

theorem CopyStep.control {src : List UInt8} {io : Io} {s s' : BPCopyTool}
    (hio : io.fails = false) (h : Control s) (hstep : CopyStep src io s s') :
    Control s' := by
  have hisOpen := hstep.isOpen h.isOpen
  have hstarted := h.started
  have hleft := h.left
  cases hstep with
  | openQueue hpc =>
      have hnot : s.writingPc = .notStarted := hstarted.mp (by rw [hpc]; rfl)
      constructor
      · exact hisOpen
      · simp
      · simp [hnot, CopyPc.started, CopyPc.created, CopyPc.opened]
      · simp [CopyPc.opened]
      · simp [CopyPc.created, CopyPc.opened]
      · simp
      · simp [hnot, WritingPc.SawFinished]
      · simp [hnot]
  | openFails hpc hfails =>
      rw [hio] at hfails
      cases hfails
  | openReader hpc =>
      have hnot : s.writingPc = .notStarted := hstarted.mp (by rw [hpc]; rfl)
      constructor
      · exact hisOpen
      · simp
      · simp [hnot, CopyPc.started, CopyPc.created, CopyPc.opened]
      · intro _
        exact Ready.outside (by simp [open'])
      · simp [CopyPc.created]
      · simp
      · simp [hnot, WritingPc.SawFinished]
      · simp [hnot]
  | createWriter hpc =>
      have hnot : s.writingPc = .notStarted := hstarted.mp (by rw [hpc]; rfl)
      have hreader := h.reader
      constructor
      · exact hisOpen
      · simp
      · simp [hnot, CopyPc.started, CopyPc.created, CopyPc.opened]
      · intro _
        simpa [hpc, CopyPc.opened, CopyPc.readPc] using hreader
      · intro _
        simp only [hnot]
        exact Ready.outside (by simp [create])
      · simp
      · simp [hnot, WritingPc.SawFinished]
      · simp [hnot]
  | startWriter hpc =>
      have hnot : s.writingPc = .notStarted := hstarted.mp (by rw [hpc]; rfl)
      have hreader := h.reader
      have hwriter := h.writer
      constructor
      · exact hisOpen
      · simp
      · simp [CopyPc.started, CopyPc.created, CopyPc.opened]
      · intro _
        simpa [hpc, CopyPc.opened, CopyPc.readPc] using hreader
      · intro _
        simpa [hpc, hnot, CopyPc.created, CopyPc.opened, WritingPc.writePc]
          using hwriter
      · simp
      · simp [WritingPc.SawFinished]
      · simp
  | finished hpc hfinished =>
      have hreader := h.reader
      have hwriter := h.writer
      constructor
      · exact hisOpen
      · simp
      · rw [← hstarted, hpc]
        rfl
      · intro _
        simpa [hpc, CopyPc.opened, CopyPc.readPc] using hreader
      · intro _
        simpa [hpc, CopyPc.created, CopyPc.opened] using hwriter
      · exact fun _ => hfinished
      · exact h.sawFinished
      · intro hw
        rw [hleft hw] at hpc
        cases hpc
  | unfinished hpc hunfinished =>
      have hreader := h.reader
      have hwriter := h.writer
      constructor
      · exact hisOpen
      · simp
      · rw [← hstarted, hpc]
        rfl
      · intro _
        have hready := hreader (by rw [hpc]; rfl)
        exact hready.enter
      · intro _
        simpa [hpc, CopyPc.created, CopyPc.opened] using hwriter
      · simp
      · exact h.sawFinished
      · intro hw
        rw [hleft hw] at hpc
        cases hpc
  | @read pc r reader q hpc hread =>
      have hreader := h.reader (by rw [hpc]; rfl)
      have hwriter := h.writer (by rw [hpc]; rfl)
      have hopen : s.queue.isOpen = true := by
        rw [h.isOpen, hpc]
        rfl
      have hthrows : forall held, r ≠ .threw held := by
        intro held hr
        rw [hr] at hread
        rw [readStep_throws hopen hread] at hio
        cases hio
      rw [hpc] at hreader
      have hreader' := Ready.readStep hreader hread
      constructor
      · exact hisOpen
      · intro held
        cases r <;> simp_all [afterRead]
      · rw [← hstarted, hpc]
        cases r <;> rfl
      · intro _
        cases r <;> simp_all [afterRead, CopyPc.readPc, ReadResult.pc]
      · intro _
        exact hwriter
      · cases r <;> simp [afterRead]
      · intro hsaw
        exact readStep_readFinished hread (h.sawFinished hsaw)
      · intro hw
        rw [hleft hw] at hpc
        cases hpc
  | close hpc =>
      have hreader := h.reader
      have hwriter := h.writer
      constructor
      · exact hisOpen
      · simp
      · rw [← hstarted, hpc]
        rfl
      · intro _
        simpa [hpc, CopyPc.opened, CopyPc.readPc] using hreader
      · intro _
        simpa [hpc, CopyPc.created, CopyPc.opened] using hwriter
      · intro _
        exact h.closing (Or.inl hpc)
      · exact h.sawFinished
      · intro _
        rfl

/-- While the writer runs its file has been created. -/
theorem Control.created {s : BPCopyTool} (h : Control s)
    (hpc : s.writingPc ≠ .notStarted) :
    s.copyPc.started = true ∧ s.copyPc.created = true := by
  have hstarted : s.copyPc.started = true := by
    cases hstarted : s.copyPc.started with
    | true => rfl
    | false => exact absurd (h.started.mp hstarted) hpc
  have hboth := hstarted
  simp only [CopyPc.started, Bool.and_eq_true] at hboth
  exact ⟨hstarted, hboth.left⟩

theorem WritingStep.control {io : Io} {s s' : BPCopyTool} (h : Control s)
    (hstep : WritingStep io s s') : Control s' := by
  have hisOpen := hstep.isOpen.trans h.isOpen
  cases hstep with
  | finished hpc hfinished =>
      rcases h.created (by simp [hpc]) with ⟨hstarted, hcreated⟩
      have hwriter := h.writer hcreated
      rw [hpc] at hwriter
      exact ⟨hisOpen, h.notThrown, by simp [hstarted], h.reader,
        fun _ => hwriter, h.closing, fun _ => hfinished, by simp⟩
  | unfinished hpc hunfinished =>
      rcases h.created (by simp [hpc]) with ⟨hstarted, hcreated⟩
      have hwriter := h.writer hcreated
      exact ⟨hisOpen, h.notThrown, by simp [hstarted], h.reader,
        fun _ => hwriter.enter, h.closing, by simp [WritingPc.SawFinished],
        by simp⟩
  | empty hpc hfree hempty hclosed =>
      rcases h.created (by simp [hpc]) with ⟨hstarted, hcreated⟩
      have hwriter := h.writer hcreated
      rw [hpc] at hwriter
      have hfinished := h.sawFinished (by rw [hpc]; trivial)
      refine ⟨hisOpen, h.notThrown, by simp [hstarted], h.reader,
        fun _ => hwriter, h.closing, fun _ => hfinished, ?_⟩
      intro _
      -- the queue is closed and the thread runs: `copy` has executed `close`
      have hqueueOpen : s.copyPc.queueOpen = false := by
        rw [← h.isOpen, hclosed]
      cases hcopy : s.copyPc <;>
        simp_all [CopyPc.queueOpen, CopyPc.started, CopyPc.created, CopyPc.opened]
  | nonempty hpc =>
      rcases h.created (by simp [hpc]) with ⟨hstarted, hcreated⟩
      have hwriter := h.writer hcreated
      exact ⟨hisOpen, h.notThrown, by simp [hstarted], h.reader,
        fun _ => hwriter.enter, h.closing, by simp [WritingPc.SawFinished],
        by simp⟩
  | @write pc r writer q hpc hwrite =>
      rcases h.created (by simp [hpc]) with ⟨hstarted, hcreated⟩
      have hwriter := h.writer hcreated
      rw [hpc] at hwriter
      have hwriter' := Ready.writeStep hwriter hwrite
      constructor
      · exact hisOpen
      · exact h.notThrown
      · cases r <;> simp [hstarted, afterWrite]
      · exact h.reader
      · intro _
        cases r <;> exact hwriter'
      · exact h.closing
      · cases r <;> simp [afterWrite, WritingPc.SawFinished]
      · cases r <;> simp [afterWrite]

/-!
# Simulation
-/

/-- A step at which the queue and the client's view of the thread stay as they are. -/
theorem clients_copy_same {s s' : BPCopyTool} {returned delivered : List Payload}
    (hqueue : s'.queue = s.queue) (hcopy : s'.copyPc.client = s.copyPc.client)
    (hwriting : s'.writingPc.client = s.writingPc.client) :
    s'.clients returned delivered = s.clients returned delivered := by
  simp [clients, hqueue, hcopy, hwriting]

theorem CopyStep.simulates {src : List UInt8} {io : Io} {s s' : BPCopyTool}
    (returned delivered : List Payload) (h : Control s)
    (hstep : CopyStep src io s s') :
    Reaches Step OpenOutsideTests (s.clients returned delivered)
      (s'.clients (returned ++ s.copyPc.produced s.queue) delivered) := by
  have hsame : forall pc, s.copyPc = pc -> pc.produced s.queue = [] ->
      s'.queue = s.queue -> s'.copyPc.client = pc.client ->
      s'.writingPc.client = s.writingPc.client ->
      Reaches Step OpenOutsideTests (s.clients returned delivered)
        (s'.clients (returned ++ s.copyPc.produced s.queue) delivered) := by
    intro pc hpc hproduced hqueue hcopy hwriting
    rw [hpc, hproduced, List.append_nil,
      clients_copy_same hqueue (by rw [hcopy, hpc]) hwriting]
  cases hstep with
  | openQueue hpc =>
      have hnot : s.writingPc = .notStarted := h.started.mp (by rw [hpc]; rfl)
      have hguard : OpenOutsideTests (s.clients returned delivered) .open' := by
        intro _ t side hbetween
        cases t with
        | reading => simp [BetweenTests, clients, hpc, CopyPc.client] at hbetween
        | writing => simp [BetweenTests, clients, hnot, WritingPc.client] at hbetween
      have hopen := Reaches.single hguard Step.open'
      simpa [clients, hpc, CopyPc.produced, CopyPc.client] using hopen
  | openFails hpc hfails =>
      rcases hpc with hpc | hpc
      · exact hsame _ hpc rfl rfl rfl rfl
      · exact hsame _ hpc rfl rfl rfl rfl
  | openReader hpc => exact hsame _ hpc rfl rfl rfl rfl
  | createWriter hpc => exact hsame _ hpc rfl rfl rfl rfl
  | startWriter hpc =>
      have hnot : s.writingPc = .notStarted := h.started.mp (by rw [hpc]; rfl)
      exact hsame _ hpc rfl rfl rfl (by rw [hnot]; rfl)
  | finished hpc hfinished => exact hsame _ hpc rfl rfl rfl rfl
  | unfinished hpc hunfinished =>
      have hidle : ((s.clients returned delivered).client .reading).call = .idle := by
        change s.copyPc.client.call = .idle
        rw [hpc]
        rfl
      have hcall := Step.call .read hidle
      have hadvance := clients_copy s s.fileReader s.queue
        (.read (.getFreeBuffer .lock)) returned [] delivered
      have hheld : ((s.clients returned delivered).client .reading).held = [] := by
        change s.copyPc.client.held = []
        rw [hpc]
        rfl
      have hproduced : s.copyPc.produced s.queue = [] := by
        rw [hpc]
        rfl
      rw [hheld] at hcall
      rw [hproduced, hadvance]
      exact Reaches.single (OpenOutsideTests.thread _ .reading) hcall
  | @read pc r reader q hpc hread =>
      have htyped := (h.reader (by rw [hpc]; rfl)).typed pc (by rw [hpc]; rfl)
      have hclient : (s.clients returned delivered).client .reading = pc.client := by
        change s.copyPc.client = pc.client
        rw [hpc]
        rfl
      rw [clients_copy, afterRead_client, hpc]
      exact readStep_refines hclient htyped hread
  | close hpc =>
      have hguard : OpenOutsideTests (s.clients returned delivered) .close := by
        intro hop
        cases hop
      have hclose := Reaches.single hguard Step.close
      simpa [clients, hpc, CopyPc.produced, CopyPc.client] using hclose

theorem WritingStep.simulates {io : Io} {s s' : BPCopyTool}
    (returned delivered : List Payload) (h : Control s)
    (hstep : WritingStep io s s') :
    Reaches Step OpenOutsideTests (s.clients returned delivered)
      (s'.clients returned (delivered ++ s'.writingPc.delivered s.queue)) := by
  have hcall : (s.writingPc = .testFinished ∨ s.writingPc = .testEmpty) ->
      Reaches Step OpenOutsideTests (s.clients returned delivered)
        ({ s with writingPc := .write (.getFilledBuffer .lock) }.clients
          returned (delivered ++ [])) := by
    intro hpc
    have hclient : (s.clients returned delivered).client .writing =
        { call := .idle, held := [] } := by
      change s.writingPc.client = _
      rcases hpc with hpc | hpc <;> rw [hpc] <;> rfl
    have hstep := Step.call (s := s.clients returned delivered) (t := .writing)
      .write (by rw [hclient])
    rw [hclient] at hstep
    have hadvance := clients_writing s s.fileWriter s.queue
      (.write (.getFilledBuffer .lock)) returned delivered []
    rw [hadvance]
    exact Reaches.single (OpenOutsideTests.thread _ .writing) hstep
  have hsame : forall pc, pc.client = s.writingPc.client ->
      Reaches Step OpenOutsideTests (s.clients returned delivered)
        ({ s with writingPc := pc }.clients returned (delivered ++ [])) := by
    intro pc hpc
    have heq : ({ s with writingPc := pc } : BPCopyTool).clients
        returned delivered = s.clients returned delivered :=
      clients_copy_same rfl rfl hpc
    rw [List.append_nil, heq]
  cases hstep with
  | finished hpc hfinished =>
      exact hsame .testEmpty (by rw [hpc]; rfl)
  | unfinished hpc hunfinished => exact hcall (Or.inl hpc)
  | empty hpc hfree hempty hclosed =>
      exact hsame .left (by rw [hpc]; rfl)
  | nonempty hpc => exact hcall (Or.inr hpc)
  | @write pc r writer q hpc hwrite =>
      have hcreated := (h.created (by simp [hpc])).right
      have htyped := (h.writer hcreated).typed pc (by rw [hpc]; rfl)
      have hclient : (s.clients returned delivered).client .writing = pc.client := by
        change s.writingPc.client = pc.client
        rw [hpc]
        rfl
      rw [clients_writing, afterWrite_client, afterWrite_delivered]
      exact writeStep_refines hclient htyped hwrite

/-- The tool's state with the two histories and everything known of its queue. -/
structure Linked (s : BPCopyTool) (returned delivered : List Payload) : Prop where
  control : Control s
  clients : Clients.Inv (s.clients returned delivered)
  safe : NoEmptyPop (s.clients returned delivered)

theorem new_linked (src : List UInt8) (dst : String)
    (buffers : Nat -> List UInt8) : Linked (new src dst buffers) [] [] := by
  have hinit : (new src dst buffers).clients [] [] = Clients.init buffers := by
    simp only [BPCopyTool.clients, new, Clients.init, Clients.mk.injEq, true_and,
      and_true]
    funext t
    cases t <;> rfl
  constructor
  · exact new_control src dst buffers
  · rw [hinit]
    exact init_inv buffers
  · rw [hinit]
    exact init_noEmptyPop buffers

theorem Linked.copyStep {src : List UInt8} {io : Io} {s s' : BPCopyTool}
    {returned delivered : List Payload} (hio : io.fails = false)
    (h : Linked s returned delivered) (hstep : CopyStep src io s s') :
    Linked s' (returned ++ s.copyPc.produced s.queue) delivered := by
  have hreaches := hstep.simulates returned delivered h.control
  have hinv := reaches_inv h.clients h.safe hreaches
  exact ⟨hstep.control hio h.control, hinv.left, hinv.right⟩

theorem Linked.writingStep {io : Io} {s s' : BPCopyTool}
    {returned delivered : List Payload} (h : Linked s returned delivered)
    (hstep : WritingStep io s s') :
    Linked s' returned (delivered ++ s'.writingPc.delivered s.queue) := by
  have hreaches := hstep.simulates returned delivered h.control
  have hinv := reaches_inv h.clients h.safe hreaches
  exact ⟨hstep.control h.control, hinv.left, hinv.right⟩

end BPCopyTool
end Common
end Ki
