import Ki.Common.BPCopyTool.Simulation

/-!
# The buffered parallel copy tool copies exactly

The bytes written are those delivered to the writer, these come in the order in
which the reader returned them, and the reader returned the source.
-/

namespace Ki
namespace Common

open Foundation
open Queue
open FixedBufferQueue
open Clients
open Reader
open BufferedReader
open Writer
open BufferedFileWriter
open Stdio

namespace BPCopyTool

/-- Every stdio call of the step succeeds. -/
def Succeeds (_ : BPCopyTool) (a : Action) : Prop :=
  a.2.Succeeds

instance (s : BPCopyTool) (a : Action) : Decidable (Succeeds s a) :=
  inferInstanceAs (Decidable a.2.Succeeds)

/-- What the two threads have read and written, against the two histories. -/
structure Data (src : List UInt8) (s : BPCopyTool)
    (returned delivered : List Payload) : Prop where
  read : ReadData src s.fileReader s.queue.buffers s.copyPc.readPc returned
  unopened : s.copyPc.opened = false ->
    s.fileReader = BufferedReader.new src ∧ returned = []
  write : WriteData s.fileWriter s.queue.buffers s.writingPc.writePc delivered
  uncreated : s.copyPc.created = false -> delivered = []
  drained : s.writingPc = .left -> s.queue.writeBuffers = []

theorem new_data (src : List UInt8) (dst : String)
    (buffers : Nat -> List UInt8) : Data src (new src dst buffers) [] [] where
  read := ReadData.new src buffers
  unopened := fun _ => ⟨rfl, rfl⟩
  write := rfl
  uncreated := fun _ => rfl
  drained := by
    intro h
    cases h

/-- The two threads never hold the same array. -/
theorem Linked.distinct {s : BPCopyTool} {returned delivered : List Payload}
    (h : Linked s returned delivered) {b b' : Buffer}
    (hb : b ∈ s.copyPc.client.held) (hb' : b' ∈ s.writingPc.client.held) :
    b'.data ≠ b.data := by
  intro heq
  have hplace := h.clients.owned.eq_of_mem (b := .heldBy .reading)
    (c := .heldBy .writing) (List.mem_map_of_mem hb)
    (by rw [← heq]; exact List.mem_map_of_mem hb')
  cases hplace

/-- A step of `copy` outside of `read` that leaves the files and the arrays alone. -/
theorem Data.move {src : List UInt8} {s : BPCopyTool} {returned delivered : List Payload}
    (h : Data src s returned delivered) {q : FixedBufferQueue Thread} {pc : CopyPc}
    (hbuffers : q.buffers = s.queue.buffers)
    (hdrained : q.writeBuffers = s.queue.writeBuffers)
    (hread : pc.readPc = s.copyPc.readPc)
    (hopened : pc.opened = false -> s.copyPc.opened = false)
    (hcreated : pc.created = false -> s.copyPc.created = false) :
    Data src { s with queue := q, copyPc := pc } returned delivered where
  read := by
    rw [hbuffers, hread]
    exact h.read
  unopened := fun hpc => h.unopened (hopened hpc)
  write := by
    rw [hbuffers]
    exact h.write
  uncreated := fun hpc => h.uncreated (hcreated hpc)
  drained := fun hleft => hdrained.trans (h.drained hleft)

theorem Linked.dataCopyStep {src : List UInt8} (hsrc : src.length < 2 ^ 63) {io : Io}
    (hio : io.Succeeds) {s s' : BPCopyTool} {returned delivered : List Payload}
    (h : Linked s returned delivered) (hdata : Data src s returned delivered)
    (hstep : CopyStep src io s s') :
    Data src s' (returned ++ s.copyPc.produced s.queue) delivered := by
  have hread := hdata.read
  have hleft : s.writingPc = .left -> s.copyPc = .returned := h.control.left
  cases hstep with
  | openQueue hpc =>
      simp only [hpc, CopyPc.produced, List.append_nil]
      exact hdata.move rfl rfl (by rw [hpc]; rfl) (by rw [hpc]; exact id)
        (by rw [hpc]; exact id)
  | openFails hpc hfails =>
      rw [hio.left] at hfails
      cases hfails
  | openReader hpc =>
      have hunopened := hdata.unopened (by rw [hpc]; rfl)
      simp only [hpc, CopyPc.produced, List.append_nil]
      refine ⟨?_, ?_, hdata.write, fun _ => hdata.uncreated (by rw [hpc]; rfl),
        hdata.drained⟩
      · simp only [hunopened.left, hunopened.right]
        exact ReadData.opened src s.queue.buffers
      · intro hopened
        cases hopened
  | createWriter hpc =>
      have hnot : s.writingPc = .notStarted :=
        h.control.started.mp (by rw [hpc]; rfl)
      have hdelivered := hdata.uncreated (by rw [hpc]; rfl)
      simp only [hpc, CopyPc.produced, List.append_nil]
      rw [hpc] at hread
      refine ⟨hread, ?_, ?_, ?_, hdata.drained⟩
      · intro hopened
        cases hopened
      · simp only [hnot, hdelivered]
        exact WriteData.created s.fileWriter s.queue.buffers
      · intro hcreated
        cases hcreated
  | startWriter hpc =>
      have hnot : s.writingPc = .notStarted :=
        h.control.started.mp (by rw [hpc]; rfl)
      have hwrite := hdata.write
      simp only [hpc, CopyPc.produced, List.append_nil]
      rw [hpc] at hread
      rw [hnot] at hwrite
      refine ⟨hread, ?_, hwrite, ?_, ?_⟩
      · intro hopened
        cases hopened
      · intro hcreated
        cases hcreated
      · intro hw
        cases hw
  | finished hpc hfinished =>
      simp only [hpc, CopyPc.produced, List.append_nil]
      exact hdata.move rfl rfl (by rw [hpc]; rfl) (by rw [hpc]; exact id)
        (by rw [hpc]; exact id)
  | unfinished hpc hunfinished =>
      simp only [hpc, CopyPc.produced, List.append_nil]
      rw [hpc] at hread
      refine ⟨hread.enter, ?_, hdata.write, ?_, hdata.drained⟩
      · intro hopened
        cases hopened
      · intro hcreated
        cases hcreated
  | @read pc r reader q hpc hreadStep =>
      have hready := h.control.reader (by rw [hpc]; rfl)
      rw [hpc] at hready hread
      simp only [hpc, CopyPc.produced]
      have hread' := ReadData.readStep hsrc hio (hready.typed pc rfl) hread hreadStep
      refine ⟨?_, ?_, ?_, ?_, ?_⟩
      · cases r <;> exact hread'
      · intro hopened
        cases r <;> cases hopened
      · refine hdata.write.frame ?_
        intro p hp b hb
        refine readStep_buffers hreadStep ?_
        intro b' hb'
        refine h.distinct (by rw [hpc]; exact hb') ?_
        cases hwriting : s.writingPc with
        | write wpc =>
            rw [hwriting] at hp
            cases hp
            exact hb
        | _ =>
            rw [hwriting] at hp
            cases hp
      · intro hcreated
        cases r <;> cases hcreated
      · intro hw
        rw [hleft hw] at hpc
        cases hpc
  | close hpc =>
      simp only [hpc, CopyPc.produced, List.append_nil]
      exact hdata.move rfl rfl (by rw [hpc]; rfl) (by rw [hpc]; exact id)
        (by rw [hpc]; exact id)

theorem Data.writingStep {src : List UInt8} {io : Io} (hio : io.Succeeds)
    {s s' : BPCopyTool} {returned delivered : List Payload} (hcontrol : Control s)
    (h : Data src s returned delivered) (hstep : WritingStep io s s') :
    Data src s' returned (delivered ++ s'.writingPc.delivered s.queue) := by
  have hwrite := h.write
  have huncreated : s.writingPc ≠ .notStarted -> s.copyPc.created = false ->
      forall ps : List Payload, ps = [] := by
    intro hne hcreated
    rw [(hcontrol.created hne).right] at hcreated
    cases hcreated
  cases hstep with
  | finished hpc hfinished =>
      rw [hpc] at hwrite
      simp only [WritingPc.delivered, List.append_nil]
      refine ⟨h.read, h.unopened, hwrite, h.uncreated, ?_⟩
      intro hw
      cases hw
  | unfinished hpc hunfinished =>
      rw [hpc] at hwrite
      simp only [WritingPc.delivered, List.append_nil]
      refine ⟨h.read, h.unopened, hwrite, h.uncreated, ?_⟩
      intro hw
      cases hw
  | empty hpc hfree hempty hclosed =>
      rw [hpc] at hwrite
      simp only [WritingPc.delivered, List.append_nil]
      exact ⟨h.read, h.unopened, hwrite, h.uncreated, fun _ => hempty⟩
  | nonempty hpc =>
      rw [hpc] at hwrite
      simp only [WritingPc.delivered, List.append_nil]
      refine ⟨h.read, h.unopened, hwrite, h.uncreated, ?_⟩
      intro hw
      cases hw
  | @write pc r writer q hpc hwriteStep =>
      rw [hpc] at hwrite
      rw [afterWrite_delivered]
      have hwrite' := WriteData.writeStep hio hwrite hwriteStep
      refine ⟨h.read.frame (writeStep_buffers hwriteStep), h.unopened, ?_, ?_, ?_⟩
      · cases r <;> exact hwrite'
      · intro hcreated
        exact huncreated (by simp [hpc]) hcreated _
      · intro hw
        cases r <;> cases hw

/-- The bytes written are a prefix of those queued, and these of what has been read. -/
theorem Data.written_prefix {src : List UInt8} {s : BPCopyTool}
    {returned delivered : List Payload} (hlinked : Linked s returned delivered)
    (h : Data src s returned delivered) :
    s.fileWriter.written <+: src.take s.fileReader.currentOffset := by
  have hdelivered : s.fileWriter.written <+: bytesOf delivered :=
    ⟨_, h.write⟩
  have hreturned : bytesOf delivered <+: bytesOf returned := by
    have hfifo : delivered ++ _ = returned := hlinked.clients.fifo
    rw [← hfifo, bytesOf_append]
    exact List.prefix_append _ _
  have hread : bytesOf returned <+: src.take s.fileReader.currentOffset :=
    ⟨_, h.read.bytes⟩
  exact (hdelivered.trans hreturned).trans hread

/-- `copy` has returned, the queue is empty and so are the hands of the writer. -/
theorem Data.written_drained {src : List UInt8} {s : BPCopyTool}
    {returned delivered : List Payload} (hlinked : Linked s returned delivered)
    (h : Data src s returned delivered) (hreturned : s.copyPc = .returned)
    (hdrained : s.queue.writeBuffers = [])
    (hpending : pending s.queue.buffers s.writingPc.writePc = []) :
    s.fileWriter.written = src := by
  have hoffset := h.read.finished (hlinked.control.closing (Or.inr hreturned))
  have hread := h.read.bytes
  have hwrite := h.write
  have hfifo : delivered ++ s.queue.writeBuffers.map s.queue.payload = returned :=
    hlinked.clients.fifo
  rw [hdrained, List.map_nil, List.append_nil] at hfifo
  calc
    s.fileWriter.written = bytesOf delivered := by
      simpa [WriteData, hpending] using hwrite
    _ = bytesOf returned := by rw [hfifo]
    _ = src.take s.fileReader.currentOffset := by
      simpa [hreturned, CopyPc.readPc, inHand] using hread
    _ = src := by rw [hoffset, List.take_length]

theorem Data.written_all {src : List UInt8} {s : BPCopyTool}
    {returned delivered : List Payload} (hlinked : Linked s returned delivered)
    (h : Data src s returned delivered) (hleft : s.writingPc = .left) :
    s.fileWriter.written = src := by
  apply h.written_drained hlinked (hlinked.control.left hleft) (h.drained hleft)
  rw [hleft]
  rfl

theorem reaches_data {src : List UInt8} (hsrc : src.length < 2 ^ 63) {dst : String}
    {buffers : Nat -> List UInt8} {s : BPCopyTool}
    (hrun : Reaches (StepOf (next src)) Succeeds (new src dst buffers) s) :
    exists returned delivered, Linked s returned delivered ∧
      Data src s returned delivered := by
  refine Reaches.invariant (fun x => exists returned delivered,
    Linked x returned delivered ∧ Data src x returned delivered) ?_ hrun
    ⟨[], [], new_linked src dst buffers, new_data src dst buffers⟩
  intro x a x' hx hguard hstep
  rcases hx with ⟨returned, delivered, hlinked, hdata⟩
  rcases next_cases hstep with ⟨_, hcopy⟩ | ⟨_, hwriting⟩
  · exact ⟨_, _, hlinked.copyStep hguard.left hcopy,
      hlinked.dataCopyStep hsrc hguard hdata hcopy⟩
  · exact ⟨_, _, hlinked.writingStep hwriting,
      hdata.writingStep hguard hlinked.control hwriting⟩

/--
In every run whose stdio calls succeed, the bytes written are a prefix of the
source, and the whole source once the writer has left `writingFunction`.
-/
theorem writes_source (src : List UInt8) (hsrc : src.length < 2 ^ 63) (dst : String)
    (buffers : Nat -> List UInt8) (s : BPCopyTool)
    (hrun : Reaches (StepOf (next src)) Succeeds (new src dst buffers) s) :
    s.fileWriter.written <+: src ∧
      (s.writingPc = .left -> s.fileWriter.written = src) := by
  rcases reaches_data hsrc hrun with ⟨returned, delivered, hlinked, hdata⟩
  exact ⟨(hdata.written_prefix hlinked).trans (List.take_prefix _ _),
    hdata.written_all hlinked⟩

/-- A run that copies three bytes, the writer started before the chunk is queued. -/
def writerWaits : List Action :=
  List.replicate 5 (.reading, Io.success) ++
    List.replicate 3 (.writing, Io.success) ++
    List.replicate 9 (.reading, Io.success) ++
    List.replicate 7 (.writing, Io.success)

theorem writes_source_writerWaits :
    exists s, exec (next [1, 2, 3]) writerWaits (new [1, 2, 3] "dst" fun _ => []) =
        some s ∧ s.writingPc = .left ∧ s.fileWriter.written = [1, 2, 3] := by
  have hview : (exec (next [1, 2, 3]) writerWaits
      (new [1, 2, 3] "dst" fun _ => [])).map (fun s => s.writingPc) =
      some .left := by
    decide +kernel
  rcases Option.map_eq_some_iff.mp hview with ⟨s, hexec, hleft⟩
  refine ⟨s, hexec, hleft, ?_⟩
  exact (writes_source [1, 2, 3] (by decide) "dst" _ s
    (reaches_of_exec writerWaits (by decide +kernel) hexec)).right hleft

end BPCopyTool
end Common
end Ki
