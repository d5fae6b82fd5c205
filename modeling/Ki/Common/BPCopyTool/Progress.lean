import Ki.Common.BPCopyTool.Simulation

/-!
# Progress of the buffered parallel copy tool

`close` stores the flag and notifies nobody.  A writer that has found the queue
open and empty and goes to sleep is never woken when `close` comes next.  Every
run that executes `close` at another moment ends with both threads finished.
-/

namespace Ki
namespace Common

open Foundation
open Queue
open FixedBufferQueue
open Clients
open Reader
open BufferedReader
open Writer
open BufferedFileWriter
open Stdio

namespace BPCopyTool

/-- The reader has returned from `copy` and the writer has left `writingFunction`. -/
def Final (s : BPCopyTool) : Prop :=
  s.copyPc = .returned ∧ s.writingPc = .left

/-- The writer is asleep in `getFilledBuffer`, or has made the test that sends it to sleep. -/
def WriterCommitted (s : BPCopyTool) : Prop :=
  s.writingPc = .write (.getFilledBuffer .wait) ∨
    s.writingPc = .write (.getFilledBuffer .blocked) ∧ .writing ∈ s.queue.cv

instance (s : BPCopyTool) : Decidable s.WriterCommitted :=
  inferInstanceAs (Decidable (_ ∨ _ ∧ _))

/-- `close` is not executed while the writer is committed to sleep. -/
def ClosesAwake (s : BPCopyTool) (a : Action) : Prop :=
  a.1 = .reading -> s.copyPc = .close -> ¬ s.WriterCommitted

instance (s : BPCopyTool) (a : Action) : Decidable (ClosesAwake s a) :=
  inferInstanceAs (Decidable (_ -> _ -> _))

/-!
# A committed writer keeps the queue open
-/

theorem CopyStep.committed {src : List UInt8} {io : Io} {s s' : BPCopyTool}
    (hstep : CopyStep src io s s') (hcommitted : s'.WriterCommitted) :
    s.WriterCommitted ∨ s.copyPc = .startWriter := by
  cases hstep with
  | startWriter hpc => exact Or.inr hpc
  | read hpc hread =>
      left
      rcases hcommitted with hwait | hasleep
      · exact Or.inl hwait
      · have hcv := readStep_cv hread (t := .writing) (by simp) hasleep.right
        exact Or.inr ⟨hasleep.left, hcv⟩
  | _ => exact Or.inl hcommitted

theorem CopyStep.keepsOpen {src : List UInt8} {io : Io} {s s' : BPCopyTool}
    (hawake : s.copyPc = .close -> ¬ s.WriterCommitted)
    (h : s.WriterCommitted -> s.queue.isOpen = true)
    (hstep : CopyStep src io s s') :
    s'.WriterCommitted -> s'.queue.isOpen = true := by
  intro hcommitted
  rcases hstep.committed hcommitted with hbefore | hstart
  · have hopen := h hbefore
    cases hstep with
    | openQueue hpc => rfl
    | read hpc hread =>
        rw [readStep_isOpen hread]
        exact hopen
    | close hpc => exact absurd hbefore (hawake hpc)
    | _ => exact hopen
  · cases hstep with
    | startWriter hpc => simp [WriterCommitted] at hcommitted
    | openFails hpc hfails => simp [hstart] at hpc
    | _ => simp_all

theorem WritingStep.keepsOpen {io : Io} {s s' : BPCopyTool}
    (h : s.WriterCommitted -> s.queue.isOpen = true)
    (hstep : WritingStep io s s') :
    s'.WriterCommitted -> s'.queue.isOpen = true := by
  intro hcommitted
  cases hstep with
  | @write pc r writer q hpc hwrite =>
      rw [writeStep_isOpen hwrite]
      cases writeStep_cases hwrite with
      | getFilledBuffer hget =>
          cases getStep_cases hget with
          | unready hgpc hfree hempty hopen => exact hopen
          | sleep => exact h (Or.inl hpc)
          | _ => simp [WriterCommitted, afterWrite, afterGetFilledBuffer] at hcommitted
      | _ => simp [WriterCommitted, afterWrite] at hcommitted
  | _ => simp [WriterCommitted] at hcommitted

/-!
# Stuck states
-/

theorem copy_eq_none {src : List UInt8} {s : BPCopyTool} (h : Control s)
    (hsafe : s.copyPc.client.call ≠ .popEmpty)
    (hnone : s.copy src Io.success = none) :
    s.copyPc = .returned ∨
      (s.copyPc = .read (.getFreeBuffer .blocked) ∧ .reading ∈ s.queue.cv) ∨
      (s.queue.queueMutex ≠ none ∧ ¬ s.copyPc.client.call.holdsMutex) := by
  unfold copy at hnone
  cases hpc : s.copyPc with
  | returned => exact Or.inl rfl
  | threw held => exact absurd hpc (h.notThrown held)
  | read pc =>
      right
      have hready := h.reader (by rw [hpc]; rfl)
      rw [hpc] at hnone hready hsafe
      rcases readStep_eq_none hready (Option.map_eq_none_iff.mp hnone) with
        hmutex | hpop | hasleep
      · exact Or.inr hmutex
      · rw [hpop] at hsafe
        exact absurd rfl hsafe
      · rw [hasleep.left]
        exact Or.inl ⟨rfl, hasleep.right⟩
  | _ =>
      rw [hpc] at hnone
      cases hnone

theorem writingFunction_eq_none {s : BPCopyTool} (h : Control s)
    (hsafe : s.writingPc.client.call ≠ .popEmpty)
    (hnone : s.writingFunction Io.success = none) :
    s.writingPc = .notStarted ∨ s.writingPc = .left ∨
      (s.writingPc = .write (.getFilledBuffer .blocked) ∧
        .writing ∈ s.queue.cv) ∨
      (s.queue.queueMutex ≠ none ∧ ¬ s.writingPc.client.call.holdsMutex) := by
  unfold writingFunction at hnone
  cases hpc : s.writingPc with
  | notStarted => exact Or.inl rfl
  | left => exact Or.inr (Or.inl rfl)
  | testFinished =>
      rw [hpc] at hnone
      cases hnone
  | testEmpty =>
      right
      right
      right
      rw [hpc] at hnone
      constructor
      · intro hfree
        simp [FixedBufferQueue.isEmpty, hfree] at hnone
      · simp [WritingPc.client, Call.holdsMutex]
  | write pc =>
      right
      right
      have hready := h.writer (h.created (by simp [hpc])).right
      rw [hpc] at hnone hready hsafe
      rcases writeStep_eq_none hready (Option.map_eq_none_iff.mp hnone) with
        hmutex | hpop | hasleep
      · exact Or.inr hmutex
      · rw [hpop] at hsafe
        exact absurd rfl hsafe
      · rw [hasleep.left]
        exact Or.inl ⟨rfl, hasleep.right⟩

/-- When no thread can move, nobody holds the mutex. -/
theorem mutex_free_of_stuck {s : BPCopyTool} {returned delivered : List Payload}
    (h : Linked s returned delivered)
    (hcopy : ¬ s.copyPc.client.call.holdsMutex)
    (hwriting : ¬ s.writingPc.client.call.holdsMutex) :
    s.queue.queueMutex = none := by
  cases hmutex : s.queue.queueMutex with
  | none => rfl
  | some t =>
      have hholds := (h.clients.mutex t).mp hmutex
      cases t with
      | reading => exact absurd hholds hcopy
      | writing => exact absurd hholds hwriting

/-- Both threads cannot be asleep at once: the buffers would be nowhere. -/
theorem not_both_asleep {s : BPCopyTool} {returned delivered : List Payload}
    (h : Linked s returned delivered)
    (hcopy : s.copyPc = .read (.getFreeBuffer .blocked))
    (hreading : .reading ∈ s.queue.cv)
    (hwriting : s.writingPc = .write (.getFilledBuffer .blocked))
    (hwritingCv : .writing ∈ s.queue.cv) : False := by
  have hread : (s.clients returned delivered).client .reading =
      { call := .get .read .blocked, held := [] } := by
    change s.copyPc.client = _
    rw [hcopy]
    rfl
  have hwrite : (s.clients returned delivered).client .writing =
      { call := .get .write .blocked, held := [] } := by
    change s.writingPc.client = _
    rw [hwriting]
    rfl
  have hnotify : forall t,
      ((s.clients returned delivered).client t).call ≠ .notify := by
    intro t
    cases t with
    | reading => simp [hread]
    | writing => simp [hwrite]
  have hempty : forall t side, t ∈ s.queue.cv ->
      ((s.clients returned delivered).client t).call = .get side .blocked ->
      s.queue.dequeOf side = [] := by
    intro t side hmem hcall
    cases hdeque : s.queue.dequeOf side with
    | nil => rfl
    | cons b bs =>
        rcases h.clients.wakeup t side hmem hcall
          (by rw [BPCopyTool.clients, hdeque]; simp) with ⟨u, hu⟩
        exact absurd hu (hnotify u)
  have hfree := hempty .reading .read hreading (by rw [hread])
  have hfilled := hempty .writing .write hwritingCv (by rw [hwrite])
  rcases h.clients.owned.exists_mem (a := 0) buffersInQueue_pos with ⟨place, hplace⟩
  cases place with
  | readBuffers =>
      have hnil : s.queue.readBuffers = [] := hfree
      simp [cells, BPCopyTool.clients, hnil] at hplace
  | writeBuffers =>
      have hnil : s.queue.writeBuffers = [] := hfilled
      simp [cells, BPCopyTool.clients, hnil] at hplace
  | heldBy t =>
      cases t with
      | reading =>
          rw [cells, hread] at hplace
          cases hplace
      | writing =>
          rw [cells, hwrite] at hplace
          cases hplace

theorem Final.stuck {src : List UInt8} {s : BPCopyTool} (h : s.Final) :
    Stuck (StepOf (next src)) s := by
  intro a s' hstep
  rcases next_cases hstep with ⟨_, hcopy⟩ | ⟨_, hwriting⟩
  · cases hcopy <;> simp_all [Final]
  · cases hwriting <;> simp_all [Final]

/-- Where the two threads are when neither can move. -/
theorem stuck_cases {src : List UInt8} {s : BPCopyTool}
    {returned delivered : List Payload} (h : Linked s returned delivered)
    (hcopyNone : s.copy src Io.success = none)
    (hwritingNone : s.writingFunction Io.success = none) :
    s.copyPc = .returned ∧
      (s.writingPc = .left ∨
        s.writingPc = .write (.getFilledBuffer .blocked) ∧ .writing ∈ s.queue.cv) := by
  have hcopy := copy_eq_none h.control (h.safe.safe .reading) hcopyNone
  have hwriting := writingFunction_eq_none h.control (h.safe.safe .writing)
    hwritingNone
  have hfree : s.queue.queueMutex = none := by
    apply mutex_free_of_stuck h
    · rcases hcopy with hcopy | hcopy | hcopy
      · simp [hcopy, CopyPc.client, Call.holdsMutex]
      · simp [hcopy.left, CopyPc.client, ReadPc.client, Call.holdsMutex]
      · exact hcopy.right
    · rcases hwriting with hwriting | hwriting | hwriting | hwriting
      · simp [hwriting, WritingPc.client, Call.holdsMutex]
      · simp [hwriting, WritingPc.client, Call.holdsMutex]
      · simp [hwriting.left, WritingPc.client, WritePc.client, Call.holdsMutex]
      · exact hwriting.right
  have hcopy' : s.copyPc = .returned ∨
      (s.copyPc = .read (.getFreeBuffer .blocked) ∧ .reading ∈ s.queue.cv) := by
    rcases hcopy with hcopy | hcopy | hcopy
    · exact Or.inl hcopy
    · exact Or.inr hcopy
    · exact absurd hfree hcopy.left
  have hstarted : s.writingPc ≠ .notStarted := by
    intro hnot
    have hunstarted := h.control.started.mpr hnot
    rcases hcopy' with hpc | hpc
    · rw [hpc] at hunstarted
      cases hunstarted
    · rw [hpc.left] at hunstarted
      cases hunstarted
  rcases hwriting with hwriting | hwriting | hwriting | hwriting
  · exact absurd hwriting hstarted
  · exact ⟨h.control.left hwriting, Or.inl hwriting⟩
  · rcases hcopy' with hpc | hpc
    · exact ⟨hpc, Or.inr hwriting⟩
    · exact (not_both_asleep h hpc.left hpc.right hwriting.left hwriting.right).elim
  · exact absurd hfree hwriting.left

theorem stuck_final {src : List UInt8} {s : BPCopyTool}
    {returned delivered : List Payload} (h : Linked s returned delivered)
    (hawake : s.WriterCommitted -> s.queue.isOpen = true)
    (hstuck : Stuck (StepOf (next src)) s) : s.Final := by
  have hcopyNone : s.copy src Io.success = none :=
    Option.eq_none_iff_forall_ne_some.mpr (hstuck (.reading, Io.success))
  have hwritingNone : s.writingFunction Io.success = none :=
    Option.eq_none_iff_forall_ne_some.mpr (hstuck (.writing, Io.success))
  rcases stuck_cases h hcopyNone hwritingNone with ⟨hcopy, hleft | hasleep⟩
  · exact ⟨hcopy, hleft⟩
  · -- the writer sleeps and the queue has been closed
    have hopen := hawake (Or.inr hasleep)
    rw [h.control.isOpen, hcopy] at hopen
    cases hopen

/--
In every run in which no stdio call fails and `close` is not executed while the
writer is committed to sleep, a state without a further step is the final one.
-/
theorem stuck_only_when_final (src : List UInt8) (dst : String)
    (buffers : Nat -> List UInt8) (s : BPCopyTool)
    (hrun : Reaches (StepOf (next src)) (fun x a => NoFailure x a ∧ ClosesAwake x a)
      (new src dst buffers) s)
    (hstuck : Stuck (StepOf (next src)) s) : s.Final := by
  have hinv : (exists returned delivered, Linked s returned delivered) ∧
      (s.WriterCommitted -> s.queue.isOpen = true) := by
    refine Reaches.invariant (fun x =>
      (exists returned delivered, Linked x returned delivered) ∧
        (x.WriterCommitted -> x.queue.isOpen = true)) ?_ hrun ?_
    · intro x a x' hx hguard hstep
      rcases hx with ⟨⟨returned, delivered, hlinked⟩, hopen⟩
      rcases next_cases hstep with ⟨hthread, hcopy⟩ | ⟨_, hwriting⟩
      · exact ⟨⟨_, _, hlinked.copyStep hguard.left hcopy⟩,
          hcopy.keepsOpen (hguard.right hthread) hopen⟩
      · exact ⟨⟨_, _, hlinked.writingStep hwriting⟩, hwriting.keepsOpen hopen⟩
    · exact ⟨⟨[], [], new_linked src dst buffers⟩, by simp [WriterCommitted, new]⟩
  rcases hinv with ⟨⟨returned, delivered, hlinked⟩, hopen⟩
  exact stuck_final hlinked hopen hstuck

/-- Both threads finish the copy of a short file, the reader first. -/
def readerFirst : List Action :=
  List.replicate 14 (.reading, Io.success) ++
    List.replicate 9 (.writing, Io.success)

theorem stuck_only_when_final_threeBytes :
    exists s, exec (next [1, 2, 3]) readerFirst (new [1, 2, 3] "dst" fun _ => []) =
        some s ∧
      s.fileWriter.written = [1, 2, 3] ∧ s.Final := by
  have hview : (exec (next [1, 2, 3]) readerFirst (new [1, 2, 3] "dst" fun _ => [])).map
      (fun s => (s.fileWriter.written, s.copyPc, s.writingPc)) =
      some ([1, 2, 3], .returned, .left) := by
    decide +kernel
  rcases Option.map_eq_some_iff.mp hview with ⟨s, hexec, hview⟩
  simp only [Prod.mk.injEq] at hview
  have hfinal : s.Final := hview.right
  refine ⟨s, hexec, hview.left, ?_⟩
  exact stuck_only_when_final [1, 2, 3] "dst" _ s
    (reaches_of_exec readerFirst (by decide +kernel) hexec) hfinal.stuck

/-- The writer drains the queue and goes to sleep; then the reader closes the queue. -/
def sleepThenClose : List Action :=
  List.replicate 13 (.reading, Io.success) ++
    List.replicate 11 (.writing, Io.success) ++ [(.reading, Io.success)]

/-- A run without failures can end with the writer asleep and the queue closed. -/
theorem stuck_after_close :
    ¬ forall (src : List UInt8) (dst : String) (buffers : Nat -> List UInt8)
      (s : BPCopyTool),
      Reaches (StepOf (next src)) NoFailure (new src dst buffers) s ->
      Stuck (StepOf (next src)) s -> s.Final := by
  intro h
  have hview : (exec (next []) sleepThenClose (new [] "dst" fun _ => [])).map
      (fun s => (s.copyPc, s.writingPc, s.queue.cv)) =
      some (.returned, .write (.getFilledBuffer .blocked), [.writing]) := by
    decide +kernel
  rcases Option.map_eq_some_iff.mp hview with ⟨s, hexec, hpcs⟩
  simp only [Prod.mk.injEq] at hpcs
  rcases hpcs with ⟨hcopy, hwriting, hcv⟩
  have hstuck : Stuck (StepOf (next [])) s := by
    intro a s' hstep
    rcases next_cases hstep with ⟨_, hread⟩ | ⟨_, hwrite⟩
    · cases hread <;> simp_all
    · cases hwrite with
      | write hpc hwrite =>
          rw [hwriting] at hpc
          cases hpc
          simp [writeStep, getFilledBuffer, getStep, hcv] at hwrite
      | _ => simp_all
  have hfinal := h [] "dst" (fun _ => []) s
    (reaches_of_exec sleepThenClose (by decide +kernel) hexec) hstuck
  rw [hfinal.right] at hwriting
  cases hwriting

end BPCopyTool
end Common
end Ki
