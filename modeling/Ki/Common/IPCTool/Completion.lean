import Ki.Common.IPCTool.Blocking
import Ki.Common.IPCTool.Polling
import Ki.Common.IPCTool.Termination
import Ki.Common.IPCTool.Wakeup

/-!
# Where an undisturbed session comes to rest

A session that nobody interrupts, whose stdio calls succeed and whose observers see
their siblings can come to rest in one way only: the whole source is written.  The
writer has then left its loop, or it sleeps for good in `getFilledBuffer`.
-/

namespace Ki
namespace Common

open Foundation
open Queue
open FixedBufferQueue
open Clients
open Reader
open BufferedReader
open Writer
open BufferedFileWriter
open Stdio
open IPC
open IPCTool

variable {ι : Type} [DecidableEq ι]

/-!
# One process
-/

/-- The process is not interrupted, and its observer sees the sibling. -/
def Calm (s : World ι) (a : World.Action ι) : Prop :=
  a.2 ≠ .interrupt ∧ (a.2 = .observe ->
    s.segment.procInfo.counter (observed (s.proc a.1).ipcToolType) ≠ 0)

/-- A process that leaves `copy` by a return only. -/
structure Undisturbed (p : Process) : Prop where
  inside : p.ipcToolType ≠ .invalid -> p.phase = .copy ∨ p.tool.Returned
  timer : p.timer.canStop = true

theorem Process.new_undisturbed : Undisturbed Process.new where
  inside := fun htype => absurd rfl htype
  timer := rfl

theorem IPCTool.ReadingStep.undisturbed {src : List UInt8} {me : ι} {io : Io}
    (hio : io.Succeeds) {sh sh' : Segment ι} {p p' : Process} {reader : BufferedReader}
    {pc : ReaderPc} (hphase : p.phase = .copy)
    (hflags : ReaderFlags sh.queue reader pc) (h : Undisturbed p)
    (hstep : ReadingStep src me io sh p reader pc p' sh') : Undisturbed p' := by
  have hgoto : forall tool, Undisturbed (p.goto tool) :=
    fun tool => ⟨fun _ => Or.inl hphase, h.timer⟩
  cases hstep with
  | crash hnull => exact ⟨fun _ => Or.inl hphase, h.timer⟩
  | openFails hfails =>
      rw [hio.left] at hfails
      cases hfails
  | startObserver => exact ⟨fun _ => Or.inl hphase, rfl⟩
  | @read rpc r reader' q hread =>
      cases r with
      | next rpc' => exact hgoto _
      | done => exact hgoto _
      | threw held =>
          have hfails := readStep_throws hflags.isOpen hread
          rw [hio.left] at hfails
          cases hfails
  | stopTimer hstop => exact ⟨fun _ => Or.inr trivial, rfl⟩
  | _ => exact hgoto _

theorem IPCTool.WritingStep.undisturbed {me : ι} {io : Io} (hio : io.Succeeds)
    {sh sh' : Segment ι} {p p' : Process} {writer : BufferedFileWriter} {pc : WriterPc}
    (hphase : p.phase = .copy) (h : Undisturbed p)
    (hstep : WritingStep me io sh p writer pc p' sh') : Undisturbed p' := by
  have hgoto : forall tool, Undisturbed (p.goto tool) :=
    fun tool => ⟨fun _ => Or.inl hphase, h.timer⟩
  cases hstep with
  | createFails hfails =>
      rw [hio.left] at hfails
      cases hfails
  | crash hnull => exact ⟨fun _ => Or.inl hphase, h.timer⟩
  | startObserver => exact ⟨fun _ => Or.inl hphase, rfl⟩
  | @write wpc r writer' q hwrite =>
      cases r with
      | next wpc' => exact hgoto _
      | done => exact hgoto _
  | stopTimer hstop => exact ⟨fun _ => Or.inr trivial, rfl⟩
  | _ => exact hgoto _

omit [DecidableEq ι] in
theorem StartStep.undisturbed {args : Args} {sh sh' : Segment ι} {p p' : Process}
    (hconsistent : Consistent args p) (h : Undisturbed p)
    (hstart : StartStep args sh p p' sh') : Undisturbed p' := by
  have htype := hconsistent.unregistered hstart.phase
  cases hstart with
  | register hphase htool hcount => exact ⟨fun _ => Or.inl rfl, h.timer⟩
  | reject hphase => exact ⟨fun hne => absurd rfl hne, h.timer⟩
  | _ => exact ⟨fun hne => absurd htype hne, h.timer⟩

omit [DecidableEq ι] in
theorem LeaveStep.undisturbed {sh sh' : Segment ι} {p p' : Process} (h : Undisturbed p)
    (hleave : LeaveStep sh p p' sh') : Undisturbed p' := by
  have hinside := h.inside
  have hnot := hleave.after_copy.left
  have htimer := h.timer
  cases hleave with
  | joinTimer hphase hstop =>
      exact ⟨fun htype => Or.inr ((hinside htype).resolve_left hnot), rfl⟩
  | _ => exact ⟨fun htype => Or.inr ((hinside htype).resolve_left hnot), htimer⟩

omit [DecidableEq ι] in
/-- While its sibling is registered an observer changes nothing. -/
theorem IPCTool.ObserverStep.undisturbed {sh sh' : Segment ι} {p p' : Process}
    (h : Undisturbed p) (hsibling : sh.procInfo.counter (observed p.ipcToolType) ≠ 0)
    (hobserve : ObserverStep sh p p' sh') : Undisturbed p' := by
  have htimer := h.timer
  cases hobserve with
  | sibling => exact h
  | expire hwatching hcount => exact absurd hcount hsibling
  | callback hexpired =>
      rw [hexpired] at htimer
      cases htimer
  | ignore hexpired =>
      rw [hexpired] at htimer
      cases htimer
  | remove hremoving =>
      rw [hremoving] at htimer
      cases htimer
  | terminate hterminating _ =>
      rw [hterminating] at htimer
      cases htimer
  | terminateLate hterminating _ =>
      rw [hterminating] at htimer
      cases htimer

theorem ProcessStep.undisturbed {args : ι -> Args} {s : World ι} {me : ι} {event : Event}
    {c : Process} {sh : Segment ι} (hs : Session args s) (h : Undisturbed (s.proc me))
    (hsucceeds : Succeeds event) (hcalm : Calm s (me, event))
    (hstep : ProcessStep (args me) me s.segment (s.proc me) event c sh) :
    Undisturbed c := by
  cases hstep with
  | start hstart => exact hstart.undisturbed (hs.roles.consistent me) h
  | @reading io p' sh' reader pc hphase htype htool hreading =>
      exact hreading.undisturbed hsucceeds hphase
        (hs.reader.flags me reader pc htype htool) h
  | writing hphase htype htool hwriting =>
      exact hwriting.undisturbed hsucceeds hphase h
  | invalid hphase htype => exact ⟨fun hne => absurd htype hne, h.timer⟩
  | leave hleave => exact hleave.undisturbed h
  | interrupt hphase => exact absurd rfl hcalm.left
  | observe hphase hobserve => exact hobserve.undisturbed h (hcalm.right rfl)
  | linger hphase hobserve => exact hobserve.undisturbed h (hcalm.right rfl)

/-!
# Runs
-/

/-- One session without interruptions, failures or expiring observers. -/
def CalmSession (s : World ι) (a : World.Action ι) : Prop :=
  OneSession s a ∧ OpensOutsideTests s a ∧ Calm s a

/-- What holds in every run of an undisturbed session. -/
structure CalmRun (args : ι -> Args) (s : World ι) : Prop where
  anyRun : AnyRun args s
  delivering : Delivering args s
  undisturbed : forall p, Undisturbed (s.proc p)

theorem CalmRun.next {args : ι -> Args} (hsrc : forall p, (args p).src.length < 2 ^ 63)
    {s s' : World ι} {a : World.Action ι} (h : CalmRun args s) (hguard : CalmSession s a)
    (hnext : World.next args a s = some s') : CalmRun args s' where
  anyRun := h.anyRun.next hnext
  delivering := h.delivering.next hsrc hguard.left hnext
  undisturbed := by
    rcases World.next_cases hnext with ⟨c, sh, rfl, hstep⟩
    exact World.forall_move (P := fun _ p => Undisturbed p)
      (hstep.undisturbed h.delivering.session (h.undisturbed a.1) hguard.left.left
        hguard.right.right)
      (fun p _ => h.undisturbed p)

theorem CalmRun.run {args : ι -> Args} (hsrc : forall p, (args p).src.length < 2 ^ 63)
    {buffers : Nat -> List UInt8} {s : World ι}
    (hrun : Reaches (StepOf (World.next args)) CalmSession (World.init buffers) s) :
    CalmRun args s :=
  Reaches.invariant (CalmRun args) (fun _ _ _ hx hguard hnext => hx.next hsrc hguard hnext)
    hrun ⟨init_anyRun args buffers, init_delivering args buffers,
      fun _ => Process.new_undisturbed⟩

/-!
# Why a process makes no step
-/

/-- A reader process in `copy` that cannot go on. -/
inductive ReaderRests (sh : Segment ι) (me : ι) : ReaderPc -> Prop where
  | returned : ReaderRests sh me .returned
  | waiting (hwaiting : me ∈ sh.procInfo.writingStartedCondition) :
      ReaderRests sh me .waiting
  | asleep (hasleep : me ∈ sh.queue.cv) :
      ReaderRests sh me (.read (.getFreeBuffer .blocked))
  | blocked {pc : ReadPc} (hmutex : sh.queue.queueMutex ≠ none)
      (hnot : ¬ pc.client.call.holdsMutex) : ReaderRests sh me (.read pc)

/-- A writer process in `copy` that cannot go on. -/
inductive WriterRests (sh : Segment ι) (me : ι) : WriterPc -> Prop where
  | returned : WriterRests sh me .returned
  | asleep (hasleep : me ∈ sh.queue.cv) :
      WriterRests sh me (.write (.getFilledBuffer .blocked))
  | blocked {pc : WriterPc} (hmutex : sh.queue.queueMutex ≠ none)
      (hnot : ¬ pc.client.call.holdsMutex) : WriterRests sh me pc

/-!
# The reader and the writer at rest
-/

section Pair

variable {args : ι -> Args} {s : World ι} {r w : ι} {reader : BufferedReader}
  {rpc : ReaderPc} {writer : BufferedFileWriter} {pc : WriterPc}

theorem CalmRun.reader_rests (h : CalmRun args s) (hr : IsReader (s.proc r))
    (hlive : (s.proc r).crashed = false) (htool : (s.proc r).tool = .reader reader rpc)
    (hsafe : (s.proc r).tool.client.call ≠ .popEmpty)
    (hnone : World.next args (r, .run Io.success) s = none) :
    ReaderRests s.segment r rpc := by
  rw [htool] at hsafe
  rcases (h.undisturbed r).inside hr.type_ne with hcopy | hreturned
  · cases h.anyRun.reader_blocked hlive hcopy hr htool hnone with
    | waiting hwaiting => exact ReaderRests.waiting hwaiting
    | asleep hasleep => exact ReaderRests.asleep hasleep
    | popEmpty => exact absurd rfl hsafe
    | mutex hmutex hnot hquiet => exact ReaderRests.blocked hmutex hnot
    | timer htimer => cases htimer.symm.trans (h.undisturbed r).timer
  · rw [htool] at hreturned
    cases rpc with
    | returned => exact ReaderRests.returned
    | _ => cases hreturned

theorem CalmRun.writer_rests (h : CalmRun args s) (hw : IsWriter (s.proc w))
    (hlive : (s.proc w).crashed = false) (htool : (s.proc w).tool = .writer writer pc)
    (hsafe : (s.proc w).tool.client.call ≠ .popEmpty)
    (hnone : World.next args (w, .run Io.success) s = none) :
    WriterRests s.segment w pc := by
  rw [htool] at hsafe
  rcases (h.undisturbed w).inside hw.type_ne with hcopy | hreturned
  · cases h.anyRun.writer_blocked hlive hcopy hw htool hnone with
    | asleep hasleep => exact WriterRests.asleep hasleep
    | popEmpty => exact absurd rfl hsafe
    | mutex hmutex hnot hquiet => exact WriterRests.blocked hmutex hnot
    | timer htimer => cases htimer.symm.trans (h.undisturbed w).timer
  · rw [htool] at hreturned
    cases pc with
    | returned => exact WriterRests.returned
    | _ => cases hreturned

omit [DecidableEq ι] in
/-- What holds of the reader, of the writer and of idle clients holds of every client. -/
theorem CalmRun.forall_client (h : CalmRun args s) {P : Client -> Prop}
    (hidle : P { call := .idle, held := [] }) (hr : IsReader (s.proc r))
    (hrtool : (s.proc r).tool = .reader reader rpc) (hreader : P rpc.client)
    (hw : IsWriter (s.proc w)) (htool : (s.proc w).tool = .writer writer pc)
    (hwriter : P pc.client) (t : ι) : P (s.proc t).tool.client := by
  cases htype : (s.proc t).ipcToolType with
  | readerProcess =>
      rw [h.delivering.session.reader.unique t r htype hr, hrtool]
      exact hreader
  | writerProcess =>
      rw [h.delivering.writers t w htype hw, htool]
      exact hwriter
  | invalid =>
      have hunengaged : (s.proc t).tool.client = { call := .idle, held := [] } :=
        (h.anyRun.placed t).unengaged (Or.inl htype)
      rw [hunengaged]
      exact hidle

omit [DecidableEq ι] in
/-- When neither can go on, nobody holds the mutex. -/
theorem CalmRun.mutex_free (h : CalmRun args s) {returned delivered : List Payload}
    (hlinked : Linked s returned delivered) (hr : IsReader (s.proc r))
    (hrtool : (s.proc r).tool = .reader reader rpc) (hreader : ReaderRests s.segment r rpc)
    (hw : IsWriter (s.proc w)) (htool : (s.proc w).tool = .writer writer pc)
    (hwriter : WriterRests s.segment w pc) : s.segment.queue.queueMutex = none := by
  have hnot : forall t, ¬ (s.proc t).tool.client.call.holdsMutex := by
    refine h.forall_client (P := fun c => ¬ c.call.holdsMutex) id hr hrtool ?_ hw htool ?_
    · cases hreader with
      | blocked hmutex hnot => exact hnot
      | _ => exact id
    · cases hwriter with
      | blocked hmutex hnot => exact hnot
      | _ => exact id
  cases hmutex : s.segment.queue.queueMutex with
  | none => rfl
  | some t => exact absurd ((hlinked.clients.mutex t).mp hmutex) (hnot t)

omit [DecidableEq ι] in
/-- Nobody is about to notify, and so a sleeper's deque is empty. -/
theorem Linked.empty_of_asleep {returned delivered : List Payload}
    (hlinked : Linked s returned delivered)
    (hquiet : forall t, (s.proc t).tool.client.call ≠ .notify) {t : ι} {side : BufferType}
    (hcall : (s.proc t).tool.client.call = .get side .blocked)
    (hasleep : t ∈ s.segment.queue.cv) : s.segment.queue.dequeOf side = [] := by
  rcases hlinked.empty_or_notify hcall hasleep with hempty | ⟨u, hnotify⟩
  · exact hempty
  · exact absurd hnotify (hquiet u)

omit [DecidableEq ι] in
/-- The reader and the writer cannot both be asleep: the buffers would be nowhere. -/
theorem CalmRun.not_both_asleep (h : CalmRun args s) {returned delivered : List Payload}
    (hlinked : Linked s returned delivered) (hr : IsReader (s.proc r))
    (hrtool : (s.proc r).tool = .reader reader (.read (.getFreeBuffer .blocked)))
    (hw : IsWriter (s.proc w))
    (htool : (s.proc w).tool = .writer writer (.write (.getFilledBuffer .blocked)))
    (hreader : r ∈ s.segment.queue.cv) (hwriter : w ∈ s.segment.queue.cv) : False := by
  have hquiet : forall t, (s.proc t).tool.client.call ≠ .notify :=
    h.forall_client (P := fun c => c.call ≠ .notify) (by simp) hr hrtool
      (by simp [ReaderPc.client, ReadPc.client]) hw htool
      (by simp [WriterPc.client, WritePc.client])
  have hheld : forall t, (s.proc t).tool.client.held = [] :=
    h.forall_client (P := fun c => c.held = []) rfl hr hrtool rfl hw htool rfl
  have hfree : s.segment.queue.dequeOf .read = [] :=
    hlinked.empty_of_asleep hquiet (by rw [hrtool]; rfl) hreader
  have hfilled : s.segment.queue.dequeOf .write = [] :=
    hlinked.empty_of_asleep hquiet (by rw [htool]; rfl) hwriter
  rcases hlinked.clients.owned.exists_mem (a := 0) buffersInQueue_pos with ⟨place, hplace⟩
  cases place with
  | readBuffers =>
      rw [dequeOf] at hfree
      simp [cells, World.clients, hfree] at hplace
  | writeBuffers =>
      rw [dequeOf] at hfilled
      simp [cells, World.clients, hfilled] at hplace
  | heldBy t =>
      simp [cells, World.clients, hheld t] at hplace

omit [DecidableEq ι] in
/-- A reader that rests without the mutex being taken sleeps, or has closed the queue. -/
theorem ReaderRests.closed {sh : Segment ι} {me : ι} (h : ReaderRests sh me rpc)
    (hflags : ReaderFlags sh.queue reader rpc) (hfree : sh.queue.queueMutex = none) :
    rpc = .read (.getFreeBuffer .blocked) ∧ me ∈ sh.queue.cv ∨
      sh.queue.isReadFinished_ = true ∧ sh.queue.isOpen = false := by
  have hfinished := hflags.finished
  have hlate := hflags.late
  cases h with
  | asleep hasleep => exact Or.inl ⟨rfl, hasleep⟩
  | blocked hmutex => exact absurd hfree hmutex
  | returned => exact Or.inr ⟨hfinished.trans (hlate trivial), hflags.isOpen⟩
  | waiting hwaiting => exact Or.inr ⟨hfinished.trans (hlate trivial), hflags.isOpen⟩

omit [DecidableEq ι] in
theorem ReaderRests.not_unopened {sh : Segment ι} {me : ι} (h : ReaderRests sh me rpc)
    (hflags : ReaderFlags sh.queue reader rpc) : ¬ sh.queue.Unopened := by
  intro hunopened
  have hopen := hflags.isOpen.symm.trans hunopened.left
  have hfinished := hflags.finished.symm.trans hunopened.right.left
  have hlate := hflags.late
  cases h with
  | asleep hasleep => cases hopen
  | blocked hmutex => cases hopen
  | returned => cases (hlate trivial).symm.trans hfinished
  | waiting hwaiting => cases (hlate trivial).symm.trans hfinished

omit [DecidableEq ι] in
/-- A sleeping writer has left no filled buffer in the queue. -/
theorem CalmRun.empty_of_asleep (h : CalmRun args s) {returned delivered : List Payload}
    (hlinked : Linked s returned delivered) (hr : IsReader (s.proc r))
    (hrtool : (s.proc r).tool = .reader reader rpc) (hreader : ReaderRests s.segment r rpc)
    (hw : IsWriter (s.proc w))
    (htool : (s.proc w).tool = .writer writer (.write (.getFilledBuffer .blocked)))
    (hasleep : w ∈ s.segment.queue.cv) : s.segment.queue.writeBuffers = [] := by
  have hfree := h.mutex_free hlinked hr hrtool hreader hw htool (WriterRests.asleep hasleep)
  have hquiet : forall t, (s.proc t).tool.client.call ≠ .notify := by
    refine h.forall_client (P := fun c => c.call ≠ .notify) (by simp) hr hrtool ?_ hw htool
      (by simp [WriterPc.client, WritePc.client])
    cases hreader with
    | blocked hmutex => exact absurd hfree hmutex
    | asleep hmem => simp [ReaderPc.client, ReadPc.client]
    | _ => simp [ReaderPc.client]
  have hempty : s.segment.queue.dequeOf .write = [] :=
    hlinked.empty_of_asleep hquiet (by rw [htool]; rfl) hasleep
  exact hempty

omit [DecidableEq ι] in
/-- The writer has taken everything, and its hands are empty. -/
theorem CalmRun.drained (h : CalmRun args s) {returned delivered : List Payload}
    (hlinked : Linked s returned delivered) (hr : IsReader (s.proc r))
    (hrtool : (s.proc r).tool = .reader reader rpc) (hreader : ReaderRests s.segment r rpc)
    (hw : IsWriter (s.proc w)) (htool : (s.proc w).tool = .writer writer pc)
    (hwriter : WriterRests s.segment w pc) :
    Drained s.segment.queue ∧ pending s.segment.queue.buffers pc.writePc = [] := by
  have hfree := h.mutex_free hlinked hr hrtool hreader hw htool hwriter
  have hflags := h.delivering.session.reader.flags r reader rpc hr hrtool
  cases hwriter with
  | returned => exact ⟨h.delivering.session.drains.left w writer _ hw htool trivial, rfl⟩
  | asleep hasleep =>
      have hempty := h.empty_of_asleep hlinked hr hrtool hreader hw htool hasleep
      rcases hreader.closed hflags hfree with ⟨rfl, hmem⟩ | ⟨hfinished, hclosed⟩
      · exact (h.not_both_asleep hlinked hr hrtool hw htool hmem hasleep).elim
      · exact ⟨⟨hfinished, hclosed, hempty⟩, rfl⟩
  | blocked hmutex hnot => exact absurd hfree hmutex

end Pair

/-- The process has not crashed, and makes no step that is not an idle one. -/
structure AtRest (args : ι -> Args) (s : World ι) (p : ι) : Prop where
  live : (s.proc p).crashed = false
  idles : forall s', World.next args (p, .run Io.success) s = some s' ->
    World.Idle s (p, .run Io.success)

/--
However the processes of an undisturbed session interleave, when the reader and the
writer have come to rest the whole source has been written.  The writer has returned or
sleeps for good in `getFilledBuffer`, and the reader has returned or waits for good for
`isWritingStarted`.
-/
theorem rest_copied (args : ι -> Args) (hsrc : forall p, (args p).src.length < 2 ^ 63)
    (buffers : Nat -> List UInt8) (s : World ι) (r w : ι) (writer : BufferedFileWriter)
    (pc : WriterPc)
    (hrun : Reaches (StepOf (World.next args)) CalmSession (World.init buffers) s)
    (hr : IsReader (s.proc r)) (hrrest : AtRest args s r) (hw : IsWriter (s.proc w))
    (hwrest : AtRest args s w) (htool : (s.proc w).tool = .writer writer pc) :
    writer.written = (args r).src ∧
      ((s.proc w).tool.Returned ∨ WriterAsleep s w) ∧
      ((s.proc r).tool.Returned ∨ r ∈ s.segment.procInfo.writingStartedCondition) := by
  have hcalm : CalmRun args s := CalmRun.run hsrc hrun
  have hsafe : forall p, (s.proc p).tool.client.call ≠ .popEmpty := by
    rcases processes_refine_clients
      (hrun.mono fun _ _ hguard => hguard.right.left) with ⟨_, _, hclients⟩
    exact (reaches_inv (init_inv buffers) (init_noEmptyPop buffers) hclients).right.safe
  rcases hcalm.delivering.session.roles.reader_tool hr with ⟨reader, rpc, hrtool⟩
  have hflags := hcalm.delivering.session.reader.flags r reader rpc hr hrtool
  have hreader : ReaderRests s.segment r rpc := by
    refine hcalm.reader_rests hr hrrest.live hrtool (hsafe r) ?_
    refine Option.eq_none_iff_forall_ne_some.mpr fun s' hnext => ?_
    exact hr.not_isWriter (hrrest.idles s' hnext).right.left
  have hwriter : WriterRests s.segment w pc := by
    refine hcalm.writer_rests hw hwrest.live htool (hsafe w) ?_
    refine Option.eq_none_iff_forall_ne_some.mpr fun s' hnext => ?_
    exact hreader.not_unopened hflags (hwrest.idles s' hnext).right.right.right
  rcases hcalm.delivering.data with ⟨returned, delivered, hlinked, hdata⟩
  have hfree := hcalm.mutex_free hlinked hr hrtool hreader hw htool hwriter
  rcases hcalm.drained hlinked hr hrtool hreader hw htool hwriter with ⟨hdrained, hpending⟩
  refine ⟨hdata.written_drained hlinked hr hrtool hflags hw htool hdrained hpending, ?_, ?_⟩
  · rcases (hcalm.undisturbed w).inside hw.type_ne with hcopy | hreturned
    · rw [htool]
      cases hwriter with
      | returned => exact Or.inl trivial
      | asleep hasleep => exact Or.inr ⟨hcopy, hw, by rw [htool]; rfl, hasleep⟩
      | blocked hmutex hnot => exact absurd hfree hmutex
    · exact Or.inl hreturned
  · rw [hrtool]
    cases hreader with
    | returned => exact Or.inl trivial
    | waiting hwaiting => exact Or.inr hwaiting
    | asleep hasleep => cases hflags.isOpen.symm.trans hdrained.closed
    | blocked hmutex hnot => exact absurd hfree hmutex

instance (s : World Pid) (a : World.Action Pid) : Decidable (CalmSession s a) :=
  inferInstanceAs (Decidable (OneSession s a ∧
    (_ -> _ -> forall (p : Pid) (side : BufferType),
      ¬ ((s.proc p).tool.client.call = _ ∧ s.segment.queue.dequeOf side = [])) ∧
    _ ≠ _ ∧ (_ -> _ ≠ _)))

theorem atRest_of_isNone {args : ι -> Args} {s : World ι} {p : ι}
    (hlive : (s.proc p).crashed = false)
    (hnone : (World.next args (p, .run Io.success) s).isNone = true) : AtRest args s p where
  live := hlive
  idles := by
    intro s' hnext
    rw [hnext] at hnone
    cases hnone

/-- The writer sleeps through `close`, and the reader leaves. -/
def sleepsThroughClose : List (World.Action Pid) :=
  closedOnSleeper ++ World.turns .first 1

theorem rest_copied_sleepsThroughClose :
    exists (s : World Pid) (writer : BufferedFileWriter),
      exec (World.next (sources [1] [])) sleepsThroughClose (World.init fun _ => []) =
        some s ∧
      (s.proc .second).tool = .writer writer (.write (.getFilledBuffer .blocked)) ∧
      writer.written = [1] ∧
      ((s.proc .second).tool.Returned ∨ WriterAsleep s .second) := by
  have hview : (exec (World.next (sources [1] [])) sleepsThroughClose
      (World.init fun _ => [])).map (fun s =>
        ((s.proc .first).ipcToolType, (s.proc .first).crashed,
          (World.next (sources [1] []) (.first, .run Io.success) s).isNone)) =
      some (.readerProcess, false, true) := by
    decide +kernel
  have hview' : (exec (World.next (sources [1] [])) sleepsThroughClose
      (World.init fun _ => [])).map (fun s =>
        ((s.proc .second).ipcToolType, (s.proc .second).crashed,
          (World.next (sources [1] []) (.second, .run Io.success) s).isNone,
          (s.proc .second).tool)) =
      some (.writerProcess, false, true, .writer
        { fileName := "dst"
          fileDesc := some { buffer := [], cache := [1], disk := [] } }
        (.write (.getFilledBuffer .blocked))) := by
    decide +kernel
  rcases Option.map_eq_some_iff.mp hview with ⟨s, hexec, hfirst⟩
  rw [hexec] at hview'
  have hsecond := Option.some.inj hview'
  simp only [Prod.mk.injEq] at hfirst hsecond
  rcases hfirst with ⟨hr, hrlive, hrnone⟩
  rcases hsecond with ⟨hw, hwlive, hwnone, htool⟩
  have hcopied := rest_copied (sources [1] []) (by decide) _ s .first .second _ _
    (reaches_of_exec sleepsThroughClose (by decide +kernel) hexec) hr
    (atRest_of_isNone hrlive hrnone) hw (atRest_of_isNone hwlive hwnone) htool
  exact ⟨s, _, hexec, htool, hcopied.left, hcopied.right.left⟩

end Common
end Ki
