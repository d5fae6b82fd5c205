import Ki.Common.IPCTool.Potential
import Ki.Common.IPCTool.StartedFlag

/-!
# What the steps of a process pay

Every step lowers the potential of the process that makes it, and a step that may set
other processes back lowers it by what that costs.  Only a poll of the observer that
sees its sibling, and the round of a writer over a queue not yet opened, cost nothing.
-/

namespace Ki
namespace Common

open Foundation
open Queue
open FixedBufferQueue
open Clients
open Reader
open BufferedReader
open Writer
open BufferedFileWriter
open Stdio
open IPC
open IPCTool

variable {ι : Type} [DecidableEq ι]

/-!
# The start and the end of a process
-/

theorem StartStep.pays {args : Args} {sh sh' : Segment ι} {p p' : Process}
    (hlive : p.crashed = false) (loud : Nat) (me : ι) (h : StartStep args sh p p' sh') :
    Pays loud me sh sh' (p.potential loud args.src.length me sh)
      (p'.potential loud args.src.length me sh') := by
  left
  have htimer := p.timer.potential_le
  cases h with
  | decideReader hphase hcount =>
      refine ⟨quiet_of_queue_eq rfl rfl, ?_⟩
      have hread : ReaderPc.toRead (BufferedReader.new args.src) .openQueue =
          args.src.length / bufferSize + 1 := rfl
      simp only [Process.potential, hlive, hphase, Tool.potential, hread, freshCost,
        ReaderPc.filled, ReaderPc.potential, Bool.false_eq_true, if_false]
      omega
  | decideWriter hphase hcount =>
      refine ⟨quiet_of_queue_eq rfl rfl, ?_⟩
      simp only [Process.potential, hlive, hphase, Tool.potential, freshCost,
        WriterPc.potential, Bool.false_eq_true, if_false]
      omega
  | register hphase htype hcount =>
      have hsame := ProcInfo.setCounter_writingStartedCondition sh.procInfo
        p.tool.toolType 1
      refine ⟨quiet_of_queue_eq rfl hsame, ?_⟩
      have htool : p.tool.potential loud me
          { sh with procInfo := sh.procInfo.setCounter p.tool.toolType 1 } =
          p.tool.potential loud me sh := Tool.potential_congr rfl hsame
      simp only [Process.potential, hlive, hphase, htool, Bool.false_eq_true, if_false]
      omega
  | crash hphase hnull =>
      refine ⟨quiet_of_queue_eq rfl rfl, ?_⟩
      simp [Process.potential, hlive, hphase, Process.crash]
  | create hphase hcreated =>
      refine ⟨quiet_of_queue_eq rfl rfl, ?_⟩
      simp [Process.potential, hlive, hphase]
  | storeDst hphase =>
      refine ⟨quiet_of_queue_eq rfl rfl, ?_⟩
      simp [Process.potential, hlive, hphase]
  | _ =>
      refine ⟨quiet_of_queue_eq rfl rfl, ?_⟩
      simp [Process.potential, *]

theorem LeaveStep.pays {sh sh' : Segment ι} {p p' : Process} (hlive : p.crashed = false)
    (loud n : Nat) (me : ι) (h : LeaveStep sh p p' sh') :
    Pays loud me sh sh' (p.potential loud n me sh) (p'.potential loud n me sh') := by
  left
  cases h with
  | deregister hphase =>
      refine ⟨quiet_of_queue_eq rfl
        (ProcInfo.setCounter_writingStartedCondition _ _ _), ?_⟩
      simp [Process.potential, hlive, hphase]
  | joinTimer hphase hstop =>
      refine ⟨quiet_of_queue_eq rfl rfl, ?_⟩
      simp only [Process.potential, hlive, hphase, Bool.false_eq_true, if_false]
      omega
  | _ =>
      refine ⟨quiet_of_queue_eq rfl rfl, ?_⟩
      simp [Process.potential, *]

/-!
# The observer
-/

omit [DecidableEq ι] in
/-- A step of the observer that changes nothing has seen a sibling. -/
theorem observerStep_sibling {sh : Segment ι} {p : Process}
    (h : observerStep sh p = some (p, sh)) :
    p.timer = .watching ∧ sh.procInfo.counter (observed p.ipcToolType) ≠ 0 := by
  unfold observerStep at h
  cases htimer : p.timer with
  | watching =>
      simp only [htimer] at h
      split at h
      · have hsame := congrArg (fun out => out.1.timer) (Option.some.inj h)
        rw [htimer] at hsame
        cases hsame
      · rename_i hcount
        exact ⟨rfl, hcount⟩
  | expired =>
      simp only [htimer] at h
      split at h
      · have hsame := congrArg (fun out => out.1.timer) (Option.some.inj h)
        rw [htimer] at hsame
        cases hsame
      · rcases Option.map_eq_some_iff.mp h with ⟨finished, _, hsome⟩
        have hsame := congrArg (fun out => out.1.timer) hsome
        rw [htimer] at hsame
        cases finished <;> cases hsame
  | removing =>
      simp only [htimer] at h
      have hsame := congrArg (fun out => out.1.timer) (Option.some.inj h)
      rw [htimer] at hsame
      cases hsame
  | terminating =>
      simp only [htimer] at h
      split at h
      · have hsame := congrArg (fun out => out.1.timer) (Option.some.inj h)
        rw [htimer] at hsame
        cases hsame
      · have hsame := congrArg (fun out => out.1.timer) (Option.some.inj h)
        rw [htimer] at hsame
        cases hsame
  | off =>
      rw [htimer] at h
      cases h
  | returned =>
      rw [htimer] at h
      cases h

/-- What an observed process has left apart from the steps of its observer. -/
theorem potential_observed (sh : Segment ι) {p : Process} (hlive : p.crashed = false)
    (hphase : p.phase = .copy ∨ p.phase = .deregister ∨ p.phase = .joinTimer)
    (loud n : Nat) (me : ι) :
    exists rest, forall timer named,
      Process.potential loud n me { sh with named := named } { p with timer := timer } =
        rest + timer.potential := by
  rcases hphase with hphase | hphase | hphase
  · refine ⟨6 + p.tool.potential loud me sh, fun timer named => ?_⟩
    have htool : p.tool.potential loud me { sh with named := named } =
        p.tool.potential loud me sh := Tool.potential_congr rfl rfl
    simp only [Process.potential, hlive, hphase, htool, Bool.false_eq_true, if_false]
    omega
  · refine ⟨5, fun timer named => ?_⟩
    simp [Process.potential, hlive, hphase]
  · refine ⟨4, fun timer named => ?_⟩
    simp [Process.potential, hlive, hphase]

theorem observerStep_pays {sh sh' : Segment ι} {p p' : Process}
    (hlive : p.crashed = false)
    (hphase : p.phase = .copy ∨ p.phase = .deregister ∨ p.phase = .joinTimer)
    (loud n : Nat) (me : ι)
    (hbusy : ¬ (p.timer = .watching ∧
      sh.procInfo.counter (observed p.ipcToolType) ≠ 0))
    (h : observerStep sh p = some (p', sh')) :
    Pays loud me sh sh' (p.potential loud n me sh) (p'.potential loud n me sh') := by
  left
  rcases potential_observed sh hlive hphase loud n me with ⟨rest, hrest⟩
  have hbefore : p.potential loud n me sh = rest + p.timer.potential :=
    hrest p.timer sh.named
  cases observerStep_cases h with
  | sibling => exact absurd (observerStep_sibling h) hbusy
  | expire htimer hcount =>
      refine ⟨quiet_of_queue_eq rfl rfl, ?_⟩
      rw [hbefore, hrest .expired sh.named, htimer]
      simp [Observer.potential]
  | callback htimer hremove =>
      refine ⟨quiet_of_queue_eq rfl rfl, ?_⟩
      rw [hbefore, hrest .removing sh.named, htimer]
      simp [Observer.potential]
  | ignore htimer hfinished =>
      refine ⟨quiet_of_queue_eq rfl rfl, ?_⟩
      rw [hbefore, hrest .returned sh.named, htimer]
      simp [Observer.potential]
  | remove htimer =>
      refine ⟨quiet_of_queue_eq rfl rfl, ?_⟩
      rw [hbefore, hrest .terminating false, htimer]
      simp [Observer.potential]
  | terminate htimer hcopy =>
      refine ⟨quiet_of_queue_eq rfl rfl, ?_⟩
      simp [Process.potential, hlive, hcopy, htimer, Observer.potential]
      omega
  | terminateLate htimer hnot =>
      refine ⟨quiet_of_queue_eq rfl rfl, ?_⟩
      rw [hbefore, hrest .off sh.named, htimer]
      simp [Observer.potential]

/-!
# Copying in a reader process
-/

theorem getStep_still {me : ι} {q q' : FixedBufferQueue ι} {side : BufferType}
    {pc : GetPc} {r : GetResult} (h : q.getStep side me pc = some (r, q'))
    (hwriteBuffers : q'.writeBuffers = q.writeBuffers) : StillQueue me q q' where
  cv := fun _ ht => getStep_cv_iff h ht
  isOpen := getStep_isOpen h
  finished := getStep_isReadFinished h
  writeBuffers := hwriteBuffers

theorem readStep_pays {me : ι} {io : Io} {sh : Segment ι} {p : Process}
    {reader reader' : BufferedReader} {q' : FixedBufferQueue ι} {pc : ReadPc}
    {r : ReadResult} (loud n : Nat) (hlive : p.crashed = false) (hphase : p.phase = .copy)
    (htool : p.tool = .reader reader (.read pc)) (hsize : reader.fileSize < 2 ^ 63)
    (hbound : reader.currentOffset ≤ reader.fileSize) (htyped : pc.Typed)
    (hearly : pc.Early -> reader.readFinished = false)
    (hstep : reader.readStep me io sh.queue pc = some (r, reader', q')) :
    Pays loud me sh { sh with queue := q' } (p.potential loud n me sh)
      ((IPCTool.afterRead p reader' r).potential loud n me { sh with queue := q' }) := by
  rw [potential_copy loud n me hlive hphase, htool]
  cases readStep_cases hstep with
  | @getFreeBuffer gpc got q' hget =>
      have hlower := getStep_lowers hget
      have hqueued := getFreeBuffer_writeBuffers hget
      left
      refine ⟨quiet_of_still (getStep_still hget hqueued), ?_⟩
      cases got with
      | next gpc' =>
          simp only [IPCTool.afterRead, afterGetFreeBuffer, potential_goto loud n me hlive
            hphase, Tool.potential, ReaderPc.toRead, ReaderPc.filled, ReaderPc.potential,
            GetResult.potential] at hlower ⊢
          omega
      | buffer b =>
          simp only [IPCTool.afterRead, afterGetFreeBuffer, potential_goto loud n me hlive
            hphase, Tool.potential, ReaderPc.toRead, ReaderPc.filled, ReaderPc.potential,
            GetResult.potential] at hlower ⊢
          omega
      | popEmpty =>
          simp only [IPCTool.afterRead, afterGetFreeBuffer, potential_goto loud n me hlive
            hphase, Tool.potential, ReaderPc.toRead, ReaderPc.filled, ReaderPc.potential]
          omega
      | nullopt =>
          simp only [IPCTool.afterRead, afterGetFreeBuffer, potential_leave loud n me hlive]
          omega
  | setvbufFails buf hfails =>
      left
      refine ⟨quiet_of_queue_eq rfl rfl, ?_⟩
      simp only [IPCTool.afterRead, potential_leave loud n me hlive]
      omega
  | @fill buf file hopen hok =>
      have hunfinished := hearly trivial
      left
      refine ⟨quiet_of_still ⟨fun _ _ => Iff.rfl, rfl, rfl, rfl⟩, ?_⟩
      by_cases hmore : reader.readCount < reader.fileSize
      · have hless := BPCopyTool.fullChunks_fill hsize hbound hmore
          (file.setvbuf buf.data) io
        have hstill : (reader.afterFgetc (file.setvbuf buf.data) io).readFinished =
            false := hunfinished
        simp only [hmore, if_true, IPCTool.afterRead, potential_goto loud n me hlive
          hphase, Tool.potential, ReaderPc.toRead, ReaderPc.filled, ReaderPc.potential,
          hunfinished, hstill, ← hless, Nat.mul_add, chunkCost, bufferCost,
          Bool.false_eq_true, if_false]
        omega
      · simp only [hmore, if_false, IPCTool.afterRead, potential_goto loud n me hlive
          hphase, Tool.potential, ReaderPc.toRead, ReaderPc.filled, ReaderPc.potential,
          hunfinished, Nat.mul_add, chunkCost, bufferCost, Bool.false_eq_true]
        omega
  | storeFinished buf =>
      left
      refine ⟨quiet_of_queue_eq rfl rfl, ?_⟩
      simp [IPCTool.afterRead, potential_goto loud n me hlive hphase, Tool.potential,
        ReaderPc.toRead, ReaderPc.filled, ReaderPc.potential]
  | finishRead buf hfree =>
      right
      simp only [IPCTool.afterRead, potential_goto loud n me hlive hphase, Tool.potential,
        ReaderPc.toRead, ReaderPc.filled, ReaderPc.potential]
      omega
  | @returnBuffer buf q' hreturn =>
      have htype := htyped buf (by simp [ReadPc.client])
      rcases returnBuffer_cases hreturn with ⟨_, rfl⟩
      right
      simp only [IPCTool.afterRead, potential_goto loud n me hlive hphase, Tool.potential,
        ReaderPc.toRead, ReaderPc.filled, ReaderPc.potential, htype, BufferType.flip,
        setDeque, dequeOf, List.length_append, List.length_singleton, Nat.mul_add]
      omega
  | notifyAll =>
      right
      simp only [IPCTool.afterRead, potential_goto loud n me hlive hphase, Tool.potential,
        ReaderPc.toRead, ReaderPc.filled, ReaderPc.potential, FixedBufferQueue.notifyAll]
      omega

theorem readingStep_pays {src : List UInt8} (hsrc : src.length < 2 ^ 63) {me : ι}
    {io : Io} {sh sh' : Segment ι} {p p' : Process} {reader : BufferedReader}
    {pc : ReaderPc} (loud : Nat) (hlive : p.crashed = false) (hphase : p.phase = .copy)
    (htool : p.tool = .reader reader pc) (hpaced : Tool.Paced src p.tool)
    (h : readingStep src me io sh p reader pc = some (p', sh')) :
    Pays loud me sh sh' (p.potential loud src.length me sh)
      (p'.potential loud src.length me sh') := by
  rw [htool] at hpaced
  rcases hpaced with ⟨hsize, hbound, hread⟩
  have hcopy : p.potential loud src.length me sh = _ :=
    potential_copy loud src.length me hlive hphase
  rw [htool] at hcopy
  have hawake : pc = .waiting -> me ∉ sh.procInfo.writingStartedCondition := by
    rintro rfl hasleep
    rw [readingStep, if_pos hasleep] at h
    cases h
  cases readingStep_cases h with
  | @read rpc r reader' q' hstep =>
      have hbefore := hread rpc rfl
      exact readStep_pays loud src.length hlive hphase htool (by rw [hsize]; exact hsrc)
        (by rw [hsize]; exact hbound) hbefore.left hbefore.right hstep
  | openQueue =>
      right
      rw [hcopy]
      simp only [potential_goto loud src.length me hlive hphase, Tool.potential,
        ReaderPc.toRead, ReaderPc.filled, ReaderPc.potential, FixedBufferQueue.open']
      omega
  | close =>
      right
      rw [hcopy]
      simp only [potential_goto loud src.length me hlive hphase, Tool.potential,
        ReaderPc.toRead, ReaderPc.filled, ReaderPc.potential, FixedBufferQueue.close]
      omega
  | crash hnull =>
      left
      refine ⟨quiet_of_queue_eq rfl rfl, ?_⟩
      rw [hcopy, potential_crash]
      omega
  | openFails hfails =>
      left
      refine ⟨quiet_of_queue_eq rfl rfl, ?_⟩
      rw [hcopy, potential_leave loud src.length me hlive]
      omega
  | openFile =>
      have hoffset : ¬ reader.fileSize < reader.currentOffset := by
        rw [hsize]
        exact Nat.not_lt.mpr hbound
      left
      refine ⟨quiet_of_queue_eq rfl rfl, ?_⟩
      rw [hcopy, potential_goto loud src.length me hlive hphase]
      simp only [Tool.potential, ReaderPc.toRead, ReaderPc.filled, ReaderPc.potential,
        BufferedReader.open', hoffset, if_false, BPCopyTool.fullChunks]
      omega
  | startObserver =>
      left
      refine ⟨quiet_of_queue_eq rfl rfl, ?_⟩
      rw [hcopy, potential_startObserver loud src.length me hlive hphase]
      simp only [Tool.potential, ReaderPc.toRead, ReaderPc.filled, ReaderPc.potential]
      omega
  | finished hfinished =>
      left
      refine ⟨quiet_of_queue_eq rfl rfl, ?_⟩
      rw [hcopy, potential_goto loud src.length me hlive hphase]
      simp only [Tool.potential, ReaderPc.toRead, ReaderPc.filled, ReaderPc.potential]
      omega
  | unfinished hunfinished =>
      left
      refine ⟨quiet_of_queue_eq rfl rfl, ?_⟩
      rw [hcopy, potential_goto loud src.length me hlive hphase]
      simp only [Tool.potential, ReaderPc.toRead, ReaderPc.filled, ReaderPc.potential,
        GetPc.potential]
      omega
  | started hpc hstarted =>
      left
      refine ⟨quiet_of_queue_eq rfl rfl, ?_⟩
      rw [hcopy, potential_goto loud src.length me hlive hphase]
      rcases hpc with rfl | rfl
      · simp only [Tool.potential, ReaderPc.toRead, ReaderPc.filled, ReaderPc.potential]
        omega
      · simp [Tool.potential, ReaderPc.toRead, ReaderPc.filled, ReaderPc.potential,
          hawake rfl]
  | sleep hpc hstarted =>
      left
      refine ⟨⟨⟨fun _ _ => Iff.rfl, rfl, rfl, rfl⟩, ?_⟩, ?_⟩
      · intro t ht
        simp [ProcInfo.sleep, ht]
      · rw [hcopy, potential_goto loud src.length me hlive hphase]
        rcases hpc with rfl | rfl
        · simp [Tool.potential, ReaderPc.toRead, ReaderPc.filled, ReaderPc.potential,
            ProcInfo.sleep]
        · simp [Tool.potential, ReaderPc.toRead, ReaderPc.filled, ReaderPc.potential,
            ProcInfo.sleep, hawake rfl]
  | stopTimer hstop =>
      left
      refine ⟨quiet_of_queue_eq rfl rfl, ?_⟩
      rw [hcopy, potential_stopTimer loud src.length me hlive]
      omega

/-!
# Copying in a writer process
-/

omit [DecidableEq ι] in
theorem not_drained_of_unfinished {q : FixedBufferQueue ι} (h : q.isReadFinished_ = false) :
    ¬ Drained q := by
  intro hdrained
  rw [hdrained.finished] at h
  cases h

omit [DecidableEq ι] in
theorem not_unopened_of_finished {q : FixedBufferQueue ι} (h : q.isReadFinished_ = true) :
    ¬ q.Unopened := by
  intro hunopened
  rw [hunopened.right.left] at h
  cases h

/-- Where a writer comes back to costs no more than nine steps. -/
theorem testFinished_potential_le (loud : Nat) (asleep unopened drained : Bool) :
    WriterPc.potential loud asleep unopened drained .testFinished ≤ 9 := by
  cases unopened <;> cases drained <;> simp [WriterPc.potential]

theorem getFilledBuffer_writeBuffers {me : ι} {q q' : FixedBufferQueue ι} {pc : GetPc}
    {r : GetResult} (hr : forall b, r ≠ .buffer b)
    (h : q.getStep .write me pc = some (r, q')) : q'.writeBuffers = q.writeBuffers := by
  cases getStep_cases h with
  | take hpop => exact absurd rfl (hr _)
  | _ => rfl

theorem writeStep_pays {me : ι} {io : Io} {sh : Segment ι} {p : Process}
    {writer writer' : BufferedFileWriter} {q' : FixedBufferQueue ι} {pc : WritePc}
    {r : WriteResult} (loud n : Nat) (hlive : p.crashed = false)
    (hphase : p.phase = .copy) (htool : p.tool = .writer writer (.write pc))
    (htyped : pc.Typed) (hbusy : ¬ (WriterPc.Polls (.write pc) ∧ sh.queue.Unopened))
    (hstep : writer.writeStep me io sh.queue pc = some (r, writer', q')) :
    Pays loud me sh { sh with queue := q' } (p.potential loud n me sh)
      ((IPCTool.afterWrite p writer' r).potential loud n me { sh with queue := q' }) := by
  rw [potential_copy loud n me hlive hphase, htool]
  cases writeStep_cases hstep with
  | @getFilledBuffer gpc got q' hget =>
      by_cases hbuffer : exists b, got = .buffer b
      · rcases hbuffer with ⟨b, rfl⟩
        cases getStep_cases hget with
        | @take b rest hpop =>
            have hwriteBuffers : sh.queue.writeBuffers = b :: rest := popFrom_write hpop
            right
            simp only [IPCTool.afterWrite, afterGetFilledBuffer, potential_goto loud n me
              hlive hphase, Tool.potential, WriterPc.potential, hwriteBuffers, setDeque,
              List.length_cons, Nat.mul_add, bufferCost]
            omega
      · have hqueued := getFilledBuffer_writeBuffers
          (fun b hb => hbuffer ⟨b, hb⟩) hget
        have hstill := quiet_of_still (getStep_still hget hqueued)
        left
        refine ⟨hstill, ?_⟩
        cases getStep_cases hget with
        | ready hpc hfree htest =>
            simp only [IPCTool.afterWrite, afterGetFilledBuffer, potential_goto loud n me
              hlive hphase, hstill.writer_potential]
            rcases hpc with rfl | ⟨rfl, hawake⟩
            · have hunopened : ¬ sh.queue.Unopened := fun h => hbusy ⟨trivial, h⟩
              simp [Tool.potential, WriterPc.potential, hunopened]
            · simp [Tool.potential, WriterPc.potential, hawake]
        | unready hpc hfree hempty hopen =>
            simp only [IPCTool.afterWrite, afterGetFilledBuffer, potential_goto loud n me
              hlive hphase, hstill.writer_potential]
            rcases hpc with rfl | ⟨rfl, hawake⟩
            · have hunopened : ¬ sh.queue.Unopened := fun h => hbusy ⟨trivial, h⟩
              simp [Tool.potential, WriterPc.potential, hunopened]
            · simp [Tool.potential, WriterPc.potential, hawake]
        | sleep =>
            simp [IPCTool.afterWrite, afterGetFilledBuffer, potential_goto loud n me
              hlive hphase, Tool.potential, WriterPc.potential]
        | nullopt hempty hclosed =>
            have hunopened : ¬ sh.queue.Unopened := fun h => hbusy ⟨trivial, h⟩
            have hdrained : Drained sh.queue := by
              refine ⟨?_, hclosed, hempty⟩
              cases hfinished : sh.queue.isReadFinished_ with
              | true => rfl
              | false => exact absurd ⟨hclosed, hfinished, hempty⟩ hunopened
            -- nothing is left: the next round is the last
            simp only [IPCTool.afterWrite, afterGetFilledBuffer, potential_goto loud n me
              hlive hphase, hstill.writer_potential]
            simp [Tool.potential, WriterPc.potential, hdrained]
        | popEmpty hempty hopen =>
            simp [IPCTool.afterWrite, afterGetFilledBuffer, potential_goto loud n me
              hlive hphase, Tool.potential, WriterPc.potential]
        | take hpop => exact absurd ⟨_, rfl⟩ hbuffer
  | fwrite hopen =>
      left
      refine ⟨quiet_of_queue_eq rfl rfl, ?_⟩
      simp [IPCTool.afterWrite, potential_goto loud n me hlive hphase, Tool.potential,
        WriterPc.potential]
  | @returnBuffer buf q' hreturn =>
      have htype := htyped buf (by simp [WritePc.client])
      rcases returnBuffer_cases hreturn with ⟨_, rfl⟩
      left
      refine ⟨quiet_of_still ⟨?_, ?_, ?_, ?_⟩, ?_⟩
      · simp
      · simp
      · simp
      · simp [htype, BufferType.flip, setDeque]
      · simp [IPCTool.afterWrite, potential_goto loud n me hlive hphase, Tool.potential,
          WriterPc.potential]
  | notifyAll =>
      have hafter := testFinished_potential_le loud (decide (me ∈ sh.queue.notifyAll.cv))
        (decide sh.queue.notifyAll.Unopened) (decide (Drained sh.queue.notifyAll))
      right
      simp only [IPCTool.afterWrite, potential_goto loud n me hlive hphase, Tool.potential]
      rw [show WriterPc.potential loud _ _ _ (.write .notifyAll) = loud + 10 from rfl]
      simp only [FixedBufferQueue.notifyAll] at hafter ⊢
      omega

omit [DecidableEq ι] in
/-- The writer goes on only if the queue is not both closed and empty. -/
theorem isEmpty_of_closed {q : FixedBufferQueue ι} {isEmpty : Bool}
    (h : q.isEmpty = some isEmpty) (hclosed : q.isOpen = false)
    (hempty : q.writeBuffers = []) : isEmpty = true :=
  (FixedBufferQueue.isEmpty_cases h).right.mpr ⟨hempty, hclosed⟩

theorem writingStep_pays {src : List UInt8} {me : ι} {io : Io} {sh sh' : Segment ι}
    {p p' : Process} {writer : BufferedFileWriter} {pc : WriterPc} (loud : Nat)
    (hlive : p.crashed = false) (hphase : p.phase = .copy)
    (htool : p.tool = .writer writer pc) (hpaced : Tool.Paced src p.tool)
    (hbusy : ¬ (pc.Polls ∧ sh.queue.Unopened))
    (h : writingStep me io sh p writer pc = some (p', sh')) :
    Pays loud me sh sh' (p.potential loud src.length me sh)
      (p'.potential loud src.length me sh') := by
  rw [htool] at hpaced
  have hcopy : p.potential loud src.length me sh = _ :=
    potential_copy loud src.length me hlive hphase
  rw [htool] at hcopy
  have hclosing : pc = .testEmpty -> sh.queue.isOpen = false ->
      sh.queue.writeBuffers = [] -> p' = p.goto (.writer writer .stopTimer) := by
    rintro rfl hclosed hempty
    rcases Option.map_eq_some_iff.mp h with ⟨isEmpty, hisEmpty, heq⟩
    rw [isEmpty_of_closed hisEmpty hclosed hempty] at heq
    cases heq
    rfl
  cases writingStep_cases h with
  | write hstep =>
      exact writeStep_pays loud src.length hlive hphase htool (hpaced _ rfl) hbusy hstep
  | startWriting =>
      right
      rw [hcopy]
      simp only [potential_goto loud src.length me hlive hphase, Tool.potential,
        WriterPc.potential]
      omega
  | createFails hfails =>
      left
      refine ⟨quiet_of_queue_eq rfl rfl, ?_⟩
      rw [hcopy, potential_leave loud src.length me hlive]
      omega
  | create hcreated =>
      left
      refine ⟨quiet_of_queue_eq rfl rfl, ?_⟩
      rw [hcopy, potential_goto loud src.length me hlive hphase]
      simp [Tool.potential, WriterPc.potential]
  | crash hnull =>
      left
      refine ⟨quiet_of_queue_eq rfl rfl, ?_⟩
      rw [hcopy, potential_crash]
      omega
  | checkFinished hfinished =>
      have hafter := testFinished_potential_le loud (decide (me ∈ sh.queue.cv))
        (decide sh.queue.Unopened) (decide (Drained sh.queue))
      left
      refine ⟨quiet_of_queue_eq rfl rfl, ?_⟩
      rw [hcopy, potential_goto loud src.length me hlive hphase, Tool.potential,
        Tool.potential, WriterPc.potential]
      omega
  | checkUnfinished hunfinished =>
      left
      refine ⟨quiet_of_queue_eq rfl rfl, ?_⟩
      rw [hcopy, potential_goto loud src.length me hlive hphase]
      simp [Tool.potential, WriterPc.potential]
  | startObserver =>
      have hafter := testFinished_potential_le loud (decide (me ∈ sh.queue.cv))
        (decide sh.queue.Unopened) (decide (Drained sh.queue))
      left
      refine ⟨quiet_of_queue_eq rfl rfl, ?_⟩
      rw [hcopy, potential_startObserver loud src.length me hlive hphase, Tool.potential,
        Tool.potential]
      simp only [WriterPc.potential] at hafter ⊢
      omega
  | finished hfinished =>
      left
      refine ⟨quiet_of_queue_eq rfl rfl, ?_⟩
      rw [hcopy, potential_goto loud src.length me hlive hphase]
      simp only [Tool.potential, WriterPc.potential, not_unopened_of_finished hfinished]
      split <;> simp
  | unfinished hunfinished =>
      have hunopened : ¬ sh.queue.Unopened := fun hq => hbusy ⟨trivial, hq⟩
      left
      refine ⟨quiet_of_queue_eq rfl rfl, ?_⟩
      rw [hcopy, potential_goto loud src.length me hlive hphase]
      simp [Tool.potential, WriterPc.potential, hunopened,
        not_drained_of_unfinished hunfinished]
  | empty hempty hclosed =>
      left
      refine ⟨quiet_of_queue_eq rfl rfl, ?_⟩
      rw [hcopy, potential_goto loud src.length me hlive hphase]
      simp only [Tool.potential, WriterPc.potential]
      split <;> omega
  | nonempty =>
      have hdrained : ¬ Drained sh.queue := by
        intro hq
        have htools := congrArg Process.tool (hclosing rfl hq.closed hq.empty)
        cases htools
      left
      refine ⟨quiet_of_queue_eq rfl rfl, ?_⟩
      rw [hcopy, potential_goto loud src.length me hlive hphase]
      simp only [Tool.potential, WriterPc.potential, hdrained, decide_false,
        Bool.false_eq_true, if_false]
      split <;> omega
  | stopTimer hstop =>
      left
      refine ⟨quiet_of_queue_eq rfl rfl, ?_⟩
      rw [hcopy, potential_stopTimer loud src.length me hlive]
      omega

end Common
end Ki
