import Ki.Common.BPCopyTool.Simulation

/-!
# Exceptions that leave copy

A call of `read` that throws leaves `copy` with `readFinished` unset, and the
reading thread was the only one to set it.
-/

namespace Ki
namespace Reader
namespace BufferedReader

open Queue
open Stdio

/-- The last chunk has not been announced as the last. -/
def ReadPc.Early : ReadPc -> Prop
  | .getFreeBuffer _ => True
  | .fill _ => True
  | .storeFinished _ => True
  | _ => False

theorem readStep_early {ι : Type} [DecidableEq ι] {me : ι} {io : Io}
    {reader reader' : BufferedReader} {q q' : FixedBufferQueue ι} {pc pc' : ReadPc}
    (hearly : pc.Early -> reader.readFinished = false) (hpc' : pc'.Early)
    (hstep : reader.readStep me io q pc = some (.next pc', reader', q')) :
    reader'.readFinished = false := by
  generalize hr : ReadResult.next pc' = r at hstep
  cases readStep_cases hstep with
  | getFreeBuffer hget => exact hearly trivial
  | fill hopen hok => exact hearly trivial
  | storeFinished buf =>
      cases hr
      cases hpc'
  | finishRead buf hfree =>
      cases hr
      cases hpc'
  | returnBuffer hreturn =>
      cases hr
      cases hpc'
  | _ => cases hr

/-- A call that throws has not changed the reader. -/
theorem readStep_threw {ι : Type} [DecidableEq ι] {me : ι} {io : Io}
    {reader reader' : BufferedReader} {q q' : FixedBufferQueue ι} {pc : ReadPc}
    {held : List Buffer}
    (hstep : reader.readStep me io q pc = some (.threw held, reader', q')) :
    pc.Early ∧ reader' = reader := by
  generalize hr : ReadResult.threw held = r at hstep
  cases readStep_cases hstep with
  | getFreeBuffer hget => exact ⟨trivial, rfl⟩
  | setvbufFails buf hfails => exact ⟨trivial, rfl⟩
  | _ => cases hr

end BufferedReader
end Reader

namespace Common

open Foundation
open Queue
open Reader
open BufferedReader
open Writer
open BufferedFileWriter
open Stdio

namespace BPCopyTool

/-- What `readFinished` says of the two threads, in runs with failures too. -/
structure Unannounced (s : BPCopyTool) : Prop where
  notStarted : s.copyPc.started = false -> s.writingPc = .notStarted
  early : forall pc, s.copyPc = .read pc -> pc.Early -> s.fileReader.readFinished = false
  sawFinished : s.writingPc.SawFinished -> s.fileReader.readFinished = true

theorem new_unannounced (src : List UInt8) (dst : String)
    (buffers : Nat -> List UInt8) : Unannounced (new src dst buffers) where
  notStarted := fun _ => rfl
  early := by
    intro pc hpc
    cases hpc
  sawFinished := False.elim

theorem CopyStep.unannounced {src : List UInt8} {io : Io} {s s' : BPCopyTool}
    (h : Unannounced s) (hstep : CopyStep src io s s') : Unannounced s' := by
  cases hstep with
  | openQueue hpc =>
      have hnot := h.notStarted (by rw [hpc]; rfl)
      exact ⟨fun _ => hnot, by simp, by simp [hnot, WritingPc.SawFinished]⟩
  | openFails hpc hfails =>
      exact ⟨by simp [CopyPc.started, CopyPc.created, CopyPc.opened], by simp,
        h.sawFinished⟩
  | openReader hpc =>
      have hnot := h.notStarted (by rw [hpc]; rfl)
      exact ⟨fun _ => hnot, by simp, by simp [hnot, WritingPc.SawFinished]⟩
  | createWriter hpc =>
      have hnot := h.notStarted (by rw [hpc]; rfl)
      exact ⟨fun _ => hnot, by simp, by simp [hnot, WritingPc.SawFinished]⟩
  | startWriter hpc =>
      exact ⟨by simp [CopyPc.started, CopyPc.created, CopyPc.opened], by simp,
        False.elim⟩
  | finished hpc hfinished =>
      exact ⟨by simp [CopyPc.started, CopyPc.created, CopyPc.opened], by simp,
        h.sawFinished⟩
  | unfinished hpc hunfinished =>
      exact ⟨by simp [CopyPc.started, CopyPc.created, CopyPc.opened],
        fun _ _ _ => hunfinished, h.sawFinished⟩
  | @read pc r reader q hpc hread =>
      constructor
      · cases r <;> simp [afterRead, CopyPc.started, CopyPc.created, CopyPc.opened]
      · intro pc' hpc' hearly
        cases r with
        | next pc'' =>
            cases hpc'
            exact readStep_early (h.early pc hpc) hearly hread
        | _ => cases hpc'
      · exact fun hsaw => readStep_readFinished hread (h.sawFinished hsaw)
  | close hpc =>
      exact ⟨by simp [CopyPc.started, CopyPc.created, CopyPc.opened], by simp,
        h.sawFinished⟩

theorem WritingStep.unannounced {io : Io} {s s' : BPCopyTool}
    (h : Unannounced s) (hstep : WritingStep io s s') : Unannounced s' := by
  have hnot : s.writingPc ≠ .notStarted -> s.copyPc.started ≠ false :=
    fun hpc hstarted => hpc (h.notStarted hstarted)
  cases hstep with
  | finished hpc hfinished =>
      exact ⟨fun hstarted => absurd hstarted (hnot (by simp [hpc])), h.early,
        fun _ => hfinished⟩
  | unfinished hpc hunfinished =>
      exact ⟨fun hstarted => absurd hstarted (hnot (by simp [hpc])), h.early, False.elim⟩
  | empty hpc hfree hempty hclosed =>
      exact ⟨fun hstarted => absurd hstarted (hnot (by simp [hpc])), h.early,
        fun _ => h.sawFinished (by rw [hpc]; trivial)⟩
  | nonempty hpc =>
      exact ⟨fun hstarted => absurd hstarted (hnot (by simp [hpc])), h.early, False.elim⟩
  | @write pc r writer q hpc hwrite =>
      refine ⟨fun hstarted => absurd hstarted (hnot (by simp [hpc])), h.early, ?_⟩
      cases r <;> exact False.elim

theorem reaches_unannounced {src : List UInt8} {dst : String}
    {buffers : Nat -> List UInt8} {guard : BPCopyTool -> Action -> Prop} {s : BPCopyTool}
    (hrun : Reaches (StepOf (next src)) guard (new src dst buffers) s) :
    Unannounced s := by
  refine Reaches.invariant Unannounced ?_ hrun (new_unannounced src dst buffers)
  intro x a x' hx _ hstep
  rcases next_cases hstep with ⟨_, hcopy⟩ | ⟨_, hwriting⟩
  · exact hcopy.unannounced hx
  · exact hwriting.unannounced hx

theorem CopyStep.not_threw {src : List UInt8} {io : Io} {s s' : BPCopyTool}
    (hstep : CopyStep src io s s') (held : List Buffer) : s.copyPc ≠ .threw held := by
  cases hstep with
  | openFails hpc hfails => rcases hpc with hpc | hpc <;> simp [hpc]
  | read hpc hread => simp [hpc]
  | _ hpc => simp [hpc]

/-- An exception has left `copy` for good. -/
theorem next_threw {src : List UInt8} {a : Action} {s s' : BPCopyTool}
    {held : List Buffer} (hthrew : s.copyPc = .threw held)
    (hstep : next src a s = some s') : s'.copyPc = .threw held := by
  rcases next_cases hstep with ⟨_, hcopy⟩ | ⟨_, hwriting⟩
  · exact absurd hthrew (hcopy.not_threw held)
  · cases hwriting <;> exact hthrew

/-- `read` has thrown: the writer is left alone with a reader that has not finished. -/
structure Abandoned (s : BPCopyTool) : Prop where
  threw : exists held, s.copyPc = .threw held
  unfinished : s.fileReader.readFinished = false
  notSawFinished : ¬ s.writingPc.SawFinished

theorem CopyStep.abandoned {src : List UInt8} {io : Io} {s s' : BPCopyTool}
    {pc : ReadPc} {held : List Buffer} (h : Unannounced s) (hpc : s.copyPc = .read pc)
    (hstep : CopyStep src io s s') (hthrew : s'.copyPc = .threw held) :
    Abandoned s' := by
  cases hstep with
  | @read pc' r reader q hpc' hread =>
      cases hpc.symm.trans hpc'
      cases r with
      | threw held' =>
          rcases readStep_threw hread with ⟨hearly, rfl⟩
          have hunfinished := h.early pc hpc hearly
          refine ⟨⟨held', rfl⟩, hunfinished, ?_⟩
          intro hsawFinished
          rw [h.sawFinished hsawFinished] at hunfinished
          cases hunfinished
      | _ => cases hthrew
  | _ => simp_all

theorem Abandoned.next {src : List UInt8} {a : Action} {s s' : BPCopyTool}
    (h : Abandoned s) (hstep : next src a s = some s') : Abandoned s' := by
  rcases h.threw with ⟨held, hthrew⟩
  have hthrew' : exists held, s'.copyPc = .threw held := ⟨held, next_threw hthrew hstep⟩
  have hunfinished := h.unfinished
  rcases next_cases hstep with ⟨_, hcopy⟩ | ⟨_, hwriting⟩
  · exact absurd hthrew (hcopy.not_threw held)
  · cases hwriting with
    | finished hpc hfinished =>
        rw [hunfinished] at hfinished
        cases hfinished
    | unfinished hpc _ => exact ⟨hthrew', hunfinished, id⟩
    | empty hpc _ _ _ => exact absurd (by rw [hpc]; trivial) h.notSawFinished
    | nonempty hpc => exact ⟨hthrew', hunfinished, id⟩
    | @write pc r writer q hpc hwrite =>
        refine ⟨hthrew', hunfinished, ?_⟩
        cases r <;> exact id

/--
Once a call of `read` has thrown, at whatever point the writer is, no run leads
to the end of `writingFunction`.
-/
theorem never_left_after_throw (src : List UInt8) (dst : String)
    (buffers : Nat -> List UInt8) (s s' : BPCopyTool) (pc : ReadPc) (io : Io)
    (held : List Buffer)
    (hrun : Reaches (StepOf (next src)) anyStep (new src dst buffers) s)
    (hpc : s.copyPc = .read pc) (hstep : next src (.reading, io) s = some s')
    (hthrew : s'.copyPc = .threw held) :
    ¬ exists s'', Reaches (StepOf (next src)) anyStep s' s'' ∧ s''.writingPc = .left := by
  have habandoned : Abandoned s' := by
    rcases next_cases hstep with ⟨_, hcopy⟩ | ⟨hthread, _⟩
    · exact hcopy.abandoned (reaches_unannounced hrun) hpc hthrew
    · cases hthread
  intro hends
  rcases hends with ⟨s'', hafter, hleft⟩
  have hlast : Abandoned s'' :=
    Reaches.invariant Abandoned (fun _ _ _ hx _ hnext => hx.next hnext) hafter habandoned
  exact hlast.notSawFinished (by rw [hleft]; trivial)

/-- The first call of `read` gets its buffer and is about to call `setvbuf`. -/
def aboutToFill : List Action :=
  List.replicate 7 (.reading, Io.success)

def setvbufFails : Action :=
  (.reading, { Io.success with fails := true })

theorem never_left_after_throw_firstCall :
    exists s s', exec (next [1]) aboutToFill (new [1] "dst" fun _ => []) = some s ∧
      next [1] setvbufFails s = some s' ∧
      ¬ exists s'', Reaches (StepOf (next [1])) anyStep s' s'' ∧ s''.writingPc = .left := by
  have hview : ((exec (next [1]) aboutToFill (new [1] "dst" fun _ => [])).bind fun s =>
      (next [1] setvbufFails s).map fun s' => (s.copyPc, s'.copyPc)) =
      some (.read (.fill (Buffer.new 511)), .threw [Buffer.new 511]) := by
    decide +kernel
  rcases Option.bind_eq_some_iff.mp hview with ⟨s, hexec, hnext⟩
  rcases Option.map_eq_some_iff.mp hnext with ⟨s', hstep, hpcs⟩
  rcases Prod.mk.inj hpcs with ⟨hpc, hthrew⟩
  refine ⟨s, s', hexec, hstep, ?_⟩
  exact never_left_after_throw [1] "dst" _ s s' _ _ _
    (reaches_of_exec_any aboutToFill hexec) hpc hstep hthrew

/-- The writer goes to sleep when the exception has left `copy`. -/
def sleepsAfterThrow : List Action :=
  List.replicate 3 (.writing, Io.success)

theorem asleep_after_throw :
    ¬ forall (src : List UInt8) (dst : String) (buffers : Nat -> List UInt8)
      (s s' t : BPCopyTool) (pc : ReadPc) (io : Io) (held : List Buffer),
      Reaches (StepOf (next src)) anyStep (new src dst buffers) s ->
      s.copyPc = .read pc -> next src (.reading, io) s = some s' ->
      s'.copyPc = .threw held -> Reaches (StepOf (next src)) anyStep s' t ->
      exists t', Reaches (StepOf (next src)) anyStep t t' ∧ t'.writingPc = .left := by
  intro h
  have hview : ((exec (next [1]) aboutToFill (new [1] "dst" fun _ => [])).bind fun s =>
      (next [1] setvbufFails s).bind fun s' =>
        (exec (next [1]) sleepsAfterThrow s').map fun t =>
          (s.copyPc, s'.copyPc, t.copyPc, t.writingPc, t.queue.cv)) =
      some (.read (.fill (Buffer.new 511)), .threw [Buffer.new 511],
        .threw [Buffer.new 511], .write (.getFilledBuffer .blocked), [.writing]) := by
    decide +kernel
  rcases Option.bind_eq_some_iff.mp hview with ⟨s, hexec, hnext⟩
  rcases Option.bind_eq_some_iff.mp hnext with ⟨s', hstep, hlater⟩
  rcases Option.map_eq_some_iff.mp hlater with ⟨t, hexec', hpcs⟩
  simp only [Prod.mk.injEq] at hpcs
  rcases hpcs with ⟨hpc, hthrew, hcopy, hwriting, hcv⟩
  have hstuck : Stuck (StepOf (next [1])) t := by
    intro a t' hmove
    rcases next_cases hmove with ⟨_, hread⟩ | ⟨_, hwrite⟩
    · cases hread <;> simp_all
    · cases hwrite with
      | write hpc hwrite =>
          rw [hwriting] at hpc
          cases hpc
          simp [writeStep, FixedBufferQueue.getFilledBuffer, FixedBufferQueue.getStep,
            hcv] at hwrite
      | _ => simp_all
  rcases h [1] "dst" _ s s' t _ _ _
    (reaches_of_exec_any aboutToFill hexec) hpc hstep hthrew
    (reaches_of_exec_any sleepsAfterThrow hexec') with ⟨t', hrun, hleft⟩
  rw [hstuck.reaches_eq hrun, hwriting] at hleft
  cases hleft

end BPCopyTool
end Common
end Ki
