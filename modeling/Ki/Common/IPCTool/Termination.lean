import Ki.Common.IPCTool.Payments
import Ki.Common.IPCTool.Removal
import Ki.Foundation.Potential

/-!
# What the processes may repeat for ever

An observer polls as long as its sibling is registered, and a writer that comes before
any reader has opened the queue calls `getFilledBuffer` again and again.  All other
steps lower one measure, so that no run has more of them than it starts with.
-/

namespace Ki
namespace Common

open Foundation
open Queue
open FixedBufferQueue
open Clients
open Reader
open BufferedReader
open Writer
open BufferedFileWriter
open Stdio
open IPC
open IPCTool

variable {ι : Type} [DecidableEq ι]

/-!
# All steps
-/

/--
The steps that may be repeated for ever: an observer sees its sibling, and a writer goes
round its loop while no reader has opened the queue.
-/
def Idles (sh : Segment ι) (p : Process) : Event -> Prop
  | .run _ => p.phase = .copy ∧ p.ipcToolType = .writerProcess ∧ p.tool.Polls ∧
      sh.queue.Unopened
  | .interrupt => False
  | .observe => p.timer = .watching ∧ sh.procInfo.counter (observed p.ipcToolType) ≠ 0

omit [DecidableEq ι] in
instance (sh : Segment ι) (p : Process) (event : Event) : Decidable (Idles sh p event) :=
  match event with
  | .run _ => inferInstanceAs (Decidable (_ ∧ _ ∧ _ ∧ _))
  | .interrupt => isFalse id
  | .observe => inferInstanceAs (Decidable (_ ∧ _))

/-- Until it is joined the observation thread makes the steps of the observer. -/
theorem processStep_observe {args : Args} {me : ι} {sh : Segment ι} {p : Process}
    {out : Process × Segment ι}
    (hphase : p.phase = .copy ∨ p.phase = .deregister ∨ p.phase = .joinTimer)
    (h : processStep args me .observe sh p = some out) : observerStep sh p = some out := by
  simpa [processStep, processStep_live h, hphase] using h

theorem processStep_pays {args : Args} (hsrc : args.src.length < 2 ^ 63) {me : ι}
    {event : Event} {sh sh' : Segment ι} {p p' : Process} (loud : Nat)
    (hpaced : Tool.Paced args.src p.tool) (hbusy : ¬ Idles sh p event)
    (h : processStep args me event sh p = some (p', sh')) :
    Pays loud me sh sh' (p.potential loud args.src.length me sh)
      (p'.potential loud args.src.length me sh') := by
  have hlive := processStep_live h
  cases processStep_cases h with
  | start hstart => exact hstart.pays hlive loud me
  | @reading io p' sh' reader pc hphase htype htool hreading =>
      simp only [processStep, hlive, hphase, copyStep, htype, htool] at h
      exact readingStep_pays hsrc loud hlive hphase htool hpaced h
  | @writing io p' sh' writer pc hphase htype htool hwriting =>
      simp only [processStep, hlive, hphase, copyStep, htype, htool] at h
      refine writingStep_pays loud hlive hphase htool hpaced ?_ h
      intro hpolls
      apply hbusy
      refine ⟨hphase, htype, ?_, hpolls.right⟩
      rw [htool]
      exact hpolls.left
  | invalid hphase htype =>
      left
      refine ⟨quiet_of_queue_eq rfl rfl, ?_⟩
      rw [potential_copy loud args.src.length me hlive hphase,
        potential_leave loud args.src.length me hlive]
      omega
  | leave hleave => exact hleave.pays hlive loud args.src.length me
  | interrupt hphase =>
      left
      refine ⟨quiet_of_queue_eq rfl rfl, ?_⟩
      rw [potential_copy loud args.src.length me hlive hphase,
        potential_leave loud args.src.length me hlive]
      omega
  | observe hphase hobserve =>
      have hobserver := processStep_observe (Or.inl hphase) h
      exact observerStep_pays hlive (Or.inl hphase) loud args.src.length me hbusy hobserver
  | linger hphase hobserve =>
      have hobserver := processStep_observe (Or.inr hphase) h
      exact observerStep_pays hlive (Or.inr hphase) loud args.src.length me hbusy hobserver

/-- The writer that goes round its loop costs nothing either. -/
theorem writingStep_idles {me : ι} {io : Io} {sh sh' : Segment ι} {p p' : Process}
    {writer : BufferedFileWriter} {pc : WriterPc} (loud n : Nat)
    (hlive : p.crashed = false) (hphase : p.phase = .copy)
    (htool : p.tool = .writer writer pc) (hpolls : pc.Polls)
    (hunopened : sh.queue.Unopened)
    (h : writingStep me io sh p writer pc = some (p', sh')) :
    Quiet me sh sh' ∧
      p'.potential loud n me sh' ≤ p.potential loud n me sh := by
  have hdrained := not_drained_of_unfinished hunopened.right.left
  rw [potential_copy loud n me hlive hphase, htool]
  cases writingStep_cases h with
  | finished hfinished => exact absurd hunopened (not_unopened_of_finished hfinished)
  | unfinished hunfinished =>
      refine ⟨quiet_of_queue_eq rfl rfl, ?_⟩
      rw [potential_goto loud n me hlive hphase]
      simp [Tool.potential, WriterPc.potential, hunopened, hdrained]
  | write hstep =>
      cases writeStep_cases hstep with
      | @getFilledBuffer gpc got q' hget =>
          cases getStep_cases hget with
          | ready hpc hfree htest =>
              have hstill := quiet_of_still (getStep_still hget rfl)
              refine ⟨hstill, ?_⟩
              simp only [IPCTool.afterWrite, afterGetFilledBuffer, potential_goto loud n
                me hlive hphase, hstill.writer_potential]
              rcases hpc with rfl | ⟨rfl, _⟩
              · simp [Tool.potential, WriterPc.potential, hunopened]
              · exact absurd hpolls id
          | unready hpc hfree hempty hopen =>
              rw [hunopened.left] at hopen
              cases hopen
          | sleep => exact absurd hpolls id
          | nullopt hempty hclosed =>
              have hstill := quiet_of_still (getStep_still hget rfl)
              refine ⟨hstill, ?_⟩
              simp only [IPCTool.afterWrite, afterGetFilledBuffer, potential_goto loud n
                me hlive hphase, hstill.writer_potential]
              simp [Tool.potential, WriterPc.potential, hunopened, hdrained]
          | popEmpty hempty hopen =>
              rw [hunopened.left] at hopen
              cases hopen
          | take hpop =>
              have hwriteBuffers := popFrom_write hpop
              rw [dequeOf, hunopened.right.right] at hwriteBuffers
              cases hwriteBuffers
      | fwrite hopen => exact absurd hpolls id
      | returnBuffer hreturn => exact absurd hpolls id
      | notifyAll => exact absurd hpolls id
  | _ => exact absurd hpolls id

/-- An idle step leaves the others alone and costs nothing. -/
theorem processStep_idles {args : Args} {me : ι} {event : Event} {sh sh' : Segment ι}
    {p p' : Process} (loud : Nat) (hidle : Idles sh p event)
    (h : processStep args me event sh p = some (p', sh')) :
    Quiet me sh sh' ∧ p'.potential loud args.src.length me sh' ≤
      p.potential loud args.src.length me sh := by
  have hlive := processStep_live h
  cases event with
  | interrupt => exact absurd hidle id
  | observe =>
      cases processStep_cases h with
      | observe hphase hobserve =>
          have hobserver := processStep_observe (Or.inl hphase) h
          simp only [observerStep, hidle.left, if_neg hidle.right] at hobserver
          cases hobserver
          exact ⟨quiet_of_queue_eq rfl rfl, Nat.le_refl _⟩
      | linger hphase hobserve =>
          have hobserver := processStep_observe (Or.inr hphase) h
          simp only [observerStep, hidle.left, if_neg hidle.right] at hobserver
          cases hobserver
          exact ⟨quiet_of_queue_eq rfl rfl, Nat.le_refl _⟩
  | run io =>
      rcases hidle with ⟨hphase, htype, hpolls, hunopened⟩
      cases htool : p.tool with
      | none =>
          rw [htool] at hpolls
          exact absurd hpolls id
      | reader reader pc =>
          rw [htool] at hpolls
          exact absurd hpolls id
      | writer writer pc =>
          rw [htool] at hpolls
          simp only [processStep, hlive, hphase, copyStep, htype, htool] at h
          exact writingStep_idles loud args.src.length hlive hphase htool hpolls
            hunopened h

/-!
# The whole system
-/

/-- A loud step pays for all processes. -/
def loudCost (ι : Type) [Fintype ι] : Nat :=
  Fintype.card ι * 6

namespace World

variable [Fintype ι]

def potentialOf (args : ι -> Args) (t : ι) (sh : Segment ι) (p : Process) : Nat :=
  p.potential (loudCost ι) (args t).src.length t sh

def potential (args : ι -> Args) (s : World ι) : Nat :=
  total (potentialOf args) s.segment s.proc +
    bufferCost (loudCost ι) * s.segment.queue.writeBuffers.length

/-- The step of a process may be repeated for ever. -/
def Idle (s : World ι) (a : Action ι) : Prop :=
  Idles s.segment (s.proc a.1) a.2

instance (s : World ι) (a : Action ι) : Decidable (Idle s a) :=
  inferInstanceAs (Decidable (Idles _ _ _))

/-- The steps left to a process of `count` that is given a source of `n` bytes. -/
def stepsFor (count n : Nat) : Nat :=
  (30 * count + 15) * (n / bufferSize + 1) + 12 * count + 33

theorem init_potential (args : ι -> Args) (buffers : Nat -> List UInt8) :
    (init buffers : World ι).potential args =
      ∑ p, stepsFor (Fintype.card ι) (args p).src.length := by
  have hfresh : forall n, freshCost (loudCost ι) n + 16 = stepsFor (Fintype.card ι) n := by
    intro n
    have hchunk : chunkCost (loudCost ι) = 30 * Fintype.card ι + 15 := by
      simp only [chunkCost, loudCost]
      omega
    rw [freshCost, hchunk, stepsFor, loudCost]
    omega
  have hqueued : (init buffers : World ι).segment.queue.writeBuffers = [] := rfl
  rw [potential, hqueued, List.length_nil, Nat.mul_zero, Nat.add_zero, total]
  exact Finset.sum_congr rfl fun p _ => hfresh _

omit [Fintype ι] in
theorem next_paced {args : ι -> Args} {a : Action ι} {s s' : World ι}
    (h : forall p, Tool.Paced (args p).src (s.proc p).tool)
    (hnext : next args a s = some s') (p : ι) :
    Tool.Paced (args p).src (s'.proc p).tool := by
  rcases next_cases hnext with ⟨c, sh, rfl, hstep⟩
  exact forall_move (P := fun p c => Tool.Paced (args p).src c.tool)
    (hstep.paced (h a.1)) (fun q _ => h q) p

/-- The measure after a step of `p`, with what it raises the others by at most. -/
theorem move_potential_le (args : ι -> Args) {s : World ι} (p : ι) {sh : Segment ι}
    (raise : Nat)
    (hother : forall t, t ≠ p -> potentialOf args t sh (s.proc t) ≤
      potentialOf args t s.segment (s.proc t) + raise) (c : Process) :
    (s.move p c sh).potential args + potentialOf args p s.segment (s.proc p) +
        bufferCost (loudCost ι) * s.segment.queue.writeBuffers.length ≤
      s.potential args + potentialOf args p sh c +
        bufferCost (loudCost ι) * sh.queue.writeBuffers.length +
        Fintype.card ι * raise := by
  have htotal := total_update_le hother c
  simp only [potential, move]
  omega

theorem next_keeps {args : ι -> Args} {a : Action ι} {s s' : World ι} (hidle : Idle s a)
    (hnext : next args a s = some s') : s'.potential args ≤ s.potential args := by
  rcases Option.map_eq_some_iff.mp hnext with ⟨⟨c, sh⟩, hstep, rfl⟩
  rcases processStep_idles (loudCost ι) hidle hstep with ⟨hquiet, hless⟩
  have hmove := move_potential_le args a.1 0
    (fun t ht => Nat.le_of_eq (hquiet.potential_eq ht (loudCost ι)
      (args t).src.length (s.proc t))) c
  show (s.move a.1 c sh).potential args ≤ s.potential args
  rw [hquiet.queue.writeBuffers] at hmove
  simp only [potentialOf] at hmove
  omega

theorem next_lowers {args : ι -> Args} (hsrc : forall p, (args p).src.length < 2 ^ 63)
    {a : Action ι} {s s' : World ι}
    (h : forall p, Tool.Paced (args p).src (s.proc p).tool) (hbusy : ¬ Idle s a)
    (hnext : next args a s = some s') : s'.potential args < s.potential args := by
  rcases Option.map_eq_some_iff.mp hnext with ⟨⟨c, sh⟩, hstep, rfl⟩
  show (s.move a.1 c sh).potential args < s.potential args
  rcases processStep_pays (hsrc a.1) (loudCost ι) (h a.1) hbusy hstep with
    ⟨hquiet, hless⟩ | hpaid
  · have hmove := move_potential_le args a.1 0
      (fun t ht => Nat.le_of_eq (hquiet.potential_eq ht (loudCost ι)
        (args t).src.length (s.proc t))) c
    rw [hquiet.queue.writeBuffers] at hmove
    simp only [potentialOf] at hmove
    omega
  · have hmove := move_potential_le args a.1 6
      (fun t _ => Process.potential_raise (loudCost ι) (args t).src.length t s.segment sh
        (s.proc t)) c
    rw [← loudCost] at hmove
    simp only [potentialOf] at hmove
    omega

end World

/--
Whatever the interleaving, the interruptions and the outcomes of the stdio calls, only
so many steps of a run are neither an observer's poll that sees the sibling nor part of
a writer's round over a queue that no reader has opened.
-/
theorem busy_steps_bounded [Fintype ι] (args : ι -> Args)
    (hsrc : forall p, (args p).src.length < 2 ^ 63) (buffers : Nat -> List UInt8)
    (as : List (World.Action ι)) (s : World ι)
    (hexec : exec (World.next args) as (World.init buffers) = some s) :
    busySteps (World.next args) World.Idle as (World.init buffers) ≤
      ∑ p, World.stepsFor (Fintype.card ι) (args p).src.length := by
  have hinit : forall p, Tool.Paced (args p).src ((World.init buffers).proc p).tool :=
    fun _ => trivial
  have hbusy : busySteps (World.next args) World.Idle as (World.init buffers) +
      s.potential args ≤ (World.init buffers).potential args :=
    busySteps_le (fun x : World ι => forall p, Tool.Paced (args p).src (x.proc p).tool)
      (World.potential args) (fun _ _ _ hx hnext => World.next_paced hx hnext)
      (fun _ _ _ _ hidle hnext => World.next_keeps hidle hnext)
      (fun _ _ _ hx hidle hnext => World.next_lowers hsrc hx hidle hnext)
      as hinit hexec
  rw [World.init_potential] at hbusy
  omega

instance : Fintype Pid where
  elems := {.first, .second, .third}
  complete := by
    intro p
    cases p <;> simp

/-- The reader is about to open the queue, and the writer goes round its loop. -/
def roundsBeforeOpen : List (World.Action Pid) :=
  World.turns .first 6 ++ World.turns .second 609

theorem busy_steps_bounded_roundsBeforeOpen :
    exists s, exec (World.next (sources [] [])) roundsBeforeOpen (World.init fun _ => []) =
        some s ∧
      busySteps (World.next (sources [] [])) World.Idle roundsBeforeOpen
        (World.init fun _ => []) ≤ 522 := by
  have hview : (exec (World.next (sources [] [])) roundsBeforeOpen
      (World.init fun _ => [])).map (fun s => s.segment.queue.isOpen) = some false := by
    decide +kernel
  rcases Option.map_eq_some_iff.mp hview with ⟨s, hexec, _⟩
  exact ⟨s, hexec, busy_steps_bounded (sources [] []) (by decide) (fun _ => [])
    roundsBeforeOpen s hexec⟩

end Common
end Ki
