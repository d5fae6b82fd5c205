import Ki.Common.ParallelCopyTool.Progress
import Ki.Foundation.Termination

/-!
# Termination of the parallel copy tool

The same argument as for the buffered tool: a chunk costs a bounded number of
steps to read and to write, and `notify_one` wakes the writer for one more step.
The size of a page is positive, or `read` would not come forward.
-/

namespace Ki
namespace Common
namespace Parallel

open Foundation
open Queue
open SynchronizedQueue
open Reader
open Writer

/-!
# The measure
-/

/-- The distance of `copy` from the end of its round. -/
def CopyPc.potential : CopyPc -> Nat
  | .openReader => 9
  | .createWriter => 8
  | .resizeWriter => 7
  | .mapWriter => 6
  | .startWriter => 5
  | .testFinished => 4
  | .read => 3
  | .storeFinished _ => 9
  | .push _ => 8
  | .pushing _ => 7
  | .notifyOne => 6
  | .close => 3
  | .closing => 2
  | .finishRead => 1
  | .returned => 0
  | .threw => 0

/-- The chunks in the hands of `copy`. -/
def CopyPc.filled : CopyPc -> Nat
  | .storeFinished _ => 1
  | .push _ => 1
  | .pushing _ => 1
  | _ => 0

/-- The distance of `writingFunction` from the end of its round. -/
def WritingPc.potential (asleep : Bool) : WritingPc -> Nat
  | .notStarted => 4
  | .testFinished => 4
  | .testEmpty => 3
  | .pop .lock => 2
  | .pop .waiting => if asleep then 1 else 2
  | .write _ => 5
  | .finishWrite => 1
  | .left => 0
  | .threw => 0

theorem WritingPc.potential_wake (pc : WritingPc) (asleep asleep' : Bool) :
    pc.potential asleep' ≤ pc.potential asleep + 1 := by
  cases pc with
  | pop pc => cases pc <;> cases asleep <;> cases asleep' <;> simp [WritingPc.potential]
  | _ => simp [WritingPc.potential]

/-- `writingThread` is still to be started. -/
def CopyPc.starting : CopyPc -> Bool
  | .openReader => true
  | .createWriter => true
  | .resizeWriter => true
  | .mapWriter => true
  | .startWriter => true
  | _ => false

/-- The next call of `copy` may fail. -/
def CopyPc.fallible : CopyPc -> Bool
  | .openReader => true
  | .createWriter => true
  | .resizeWriter => true
  | .mapWriter => true
  | .read => true
  | _ => false

namespace ParallelCopyTool

/-- The chunks of a full page that lie before the end of the source. -/
def fullChunks (reader : MMapFileReader) (defaultBufferSize : Nat) : Nat :=
  (reader.fileSize - reader.currentOffset) / defaultBufferSize

/-- The calls of `read` that are still to copy a chunk. -/
def toRead (reader : MMapFileReader) (defaultBufferSize : Nat) : CopyPc -> Nat
  | .storeFinished _ =>
      if reader.fileSize ≤ reader.currentOffset then 0
      else fullChunks reader defaultBufferSize + 1
  | _ => if reader.readFinished then 0 else fullChunks reader defaultBufferSize + 1

def potential (defaultBufferSize : Nat) (s : ParallelCopyTool) : Nat :=
  11 * toRead s.fileReader defaultBufferSize s.copyPc +
    4 * (s.copyPc.filled + s.queue.queue.length) + s.copyPc.potential +
    s.writingPc.potential (decide (Thread.writing ∈ s.queue.cv))

/-- The number of steps in which a source of `n` bytes is copied. -/
def stepsFor (n defaultBufferSize : Nat) : Nat :=
  11 * (n / defaultBufferSize) + 24

theorem new_potential (src : List UInt8) (previous : Option (List UInt8))
    (defaultBufferSize : Nat) :
    (new src previous).potential defaultBufferSize =
      stepsFor src.length defaultBufferSize := by
  have hread : toRead (MMapFileReader.new src) defaultBufferSize .openReader =
      src.length / defaultBufferSize + 1 := rfl
  simp only [potential, stepsFor, new, hread, SynchronizedQueue.open',
    SynchronizedQueue.new, CopyPc.filled, CopyPc.potential, WritingPc.potential,
    List.length_nil]
  omega

/-!
# What the measure rests on
-/

/-- What holds in every run, whether calls fail or not. -/
structure Paced (src : List UInt8) (s : ParallelCopyTool) : Prop where
  size : s.fileReader.fileSize = src.length
  bound : s.fileReader.currentOffset ≤ src.length
  reading : s.copyPc = .read -> s.fileReader.readFinished = false
  unstarted : s.copyPc.starting = true -> s.writingPc = .notStarted

theorem new_paced (src : List UInt8) (previous : Option (List UInt8)) :
    Paced src (new src previous) := by
  constructor <;> simp [new, MMapFileReader.new]

/-- A call that fails leaves `copy` at once. -/
theorem copy_fails {src : List UInt8} {defaultBufferSize : Nat} {fails : Bool}
    {s s' : ParallelCopyTool} (h : s.copy src defaultBufferSize fails = some s') :
    CopyStep src defaultBufferSize s s' ∨
      s.copyPc.fallible = true ∧ s' = { s with copyPc := .threw } := by
  cases fails with
  | false => exact Or.inl (copy_cases h)
  | true =>
      cases hfallible : s.copyPc.fallible with
      | true =>
          right
          refine ⟨rfl, ?_⟩
          unfold copy at h
          cases hpc : s.copyPc <;> simp_all [CopyPc.fallible]
      | false =>
          left
          apply copy_cases
          unfold copy at h ⊢
          cases hpc : s.copyPc <;> simp_all [CopyPc.fallible]

theorem CopyStep.paced {src : List UInt8} {defaultBufferSize : Nat}
    {s s' : ParallelCopyTool} (h : Paced src s)
    (hstep : CopyStep src defaultBufferSize s s') : Paced src s' := by
  have hunstarted := h.unstarted
  cases hstep with
  | openReader hpc hopen =>
      unfold MMapFileReader.open' at hopen
      split at hopen
      · cases hopen
      · cases hopen
        exact ⟨h.size, h.bound, by simp, fun _ => hunstarted (by rw [hpc]; rfl)⟩
  | createWriter hpc =>
      exact ⟨h.size, h.bound, by simp, fun _ => hunstarted (by rw [hpc]; rfl)⟩
  | resizeWriter hpc =>
      exact ⟨h.size, h.bound, by simp, fun _ => hunstarted (by rw [hpc]; rfl)⟩
  | mapWriter hpc hmmap =>
      exact ⟨h.size, h.bound, by simp, fun _ => hunstarted (by rw [hpc]; rfl)⟩
  | unfinished hpc hunfinished =>
      exact ⟨h.size, h.bound, fun _ => hunfinished, by simp [CopyPc.starting]⟩
  | read hpc hmapped =>
      have hbound : s.fileReader.readCount defaultBufferSize ≤ src.length := by
        rw [← h.size]
        exact Nat.min_le_right _ _
      exact ⟨h.size, hbound, by simp, by simp [CopyPc.starting]⟩
  | _ => exact ⟨h.size, h.bound, by simp, by simp [CopyPc.starting]⟩

theorem WritingStep.paced {src : List UInt8} {s s' : ParallelCopyTool}
    (h : Paced src s) (hstep : WritingStep s s') : Paced src s' := by
  have hrunning : s.writingPc ≠ .notStarted -> forall pc : WritingPc,
      s.copyPc.starting = true -> pc = .notStarted :=
    fun hpc _ hstarting => absurd (h.unstarted hstarting) hpc
  cases hstep <;>
    exact ⟨h.size, h.bound, h.reading, hrunning (by simp [*]) _⟩

theorem next_paced {src : List UInt8} {defaultBufferSize : Nat} {a : Action}
    {s s' : ParallelCopyTool} (h : Paced src s)
    (hstep : next src defaultBufferSize a s = some s') : Paced src s' := by
  rcases a with ⟨thread, fails⟩
  cases thread with
  | reading =>
      rcases copy_fails hstep with hcopy | ⟨_, rfl⟩
      · exact hcopy.paced h
      · exact ⟨h.size, h.bound, by simp, by simp [CopyPc.starting]⟩
  | writing => exact (writingFunction_cases hstep).paced h

/-!
# Every step lowers the measure
-/

/-- After a chunk that does not reach the end there is one chunk less to read. -/
theorem fullChunks_advance {reader : MMapFileReader} {defaultBufferSize : Nat}
    (hsize : reader.fileSize < 2 ^ 63) (hpage : defaultBufferSize < 2 ^ 63)
    (hpos : 1 ≤ defaultBufferSize) (hbound : reader.currentOffset ≤ reader.fileSize)
    (hmore : reader.readCount defaultBufferSize < reader.fileSize) :
    fullChunks (reader.advance defaultBufferSize) defaultBufferSize + 1 =
      fullChunks reader defaultBufferSize := by
  have hadd : SizeT.add reader.currentOffset defaultBufferSize =
      reader.currentOffset + defaultBufferSize :=
    SizeT.add_eq (by unfold SizeT.modulus; omega)
  have hcount : reader.readCount defaultBufferSize =
      min (reader.currentOffset + defaultBufferSize) reader.fileSize := by
    rw [MMapFileReader.readCount, hadd]
  have hroom : reader.currentOffset + defaultBufferSize < reader.fileSize := by
    omega
  have hfirst : (reader.fileSize - reader.currentOffset) / defaultBufferSize =
      (reader.fileSize - reader.currentOffset - defaultBufferSize) /
        defaultBufferSize + 1 :=
    Nat.div_eq_sub_div hpos (by omega)
  show (reader.fileSize - reader.readCount defaultBufferSize) / defaultBufferSize + 1 =
    (reader.fileSize - reader.currentOffset) / defaultBufferSize
  rw [hcount, Nat.min_eq_left (Nat.le_of_lt hroom), hfirst, Nat.sub_sub]

theorem toRead_storeFinished (reader : MMapFileReader) (defaultBufferSize : Nat)
    (buf : List UInt8) :
    toRead reader.storeFinished defaultBufferSize (.push buf) ≤
      toRead reader defaultBufferSize (.storeFinished buf) := by
  by_cases hend : reader.fileSize ≤ reader.currentOffset
  · simp [toRead, MMapFileReader.storeFinished, hend]
  · show (if (if reader.fileSize ≤ reader.currentOffset then true
        else reader.readFinished) then 0 else fullChunks reader defaultBufferSize + 1) ≤
      if reader.fileSize ≤ reader.currentOffset then 0
        else fullChunks reader defaultBufferSize + 1
    rw [if_neg hend, if_neg hend]
    split
    · exact Nat.zero_le _
    · exact Nat.le_refl _

theorem CopyStep.lowers {src : List UInt8} (hsrc : src.length < 2 ^ 63)
    {defaultBufferSize : Nat} (hpage : defaultBufferSize < 2 ^ 63)
    (hpos : 1 ≤ defaultBufferSize) {s s' : ParallelCopyTool} (h : Paced src s)
    (hstep : CopyStep src defaultBufferSize s s') :
    s'.potential defaultBufferSize < s.potential defaultBufferSize := by
  cases hstep with
  | @openReader reader hpc hopen =>
      have hbound : s.fileReader.currentOffset ≤ s.fileReader.fileSize := by
        rw [h.size]
        exact h.bound
      unfold MMapFileReader.open' at hopen
      split at hopen
      · cases hopen
      · cases hopen
        simp [potential, hpc, toRead, hbound, fullChunks, CopyPc.filled,
          CopyPc.potential]
  | startWriter hpc =>
      have hnot := h.unstarted (by rw [hpc]; rfl)
      simp [potential, hpc, hnot, toRead, CopyPc.filled, CopyPc.potential,
        WritingPc.potential]
  | @read mapped hpc hmapped =>
      have hunfinished := h.reading hpc
      by_cases hmore : s.fileReader.readCount defaultBufferSize < s.fileReader.fileSize
      · have hless := fullChunks_advance (by rw [h.size]; exact hsrc) hpage hpos
          (by rw [h.size]; exact h.bound) hmore
        have hstill : ¬ s.fileReader.fileSize ≤
            s.fileReader.readCount defaultBufferSize := Nat.not_le.mpr hmore
        have hoffset : (s.fileReader.advance defaultBufferSize).currentOffset =
            s.fileReader.readCount defaultBufferSize := rfl
        have hsize : (s.fileReader.advance defaultBufferSize).fileSize =
            s.fileReader.fileSize := rfl
        simp [potential, hpc, toRead, hunfinished, hoffset, hsize, hstill,
          CopyPc.filled, CopyPc.potential]
        omega
      · have hend : s.fileReader.fileSize ≤ s.fileReader.readCount defaultBufferSize :=
          Nat.not_lt.mp hmore
        have hoffset : (s.fileReader.advance defaultBufferSize).currentOffset =
            s.fileReader.readCount defaultBufferSize := rfl
        have hsize : (s.fileReader.advance defaultBufferSize).fileSize =
            s.fileReader.fileSize := rfl
        simp [potential, hpc, toRead, hunfinished, hoffset, hsize, hend,
          CopyPc.filled, CopyPc.potential]
        omega
  | @storeFinished buf hpc =>
      have hread := toRead_storeFinished s.fileReader defaultBufferSize buf
      simp only [potential, hpc, CopyPc.filled, CopyPc.potential]
      omega
  | @push buf hpc =>
      have hcv : (s.queue.push buf).cv = s.queue.cv := rfl
      have hlength : (s.queue.push buf).queue.length = s.queue.queue.length + 1 := by
        simp [SynchronizedQueue.push]
      simp only [potential, hpc, toRead, hcv, hlength, CopyPc.filled, CopyPc.potential]
      omega
  | notifyOne hpc =>
      have hwake := WritingPc.potential_wake s.writingPc
        (decide (Thread.writing ∈ s.queue.cv))
        (decide (Thread.writing ∈ (s.queue.notifyOne .writing).cv))
      simp [potential, hpc, toRead, CopyPc.filled, CopyPc.potential] at hwake ⊢
      simp [SynchronizedQueue.notifyOne] at hwake ⊢
      omega
  | close hpc =>
      have hcv : s.queue.close.cv = s.queue.cv := rfl
      have hqueue : s.queue.close.queue = s.queue.queue := rfl
      simp only [potential, hpc, toRead, hcv, hqueue, CopyPc.filled, CopyPc.potential]
      omega
  | finishRead hpc =>
      simp only [potential, hpc, toRead, MMapFileReader.finishRead, CopyPc.filled,
        CopyPc.potential, if_true]
      omega
  | _ => simp [potential, *, toRead, CopyPc.filled, CopyPc.potential]

theorem WritingStep.lowers {s s' : ParallelCopyTool} (defaultBufferSize : Nat)
    (hstep : WritingStep s s') :
    s'.potential defaultBufferSize < s.potential defaultBufferSize := by
  cases hstep with
  | @pop pc r q hpc hpop =>
      cases pop_cases hpop with
      | wait hfree hgo hempty hopen =>
          cases pc <;> simp_all [potential, afterPop, WritingPc.potential]
      | nullopt hfree hgo hempty hclosed =>
          cases pc <;> simp_all [potential, afterPop, WritingPc.potential]
      | take hfree hgo hqueue =>
          cases pc <;> simp_all [potential, afterPop, WritingPc.potential] <;> omega
  | _ => simp [potential, *, WritingPc.potential]

theorem next_lowers {src : List UInt8} (hsrc : src.length < 2 ^ 63)
    {defaultBufferSize : Nat} (hpage : defaultBufferSize < 2 ^ 63)
    (hpos : 1 ≤ defaultBufferSize) {a : Action} {s s' : ParallelCopyTool}
    (h : Paced src s) (hstep : next src defaultBufferSize a s = some s') :
    s'.potential defaultBufferSize < s.potential defaultBufferSize := by
  rcases a with ⟨thread, fails⟩
  cases thread with
  | reading =>
      rcases copy_fails hstep with hcopy | ⟨hpc, rfl⟩
      · exact hcopy.lowers hsrc hpage hpos h
      · cases hcopy : s.copyPc <;>
          simp_all [potential, toRead, CopyPc.fallible, CopyPc.filled, CopyPc.potential]
  | writing => exact (writingFunction_cases hstep).lowers defaultBufferSize

/-!
# Every run ends
-/

/--
No run is longer than `stepsFor` the source, whatever the interleaving and whether
system calls fail or not.
-/
theorem parallel_steps_bounded (src : List UInt8) (hsrc : src.length < 2 ^ 63)
    (defaultBufferSize : Nat) (hpage : defaultBufferSize < 2 ^ 63)
    (hpos : 1 ≤ defaultBufferSize) (previous : Option (List UInt8)) (as : List Action)
    (s : ParallelCopyTool)
    (hexec : exec (next src defaultBufferSize) as (new src previous) = some s) :
    as.length ≤ stepsFor src.length defaultBufferSize := by
  have hlength := exec_length_le (Paced src) (potential defaultBufferSize)
    (fun _ _ _ hx hstep => next_paced hx hstep)
    (fun _ _ _ hx hstep => next_lowers hsrc hpage hpos hx hstep)
    as (new_paced src previous) hexec
  rw [new_potential] at hlength
  omega

/-- The writer sleeps when the queue is closed. -/
theorem parallel_steps_bounded_sleepThenClose :
    exists s, exec (next [1] 4096) sleepThenClose (new [1] none) = some s ∧
      sleepThenClose.length ≤ stepsFor 1 4096 := by
  have hview : (exec (next [1] 4096) sleepThenClose (new [1] none)).map
      (fun s => s.copyPc) = some .returned := by
    decide +kernel
  rcases Option.map_eq_some_iff.mp hview with ⟨s, hexec, _⟩
  exact ⟨s, hexec, parallel_steps_bounded [1] (by decide) 4096 (by decide) (by decide)
    none sleepThenClose s hexec⟩

/-- A writer that sleeps has seen the queue empty, or is about to be notified. -/
structure SleepsEmpty (s : ParallelCopyTool) : Prop where
  waiting : .writing ∈ s.queue.cv -> s.writingPc = .pop .waiting
  empty : .writing ∈ s.queue.cv -> s.copyPc ≠ .notifyOne -> s.queue.queue = []
  once : s.queue.cv.Nodup

theorem CopyStep.sleepsEmpty {src : List UInt8} {defaultBufferSize : Nat}
    {s s' : ParallelCopyTool} (hpaced : Paced src s) (h : SleepsEmpty s)
    (hstep : CopyStep src defaultBufferSize s s') : SleepsEmpty s' := by
  cases hstep with
  | startWriter hpc =>
      have hnot := hpaced.unstarted (by rw [hpc]; rfl)
      have hawake : .writing ∉ s.queue.cv := by
        intro hmem
        have hwaiting := h.waiting hmem
        rw [hnot] at hwaiting
        cases hwaiting
      exact ⟨fun hmem => absurd hmem hawake, fun hmem => absurd hmem hawake, h.once⟩
  | push hpc => exact ⟨h.waiting, fun _ hnot => absurd rfl hnot, h.once⟩
  | notifyOne hpc =>
      have hawake : .writing ∉ (s.queue.notifyOne .writing).cv := by
        show Thread.writing ∉ s.queue.cv.erase .writing
        rw [h.once.mem_erase_iff]
        exact fun hmem => hmem.left rfl
      exact ⟨fun hmem => absurd hmem hawake, fun hmem => absurd hmem hawake,
        h.once.erase _⟩
  | _ hpc => exact ⟨h.waiting, fun hmem _ => h.empty hmem (by simp [hpc]), h.once⟩

theorem WritingStep.sleepsEmpty {s s' : ParallelCopyTool} (h : SleepsEmpty s)
    (hstep : WritingStep s s') : SleepsEmpty s' := by
  have hawake : s.writingPc ≠ .pop .waiting -> .writing ∉ s.queue.cv :=
    fun hpc hmem => hpc (h.waiting hmem)
  cases hstep with
  | @pop pc r q hpc hpop =>
      have hnot : .writing ∉ s.queue.cv := by
        intro hmem
        cases hpc.symm.trans (h.waiting hmem)
        cases pop_cases hpop with
        | wait hfree hgo hempty hopen => exact hgo rfl hmem
        | nullopt hfree hgo hempty hclosed => exact hgo rfl hmem
        | take hfree hgo hqueue => exact hgo rfl hmem
      cases pop_cases hpop with
      | wait hfree hgo hempty hopen =>
          exact ⟨fun _ => rfl, fun _ _ => hempty, List.nodup_cons.mpr ⟨hnot, h.once⟩⟩
      | nullopt hfree hgo hempty hclosed =>
          exact ⟨fun hmem => absurd hmem hnot, fun hmem => absurd hmem hnot, h.once⟩
      | take hfree hgo hqueue =>
          exact ⟨fun hmem => absurd hmem hnot, fun hmem => absurd hmem hnot, h.once⟩
  | _ hpc =>
      have hnot := hawake (by simp [hpc])
      exact ⟨fun hmem => absurd hmem hnot, fun hmem => absurd hmem hnot, h.once⟩

/-- What holds in every run without failing calls. -/
structure Orderly (src : List UInt8) (s : ParallelCopyTool) : Prop where
  inv : Inv src s
  notThrown : s.writingPc ≠ .threw
  paced : Paced src s
  sleeps : SleepsEmpty s

theorem new_orderly (src : List UInt8) (previous : Option (List UInt8)) :
    Orderly src (new src previous) where
  inv := new_inv src previous
  notThrown := by simp [new]
  paced := new_paced src previous
  sleeps := by
    constructor <;> simp [new, SynchronizedQueue.new, SynchronizedQueue.open']

theorem next_orderly {src : List UInt8} (hpos : 1 ≤ src.length)
    (hsrc : src.length < 2 ^ 63) {defaultBufferSize : Nat}
    (hpage : defaultBufferSize < 2 ^ 63) {a : Action} {s s' : ParallelCopyTool}
    (h : Orderly src s) (hok : NoFailure s a)
    (hstep : next src defaultBufferSize a s = some s') : Orderly src s' := by
  have hinv := next_notThrown hpos hsrc hpage ⟨h.inv, h.notThrown⟩ hok hstep
  refine ⟨hinv.left, hinv.right, next_paced h.paced hstep, ?_⟩
  rcases next_cases hok hstep with ⟨_, hcopy⟩ | ⟨_, hwriting⟩
  · exact hcopy.sleepsEmpty h.paced h.sleeps
  · exact hwriting.sleepsEmpty h.sleeps

/-- Where the writer is when it cannot move. -/
theorem Orderly.writing_cases {src : List UInt8} {s : ParallelCopyTool} (h : Orderly src s)
    (hnone : s.writingFunction = none) :
    s.writingPc = .notStarted ∨ s.writingPc = .left ∨
      s.writingPc = .pop .waiting ∧ .writing ∈ s.queue.cv ∨
      s.copyPc.holdsMutex = true ∧
        (s.writingPc = .testEmpty ∨ exists pc, s.writingPc = .pop pc) := by
  rcases writingFunction_eq_none hnone with
    hnot | hleft | hthrew | hasleep | ⟨hheld, hlocks⟩
  · exact Or.inl hnot
  · exact Or.inr (Or.inl hleft)
  · exact absurd hthrew h.notThrown
  · exact Or.inr (Or.inr (Or.inl ⟨h.sleeps.waiting hasleep, hasleep⟩))
  · refine Or.inr (Or.inr (Or.inr ⟨?_, hlocks⟩))
    cases hholds : s.copyPc.holdsMutex with
    | true => rfl
    | false => exact absurd (h.inv.control.mutex hholds) hheld

/-- A writer that sleeps after `copy` has returned has stored everything. -/
theorem Orderly.copied_of_waiting {src : List UInt8} {s : ParallelCopyTool}
    (h : Orderly src s) (hreturned : s.copyPc = .returned) (hasleep : .writing ∈ s.queue.cv) :
    s.fileWriter.file = some src := by
  have hempty := h.sleeps.empty hasleep (by rw [hreturned]; simp)
  refine h.inv.copied_drained (by rw [hreturned]; trivial) hempty ?_
  rw [h.sleeps.waiting hasleep]
  rfl

/-- Both threads have stopped: `copy` has returned, the writer has left or sleeps for good. -/
structure Stopped (s : ParallelCopyTool) : Prop where
  returned : s.copyPc = .returned
  writer : s.writingPc = .left ∨ s.writingPc = .pop .waiting ∧ .writing ∈ s.queue.cv

/--
Every run without failing calls ends, and where it ends the destination holds the
source, also when the writer has slept through `close`.
-/
theorem parallel_ends_copied (src : List UInt8) (hpos : 1 ≤ src.length)
    (hsrc : src.length < 2 ^ 63) (defaultBufferSize : Nat)
    (hpage : defaultBufferSize < 2 ^ 63) (hpage' : 1 ≤ defaultBufferSize)
    (previous : Option (List UInt8)) :
    Ends (StepOf (next src defaultBufferSize)) NoFailure
      (fun s => s.Stopped ∧ s.fileWriter.file = some src) (new src previous) := by
  apply Ends.of_measure (Orderly src) (potential defaultBufferSize)
  · intro x a x' hx hguard hstep
    exact next_orderly hpos hsrc hpage hx hguard hstep
  · intro x a x' hx _ hstep
    exact next_lowers hsrc hpage hpage' hx.paced hstep
  · intro x hx hlast
    have hcopyNone : x.copy src defaultBufferSize false = none :=
      Option.eq_none_iff_forall_ne_some.mpr fun x' => hlast (.reading, false) x' rfl
    have hwritingNone : x.writingFunction = none :=
      Option.eq_none_iff_forall_ne_some.mpr fun x' => hlast (.writing, false) x' rfl
    have hreturned := copy_eq_none hx.inv.control hcopyNone
    rcases hx.writing_cases hwritingNone with
      hnot | hleft | ⟨hwaiting, hasleep⟩ | ⟨hheld, _⟩
    · have hstarted := hx.inv.control.started.mpr hnot
      rw [hreturned] at hstarted
      cases hstarted
    · exact ⟨⟨hreturned, Or.inl hleft⟩, hx.inv.copied (by rw [hleft]; trivial)⟩
    · exact ⟨⟨hreturned, Or.inr ⟨hwaiting, hasleep⟩⟩,
        hx.copied_of_waiting hreturned hasleep⟩
    · rw [hreturned] at hheld
      cases hheld
  · exact new_orderly src previous

theorem parallel_ends_copied_writerWaits :
    exists s, exec (next [1, 2, 3] 2) writerWaits
        (new [1, 2, 3] (some [9, 9, 9, 9, 9])) = some s ∧
      s.Stopped ∧ s.fileWriter.file = some [1, 2, 3] := by
  have hview : (exec (next [1, 2, 3] 2) writerWaits
      (new [1, 2, 3] (some [9, 9, 9, 9, 9]))).map (fun s => (s.copyPc, s.writingPc)) =
      some (.returned, .left) := by
    decide +kernel
  rcases Option.map_eq_some_iff.mp hview with ⟨s, hexec, hpcs⟩
  have hfinal : s.Final := Prod.mk.inj hpcs
  have hends := parallel_ends_copied [1, 2, 3] (by decide) (by decide) 2 (by decide)
    (by decide) (some [9, 9, 9, 9, 9])
  exact ⟨s, hexec, hends.reached (reaches_of_exec writerWaits (by decide +kernel) hexec)
    fun a s' _ => hfinal.stuck a s'⟩

end ParallelCopyTool
end Parallel
end Common
end Ki
