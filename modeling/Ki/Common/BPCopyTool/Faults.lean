import Ki.Common.BPCopyTool.Exactness
import Ki.Common.BPCopyTool.Exceptions
import Ki.Common.BPCopyTool.Progress

/-!
# Short reads and short writes

The tool beside the bytes that `fgetc` has fetched from the source.  As long as
no `fgetc` and no `fwrite` falls short, a run is one whose stdio calls succeed.
-/

namespace Ki
namespace Common

open Foundation
open Queue
open FixedBufferQueue
open Reader
open BufferedReader
open Writer
open BufferedFileWriter
open Stdio

namespace BPCopyTool

/-- The bytes that `fgetc` loads from the source in a step. -/
def loads (a : Action) (s : BPCopyTool) : List UInt8 :=
  match a.1, s.copyPc, s.fileReader.fileDesc with
  | .reading, .read (.fill _), some file => if a.2.fails then [] else file.load a.2
  | _, _, _ => []

theorem loads_writing {a : Action} {s : BPCopyTool} (hthread : a.1 = .writing) :
    loads a s = [] := by
  simp [loads, hthread]

theorem loads_outside {a : Action} {s : BPCopyTool}
    (hfill : forall buf, s.copyPc ≠ .read (.fill buf)) : loads a s = [] := by
  unfold loads
  split
  · rename_i hpc _
    exact absurd hpc (hfill _)
  · rfl

theorem loads_fill {a : Action} {s : BPCopyTool} {buf : Buffer} {file : FILE}
    (hthread : a.1 = .reading) (hpc : s.copyPc = .read (.fill buf))
    (hopen : s.fileReader.fileDesc = some file) (hok : a.2.fails = false) :
    loads a s = file.load a.2 := by
  simp [loads, hthread, hpc, hopen, hok]

/-- The step that fills a buffer, unless `setvbuf` fails in it. -/
theorem CopyStep.fill {src : List UInt8} {io : Io} {s s' : BPCopyTool} {buf : Buffer}
    (hstep : CopyStep src io s s') (hpc : s.copyPc = .read (.fill buf)) :
    (exists held, s'.copyPc = .threw held) ∨
      exists file, s.fileReader.fileDesc = some file ∧ io.fails = false ∧
        s'.fileReader = s.fileReader.afterFgetc (file.setvbuf buf.data) io := by
  cases hstep with
  | read hpc' hread =>
      cases hpc.symm.trans hpc'
      cases readStep_cases hread with
      | setvbufFails _ hfails => exact Or.inl ⟨[buf], rfl⟩
      | fill hopen hok => exact Or.inr ⟨_, hopen, hok, rfl⟩
  | openFails hpc' hfails => simp [hpc] at hpc'
  | _ => simp_all

/-- A step that fills no buffer leaves the reader at its place in the source. -/
theorem CopyStep.currentOffset {src : List UInt8} {io : Io} {s s' : BPCopyTool}
    (hstep : CopyStep src io s s') (hfill : forall buf, s.copyPc ≠ .read (.fill buf)) :
    s'.fileReader.currentOffset = s.fileReader.currentOffset := by
  cases hstep with
  | read hpc hread =>
      cases readStep_cases hread with
      | fill hopen hok => exact absurd hpc (hfill _)
      | _ => rfl
  | _ => rfl

/-- The tool, and what its source has delivered. -/
structure Fetching where
  tool : BPCopyTool
  fetched : List UInt8

namespace Fetching

def new (src : List UInt8) (dst : String) (buffers : Nat -> List UInt8) : Fetching where
  tool := BPCopyTool.new src dst buffers
  fetched := []

def next (src : List UInt8) (a : Action) (x : Fetching) : Option Fetching :=
  (BPCopyTool.next src a x.tool).map fun s =>
    { tool := s, fetched := x.fetched ++ loads a x.tool }

/-- No `fgetc` and no `fwrite` of the step falls short of what it is asked for. -/
structure NothingShort (x : Fetching) (a : Action) : Prop where
  fgetc : a.1 = .reading -> forall buf file, x.tool.copyPc = .read (.fill buf) ->
    x.tool.fileReader.fileDesc = some file -> file.load a.2 = file.wanted
  fwrite : a.1 = .writing -> forall buf, x.tool.writingPc = .write (.fwrite buf) ->
    ((x.tool.queue.buffers buf.data).take buf.bytesUsed).take
        (((x.tool.queue.buffers buf.data).take buf.bytesUsed).length - a.2.shortWrite) =
      (x.tool.queue.buffers buf.data).take buf.bytesUsed

end Fetching

/-!
# A run in which nothing falls short
-/

/-- The same outcome, without a failure. -/
def settled (io : Io) : Io :=
  { Io.success with kept := io.kept }

theorem settled_succeeds (io : Io) : (settled io).Succeeds :=
  ⟨rfl, rfl, rfl⟩

theorem afterFgetc_congr {reader : BufferedReader} {file : FILE} {io io' : Io}
    (hload : file.load io' = file.load io) :
    reader.afterFgetc file io' = reader.afterFgetc file io := by
  simp only [afterFgetc, FILE.fgetc, hload]

theorem fgetcBuffers_congr {file : FILE} {io io' : Io} {buffers : Nat -> List UInt8}
    (hload : file.load io' = file.load io) :
    file.fgetcBuffers io' buffers = file.fgetcBuffers io buffers := by
  simp only [FILE.fgetcBuffers, hload]

theorem readStep_settled {me : Thread} {io : Io} {reader reader' : BufferedReader}
    {q q' : FixedBufferQueue Thread} {pc : ReadPc} {r : ReadResult}
    (hload : forall buf file, pc = .fill buf -> reader.fileDesc = some file ->
      file.load io = file.wanted)
    (hthrew : forall held, r ≠ .threw held)
    (hstep : reader.readStep me io q pc = some (r, reader', q')) :
    reader.readStep me (settled io) q pc = some (r, reader', q') := by
  cases pc with
  | fill buf =>
      cases readStep_cases hstep with
      | setvbufFails buf hfails => exact absurd rfl (hthrew _)
      | @fill _ file hopen hok =>
          have hsame : (file.setvbuf buf.data).load (settled io) =
              (file.setvbuf buf.data).load io := by
            rw [FILE.load_of_succeeds _ (settled_succeeds io)]
            exact (hload buf file rfl hopen).symm
          rw [← afterFgetc_congr hsame, ← fgetcBuffers_congr hsame, readStep, hopen]
          rfl
  | _ => exact hstep

theorem writeStep_settled {me : Thread} {io : Io} {writer writer' : BufferedFileWriter}
    {q q' : FixedBufferQueue Thread} {pc : WritePc} {r : WriteResult}
    (hbytes : forall buf, pc = .fwrite buf ->
      ((q.buffers buf.data).take buf.bytesUsed).take
        (((q.buffers buf.data).take buf.bytesUsed).length - io.shortWrite) =
      (q.buffers buf.data).take buf.bytesUsed)
    (hstep : writer.writeStep me io q pc = some (r, writer', q')) :
    writer.writeStep me (settled io) q pc = some (r, writer', q') := by
  cases pc with
  | fwrite buf =>
      rw [← hstep]
      simp only [writeStep, afterFwrite, OutFILE.fwrite, hbytes buf rfl, settled,
        Io.success, Nat.sub_zero, List.take_length]
  | _ => exact hstep

theorem next_settled {src : List UInt8} {x : Fetching} {a : Action} {s' : BPCopyTool}
    (hfull : x.NothingShort a) (hthrew : forall held, s'.copyPc ≠ .threw held)
    (hstep : next src a x.tool = some s') :
    next src (a.1, settled a.2) x.tool = some s' := by
  rcases a with ⟨thread, io⟩
  cases thread with
  | reading =>
      change copy src io x.tool = some s' at hstep
      change copy src (settled io) x.tool = some s'
      unfold copy at hstep
      unfold copy
      cases hpc : x.tool.copyPc with
      | openReader =>
          simp only [hpc] at hstep
          split at hstep
          · cases hstep
            exact absurd rfl (hthrew _)
          · exact hstep
      | createWriter =>
          simp only [hpc] at hstep
          split at hstep
          · cases hstep
            exact absurd rfl (hthrew _)
          · exact hstep
      | read pc =>
          simp only [hpc] at hstep
          rcases Option.map_eq_some_iff.mp hstep with ⟨⟨r, reader, q⟩, hread, heq⟩
          have hread' := readStep_settled
            (fun buf file hfill => hfull.fgetc rfl buf file (by rw [hpc, hfill]))
            (fun held hr => hthrew held (by rw [← heq, hr]; rfl)) hread
          exact Option.map_eq_some_iff.mpr ⟨_, hread', heq⟩
      | _ =>
          rw [hpc] at hstep
          exact hstep
  | writing =>
      change writingFunction io x.tool = some s' at hstep
      change writingFunction (settled io) x.tool = some s'
      unfold writingFunction at hstep
      unfold writingFunction
      cases hpc : x.tool.writingPc with
      | write pc =>
          simp only [hpc] at hstep
          rcases Option.map_eq_some_iff.mp hstep with ⟨out, hwrite, heq⟩
          have hwrite' := writeStep_settled
            (fun buf hfwrite => hfull.fwrite rfl buf (by rw [hpc, hfwrite])) hwrite
          exact Option.map_eq_some_iff.mpr ⟨_, hwrite', heq⟩
      | _ =>
          rw [hpc] at hstep
          exact hstep

theorem loads_settled {src : List UInt8} {x : Fetching} {a : Action} {s' : BPCopyTool}
    (hfull : x.NothingShort a) (hthrew : forall held, s'.copyPc ≠ .threw held)
    (hstep : next src a x.tool = some s') :
    loads (a.1, settled a.2) x.tool = loads a x.tool := by
  rcases next_cases hstep with ⟨hthread, hcopy⟩ | ⟨hthread, _⟩
  · by_cases hfill : exists buf, x.tool.copyPc = .read (.fill buf)
    · rcases hfill with ⟨buf, hpc⟩
      rcases hcopy.fill hpc with ⟨held, hheld⟩ | ⟨file, hopen, hok, _⟩
      · exact absurd hheld (hthrew held)
      · calc
          loads (a.1, settled a.2) x.tool = file.load (settled a.2) :=
            loads_fill hthread hpc hopen rfl
          _ = file.wanted := file.load_of_succeeds (settled_succeeds a.2)
          _ = file.load a.2 := (hfull.fgetc hthread buf file hpc hopen).symm
          _ = loads a x.tool := (loads_fill hthread hpc hopen hok).symm
    · rw [loads_outside (by simpa using hfill), loads_outside (by simpa using hfill)]
  · rw [loads_writing hthread, loads_writing (a := (a.1, settled a.2)) hthread]

/-!
# What has been fetched
-/

/-- Until the last chunk is in hand, there is something left to read. -/
def Behind (src : List UInt8) (reader : BufferedReader) (pc : Option ReadPc) : Prop :=
  reader.readFinished = false -> (forall buf, pc ≠ some (.storeFinished buf)) ->
    reader.currentOffset < src.length ∨ src = []

theorem Behind.readStep {src : List UInt8} {me : Thread} {io : Io}
    {reader reader' : BufferedReader} {q q' : FixedBufferQueue Thread} {pc : ReadPc}
    {r : ReadResult} (h : Behind src reader (some pc))
    (hsize : reader.fileSize = src.length)
    (hstep : reader.readStep me io q pc = some (r, reader', q')) :
    Behind src reader' r.pc := by
  intro hunfinished hpc'
  cases readStep_cases hstep with
  | fill hopen hok =>
      left
      by_cases hmore : reader.readCount < reader.fileSize
      · rw [← hsize]
        exact hmore
      · rw [if_neg hmore] at hpc'
        exact absurd rfl (hpc' _)
  | storeFinished buf => cases hunfinished
  | _ => exact h hunfinished (by simp)

theorem CopyStep.behind {src : List UInt8} {io : Io} {s s' : BPCopyTool}
    (h : Behind src s.fileReader s.copyPc.readPc)
    (hsize : s.fileReader.fileSize = src.length)
    (hbound : s.fileReader.currentOffset ≤ src.length) (hstep : CopyStep src io s s') :
    Behind src s'.fileReader s'.copyPc.readPc := by
  have houtside : s.copyPc.readPc = none -> s.fileReader.readFinished = false ->
      s.fileReader.currentOffset < src.length ∨ src = [] :=
    fun hpc hunfinished => h hunfinished (by simp [hpc])
  cases hstep with
  | openFails hpc hfails =>
      intro hunfinished _
      have hnone : s.copyPc.readPc = none := by
        rcases hpc with hpc | hpc <;> simp [hpc, CopyPc.readPc]
      exact houtside hnone hunfinished
  | openReader hpc =>
      intro hunfinished _
      have hnot : ¬ s.fileReader.fileSize < s.fileReader.currentOffset := by
        omega
      simp only [BufferedReader.open', if_neg hnot] at hunfinished
      exact houtside (by rw [hpc]; rfl) hunfinished
  | @read pc r reader q hpc hread =>
      rw [hpc] at h
      have h' := Behind.readStep h hsize hread
      cases r <;> exact h'
  | openQueue hpc => exact fun hunfinished _ => houtside (by rw [hpc]; rfl) hunfinished
  | createWriter hpc => exact fun hunfinished _ => houtside (by rw [hpc]; rfl) hunfinished
  | startWriter hpc => exact fun hunfinished _ => houtside (by rw [hpc]; rfl) hunfinished
  | finished hpc hfinished => exact fun hunfinished _ => houtside (by rw [hpc]; rfl) hunfinished
  | unfinished hpc _ => exact fun hunfinished _ => houtside (by rw [hpc]; rfl) hunfinished
  | close hpc => exact fun hunfinished _ => houtside (by rw [hpc]; rfl) hunfinished

/-- What a step that succeeds loads is what `currentOffset` moves over. -/
theorem CopyStep.fetches {src : List UInt8} (hsrc : src.length < 2 ^ 63) {a : Action}
    (hthread : a.1 = .reading) (hio : a.2.Succeeds) {s s' : BPCopyTool}
    {returned : List Payload} (hunannounced : Unannounced s)
    (hbehind : Behind src s.fileReader s.copyPc.readPc)
    (hread : ReadData src s.fileReader s.queue.buffers s.copyPc.readPc returned)
    (hthrew : forall held, s'.copyPc ≠ .threw held) (hstep : CopyStep src a.2 s s') :
    src.take s.fileReader.currentOffset ++ loads a s =
      src.take s'.fileReader.currentOffset := by
  by_cases hfill : exists buf, s.copyPc = .read (.fill buf)
  · rcases hfill with ⟨buf, hpc⟩
    rcases hstep.fill hpc with ⟨held, hheld⟩ | ⟨file, hopen, hok, hreader⟩
    · exact absurd hheld (hthrew held)
    · have hunfinished := hunannounced.early _ hpc trivial
      have hleft := hbehind hunfinished (by simp [hpc, CopyPc.readPc])
      rcases hread.stream file hopen with ⟨hcontents, hposition⟩
      have hwanted : file.wanted =
          (src.drop s.fileReader.currentOffset).take bufferSize := by
        rw [FILE.wanted, hcontents]
        rcases hleft with hlt | hnil
        · rw [hposition hlt]
        · simp [hnil]
      have hcount := readCount_eq hsrc hread.size hread.bound
      calc
        src.take s.fileReader.currentOffset ++ loads a s =
            src.take s.fileReader.currentOffset ++
              (src.drop s.fileReader.currentOffset).take bufferSize := by
          rw [loads_fill hthread hpc hopen hok, file.load_of_succeeds hio, hwanted]
        _ = src.take s.fileReader.readCount := by
          rw [← List.take_add, hcount]
          simp
        _ = src.take s'.fileReader.currentOffset := by
          rw [hreader]
          rfl
  · rw [loads_outside (by simpa using hfill), List.append_nil,
      hstep.currentOffset (by simpa using hfill)]

/-!
# No silent corruption
-/

/-- A tool that has not thrown, reached by steps that succeed, with what it has fetched. -/
structure Fetched (src : List UInt8) (dst : String) (buffers : Nat -> List UInt8)
    (x : Fetching) : Prop where
  run : Reaches (StepOf (next src)) Succeeds (new src dst buffers) x.tool
  behind : Behind src x.tool.fileReader x.tool.copyPc.readPc
  fetched : x.fetched = src.take x.tool.fileReader.currentOffset

theorem new_fetched (src : List UInt8) (dst : String) (buffers : Nat -> List UInt8) :
    Fetched src dst buffers (Fetching.new src dst buffers) where
  run := Relation.ReflTransGen.refl
  behind := by
    intro _ _
    cases src with
    | nil => exact Or.inr rfl
    | cons b rest => exact Or.inl (Nat.succ_pos _)
  fetched := rfl

theorem Fetched.next {src : List UInt8} (hsrc : src.length < 2 ^ 63) {dst : String}
    {buffers : Nat -> List UInt8} {x : Fetching} {a : Action} {s' : BPCopyTool}
    (h : Fetched src dst buffers x) (hfull : x.NothingShort a)
    (hthrew : forall held, s'.copyPc ≠ .threw held)
    (hstep : next src a x.tool = some s') :
    Fetched src dst buffers { tool := s', fetched := x.fetched ++ loads a x.tool } := by
  have hsettled := next_settled hfull hthrew hstep
  have hunannounced := reaches_unannounced h.run
  rcases reaches_data hsrc h.run with ⟨returned, delivered, _, hdata⟩
  have hread := hdata.read
  refine ⟨h.run.tail ⟨(a.1, settled a.2), settled_succeeds a.2, hsettled⟩, ?_, ?_⟩
  · rcases next_cases hstep with ⟨_, hcopy⟩ | ⟨_, hwriting⟩
    · exact hcopy.behind h.behind hread.size hread.bound
    · cases hwriting <;> exact h.behind
  · rw [h.fetched, ← loads_settled hfull hthrew hstep]
    rcases next_cases hsettled with ⟨hthread, hcopy⟩ | ⟨hthread, hwriting⟩
    · exact hcopy.fetches hsrc hthread (settled_succeeds a.2) hunannounced h.behind
        hread hthrew
    · rw [loads_writing hthread, List.append_nil]
      cases hwriting <;> rfl

theorem reaches_fetched {src : List UInt8} (hsrc : src.length < 2 ^ 63) {dst : String}
    {buffers : Nat -> List UInt8} {x : Fetching}
    (hrun : Reaches (StepOf (Fetching.next src)) Fetching.NothingShort
      (Fetching.new src dst buffers) x) :
    (exists held, x.tool.copyPc = .threw held) ∨ Fetched src dst buffers x := by
  refine Reaches.invariant (fun y => (exists held, y.tool.copyPc = .threw held) ∨
    Fetched src dst buffers y) ?_ hrun (Or.inr (new_fetched src dst buffers))
  intro y a y' hy hfull hstep
  rcases Option.map_eq_some_iff.mp hstep with ⟨s', hnext, rfl⟩
  by_cases hthrew : exists held, s'.copyPc = .threw held
  · exact Or.inl hthrew
  · rcases hy with ⟨held, hheld⟩ | hfetched
    · exact absurd ⟨held, next_threw hheld hnext⟩ hthrew
    · exact Or.inr (hfetched.next hsrc hfull (by simpa using hthrew) hnext)

theorem Fetched.written_prefix {src : List UInt8} (hsrc : src.length < 2 ^ 63)
    {dst : String} {buffers : Nat -> List UInt8} {x : Fetching}
    (h : Fetched src dst buffers x) : x.tool.fileWriter.written <+: x.fetched := by
  rcases reaches_data hsrc h.run with ⟨returned, delivered, hlinked, hdata⟩
  rw [h.fetched]
  exact hdata.written_prefix hlinked

theorem Fetched.written_all {src : List UInt8} (hsrc : src.length < 2 ^ 63)
    {dst : String} {buffers : Nat -> List UInt8} {x : Fetching}
    (h : Fetched src dst buffers x) (hfinal : x.tool.Final) :
    x.tool.fileWriter.written = x.fetched := by
  rcases reaches_data hsrc h.run with ⟨returned, delivered, hlinked, hdata⟩
  have hfinished := hlinked.control.closing (Or.inr hfinal.left)
  have hoffset := hdata.read.finished hfinished
  calc
    x.tool.fileWriter.written = src := hdata.written_all hlinked hfinal.right
    _ = src.take x.tool.fileReader.currentOffset := by
      rw [hoffset, List.take_length]
    _ = x.fetched := h.fetched.symm

/--
In every run in which no `fgetc` and no `fwrite` falls short, the bytes written
are a prefix of those the source has delivered, unless an exception has left
`copy`, and they are all of these once both threads have completed.
-/
theorem writes_fetched (src : List UInt8) (hsrc : src.length < 2 ^ 63) (dst : String)
    (buffers : Nat -> List UInt8) (x : Fetching)
    (hrun : Reaches (StepOf (Fetching.next src)) Fetching.NothingShort
      (Fetching.new src dst buffers) x) :
    ((forall held, x.tool.copyPc ≠ .threw held) ->
        x.tool.fileWriter.written <+: x.fetched) ∧
      (x.tool.Final -> x.tool.fileWriter.written = x.fetched) := by
  rcases reaches_fetched hsrc hrun with ⟨held, hheld⟩ | hfetched
  · constructor
    · intro hthrew
      exact absurd hheld (hthrew held)
    · intro hfinal
      rw [hfinal.left] at hheld
      cases hheld
  · exact ⟨fun _ => hfetched.written_prefix hsrc, hfetched.written_all hsrc⟩

/-- Three bytes read with one `fgetc` that falls short by `missing`, then written. -/
def threeBytes (missing : Nat) : List Action :=
  List.replicate 7 (.reading, Io.success) ++
    [(.reading, { Io.success with shortRead := missing })] ++
    List.replicate 6 (.reading, Io.success) ++
    List.replicate 9 (.writing, Io.success)

/-- Arrays that hold zeros. -/
def zeros (_ : Nat) : List UInt8 :=
  List.replicate bufferSize 0

theorem Fetching.nothingShort_of_succeeds (x : Fetching) {a : Action}
    (hio : a.2.Succeeds) : x.NothingShort a where
  fgetc := fun _ _ file _ _ => file.load_of_succeeds hio
  fwrite := by
    intro _ _ _
    rw [hio.right.right, Nat.sub_zero, List.take_length]

theorem writes_fetched_threeBytes :
    exists x, exec (Fetching.next [1, 2, 3]) (threeBytes 0)
        (Fetching.new [1, 2, 3] "dst" zeros) = some x ∧ x.tool.Final ∧
      x.tool.fileWriter.written = x.fetched := by
  have hview : (exec (Fetching.next [1, 2, 3]) (threeBytes 0)
      (Fetching.new [1, 2, 3] "dst" zeros)).map
        (fun x => (x.tool.copyPc, x.tool.writingPc)) = some (.returned, .left) := by
    decide +kernel
  rcases Option.map_eq_some_iff.mp hview with ⟨x, hexec, hpcs⟩
  have hfinal : x.tool.Final := Prod.mk.inj hpcs
  have hrun : Reaches (StepOf (Fetching.next [1, 2, 3])) (fun _ a => a.2.Succeeds)
      (Fetching.new [1, 2, 3] "dst" zeros) x :=
    reaches_of_exec (threeBytes 0) (by decide +kernel) hexec
  refine ⟨x, hexec, hfinal, ?_⟩
  exact (writes_fetched [1, 2, 3] (by decide) "dst" zeros x
    (hrun.mono fun y _ hio => y.nothingShort_of_succeeds hio)).right hfinal

/-- The source delivers two of the three bytes, and a zero is written for the third. -/
theorem stale_after_short_read :
    ¬ forall (src : List UInt8) (dst : String) (buffers : Nat -> List UInt8)
      (x : Fetching),
      Reaches (StepOf (Fetching.next src)) anyStep (Fetching.new src dst buffers) x ->
      x.tool.Final -> x.tool.fileWriter.written = x.fetched := by
  intro h
  have hview : (exec (Fetching.next [1, 2, 3]) (threeBytes 1)
      (Fetching.new [1, 2, 3] "dst" zeros)).map
        (fun x => (x.tool.copyPc, x.tool.writingPc, x.tool.fileWriter.written,
          x.fetched)) =
      some (.returned, .left, [1, 2, 0], [1, 2]) := by
    decide +kernel
  rcases Option.map_eq_some_iff.mp hview with ⟨x, hexec, hends⟩
  simp only [Prod.mk.injEq] at hends
  rcases hends with ⟨hcopy, hwriting, hwritten, hfetched⟩
  have heq := h [1, 2, 3] "dst" zeros x (reaches_of_exec_any (threeBytes 1) hexec)
    ⟨hcopy, hwriting⟩
  rw [hwritten, hfetched] at heq
  cases heq

end BPCopyTool
end Common
end Ki
