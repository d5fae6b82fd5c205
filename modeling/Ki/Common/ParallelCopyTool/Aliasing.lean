import Ki.Common.BPCopyTool.Aliasing
import Ki.Common.ParallelCopyTool.Progress

/-!
# The parallel copy tool among the files

Both mappings are shared, so they show what their files hold at every moment.  To
create the destination sets its size to that of the source and truncates nothing
else: a file copied to itself is overwritten with its own bytes.
-/

namespace Ki

namespace Writer

theorem ftruncate_self (file : List UInt8) : ftruncate file file.length = file := by
  simp [ftruncate]

/-- What is there already is stored once more. -/
theorem copyTo_self {file : List UInt8} {offset : Nat} {buf : List UInt8}
    (h : file.take offset ++ buf = file.take (offset + buf.length)) :
    copyTo file offset buf = file := by
  rw [copyTo, h, List.take_append_drop]

end Writer

namespace Common

open Foundation
open Queue
open SynchronizedQueue
open Reader
open Writer
open Stdio

namespace Parallel
namespace ParallelCopyTool

/-- The mappings show what their files hold now. -/
def refresh (s : ParallelCopyTool) (source : List UInt8)
    (destination : Option (List UInt8)) : ParallelCopyTool :=
  { s with
    fileReader := { s.fileReader with
      mmappedFile := s.fileReader.mmappedFile.map fun _ => source }
    fileWriter := { s.fileWriter with file := destination } }

theorem refresh_eq_self {s : ParallelCopyTool} {source : List UInt8}
    (h : forall mapped, s.fileReader.mmappedFile = some mapped -> mapped = source) :
    s.refresh source s.fileWriter.file = s := by
  have hsame : (s.fileReader.mmappedFile.map fun _ => source) =
      s.fileReader.mmappedFile := by
    cases hmapped : s.fileReader.mmappedFile with
    | none => rfl
    | some mapped =>
        rw [h mapped hmapped]
        rfl
  rw [refresh, hsame]

/-- The reader maps the source only. -/
theorem next_mapped {src : List UInt8} {defaultBufferSize : Nat} {a : Action}
    {s s' : ParallelCopyTool}
    (h : forall mapped, s.fileReader.mmappedFile = some mapped -> mapped = src)
    (hok : NoFailure s a) (hstep : next src defaultBufferSize a s = some s') :
    forall mapped, s'.fileReader.mmappedFile = some mapped -> mapped = src := by
  rcases next_cases hok hstep with ⟨_, hcopy⟩ | ⟨_, hwriting⟩
  · cases hcopy with
    | openReader hpc hopen =>
        intro mapped hmapped
        unfold MMapFileReader.open' at hopen
        split at hopen
        · cases hopen
        · cases hopen
          exact (Option.some.inj hmapped).symm
    | finishRead hpc =>
        intro mapped hmapped
        cases hmapped
    | _ => exact h
  · cases hwriting <;> exact h

/-- A destination that holds the source already is never changed. -/
theorem next_keeps_file {src : List UInt8} (hsrc : src.length < 2 ^ 63)
    {defaultBufferSize : Nat} {a : Action} {s s' : ParallelCopyTool} (hinv : Inv src s)
    (h : s.fileWriter.file = some src) (hok : NoFailure s a)
    (hstep : next src defaultBufferSize a s = some s') :
    s'.fileWriter.file = some src := by
  rcases next_cases hok hstep with ⟨_, hcopy⟩ | ⟨_, hwriting⟩
  · cases hcopy with
    | createWriter hpc => simp only [MMapFileWriter.openFile, h, Option.getD_some]
    | resizeWriter hpc =>
        simp only [MMapFileWriter.resize, h, Option.map_some, hinv.data.writeSize,
          ftruncate_self]
    | mapWriter hpc hmmap =>
        unfold MMapFileWriter.mmap at hmmap
        split at hmmap
        · cases hmmap
        · cases hmmap
          exact h
    | _ => exact h
  · cases hwriting with
    | @write buf writer hpc hwrite =>
        have hhand := hinv.data.take_append_inHand
        rw [hpc] at hhand
        have hsame : copyTo src s.fileWriter.currentOffset buf = src := copyTo_self hhand
        rw [hinv.data.write hsrc hpc] at hwrite
        cases hwrite
        simp only [h, Option.map_some, hsame]
    | finishWrite hpc =>
        change s.fileWriter.finishWrite.file = some src
        unfold MMapFileWriter.finishWrite
        split <;> exact h
    | writeThrows hpc hwrite =>
        rw [hinv.data.write hsrc hpc] at hwrite
        cases hwrite
    | _ => exact h

theorem keeps_file {src : List UInt8} (hpos : 1 ≤ src.length)
    (hsrc : src.length < 2 ^ 63) {defaultBufferSize : Nat}
    (hpage : defaultBufferSize < 2 ^ 63) {s : ParallelCopyTool}
    (hrun : Reaches (StepOf (next src defaultBufferSize)) NoFailure
      (new src (some src)) s) : s.fileWriter.file = some src := by
  have hinv : Inv src s ∧ s.fileWriter.file = some src := by
    refine Reaches.invariant (fun x => Inv src x ∧ x.fileWriter.file = some src) ?_ hrun
      ⟨new_inv src (some src), rfl⟩
    intro x a x' hx hguard hstep
    exact ⟨next_inv hpos hsrc hpage hx.left hguard hstep,
      next_keeps_file hsrc hx.left hx.right hguard hstep⟩
  exact hinv.right

end ParallelCopyTool
end Parallel

/-!
# The tool and the files
-/

/-- The tool with the mappings and the files. -/
structure MappedOnFiles (φ : Type) where
  tool : Parallel.ParallelCopyTool
  files : FileSystem φ

namespace MappedOnFiles

open Parallel

variable {φ : Type} [DecidableEq φ]

def new (fs : FileSystem φ) (src dst : String) : MappedOnFiles φ where
  tool := ParallelCopyTool.new ((fs.read src).getD []) (fs.read dst)
  files := fs

/-- What is stored in the mapping of the destination is in its file at once. -/
def next (src dst : String) (defaultBufferSize : Nat) (a : ParallelCopyTool.Action)
    (s : MappedOnFiles φ) : Option (MappedOnFiles φ) :=
  let content := (s.files.read src).getD []
  (ParallelCopyTool.next content defaultBufferSize a
    (s.tool.refresh content (s.files.read dst))).map fun tool =>
      { tool := tool, files := s.files.write dst tool.fileWriter.file }

/-- No system call fails in the step, nor the reservation in `read`. -/
def NoFailure (_ : MappedOnFiles φ) (a : ParallelCopyTool.Action) : Prop :=
  a.2 = false

omit [DecidableEq φ] in
instance (s : MappedOnFiles φ) (a : ParallelCopyTool.Action) :
    Decidable (NoFailure s a) :=
  inferInstanceAs (Decidable (_ = _))

/-- Among the files the tool runs as it does alone. -/
structure Alone (fs : FileSystem φ) (src dst : String) (defaultBufferSize : Nat)
    (bytes : List UInt8) (s : MappedOnFiles φ) : Prop where
  run : Reaches (StepOf (ParallelCopyTool.next bytes defaultBufferSize))
    ParallelCopyTool.NoFailure (ParallelCopyTool.new bytes (fs.read dst)) s.tool
  file : s.files.file = fs.file
  source : s.files.read src = some bytes
  destination : s.files.read dst = s.tool.fileWriter.file
  mapped : forall mapped, s.tool.fileReader.mmappedFile = some mapped -> mapped = bytes

omit [DecidableEq φ] in
theorem new_alone {fs : FileSystem φ} {src : String} (dst : String)
    (defaultBufferSize : Nat) {bytes : List UInt8} (hsrc : fs.read src = some bytes) :
    Alone fs src dst defaultBufferSize bytes (new fs src dst) := by
  refine ⟨?_, rfl, hsrc, rfl, ?_⟩
  · rw [new, hsrc]
    exact Relation.ReflTransGen.refl
  · intro mapped hmapped
    cases hmapped

/-- If the paths lead to one file, it holds the source at every moment. -/
theorem Alone.next {fs : FileSystem φ} {src dst : String} {defaultBufferSize : Nat}
    (hpage : defaultBufferSize < 2 ^ 63) {bytes : List UInt8}
    (hsrc : fs.read src = some bytes) (hpos : 1 ≤ bytes.length)
    (hn : bytes.length < 2 ^ 63) {a : ParallelCopyTool.Action} {s s' : MappedOnFiles φ}
    (h : Alone fs src dst defaultBufferSize bytes s) (hok : NoFailure s a)
    (hnext : MappedOnFiles.next src dst defaultBufferSize a s = some s') :
    Alone fs src dst defaultBufferSize bytes s' := by
  rcases Option.map_eq_some_iff.mp hnext with ⟨tool, htool, rfl⟩
  rw [h.source, Option.getD_some, h.destination,
    ParallelCopyTool.refresh_eq_self h.mapped] at htool
  have hrun := h.run.tail ⟨a, hok, htool⟩
  have hwritten : (s.files.write dst tool.fileWriter.file).read dst =
      tool.fileWriter.file := FileSystem.read_write_same rfl _
  refine ⟨hrun, h.file, ?_, hwritten, ParallelCopyTool.next_mapped h.mapped hok htool⟩
  by_cases hpaths : fs.file src = fs.file dst
  · have hprevious : fs.read dst = some bytes := by
      rw [← hsrc]
      unfold FileSystem.read
      rw [hpaths]
    rw [hprevious] at hrun
    rw [FileSystem.read_write_same (by rw [h.file, hpaths])]
    exact ParallelCopyTool.keeps_file hpos hn hpage hrun
  · rw [FileSystem.read_write_other (by rw [h.file]; exact hpaths)]
    exact h.source

theorem copied {fs : FileSystem φ} {src dst : String} {bytes : List UInt8}
    (hsrc : fs.read src = some bytes) (hpos : 1 ≤ bytes.length)
    (hn : bytes.length < 2 ^ 63) {defaultBufferSize : Nat}
    (hpage : defaultBufferSize < 2 ^ 63) {s : MappedOnFiles φ}
    (hrun : Reaches (StepOf (next src dst defaultBufferSize)) NoFailure
      (new fs src dst) s) (hend : s.tool.Final) : fs.Copied s.files src dst := by
  have halone : Alone fs src dst defaultBufferSize bytes s :=
    Reaches.invariant (Alone fs src dst defaultBufferSize bytes)
      (fun _ _ _ hx hguard hstep => hx.next hpage hsrc hpos hn hguard hstep) hrun
      (new_alone dst defaultBufferSize hsrc)
  have hinv := ParallelCopyTool.reaches_inv hpos hn hpage halone.run
  have hleft : s.tool.writingPc.Left := by
    rw [hend.right]
    trivial
  refine ⟨halone.source.trans hsrc.symm, ?_⟩
  rw [halone.destination, hinv.copied hleft, hsrc]

end MappedOnFiles

/-!
# Both tools
-/

/--
When a tool has run to its end without a failing call, the source holds what it held
before and the destination the same: for the mapping tool always, and for the buffered
one exactly if the paths lead to two files or the source holds only zeros.
-/
theorem copies_onto_files {φ : Type} [DecidableEq φ] (fs : FileSystem φ)
    (src dst : String) (bytes : List UInt8) (hsrc : fs.read src = some bytes)
    (hn : bytes.length < 2 ^ 63) :
    (forall s : BufferedOnFiles φ,
      Reaches (StepOf (BufferedOnFiles.next src dst)) BufferedOnFiles.Succeeds
        (BufferedOnFiles.new fs src dst) s ->
      s.destroyed = true ->
      (fs.Copied s.files src dst <->
        fs.file src ≠ fs.file dst ∨ forall b, b ∈ bytes -> b = 0)) ∧
    forall (defaultBufferSize : Nat) (s : MappedOnFiles φ),
      1 ≤ bytes.length -> defaultBufferSize < 2 ^ 63 ->
      Reaches (StepOf (MappedOnFiles.next src dst defaultBufferSize))
        MappedOnFiles.NoFailure (MappedOnFiles.new fs src dst) s ->
      s.tool.Final -> fs.Copied s.files src dst := by
  constructor
  · intro s hrun hend
    exact BufferedOnFiles.copied_iff hsrc hn hrun hend
  · intro defaultBufferSize s hpos hpage hrun hend
    exact MappedOnFiles.copied hsrc hpos hn hpage hrun hend

/-- Every path leads to a file of its own, and only the source exists. -/
def ownFiles (bytes : List UInt8) : FileSystem String where
  file := id
  contents := fun f => if f = "src" then some bytes else none

/-- All paths lead to one file. -/
def oneFile (bytes : List UInt8) : FileSystem String where
  file := fun _ => "src"
  contents := fun _ => some bytes

/-- The buffered tool copies one chunk and is destroyed. -/
def copiedThenDestroyed : List BufferedOnFiles.Action :=
  BPCopyTool.writerWaits.map BufferedOnFiles.Action.thread ++ [.destroy]

/-- The buffered tool between two files, the mapping one from a file onto itself. -/
theorem copies_onto_files_ownFiles :
    (exists s, exec (BufferedOnFiles.next "src" "dst") copiedThenDestroyed
        (BufferedOnFiles.new (ownFiles [1]) "src" "dst") = some s ∧
      (ownFiles [1]).Copied s.files "src" "dst") ∧
    exists s, exec (MappedOnFiles.next "src" "dst" 4096)
        Parallel.ParallelCopyTool.readerFirst
        (MappedOnFiles.new (oneFile [1]) "src" "dst") = some s ∧
      (oneFile [1]).Copied s.files "src" "dst" := by
  constructor
  · have hview : (exec (BufferedOnFiles.next "src" "dst") copiedThenDestroyed
        (BufferedOnFiles.new (ownFiles [1]) "src" "dst")).map (fun s => s.destroyed) =
        some true := by
      decide +kernel
    rcases Option.map_eq_some_iff.mp hview with ⟨s, hexec, hend⟩
    have hrun : Reaches (StepOf (BufferedOnFiles.next "src" "dst"))
        BufferedOnFiles.Succeeds (BufferedOnFiles.new (ownFiles [1]) "src" "dst") s :=
      reaches_of_exec copiedThenDestroyed (by decide +kernel) hexec
    have hcopies := copies_onto_files (ownFiles [1]) "src" "dst" [1] rfl (by decide)
    exact ⟨s, hexec, (hcopies.left s hrun hend).mpr (Or.inl (by decide))⟩
  · have hview : (exec (MappedOnFiles.next "src" "dst" 4096)
        Parallel.ParallelCopyTool.readerFirst
        (MappedOnFiles.new (oneFile [1]) "src" "dst")).map
          (fun s => (s.tool.copyPc, s.tool.writingPc)) = some (.returned, .left) := by
      decide +kernel
    rcases Option.map_eq_some_iff.mp hview with ⟨s, hexec, hpcs⟩
    have hfinal : s.tool.Final := Prod.mk.inj hpcs
    have hrun : Reaches (StepOf (MappedOnFiles.next "src" "dst" 4096))
        MappedOnFiles.NoFailure (MappedOnFiles.new (oneFile [1]) "src" "dst") s :=
      reaches_of_exec Parallel.ParallelCopyTool.readerFirst (by decide +kernel) hexec
    have hcopies := copies_onto_files (oneFile [1]) "src" "dst" [1] rfl (by decide)
    exact ⟨s, hexec, hcopies.right 4096 s (by decide) (by decide) hrun hfinal⟩

/-- In general the buffered tool does not keep its source. -/
theorem copies_onto_one_file :
    ¬ forall (fs : FileSystem String) (src dst : String) (bytes : List UInt8),
      fs.read src = some bytes -> bytes.length < 2 ^ 63 ->
      forall s : BufferedOnFiles String,
        Reaches (StepOf (BufferedOnFiles.next src dst)) BufferedOnFiles.Succeeds
          (BufferedOnFiles.new fs src dst) s ->
        s.destroyed = true -> fs.Copied s.files src dst := by
  intro h
  have hview : (exec (BufferedOnFiles.next "src" "dst") copiedThenDestroyed
      (BufferedOnFiles.new (oneFile [1]) "src" "dst")).map
        (fun s => (s.destroyed, s.files.read "src")) = some (true, some [0]) := by
    decide +kernel
  rcases Option.map_eq_some_iff.mp hview with ⟨s, hexec, hpair⟩
  rcases Prod.mk.inj hpair with ⟨hend, hread⟩
  have hrun : Reaches (StepOf (BufferedOnFiles.next "src" "dst"))
      BufferedOnFiles.Succeeds (BufferedOnFiles.new (oneFile [1]) "src" "dst") s :=
    reaches_of_exec copiedThenDestroyed (by decide +kernel) hexec
  have hcopied := h (oneFile [1]) "src" "dst" [1] rfl (by decide) s hrun hend
  cases hread.symm.trans hcopied.left

end Common
end Ki
