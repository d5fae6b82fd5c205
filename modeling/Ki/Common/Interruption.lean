import Ki.Common.ParallelCopyTool.Aliasing
import Ki.Writer.MMapWrites

/-!
# What an interrupted copy leaves behind

A process may be killed at any moment, and then its files stay as they are.  The
buffered tool leaves a part of the source under the destination, the mapping one a
file that has its final length from the start and is overwritten page by page.
-/

namespace Ki

namespace Stdio
namespace FileSystem

variable {φ : Type}

/-- All paths that do not lead to the file of `path` read as before. -/
def SameBut (fs fs' : FileSystem φ) (path : String) : Prop :=
  forall path', fs.file path' ≠ fs.file path -> fs'.read path' = fs.read path'

theorem sameBut_refl (fs : FileSystem φ) (path : String) : fs.SameBut fs path :=
  fun _ _ => rfl

theorem SameBut.write [DecidableEq φ] {fs fs' : FileSystem φ} {path : String}
    (h : fs.SameBut fs' path) (hfile : fs'.file = fs.file)
    (content : Option (List UInt8)) : fs.SameBut (fs'.write path content) path := by
  intro path' hne
  rw [read_write_other (by rw [hfile]; exact hne)]
  exact h path' hne

end FileSystem
end Stdio

namespace Common

open Foundation
open Queue
open SynchronizedQueue
open Reader
open Writer
open Stdio

namespace BufferedOnFiles

variable {φ : Type} [DecidableEq φ]

/-- The destination is untouched, or what is in it is a part of the source. -/
structure Partial (fs : FileSystem φ) (dst : String) (bytes : List UInt8)
    (s : BufferedOnFiles φ) : Prop where
  others : fs.SameBut s.files dst
  destination : s.files.read dst = fs.read dst ∨
    exists written, s.files.read dst = some written ∧ written <+: bytes

theorem Apart.keepsPartial {fs : FileSystem φ} {src dst : String} {bytes : List UInt8}
    (hn : bytes.length < 2 ^ 63) {a : Action} {s s' : BufferedOnFiles φ}
    (h : Apart fs src dst bytes s) (h' : Apart fs src dst bytes s')
    (hpart : Partial fs dst bytes s)
    (hnext : BufferedOnFiles.next src dst a s = some s') :
    Partial fs dst bytes s' := by
  rcases BPCopyTool.reaches_data hn h'.run with ⟨returned, delivered, hlinked, hdata⟩
  have hprefix : s'.tool.fileWriter.written <+: bytes :=
    (hdata.written_prefix hlinked).trans (List.take_prefix _ _)
  cases next_cases hnext with
  | @thread a tool hthread =>
      cases hopen : tool.fileWriter.fileDesc with
      | none =>
          have hsame : publish s.files dst tool.fileWriter = s.files := by
            rw [publish, hopen]
          constructor
          · rw [hsame]
            exact hpart.others
          · rw [hsame]
            exact hpart.destination
      | some file =>
          constructor
          · intro path hne
            rw [read_publish_other (by rw [h.file]; exact hne)]
            exact hpart.others path hne
          · have hwritten : tool.fileWriter.written =
                file.disk ++ file.cache ++ file.buffer := by
              rw [BufferedFileWriter.written, hopen]
              rfl
            right
            refine ⟨_, read_publish_same rfl hopen, ?_⟩
            exact List.IsPrefix.trans ⟨file.buffer, hwritten.symm⟩ hprefix
  | destroy hfinal hlive =>
      exact ⟨hpart.others.write h.file _,
        Or.inr ⟨_, FileSystem.read_write_same rfl _, hprefix⟩⟩

theorem reaches_partial {fs : FileSystem φ} {src dst : String} {bytes : List UInt8}
    (hsrc : fs.read src = some bytes) (hpaths : fs.file src ≠ fs.file dst)
    (hn : bytes.length < 2 ^ 63) {s : BufferedOnFiles φ}
    (hrun : Reaches (StepOf (next src dst)) Succeeds (new fs src dst) s) :
    Partial fs dst bytes s := by
  have hboth : Apart fs src dst bytes s ∧ Partial fs dst bytes s := by
    refine Reaches.invariant (fun x => Apart fs src dst bytes x ∧ Partial fs dst bytes x)
      ?_ hrun ⟨new_apart dst hsrc, FileSystem.sameBut_refl fs dst, Or.inl rfl⟩
    intro x a x' hx hguard hstep
    have hx' := hx.left.next hpaths hguard hstep
    exact ⟨hx', hx.left.keepsPartial hn hx' hx.right hstep⟩
  exact hboth.right

end BufferedOnFiles

namespace Parallel
namespace ParallelCopyTool

/-- The destination, resized once it has been created, is overwritten from its start. -/
structure Overwrites (src : List UInt8) (previous : Option (List UInt8))
    (s : ParallelCopyTool) : Prop where
  unopened : s.copyPc = .openReader ∨ s.copyPc = .createWriter ->
    s.fileWriter.file = previous
  opened : s.copyPc = .resizeWriter -> s.fileWriter.file = some (previous.getD [])
  created : s.copyPc.created = true -> s.fileWriter.file =
    some (src.take s.fileWriter.currentOffset ++
      (ftruncate (previous.getD []) src.length).drop s.fileWriter.currentOffset)

theorem Overwrites.of_created {src : List UInt8} {previous : Option (List UInt8)}
    {s : ParallelCopyTool} (hcreated : s.copyPc.created = true)
    (hfile : s.fileWriter.file = some (src.take s.fileWriter.currentOffset ++
      (ftruncate (previous.getD []) src.length).drop s.fileWriter.currentOffset)) :
    Overwrites src previous s := by
  constructor
  · rintro (hpc | hpc)
    · rw [hpc] at hcreated
      cases hcreated
    · rw [hpc] at hcreated
      cases hcreated
  · intro hpc
    rw [hpc] at hcreated
    cases hcreated
  · exact fun _ => hfile

theorem Overwrites.next {src : List UInt8} (hsrc : src.length < 2 ^ 63)
    {defaultBufferSize : Nat} {previous : Option (List UInt8)} {a : Action}
    {s s' : ParallelCopyTool} (hinv : Inv src s) (h : Overwrites src previous s)
    (hok : NoFailure s a) (hstep : next src defaultBufferSize a s = some s') :
    Overwrites src previous s' := by
  rcases next_cases hok hstep with ⟨_, hcopy⟩ | ⟨_, hwriting⟩
  · cases hcopy with
    | openReader hpc hopen =>
        exact ⟨fun _ => h.unopened (Or.inl hpc), by simp, by simp [CopyPc.created]⟩
    | openFails hpc hopen => exact ⟨by simp, by simp, by simp [CopyPc.created]⟩
    | createWriter hpc =>
        have hold := h.unopened (Or.inr hpc)
        refine ⟨by simp, ?_, by simp [CopyPc.created]⟩
        intro _
        rw [MMapFileWriter.openFile, hold]
    | resizeWriter hpc =>
        have hold := h.opened hpc
        have hzero := hinv.fileData.uncreated (by rw [hpc]; rfl)
        apply Overwrites.of_created rfl
        simp [MMapFileWriter.resize, hold, hzero, hinv.data.writeSize]
    | mapWriter hpc hmmap =>
        have hfile := h.created (by rw [hpc]; rfl)
        unfold MMapFileWriter.mmap at hmmap
        split at hmmap
        · cases hmmap
        · cases hmmap
          exact Overwrites.of_created rfl hfile
    | mapFails hpc hmmap => exact ⟨by simp, by simp, by simp [CopyPc.created]⟩
    | _ hpc => exact Overwrites.of_created rfl (h.created (by rw [hpc]; rfl))
  · have hstarted : s.writingPc ≠ .notStarted := by
      cases hwriting <;> simp [*]
    have hcreated := (hinv.control.created hstarted).right
    have hfile := h.created hcreated
    cases hwriting with
    | @write buf writer hpc hwrite =>
        have hhand := hinv.data.take_append_inHand
        simp only [hpc, WritingPc.inHand] at hhand
        have hstored := copyTo_take_append_drop
          (ftruncate (previous.getD []) src.length) hinv.data.writeBound hhand
        rw [hinv.data.write hsrc hpc] at hwrite
        cases hwrite
        refine Overwrites.of_created ?_ ?_
        · exact hcreated
        · simp only [hfile, Option.map_some, hstored]
    | writeThrows hpc hwrite =>
        rw [hinv.data.write hsrc hpc] at hwrite
        cases hwrite
    | finishWrite hpc =>
        unfold MMapFileWriter.finishWrite
        split <;> exact Overwrites.of_created hcreated hfile
    | _ => exact Overwrites.of_created hcreated hfile

theorem reaches_overwrites {src : List UInt8} (hpos : 1 ≤ src.length)
    (hsrc : src.length < 2 ^ 63) {defaultBufferSize : Nat}
    (hpage : defaultBufferSize < 2 ^ 63) {previous : Option (List UInt8)}
    {s : ParallelCopyTool}
    (hrun : Reaches (StepOf (next src defaultBufferSize)) NoFailure
      (new src previous) s) : Overwrites src previous s := by
  have hboth : Inv src s ∧ Overwrites src previous s := by
    refine Reaches.invariant (fun x => Inv src x ∧ Overwrites src previous x) ?_ hrun
      ⟨new_inv src previous, fun _ => rfl, by simp [new], by simp [new, CopyPc.created]⟩
    intro x a x' hx hguard hstep
    exact ⟨next_inv hpos hsrc hpage hx.left hguard hstep,
      hx.right.next hsrc hx.left hguard hstep⟩
  exact hboth.right

/-- Where the destination stands before the first byte is stored in it. -/
theorem Overwrites.cases {src : List UInt8} {previous : Option (List UInt8)}
    {s : ParallelCopyTool} (hcontrol : Control src s) (h : Overwrites src previous s) :
    s.fileWriter.file = previous ∨ s.fileWriter.file = some (previous.getD []) ∨
      s.fileWriter.file = some (src.take s.fileWriter.currentOffset ++
        (ftruncate (previous.getD []) src.length).drop s.fileWriter.currentOffset) := by
  cases hpc : s.copyPc with
  | openReader => exact Or.inl (h.unopened (Or.inl hpc))
  | createWriter => exact Or.inl (h.unopened (Or.inr hpc))
  | resizeWriter => exact Or.inr (Or.inl (h.opened hpc))
  | threw => exact absurd hpc hcontrol.notThrown
  | _ => exact Or.inr (Or.inr (h.created (by rw [hpc]; rfl)))

/-- What stands in the destination while a page is stored. -/
theorem Overwrites.storing {src : List UInt8} {previous : Option (List UInt8)}
    {s : ParallelCopyTool} (hinv : Inv src s) (h : Overwrites src previous s)
    {buf file file' : List UInt8} (hpc : s.writingPc = .write buf)
    (hfile : s.fileWriter.file = some file)
    (hstoring : PartlyStored file s.fileWriter.currentOffset buf file') :
    Overwritten src (ftruncate (previous.getD []) src.length) s.fileWriter.currentOffset
      buf.length file' := by
  have hcreated := (hinv.control.created (by simp [hpc])).right
  have hhand := hinv.data.take_append_inHand
  have hoffset := hinv.data.offset
  have hread := hinv.data.readBound
  simp only [hpc, WritingPc.inHand] at hhand hoffset
  rw [h.created hcreated, Option.some.injEq] at hfile
  subst hfile
  exact hstoring.overwritten (ftruncate_length _ _) (by omega) hhand

end ParallelCopyTool
end Parallel

namespace MappedOnFiles

open Parallel

variable {φ : Type} [DecidableEq φ]

theorem reaches_sameBut {fs : FileSystem φ} {src dst : String} {defaultBufferSize : Nat}
    {s : MappedOnFiles φ}
    (hrun : Reaches (StepOf (next src dst defaultBufferSize)) anyStep (new fs src dst) s) :
    fs.SameBut s.files dst := by
  have hboth : s.files.file = fs.file ∧ fs.SameBut s.files dst := by
    refine Reaches.invariant (fun x => x.files.file = fs.file ∧ fs.SameBut x.files dst) ?_
      hrun ⟨rfl, FileSystem.sameBut_refl fs dst⟩
    intro x a x' hx _ hstep
    rcases Option.map_eq_some_iff.mp hstep with ⟨tool, _, rfl⟩
    exact ⟨hx.left, hx.right.write hx.left _⟩
  exact hboth.right

theorem reaches_alone {fs : FileSystem φ} {src dst : String} {bytes : List UInt8}
    (hsrc : fs.read src = some bytes) (hpos : 1 ≤ bytes.length)
    (hn : bytes.length < 2 ^ 63) {defaultBufferSize : Nat}
    (hpage : defaultBufferSize < 2 ^ 63) {s : MappedOnFiles φ}
    (hrun : Reaches (StepOf (next src dst defaultBufferSize)) NoFailure
      (new fs src dst) s) : Alone fs src dst defaultBufferSize bytes s :=
  Reaches.invariant (Alone fs src dst defaultBufferSize bytes)
    (fun _ _ _ hx hguard hstep => hx.next hpage hsrc hpos hn hguard hstep) hrun
    (new_alone dst defaultBufferSize hsrc)

end MappedOnFiles

/--
At every moment of a copy all other files are as they were.  What the buffered tool has
put under the destination so far is a part of the source; the mapping one has created the
destination, or given it the length of the source and overwritten it up to the writer's
offset.  While it stores a page the bytes in its place are the old ones or the new.
-/
theorem interrupted_copy {φ : Type} [DecidableEq φ] (fs : FileSystem φ)
    (src dst : String) (bytes : List UInt8) (hsrc : fs.read src = some bytes)
    (hn : bytes.length < 2 ^ 63) :
    (forall s : BufferedOnFiles φ, fs.file src ≠ fs.file dst ->
      Reaches (StepOf (BufferedOnFiles.next src dst)) BufferedOnFiles.Succeeds
        (BufferedOnFiles.new fs src dst) s ->
      fs.SameBut s.files dst ∧
        (s.files.read dst = fs.read dst ∨
          exists written, s.files.read dst = some written ∧ written <+: bytes)) ∧
    forall (defaultBufferSize : Nat) (s : MappedOnFiles φ),
      1 ≤ bytes.length -> defaultBufferSize < 2 ^ 63 ->
      Reaches (StepOf (MappedOnFiles.next src dst defaultBufferSize))
        MappedOnFiles.NoFailure (MappedOnFiles.new fs src dst) s ->
      fs.SameBut s.files dst ∧
        (s.files.read dst = fs.read dst ∨
          s.files.read dst = some ((fs.read dst).getD []) ∨
          s.files.read dst = some (bytes.take s.tool.fileWriter.currentOffset ++
            (ftruncate ((fs.read dst).getD []) bytes.length).drop
              s.tool.fileWriter.currentOffset)) ∧
        forall buf file file', s.tool.writingPc = .write buf ->
          s.files.read dst = some file ->
          PartlyStored file s.tool.fileWriter.currentOffset buf file' ->
          Overwritten bytes (ftruncate ((fs.read dst).getD []) bytes.length)
            s.tool.fileWriter.currentOffset buf.length file' := by
  constructor
  · intro s hpaths hrun
    have hpart := BufferedOnFiles.reaches_partial hsrc hpaths hn hrun
    exact ⟨hpart.others, hpart.destination⟩
  · intro defaultBufferSize s hpos hpage hrun
    have halone := MappedOnFiles.reaches_alone hsrc hpos hn hpage hrun
    have hoverwrites := Parallel.ParallelCopyTool.reaches_overwrites hpos hn hpage
      halone.run
    have hinv := Parallel.ParallelCopyTool.reaches_inv hpos hn hpage halone.run
    refine ⟨MappedOnFiles.reaches_sameBut (Reaches.mono (fun _ _ _ => trivial) hrun), ?_, ?_⟩
    · rw [halone.destination]
      exact hoverwrites.cases hinv.control
    · intro buf file file' hpc hfile hstoring
      rw [halone.destination] at hfile
      exact hoverwrites.storing hinv hpc hfile hstoring

/-- The buffered tool up to its `fwrite`, which leaves two bytes in the stdio buffer. -/
def killedAfterFwrite : List BufferedOnFiles.Action :=
  (BPCopyTool.writerWaits.take 20).map fun a =>
    .thread (a.1, { Io.success with kept := 2 })

/-- The mapping tool while it stores the first of two pages. -/
def killedInFirstPage : List Parallel.ParallelCopyTool.Action :=
  List.replicate 11 (.reading, false) ++ List.replicate 2 (.writing, false)

theorem interrupted_copy_threeBytes :
    (exists s, exec (BufferedOnFiles.next "src" "dst") killedAfterFwrite
        (BufferedOnFiles.new (ownFiles [1, 2, 3]) "src" "dst") = some s ∧
      s.files.read "dst" = some [1] ∧
      (ownFiles [1, 2, 3]).SameBut s.files "dst") ∧
    exists s, exec (MappedOnFiles.next "src" "dst" 2) killedInFirstPage
        (MappedOnFiles.new (ownFiles [1, 2, 3]) "src" "dst") = some s ∧
      s.files.read "dst" = some [0, 0, 0] ∧
      (ownFiles [1, 2, 3]).SameBut s.files "dst" ∧
      Overwritten [1, 2, 3] [0, 0, 0] 0 2 [1, 0, 0] := by
  have hinterrupted := interrupted_copy (ownFiles [1, 2, 3]) "src" "dst" [1, 2, 3] rfl
    (by decide)
  constructor
  · have hview : (exec (BufferedOnFiles.next "src" "dst") killedAfterFwrite
        (BufferedOnFiles.new (ownFiles [1, 2, 3]) "src" "dst")).map
          (fun s => s.files.read "dst") = some (some [1]) := by
      decide +kernel
    rcases Option.map_eq_some_iff.mp hview with ⟨s, hexec, hread⟩
    have hrun : Reaches (StepOf (BufferedOnFiles.next "src" "dst"))
        BufferedOnFiles.Succeeds
        (BufferedOnFiles.new (ownFiles [1, 2, 3]) "src" "dst") s :=
      reaches_of_exec killedAfterFwrite (by decide +kernel) hexec
    exact ⟨s, hexec, hread, (hinterrupted.left s (by decide) hrun).left⟩
  · have hview : (exec (MappedOnFiles.next "src" "dst" 2) killedInFirstPage
        (MappedOnFiles.new (ownFiles [1, 2, 3]) "src" "dst")).map (fun s =>
          (s.files.read "dst", s.tool.writingPc, s.tool.fileWriter.currentOffset)) =
        some (some [0, 0, 0], .write [1, 2], 0) := by
      decide +kernel
    rcases Option.map_eq_some_iff.mp hview with ⟨s, hexec, hview⟩
    simp only [Prod.mk.injEq] at hview
    rcases hview with ⟨hread, hwriting, hoffset⟩
    have hrun : Reaches (StepOf (MappedOnFiles.next "src" "dst" 2))
        MappedOnFiles.NoFailure
        (MappedOnFiles.new (ownFiles [1, 2, 3]) "src" "dst") s :=
      reaches_of_exec killedInFirstPage (by decide +kernel) hexec
    -- of the first page only the first byte is there yet
    have hstoring : PartlyStored [0, 0, 0] 0 [1, 2] [1, 0, 0] := by
      refine ⟨rfl, fun i => ?_⟩
      match i with
      | 0 => exact Or.inr rfl
      | 1 => exact Or.inl rfl
      | 2 => exact Or.inl rfl
      | _ + 3 => exact Or.inl rfl
    rcases hinterrupted.right 2 s (by decide) (by decide) hrun with ⟨hothers, _, hpage⟩
    rw [hoffset] at hpage
    exact ⟨s, hexec, hread, hothers, hpage _ _ _ hwriting hread hstoring⟩

end Common
end Ki
