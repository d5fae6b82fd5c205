import Ki.Common.BPCopyTool.Exactness
import Ki.Common.BPCopyTool.Progress
import Ki.Stdio.FileSystem

/-!
# The buffered parallel copy tool among the files

The tool finds its two files through their paths, and the paths may lead to one
file.  Every step reads what the file of the source holds at that moment, and what
the stream of the writer has passed on is in the file of the destination.  To create
the destination truncates it, so of a file copied to itself only zeros are left.
-/

namespace Ki

/-!
# Zeros
-/

namespace Queue

/-- The arrays of the queue, `buffers{}`. -/
def zeroBuffers : Nat -> List UInt8 :=
  fun _ => List.replicate bufferSize 0

end Queue

namespace Stdio
namespace FILE

open Queue

theorem load_zeros {f : FILE} {n : Nat} (h : f.contents = List.replicate n 0)
    (io : Io) :
    exists k, k ≤ bufferSize ∧ f.load io = List.replicate k 0 := by
  refine ⟨(f.load io).length, ?_, ?_⟩
  · simp only [load, wanted, List.length_take]
    omega
  · simp [load, wanted, h, List.drop_replicate, List.take_replicate]

/-- Zeros, or nothing, loaded into arrays of zeros. -/
theorem fgetcBuffers_zeros {f : FILE} {n : Nat}
    (h : f.contents = List.replicate n 0) (io : Io) :
    f.fgetcBuffers io zeroBuffers = zeroBuffers := by
  unfold fgetcBuffers
  cases f.buffer with
  | none => rfl
  | some data =>
      rcases load_zeros h io with ⟨k, hk, hload⟩
      have hfilled : f.load io ++ (zeroBuffers data).drop (f.load io).length =
          zeroBuffers data := by
        rw [hload, List.length_replicate, zeroBuffers, List.drop_replicate,
          List.replicate_append_replicate, Nat.add_sub_cancel' hk]
      simp only [hfilled]
      exact Function.update_eq_self data zeroBuffers

end FILE
end Stdio

/-!
# Another source behind the stream

As long as all arrays and all the bytes read are zeros, the tool makes the same steps
whatever the length of the file it finds.
-/

namespace Reader
namespace BufferedReader

open Queue
open FixedBufferQueue
open Clients
open Stdio

def setFileDesc (reader : BufferedReader) (fd : Option FILE) :
    BufferedReader :=
  { reader with fileDesc := fd }

/-- A stream of `n` zeros stands in for one of a source of zeros. -/
structure StandsIn (n : Nat) (fd fileDesc : Option FILE) : Prop where
  isOpen : fd.isSome = fileDesc.isSome
  contents : forall f, fd = some f -> f.contents = List.replicate n 0

section Read

variable {ι : Type} [DecidableEq ι]

/-- Outside the fill of a buffer the stream is not used. -/
theorem readStep_setFileDesc (me : ι) (io : Io) (reader : BufferedReader)
    (q : FixedBufferQueue ι) (fd : Option FILE) {pc : ReadPc}
    (hpc : forall buf, pc ≠ .fill buf) :
    (reader.setFileDesc fd).readStep me io q pc =
      (reader.readStep me io q pc).map fun out =>
        (out.1, out.2.1.setFileDesc fd, out.2.2) := by
  cases pc with
  | fill buf => exact absurd rfl (hpc buf)
  | getFreeBuffer pc =>
      rw [readStep, readStep, Option.map_map]
      rfl
  | finishRead buf =>
      rw [readStep, readStep, Option.map_map]
      rfl
  | returnBuffer buf =>
      rw [readStep, readStep, Option.map_map]
      rfl
  | _ => rfl

theorem readStep_frame {me : ι} {io : Io} {reader reader' : BufferedReader}
    {q q' : FixedBufferQueue ι} {pc : ReadPc} {r : ReadResult}
    (hpc : forall buf, pc ≠ .fill buf)
    (h : reader.readStep me io q pc = some (r, reader', q')) :
    reader'.fileDesc = reader.fileDesc ∧ q'.buffers = q.buffers := by
  cases readStep_cases h with
  | getFreeBuffer hget => exact ⟨rfl, getStep_buffers hget⟩
  | setvbufFails buf hfails => exact absurd rfl (hpc buf)
  | fill hopen hok => exact absurd rfl (hpc _)
  | returnBuffer hreturn =>
      rcases returnBuffer_cases hreturn with ⟨_, rfl⟩
      exact ⟨rfl, by simp⟩
  | _ => exact ⟨rfl, rfl⟩

theorem readStep_zeros {n m : Nat} {me : ι} {io : Io} {reader reader' : BufferedReader}
    {q q' : FixedBufferQueue ι} {pc : ReadPc} {r : ReadResult} {fd : Option FILE}
    (hfd : StandsIn n fd reader.fileDesc)
    (hzeros : forall f, reader.fileDesc = some f -> f.contents = List.replicate m 0)
    (hbuffers : q.buffers = zeroBuffers)
    (h : reader.readStep me io q pc = some (r, reader', q')) :
    q'.buffers = zeroBuffers ∧ exists fd', StandsIn n fd' reader'.fileDesc ∧
      (reader.setFileDesc fd).readStep me io q pc =
        some (r, reader'.setFileDesc fd', q') := by
  by_cases hpc : forall buf, pc ≠ .fill buf
  · have hframe := readStep_frame hpc h
    refine ⟨hframe.right.trans hbuffers, fd, ?_, ?_⟩
    · rw [hframe.left]
      exact hfd
    · rw [readStep_setFileDesc me io reader q fd hpc, h]
      rfl
  · simp only [not_forall, not_not] at hpc
    rcases hpc with ⟨buf, rfl⟩
    rw [readStep] at h
    cases hopen : reader.fileDesc with
    | none =>
        rw [hopen] at h
        cases h
    | some file =>
        rw [hopen] at h
        have hother : fd.isSome = true := by
          rw [hfd.isOpen, hopen]
          rfl
        rcases Option.isSome_iff_exists.mp hother with ⟨other, rfl⟩
        have hcontents := hfd.contents other rfl
        have hloaded : (file.setvbuf buf.data).fgetcBuffers io q.buffers = q.buffers := by
          rw [hbuffers]
          exact FILE.fgetcBuffers_zeros (f := file.setvbuf buf.data)
            (hzeros file hopen) io
        have hloaded' : (other.setvbuf buf.data).fgetcBuffers io q.buffers =
            q.buffers := by
          rw [hbuffers]
          exact FILE.fgetcBuffers_zeros (f := other.setvbuf buf.data) hcontents io
        cases hfails : io.fails with
        | true =>
            simp only [hfails, if_true] at h
            cases h
            refine ⟨hbuffers, some other, hfd, ?_⟩
            simp [readStep, setFileDesc, hfails]
        | false =>
            simp only [hfails, hloaded] at h
            cases h
            refine ⟨hbuffers, ((reader.setFileDesc (some other)).afterFgetc
              (other.setvbuf buf.data) io).fileDesc, ⟨rfl, ?_⟩, ?_⟩
            · intro f hf
              cases hf
              split <;> exact hcontents
            · simp only [readStep, setFileDesc, hfails, hloaded']
              rfl

end Read

end BufferedReader
end Reader

namespace Common

open Foundation
open Queue
open FixedBufferQueue
open Clients
open Reader
open BufferedReader
open Writer
open BufferedFileWriter
open Stdio

theorem eq_zeros_of_prefix {l : List UInt8} {n : Nat}
    (h : l <+: List.replicate n 0) : l = List.replicate l.length 0 :=
  (List.prefix_replicate_iff.mp h).right

theorem eq_zeros_iff {l : List UInt8} :
    l = List.replicate l.length 0 <-> forall b, b ∈ l -> b = 0 := by
  simp [List.eq_replicate_iff]

namespace BPCopyTool

def setFileDesc (s : BPCopyTool) (fd : Option FILE) : BPCopyTool :=
  { s with fileReader := s.fileReader.setFileDesc fd }

/-- The open stream of the reader reads what its file holds now. -/
def refresh (s : BPCopyTool) (content : List UInt8) : BPCopyTool :=
  s.setFileDesc (s.fileReader.fileDesc.map fun file => { file with contents := content })

theorem copy_zeros {n : Nat} {content : List UInt8} {io : Io} {s s' : BPCopyTool}
    {fd : Option FILE} (hfd : StandsIn n fd s.fileReader.fileDesc)
    (hzeros : forall pc, s.copyPc = .read pc -> exists m, forall f,
      s.fileReader.fileDesc = some f -> f.contents = List.replicate m 0)
    (hbuffers : s.queue.buffers = zeroBuffers) (h : s.copy content io = some s') :
    s'.queue.buffers = zeroBuffers ∧ exists fd',
      StandsIn n fd' s'.fileReader.fileDesc ∧
      (s.setFileDesc fd).copy (List.replicate n 0) io = some (s'.setFileDesc fd') := by
  unfold copy at h
  cases hpc : s.copyPc with
  | openReader =>
      rw [hpc] at h
      cases hfails : io.fails with
      | true =>
          simp only [hfails, if_true] at h
          cases h
          refine ⟨hbuffers, fd, hfd, ?_⟩
          simp [copy, setFileDesc, hpc, hfails]
      | false =>
          simp only [hfails] at h
          cases h
          refine ⟨hbuffers, some (FILE.fopen (List.replicate n 0)), ⟨rfl, ?_⟩, ?_⟩
          · intro f hf
            cases hf
            rfl
          · simp [copy, setFileDesc, BufferedReader.setFileDesc, BufferedReader.open',
              hpc, hfails]
  | createWriter =>
      rw [hpc] at h
      cases hfails : io.fails with
      | true =>
          simp only [hfails, if_true] at h
          cases h
          refine ⟨hbuffers, fd, hfd, ?_⟩
          simp [copy, setFileDesc, hpc, hfails]
      | false =>
          simp only [hfails] at h
          cases h
          refine ⟨hbuffers, fd, hfd, ?_⟩
          simp [copy, setFileDesc, hpc, hfails]
  | read pc =>
      rw [hpc] at h
      rcases Option.map_eq_some_iff.mp h with ⟨⟨r, reader, q⟩, hread, rfl⟩
      rcases hzeros pc hpc with ⟨m, hm⟩
      rcases readStep_zeros hfd hm hbuffers hread with ⟨hkept, fd', hfd', hread'⟩
      refine ⟨hkept, fd', hfd', ?_⟩
      simp [copy, setFileDesc, hpc, hread']
  | returned =>
      rw [hpc] at h
      cases h
  | threw held =>
      rw [hpc] at h
      cases h
  | _ =>
      rw [hpc] at h
      cases h
      refine ⟨hbuffers, fd, hfd, ?_⟩
      simp [copy, setFileDesc, BufferedReader.setFileDesc, hpc]

theorem writingFunction_setFileDesc (io : Io) (s : BPCopyTool) (fd : Option FILE) :
    (s.setFileDesc fd).writingFunction io =
      (s.writingFunction io).map fun s' => s'.setFileDesc fd := by
  unfold writingFunction
  cases hpc : s.writingPc with
  | testEmpty =>
      simp only [setFileDesc, hpc, Option.map_map]
      rfl
  | write pc =>
      simp only [setFileDesc, hpc, Option.map_map]
      rfl
  | _ => simp [setFileDesc, BufferedReader.setFileDesc, hpc]

theorem WritingStep.frame {io : Io} {s s' : BPCopyTool} (h : WritingStep io s s') :
    s'.queue.buffers = s.queue.buffers ∧ s'.fileReader = s.fileReader := by
  cases h with
  | write hpc hwrite => exact ⟨writeStep_buffers hwrite, rfl⟩
  | _ => exact ⟨rfl, rfl⟩

theorem next_zeros {n : Nat} {content : List UInt8} {a : Action} {s s' : BPCopyTool}
    {fd : Option FILE} (hfd : StandsIn n fd s.fileReader.fileDesc)
    (hzeros : forall pc, s.copyPc = .read pc -> exists m, forall f,
      s.fileReader.fileDesc = some f -> f.contents = List.replicate m 0)
    (hbuffers : s.queue.buffers = zeroBuffers) (h : next content a s = some s') :
    s'.queue.buffers = zeroBuffers ∧ exists fd',
      StandsIn n fd' s'.fileReader.fileDesc ∧
      next (List.replicate n 0) a (s.setFileDesc fd) = some (s'.setFileDesc fd') := by
  rcases a with ⟨thread, io⟩
  cases thread with
  | reading => exact copy_zeros hfd hzeros hbuffers h
  | writing =>
      have hframe := (writingFunction_cases h).frame
      refine ⟨hframe.left.trans hbuffers, fd, ?_, ?_⟩
      · rw [hframe.right]
        exact hfd
      · change s.writingFunction io = some s' at h
        change (s.setFileDesc fd).writingFunction io = some (s'.setFileDesc fd)
        rw [writingFunction_setFileDesc, h]
        rfl

/-- A source that is read as it was opened. -/
theorem next_contents {src : List UInt8} {a : Action} {s s' : BPCopyTool}
    (h : forall f, s.fileReader.fileDesc = some f -> f.contents = src)
    (hstep : next src a s = some s') :
    forall f, s'.fileReader.fileDesc = some f -> f.contents = src := by
  rcases next_cases hstep with ⟨_, hcopy⟩ | ⟨_, hwriting⟩
  · cases hcopy with
    | openReader hpc =>
        intro f hf
        cases hf
        rfl
    | read hpc hread =>
        cases readStep_cases hread with
        | fill hopen hok =>
            intro f hf
            have hcontents := h _ hopen
            cases hf
            split <;> exact hcontents
        | _ => exact h
    | _ => exact h
  · rw [hwriting.frame.right]
    exact h

theorem reaches_control {src : List UInt8} {dst : String} {buffers : Nat -> List UInt8}
    {s : BPCopyTool}
    (hrun : Reaches (StepOf (next src)) Succeeds (new src dst buffers) s) :
    Control s := by
  refine Reaches.invariant Control ?_ hrun (new_control src dst buffers)
  intro x a x' hx hguard hstep
  rcases next_cases hstep with ⟨_, hcopy⟩ | ⟨_, hwriting⟩
  · exact hcopy.control hguard.left hx
  · exact hwriting.control hx

theorem refresh_eq_self {s : BPCopyTool} {src : List UInt8}
    (h : forall f, s.fileReader.fileDesc = some f -> f.contents = src) :
    s.refresh src = s := by
  have hsame : (s.fileReader.fileDesc.map fun file => { file with contents := src }) =
      s.fileReader.fileDesc := by
    cases hopen : s.fileReader.fileDesc with
    | none => rfl
    | some file =>
        rw [← h file hopen]
        rfl
  rw [refresh, hsame]
  rfl

end BPCopyTool

/-!
# The tool and the files
-/

/-- The buffered tool and the files, before and after the tool has been destroyed. -/
structure BufferedOnFiles (φ : Type) where
  tool : BPCopyTool
  files : FileSystem φ
  destroyed : Bool

namespace BufferedOnFiles

variable {φ : Type} [DecidableEq φ]

def new (fs : FileSystem φ) (src dst : String) : BufferedOnFiles φ where
  tool := BPCopyTool.new ((fs.read src).getD []) dst zeroBuffers
  files := fs
  destroyed := false

/-- The destination holds what its stream, once open, has passed on. -/
def publish (fs : FileSystem φ) (dst : String) (writer : BufferedFileWriter) :
    FileSystem φ :=
  match writer.fileDesc with
  | none => fs
  | some file => fs.write dst (some (file.disk ++ file.cache))

/-- A step of a thread, or the destructor, which joins them and closes the stream. -/
inductive Action where
  | thread (a : BPCopyTool.Action)
  | destroy
deriving DecidableEq, Repr

def next (src dst : String) (a : Action) (s : BufferedOnFiles φ) :
    Option (BufferedOnFiles φ) :=
  match a with
  | .thread a =>
      let content := (s.files.read src).getD []
      (BPCopyTool.next content a (s.tool.refresh content)).map fun tool =>
        { s with tool := tool, files := publish s.files dst tool.fileWriter }
  | .destroy =>
      if s.tool.copyPc = .returned ∧ s.tool.writingPc = .left ∧ s.destroyed = false then
        some { s with
          files := s.files.write dst (some s.tool.fileWriter.written)
          destroyed := true }
      else none

/-- Every stdio call of the step succeeds. -/
def Succeeds (_ : BufferedOnFiles φ) : Action -> Prop
  | .thread a => a.2.Succeeds
  | .destroy => True

omit [DecidableEq φ] in
instance (s : BufferedOnFiles φ) (a : Action) : Decidable (Succeeds s a) :=
  match a with
  | .thread a => inferInstanceAs (Decidable a.2.Succeeds)
  | .destroy => isTrue trivial

/-- The steps of the tool among the files, guards included. -/
inductive OnFilesStep (src dst : String) (s : BufferedOnFiles φ) :
    Action -> BufferedOnFiles φ -> Prop where
  | thread {a : BPCopyTool.Action} {tool : BPCopyTool}
      (hnext : BPCopyTool.next ((s.files.read src).getD []) a
        (s.tool.refresh ((s.files.read src).getD [])) = some tool) :
      OnFilesStep src dst s (.thread a)
        { s with tool := tool, files := publish s.files dst tool.fileWriter }
  | destroy (hfinal : s.tool.Final) (hlive : s.destroyed = false) :
      OnFilesStep src dst s .destroy
        { s with
          files := s.files.write dst (some s.tool.fileWriter.written)
          destroyed := true }

theorem next_cases {src dst : String} {a : Action} {s s' : BufferedOnFiles φ}
    (h : next src dst a s = some s') : OnFilesStep src dst s a s' := by
  cases a with
  | thread a =>
      rcases Option.map_eq_some_iff.mp h with ⟨tool, hnext, rfl⟩
      exact OnFilesStep.thread hnext
  | destroy =>
      rw [next] at h
      split at h
      · rename_i hready
        cases h
        exact OnFilesStep.destroy ⟨hready.left, hready.right.left⟩ hready.right.right
      · cases h

@[simp] theorem publish_file (fs : FileSystem φ) (dst : String)
    (writer : BufferedFileWriter) : (publish fs dst writer).file = fs.file := by
  unfold publish
  split <;> rfl

theorem read_publish_other {fs : FileSystem φ} {dst path : String}
    (h : fs.file path ≠ fs.file dst) (writer : BufferedFileWriter) :
    (publish fs dst writer).read path = fs.read path := by
  unfold publish
  split
  · rfl
  · exact FileSystem.read_write_other h _

theorem read_publish_same {fs : FileSystem φ} {dst path : String}
    (h : fs.file path = fs.file dst) {writer : BufferedFileWriter} {file : OutFILE}
    (hopen : writer.fileDesc = some file) :
    (publish fs dst writer).read path = some (file.disk ++ file.cache) := by
  rw [publish, hopen]
  exact FileSystem.read_write_same h _

/-!
# Two files
-/

/-- The tool among two different files runs as it does alone. -/
structure Apart (fs : FileSystem φ) (src dst : String) (bytes : List UInt8)
    (s : BufferedOnFiles φ) : Prop where
  run : Reaches (StepOf (BPCopyTool.next bytes)) BPCopyTool.Succeeds
    (BPCopyTool.new bytes dst zeroBuffers) s.tool
  file : s.files.file = fs.file
  source : s.files.read src = some bytes
  opened : forall f, s.tool.fileReader.fileDesc = some f -> f.contents = bytes
  final : s.destroyed = true ->
    s.tool.Final ∧ s.files.read dst = some s.tool.fileWriter.written

omit [DecidableEq φ] in
theorem new_apart {fs : FileSystem φ} {src : String} (dst : String)
    {bytes : List UInt8} (hsrc : fs.read src = some bytes) :
    Apart fs src dst bytes (new fs src dst) := by
  refine ⟨?_, rfl, hsrc, ?_, ?_⟩
  · rw [new, hsrc]
    exact Relation.ReflTransGen.refl
  · intro f hf
    cases hf
  · intro hdestroyed
    cases hdestroyed

theorem Apart.next {fs : FileSystem φ} {src dst : String} {bytes : List UInt8}
    (hpaths : fs.file src ≠ fs.file dst) {a : Action} {s s' : BufferedOnFiles φ}
    (h : Apart fs src dst bytes s) (hok : Succeeds s a)
    (hnext : BufferedOnFiles.next src dst a s = some s') :
    Apart fs src dst bytes s' := by
  have hother : s.files.file src ≠ s.files.file dst := by
    rw [h.file]
    exact hpaths
  cases next_cases hnext with
  | @thread a tool hthread =>
      rw [h.source, Option.getD_some, BPCopyTool.refresh_eq_self h.opened] at hthread
      refine ⟨h.run.tail ⟨a, hok, hthread⟩, ?_, ?_, ?_, ?_⟩
      · rw [publish_file]
        exact h.file
      · rw [read_publish_other hother]
        exact h.source
      · exact BPCopyTool.next_contents h.opened hthread
      · intro hdestroyed
        exact absurd hthread ((h.final hdestroyed).left.stuck a tool)
  | destroy hfinal hlive =>
      refine ⟨h.run, h.file, ?_, h.opened, ?_⟩
      · rw [FileSystem.read_write_other hother]
        exact h.source
      · intro _
        exact ⟨hfinal, FileSystem.read_write_same rfl _⟩

/-!
# One file
-/

/-- The tool on one file under two paths runs as it does alone on a source of zeros. -/
structure Aliased (fs : FileSystem φ) (src dst : String) (n : Nat)
    (s : BufferedOnFiles φ) (fd : Option FILE) : Prop where
  run : Reaches (StepOf (BPCopyTool.next (List.replicate n 0))) BPCopyTool.Succeeds
    (BPCopyTool.new (List.replicate n 0) dst zeroBuffers) (s.tool.setFileDesc fd)
  standsIn : StandsIn n fd s.tool.fileReader.fileDesc
  buffers : s.tool.queue.buffers = zeroBuffers
  file : s.files.file = fs.file
  /-- what the reader finds is what the writer has passed on -/
  shared : s.destroyed = false -> forall file, s.tool.fileWriter.fileDesc = some file ->
    s.files.read src = some (file.disk ++ file.cache)
  final : s.destroyed = true ->
    s.tool.Final ∧ s.files.read src = some s.tool.fileWriter.written

omit [DecidableEq φ] in
theorem new_aliased {fs : FileSystem φ} {src : String} (dst : String)
    {bytes : List UInt8} (hsrc : fs.read src = some bytes) :
    Aliased fs src dst bytes.length (new fs src dst) none := by
  refine ⟨?_, ⟨rfl, ?_⟩, rfl, rfl, ?_, ?_⟩
  · have hnew : (new fs src dst).tool.setFileDesc none =
        BPCopyTool.new (List.replicate bytes.length 0) dst zeroBuffers := by
      simp [new, hsrc, BPCopyTool.new, BPCopyTool.setFileDesc, setFileDesc,
        BufferedReader.new]
    rw [hnew]
  · intro f hf
    cases hf
  · intro _ file hfile
    cases hfile
  · intro hdestroyed
    cases hdestroyed

omit [DecidableEq φ] in
/-- The reader reads nothing but zeros: the file has been truncated before. -/
theorem Aliased.reads_zeros {fs : FileSystem φ} {src dst : String} {n : Nat}
    (hn : n < 2 ^ 63) {s : BufferedOnFiles φ} {fd : Option FILE}
    (h : Aliased fs src dst n s fd) {pc : ReadPc} (hpc : s.tool.copyPc = .read pc) :
    exists m, (s.files.read src).getD [] = List.replicate m 0 := by
  have hcontrol := BPCopyTool.reaches_control h.run
  have hready := hcontrol.writer (by
    change s.tool.copyPc.created = true
    rw [hpc]
    rfl)
  have hlive : s.destroyed = false := by
    cases hdestroyed : s.destroyed with
    | true =>
        have hreturned := (h.final hdestroyed).left.left
        rw [hpc] at hreturned
        cases hreturned
    | false => rfl
  rcases Option.ne_none_iff_exists'.mp hready.isOpen with ⟨file, hfile⟩
  have hshared := h.shared hlive file hfile
  have hwritten : s.tool.fileWriter.written = file.disk ++ file.cache ++ file.buffer := by
    change s.tool.fileWriter.fileDesc = some file at hfile
    rw [BufferedFileWriter.written, hfile]
    rfl
  rcases BPCopyTool.reaches_data (by rwa [List.length_replicate]) h.run with
    ⟨returned, delivered, hlinked, hdata⟩
  have hprefix : s.tool.fileWriter.written <+: List.replicate n 0 :=
    (hdata.written_prefix hlinked).trans (List.take_prefix _ _)
  rw [hwritten] at hprefix
  rw [hshared, Option.getD_some]
  exact ⟨_, eq_zeros_of_prefix ((List.prefix_append _ _).trans hprefix)⟩

theorem Aliased.next {fs : FileSystem φ} {src dst : String} {n : Nat}
    (hpaths : fs.file src = fs.file dst) (hn : n < 2 ^ 63) {a : Action}
    {s s' : BufferedOnFiles φ} {fd : Option FILE} (h : Aliased fs src dst n s fd)
    (hok : Succeeds s a) (hnext : BufferedOnFiles.next src dst a s = some s') :
    exists fd', Aliased fs src dst n s' fd' := by
  have hsame : s.files.file src = s.files.file dst := by
    rw [h.file]
    exact hpaths
  cases next_cases hnext with
  | @thread a tool hthread =>
      have hfd : StandsIn n fd
          (s.tool.refresh ((s.files.read src).getD [])).fileReader.fileDesc := by
        refine ⟨?_, h.standsIn.contents⟩
        rw [h.standsIn.isOpen]
        exact Option.isSome_map.symm
      have hzeros : forall pc, s.tool.copyPc = .read pc -> exists m, forall f,
          (s.tool.refresh ((s.files.read src).getD [])).fileReader.fileDesc = some f ->
            f.contents = List.replicate m 0 := by
        intro pc hpc
        rcases h.reads_zeros hn hpc with ⟨m, hm⟩
        refine ⟨m, ?_⟩
        intro f hf
        rcases Option.map_eq_some_iff.mp hf with ⟨file, _, rfl⟩
        exact hm
      rcases BPCopyTool.next_zeros hfd hzeros h.buffers hthread with
        ⟨hbuffers, fd', hfd', hstep⟩
      refine ⟨fd', h.run.tail ⟨a, hok, hstep⟩, hfd', hbuffers, ?_, ?_, ?_⟩
      · rw [publish_file]
        exact h.file
      · intro _ file hfile
        exact read_publish_same hsame hfile
      · intro hdestroyed
        have hfinal : (s.tool.setFileDesc fd).Final := (h.final hdestroyed).left
        exact absurd hstep (hfinal.stuck a _)
  | destroy hfinal hlive =>
      refine ⟨fd, h.run, h.standsIn, h.buffers, h.file, ?_, ?_⟩
      · intro hdestroyed
        cases hdestroyed
      · intro _
        exact ⟨hfinal, FileSystem.read_write_same hsame _⟩

/--
When the tool has run to its end, the source is what it was and the destination the
same, exactly if the paths lead to two files or the source holds only zeros.
-/
theorem copied_iff {fs : FileSystem φ} {src dst : String} {bytes : List UInt8}
    (hsrc : fs.read src = some bytes) (hn : bytes.length < 2 ^ 63)
    {s : BufferedOnFiles φ}
    (hrun : Reaches (StepOf (next src dst)) Succeeds (new fs src dst) s)
    (hend : s.destroyed = true) :
    fs.Copied s.files src dst <->
      fs.file src ≠ fs.file dst ∨ forall b, b ∈ bytes -> b = 0 := by
  unfold FileSystem.Copied
  rw [hsrc]
  by_cases hpaths : fs.file src = fs.file dst
  · have haliased : exists fd, Aliased fs src dst bytes.length s fd := by
      refine Reaches.invariant (fun x => exists fd, Aliased fs src dst bytes.length x fd)
        ?_ hrun ⟨none, new_aliased dst hsrc⟩
      rintro x a x' ⟨fd, hx⟩ hguard hstep
      exact hx.next hpaths hn hguard hstep
    rcases haliased with ⟨fd, haliased⟩
    have hfinal := haliased.final hend
    rcases BPCopyTool.reaches_data (by rwa [List.length_replicate]) haliased.run with
      ⟨returned, delivered, hlinked, hdata⟩
    have hall := hdata.written_all hlinked hfinal.left.right
    have hwritten : s.tool.fileWriter.written = List.replicate bytes.length 0 := hall
    have hread : s.files.read dst = s.files.read src := by
      unfold FileSystem.read
      rw [haliased.file, hpaths]
    rw [hread, hfinal.right, hwritten, and_self, Option.some.injEq, eq_comm, eq_zeros_iff]
    simp [hpaths]
  · have hapart : Apart fs src dst bytes s :=
      Reaches.invariant (Apart fs src dst bytes)
        (fun _ _ _ hx hguard hstep => hx.next hpaths hguard hstep) hrun
        (new_apart dst hsrc)
    have hfinal := hapart.final hend
    rcases BPCopyTool.reaches_data hn hapart.run with
      ⟨returned, delivered, hlinked, hdata⟩
    have hwritten := hdata.written_all hlinked hfinal.left.right
    rw [hwritten] at hfinal
    exact ⟨fun _ => Or.inl hpaths, fun _ => ⟨hapart.source, hfinal.right⟩⟩

end BufferedOnFiles
end Common
end Ki
