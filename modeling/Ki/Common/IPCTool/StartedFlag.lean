import Ki.Common.IPCTool.Handshake
import Ki.Common.IPCTool.Routing

/-!
# The flag that writing has started

The process that created the segment resets `isWritingStarted` in the step in which
it stores its destination.  Until then the stored destination is empty, and a
writer that has taken an empty destination cannot create its output.  So no
writer has started before the reset, and the flag is never taken back.
-/

namespace Ki
namespace IPC

/-- The path of the file the tool is about to create. -/
def Tool.creates : Tool -> Option String
  | .writer fileWriter .create => some fileWriter.fileName
  | _ => Option.none

/-- A tool whose destination is empty, and which has created no file. -/
def Tool.Unnamed (tool : Tool) : Prop :=
  forall fileWriter pc, tool = .writer fileWriter pc ->
    fileWriter.fileName = "" ∧ (pc = .create ∨ pc = .threw)

theorem Tool.Unnamed.of_reader {tool : Tool} (h : tool.toolType = .readerProcess) :
    tool.Unnamed := by
  rintro fileWriter pc rfl
  cases h

end IPC

namespace Common

open Foundation
open Queue
open Reader
open BufferedReader
open Writer
open BufferedFileWriter
open Stdio
open IPC
open IPCTool

variable {ι : Type} [DecidableEq ι]

/-- A checked stdio call of the step fails. -/
def Event.fails : Event -> Bool
  | .run io => io.fails
  | _ => true

/-- `fopen` fails on an empty path. -/
def FopenNeedsPath (s : World ι) (a : World.Action ι) : Prop :=
  (s.proc a.1).phase = .copy -> IsWriter (s.proc a.1) ->
    (s.proc a.1).tool.creates = some "" -> a.2.fails = true

omit [DecidableEq ι] in
instance (s : World ι) (a : World.Action ι) : Decidable (FopenNeedsPath s a) :=
  inferInstanceAs (Decidable (_ -> _ -> _ -> _))

/-!
# One process
-/

/-- The process has created the segment and not stored its destination. -/
def Storing (p : Process) : Prop :=
  p.isFirstProcess_ = true ∧
    (p.phase = .constructProcInfo ∨ p.phase = .getQueue ∨ p.phase = .storeDst)

/-- Only the first process stores its destination. -/
structure FirstStores (p : Process) : Prop where
  attaching : p.phase = .attach -> p.isFirstProcess_ = false
  opening : p.phase = .findProcInfo -> p.isFirstProcess_ = false
  storing : p.phase = .storeDst -> p.isFirstProcess_ = true

theorem ProcessStep.firstStores {args : Args} {me : ι} {event : Event}
    {sh sh' : Segment ι} {p p' : Process} (h : FirstStores p)
    (hstep : ProcessStep args me sh p event p' sh') : FirstStores p' := by
  rcases hstep.stage with hstart | hleave | hcopy | hlingers
  · have hattaching := h.attaching
    have hstoring := h.storing
    cases hstart <;> constructor <;> simp_all [Process.crash]
  · cases hleave <;> constructor <;>
    · intro hphase
      cases hphase
  · have hphase := hcopy.after
    constructor <;> intro hstart <;> rw [hstart] at hphase <;> simp at hphase
  · rcases hlingers.same with ⟨timer, named, rfl, rfl⟩
    exact ⟨h.attaching, h.opening, h.storing⟩

/-- A tool with an empty destination creates no file. -/
theorem ProcessStep.unnamed {args : Args} {me : ι} {event : Event}
    {sh sh' : Segment ι} {p p' : Process} (hdst : sh.procInfo.dst = "")
    (h : p.tool.Unnamed)
    (hfopen : p.phase = .copy -> IsWriter p -> p.tool.creates = some "" ->
      event.fails = true)
    (hstep : ProcessStep args me sh p event p' sh') : p'.tool.Unnamed := by
  cases hstep with
  | start hstart =>
      cases hstart with
      | decideReader hphase hcount => exact Tool.Unnamed.of_reader rfl
      | decideWriter hphase hcount =>
          rintro fileWriter pc ⟨⟩
          exact ⟨hdst, Or.inl rfl⟩
      | _ => exact h
  | reading hphase htype htool hreading =>
      exact Tool.Unnamed.of_reader (hreading.tool (by rw [htool]; rfl))
  | @writing io _ _ writer pc hphase htype htool hwriting =>
      rcases h writer pc htool with ⟨hname, rfl | rfl⟩
      · have hfails : io.fails = true := by
          apply hfopen hphase htype
          rw [htool, Tool.creates, hname]
        cases hwriting with
        | createFails _ =>
            rintro fileWriter pc ⟨⟩
            exact ⟨hname, Or.inr rfl⟩
        | create hcreated =>
            rw [hcreated] at hfails
            cases hfails
      · cases hwriting
  | leave hleave => cases hleave <;> exact h
  | observe hphase hobserve => cases hobserve <;> exact h
  | linger hphase hobserve => cases hobserve <;> exact h
  | _ => exact h

omit [DecidableEq ι] in
theorem ProcInfo.setCounter_writingStartedCondition (info : ProcInfo ι)
    (type : ProcessType) (n : Nat) :
    (info.setCounter type n).writingStartedCondition = info.writingStartedCondition := by
  cases type <;> rfl

/-- The flag is set and nobody waits for it. -/
def Announced (sh : Segment ι) : Prop :=
  sh.procInfo.isWritingStarted = true ∧ sh.procInfo.writingStartedCondition = []

/-- Only the step that stores a destination resets the flag. -/
theorem ProcessStep.keeps_announced {args : Args} {me : ι} {event : Event}
    {sh sh' : Segment ι} {p p' : Process} (h : Announced sh)
    (hphase : p.phase ≠ .storeDst)
    (hstep : ProcessStep args me sh p event p' sh') : Announced sh' := by
  have hcounter : forall type n, Announced
      { sh with procInfo := sh.procInfo.setCounter type n } := by
    intro type n
    refine ⟨?_, ?_⟩
    · rw [ProcInfo.isWritingStarted_setCounter]
      exact h.left
    · rw [ProcInfo.setCounter_writingStartedCondition]
      exact h.right
  cases hstep with
  | start hstart =>
      cases hstart with
      | storeDst hstore => exact absurd hstore hphase
      | register _ _ _ => exact hcounter _ _
      | _ => exact h
  | reading _ _ _ hreading =>
      cases hreading with
      | sleep _ hstarted =>
          rw [h.left] at hstarted
          cases hstarted
      | _ => exact h
  | writing _ _ _ hwriting =>
      cases hwriting with
      | startWriting => exact ⟨rfl, rfl⟩
      | _ => exact h
  | leave hleave =>
      cases hleave with
      | deregister _ => exact hcounter _ _
      | _ => exact h
  | observe _ hobserve => cases hobserve <;> exact h
  | linger _ hobserve => cases hobserve <;> exact h
  | _ => exact h

theorem IPCTool.ReadingStep.first {src : List UInt8} {me : ι} {io : Io}
    {sh sh' : Segment ι} {p p' : Process} {reader : BufferedReader} {pc : ReaderPc}
    (h : ReadingStep src me io sh p reader pc p' sh') :
    p'.isFirstProcess_ = p.isFirstProcess_ ∧ sh'.created = sh.created := by
  cases h with
  | @read pc r reader' q hread => cases r <;> exact ⟨rfl, rfl⟩
  | _ => exact ⟨rfl, rfl⟩

theorem IPCTool.WritingStep.first {me : ι} {io : Io} {sh sh' : Segment ι}
    {p p' : Process} {writer : BufferedFileWriter} {pc : WriterPc}
    (h : WritingStep me io sh p writer pc p' sh') :
    p'.isFirstProcess_ = p.isFirstProcess_ ∧ sh'.created = sh.created := by
  cases h with
  | @write pc r writer' q hwrite => cases r <;> exact ⟨rfl, rfl⟩
  | _ => exact ⟨rfl, rfl⟩

/-- What a step does to the creation of the segment and the first process's start. -/
inductive FirstStep (sh sh' : Segment ι) (p p' : Process) : Prop where
  | create (hbefore : p.phase = .attach) (hcreated : sh.created = false)
      (hcreated' : sh'.created = true) (hafter : p'.phase = .constructProcInfo)
      (hfirst : p'.isFirstProcess_ = true)
  | same (hfirst : p'.isFirstProcess_ = p.isFirstProcess_)
      (hcreated : sh'.created = sh.created)
      (hattach : p.phase = .attach -> sh.created = true)
      (hstoring : Storing p' -> Storing p ∧ p.phase ≠ .storeDst)

omit [DecidableEq ι] in
theorem StartStep.first {args : Args} {sh sh' : Segment ι} {p p' : Process}
    (hstores : FirstStores p) (h : StartStep args sh p p' sh') :
    FirstStep sh sh' p p' := by
  have hopening := hstores.opening
  cases h with
  | create hphase hcreated => exact FirstStep.create hphase hcreated rfl rfl rfl
  | _ =>
      apply FirstStep.same
      · rfl
      · rfl
      · simp_all
      · simp_all [Storing, Process.crash]

theorem ProcessStep.first {args : Args} {me : ι} {event : Event}
    {sh sh' : Segment ι} {p p' : Process} (hstores : FirstStores p)
    (hstep : ProcessStep args me sh p event p' sh') : FirstStep sh sh' p p' := by
  have hcopied : p.phase = .copy -> p'.phase = .copy ∨ p'.phase = .deregister ->
      p'.isFirstProcess_ = p.isFirstProcess_ ∧ sh'.created = sh.created ->
      FirstStep sh sh' p p' := by
    intro hphase hphase' hsame
    refine FirstStep.same hsame.left hsame.right (by simp [hphase]) ?_
    rintro ⟨_, hstoring⟩
    rcases hphase' with hphase' | hphase' <;> rw [hphase'] at hstoring <;>
      simp at hstoring
  cases hstep with
  | start hstart => exact hstart.first hstores
  | reading hphase htype htool hreading =>
      exact hcopied hphase (hreading.role hphase).right.left hreading.first
  | writing hphase htype htool hwriting =>
      exact hcopied hphase (hwriting.role hphase).right.left hwriting.first
  | invalid hphase htype => exact hcopied hphase (Or.inr rfl) ⟨rfl, rfl⟩
  | leave hleave =>
      cases hleave <;> apply FirstStep.same <;> simp_all [Storing]
  | interrupt hphase => exact hcopied hphase (Or.inr rfl) ⟨rfl, rfl⟩
  | observe hphase hobserve =>
      refine hcopied hphase (hobserve.role hphase).right.left ?_
      cases hobserve <;> exact ⟨rfl, rfl⟩
  | linger hphase hobserve =>
      have hlingers := Lingers.of_observer hphase hobserve
      rcases hlingers.same with ⟨timer, named, rfl, rfl⟩
      refine FirstStep.same rfl rfl ?_ ?_
      · intro hattach
        rcases hlingers.phase with hlate | hlate <;> cases hattach.symm.trans hlate
      · intro hstoring
        refine ⟨hstoring, ?_⟩
        rcases hlingers.phase with hlate | hlate <;> simp [hlate]

/-!
# All processes
-/

/-- The segment has not been created, or its creator has not stored its destination. -/
def Unstored (s : World ι) : Prop :=
  s.segment.created = false ∨ exists p, Storing (s.proc p)

/-- Before the destination is stored no writer can have started. -/
structure Reset (s : World ι) : Prop where
  attaching : s.segment.created = false -> forall p, (s.proc p).phase = .attach
  stores : forall p, FirstStores (s.proc p)
  first : forall p q, (s.proc p).isFirstProcess_ = true ->
    (s.proc q).isFirstProcess_ = true -> p = q
  unstarted : Unstored s -> s.segment.procInfo.isWritingStarted = false ∧
    s.segment.procInfo.dst = "" ∧ forall p, (s.proc p).tool.Unnamed

omit [DecidableEq ι] in
theorem init_reset (buffers : Nat -> List UInt8) :
    Reset (World.init buffers : World ι) where
  attaching := fun _ _ => rfl
  stores := fun _ => ⟨fun _ => rfl, fun _ => rfl, nofun⟩
  first := by
    intro p q hp
    cases hp
  unstarted := fun _ => ⟨rfl, rfl, fun _ => nofun⟩

theorem Unstored.before {s : World ι} {me : ι} {c : Process} {sh : Segment ι}
    (hstep : FirstStep s.segment sh (s.proc me) c)
    (hunstored : Unstored (s.move me c sh)) : Unstored s := by
  cases hstep with
  | create _ hcreated _ _ _ => exact Or.inl hcreated
  | same _ hcreated _ hstoring =>
      rcases hunstored with hcreated' | ⟨p, hp⟩
      · exact Or.inl (hcreated.symm.trans hcreated')
      · exact Or.inr ⟨p, World.forall_move
          (P := fun p proc => Storing proc -> Storing (s.proc p))
          (fun hc => (hstoring hc).left) (fun _ _ => id) p hp⟩

/-- The one process that stores a destination has done so, and nobody else is to. -/
theorem Reset.not_unstored {s : World ι} (h : Reset s) {me : ι} {c : Process}
    {sh : Segment ι} (hstep : FirstStep s.segment sh (s.proc me) c)
    (hphase : (s.proc me).phase = .storeDst) : ¬ Unstored (s.move me c sh) := by
  have hfirst := (h.stores me).storing hphase
  cases hstep with
  | create hbefore _ _ _ _ => cases hphase.symm.trans hbefore
  | same _ hcreated _ hstoring =>
      rintro (hcreated' | ⟨p, hp⟩)
      · have hattach := h.attaching (hcreated.symm.trans hcreated') me
        cases hphase.symm.trans hattach
      · by_cases hpm : p = me
        · subst p
          rw [World.move_proc_self] at hp
          exact (hstoring hp).right hphase
        · rw [World.move_proc_of_ne s c sh hpm] at hp
          exact hpm (h.first p me hp.left hfirst)

theorem Reset.move {args : ι -> Args} {s : World ι} (hroles : Roles args s)
    (h : Reset s) {a : World.Action ι} {c : Process} {sh : Segment ι}
    (hguard : FopenNeedsPath s a)
    (hstep : ProcessStep (args a.1) a.1 s.segment (s.proc a.1) a.2 c sh) :
    Reset (s.move a.1 c sh) := by
  have hfirst := hstep.first (h.stores a.1)
  constructor
  · intro hcreated p
    cases hfirst with
    | create _ _ hcreated' _ _ => cases hcreated'.symm.trans hcreated
    | same _ hsame hattach _ =>
        have hcreated₀ := hsame.symm.trans hcreated
        have hnone := hattach (h.attaching hcreated₀ a.1)
        cases hnone.symm.trans hcreated₀
  · exact World.forall_move (P := fun _ p => FirstStores p)
      (hstep.firstStores (h.stores a.1)) (fun q _ => h.stores q)
  · intro p q hp hq
    have hbefore : forall r, ((s.move a.1 c sh).proc r).isFirstProcess_ = true ->
        r = a.1 ∧ s.segment.created = false ∨ (s.proc r).isFirstProcess_ = true := by
      refine World.forall_move (P := fun r proc => proc.isFirstProcess_ = true ->
        r = a.1 ∧ s.segment.created = false ∨ (s.proc r).isFirstProcess_ = true)
        ?_ (fun _ _ => Or.inr)
      intro hc
      cases hfirst with
      | create _ hcreated _ _ _ => exact Or.inl ⟨rfl, hcreated⟩
      | same hsame _ _ _ => exact Or.inr (hsame.symm.trans hc)
    have hnone : s.segment.created = false -> forall r,
        (s.proc r).isFirstProcess_ = false :=
      fun hcreated r => (h.stores r).attaching (h.attaching hcreated r)
    rcases hbefore p hp with ⟨hpm, hcreated⟩ | hp'
    · rcases hbefore q hq with ⟨hqm, _⟩ | hq'
      · rw [hpm, hqm]
      · cases (hnone hcreated q).symm.trans hq'
    · rcases hbefore q hq with ⟨_, hcreated⟩ | hq'
      · cases (hnone hcreated p).symm.trans hp'
      · exact h.first p q hp' hq'
  · intro hunstored
    have hbefore := Unstored.before hfirst hunstored
    have hreset := h.unstarted hbefore
    have hunnamed := hstep.unnamed hreset.right.left (hreset.right.right a.1) hguard
    refine ⟨?_, ?_, ?_⟩
    · cases hstarted : sh.procInfo.isWritingStarted with
      | false => exact hstarted
      | true =>
          rcases hstep.started (hroles.consistent a.1) hstarted with
            hset | ⟨_, writer, pc, htool, hannounced⟩
          · rw [hreset.left] at hset
            cases hset
          · rcases (hunnamed writer pc htool).right with rfl | rfl <;> cases hannounced
    · rcases hstep.dst with hsame | ⟨hphase, _⟩
      · exact hsame.trans hreset.right.left
      · exact absurd hunstored (h.not_unstored hfirst hphase)
    · exact World.forall_move (P := fun _ p => p.tool.Unnamed) hunnamed
        (fun q _ => hreset.right.right q)

/-- A registered writer about to set the flag. -/
def AboutToAnnounce (p : Process) : Prop :=
  p.phase = .copy ∧ IsWriter p ∧ exists writer, p.tool = .writer writer .startWriting

/-- A reader in its wait, or about to wait, for the flag. -/
def AwaitsStarted (p : Process) : Prop :=
  p.phase = .copy ∧ IsReader p ∧ p.crashed = false ∧ exists reader pc,
    p.tool = .reader reader pc ∧ (pc = .awaitStarted ∨ pc = .waiting)

theorem Reset.keeps_announced {args : ι -> Args} {s s' : World ι} {a : World.Action ι}
    (h : Reset s) (hannounced : Announced s.segment)
    (hnext : World.next args a s = some s') : Announced s'.segment := by
  rcases World.next_cases hnext with ⟨c, sh, rfl, hstep⟩
  apply hstep.keeps_announced hannounced
  intro hphase
  have hstoring : Storing (s.proc a.1) :=
    ⟨(h.stores a.1).storing hphase, Or.inr (Or.inr hphase)⟩
  have hunstarted := (h.unstarted (Or.inr ⟨a.1, hstoring⟩)).left
  cases hunstarted.symm.trans hannounced.left

theorem reset_next {args : ι -> Args} {s s' : World ι} {a : World.Action ι}
    (h : Roles args s ∧ Reset s) (hguard : FopenNeedsPath s a)
    (hnext : World.next args a s = some s') : Roles args s' ∧ Reset s' := by
  refine ⟨next_roles h.left hnext, ?_⟩
  rcases World.next_cases hnext with ⟨c, sh, rfl, hstep⟩
  exact h.right.move h.left hguard hstep

theorem announces {args : ι -> Args} {s s' : World ι} {w : ι} {io : Io}
    (hw : AboutToAnnounce (s.proc w))
    (hnext : World.next args (w, .run io) s = some s') : Announced s'.segment := by
  rcases hw with ⟨hphase, htype, writer, htool⟩
  rcases World.next_cases hnext with ⟨c, sh, rfl, hstep⟩
  cases hstep with
  | start hstart =>
      have hstarting := hstart.phase
      rw [hphase] at hstarting
      cases hstarting
  | reading _ hreader _ _ => cases hreader.symm.trans htype
  | writing _ _ htool' hwriting =>
      cases htool.symm.trans htool'
      cases hwriting
      exact ⟨rfl, rfl⟩
  | invalid _ hinvalid => cases hinvalid.symm.trans htype
  | leave hleave => exact absurd hphase hleave.after_copy.left

theorem passes {args : ι -> Args} {s : World ι} {r : ι} (hr : AwaitsStarted (s.proc r))
    (hannounced : Announced s.segment) (io : Io) :
    exists s', World.next args (r, .run io) s = some s' ∧
      exists reader, (s'.proc r).tool = .reader reader .stopTimer := by
  rcases hr with ⟨hphase, htype, halive, reader, pc, htool, hpc⟩
  have hstarted : testStarted r s.segment (s.proc r) reader =
      ((s.proc r).goto (.reader reader .stopTimer), s.segment) := by
    rw [testStarted, if_pos hannounced.left]
  have hreading : readingStep (args r).src r io s.segment (s.proc r) reader pc =
      some ((s.proc r).goto (.reader reader .stopTimer), s.segment) := by
    rcases hpc with rfl | rfl
    · rw [readingStep, hstarted]
    · rw [readingStep, hannounced.right, if_neg (by simp), hstarted]
  have hstep : processStep (args r) r (.run io) s.segment (s.proc r) =
      some ((s.proc r).goto (.reader reader .stopTimer), s.segment) := by
    rw [IsReader] at htype
    simp [processStep, halive, hphase, copyStep, htype, htool, hreading]
  refine ⟨_, by rw [World.next, hstep]; rfl, reader, ?_⟩
  rw [World.move_proc_self]
  rfl

/--
In every run, once a registered writer has set `isWritingStarted` the flag stays
set, and every reader that waits for it passes with its next step.
-/
theorem writing_started_never_taken_back (args : ι -> Args)
    (buffers : Nat -> List UInt8) (s₁ s₂ s₃ : World ι) (w : ι) (io : Io)
    (hbefore : Reaches (StepOf (World.next args)) FopenNeedsPath
      (World.init buffers) s₁)
    (hw : AboutToAnnounce (s₁.proc w))
    (hannounce : World.next args (w, .run io) s₁ = some s₂)
    (hafter : Reaches (StepOf (World.next args)) FopenNeedsPath s₂ s₃) :
    s₃.segment.procInfo.isWritingStarted = true ∧
      forall r, AwaitsStarted (s₃.proc r) -> forall io', exists s₄,
        World.next args (r, .run io') s₃ = some s₄ ∧
        exists reader, (s₄.proc r).tool = .reader reader .stopTimer := by
  have h₁ : Roles args s₁ ∧ Reset s₁ := by
    refine Reaches.invariant (fun x => Roles args x ∧ Reset x) ?_ hbefore
      ⟨init_roles args buffers, init_reset buffers⟩
    exact fun _ _ _ hx hguard hnext => reset_next hx hguard hnext
  have hguard : FopenNeedsPath s₁ (w, .run io) := by
    -- the file has been created by now
    rcases hw with ⟨_, _, writer, htool⟩
    intro _ _ hcreates
    rw [htool] at hcreates
    cases hcreates
  have h₂ := reset_next h₁ hguard hannounce
  have h₃ : (Roles args s₃ ∧ Reset s₃) ∧ Announced s₃.segment := by
    refine Reaches.invariant (fun x => (Roles args x ∧ Reset x) ∧ Announced x.segment)
      ?_ hafter ⟨h₂, announces hw hannounce⟩
    exact fun _ _ _ hx hguard hnext =>
      ⟨reset_next hx.left hguard hnext, hx.left.right.keeps_announced hx.right hnext⟩
  exact ⟨h₃.right.left, fun _ hr io' => passes hr h₃.right io'⟩

/-- The second process announces itself, the first one reads on. -/
theorem writing_started_never_taken_back_announced :
    exists s₁ s₂ s₃ : World Pid,
      exec (World.next (sources [] []))
        (World.turns .first 6 ++ World.turns .second 6)
        (World.init fun _ => []) = some s₁ ∧
      World.next (sources [] []) (.second, .run Io.success) s₁ = some s₂ ∧
      exec (World.next (sources [] [])) (World.turns .first 3) s₂ = some s₃ ∧
      s₃.segment.procInfo.isWritingStarted = true := by
  have hview : ((exec (World.next (sources [] []))
      (World.turns .first 6 ++ World.turns .second 6)
      (World.init fun _ => [])).bind fun s₁ =>
        (World.next (sources [] []) (.second, .run Io.success) s₁).bind fun s₂ =>
          (exec (World.next (sources [] [])) (World.turns .first 3) s₂).map fun _ =>
            ((s₁.proc .second).phase, (s₁.proc .second).ipcToolType,
              (s₁.proc .second).tool,
              execGuard (World.next (sources [] [])) FopenNeedsPath
                (World.turns .first 3) s₂)) =
      some (.copy, .writerProcess,
        .writer (BufferedFileWriter.new "dst").create .startWriting, true) := by
    decide +kernel
  rcases Option.bind_eq_some_iff.mp hview with ⟨s₁, hexec, hview₂⟩
  rcases Option.bind_eq_some_iff.mp hview₂ with ⟨s₂, hannounce, hview₃⟩
  rcases Option.map_eq_some_iff.mp hview₃ with ⟨s₃, hexec₃, hpcs⟩
  simp only [Prod.mk.injEq] at hpcs
  rcases hpcs with ⟨hphase, htype, htool, hguard⟩
  have hbefore : Reaches (StepOf (World.next (sources [] []))) FopenNeedsPath
      (World.init fun _ => []) s₁ :=
    reaches_of_exec _ (by decide +kernel) hexec
  have hflag := writing_started_never_taken_back _ _ s₁ s₂ s₃ .second Io.success hbefore
    ⟨hphase, htype, _, htool⟩ hannounce (reaches_of_exec _ hguard hexec₃)
  exact ⟨s₁, s₂, s₃, hexec, hannounce, hexec₃, hflag.left⟩

end Common
end Ki
