import Ki.Common.IPCTool.Delivery

/-!
# Whose bytes a writer writes

A process decides to be a writer while some reader is registered.  It writes the
bytes of that reader if the segment serves no other reader and no other writer:
queue and flags are not reset between two sessions.
-/

namespace Ki
namespace Common

open Foundation
open Queue
open Reader
open Writer
open BufferedFileWriter
open Stdio
open IPC
open IPCTool

variable {ι : Type} [DecidableEq ι]

/-- A registered process keeps its type, in every run. -/
theorem Roles.keeps_type_run {args : ι -> Args}
    {guard : World ι -> World.Action ι -> Prop} {s s' : World ι} (h : Roles args s)
    (hrun : Reaches (StepOf (World.next args)) guard s s') {p : ι}
    {type : ProcessType} (htype : type ≠ .invalid)
    (hp : (s.proc p).ipcToolType = type) : (s'.proc p).ipcToolType = type := by
  have hboth : Roles args s' ∧ (s'.proc p).ipcToolType = type := by
    refine Reaches.invariant (fun x => Roles args x ∧ (x.proc p).ipcToolType = type)
      ?_ hrun ⟨h, hp⟩
    intro x a x' hx _ hnext
    refine ⟨next_roles hx.left hnext, ?_⟩
    rcases World.next_cases hnext with ⟨c, sh, rfl, hstep⟩
    rw [hx.left.keeps_type hstep (by rw [hx.right]; exact htype)]
    exact hx.right
  exact hboth.right

/-- A reader is registered when a process decides to be a writer. -/
theorem Roles.reader_of_decision {args : ι -> Args} {s s' : World ι}
    (h : Roles args s) {w : ι} {event : Event}
    (hphase : (s.proc w).phase = .decideType)
    (hnext : World.next args (w, event) s = some s')
    (htool : (s'.proc w).tool.toolType = .writerProcess) :
    exists r, Holds (s.proc r) .readerProcess := by
  rcases World.next_cases hnext with ⟨c, sh, rfl, hstep⟩
  rw [World.move_proc_self] at htool
  have hnone := (h.consistent w).undecided (by rw [hphase]; trivial)
  rcases hstep.decides_writer htool with hbefore | hcount
  · rw [hnone] at hbefore
    cases hbefore
  · rcases h.exists_holder (by simp) hcount with ⟨r, hr, _⟩
    exact ⟨r, hr⟩

/--
In every run of one session, a writer that has left its loop has written the
source of the reader that was registered when its type was decided, the only
reader of the run.
-/
theorem writes_registered_source (args : ι -> Args)
    (hsrc : forall p, (args p).src.length < 2 ^ 63) (buffers : Nat -> List UInt8)
    (s₁ s₂ s₃ : World ι) (w : ι) (io : Io) (writer : BufferedFileWriter)
    (pc : WriterPc)
    (hbefore : Reaches (StepOf (World.next args)) OneSession (World.init buffers) s₁)
    (hphase : (s₁.proc w).phase = .decideType) (hio : io.Succeeds)
    (hdecide : World.next args (w, .run io) s₁ = some s₂)
    (hdecided : (s₂.proc w).tool.toolType = .writerProcess)
    (hafter : Reaches (StepOf (World.next args)) OneSession s₂ s₃)
    (hw : IsWriter (s₃.proc w)) (htool : (s₃.proc w).tool = .writer writer pc)
    (hleft : pc.Left) :
    exists r, Holds (s₁.proc r) .readerProcess ∧
      (forall q, IsReader (s₃.proc q) -> q = r) ∧ writer.written = (args r).src := by
  have h₁ := (init_delivering args buffers).run hsrc hbefore
  have hguard : OneSession s₁ (w, .run io) := by
    -- the process does not register in the step of its decision
    refine ⟨hio, ?_, ?_⟩ <;>
    · intro hregister
      cases hphase.symm.trans hregister
  have h₂ := h₁.next hsrc hguard hdecide
  have h₃ := h₂.run hsrc hafter
  rcases h₁.session.roles.reader_of_decision hphase hdecide hdecided with ⟨r, hr⟩
  have hrun : Reaches (StepOf (World.next args)) OneSession s₁ s₃ :=
    Relation.ReflTransGen.head ⟨_, hguard, hdecide⟩ hafter
  have hr₃ : IsReader (s₃.proc r) :=
    h₁.session.roles.keeps_type_run hrun (by simp) hr.left
  refine ⟨r, hr, ?_, ?_⟩
  · intro q hq
    exact h₃.session.reader.unique q r hq hr₃
  · exact (h₃.written hr₃ hw htool).right hleft

/-- The first process registers as reader, the second one starts. -/
def beforeDecision : List (World.Action Pid) :=
  World.turns .first 6 ++ World.turns .second 3

/-- The second process announces itself, the first one reads, the second one writes. -/
def afterDecision : List (World.Action Pid) :=
  World.turns .second 3 ++ World.turns .first 14 ++
    World.turns .second 10

theorem writes_registered_source_afterDecision :
    exists s₁ s₂ s₃ writer,
      exec (World.next (sources [1] [])) beforeDecision
        (World.init fun _ => []) = some s₁ ∧
      World.next (sources [1] []) (.second, .run Io.success) s₁ = some s₂ ∧
      exec (World.next (sources [1] [])) afterDecision s₂ = some s₃ ∧
      (s₃.proc .second).tool = .writer writer .stopTimer ∧
      exists r, Holds (s₁.proc r) .readerProcess ∧
        (forall q, IsReader (s₃.proc q) -> q = r) ∧
        BufferedFileWriter.written writer = (sources [1] [] r).src := by
  have hview : ((exec (World.next (sources [1] [])) beforeDecision
      (World.init fun _ => [])).bind fun s₁ =>
        (World.next (sources [1] []) (.second, .run Io.success) s₁).bind fun s₂ =>
          (exec (World.next (sources [1] [])) afterDecision s₂).map fun s₃ =>
            ((s₁.proc .second).phase, (s₂.proc .second).tool.toolType,
              execGuard (World.next (sources [1] [])) OneSession afterDecision s₂,
              (s₃.proc .second).ipcToolType, (s₃.proc .second).tool)) =
      some (.decideType, .writerProcess, true, .writerProcess, .writer
        { fileName := "dst"
          fileDesc := some { buffer := [], cache := [1], disk := [] } }
        .stopTimer) := by
    decide +kernel
  rcases Option.bind_eq_some_iff.mp hview with ⟨s₁, hexec, hview⟩
  rcases Option.bind_eq_some_iff.mp hview with ⟨s₂, hdecide, hview⟩
  rcases Option.map_eq_some_iff.mp hview with ⟨s₃, hexec', hpcs⟩
  simp only [Prod.mk.injEq] at hpcs
  rcases hpcs with ⟨hphase, hdecided, hguard, hw, htool⟩
  refine ⟨s₁, s₂, s₃, _, hexec, hdecide, hexec', htool, ?_⟩
  exact writes_registered_source (sources [1] []) (by decide) _ s₁ s₂ s₃ .second
    Io.success _ _ (reaches_of_exec beforeDecision (by decide +kernel) hexec) hphase
    Io.success_succeeds hdecide hdecided (reaches_of_exec afterDecision hguard hexec')
    hw htool trivial

/-- The main thread of a process makes a step, and its stdio calls succeed. -/
def Smooth (_ : World ι) (a : World.Action ι) : Prop :=
  a.2 = .run Io.success

instance (s : World ι) (a : World.Action ι) : Decidable (Smooth s a) :=
  inferInstanceAs (Decidable (_ = _))

/--
The second process writes everything and leaves while the first one is still
registered as reader; the third one starts.
-/
def writerGone : List (World.Action Pid) :=
  World.turns .first 6 ++ World.turns .second 7 ++
    World.turns .first 14 ++ World.turns .second 12 ++
    World.turns .third 3

/-- In general a second writer finds nothing left of the data of the registered reader. -/
theorem writes_nothing :
    ¬ forall (args : Pid -> Args) (buffers : Nat -> List UInt8)
      (s₁ s₂ s₃ : World Pid) (w : Pid) (writer : BufferedFileWriter)
      (pc : WriterPc),
      (forall p, (args p).src.length < 2 ^ 63) ->
      Reaches (StepOf (World.next args)) Smooth (World.init buffers) s₁ ->
      (s₁.proc w).phase = .decideType ->
      World.next args (w, .run Io.success) s₁ = some s₂ ->
      (s₂.proc w).tool.toolType = .writerProcess ->
      Reaches (StepOf (World.next args)) Smooth s₂ s₃ ->
      IsWriter (s₃.proc w) -> (s₃.proc w).tool = .writer writer pc -> pc.Left ->
      exists r, Holds (s₁.proc r) .readerProcess ∧ writer.written = (args r).src := by
  intro h
  have hview : ((exec (World.next (sources [1] [])) writerGone
      (World.init fun _ => [])).bind fun s₁ =>
        (World.next (sources [1] []) (.third, .run Io.success) s₁).bind fun s₂ =>
          (exec (World.next (sources [1] [])) (World.turns .third 6)
            s₂).map fun s₃ =>
            ((s₁.proc .third).phase, (s₂.proc .third).tool.toolType,
              execGuard (World.next (sources [1] [])) Smooth
                (World.turns .third 6) s₂,
              decide (forall r, Holds (s₁.proc r) .readerProcess -> r = .first),
              (s₃.proc .third).ipcToolType, (s₃.proc .third).tool)) =
      some (.decideType, .writerProcess, true, true, .writerProcess, .writer
        { fileName := "dst"
          fileDesc := some { buffer := [], cache := [], disk := [] } }
        .stopTimer) := by
    decide +kernel
  rcases Option.bind_eq_some_iff.mp hview with ⟨s₁, hexec, hview⟩
  rcases Option.bind_eq_some_iff.mp hview with ⟨s₂, hdecide, hview⟩
  rcases Option.map_eq_some_iff.mp hview with ⟨s₃, hexec', hpcs⟩
  simp only [Prod.mk.injEq, decide_eq_true_eq] at hpcs
  rcases hpcs with ⟨hphase, hdecided, hguard, honly, hw, htool⟩
  rcases h (sources [1] []) (fun _ => []) s₁ s₂ s₃ .third _ _ (by decide)
    (reaches_of_exec writerGone (by decide +kernel) hexec) hphase hdecide hdecided
    (reaches_of_exec _ hguard hexec') hw htool trivial with ⟨r, hr, hwritten⟩
  rw [honly r hr] at hwritten
  cases hwritten

end Common
end Ki
