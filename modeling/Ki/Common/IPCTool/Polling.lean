import Ki.Common.IPCTool.Simulation

/-!
# A writer that polls a queue not yet open

A writer may call `getFilledBuffer` before the reader has opened the queue.  It
gets no buffer and calls again; it pops an empty deque only if `open` falls
between the two tests of one call.
-/

namespace Ki
namespace IPC

def Tool.atOpen : Tool -> Bool
  | .reader _ .openQueue => true
  | _ => false

end IPC

namespace Common

open Foundation
open Queue
open Clients
open Reader
open Writer
open BufferedFileWriter
open Stdio
open IPC
open IPCTool

variable {ι : Type} [DecidableEq ι]

/-- No process is between its two tests when a reader opens the queue. -/
def OpensOutsideTests (s : World ι) (a : World.Action ι) : Prop :=
  a.2.isRun = true -> (s.proc a.1).tool.atOpen = true ->
    forall p side, ¬ (s.clients [] []).BetweenTests p side

/-- The state of the queue's clients that a state of the processes stands for. -/
structure Refines (args : ι -> Args) (s : World ι) (x : Clients ι) : Prop where
  roles : Roles args s
  linked : exists returned delivered, x = s.clients returned delivered ∧
    Linked s returned delivered

omit [DecidableEq ι] in
theorem init_refines (args : ι -> Args) (buffers : Nat -> List UInt8) :
    Refines args (World.init buffers : World ι) (Clients.init buffers) where
  roles := init_roles args buffers
  linked := ⟨[], [], rfl, init_linked buffers⟩

theorem next_refines {args : ι -> Args} {s s' : World ι} {a : World.Action ι}
    {x : Clients ι} (h : Refines args s x) (hguard : OpensOutsideTests s a)
    (hnext : World.next args a s = some s') :
    exists x', Refines args s' x' ∧ Reaches Step OpenOutsideTests x x' := by
  rcases a with ⟨me, event⟩
  have hroles := next_roles h.roles hnext
  rcases World.next_cases hnext with ⟨c, sh, rfl, hstep⟩
  rcases h.linked with ⟨returned, delivered, rfl, hlinked⟩
  have hid : forall (x : Clients ι) (op : Op ι), OpenOutsideTests x op ->
      OpenOutsideTests x op := fun _ _ => id
  cases hstep.copyOrAside (h.roles.consistent me) with
  | reading reader pc hphase htype htool hreading =>
      have hrun := hreading.simulates hid returned delivered htool
        (hlinked.typed me) (fun hpc _ => hguard rfl (by rw [htool, hpc]; rfl))
      exact ⟨_, ⟨hroles, _, _, rfl, hlinked.reading htool hreading⟩, hrun⟩
  | writing writer pc hphase htype htool hwriting =>
      rcases hwriting.simulates hid returned delivered htool (hlinked.typed me) with
        ⟨writer', pc', htool', hrun⟩
      have hany := Reaches.mono (fun _ _ _ => trivial) hrun
      have htyped := hwriting.typed htool (hlinked.typed me)
      exact ⟨_, ⟨hroles, _, _, rfl, hlinked.move htyped hany⟩, hrun⟩
  | aside haside =>
      refine ⟨_, ⟨hroles, _, _, rfl, hlinked.aside haside⟩, ?_⟩
      rw [clients_same haside.queue haside.client]

/-- Every run of the processes is a run of the clients of one queue. -/
theorem processes_refine_clients {args : ι -> Args} {buffers : Nat -> List UInt8}
    {s : World ι} (hrun : Reaches (StepOf (World.next args)) OpensOutsideTests
      (World.init buffers) s) :
    exists returned delivered, Reaches Step OpenOutsideTests
      (Clients.init buffers) (s.clients returned delivered) := by
  have hsim := Reaches.simulates (Refines args)
    (fun _ _ _ _ h hguard hnext => next_refines h hguard hnext) hrun
    (init_refines args buffers)
  rcases hsim with ⟨x, h, hclients⟩
  rcases h.linked with ⟨returned, delivered, rfl, _⟩
  exact ⟨returned, delivered, hclients⟩

/--
In every run of any number of processes in which no reader opens the queue while
a process is between its two tests, no process ever pops an empty deque.
-/
theorem processes_pop_nonempty (args : ι -> Args) (buffers : Nat -> List UInt8)
    (s : World ι)
    (hrun : Reaches (StepOf (World.next args)) OpensOutsideTests
      (World.init buffers) s) (p : ι) :
    (s.proc p).tool.client.call ≠ .popEmpty := by
  rcases processes_refine_clients hrun with ⟨returned, delivered, hclients⟩
  have hinv := reaches_inv (init_inv buffers) (init_noEmptyPop buffers) hclients
  exact hinv.right.safe p

/-- The reader opens the queue while the writer is between its two tests. -/
def openedBetween : List (World.Action Pid) :=
  World.turns .first 6 ++ World.turns .second 11 ++
    [(.first, .run Io.success), (.second, .run Io.success)]

theorem writer_pops_empty :
    exists s, exec (World.next (sources [] [])) openedBetween (World.init fun _ => []) =
        some s ∧ (s.proc .second).tool.client.call = .popEmpty := by
  have hview : (exec (World.next (sources [] [])) openedBetween
      (World.init fun _ => [])).map (fun s => (s.proc .second).tool.client.call) =
      some .popEmpty := by
    decide +kernel
  exact Option.map_eq_some_iff.mp hview

end Common
end Ki
