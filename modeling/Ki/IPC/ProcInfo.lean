import Ki.Foundation.SizeT
import Mathlib.Data.List.Basic

/-!
# Process information

Translation of `src/IPC/IPCProcInfo.hpp` and `src/IPC/IPCToolType.hpp`, with the
critical sections in which other files read and write the structure.  Each is
one step; the one wait on `writingStartedCondition` tests the flag and goes to
sleep in one step too, since both are done under the mutex.
-/

namespace Ki
namespace IPC

open Foundation

inductive ProcessType where
  | readerProcess
  | writerProcess
  | invalid
deriving DecidableEq, Repr

/-- `writingStartedCondition` records the processes asleep on it. -/
structure ProcInfo (ι : Type) where
  writingStartedCondition : List ι
  dst : String
  isWritingStarted : Bool
  readerProcessCount : Nat
  writerProcessCount : Nat
deriving DecidableEq, Repr

namespace ProcInfo

variable {ι : Type}

def new : ProcInfo ι where
  writingStartedCondition := []
  dst := ""
  isWritingStarted := false
  readerProcessCount := 0
  writerProcessCount := 0

def getDst (info : ProcInfo ι) : String :=
  info.dst

/-- The counter of a kind of process; there is none for the invalid kind. -/
def counter (info : ProcInfo ι) : ProcessType -> Nat
  | .readerProcess => info.readerProcessCount
  | .writerProcess => info.writerProcessCount
  | .invalid => 0

def setCounter (info : ProcInfo ι) : ProcessType -> Nat -> ProcInfo ι
  | .readerProcess, n => { info with readerProcessCount := n }
  | .writerProcess, n => { info with writerProcessCount := n }
  | .invalid, _ => info

/-- Check and increment in the constructor of `IPCTool`: the type the tool ends with. -/
def register (info : ProcInfo ι) (type : ProcessType) : ProcessType × ProcInfo ι :=
  if type = .invalid ∨ info.counter type ≠ 0 then (.invalid, info)
  else (type, info.setCounter type (SizeT.add (info.counter type) 1))

/-- The decrement in the destructor of `IPCTool`. -/
def deregister (info : ProcInfo ι) (type : ProcessType) : ProcInfo ι :=
  info.setCounter type (SizeT.sub (info.counter type) 1)

/-- The critical section of `createTool` for the first process. -/
def storeDst (info : ProcInfo ι) (dst : String) : ProcInfo ι :=
  { info with dst := dst, isWritingStarted := false }

/-- The writer sets the flag and notifies all. -/
def startWriting (info : ProcInfo ι) : ProcInfo ι :=
  { info with isWritingStarted := true, writingStartedCondition := [] }

/-- The reader goes to sleep until writing has started. -/
def sleep (info : ProcInfo ι) (me : ι) : ProcInfo ι :=
  { info with writingStartedCondition := me :: info.writingStartedCondition }

@[simp] theorem counter_setCounter_self (info : ProcInfo ι) {type : ProcessType}
    (htype : type ≠ .invalid) (n : Nat) :
    (info.setCounter type n).counter type = n := by
  cases type with
  | readerProcess => rfl
  | writerProcess => rfl
  | invalid => exact absurd rfl htype

theorem counter_setCounter_of_ne (info : ProcInfo ι) {type type' : ProcessType}
    (hne : type' ≠ type) (n : Nat) :
    (info.setCounter type n).counter type' = info.counter type' := by
  cases type <;> cases type' <;> first | rfl | exact absurd rfl hne

@[simp] theorem counter_storeDst (info : ProcInfo ι) (dst : String)
    (type : ProcessType) : (info.storeDst dst).counter type = info.counter type := by
  cases type <;> rfl

@[simp] theorem counter_startWriting (info : ProcInfo ι) (type : ProcessType) :
    info.startWriting.counter type = info.counter type := by
  cases type <;> rfl

@[simp] theorem counter_sleep (info : ProcInfo ι) (me : ι) (type : ProcessType) :
    (info.sleep me).counter type = info.counter type := by
  cases type <;> rfl

@[simp] theorem dst_setCounter (info : ProcInfo ι) (type : ProcessType) (n : Nat) :
    (info.setCounter type n).dst = info.dst := by
  cases type <;> rfl

@[simp] theorem isWritingStarted_setCounter (info : ProcInfo ι)
    (type : ProcessType) (n : Nat) :
    (info.setCounter type n).isWritingStarted = info.isWritingStarted := by
  cases type <;> rfl

end ProcInfo
end IPC
end Ki
