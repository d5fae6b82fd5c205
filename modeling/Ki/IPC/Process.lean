import Ki.IPC.ProcInfo
import Ki.Reader.Chunks
import Ki.Writer.BufferedFileWriter

/-!
# Processes and the segment they share

The data of `src/IPC/SharedMemoryManager.cpp`, `src/common/PseudoToolFactory.hpp`,
`src/common/IPCTool.hpp` and `src/IPC/SiblingProcessObserver.cpp`: one
shared-memory segment, and for each process attached to it where it stands
between its start and its end.
-/

namespace Ki
namespace IPC

open Queue
open Reader
open BufferedReader
open Writer
open BufferedFileWriter

/-- The segment, the objects constructed in it, and whether its name still leads to it. -/
structure Segment (ι : Type) where
  created : Bool
  named : Bool
  procInfoConstructed : Bool
  queueConstructed : Bool
  procInfo : ProcInfo ι
  queue : FixedBufferQueue ι

/-- No process has created the segment yet. -/
def Segment.absent {ι : Type} (buffers : Nat -> List UInt8) : Segment ι where
  created := false
  named := false
  procInfoConstructed := false
  queueConstructed := false
  procInfo := ProcInfo.new
  queue := FixedBufferQueue.new buffers

/-- Program points of `IPCTool::copy` in a reader process. -/
inductive ReaderPc where
  | openQueue
  | openFile
  | startObserver
  | testFinished
  | read (pc : ReadPc)
  | close
  /-- about to take the mutex and test `isWritingStarted` -/
  | awaitStarted
  /-- inside the wait on `writingStartedCondition` -/
  | waiting
  | stopTimer
  | returned
  /-- an exception has left `copy`, with the buffers in hand lost -/
  | threw (held : List Buffer)
deriving DecidableEq, Repr

/-- Program points of `IPCTool::copy` in a writer process. -/
inductive WriterPc where
  | create
  | startWriting
  | checkFinished
  | startObserver
  | testFinished
  | testEmpty
  | write (pc : WritePc)
  /-- out of the loop, by `break` -/
  | stopTimer
  | returned
  /-- an exception has left `copy` -/
  | threw
deriving DecidableEq, Repr

/--
What `createTool` has built: a reader process has no writer object and a writer
process no reader object.
-/
inductive Tool where
  | none
  | reader (fileReader : BufferedReader) (pc : ReaderPc)
  | writer (fileWriter : BufferedFileWriter) (pc : WriterPc)
deriving DecidableEq, Repr

def Tool.toolType : Tool -> ProcessType
  | .none => .invalid
  | .reader _ _ => .readerProcess
  | .writer _ _ => .writerProcess

/-- The observation thread. -/
inductive Observer where
  | off
  | watching
  /-- no sibling for the waiting time: about to call back -/
  | expired
  /-- inside the callback, about to remove the shared-memory object -/
  | removing
  | terminating
  /-- the callback did nothing and the thread has ended -/
  | returned
deriving DecidableEq, Repr

/-- The timer can be destroyed: its thread is not inside the callback. -/
def Observer.canStop : Observer -> Bool
  | .off => true
  | .watching => true
  | .returned => true
  | _ => false

inductive Phase where
  /-- the constructor of the shared memory manager -/
  | attach
  | constructProcInfo
  | findProcInfo
  /-- `ToolFactory::createTool` -/
  | getQueue
  | storeDst
  | decideType
  /-- the constructor of `IPCTool` -/
  | register
  | copy
  /-- the destructor of `IPCTool`: its locked section, and the end of the timer after it -/
  | deregister
  | joinTimer
  /-- the destructor of the shared memory manager -/
  | readWriterCount
  | readReaderCount
  | removeObject
  | gone
deriving DecidableEq, Repr

/-- `hasProcInfo` and `hasQueue` tell whether the pointers are not null. -/
structure Process where
  phase : Phase
  /-- killed by the dereference of a null pointer, without running a destructor -/
  crashed : Bool
  isFirstProcess_ : Bool
  hasProcInfo : Bool
  hasQueue : Bool
  tool : Tool
  ipcToolType : ProcessType
  timer : Observer
deriving DecidableEq, Repr

/-- A process that has not run yet. -/
def Process.new : Process where
  phase := .attach
  crashed := false
  isFirstProcess_ := false
  hasProcInfo := false
  hasQueue := false
  tool := .none
  ipcToolType := .invalid
  timer := .off

/-- What a process is started with: the content of its source file and its destination. -/
structure Args where
  src : List UInt8
  dst : String
deriving DecidableEq, Repr

namespace Process

def goto (p : Process) (tool : Tool) : Process :=
  { p with tool := tool }

/-- `copy` is over, by a return or an exception: the tool is destroyed next. -/
def leave (p : Process) (tool : Tool) : Process :=
  { p with tool := tool, phase := .deregister }

def crash (p : Process) : Process :=
  { p with crashed := true }

def startObserver (p : Process) (tool : Tool) : Process :=
  { p with tool := tool, timer := .watching }

/-- `timer = nullptr` -/
def stopTimer (p : Process) (tool : Tool) : Process :=
  { p with tool := tool, timer := .off, phase := .deregister }

end Process
end IPC
end Ki
