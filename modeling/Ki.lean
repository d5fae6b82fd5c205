import Ki.Foundation.Counting
import Ki.Foundation.Partition
import Ki.Foundation.Runs
import Ki.Foundation.SizeT
import Ki.Queue.Clients
import Ki.Queue.ClientsInvariant
import Ki.Queue.EmptyPop
import Ki.Queue.Ownership
import Ki.Queue.Fifo
import Ki.Queue.Waiting
import Ki.Queue.FixedBufferQueue
import Ki.Reader.BufferedReader
import Ki.Reader.Chunks
import Ki.Stdio.FileSystem
import Ki.Stdio.Streams
import Ki.Writer.BufferedFileWriter
import Ki.Common.BPCopyTool
import Ki.Common.BPCopyTool.Simulation
import Ki.Common.BPCopyTool.Progress
import Ki.Common.BPCopyTool.Exactness
import Ki.Queue.SynchronizedQueue
import Ki.Queue.Workers
import Ki.Reader.MMapFileReader
import Ki.Writer.MMapFileWriter
import Ki.Common.ParallelCopyTool
import Ki.Common.ParallelCopyTool.Exactness
import Ki.Common.ParallelCopyTool.Progress
import Ki.Common.IPCTool
import Ki.Common.ToolFactory
import Ki.Common.IPCTool.Roles
import Ki.Common.IPCTool.Routing
import Ki.Common.IPCTool.Simulation
import Ki.Common.IPCTool.Flags
import Ki.Common.IPCTool.Session
import Ki.Common.IPCTool.Handshake
import Ki.Common.IPCTool.Delivery
import Ki.Common.IPCTool.Isolation
import Ki.Common.IPCTool.Pairing
import Ki.Common.IPCTool.Publication
import Ki.Common.IPCTool.StartedFlag
import Ki.Common.IPCTool.Removal
import Ki.Common.IPCTool.Wakeup
import Ki.Common.IPCTool.Polling
import Ki.Common.IPCTool.Streams
import Ki.Common.IPCTool.Projection
import Ki.Common.BPCopyTool.Aliasing
import Ki.Common.ParallelCopyTool.Aliasing
import Ki.Common.OpenQueue
import Ki.Foundation.Chunks
import Ki.Reader.MMapChunks
import Ki.Reader.ReadLoop
import Ki.Writer.MMapWrites
import Ki.IPC.SiblingProcessObserver
import Ki.Writer.Durability
import Ki.Common.BPCopyTool.Exceptions
import Ki.Common.BPCopyTool.Faults
import Ki.Foundation.Termination
import Ki.Common.BPCopyTool.Termination
import Ki.Common.ParallelCopyTool.Termination
import Ki.Foundation.Refinement
import Ki.Foundation.Pipeline
import Ki.Common.BPCopyTool.Stages
import Ki.Common.BPCopyTool.Pipeline
import Ki.Common.ParallelCopyTool.Pipeline
import Ki.Common.Interruption
import Ki.Foundation.Potential
import Ki.Common.IPCTool.Potential
import Ki.Common.IPCTool.Payments
import Ki.Common.IPCTool.Termination
import Ki.Common.IPCTool.Blocking
import Ki.Common.IPCTool.Completion
import Ki.Common.IPCTool.Pipeline
import Ki.Common.Main
import Ki.Common.BPCopyTool.Exit
import Ki.Common.ParallelCopyTool.Exit
import Ki.Common.BPCopyTool.Outcome
import Ki.Common.ParallelCopyTool.Outcome
