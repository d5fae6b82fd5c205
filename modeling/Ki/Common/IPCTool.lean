import Ki.IPC.Process

/-!
# The inter-process copy tool

Translation of `IPCTool::copy` and `IPCTool::timeout` of
`src/common/IPCTool.hpp` and of the observation thread of
`src/IPC/SiblingProcessObserver.cpp`, whose ten seconds of waiting may end
whenever a poll sees no sibling.
-/

namespace Ki
namespace Common
namespace IPCTool

open Queue
open Reader
open BufferedReader
open Writer
open BufferedFileWriter
open Stdio
open IPC

section Steps

variable {ι : Type} [DecidableEq ι]

/-!
# Copying in a reader process
-/

/-- The process after a step of `read`. -/
def afterRead (p : Process) (reader : BufferedReader) : ReadResult -> Process
  | .next pc => p.goto (.reader reader (.read pc))
  | .done => p.goto (.reader reader .testFinished)
  | .threw held => p.leave (.reader reader (.threw held))

/-- Test `isWritingStarted` under the mutex, and go to sleep if it is not set. -/
def testStarted (me : ι) (sh : Segment ι) (p : Process)
    (reader : BufferedReader) : Process × Segment ι :=
  if sh.procInfo.isWritingStarted then (p.goto (.reader reader .stopTimer), sh)
  else (p.goto (.reader reader .waiting),
    { sh with procInfo := sh.procInfo.sleep me })

/-- One step of `copy` in a reader process; `none` while it is blocked. -/
def readingStep (src : List UInt8) (me : ι) (io : Io) (sh : Segment ι)
    (p : Process) (reader : BufferedReader) :
    ReaderPc -> Option (Process × Segment ι)
  | .openQueue =>
      if p.hasQueue then
        some (p.goto (.reader reader .openFile),
          { sh with queue := sh.queue.open' })
      else some (p.crash, sh)
  | .openFile =>
      if io.fails then some (p.leave (.reader reader (.threw [])), sh)
      else some (p.goto (.reader (reader.open' src) .startObserver), sh)
  | .startObserver => some (p.startObserver (.reader reader .testFinished), sh)
  | .testFinished =>
      some (p.goto (.reader reader
        (if reader.readFinished then .close else .read (.getFreeBuffer .lock))), sh)
  | .read pc =>
      (reader.readStep me io sh.queue pc).map fun out =>
        (afterRead p out.2.1 out.1, { sh with queue := out.2.2 })
  | .close =>
      some (p.goto (.reader reader .awaitStarted),
        { sh with queue := sh.queue.close })
  | .awaitStarted => some (testStarted me sh p reader)
  | .waiting =>
      if me ∈ sh.procInfo.writingStartedCondition then none
      else some (testStarted me sh p reader)
  | .stopTimer =>
      if p.timer.canStop then some (p.stopTimer (.reader reader .returned), sh)
      else none
  | .returned => none
  | .threw _ => none

/-- The steps of a reader process in `copy`, guards included. -/
inductive ReadingStep (src : List UInt8) (me : ι) (io : Io) (sh : Segment ι)
    (p : Process) (reader : BufferedReader) :
    ReaderPc -> Process -> Segment ι -> Prop where
  | openQueue :
      ReadingStep src me io sh p reader .openQueue
        (p.goto (.reader reader .openFile)) { sh with queue := sh.queue.open' }
  | crash (hnull : p.hasQueue = false) :
      ReadingStep src me io sh p reader .openQueue p.crash sh
  | openFails (hfails : io.fails = true) :
      ReadingStep src me io sh p reader .openFile
        (p.leave (.reader reader (.threw []))) sh
  | openFile :
      ReadingStep src me io sh p reader .openFile
        (p.goto (.reader (reader.open' src) .startObserver)) sh
  | startObserver :
      ReadingStep src me io sh p reader .startObserver
        (p.startObserver (.reader reader .testFinished)) sh
  | finished (hfinished : reader.readFinished = true) :
      ReadingStep src me io sh p reader .testFinished
        (p.goto (.reader reader .close)) sh
  | unfinished (hunfinished : reader.readFinished = false) :
      ReadingStep src me io sh p reader .testFinished
        (p.goto (.reader reader (.read (.getFreeBuffer .lock)))) sh
  | read {pc : ReadPc} {r : ReadResult} {reader' : BufferedReader}
      {q : FixedBufferQueue ι}
      (hread : reader.readStep me io sh.queue pc = some (r, reader', q)) :
      ReadingStep src me io sh p reader (.read pc) (afterRead p reader' r)
        { sh with queue := q }
  | close :
      ReadingStep src me io sh p reader .close
        (p.goto (.reader reader .awaitStarted)) { sh with queue := sh.queue.close }
  | started {pc : ReaderPc} (hpc : pc = .awaitStarted ∨ pc = .waiting)
      (hstarted : sh.procInfo.isWritingStarted = true) :
      ReadingStep src me io sh p reader pc (p.goto (.reader reader .stopTimer)) sh
  | sleep {pc : ReaderPc} (hpc : pc = .awaitStarted ∨ pc = .waiting)
      (hstarted : sh.procInfo.isWritingStarted = false) :
      ReadingStep src me io sh p reader pc (p.goto (.reader reader .waiting))
        { sh with procInfo := sh.procInfo.sleep me }
  | stopTimer (hstop : p.timer.canStop = true) :
      ReadingStep src me io sh p reader .stopTimer
        (p.stopTimer (.reader reader .returned)) sh

theorem testStarted_cases {src : List UInt8} {me : ι} {io : Io} {sh sh' : Segment ι}
    {p p' : Process} {reader : BufferedReader} {pc : ReaderPc}
    (hpc : pc = .awaitStarted ∨ pc = .waiting)
    (h : testStarted me sh p reader = (p', sh')) :
    ReadingStep src me io sh p reader pc p' sh' := by
  unfold testStarted at h
  cases hstarted : sh.procInfo.isWritingStarted with
  | true =>
      simp only [hstarted, if_true] at h
      cases h
      exact ReadingStep.started hpc hstarted
  | false =>
      simp only [hstarted] at h
      cases h
      exact ReadingStep.sleep hpc hstarted

theorem readingStep_cases {src : List UInt8} {me : ι} {io : Io}
    {sh sh' : Segment ι} {p p' : Process} {reader : BufferedReader}
    {pc : ReaderPc} (h : readingStep src me io sh p reader pc = some (p', sh')) :
    ReadingStep src me io sh p reader pc p' sh' := by
  cases pc with
  | openQueue =>
      rw [readingStep] at h
      cases hqueue : p.hasQueue with
      | true =>
          simp only [hqueue, if_true] at h
          cases h
          exact ReadingStep.openQueue
      | false =>
          simp only [hqueue] at h
          cases h
          exact ReadingStep.crash hqueue
  | openFile =>
      rw [readingStep] at h
      cases hfails : io.fails with
      | true =>
          simp only [hfails, if_true] at h
          cases h
          exact ReadingStep.openFails hfails
      | false =>
          simp only [hfails] at h
          cases h
          exact ReadingStep.openFile
  | startObserver =>
      cases h
      exact ReadingStep.startObserver
  | testFinished =>
      rw [readingStep] at h
      cases hfinished : reader.readFinished with
      | true =>
          simp only [hfinished, if_true] at h
          cases h
          exact ReadingStep.finished hfinished
      | false =>
          simp only [hfinished] at h
          cases h
          exact ReadingStep.unfinished hfinished
  | read pc =>
      rcases Option.map_eq_some_iff.mp h with ⟨⟨r, reader', q⟩, hread, heq⟩
      cases heq
      exact ReadingStep.read hread
  | close =>
      cases h
      exact ReadingStep.close
  | awaitStarted =>
      exact testStarted_cases (Or.inl rfl) (Option.some.inj h)
  | waiting =>
      rw [readingStep] at h
      split at h
      · cases h
      · exact testStarted_cases (Or.inr rfl) (Option.some.inj h)
  | stopTimer =>
      rw [readingStep] at h
      split at h
      · rename_i hstop
        cases h
        exact ReadingStep.stopTimer hstop
      · cases h
  | returned => cases h
  | threw held => cases h

/-!
# Copying in a writer process
-/

/-- The process after a step of `write`. -/
def afterWrite (p : Process) (writer : BufferedFileWriter) : WriteResult -> Process
  | .next pc => p.goto (.writer writer (.write pc))
  | .done => p.goto (.writer writer .testFinished)

/-- One step of `copy` in a writer process; `none` while it is blocked. -/
def writingStep (me : ι) (io : Io) (sh : Segment ι) (p : Process)
    (writer : BufferedFileWriter) : WriterPc -> Option (Process × Segment ι)
  | .create =>
      if io.fails then some (p.leave (.writer writer .threw), sh)
      else some (p.goto (.writer writer.create .startWriting), sh)
  | .startWriting =>
      some (p.goto (.writer writer .checkFinished),
        { sh with procInfo := sh.procInfo.startWriting })
  | .checkFinished =>
      if p.hasQueue then
        sh.queue.isReadFinished.map fun isReadFinished =>
          (p.goto (.writer writer
            (if isReadFinished then .testFinished else .startObserver)), sh)
      else some (p.crash, sh)
  | .startObserver => some (p.startObserver (.writer writer .testFinished), sh)
  | .testFinished =>
      sh.queue.isReadFinished.map fun isReadFinished =>
        (p.goto (.writer writer
          (if isReadFinished then .testEmpty
            else .write (.getFilledBuffer .lock))), sh)
  | .testEmpty =>
      sh.queue.isEmpty.map fun isEmpty =>
        (p.goto (.writer writer
          (if isEmpty then .stopTimer else .write (.getFilledBuffer .lock))), sh)
  | .write pc =>
      (writer.writeStep me io sh.queue pc).map fun out =>
        (afterWrite p out.2.1 out.1, { sh with queue := out.2.2 })
  | .stopTimer =>
      if p.timer.canStop then some (p.stopTimer (.writer writer .returned), sh)
      else none
  | .returned => none
  | .threw => none

/-- The steps of a writer process in `copy`, guards included. -/
inductive WritingStep (me : ι) (io : Io) (sh : Segment ι) (p : Process)
    (writer : BufferedFileWriter) :
    WriterPc -> Process -> Segment ι -> Prop where
  | createFails (hfails : io.fails = true) :
      WritingStep me io sh p writer .create (p.leave (.writer writer .threw)) sh
  | create (hcreated : io.fails = false) :
      WritingStep me io sh p writer .create
        (p.goto (.writer writer.create .startWriting)) sh
  | startWriting :
      WritingStep me io sh p writer .startWriting
        (p.goto (.writer writer .checkFinished))
        { sh with procInfo := sh.procInfo.startWriting }
  | crash (hnull : p.hasQueue = false) :
      WritingStep me io sh p writer .checkFinished p.crash sh
  | checkFinished (hfinished : sh.queue.isReadFinished_ = true) :
      WritingStep me io sh p writer .checkFinished
        (p.goto (.writer writer .testFinished)) sh
  | checkUnfinished (hunfinished : sh.queue.isReadFinished_ = false) :
      WritingStep me io sh p writer .checkFinished
        (p.goto (.writer writer .startObserver)) sh
  | startObserver :
      WritingStep me io sh p writer .startObserver
        (p.startObserver (.writer writer .testFinished)) sh
  | finished (hfinished : sh.queue.isReadFinished_ = true) :
      WritingStep me io sh p writer .testFinished
        (p.goto (.writer writer .testEmpty)) sh
  | unfinished (hunfinished : sh.queue.isReadFinished_ = false) :
      WritingStep me io sh p writer .testFinished
        (p.goto (.writer writer (.write (.getFilledBuffer .lock)))) sh
  | empty (hempty : sh.queue.writeBuffers = []) (hclosed : sh.queue.isOpen = false) :
      WritingStep me io sh p writer .testEmpty
        (p.goto (.writer writer .stopTimer)) sh
  | nonempty :
      WritingStep me io sh p writer .testEmpty
        (p.goto (.writer writer (.write (.getFilledBuffer .lock)))) sh
  | write {pc : WritePc} {r : WriteResult} {writer' : BufferedFileWriter}
      {q : FixedBufferQueue ι}
      (hwrite : writer.writeStep me io sh.queue pc = some (r, writer', q)) :
      WritingStep me io sh p writer (.write pc) (afterWrite p writer' r)
        { sh with queue := q }
  | stopTimer (hstop : p.timer.canStop = true) :
      WritingStep me io sh p writer .stopTimer
        (p.stopTimer (.writer writer .returned)) sh

theorem writingStep_cases {me : ι} {io : Io} {sh sh' : Segment ι}
    {p p' : Process} {writer : BufferedFileWriter} {pc : WriterPc}
    (h : writingStep me io sh p writer pc = some (p', sh')) :
    WritingStep me io sh p writer pc p' sh' := by
  cases pc with
  | create =>
      rw [writingStep] at h
      cases hfails : io.fails with
      | true =>
          simp only [hfails, if_true] at h
          cases h
          exact WritingStep.createFails hfails
      | false =>
          simp only [hfails] at h
          cases h
          exact WritingStep.create hfails
  | startWriting =>
      cases h
      exact WritingStep.startWriting
  | checkFinished =>
      rw [writingStep] at h
      cases hqueue : p.hasQueue with
      | true =>
          simp only [hqueue, if_true] at h
          rcases Option.map_eq_some_iff.mp h with ⟨finished, hfinished, heq⟩
          have hflag := FixedBufferQueue.isReadFinished_cases hfinished
          cases finished with
          | true =>
              cases heq
              exact WritingStep.checkFinished hflag
          | false =>
              cases heq
              exact WritingStep.checkUnfinished hflag
      | false =>
          simp only [hqueue] at h
          cases h
          exact WritingStep.crash hqueue
  | startObserver =>
      cases h
      exact WritingStep.startObserver
  | testFinished =>
      rcases Option.map_eq_some_iff.mp h with ⟨finished, hfinished, heq⟩
      have hflag := FixedBufferQueue.isReadFinished_cases hfinished
      cases finished with
      | true =>
          cases heq
          exact WritingStep.finished hflag
      | false =>
          cases heq
          exact WritingStep.unfinished hflag
  | testEmpty =>
      rcases Option.map_eq_some_iff.mp h with ⟨isEmpty, hisEmpty, heq⟩
      have hboth := (FixedBufferQueue.isEmpty_cases hisEmpty).right
      cases isEmpty with
      | true =>
          cases heq
          exact WritingStep.empty (hboth.mp rfl).left (hboth.mp rfl).right
      | false =>
          cases heq
          exact WritingStep.nonempty
  | write pc =>
      rcases Option.map_eq_some_iff.mp h with ⟨⟨r, writer', q⟩, hwrite, heq⟩
      cases heq
      exact WritingStep.write hwrite
  | stopTimer =>
      rw [writingStep] at h
      split at h
      · rename_i hstop
        cases h
        exact WritingStep.stopTimer hstop
      · cases h
  | returned => cases h
  | threw => cases h

/-!
# The observer
-/

/-- The kind of process a tool of this type observes. -/
def observed : ProcessType -> ProcessType
  | .readerProcess => .writerProcess
  | _ => .readerProcess

/--
One step of the observation thread.  `std::terminate` is taken to leave `copy` for the
destructors; if these run already, they go on.
-/
def observerStep (sh : Segment ι) (p : Process) : Option (Process × Segment ι) :=
  match p.timer with
  | .watching =>
      if sh.procInfo.counter (observed p.ipcToolType) = 0 then
        some ({ p with timer := .expired }, sh)
      else some (p, sh)
  | .expired =>
      if p.ipcToolType = .readerProcess then
        some ({ p with timer := .removing }, sh)
      else
        sh.queue.isReadFinished.map fun isReadFinished =>
          ({ p with timer := if isReadFinished then .returned else .removing }, sh)
  | .removing => some ({ p with timer := .terminating }, { sh with named := false })
  | .terminating =>
      if p.phase = .copy then some ({ p with timer := .off, phase := .deregister }, sh)
      else some ({ p with timer := .off }, sh)
  | .off => none
  | .returned => none

/-- The steps of the observation thread, guards included. -/
inductive ObserverStep (sh : Segment ι) (p : Process) :
    Process -> Segment ι -> Prop where
  | sibling : ObserverStep sh p p sh
  | expire (htimer : p.timer = .watching)
      (hcount : sh.procInfo.counter (observed p.ipcToolType) = 0) :
      ObserverStep sh p { p with timer := .expired } sh
  | callback (htimer : p.timer = .expired)
      (hremove : p.ipcToolType = .readerProcess ∨ sh.queue.isReadFinished_ = false) :
      ObserverStep sh p { p with timer := .removing } sh
  | ignore (htimer : p.timer = .expired) (hfinished : sh.queue.isReadFinished_ = true) :
      ObserverStep sh p { p with timer := .returned } sh
  | remove (htimer : p.timer = .removing) :
      ObserverStep sh p { p with timer := .terminating } { sh with named := false }
  | terminate (htimer : p.timer = .terminating) (hphase : p.phase = .copy) :
      ObserverStep sh p { p with timer := .off, phase := .deregister } sh
  | terminateLate (htimer : p.timer = .terminating) (hphase : p.phase ≠ .copy) :
      ObserverStep sh p { p with timer := .off } sh

omit [DecidableEq ι] in
theorem observerStep_cases {sh sh' : Segment ι} {p p' : Process}
    (h : observerStep sh p = some (p', sh')) : ObserverStep sh p p' sh' := by
  unfold observerStep at h
  cases htimer : p.timer with
  | off =>
      rw [htimer] at h
      cases h
  | watching =>
      simp only [htimer] at h
      split at h
      · rename_i hcount
        cases h
        exact ObserverStep.expire htimer hcount
      · cases h
        exact ObserverStep.sibling
  | expired =>
      simp only [htimer] at h
      split at h
      · rename_i htype
        cases h
        exact ObserverStep.callback htimer (Or.inl htype)
      · rcases Option.map_eq_some_iff.mp h with ⟨finished, hfinished, heq⟩
        have hflag := FixedBufferQueue.isReadFinished_cases hfinished
        cases finished with
        | true =>
            cases heq
            exact ObserverStep.ignore htimer hflag
        | false =>
            cases heq
            exact ObserverStep.callback htimer (Or.inr hflag)
  | removing =>
      simp only [htimer] at h
      cases h
      exact ObserverStep.remove htimer
  | terminating =>
      simp only [htimer] at h
      split at h
      · rename_i hphase
        cases h
        exact ObserverStep.terminate htimer hphase
      · rename_i hphase
        cases h
        exact ObserverStep.terminateLate htimer hphase
  | returned =>
      rw [htimer] at h
      cases h

omit [DecidableEq ι] in
/-- Outside of `copy` the observation thread touches the timer and the name alone. -/
theorem ObserverStep.lingers {sh sh' : Segment ι} {p p' : Process} (hphase : p.phase ≠ .copy)
    (h : ObserverStep sh p p' sh') :
    exists timer named, p' = { p with timer := timer } ∧ sh' = { sh with named := named } := by
  cases h with
  | terminate htimer hcopy => exact absurd hcopy hphase
  | _ => exact ⟨_, _, rfl, rfl⟩

end Steps

end IPCTool
end Common
end Ki
