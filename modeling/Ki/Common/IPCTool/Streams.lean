import Ki.Common.IPCTool.Delivery

/-!
# Sessions one after the other

Readers and writers may come and go for as long as the segment lives, and each may
be interrupted with a chunk in its hands.  The history of the producers consists of
one segment for each reader, in the order of their registrations, and the history
of the consumers of one segment for each writer.
-/

namespace Ki
namespace IPC
namespace Tool

open Reader
open Writer
open BufferedFileWriter

/-- The amount of its source a reader process has read. -/
def currentOffset : Tool -> Nat
  | .reader fileReader _ => fileReader.currentOffset
  | _ => 0

/-- The chunk in the hands of a reader process, lost if it is interrupted now. -/
def inHand (buffers : Nat -> List UInt8) : Tool -> List UInt8
  | .reader _ pc => BufferedReader.inHand buffers pc.readPc
  | _ => []

/-- What a writer process has written, and the chunk in its hands. -/
def taken (buffers : Nat -> List UInt8) : Tool -> List UInt8
  | .writer fileWriter pc => fileWriter.written ++ pending buffers pc.writePc
  | _ => []

end Tool
end IPC

namespace Common

open Foundation
open Queue
open FixedBufferQueue
open Clients
open Reader
open BufferedReader
open Writer
open BufferedFileWriter
open Stdio
open IPC
open IPCTool

variable {ι : Type} [DecidableEq ι]

/-!
# The order of the registrations
-/

/-- The process, if its step has registered it with the type. -/
def registers (type : ProcessType) (p p' : Process) (me : ι) : List ι :=
  if p.ipcToolType ≠ type ∧ p'.ipcToolType = type then [me] else []

/-- The processes a schedule registers with the type, in the order in which it does. -/
def World.registrations (args : ι -> Args) (type : ProcessType) :
    List (World.Action ι) -> World ι -> List ι
  | [], _ => []
  | a :: rest, s =>
      match World.next args a s with
      | none => []
      | some s' =>
          registers type (s.proc a.1) (s'.proc a.1) a.1 ++
            registrations args type rest s'

omit [DecidableEq ι] in
theorem registers_same {type : ProcessType} {p p' : Process} {me : ι}
    (hsame : p'.ipcToolType = p.ipcToolType) : registers type p p' me = [] := by
  rw [registers, hsame]
  exact if_neg fun h => h.left h.right

/-!
# The segments of a history
-/

/--
The processes ever registered with the type, in their order, each with its part of a
history.
-/
structure Sessions {χ : Type} (type : ProcessType) (s : World ι) (registered : List ι)
    (parts : List (ι × List χ)) : Prop where
  order : parts.map Prod.fst = registered
  nodup : (parts.map Prod.fst).Nodup
  member : forall p, p ∈ parts.map Prod.fst <-> (s.proc p).ipcToolType = type
  /-- the process that holds the role has registered last -/
  last : forall p, Holds (s.proc p) type -> exists front part, parts = front ++ [(p, part)]

omit [DecidableEq ι] in
theorem init_sessions {χ : Type} {type : ProcessType} (htype : type ≠ .invalid)
    (buffers : Nat -> List UInt8) :
    Sessions type (World.init buffers : World ι) [] ([] : List (ι × List χ)) where
  order := rfl
  nodup := List.nodup_nil
  member := by
    intro p
    constructor
    · intro hp
      cases hp
    · intro hp
      exact absurd hp.symm htype
  last := by
    intro p hp
    exact absurd hp.left.symm htype

section Move

variable {χ : Type} {type : ProcessType} {s : World ι} {me : ι} {c : Process}
  {sh : Segment ι} {registered : List ι} {parts : List (ι × List χ)}

/-- A step after which the same processes are registered, and no other one holds the role. -/
theorem Sessions.keep (h : Sessions type s registered parts)
    (htype : c.ipcToolType = type <-> (s.proc me).ipcToolType = type)
    (hholds : Holds c type -> Holds (s.proc me) type) :
    Sessions type (s.move me c sh) registered parts where
  order := h.order
  nodup := h.nodup
  member := by
    intro p
    rw [h.member p]
    exact World.forall_move
      (P := fun q c' => (s.proc q).ipcToolType = type <-> c'.ipcToolType = type)
      htype.symm (fun _ _ => Iff.rfl) p
  last := by
    intro p hp
    apply h.last p
    exact World.forall_move (P := fun q c' => Holds c' type -> Holds (s.proc q) type)
      hholds (fun _ _ => id) p hp

/-- The registration of `me` opens a new part. -/
theorem Sessions.start (h : Sessions type s registered parts)
    (hbefore : (s.proc me).ipcToolType ≠ type) (htype : c.ipcToolType = type)
    (hnone : forall p, ¬ Holds (s.proc p) type) :
    Sessions type (s.move me c sh) (registered ++ [me]) (parts ++ [(me, [])]) where
  order := by
    rw [List.map_append, h.order]
    rfl
  nodup := by
    have hnew : me ∉ parts.map Prod.fst := fun hmem => hbefore ((h.member me).mp hmem)
    rw [List.map_append, List.nodup_append]
    refine ⟨h.nodup, List.nodup_singleton _, ?_⟩
    intro p hp q hq heq
    rw [List.mem_singleton.mp hq] at heq
    rw [heq] at hp
    exact hnew hp
  member := by
    intro p
    rw [List.map_append, List.mem_append, h.member p]
    by_cases hp : p = me
    · subst p
      simp [htype]
    · simp [World.move_proc_of_ne s c sh hp, hp]
  last := by
    intro p hp
    by_cases hpm : p = me
    · subst p
      exact ⟨parts, [], rfl⟩
    · rw [World.move_proc_of_ne s c sh hpm] at hp
      exact absurd hp (hnone p)

omit [DecidableEq ι] in
/-- The last part grows. -/
theorem Sessions.extend {front : List (ι × List χ)} {part : List χ}
    (h : Sessions type s registered (front ++ [(me, part)])) (more : List χ) :
    Sessions type s registered (front ++ [(me, part ++ more)]) where
  order := by
    rw [← h.order, List.map_append, List.map_append]
    rfl
  nodup := by
    have hnodup := h.nodup
    rw [List.map_append] at hnodup ⊢
    exact hnodup
  member := by
    intro p
    rw [← h.member p, List.map_append, List.map_append]
    rfl
  last := by
    intro p hp
    rcases h.last p hp with ⟨front', part', hparts⟩
    rcases List.append_inj' hparts rfl with ⟨rfl, hlast⟩
    cases hlast
    exact ⟨front, part ++ more, rfl⟩

/-- A step aside keeps the parts, or registers `me` and opens a new one. -/
theorem Sessions.aside {args : ι -> Args} (hroles : Roles args s)
    (h : Sessions type s registered parts) (htype : type ≠ .invalid) {event : Event}
    (hstep : ProcessStep (args me) me s.segment (s.proc me) event c sh)
    (haside : Aside (args me) s.segment sh (s.proc me) c) :
    Sessions type (s.move me c sh) (registered ++ registers type (s.proc me) c me) parts ∨
      Sessions type (s.move me c sh) (registered ++ registers type (s.proc me) c me)
          (parts ++ [(me, [])]) ∧
        (s.proc me).phase = .register ∧ c.tool = (s.proc me).tool := by
  have hconsistent := hroles.consistent me
  by_cases hc : c.ipcToolType = type
  · rcases haside.registered hconsistent (by rw [hc]; exact htype) with
      ⟨hsame, _⟩ | ⟨hinvalid, hphase, htool, hdecided, hcount⟩
    · left
      have hme : (s.proc me).ipcToolType = type := hsame.trans hc
      rw [registers_same hsame.symm, List.append_nil]
      refine h.keep ⟨fun _ => hme, fun _ => hc⟩ ?_
      intro hholds
      cases hstep.role hconsistent with
      | same _ hboth => exact (hboth type htype).mp hholds
      | register _ _ hphase =>
          have hunregistered := hconsistent.unregistered (by rw [hphase]; trivial)
          rw [hme] at hunregistered
          exact absurd hunregistered htype
      | deregister _ _ hnone => exact absurd hholds (hnone type)
    · right
      have hbefore : (s.proc me).ipcToolType ≠ type := by
        rw [hinvalid]
        exact Ne.symm htype
      rw [registers, if_pos ⟨hbefore, hc⟩]
      refine ⟨h.start hbefore hc ?_, hphase, htool⟩
      · intro p hp
        rw [← hdecided, hc] at hcount
        rw [hroles.counter_eq_one htype hp] at hcount
        cases hcount
  · left
    have hme : (s.proc me).ipcToolType ≠ type := by
      intro hme
      exact hc ((hstep.keeps_type hconsistent (by rw [hme]; exact htype)).trans hme)
    rw [registers, if_neg fun hnew => hc hnew.right, List.append_nil]
    exact h.keep ⟨fun heq => absurd heq hc, fun heq => absurd heq hme⟩
      (fun hholds => absurd hholds.left hc)

end Move

/-!
# The processes against their parts
-/

omit [DecidableEq ι] in
theorem ReaderData.frame {src : List UInt8} {reader : BufferedReader}
    {buffers buffers' : Nat -> List UInt8} {pc : ReaderPc} {returned : List Payload}
    (h : ReaderData src reader buffers pc returned)
    (hsame : forall b, b ∈ pc.client.held -> buffers' b.data = buffers b.data) :
    ReaderData src reader buffers' pc returned := by
  have hhand : BufferedReader.inHand buffers' pc.readPc =
      BufferedReader.inHand buffers pc.readPc := by
    cases pc with
    | read rpc =>
        cases rpc with
        | storeFinished buf =>
            exact congrArg (List.take buf.bytesUsed) (hsame buf (List.mem_singleton_self buf))
        | finishRead buf =>
            exact congrArg (List.take buf.bytesUsed) (hsame buf (List.mem_singleton_self buf))
        | returnBuffer buf =>
            exact congrArg (List.take buf.bytesUsed) (hsame buf (List.mem_singleton_self buf))
        | _ => rfl
    | _ => rfl
  have hread := h.read
  refine ⟨⟨hread.size, hread.stream, hread.bound, hread.finished, hread.last, ?_⟩,
    h.unopened⟩
  rw [hhand]
  exact hread.bytes

/-- Each process against its part of the history of its side. -/
structure Streams (args : ι -> Args) (s : World ι) (returned delivered : List Payload)
    (rs ws : List ι) (reads writes : List (ι × List Payload)) : Prop where
  readers : Sessions .readerProcess s rs reads
  writers : Sessions .writerProcess s ws writes
  returned : reads.flatMap Prod.snd = returned
  delivered : writes.flatMap Prod.snd = delivered
  reader : forall r part reader pc, (r, part) ∈ reads ->
    (s.proc r).tool = .reader reader pc ->
    ReaderData (args r).src reader s.segment.queue.buffers pc part
  writer : forall w part writer pc, (w, part) ∈ writes ->
    (s.proc w).tool = .writer writer pc ->
    WriterData writer s.segment.queue.buffers pc part

omit [DecidableEq ι] in
theorem init_streams (args : ι -> Args) (buffers : Nat -> List UInt8) :
    Streams args (World.init buffers : World ι) [] [] [] [] [] [] where
  readers := init_sessions (by simp) buffers
  writers := init_sessions (by simp) buffers
  returned := rfl
  delivered := rfl
  reader := by
    intro r part reader pc hmem
    cases hmem
  writer := by
    intro w part writer pc hmem
    cases hmem

section Move

variable {args : ι -> Args} {s : World ι} {me : ι} {c : Process} {sh : Segment ι}
  {returned delivered : List Payload} {rs ws : List ι}
  {reads writes : List (ι × List Payload)}

omit [DecidableEq ι] in
theorem Streams.isReader (h : Streams args s returned delivered rs ws reads writes) {r : ι}
    {part : List Payload} (hmem : (r, part) ∈ reads) : IsReader (s.proc r) :=
  (h.readers.member r).mp (List.mem_map_of_mem hmem)

omit [DecidableEq ι] in
theorem Streams.isWriter (h : Streams args s returned delivered rs ws reads writes) {w : ι}
    {part : List Payload} (hmem : (w, part) ∈ writes) : IsWriter (s.proc w) :=
  (h.writers.member w).mp (List.mem_map_of_mem hmem)

omit [DecidableEq ι] in
/-- The parts of a history belong to different processes. -/
theorem Sessions.front_ne {type : ProcessType} {front : List (ι × List Payload)}
    {part part' : List Payload} {p : ι} (h : Sessions type s rs (front ++ [(me, part)]))
    (hmem : (p, part') ∈ front) : p ≠ me := by
  intro heq
  have hnodup := h.nodup
  rw [List.map_append, List.nodup_append] at hnodup
  exact hnodup.right.right p (List.mem_map_of_mem hmem) me (by simp) heq

theorem Streams.reading (hsrc : (args me).src.length < 2 ^ 63)
    (hlinked : Linked s returned delivered)
    (h : Streams args s returned delivered rs ws reads writes) {io : Io} (hio : io.Succeeds)
    {reader : BufferedReader} {pc : ReaderPc} (hphase : (s.proc me).phase = .copy)
    (hme : IsReader (s.proc me)) (htool : (s.proc me).tool = .reader reader pc)
    (hstep : ReadingStep (args me).src me io s.segment (s.proc me) reader pc c sh) :
    exists reads', Streams args (s.move me c sh)
      (returned ++ pc.produced s.segment.queue) delivered rs ws reads' writes := by
  have hrole := hstep.role hphase
  have hkeep : forall type order (parts : List (ι × List Payload)),
      Sessions type s order parts -> Sessions type (s.move me c sh) order parts := by
    intro type order parts hsessions
    apply hsessions.keep
    · rw [hrole.left]
    · exact fun hholds => ⟨hrole.left.symm.trans hholds.left, Or.inl hphase⟩
  have hheld : forall p, p ≠ me -> forall b, b ∈ (s.proc p).tool.client.held ->
      sh.queue.buffers b.data = s.segment.queue.buffers b.data := by
    intro p hp b hb
    apply hstep.buffers
    intro b' hb'
    refine hlinked.distinct (Ne.symm hp) ?_ hb
    rw [htool]
    exact hb'
  rcases h.readers.last me ⟨hme, Or.inl hphase⟩ with ⟨front, part, rfl⟩
  rcases hstep.data hsrc hio htool (hlinked.typed me)
    (h.reader me part reader pc (by simp) htool) with ⟨reader', pc', htool', hdata⟩
  refine ⟨front ++ [(me, part ++ pc.produced s.segment.queue)],
    (hkeep _ _ _ h.readers).extend _, hkeep _ _ _ h.writers, ?_, h.delivered, ?_, ?_⟩
  · rw [← h.returned]
    simp
  · intro r part' rd rpc hmem hrtool
    rcases List.mem_append.mp hmem with hfront | hlast
    · have hrm := h.readers.front_ne hfront
      rw [World.move_proc_of_ne s c sh hrm] at hrtool
      apply (h.reader r part' rd rpc (List.mem_append_left _ hfront) hrtool).frame
      intro b hb
      apply hheld r hrm b
      rw [hrtool]
      exact hb
    · cases List.mem_singleton.mp hlast
      rw [World.move_proc_self, htool'] at hrtool
      cases hrtool
      exact hdata
  · intro w part' writer wpc hmem hwtool
    have hwm : w ≠ me := by
      intro heq
      have hwriter := h.isWriter hmem
      rw [heq] at hwriter
      exact hme.not_isWriter hwriter
    rw [World.move_proc_of_ne s c sh hwm] at hwtool
    apply (h.writer w part' writer wpc hmem hwtool).frame
    intro b hb
    apply hheld w hwm b
    rw [hwtool]
    exact hb

theorem Streams.writing (h : Streams args s returned delivered rs ws reads writes) {io : Io}
    (hio : io.Succeeds) {writer writer' : BufferedFileWriter} {pc pc' : WriterPc}
    (hphase : (s.proc me).phase = .copy) (hme : IsWriter (s.proc me))
    (htool : (s.proc me).tool = .writer writer pc)
    (hstep : WritingStep me io s.segment (s.proc me) writer pc c sh)
    (htool' : c.tool = .writer writer' pc') :
    exists writes', Streams args (s.move me c sh) returned
      (delivered ++ pc'.delivered s.segment.queue) rs ws reads writes' := by
  have hrole := hstep.role hphase
  have hkeep : forall type order (parts : List (ι × List Payload)),
      Sessions type s order parts -> Sessions type (s.move me c sh) order parts := by
    intro type order parts hsessions
    apply hsessions.keep
    · rw [hrole.left]
    · exact fun hholds => ⟨hrole.left.symm.trans hholds.left, Or.inl hphase⟩
  rcases h.writers.last me ⟨hme, Or.inl hphase⟩ with ⟨front, part, rfl⟩
  have hdata := hstep.data hio htool (h.writer me part writer pc (by simp) htool) htool'
  refine ⟨front ++ [(me, part ++ pc'.delivered s.segment.queue)],
    hkeep _ _ _ h.readers, (hkeep _ _ _ h.writers).extend _, h.returned, ?_, ?_, ?_⟩
  · rw [← h.delivered]
    simp
  · intro r part' reader rpc hmem hrtool
    have hrm : r ≠ me := by
      intro heq
      have hreader := h.isReader hmem
      rw [heq] at hreader
      exact hreader.not_isWriter hme
    rw [World.move_proc_of_ne s c sh hrm] at hrtool
    rw [World.move_segment, hstep.buffers]
    exact h.reader r part' reader rpc hmem hrtool
  · intro w part' wr wpc hmem hwtool
    rcases List.mem_append.mp hmem with hfront | hlast
    · rw [World.move_proc_of_ne s c sh (h.writers.front_ne hfront)] at hwtool
      rw [World.move_segment, hstep.buffers]
      exact h.writer w part' wr wpc (List.mem_append_left _ hfront) hwtool
    · cases List.mem_singleton.mp hlast
      rw [World.move_proc_self, htool'] at hwtool
      cases hwtool
      exact hdata

/-- A process that has been registered keeps its tool in a step aside. -/
theorem Aside.move_tool {type : ProcessType} (htype : type ≠ .invalid) {p : ι}
    (hconsistent : Consistent (args me) (s.proc me))
    (haside : Aside (args me) s.segment sh (s.proc me) c)
    (hp : (s.proc p).ipcToolType = type) :
    ((s.move me c sh).proc p).tool = (s.proc p).tool :=
  World.forall_move
    (P := fun q c' => (s.proc q).ipcToolType = type -> c'.tool = (s.proc q).tool)
    (fun hme => (haside.keeps hconsistent (by rw [hme]; exact htype)).right)
    (fun _ _ _ => rfl) p hp

theorem Streams.readers_aside {event : Event} (hroles : Roles args s)
    (h : Streams args s returned delivered rs ws reads writes)
    (hstep : ProcessStep (args me) me s.segment (s.proc me) event c sh)
    (haside : Aside (args me) s.segment sh (s.proc me) c) :
    exists reads', Sessions .readerProcess (s.move me c sh)
        (rs ++ registers .readerProcess (s.proc me) c me) reads' ∧
      reads'.flatMap Prod.snd = returned ∧
      forall r part reader pc, (r, part) ∈ reads' ->
        ((s.move me c sh).proc r).tool = .reader reader pc ->
        ReaderData (args r).src reader sh.queue.buffers pc part := by
  have hconsistent := hroles.consistent me
  have hbefore : forall r part reader pc, (r, part) ∈ reads ->
      ((s.move me c sh).proc r).tool = .reader reader pc ->
      ReaderData (args r).src reader sh.queue.buffers pc part := by
    intro r part reader pc hmem hrtool
    rw [haside.move_tool (by simp) hconsistent (h.isReader hmem)] at hrtool
    rw [haside.queue]
    exact h.reader r part reader pc hmem hrtool
  rcases h.readers.aside hroles (by simp) hstep haside with
    hsame | ⟨hnew, hphase, htool⟩
  · exact ⟨reads, hsame, h.returned, hbefore⟩
  · refine ⟨reads ++ [(me, [])], hnew, ?_, ?_⟩
    · rw [← h.returned]
      simp
    · intro r part reader pc hmem hrtool
      rcases List.mem_append.mp hmem with hold | hlast
      · exact hbefore r part reader pc hold hrtool
      · cases List.mem_singleton.mp hlast
        rw [World.move_proc_self, htool] at hrtool
        rcases hconsistent.decided_reader hphase hrtool with ⟨rfl, rfl⟩
        exact ⟨ReadData.new _ _, fun _ => ⟨rfl, rfl⟩⟩

theorem Streams.writers_aside {event : Event} (hroles : Roles args s)
    (h : Streams args s returned delivered rs ws reads writes)
    (hstep : ProcessStep (args me) me s.segment (s.proc me) event c sh)
    (haside : Aside (args me) s.segment sh (s.proc me) c) :
    exists writes', Sessions .writerProcess (s.move me c sh)
        (ws ++ registers .writerProcess (s.proc me) c me) writes' ∧
      writes'.flatMap Prod.snd = delivered ∧
      forall w part writer pc, (w, part) ∈ writes' ->
        ((s.move me c sh).proc w).tool = .writer writer pc ->
        WriterData writer sh.queue.buffers pc part := by
  have hconsistent := hroles.consistent me
  have hbefore : forall w part writer pc, (w, part) ∈ writes ->
      ((s.move me c sh).proc w).tool = .writer writer pc ->
      WriterData writer sh.queue.buffers pc part := by
    intro w part writer pc hmem hwtool
    rw [haside.move_tool (by simp) hconsistent (h.isWriter hmem)] at hwtool
    rw [haside.queue]
    exact h.writer w part writer pc hmem hwtool
  rcases h.writers.aside hroles (by simp) hstep haside with
    hsame | ⟨hnew, hphase, htool⟩
  · exact ⟨writes, hsame, h.delivered, hbefore⟩
  · refine ⟨writes ++ [(me, [])], hnew, ?_, ?_⟩
    · rw [← h.delivered]
      simp
    · intro w part writer pc hmem hwtool
      rcases List.mem_append.mp hmem with hold | hlast
      · exact hbefore w part writer pc hold hwtool
      · cases List.mem_singleton.mp hlast
        rw [World.move_proc_self, htool] at hwtool
        rcases hconsistent.decided_writer hphase hwtool with ⟨rfl, dst, rfl⟩
        exact ⟨rfl, fun _ => rfl⟩

end Move

/-!
# Runs of any number of sessions
-/

/-- What holds in every run whose stdio calls succeed, after these registrations. -/
structure Streaming (args : ι -> Args) (s : World ι) (rs ws : List ι) : Prop where
  roles : Roles args s
  data : exists returned delivered reads writes, Linked s returned delivered ∧
    Streams args s returned delivered rs ws reads writes

omit [DecidableEq ι] in
theorem init_streaming (args : ι -> Args) (buffers : Nat -> List UInt8) :
    Streaming args (World.init buffers : World ι) [] [] where
  roles := init_roles args buffers
  data := ⟨[], [], [], [], init_linked buffers, init_streams args buffers⟩

theorem Streaming.next {args : ι -> Args}
    (hsrc : forall p, (args p).src.length < 2 ^ 63) {s s' : World ι} {rs ws : List ι}
    {a : World.Action ι} (h : Streaming args s rs ws) (hguard : Succeeds a.2)
    (hnext : World.next args a s = some s') :
    Streaming args s' (rs ++ registers .readerProcess (s.proc a.1) (s'.proc a.1) a.1)
      (ws ++ registers .writerProcess (s.proc a.1) (s'.proc a.1) a.1) := by
  refine ⟨next_roles h.roles hnext, ?_⟩
  rcases a with ⟨me, event⟩
  rcases World.next_cases hnext with ⟨c, sh, rfl, hstep⟩
  rcases h.data with ⟨returned, delivered, reads, writes, hlinked, hstreams⟩
  rw [World.move_proc_self]
  cases hstep.copyOrAside (h.roles.consistent me) with
  | reading reader pc hphase htype htool hreading =>
      have hsame := (hreading.role hphase).left
      rw [registers_same hsame, registers_same hsame, List.append_nil, List.append_nil]
      rcases hstreams.reading (hsrc me) hlinked hguard hphase htype htool hreading with
        ⟨reads', hstreams'⟩
      exact ⟨_, _, _, _, hlinked.reading htool hreading, hstreams'⟩
  | writing writer pc hphase htype htool hwriting =>
      have hsame := (hwriting.role hphase).left
      rw [registers_same hsame, registers_same hsame, List.append_nil, List.append_nil]
      rcases hlinked.writing htool hwriting with ⟨writer', pc', htool', hlinked'⟩
      rcases hstreams.writing hguard hphase htype htool hwriting htool' with
        ⟨writes', hstreams'⟩
      exact ⟨_, _, _, _, hlinked', hstreams'⟩
  | aside haside =>
      rcases hstreams.readers_aside h.roles hstep haside with
        ⟨reads', hreaders, hreturned, hreader⟩
      rcases hstreams.writers_aside h.roles hstep haside with
        ⟨writes', hwriters, hdelivered, hwriter⟩
      exact ⟨_, _, _, _, hlinked.aside haside,
        hreaders, hwriters, hreturned, hdelivered, hreader, hwriter⟩

theorem Streaming.exec {args : ι -> Args}
    (hsrc : forall p, (args p).src.length < 2 ^ 63) (as : List (World.Action ι))
    {s s' : World ι} {rs ws : List ι} (h : Streaming args s rs ws)
    (hio : forall a, a ∈ as -> Succeeds a.2)
    (hexec : exec (World.next args) as s = some s') :
    Streaming args s' (rs ++ World.registrations args .readerProcess as s)
      (ws ++ World.registrations args .writerProcess as s) := by
  induction as generalizing s rs ws with
  | nil =>
      cases hexec
      rw [World.registrations, World.registrations, List.append_nil, List.append_nil]
      exact h
  | cons a rest ih =>
      rcases Option.bind_eq_some_iff.mp hexec with ⟨mid, hmid, hrest⟩
      have hnext := h.next hsrc (hio a List.mem_cons_self) hmid
      have htail := ih hnext (fun b hb => hio b (List.mem_cons_of_mem a hb)) hrest
      simpa only [World.registrations, hmid, List.append_assoc] using htail

omit [DecidableEq ι] in
/-- The bytes of the parts. -/
theorem Sessions.bytes {type : ProcessType} {s : World ι} {registered : List ι}
    {parts : List (ι × List Payload)} (h : Sessions type s registered parts) :
    Sessions type s registered (parts.map fun x => (x.1, bytesOf x.2)) where
  order := by
    rw [List.map_map]
    exact h.order
  nodup := by
    rw [List.map_map]
    exact h.nodup
  member := by
    intro p
    rw [List.map_map]
    exact h.member p
  last := by
    intro p hp
    rcases h.last p hp with ⟨front, part, rfl⟩
    exact ⟨_, _, List.map_append⟩

omit [DecidableEq ι] in
theorem flatMap_bytes (parts : List (ι × List Payload)) :
    (parts.map fun x => (x.1, bytesOf x.2)).flatMap Prod.snd =
      bytesOf (parts.flatMap Prod.snd) := by
  induction parts with
  | nil => rfl
  | cons x rest ih => simp [ih]

/--
In every run of any number of processes whose stdio calls succeed, interruptions
included, the bytes taken by the writers in the order of their registrations, followed
by the bytes in the queue, are the bytes sent by the readers in the order of theirs;
and what a reader has sent is what it has read, up to the chunk in its hands.
-/
theorem streams_conserved (args : ι -> Args)
    (hsrc : forall p, (args p).src.length < 2 ^ 63) (buffers : Nat -> List UInt8)
    (as : List (World.Action ι)) (hio : forall a, a ∈ as -> Succeeds a.2) (s : World ι)
    (hexec : exec (World.next args) as (World.init buffers) = some s) :
    exists reads writes : List (ι × List UInt8),
      Sessions .readerProcess s
        (World.registrations args .readerProcess as (World.init buffers)) reads ∧
      Sessions .writerProcess s
        (World.registrations args .writerProcess as (World.init buffers)) writes ∧
      (forall r bytes, (r, bytes) ∈ reads ->
        bytes ++ (s.proc r).tool.inHand s.segment.queue.buffers =
          (args r).src.take (s.proc r).tool.currentOffset) ∧
      (forall w bytes, (w, bytes) ∈ writes ->
        bytes = (s.proc w).tool.taken s.segment.queue.buffers) ∧
      writes.flatMap Prod.snd ++
          bytesOf (s.segment.queue.writeBuffers.map s.segment.queue.payload) =
        reads.flatMap Prod.snd := by
  have hinv := (init_streaming args buffers).exec hsrc as hio hexec
  rw [List.nil_append, List.nil_append] at hinv
  rcases hinv.data with ⟨returned, delivered, reads, writes, hlinked, hstreams⟩
  refine ⟨_, _, hstreams.readers.bytes, hstreams.writers.bytes, ?_, ?_, ?_⟩
  · intro r bytes hmem
    rcases List.mem_map.mp hmem with ⟨⟨r', part⟩, hpart, heq⟩
    cases heq
    rcases hinv.roles.reader_tool (hstreams.isReader hpart) with ⟨reader, pc, htool⟩
    have hdata := (hstreams.reader r' part reader pc hpart htool).read.bytes
    simp only [htool]
    exact hdata
  · intro w bytes hmem
    rcases List.mem_map.mp hmem with ⟨⟨w', part⟩, hpart, heq⟩
    cases heq
    rcases hinv.roles.writer_tool (hstreams.isWriter hpart) with ⟨writer, pc, htool⟩
    have hdata := (hstreams.writer w' part writer pc hpart htool).write
    simp only [htool]
    exact hdata.symm
  · have hfifo : delivered ++ s.segment.queue.writeBuffers.map s.segment.queue.payload =
        returned := hlinked.clients.fifo
    rw [flatMap_bytes, flatMap_bytes, hstreams.delivered, hstreams.returned,
      ← hfifo, bytesOf_append]

/--
A reader is interrupted once its chunk is in the queue, another one takes its place, and
the writer takes the chunk of the first.
-/
def secondSession : List (World.Action Pid) :=
  World.turns .first 16 ++ World.turns .third 3 ++ [(.first, .interrupt)] ++
    World.turns .first 1 ++ World.turns .third 12 ++ World.turns .second 12

theorem streams_conserved_secondSession :
    exists (s : World Pid) (reads writes : List (Pid × List UInt8)),
      exec (World.next (sources [1, 2] [7])) secondSession (World.init fun _ => []) =
        some s ∧
      Sessions .readerProcess s [.first, .third] reads ∧
      Sessions .writerProcess s [.second] writes ∧
      (s.proc .second).tool.taken s.segment.queue.buffers = [1, 2] ∧
      writes.flatMap Prod.snd ++ [7] = reads.flatMap Prod.snd := by
  have hview : ((exec (World.next (sources [1, 2] [7])) secondSession
      (World.init fun _ => [])).map fun s =>
        ((s.proc .second).tool.taken s.segment.queue.buffers,
          bytesOf (s.segment.queue.writeBuffers.map s.segment.queue.payload))) =
      some ([1, 2], [7]) := by
    decide +kernel
  have hrs : World.registrations (sources [1, 2] [7]) .readerProcess secondSession
      (World.init fun _ => []) = [.first, .third] := by
    decide +kernel
  have hws : World.registrations (sources [1, 2] [7]) .writerProcess secondSession
      (World.init fun _ => []) = [.second] := by
    decide +kernel
  rcases Option.map_eq_some_iff.mp hview with ⟨s, hexec, hbytes⟩
  rw [Prod.mk.injEq] at hbytes
  rcases streams_conserved (sources [1, 2] [7]) (by decide) _ secondSession
    (by decide +kernel) s hexec with ⟨reads, writes, hreads, hwrites, _, _, hconserved⟩
  rw [hrs] at hreads
  rw [hws] at hwrites
  rw [hbytes.right] at hconserved
  exact ⟨s, reads, writes, hexec, hreads, hwrites, hbytes.left, hconserved⟩

end Common
end Ki
