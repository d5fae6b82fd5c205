import Ki.Queue.Ownership

/-!
# Delivery in order

What `getFilledBuffer` delivers is a prefix of what producers have returned, and
the bytes a consumer sees in a buffer in its hands are the bytes delivered: the
arrays are recycled, but nobody writes into one that somebody else holds.
-/

namespace Ki
namespace Queue

open Foundation
open FixedBufferQueue

namespace Clients

variable {ι : Type}

/-- Every filled buffer in hand still shows a pair that was delivered. -/
def Intact (s : Clients ι) : Prop :=
  forall t b, b ∈ (s.client t).held -> b.bufferType = .write ->
    s.queue.payload b ∈ s.delivered

theorem init_intact (buffers : Nat -> List UInt8) :
    Intact (init buffers : Clients ι) := by
  intro t b hb
  cases hb

/-- Two buffers in hand with one array are the same buffer. -/
theorem Inv.held_eq {s : Clients ι} (h : Inv s) {t u : ι} {b b' : Buffer}
    (hb : b ∈ (s.client t).held) (hb' : b' ∈ (s.client u).held)
    (hdata : b'.data = b.data) : b' = b := by
  have hmem : b.data ∈ s.cells (.heldBy t) := List.mem_map_of_mem hb
  have hmem' : b.data ∈ s.cells (.heldBy u) := by
    rw [← hdata]
    exact List.mem_map_of_mem hb'
  have hplace := h.owned.eq_of_mem hmem hmem'
  cases hplace
  rcases h.owned with ⟨owner, howner⟩
  have hnodup : ((s.client t).held.map Buffer.data).Nodup := (howner (.heldBy t)).left
  exact List.inj_on_of_nodup_map hnodup hb' hb hdata

variable [DecidableEq ι]

theorem Intact.advance {s : Clients ι} (h : Intact s) {t : ι}
    {q : FixedBufferQueue ι} {c : Client} {ret del : List Payload}
    (hothers : forall u b, u ≠ t -> b ∈ (s.client u).held -> b.bufferType = .write ->
      q.payload b = s.queue.payload b)
    (hself : forall b, b ∈ c.held -> b.bufferType = .write ->
      q.payload b ∈ s.delivered ++ del) :
    Intact (s.advance t q c ret del) := by
  intro u b hb hwrite
  show q.payload b ∈ s.delivered ++ del
  by_cases hu : u = t
  · subst u
    exact hself b (by simpa using hb) hwrite
  · rw [advance_client_of_ne s q c ret del hu] at hb
    rw [hothers u b hu hb hwrite]
    exact List.mem_append_left del (h u b hb hwrite)

/-- The case of a step that leaves the arrays alone and takes nothing. -/
theorem Intact.advance_control {s : Clients ι} (h : Intact s) {t : ι}
    {q : FixedBufferQueue ι} {c : Client} {ret del : List Payload}
    (hbuffers : q.buffers = s.queue.buffers)
    (hheld : forall b, b ∈ c.held -> b ∈ (s.client t).held) :
    Intact (s.advance t q c ret del) := by
  have hpayload := payload_congr hbuffers
  refine h.advance ?_ ?_
  · intro u b _ _ _
    rw [hpayload]
  · intro b hb hwrite
    rw [hpayload]
    exact List.mem_append_left del (h t b (hheld b hb) hwrite)

theorem Intact.get {s : Clients ι} (h : Intact s) {t : ι} {side : BufferType}
    {pc : GetPc} {r : GetResult} {q : FixedBufferQueue ι}
    (hget : s.queue.getStep side t pc = some (r, q)) :
    Intact (s.advance t q (Client.afterGet (s.client t).held side r) []
      (deliveredBy q side r)) := by
  have hbuffers := getStep_buffers hget
  cases getStep_cases hget with
  | @take b rest hpop =>
      have hpayload := payload_congr hbuffers
      refine h.advance ?_ ?_
      · intro u b' _ _ _
        rw [hpayload]
      · intro b' hb' hwrite
        rcases List.mem_cons.mp hb' with rfl | hb'
        · have hside : side = .write := hwrite
          subst side
          exact List.mem_append_right _ List.mem_cons_self
        · rw [hpayload]
          exact List.mem_append_left _ (h t b' hb' hwrite)
  | _ => exact h.advance_control hbuffers (fun _ hb => hb)

theorem Intact.fill {s : Clients ι} (h : Intact s) (hinv : Inv s) {t : ι} {b : Buffer}
    (hheld : b ∈ (s.client t).held) (hread : b.bufferType = .read)
    (bytesUsed : Nat) (contents : List UInt8) :
    Intact (s.advance t
      { s.queue with buffers := Function.update s.queue.buffers b.data contents }
      ⟨.idle, { b with bytesUsed := bytesUsed } :: (s.client t).held.erase b⟩ [] []) := by
  -- a filled buffer in hand is another buffer, so it has another array
  have hsame : forall u b', b' ∈ (s.client u).held -> b'.bufferType = .write ->
      ({ s.queue with buffers :=
          Function.update s.queue.buffers b.data contents } :
        FixedBufferQueue ι).payload b' = s.queue.payload b' := by
    intro u b' hb' hwrite
    have hne : b'.data ≠ b.data := by
      intro hdata
      have heq := hinv.held_eq hheld hb' hdata
      subst b'
      rw [hread] at hwrite
      cases hwrite
    simp [FixedBufferQueue.payload, hne]
  refine h.advance ?_ ?_
  · intro u b' _ hb' hwrite
    exact hsame u b' hb' hwrite
  · intro b' hb' hwrite
    rcases List.mem_cons.mp hb' with rfl | hb'
    · have htype : b.bufferType = .write := hwrite
      rw [hread] at htype
      cases htype
    · have hold := List.mem_of_mem_erase hb'
      rw [hsame t b' hold hwrite]
      exact List.mem_append_left [] (h t b' hold hwrite)

theorem Intact.step {s s' : Clients ι} {op : Op ι} (h : Intact s) (hinv : Inv s)
    (hstep : Step s op s') : Intact s' := by
  cases hstep with
  | call side hidle => exact h.advance_control rfl (fun _ hb => hb)
  | get hcall hget => exact h.get hget
  | fill hidle hheld hread bytesUsed contents =>
      exact h.fill hinv hheld hread bytesUsed contents
  | returnBuffer hidle hheld hreturn =>
      rcases returnBuffer_cases hreturn with ⟨_, rfl⟩
      exact h.advance_control (setDeque_buffers _ _ _)
        (fun _ hb => List.mem_of_mem_erase hb)
  | notify hcall => exact h.advance_control rfl (fun _ hb => hb)
  | finishRead hfinish =>
      rcases finishRead_cases hfinish with ⟨_, rfl⟩
      exact h
  | open' => exact h
  | close => exact h

theorem reaches_intact {s s' : Clients ι} {guard : Clients ι -> Op ι -> Prop}
    (hinv : Inv s) (h : Intact s) (hrun : Reaches Step guard s s') :
    Inv s' ∧ Intact s' := by
  refine Reaches.invariant (fun x => Inv x ∧ Intact x) ?_ hrun ⟨hinv, h⟩
  intro x op x' hx _ hstep
  exact ⟨step_inv hx.left hstep, hx.right.step hx.left hstep⟩

/--
In every run of any number of producers and consumers the delivered pairs are a
prefix of the returned ones, a consumer still sees what was delivered, and
`getFilledBuffer` gives `nullopt` only on a closed queue with every returned pair
delivered.
-/
theorem delivers_in_order (buffers : Nat -> List UInt8) (s : Clients ι)
    (hrun : Reaches Step OpenOutsideTests (init buffers) s) :
    s.delivered <+: s.returned ∧
      (forall t b, b ∈ (s.client t).held -> b.bufferType = .write ->
        s.queue.payload b ∈ s.delivered) ∧
      forall t pc q, (s.client t).call = .get .write pc ->
        s.queue.getFilledBuffer t pc = some (.nullopt, q) ->
        s.queue.isOpen = false ∧ s.delivered = s.returned := by
  rcases reaches_intact (init_inv buffers) (init_intact buffers) hrun with
    ⟨hinv, hintact⟩
  have hfifo := hinv.fifo
  refine ⟨⟨_, hfifo⟩, hintact, ?_⟩
  intro t pc q _ hget
  cases getStep_cases hget with
  | nullopt hempty hclosed =>
      have hwrite : s.queue.writeBuffers = [] := hempty
      rw [hwrite, List.map_nil, List.append_nil] at hfifo
      exact ⟨hclosed, hfifo⟩

/-- The queue is closed, and the consumer asks for one more filled buffer. -/
def roundsThenClosed : List (Choice Party) :=
  secondRound ++ [.close, .call .consumer .write, .get .consumer]

theorem delivers_in_order_roundsThenClosed :
    exists (s : Clients Party) (b : Buffer) (q : FixedBufferQueue Party),
      Reaches Step OpenOutsideTests (init fun _ => []) s ∧
      s.returned = [(2, [1, 2]), (1, [7])] ∧
      (s.client .consumer).held = [b] ∧ s.queue.payload b = (1, [7]) ∧
      s.queue.payload b ∈ s.delivered ∧
      s.queue.getFilledBuffer .consumer .recheck = some (.nullopt, q) ∧
      s.delivered = s.returned := by
  have hview : (exec next roundsThenClosed (init fun _ => [])).map (fun s =>
      (s.returned, s.client .consumer, s.queue.payload ⟨511, 1, .write⟩)) =
      some ([(2, [1, 2]), (1, [7])], ⟨.get .write .recheck, [⟨511, 1, .write⟩]⟩,
        (1, [7])) := by
    decide +kernel
  have hview' : (exec next roundsThenClosed (init fun _ => [])).map (fun s =>
      (s.queue.writeBuffers, s.queue.isOpen)) = some ([], false) := by
    decide +kernel
  rcases Option.map_eq_some_iff.mp hview with ⟨s, hexec, hview⟩
  rw [hexec] at hview'
  have hqueue := Option.some.inj hview'
  simp only [Prod.mk.injEq] at hview hqueue
  rcases hview with ⟨hreturned, hconsumer, hpayload⟩
  rcases hqueue with ⟨hempty, hclosed⟩
  have hrun : Reaches Step OpenOutsideTests (init fun _ => []) s :=
    reaches_of_choices roundsThenClosed (by decide +kernel) hexec
  have hwritten : s.queue.dequeOf .write = [] := hempty
  have hget := getStep_recheck Party.consumer hwritten
  rw [hclosed] at hget
  have horder := delivers_in_order (fun _ => []) s hrun
  have hmine := horder.right.left .consumer ⟨511, 1, .write⟩ (by simp [hconsumer]) rfl
  have hall := horder.right.right .consumer .recheck _ (by rw [hconsumer]) hget
  exact ⟨s, _, _, hrun, hreturned, by rw [hconsumer], hpayload, hmine, hget, hall.right⟩

end Clients
end Queue
end Ki
