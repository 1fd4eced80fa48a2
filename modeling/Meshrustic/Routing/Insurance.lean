import Meshrustic.Routing.Echo

/-!
# The originator's T1

`send_local` arms T1 for a broadcast, to repeat it if no relay of it is heard.
T1 also stands down for a packet that our own transmission is on record for,
which is right for a relay and defeats the timer of the originator: the
record is written when the packet itself goes out.

Results:
* `step_t1_stays`: what leaves an armed slot alone.
* `own_t1_fires_iff`: when the timer of a packet of ours does what it is for.
-/
namespace Meshrustic.Routing

open Meshrustic.RateLimit (NODENUM_BROADCAST SIGNAL_ROUTING_APP)

/-- The tests that a slot has to pass in `poll_t1_retransmit`. -/
def Router.t1Fires (r : Router) (nowMs : UInt32) (drops : PendingRetransmit → Bool)
    (s : PendingRetransmit) : Bool :=
  s.live && !notYet nowMs s.fireAfterMs &&
    !((s.frame.header.fromNode != r.nodeNum && !r.graph.isRebroadcaster) || drops s) &&
    !r.graph.hasOurTransmission s.fromNode s.packetId nowMs

/-- A call that neither concerns the packet nor lets its timer run out: no copy
of it is heard, no T1 is polled from the fire time on, its frame is not
discarded and the radio is not reconfigured. -/
def LeavesT1 (k : PacketKey) (fireAfterMs : UInt32) : Event → Prop
  | .receive packet _ _ _ _ => packet.header.key ≠ k
  | .pollT1Retransmit nowMs _ => notYet nowMs fireAfterMs = true
  | .discardQueuedForward f i => (f, i) ≠ k
  | .radioReconfigured _ _ => False
  | _ => True

section Slot

variable {r : Router} {nowMs : UInt32} {drops : PendingRetransmit → Bool} {x : PendingRetransmit}

theorem t1Visit_fires (h : r.t1Fires nowMs drops x = true) :
    r.t1Visit nowMs drops x = .stop { x with active := false, fired := true } ⟨x.frame, 0⟩ := by
  simp only [Router.t1Fires, PendingRetransmit.live, Bool.and_eq_true, Bool.not_eq_true'] at h
  obtain ⟨⟨⟨⟨ha, hc⟩, hdue⟩, hlets⟩, hsent⟩ := h
  unfold Router.t1Visit
  simp [ha, hc, hdue, hlets, hsent]

theorem t1Visit_passes (h : r.t1Fires nowMs drops x = false) :
    ∃ y, r.t1Visit nowMs drops x = .pass y := by
  unfold Router.t1Visit
  split
  · exact ⟨_, rfl⟩
  rename_i hlive
  split
  · exact ⟨_, rfl⟩
  rename_i hdue
  split
  · exact ⟨_, rfl⟩
  rename_i hlets
  split
  · exact ⟨_, rfl⟩
  · rename_i hsent
    have hl : x.live = true := by simpa [PendingRetransmit.live] using hlive
    simp [Router.t1Fires, hl, hdue, hlets, hsent] at h

/-- The slot that ends a scan is live and fires. -/
theorem t1Visit_stops {y : PendingRetransmit} {b : RelayPlan}
    (h : r.t1Visit nowMs drops x = .stop y b) :
    r.t1Fires nowMs drops x = true ∧ x.live = true ∧
      y = { x with active := false, fired := true } ∧ b = ⟨x.frame, 0⟩ := by
  have hfires : r.t1Fires nowMs drops x = true := by
    cases hf : r.t1Fires nowMs drops x
    · obtain ⟨z, hz⟩ := t1Visit_passes hf
      rw [hz] at h
      cases h
    · rfl
  rw [t1Visit_fires hfires] at h
  cases h
  have hlive := hfires
  simp only [Router.t1Fires, Bool.and_eq_true] at hlive
  exact ⟨hfires, hlive.1.1.1, rfl, rfl⟩

/-- A free slot takes the packet, unless a slot has it already. -/
theorem scheduleT1Broadcast_places {frame : Frame} {portnum relay : Option UInt32} {delay : UInt32}
    (hnew : ∀ s ∈ r.pendingRetransmits, s.active = true → s.key ≠ frame.key)
    (hfree : ∃ s ∈ r.pendingRetransmits, (!s.active || s.canceled) = true) :
    Router.armedSlot frame portnum relay nowMs delay ∈
      (r.scheduleT1Broadcast frame portnum relay nowMs delay).pendingRetransmits := by
  unfold Router.scheduleT1Broadcast
  dsimp only
  split
  · rename_i hany
    obtain ⟨s, hs, hmatch⟩ := Slots.any_eq_true.mp hany
    rw [Bool.and_eq_true, PendingRetransmit.named_iff] at hmatch
    exact absurd hmatch.2 (hnew s hs hmatch.1)
  · split
    · rename_i t ht
      exact Slots.placed_mem ht
    · rename_i hnone
      obtain ⟨s, hs, hf⟩ := hfree
      rw [Slots.place_none hnone s hs] at hf
      cases hf

/-- Live slots are not taken for another packet. -/
theorem scheduleT1Broadcast_keeps (hx : x ∈ r.pendingRetransmits) (hlive : x.live = true)
    (frame : Frame) (portnum relay : Option UInt32) (delay : UInt32) :
    x ∈ (r.scheduleT1Broadcast frame portnum relay nowMs delay).pendingRetransmits := by
  rcases r.scheduleT1Broadcast_cases frame portnum relay nowMs delay with heq | ⟨-, t, ht, heq⟩ <;>
    rw [heq]
  · exact hx
  · refine Slots.mem_place_of_not_free ht hx ?_
    simp only [PendingRetransmit.live, Bool.and_eq_true, Bool.not_eq_true'] at hlive
    simp [hlive]

/-- An armed slot stays as it is. -/
theorem step_t1_stays {e : Event} (hx : x ∈ r.pendingRetransmits) (hlive : x.live = true)
    (hfired : x.fired = false) (he : LeavesT1 x.key x.fireAfterMs e) :
    x ∈ (r.step e).1.pendingRetransmits := by
  cases e with
  | receive p a hu v n =>
    have hp := r.processInbound_t1 p a n hx (Ne.symm he)
    change x ∈ (r.receive p a hu v n).1.pendingRetransmits
    rcases receive_aside (r := r) p a hu v n with h | ⟨_, _, _, _, h⟩ <;> rw [h.t1]
    · exact hp
    · exact scheduleT1Broadcast_keeps hp hlive _ _ _ _
  | sendLocal q n =>
    change x ∈ (r.sendLocal q n).1.pendingRetransmits
    rcases sendLocal_aside (r := r) q n with h | ⟨s, _, _, _, h, heq⟩
    · rwa [h.t1]
    · rw [heq]
      exact scheduleT1Broadcast_keeps (by rwa [h.t1]) hlive _ _ _ _
  | pollAdminTx f d => rwa [← (pollAdminTx_aside (r := r) f d).t1] at hx
  | pollReadyRelay n a q => rwa [← (pollReadyRelay_aside (r := r) n a q).t1] at hx
  | pollReliableRetransmit n d alt =>
    rwa [← (pollReliableRetransmit_aside (r := r) n d alt).t1] at hx
  | pollT1Retransmit n d =>
    refine mem_sweep hx ?_
    simp only [PendingRetransmit.live, Bool.and_eq_true, Bool.not_eq_true'] at hlive
    have hwait : notYet n x.fireAfterMs = true := he
    unfold Router.t1Visit
    simp [hlive, hwait]
  | noteTxDone f i n =>
    change x ∈ (r.noteTxDone f i n).pendingRetransmits
    unfold Router.noteTxDone
    split
    · exact hx
    · refine Slots.mem_map.mpr ⟨x, hx, ?_⟩
      split
      · rw [← hfired]
      · rfl
  | discardQueuedForward f i =>
    have h : Spares (f, i) r { r.cancelPending f i with graph := r.graph.cancelRelay f i } :=
      .of_eq rfl rfl
    exact (h.trans (Router.cancelT1Retransmit_spares f i)).t1 x hx (Ne.symm he)
  | maintenance n k =>
    change x ∈ (Router.drawTxIds k { r with graph := r.graph.clearExpiredCommits n }).pendingRetransmits
    rwa [(drawTxIds_aside k).t1]
  | radioReconfigured c w => exact he.elim
  | _ => exact hx

theorem run_t1_stays {s : Router} {ls : List (Event × Output)} (hr : routerLTS.Run r ls s)
    (hx : x ∈ r.pendingRetransmits) (hlive : x.live = true) (hfired : x.fired = false)
    (hls : ∀ l ∈ ls, LeavesT1 x.key x.fireAfterMs l.1) : x ∈ s.pendingRetransmits := by
  refine (hr.labels (I := fun s => x ∈ s.pendingRetransmits)
    (P := fun l => LeavesT1 x.key x.fireAfterMs l.1) (Q := fun _ => True) ?_ hx hls).1
  rintro s l t hs hl ⟨_, heq⟩
  have := step_t1_stays hs hlive hfired hl
  rw [heq] at this
  exact ⟨this, trivial⟩

end Slot

/-! ## The timer of a packet of ours -/

/-- What lets the poll at `nowMs` return `f`, sent from state `r` and due in
state `s`: its id was not in use in `r` (or the slot that used it has the same
frame and is due), no transmission of it is on record, and no slot in front of
its own fires. -/
structure Insures (r s : Router) (f : Frame) (nowMs : UInt32) (drops : PendingRetransmit → Bool) :
    Prop where
  armed : (∀ x ∈ r.pendingRetransmits, x.active = true → x.key ≠ f.key) ∨
    ∃ x ∈ s.pendingRetransmits, x.live = true ∧ x.frame = f ∧ notYet nowMs x.fireAfterMs = false
  unrecorded : s.graph.hasOurTransmission f.header.fromNode f.header.id nowMs = false
  first : ∀ l x rest, s.pendingRetransmits.cells = l ++ x :: rest → x.live = true → x.frame = f →
    ∀ y ∈ l, s.t1Fires nowMs drops y = false

section Own

variable {r s : Router} {f : Frame} {nowMs : UInt32} {drops : PendingRetransmit → Bool}

/-- A sent broadcast is armed if its id was not in use. -/
theorem sendLocal_armed {q : Router.LocalRequest} {plan : RelayPlan}
    (hfree : ∃ x ∈ r.pendingRetransmits, (!x.active || x.canceled) = true)
    (hb : q.toNode = NODENUM_BROADCAST) (hport : q.portnum ≠ SIGNAL_ROUTING_APP)
    (hout : (r.sendLocal q nowMs).2 = some plan)
    (hnew : ∀ x ∈ r.pendingRetransmits, x.active = true → x.key ≠ plan.frame.key) :
    ∃ x ∈ (r.sendLocal q nowMs).1.pendingRetransmits, x.live = true ∧ x.fired = false ∧
      x.frame = plan.frame ∧ x.key = plan.frame.key ∧ x.fireAfterMs = nowMs + q.fireDelayMs := by
  unfold Router.sendLocal at hout ⊢
  dsimp only at hout ⊢
  split at hout
  · cases hout
  · split at hout
    · cases hout
    · rename_i harm
      rw [if_neg harm]
      have hto : (q.toNode == NODENUM_BROADCAST && q.portnum != SIGNAL_ROUTING_APP) = true := by
        rw [hb]
        simpa using hport
      rw [if_pos hto] at hout ⊢
      cases hout
      exact ⟨_, scheduleT1Broadcast_places hnew hfree, rfl, rfl, rfl, rfl, rfl⟩

/-- T1 returns the packet exactly when its slot is the first to fire. -/
theorem pollT1_returns_iff :
    (s.pollT1Retransmit nowMs drops).2 = some ⟨f, 0⟩ ↔
      ∃ l x rest, s.pendingRetransmits.cells = l ++ x :: rest ∧ x.frame = f ∧
        s.t1Fires nowMs drops x = true ∧ ∀ y ∈ l, s.t1Fires nowMs drops y = false := by
  constructor
  · intro h
    obtain ⟨l, x, rest, y, hs, hx, hl, _⟩ := sweep_split h
    obtain ⟨hfires, -, -, hplan⟩ := t1Visit_stops hx
    refine ⟨l, x, rest, hs, ?_, hfires, fun a ha => ?_⟩
    · cases hplan
      rfl
    · cases hf : s.t1Fires nowMs drops a
      · rfl
      · obtain ⟨c, hc⟩ := hl a ha
        rw [t1Visit_fires hf] at hc
        cases hc
  · rintro ⟨l, x, rest, hs, rfl, hx, hl⟩
    exact sweep_of_split hs (fun a ha => t1Visit_passes (hl a ha)) (t1Visit_fires hx)

/-- The slot that fires was the only one with its packet. -/
theorem pollT1_silent (hwf : Wf s) (h : (s.pollT1Retransmit nowMs drops).2 = some ⟨f, 0⟩) :
    T1Silent (s.pollT1Retransmit nowMs drops).1 f := by
  obtain ⟨l, x, rest, y, hs, hx, _, hcells⟩ := sweep_split h
  have hmem : x ∈ s.pendingRetransmits := by rw [Slots.mem_def, hs]; simp
  obtain ⟨-, hlive, rfl, hplan⟩ := t1Visit_stops hx
  cases hplan
  have hkey := (hwf.t1Frame x hmem hlive).1
  have hlead := hwf.t1Leading
  rw [Leading, hs, List.pairwise_append, List.pairwise_cons] at hlead
  have hwf' := hwf.calm (s.pollT1Retransmit_quiet nowMs drops).toCalms
  intro z hz hzl hpacket
  have hzkey : z.key = x.key := by
    rw [← (hwf'.t1Frame z hz hzl).1, ← hkey]
    exact Frame.key_of_packet hpacket
  change z ∈ (s.pendingRetransmits.sweep (s.t1Visit nowMs drops)).1.cells at hz
  rw [hcells, List.mem_append, List.mem_cons] at hz
  rcases hz with hz | rfl | hz
  · obtain ⟨a, ha, rfl⟩ := List.mem_map.mp hz
    have hak := (s.t1Visit_kept nowMs drops a).key
    exact hlead.2.2 a ha x List.mem_cons_self hlive (hak.symm.trans hzkey)
  · cases hzl
  · exact hlead.2.1.1 z hz hzl hzkey.symm

end Own

/-- T1 repeats a broadcast of ours once, in the first poll from its fire time
on, exactly if `Insures` holds there. -/
theorem own_t1_fires_iff {r r₁ s : Router} (hr : routerLTS.Reachable r)
    (hfree : ∃ x ∈ r.pendingRetransmits, (!x.active || x.canceled) = true)
    {q : Router.LocalRequest} {n : UInt32} {plan : RelayPlan} (hb : q.toNode = NODENUM_BROADCAST)
    (hport : q.portnum ≠ SIGNAL_ROUTING_APP)
    (hsend : routerLTS.step r (.sendLocal q n, .originated plan) r₁)
    {ls : List (Event × Output)} (hrun : routerLTS.Run r₁ ls s)
    (hleft : ∀ l ∈ ls, LeavesT1 plan.frame.key (n + q.fireDelayMs) l.1) {nowMs : UInt32}
    {drops : PendingRetransmit → Bool} (hdue : notYet nowMs (n + q.fireDelayMs) = false)
    (hlets : ∀ x, x.frame = plan.frame → drops x = false) :
    ((s.pollT1Retransmit nowMs drops).2 = some ⟨plan.frame, 0⟩ ∧
        ∀ post u, routerLTS.Run (s.pollT1Retransmit nowMs drops).1 post u →
          (∀ l ∈ post, Fresh plan.frame l) →
          ∀ l ∈ post, ∀ p, l.2 = .t1 p → p.frame.packet ≠ plan.frame.packet) ↔
      Insures r s plan.frame nowMs drops := by
  have hout : (r.sendLocal q n).2 = some plan := by
    obtain ⟨p, hp, hk⟩ := Output.of_some (congrArg Prod.snd hsend.2) (by simp)
    cases hk
    exact hp
  have hr₁ : (r.sendLocal q n).1 = r₁ := congrArg Prod.fst hsend.2
  have hwf : Wf s := by
    obtain ⟨r₀, pre, hinit, hpre⟩ := hr
    exact wf_reachable ⟨r₀, _, hinit, (hpre.snoc hsend).append hrun⟩
  have hown : plan.frame.header.fromNode = s.nodeNum := by
    have hnode := (step_arms r (.sendLocal q n)).node
    rw [hsend.2] at hnode
    rw [run_node hrun, hnode]
    exact congrArg Prod.fst (sendLocal_some hout).1
  constructor
  · rintro ⟨hret, _⟩
    obtain ⟨l, x, rest, hs, hframe, hfires, hl⟩ := pollT1_returns_iff.mp hret
    have hmem : x ∈ s.pendingRetransmits := by rw [Slots.mem_def, hs]; simp
    have htests := hfires
    simp only [Router.t1Fires, Bool.and_eq_true, Bool.not_eq_true'] at htests
    obtain ⟨⟨⟨hlive, hwait⟩, _⟩, hsent⟩ := htests
    have hkey := (hwf.t1Frame x hmem hlive).1
    rw [hframe] at hkey
    refine ⟨.inr ⟨x, hmem, hlive, hframe, hwait⟩, ?_, ?_⟩
    · have hfrom : plan.frame.header.fromNode = x.fromNode := congrArg Prod.fst hkey
      have hid : plan.frame.header.id = x.packetId := congrArg Prod.snd hkey
      rw [hfrom, hid, hsent]
    · intro l' x' rest' hs' hlive' hframe'
      have hmem' : x' ∈ s.pendingRetransmits := by rw [Slots.mem_def, hs']; simp
      have hkey' := (hwf.t1Frame x' hmem' hlive').1
      rw [hframe', hkey] at hkey'
      rw [← Leading.split_unique hwf.t1Leading hs hs' hlive hlive' hkey']
      exact hl
  · rintro ⟨harmed, hunrec, hfirst⟩
    obtain ⟨x, hmem, hlive, hframe, hwait⟩ : ∃ x ∈ s.pendingRetransmits, x.live = true ∧
        x.frame = plan.frame ∧ notYet nowMs x.fireAfterMs = false := by
      rcases harmed with hnew | harmed
      · obtain ⟨x, hx, hlive, hfired, hframe, hkey, hfire⟩ :=
          sendLocal_armed hfree hb hport hout hnew
        rw [hr₁] at hx
        refine ⟨x, run_t1_stays hrun hx hlive hfired ?_, hlive, hframe, by rw [hfire]; exact hdue⟩
        rw [hkey, hfire]
        exact hleft
      · exact harmed
    have hkey := (hwf.t1Frame x hmem hlive).1
    rw [hframe] at hkey
    have hfires : s.t1Fires nowMs drops x = true := by
      have hfrom : x.fromNode = plan.frame.header.fromNode := congrArg Prod.fst hkey.symm
      have hid : x.packetId = plan.frame.header.id := congrArg Prod.snd hkey.symm
      rw [← hfrom, ← hid] at hunrec
      have hours : (x.frame.header.fromNode != s.nodeNum) = false := by
        rw [hframe, hown]
        exact bne_self_eq_false _
      simp [Router.t1Fires, hlive, hwait, hlets x hframe, hours, hunrec]
    obtain ⟨l, rest, hs⟩ := List.append_of_mem hmem
    have hret : (s.pollT1Retransmit nowMs drops).2 = some ⟨plan.frame, 0⟩ :=
      pollT1_returns_iff.mpr ⟨l, x, rest, hs, hframe, hfires, hfirst l x rest hs hlive hframe⟩
    refine ⟨hret, fun post u hpost hfresh => ?_⟩
    have hnode := (s.pollT1Retransmit_quiet nowMs drops).node
    exact (pollT1_silent hwf hret).run hpost (hown.trans hnode.symm) hfresh

/-- The text of node 5 goes out after 100 ms, nobody is heard to relay it, and
the poll at its fire time returns nothing. -/
theorem own_t1_stands_down :
    ∃ t, routerLTS.Run (.new 5 0 88397 1)
      [(.sendLocal ownText 0, .originated ownPlan), (.noteTxDone 5 1 100, .quiet),
        (fires 8000, .quiet)] t :=
  ⟨_, .cons ⟨trivial, rfl⟩ (.cons ⟨trivial, rfl⟩ (.cons ⟨trivial, rfl⟩ (.nil _)))⟩

/-- The router when the text has gone out. -/
def textSent : Router :=
  [.sendLocal ownText 0, .noteTxDone 5 1 100].foldl (fun r e => (r.step e).1) (.new 5 0 88397 1)

/-- A poll that comes after the record's end still returns the text. -/
theorem own_t1_fires_late :
    (textSent.pollT1Retransmit 88498 fun _ => false).2 = some ⟨ownPlan.frame, 0⟩ := by
  refine ((@own_t1_fires_iff (.new 5 0 88397 1) ((Router.new 5 0 88397 1).step
    (.sendLocal ownText 0)).1 textSent ⟨_, [], ⟨5, 0, 88397, 1, rfl⟩, .nil _⟩
    ⟨.inactive, by decide +kernel, rfl⟩ ownText 0 ownPlan rfl (by decide) ⟨trivial, rfl⟩
    [(.noteTxDone 5 1 100, .quiet)] (.cons ⟨trivial, rfl⟩ (.nil _)) ?_ 88498 (fun _ => false)
    (by decide +kernel) (fun _ _ => rfl)).mpr ⟨.inl ?_, by decide +kernel, ?_⟩).1
  · intro l hl
    rw [List.mem_singleton] at hl
    subst hl
    trivial
  · intro x hx ha
    rw [Slots.mem_all hx] at ha
    cases ha
  · intro l x rest hs hlive hframe y hy
    have hcells : textSent.pendingRetransmits.cells =
      [⟨true, false, false, 5, some 5, 1, 8000, some 1, ownPlan.frame⟩, .inactive, .inactive,
        .inactive] := by decide +kernel
    rw [hcells] at hs
    cases l with
    | nil => cases hy
    | cons a l =>
      exfalso
      obtain ⟨-, hrest⟩ := List.cons.inj hs
      have hx : x ∈ [PendingRetransmit.inactive, .inactive, .inactive] := by rw [hrest]; simp
      simp only [List.mem_cons, List.not_mem_nil, or_false, or_self] at hx
      subst hx
      cases hlive

end Meshrustic.Routing
