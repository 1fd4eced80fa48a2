import Meshrustic.Routing.Runs

/-!
# Our own packet, heard again

A copy of a packet we originated that another node has relayed shows that the
packet is on its way: T1 and the retries may stand down, and a T1 frame that
is already with the radio is called back. All of that happens among the
duplicates, and `send_local` does not enter its packet into the history, so
the first copy heard is taken as new and changes nothing.

Results:
* `T1Silent.run`, `RetrySilent.run`: what is not armed is not sent until it is
  originated again.
* `receive_echo_silent`: a copy of a packet that the history knows disarms it.
* `echo_silences`: over whole runs.
-/
namespace Meshrustic.Routing

open Meshrustic.RateLimit (NODENUM_BROADCAST)

/-- A copy of our packet `f`, relayed by another node. -/
structure Echo (node : UInt32) (f : Frame) (packet : InboundPacket) : Prop where
  fits : packet.payload.length ≤ MAX_PACKET_PAYLOAD
  key : packet.header.key = f.key
  toNode : packet.header.toNode = f.header.toNode
  relayed : packet.header.relayNode ≠ 0
  other : packet.header.relayNode ≠ lowByte node
  hops : packet.header.hopLimit < packet.header.hopStart

/-- T1 does not hold the packet. -/
def T1Silent (r : Router) (f : Frame) : Prop :=
  ∀ s ∈ r.pendingRetransmits, s.live = true → s.frame.packet ≠ f.packet

/-- No retry holds the packet. -/
def RetrySilent (r : Router) (f : Frame) : Prop :=
  ∀ s ∈ r.pendingReliable, s.active = true → s.frame.packet ≠ f.packet

structure Silent (r : Router) (f : Frame) : Prop where
  t1 : T1Silent r f
  retries : RetrySilent r f

/-- The radio got the packet's T1 frame and has not reported on it, and the
call for its return can be noted. -/
structure CanCallBack (r : Router) (k : PacketKey) : Prop where
  fired : ∃ s, r.pendingRetransmits.find? (PendingRetransmit.named k.1 k.2) = some s ∧
    s.live = false ∧ s.fired = true
  room : r.txCancels.rows.length < MAX_TX_CANCELS

/-- The state in which an echo of `f` does all it is for; `released` says that
the T1 frame went to the radio. -/
structure Heeds (r : Router) (f : Frame) (released : Prop) : Prop where
  silences : r.history.knows f.key.1 f.key.2 = true ∨ Silent r f
  callsBack : released → f.key ∈ r.txCancels.rows ∨
    r.history.knows f.key.1 f.key.2 = true ∧ CanCallBack r f.key

/-! ## What is not armed stays so -/

section Steps

variable {r s : Router} {f : Frame}

/-- Only originating a packet of ours arms it. -/
theorem step_arms_other (hf : f.header.fromNode = r.nodeNum) {e : Event}
    (hfresh : ∀ p, (r.step e).2 = .originated p → p.frame.key ≠ f.key) :
    ArmsOnly (fun g => g.packet ≠ f.packet) r (r.step e).1 := by
  have hforeign : ∀ g, Foreign r g → g.packet ≠ f.packet := by
    intro g hg heq
    exact hg ((congrArg Prod.fst (Frame.key_of_packet heq)).trans hf)
  cases e with
  | receive p a hu v n => exact (step_arms r (.receive p a hu v n)).mono hforeign
  | pollReadyRelay n a q => exact (step_arms r (.pollReadyRelay n a q)).mono hforeign
  | sendLocal q n =>
    change ArmsOnly _ r (r.sendLocal q n).1
    cases hout : (r.sendLocal q n).2 with
    | none => exact .of_calms (sendLocal_none hout)
    | some plan =>
      have hne := hfresh plan (congrArg (Output.of .originated) hout)
      refine (ArmsOnly.sendLocal q n).mono fun g hg heq => hne ?_
      rw [(sendLocal_some hout).1, ← Frame.key_of_packet heq, hg]
  | pollAdminTx g d =>
    change ArmsOnly _ r (r.pollAdminTx g d).1
    cases hout : (r.pollAdminTx g d).2 with
    | none => exact .of_calms (pollAdminTx_none hout)
    | some plan =>
      have hne := hfresh plan (congrArg (Output.of .originated) hout)
      refine (ArmsOnly.pollAdminTx g d).mono fun g' hg heq => hne ?_
      rw [pollAdminTx_some hout, ← hg]
      exact Frame.key_of_packet heq
  | _ => exact .of_calms (r.step_calms _ (by simp) (by simp) (by simp) (by simp))

theorem T1Silent.arms (h : T1Silent r f) (ha : ArmsOnly (fun g => g.packet ≠ f.packet) r s) :
    T1Silent s f := by
  intro x hx hl
  rcases ha.t1 x hx hl with ⟨y, hy, hly, hframe⟩ | hn
  · rw [← hframe]
    exact h y hy hly
  · exact hn

theorem RetrySilent.arms (h : RetrySilent r f)
    (ha : ArmsOnly (fun g => g.packet ≠ f.packet) r s) : RetrySilent s f := by
  intro x hx hl
  rcases ha.retries x hx hl with ⟨y, hy, hly, hframe⟩ | hn
  · rw [← hframe]
    exact h y hy hly
  · exact hn

/-- The packet is not originated by this call. -/
def Fresh (f : Frame) (l : Event × Output) : Prop :=
  ∀ p, l.2 = .originated p → p.frame.key ≠ f.key

/-- What T1 does not hold it does not send, until it is originated again. -/
theorem T1Silent.run {ls : List (Event × Output)} (h : T1Silent r f)
    (hr : routerLTS.Run r ls s) (hf : f.header.fromNode = r.nodeNum) (hfresh : ∀ l ∈ ls, Fresh f l) :
    ∀ l ∈ ls, ∀ p, l.2 = .t1 p → p.frame.packet ≠ f.packet := by
  refine (hr.labels (I := fun s => f.header.fromNode = s.nodeNum ∧ T1Silent s f)
    (P := Fresh f) (Q := fun l => ∀ p, l.2 = .t1 p → p.frame.packet ≠ f.packet)
    ?_ ⟨hf, h⟩ hfresh).2
  rintro s ⟨e, o⟩ t ⟨hf, h⟩ hl ⟨_, heq⟩
  have harms := step_arms_other hf (e := e) fun p hp => hl p (by rw [heq] at hp; exact hp)
  rw [heq] at harms
  refine ⟨⟨hf.trans harms.node.symm, h.arms harms⟩, fun p hp => ?_⟩
  obtain ⟨x, hx, hlive, hframe⟩ := t1_armed ((congrArg Prod.snd heq).trans hp)
  rw [← hframe]
  exact h x hx hlive

theorem RetrySilent.run {ls : List (Event × Output)} (h : RetrySilent r f)
    (hr : routerLTS.Run r ls s) (hf : f.header.fromNode = r.nodeNum) (hfresh : ∀ l ∈ ls, Fresh f l) :
    ∀ l ∈ ls, ∀ p, l.2 = .retx p → p.frame.packet ≠ f.packet := by
  refine (hr.labels (I := fun s => f.header.fromNode = s.nodeNum ∧ RetrySilent s f)
    (P := Fresh f) (Q := fun l => ∀ p, l.2 = .retx p → p.frame.packet ≠ f.packet)
    ?_ ⟨hf, h⟩ hfresh).2
  rintro s ⟨e, o⟩ t ⟨hf, h⟩ hl ⟨_, heq⟩
  have harms := step_arms_other hf (e := e) fun p hp => hl p (by rw [heq] at hp; exact hp)
  rw [heq] at harms
  refine ⟨⟨hf.trans harms.node.symm, h.arms harms⟩, fun p hp => ?_⟩
  obtain ⟨x, hx, hactive, hpacket⟩ := retx_armed ((congrArg Prod.snd heq).trans hp)
  rw [← hpacket]
  exact h x hx hactive

end Steps

/-! ## One copy -/

section Heard

variable {r : Router} {parsed : ParsedPacket}

/-- After the scan no slot of the packet is live. -/
theorem cancelT1Retransmit_silent
    (h : Leading PendingRetransmit.live PendingRetransmit.key r.pendingRetransmits) (f i : UInt32) :
    ∀ s ∈ (r.cancelT1Retransmit f i).pendingRetransmits, s.live = true → s.key ≠ (f, i) := by
  intro s hs hlive hkey
  obtain ⟨x, hx, hkept⟩ := (r.cancelT1Retransmit_quiet f i).t1.origin hs
  have hxl := hkept.live hlive
  have hxk : x.key = (f, i) := hkept.key.symm.trans hkey
  unfold Router.cancelT1Retransmit at hs
  split at hs
  · rename_i hnone
    have := List.find?_eq_none.mp hnone x hx
    exact this (PendingRetransmit.named_iff.mpr hxk)
  · rename_i first hfirst
    have hfirstLive : first.live = true := by
      rw [← h.eq_first (fun _ => PendingRetransmit.named_iff) hfirst hx hxl hxk]
      exact hxl
    rw [if_pos hfirstLive] at hs
    exact h.changeFirst (fun _ => PendingRetransmit.named_iff)
      (fun x _ _ => by simp [PendingRetransmit.live]) s hs hlive hkey

/-- The frame of a slot that fired is called back. -/
theorem cancelT1Retransmit_calls {k : PacketKey} (h : CanCallBack r k) :
    k ∈ (r.cancelT1Retransmit k.1 k.2).txCancels.rows := by
  obtain ⟨⟨s, hs, hlive, hfired⟩, hroom⟩ := h
  unfold Router.cancelT1Retransmit
  rw [hs]
  dsimp only
  rw [hlive, hfired]
  simp only [Bool.false_eq_true, if_false, if_true]
  exact Router.noteTxCancel_takes _ (.inr hroom)

theorem own_not_pending (h : Wf r) {f : UInt32} (hf : f = r.nodeNum) (i : UInt32) :
    r.hasPendingRelay f i = false := by
  refine Slots.any_eq_false.mpr fun p hp => ?_
  rw [Bool.eq_false_iff, Ne, PendingRelay.serves_iff]
  rintro ⟨ha, hk⟩
  exact (h.pendingFrame p hp ha).2 ((congrArg Prod.fst hk).trans hf)

theorem own_not_committed (h : Wf r) {f : UInt32} (hf : f = r.nodeNum) (i : UInt32) :
    r.graph.isCommittedRelay f i = false := by
  rw [Bool.eq_false_iff, Ne, RelayLedger.isCommittedRelay_iff]
  exact fun hc => h.commitForeign _ hc hf

/-- A packet of ours is never pending: a copy with more hops left replaces
nothing, and is a duplicate like the others. -/
theorem tryHandleUpgradedPacket_own (h : Wf r) (hown : parsed.fromNode = r.nodeNum) :
    (r.tryHandleUpgradedPacket parsed).2 = false ∧
      (r.tryHandleUpgradedPacket parsed).1.pendingRetransmits = r.pendingRetransmits ∧
      (r.tryHandleUpgradedPacket parsed).1.txCancels = r.txCancels := by
  have hnone : (r.cancelPendingLowerHop parsed.fromNode parsed.id parsed.hopLimit).2 = false := by
    refine Slots.any_eq_false.mpr fun p hp => ?_
    have := Slots.any_eq_false.mp (own_not_pending h hown parsed.id) p hp
    rw [Router.lowerHop, this]
    rfl
  unfold Router.tryHandleUpgradedPacket
  split
  · exact ⟨rfl, rfl, rfl⟩
  · dsimp only
    rw [if_neg (by rw [hnone]; exact Bool.false_ne_true)]
    exact ⟨hnone, rfl, rfl⟩

theorem afterObserve_own (h : Wf r) (hown : parsed.fromNode = r.nodeNum) {seen : ObserveResult}
    (hseen : seen ≠ .new) (radioId : UInt8) (a : Answers) (nowMs : UInt32) :
    ∃ s, Quiet r s ∧ s.pendingRetransmits = r.pendingRetransmits ∧ s.txCancels = r.txCancels ∧
      r.afterObserve seen parsed radioId a nowMs = s.rejectDuplicate parsed radioId a nowMs := by
  unfold Router.afterObserve
  split
  · obtain ⟨hno, ht, hc⟩ := tryHandleUpgradedPacket_own h hown
    refine ⟨_, r.tryHandleUpgradedPacket_quiet parsed, ht, hc, ?_⟩
    dsimp only
    rw [if_neg (by rw [hno]; exact Bool.false_ne_true)]
  · refine ⟨r, .refl r, rfl, rfl, ?_⟩
    simp [Router.designatedRepeat, Router.originatorRetry, hown]
  · exact absurd rfl hseen

/-- A duplicate of ours first ends its retries, whatever it answers. -/
theorem handleDuplicateRx_own (hown : parsed.fromNode = r.nodeNum) (radioId : UInt8) (a : Answers)
    (nowMs : UInt32) :
    ∃ s, Quiet r s ∧ (parsed.toNode = NODENUM_BROADCAST → s = r) ∧
      r.handleDuplicateRx parsed radioId a nowMs =
        Router.perhapsCancelDupe
          { s with pendingReliable := stopReliableFor s.pendingReliable s.nodeNum parsed.id }
          parsed radioId a nowMs := by
  have hq := r.cancelAnswered_quiet parsed a.decoded nowMs
  have hnode : parsed.fromNode = (r.cancelAnswered parsed a.decoded nowMs).nodeNum := by
    rw [hq.node, hown]
  refine ⟨_, hq, ?_, ?_⟩
  · intro hb
    unfold Router.cancelAnswered Router.maybeCancelRelayForForeignAck
    split
    · rw [hb]
      simp
    · rfl
  · have hstop : (r.cancelAnswered parsed a.decoded nowMs).stopRelayedRetries parsed a =
        r.cancelAnswered parsed a.decoded nowMs := by
      unfold Router.stopRelayedRetries
      rw [← hnode]
      simp
    unfold Router.handleDuplicateRx
    rw [hstop]
    dsimp only
    rw [if_pos (by rw [hnode]; exact beq_self_eq_true _)]

/-- A broadcast of ours ends in the last branch, where T1 is cancelled. -/
theorem perhapsCancelDupe_own (h : Wf r) (hown : parsed.fromNode = r.nodeNum)
    (hb : parsed.toNode = NODENUM_BROADCAST) (radioId : UInt8) (a : Answers) (nowMs : UInt32) :
    r.perhapsCancelDupe parsed radioId a nowMs = r.cancelPendingDupe parsed radioId false := by
  unfold Router.perhapsCancelDupe
  rw [own_not_committed h hown, hb]
  simp

/-- Up to T1, that branch finds nothing of ours to withdraw. -/
theorem cancelPendingDupe_own (h : Wf r) (hown : parsed.fromNode = r.nodeNum) (radioId : UInt8) :
    ∃ s, Quiet r s ∧ s.pendingRetransmits = r.pendingRetransmits ∧ s.txCancels = r.txCancels ∧
      Quiet (s.cancelT1Retransmit parsed.fromNode parsed.id)
        (r.cancelPendingDupe parsed radioId false) := by
  have hcommit : (r.graph.cancelRelay parsed.fromNode parsed.id).relayTxAfter parsed.fromNode
      parsed.id radioId = none := by
    rw [RelayLedger.relayTxAfter, Option.map_eq_none_iff]
    refine List.find?_eq_none.mpr fun c hc hs => ?_
    rw [Bool.and_eq_true, RelayCommit.serves_iff] at hs
    have : (r.graph.cancelRelay parsed.fromNode parsed.id).Committed (parsed.fromNode, parsed.id) :=
      ⟨c, hc, hs.1⟩
    exact this.of_cancelRelay.2 rfl
  have hstop : ∀ s : Router, Quiet s
      (if parsed.fromNode == s.nodeNum then
        { s with pendingReliable := stopReliableFor s.pendingReliable s.nodeNum parsed.id }
      else s) := by
    intro s
    split
    · exact s.stopReliableFor_quiet _ _
    · exact .refl s
  by_cases hrole : r.graph.roleAllowsCancelingDupe = true
  · refine ⟨_, (r.cancelRelay_quiet parsed.fromNode parsed.id).trans
      (Router.cancelPending_quiet _ parsed.fromNode parsed.id), rfl, rfl, ?_⟩
    unfold Router.cancelPendingDupe
    have hpend : Router.hasPendingRelay
        { r with graph := r.graph.cancelRelay parsed.fromNode parsed.id } parsed.fromNode
        parsed.id = false := own_not_pending h hown parsed.id
    dsimp only
    rw [hrole, hcommit, hpend]
    exact hstop _
  · refine ⟨r, .refl r, rfl, rfl, ?_⟩
    unfold Router.cancelPendingDupe
    dsimp only
    rw [Bool.not_eq_true] at hrole
    rw [hrole]
    exact hstop _

/-- What a duplicate of a broadcast of ours leads to. -/
theorem handleDuplicateRx_broadcast (h : Wf r) (hown : parsed.fromNode = r.nodeNum)
    (hb : parsed.toNode = NODENUM_BROADCAST) (radioId : UInt8) (a : Answers) (nowMs : UInt32) :
    ∃ s, Wf s ∧ s.pendingRetransmits = r.pendingRetransmits ∧ s.txCancels = r.txCancels ∧
      Quiet (s.cancelT1Retransmit parsed.fromNode parsed.id)
        (r.handleDuplicateRx parsed radioId a nowMs) := by
  obtain ⟨s, _, hsame, heq⟩ := handleDuplicateRx_own hown radioId a nowMs
  have hs := hsame hb
  subst hs
  have hstopped := h.quiet (s.stopReliableFor_quiet s.nodeNum parsed.id)
  obtain ⟨t, ht, ht1, htc, hq⟩ := cancelPendingDupe_own hstopped hown radioId
  refine ⟨t, hstopped.quiet ht, ht1, htc, ?_⟩
  rw [heq, perhapsCancelDupe_own hstopped hown hb]
  exact hq

theorem handleDuplicateRx_silent (h : Wf r) (hown : parsed.fromNode = r.nodeNum) {f : Frame}
    (hkey : parsed.key = f.key) (hto : parsed.toNode = f.header.toNode) (radioId : UInt8)
    (a : Answers) (nowMs : UInt32) : Silent (r.handleDuplicateRx parsed radioId a nowMs) f := by
  have hwf := h.quiet (r.handleDuplicateRx_quiet parsed radioId a nowMs)
  refine ⟨fun s hs hlive heq => ?_, fun s hs ha heq => ?_⟩
  · obtain ⟨hframe, hbroad⟩ := hwf.t1Frame s hs hlive
    have hb : parsed.toNode = NODENUM_BROADCAST := by
      rw [hto, ← hbroad]
      exact (congrArg Prod.snd heq).symm
    obtain ⟨t, htwf, _, _, hq⟩ := handleDuplicateRx_broadcast h hown hb radioId a nowMs
    obtain ⟨x, hx, hkept⟩ := hq.t1.origin hs
    refine cancelT1Retransmit_silent htwf.t1Leading _ _ x hx (hkept.live hlive) ?_
    rw [← hkept.key, ← hframe, Frame.key_of_packet heq]
    exact hkey.symm
  · obtain ⟨t, htq, _, hdup⟩ := handleDuplicateRx_own hown radioId a nowMs
    have hq := Router.perhapsCancelDupe_quiet
      { t with pendingReliable := stopReliableFor t.pendingReliable t.nodeNum parsed.id } parsed
      radioId a nowMs
    have hframe := hwf.retryFrame s hs ha
    rw [hdup] at hs
    obtain ⟨x, hx, hkept⟩ := hq.retries.origin hs
    refine (mem_stopReliableFor hx (hkept.active ha)).2 ?_
    rw [← hkept.key, ← hframe, Frame.key_of_packet heq, ← hkey, htq.node, ← hown]
    rfl

/-- A copy of a known packet of ours, up to `handle_duplicate_rx`. -/
theorem processInbound_own (h : Wf r) {packet : InboundPacket}
    (hfits : packet.payload.length ≤ MAX_PACKET_PAYLOAD)
    (hown : packet.header.fromNode = r.nodeNum)
    (hknown : r.history.knows packet.header.fromNode packet.header.id = true) (a : Answers)
    (nowMs : UInt32) :
    ∃ s, Wf s ∧ s.nodeNum = r.nodeNum ∧ s.pendingRetransmits = r.pendingRetransmits ∧
      s.txCancels = r.txCancels ∧
      r.processInbound packet a nowMs =
        s.rejectDuplicate packet.header.parse packet.radioId a nowMs := by
  have hseen : (r.history.observe packet.header.fromNode packet.header.id
      packet.header.parse.hopLimit).1 ≠ .new := by
    rw [Ne, PacketHistory.observe_new_iff, hknown]
    exact Bool.noConfusion
  unfold Router.processInbound
  rw [if_neg (Nat.not_lt.mpr hfits)]
  dsimp only
  have hh := r.history_quiet (r.history.observe packet.header.fromNode packet.header.id
    packet.header.parse.hopLimit).2
  have hparsed : packet.header.parse.fromNode = r.nodeNum := hown
  obtain ⟨s, hq, ht, hc, heq⟩ := afterObserve_own (h.quiet hh) hparsed hseen packet.radioId a nowMs
  exact ⟨s, (h.quiet hh).quiet hq, hq.node, ht, hc, heq⟩

/-- A duplicate is not planned. -/
theorem receive_own (h : Wf r) {packet : InboundPacket}
    (hfits : packet.payload.length ≤ MAX_PACKET_PAYLOAD)
    (hown : packet.header.fromNode = r.nodeNum)
    (hknown : r.history.knows packet.header.fromNode packet.header.id = true) (a : Answers)
    (hearsUs : Bool) (verdict : Verdict) (nowMs : UInt32) :
    (r.receive packet a hearsUs verdict nowMs).1 = (r.processInbound packet a nowMs).1 := by
  obtain ⟨s, _, _, _, _, heq⟩ := processInbound_own h hfits hown hknown a nowMs
  unfold Router.receive
  rw [heq]
  simp [Router.rejectDuplicate, Router.evaluateTxPlan]

/-- A copy of a packet that the history knows disarms it. -/
theorem receive_echo_silent (h : Wf r) {f : Frame} {packet : InboundPacket}
    (hecho : Echo r.nodeNum f packet) (hf : f.header.fromNode = r.nodeNum)
    (hknown : r.history.knows f.key.1 f.key.2 = true) (a : Answers) (hearsUs : Bool)
    (verdict : Verdict) (nowMs : UInt32) :
    Silent (r.receive packet a hearsUs verdict nowMs).1 f := by
  have hown : packet.header.fromNode = r.nodeNum := (congrArg Prod.fst hecho.key).trans hf
  rw [← hecho.key] at hknown
  rw [receive_own h hecho.fits hown hknown]
  obtain ⟨s, hwf, hnode, _, _, heq⟩ := processInbound_own h hecho.fits hown hknown a nowMs
  rw [heq]
  have hparsed : packet.header.parse.fromNode = s.nodeNum := hown.trans hnode.symm
  have hs := handleDuplicateRx_silent hwf hparsed hecho.key hecho.toNode packet.radioId a nowMs
  have hdraw := (Router.drawTxIds_quiet (s.handleDuplicateRx packet.header.parse packet.radioId a
    nowMs) a.replies).toCalms
  exact ⟨hs.t1.arms (.of_calms hdraw), hs.retries.arms (.of_calms hdraw)⟩

/-- It also calls back a T1 frame that the radio has. -/
theorem receive_echo_calls (h : Wf r) {f : Frame} {packet : InboundPacket}
    (hecho : Echo r.nodeNum f packet) (hf : f.header.fromNode = r.nodeNum)
    (hb : f.header.toNode = NODENUM_BROADCAST)
    (hknown : r.history.knows f.key.1 f.key.2 = true) (hcall : CanCallBack r f.key) (a : Answers)
    (hearsUs : Bool) (verdict : Verdict) (nowMs : UInt32) :
    f.key ∈ (r.receive packet a hearsUs verdict nowMs).1.txCancels.rows := by
  have hown : packet.header.fromNode = r.nodeNum := (congrArg Prod.fst hecho.key).trans hf
  rw [← hecho.key] at hknown
  rw [receive_own h hecho.fits hown hknown]
  obtain ⟨s, hwf, hnode, ht, hc, heq⟩ := processInbound_own h hecho.fits hown hknown a nowMs
  rw [heq]
  have hparsed : packet.header.parse.fromNode = s.nodeNum := hown.trans hnode.symm
  obtain ⟨t, _, ht', hc', hq⟩ := handleDuplicateRx_broadcast hwf hparsed (hecho.toNode.trans hb)
    packet.radioId a nowMs
  have hcall' : CanCallBack t f.key := by
    obtain ⟨hfired, hroom⟩ := hcall
    rw [← ht, ← ht'] at hfired
    rw [← hc, ← hc'] at hroom
    exact ⟨hfired, hroom⟩
  refine (Router.drawTxIds_quiet _ _).cancels _ (hq.cancels _ ?_)
  have := cancelT1Retransmit_calls hcall'
  rwa [← hecho.key] at this ⊢

end Heard

/-! ## Runs -/

theorem receive_not_originated {r : Router} {packet : InboundPacket} {a : Answers} {hearsUs : Bool}
    {verdict : Verdict} {nowMs : UInt32} (p : RelayPlan) :
    (r.step (.receive packet a hearsUs verdict nowMs)).2 ≠ .originated p := by
  intro h
  obtain ⟨_, _, hk⟩ := Output.of_some h (by simp)
  cases hk

theorem run_node {s t : Router} {ls : List (Event × Output)} (h : routerLTS.Run s ls t) :
    t.nodeNum = s.nodeNum := by
  induction h with
  | nil _ => rfl
  | @cons s t u l ls hs _ ih =>
    have := (step_arms s l.1).node
    rw [hs.2] at this
    exact ih.trans this

theorem originated_own {s t : Router} {ls : List (Event × Output)} (h : routerLTS.Run s ls t)
    {q : Router.LocalRequest} {n : UInt32} {plan : RelayPlan}
    (hmem : (.sendLocal q n, .originated plan) ∈ ls) :
    plan.frame.header.fromNode = t.nodeNum := by
  induction h with
  | nil _ => cases hmem
  | @cons s t u l ls hs hr ih =>
    rcases List.mem_cons.mp hmem with rfl | hmem
    · have hout : Output.of .originated (s.sendLocal q n).2 = .originated plan :=
        congrArg Prod.snd hs.2
      obtain ⟨p, hp, hk⟩ := Output.of_some hout (by simp)
      cases hk
      have hnode := (step_arms s (.sendLocal q n)).node
      rw [hs.2] at hnode
      rw [run_node hr, hnode]
      exact congrArg Prod.fst (sendLocal_some hp).1
    · exact ih hmem

/-- T1 sends broadcasts only. -/
theorem t1_broadcast {s t : Router} {ls : List (Event × Output)} (hwf : Wf s)
    (h : routerLTS.Run s ls t) {e : Event} {plan : RelayPlan} (hmem : (e, .t1 plan) ∈ ls) :
    plan.frame.header.toNode = NODENUM_BROADCAST := by
  induction h with
  | nil _ => cases hmem
  | @cons s t u l ls hs hr ih =>
    have ht := hwf.step hs.1
    rw [hs.2] at ht
    rcases List.mem_cons.mp hmem with rfl | hmem
    · obtain ⟨x, hx, hl, hf⟩ := t1_armed (congrArg Prod.snd hs.2)
      rw [← hf]
      exact (hwf.t1Frame x hx hl).2
    · exact ih ht hmem

/-- A call that is noted is answered by the next `take_tx_cancels`. -/
theorem run_cancels {s t : Router} {k : PacketKey} (hk : k ∈ s.txCancels.rows)
    {ls rest : List (Event × Output)} {keys : List PacketKey}
    (hr : routerLTS.Run s (ls ++ (.takeTxCancels, .cancels keys) :: rest) t)
    (hnot : ∀ l ∈ ls, l.1 ≠ .takeTxCancels) : k ∈ keys := by
  induction ls generalizing s with
  | nil =>
    cases hr with
    | cons hs _ =>
      have : Output.cancels s.takeTxCancels.1 = .cancels keys := congrArg Prod.snd hs.2
      cases this
      exact hk
  | cons l ls ih =>
    cases hr with
    | cons hs hr =>
      have := step_cancels (hnot l List.mem_cons_self) hk
      rw [hs.2] at this
      exact ih this hr fun l hl => hnot l (List.mem_cons_of_mem _ hl)

/-- A relayed copy of a packet of ours that the router heeds ends T1 and the
retries for good, and brings back the T1 frame if the radio has it. -/
theorem echo_silences {s₀ s t u : Router} {pre post : List (Event × Output)}
    (hinit : routerLTS.init s₀) (hpre : routerLTS.Run s₀ pre s) {q : Router.LocalRequest}
    {n : UInt32} {plan : RelayPlan} (hsent : (.sendLocal q n, .originated plan) ∈ pre)
    {packet : InboundPacket} {a : Answers} {hearsUs : Bool} {verdict : Verdict} {nowMs : UInt32}
    {o : Output} (hecho : Echo s.nodeNum plan.frame packet)
    (hheeds : Heeds s plan.frame
      (∃ e p, (e, .t1 p) ∈ pre ∧ p.frame.packet = plan.frame.packet))
    (hstep : routerLTS.step s (.receive packet a hearsUs verdict nowMs, o) t)
    (hpost : routerLTS.Run t post u)
    (hfresh : ∀ l ∈ post, Fresh plan.frame l) :
    (∀ l ∈ post, ∀ p, l.2 = .t1 p ∨ l.2 = .retx p → p.frame.packet ≠ plan.frame.packet) ∧
      ((∃ e p, (e, .t1 p) ∈ pre ∧ p.frame.packet = plan.frame.packet) →
        ∀ ls keys rest, post = ls ++ (.takeTxCancels, .cancels keys) :: rest →
          (∀ l ∈ ls, l.1 ≠ .takeTxCancels) → plan.frame.key ∈ keys) := by
  have hwf : Wf s := wf_reachable ⟨s₀, pre, hinit, hpre⟩
  have hown := originated_own hpre hsent
  have ht : (s.receive packet a hearsUs verdict nowMs).1 = t := congrArg Prod.fst hstep.2
  have hnode : t.nodeNum = s.nodeNum := by
    rw [← ht]
    exact (step_arms s (.receive packet a hearsUs verdict nowMs)).node
  constructor
  · have hsilent : Silent t plan.frame := by
      rw [← ht]
      rcases hheeds.silences with hknown | hsilent
      · exact receive_echo_silent hwf hecho hown hknown a hearsUs verdict nowMs
      · have harms := step_arms_other hown (e := .receive packet a hearsUs verdict nowMs)
          fun p hp => absurd hp (receive_not_originated p)
        exact ⟨hsilent.t1.arms harms, hsilent.retries.arms harms⟩
    intro l hl p hp
    rcases hp with hp | hp
    · exact hsilent.t1.run hpost (hown.trans hnode.symm) hfresh l hl p hp
    · exact hsilent.retries.run hpost (hown.trans hnode.symm) hfresh l hl p hp
  · intro hreleased ls keys rest hpost' hnot
    subst hpost'
    refine run_cancels ?_ hpost hnot
    rw [← ht]
    rcases hheeds.callsBack hreleased with hmem | ⟨hknown, hcall⟩
    · exact step_cancels (e := .receive packet a hearsUs verdict nowMs) (by simp) hmem
    · obtain ⟨e, p, hmem, hp⟩ := hreleased
      have hb : plan.frame.header.toNode = NODENUM_BROADCAST := by
        have h₀ : Wf s₀ := wf_reachable ⟨s₀, [], hinit, .nil s₀⟩
        rw [← t1_broadcast h₀ hpre hmem]
        exact (congrArg Prod.snd hp).symm
      exact receive_echo_calls hwf hecho hown hb hknown hcall a hearsUs verdict nowMs

/-! A text of node 5, and the copy that node 7 relays. -/

def ownText : Router.LocalRequest where
  toNode := NODENUM_BROADCAST
  portnum := 1
  wantAck := false
  hopLimit := 3
  channel := 0
  body := some [1]
  capsLastHop := false
  srHop := 0
  srHopVerified := false
  retxDelayMs := 0
  fireDelayMs := 8000

def ownPlan : RelayPlan := ⟨⟨⟨NODENUM_BROADCAST, 5, 1, 0, 3, 3, false, false, 0, 5⟩, [1]⟩, 0⟩

def relayedCopy : InboundPacket :=
  ⟨⟨NODENUM_BROADCAST, 5, 1, 0, 2, 3, false, false, 0, 7⟩, [1], 0, 10⟩

def undecoded : Answers := ⟨none, false, true, 0, 0, false, false, 0⟩

def hears (packet : InboundPacket) (nowMs : UInt32) : Event :=
  .receive packet undecoded true (.skip 0) nowMs

def fires (nowMs : UInt32) : Event := .pollT1Retransmit nowMs fun _ => false

theorem echo_relayedCopy : Echo 5 ownPlan.frame relayedCopy :=
  ⟨by decide, rfl, rfl, by decide, by decide, by decide⟩

/-- The first copy is taken as new, and T1 fires all the same. -/
theorem first_echo_unheeded :
    Echo 5 ownPlan.frame relayedCopy ∧
      ∃ t, routerLTS.Run (.new 5 0 88397 1)
        [(.sendLocal ownText 0, .originated ownPlan), (hears relayedCopy 500, .quiet),
          (fires 8000, .t1 ownPlan)] t :=
  ⟨echo_relayedCopy, _, .cons ⟨trivial, rfl⟩ (.cons ⟨trivial, rfl⟩ (.cons ⟨trivial, rfl⟩ (.nil _)))⟩

/-- T1 fires after a first copy. -/
def firedSteps : List (Event × Output) :=
  [(.sendLocal ownText 0, .originated ownPlan), (hears relayedCopy 500, .quiet),
    (fires 8000, .t1 ownPlan)]

def firedOnce : Router :=
  (firedSteps.map Prod.fst).foldl (fun r e => (r.step e).1) (.new 5 0 88397 1)

def laterSteps : List (Event × Output) :=
  [(.takeTxCancels, .cancels [(5, 1)]), (fires 9500, .quiet)]

/-- A second copy brings the frame back and leaves T1 silent. -/
theorem second_echo_heeded :
    (∀ l ∈ laterSteps, ∀ p, l.2 = .t1 p ∨ l.2 = .retx p →
        p.frame.packet ≠ ownPlan.frame.packet) ∧
      ((∃ e p, (e, .t1 p) ∈ firedSteps ∧ p.frame.packet = ownPlan.frame.packet) →
        ∀ ls keys rest, laterSteps = ls ++ (.takeTxCancels, .cancels keys) :: rest →
          (∀ l ∈ ls, l.1 ≠ .takeTxCancels) → ownPlan.frame.key ∈ keys) := by
  refine @echo_silences (.new 5 0 88397 1) firedOnce (firedOnce.step (hears relayedCopy 8200)).1 _
    firedSteps laterSteps ⟨5, 0, 88397, 1, rfl⟩
    (.cons ⟨trivial, rfl⟩ (.cons ⟨trivial, rfl⟩ (.cons ⟨trivial, rfl⟩ (.nil _)))) ownText 0 ownPlan
    List.mem_cons_self relayedCopy undecoded true (.skip 0) 8200 .quiet echo_relayedCopy
    ⟨.inl (by decide +kernel), fun _ => .inr ⟨by decide +kernel,
      ⟨_, rfl, by decide +kernel, by decide +kernel⟩, by decide +kernel⟩⟩
    ⟨trivial, rfl⟩ (.cons ⟨trivial, rfl⟩ (.cons ⟨trivial, rfl⟩ (.nil _))) ?_
  intro l hl p hp
  rw [laterSteps, List.mem_cons, List.mem_singleton] at hl
  rcases hl with rfl | rfl <;> cases hp

end Meshrustic.Routing
