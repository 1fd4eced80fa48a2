import Meshrustic.Core.LTS
import Meshrustic.Routing.Tables

/-!
# Runs of the router

The calls the firmware makes on the router, in any order and with any
answers from its surroundings, as a transition system. A label is a call and
what it returned.

Results:
* `wf_reachable`: the tables are well formed in every reachable state.
* `step_arms`: which frames a call can arm.
* `t1_armed`, `retx_armed`: what T1 and the retries return was armed.
-/
namespace Meshrustic.Routing

inductive Event where
  | receive (packet : InboundPacket) (a : Answers) (hearsUs : Bool) (verdict : Verdict)
      (nowMs : UInt32)
  | sendLocal (q : Router.LocalRequest) (nowMs : UInt32)
  | pollAdminTx (frame : Frame) (retxDelayMs : UInt32)
  | pollReadyRelay (nowMs : UInt32) (admits : Frame → Bool) (q : FollowupAnswers)
  | pollT1Retransmit (nowMs : UInt32) (drops : PendingRetransmit → Bool)
  | pollReliableRetransmit (nowMs : UInt32) (retxDelayFor : PendingReliable → UInt32)
      (alternate : DueRetransmit → Option UInt8)
  | takeTxCancels
  | noteTxDone (fromNode packetId nowMs : UInt32)
  | noteTxFailure (fromNode packetId nowMs : UInt32)
  | noteTxQueueRejected (fromNode packetId nowMs : UInt32)
  | discardQueuedForward (fromNode id : UInt32)
  | noteRxAirtime (airtimeMs : UInt32)
  /-- commits expire, and reports of our own are scheduled -/
  | maintenance (nowMs : UInt32) (reports : Nat)
  | setDeviceRole (role : UInt32)
  | radioReconfigured (presetChanged : Bool) (recordWindowMs : UInt32)

/-- What a call returned: a frame for the radio queue, or frames to remove
from it. -/
inductive Output where
  | quiet
  /-- a relay that found no place in the pending table -/
  | direct (plan : RelayPlan)
  | originated (plan : RelayPlan)
  | relay (plan : RelayPlan)
  | t1 (plan : RelayPlan)
  | retx (plan : RelayPlan)
  | cancels (keys : List PacketKey)
  deriving DecidableEq

def Output.of (kind : RelayPlan → Output) : Option RelayPlan → Output
  | some plan => kind plan
  | none => .quiet

namespace Router

variable (r : Router)

def step : Event → Router × Output
  | .receive packet a hearsUs verdict nowMs =>
    let s := r.receive packet a hearsUs verdict nowMs
    (s.1, .of .direct s.2)
  | .sendLocal q nowMs => let s := r.sendLocal q nowMs; (s.1, .of .originated s.2)
  | .pollAdminTx frame delay => let s := r.pollAdminTx frame delay; (s.1, .of .originated s.2)
  | .pollReadyRelay nowMs admits q =>
    let s := r.pollReadyRelay nowMs admits q
    (s.1, .of .relay s.2)
  | .pollT1Retransmit nowMs drops => let s := r.pollT1Retransmit nowMs drops; (s.1, .of .t1 s.2)
  | .pollReliableRetransmit nowMs delay alternate =>
    let s := r.pollReliableRetransmit nowMs delay alternate
    (s.1, .of .retx s.2)
  | .takeTxCancels => (r.takeTxCancels.2, .cancels r.takeTxCancels.1)
  | .noteTxDone f i nowMs => (r.noteTxDone f i nowMs, .quiet)
  | .noteTxFailure f i nowMs => (r.noteTxFailure f i nowMs, .quiet)
  | .noteTxQueueRejected f i nowMs => (r.noteTxQueueRejected f i nowMs, .quiet)
  | .discardQueuedForward f i => (r.discardQueuedForward f i, .quiet)
  | .noteRxAirtime ms =>
    ({ r with pendingReliable := bumpReliableDelays r.pendingReliable ms }, .quiet)
  | .maintenance nowMs reports =>
    (drawTxIds reports { r with graph := r.graph.clearExpiredCommits nowMs }, .quiet)
  | .setDeviceRole role => ({ r with graph := { r.graph with deviceRole := role } }, .quiet)
  | .radioReconfigured presetChanged window => (r.radioReconfigured presetChanged window, .quiet)

/-- Admin replies are packets of our own. -/
def Possible : Event → Prop
  | .pollAdminTx frame _ => frame.header.fromNode = r.nodeNum
  | _ => True

end Router

/-- The router from its start. -/
def routerLTS : LTS Router (Event × Output) where
  init r := ∃ node role window seed, r = .new node role window seed
  step r l r' := r.Possible l.1 ∧ r.step l.1 = (r', l.2)

/-! ## What one call does -/

/-- The frames a call may arm: those of other nodes, and what it originates. -/
def Arms (r : Router) : Event → Frame → Prop
  | .sendLocal _ _, f => f.key = (r.nodeNum, r.allocTxId.1)
  | .pollAdminTx frame _, f => f = frame
  | .receive _ _ _ _ _, f => Foreign r f
  | .pollReadyRelay _ _ _, f => Foreign r f
  | _, _ => False

theorem Router.step_calms (r : Router) (e : Event) (hr : ∀ p a h v n, e ≠ .receive p a h v n)
    (hs : ∀ q n, e ≠ .sendLocal q n) (ha : ∀ f d, e ≠ .pollAdminTx f d)
    (hp : ∀ n a q, e ≠ .pollReadyRelay n a q) : Calms r (r.step e).1 := by
  cases e with
  | receive p a h v n => exact absurd rfl (hr p a h v n)
  | sendLocal q n => exact absurd rfl (hs q n)
  | pollAdminTx f d => exact absurd rfl (ha f d)
  | pollReadyRelay n a q => exact absurd rfl (hp n a q)
  | pollT1Retransmit n d => exact (r.pollT1Retransmit_quiet n d).toCalms
  | pollReliableRetransmit n d alt => exact r.pollReliableRetransmit_calms n d alt
  | takeTxCancels => exact { Calms.refl r with }
  | noteTxDone f i n => exact r.noteTxDone_calms f i n
  | noteTxFailure f i n => exact (r.noteTxFailure_quiet f i n).toCalms
  | noteTxQueueRejected f i n => exact (r.noteTxQueueRejected_quiet f i n).toCalms
  | discardQueuedForward f i => exact (r.discardQueuedForward_quiet f i).toCalms
  | noteRxAirtime ms => exact (r.retries_quiet (bumpReliableDelays_eased _ ms)).toCalms
  | maintenance n k =>
    exact ((r.clearExpiredCommits_quiet n).trans (Router.drawTxIds_quiet _ k)).toCalms
  | setDeviceRole role => exact { Calms.refl r with }
  | radioReconfigured c w => exact r.radioReconfigured_calms c w

theorem Wf.step {r : Router} (h : Wf r) {e : Event} (hp : r.Possible e) : Wf (r.step e).1 := by
  cases e with
  | receive p a hu v n => exact h.receive p a hu v n
  | sendLocal q n => exact h.sendLocal q n
  | pollAdminTx f d => exact h.pollAdminTx hp d
  | pollReadyRelay n a q => exact h.pollReadyRelay n a q
  | _ => exact h.calm (r.step_calms _ (by simp) (by simp) (by simp) (by simp))

theorem wf_reachable {r : Router} (h : routerLTS.Reachable r) : Wf r := by
  refine LTS.Inductive.reachable ⟨?_, ?_⟩ h
  · rintro _ ⟨node, role, window, seed, rfl⟩
    exact .new node role window seed
  · rintro s ⟨e, o⟩ t hs ⟨hp, heq⟩
    have := hs.step hp
    rwa [heq] at this

theorem step_arms (r : Router) (e : Event) : ArmsOnly (Arms r e) r (r.step e).1 := by
  cases e with
  | receive p a hu v n => exact .receive p a hu v n
  | sendLocal q n => exact .sendLocal q n
  | pollAdminTx f d => exact .pollAdminTx f d
  | pollReadyRelay n a q => exact .pollReadyRelay n a q
  | _ => exact .of_calms (r.step_calms _ (by simp) (by simp) (by simp) (by simp))

theorem Output.of_some {kind : RelayPlan → Output} {o : Option RelayPlan} {out : Output}
    (h : Output.of kind o = out) (hq : out ≠ .quiet) : ∃ p, o = some p ∧ kind p = out := by
  cases o with
  | none => exact absurd h.symm hq
  | some p => exact ⟨p, rfl, h⟩

theorem step_t1 {r : Router} {e : Event} {plan : RelayPlan} (h : (r.step e).2 = .t1 plan) :
    ∃ n d, e = .pollT1Retransmit n d ∧ (r.pollT1Retransmit n d).2 = some plan := by
  cases e with
  | pollT1Retransmit n d =>
    obtain ⟨p, hp, hk⟩ := Output.of_some h (by simp)
    cases hk
    exact ⟨n, d, rfl, hp⟩
  | receive | sendLocal | pollAdminTx | pollReadyRelay | pollReliableRetransmit =>
    obtain ⟨p, _, hk⟩ := Output.of_some h (by simp)
    cases hk
  | _ => cases h

theorem step_retx {r : Router} {e : Event} {plan : RelayPlan} (h : (r.step e).2 = .retx plan) :
    ∃ n d alt, e = .pollReliableRetransmit n d alt ∧
      (r.pollReliableRetransmit n d alt).2 = some plan := by
  cases e with
  | pollReliableRetransmit n d alt =>
    obtain ⟨p, hp, hk⟩ := Output.of_some h (by simp)
    cases hk
    exact ⟨n, d, alt, rfl, hp⟩
  | receive | sendLocal | pollAdminTx | pollReadyRelay | pollT1Retransmit =>
    obtain ⟨p, _, hk⟩ := Output.of_some h (by simp)
    cases hk
  | _ => cases h

/-- T1 returns what a live slot holds. -/
theorem t1_armed {r : Router} {e : Event} {plan : RelayPlan} (h : (r.step e).2 = .t1 plan) :
    ∃ s ∈ r.pendingRetransmits, s.live = true ∧ s.frame = plan.frame := by
  obtain ⟨n, d, _, hp⟩ := step_t1 h
  exact r.pollT1Retransmit_some hp

/-- A retry is the frame of an active slot, up to its next-hop byte. -/
theorem retx_armed {r : Router} {e : Event} {plan : RelayPlan} (h : (r.step e).2 = .retx plan) :
    ∃ s ∈ r.pendingReliable, s.active = true ∧ s.frame.packet = plan.frame.packet := by
  obtain ⟨n, d, alt, _, hp⟩ := step_retx h
  obtain ⟨due, hdue, hkey, hto⟩ := r.pollReliableRetransmit_due hp
  obtain ⟨s, hs, ha, _, hframe⟩ := dueRetransmit_some hdue
  exact ⟨s, hs, ha, by rw [Frame.packet, Frame.packet, hkey, hto, hframe]⟩

/-! ## What arming leaves aside -/

/-- The call-backs, T1 and the history are as they were. -/
structure Aside (r s : Router) : Prop where
  cancels : s.txCancels = r.txCancels
  t1 : s.pendingRetransmits = r.pendingRetransmits
  history : s.history = r.history

section Sides

variable {r s t : Router}

theorem Aside.refl (r : Router) : Aside r r := ⟨rfl, rfl, rfl⟩

theorem Aside.trans (h : Aside r s) (h' : Aside s t) : Aside r t :=
  ⟨h'.cancels.trans h.cancels, h'.t1.trans h.t1, h'.history.trans h.history⟩

theorem storePending_aside (p : PendingRelay) : Aside r (r.storePending p).1 := by
  unfold Router.storePending
  split
  · exact ⟨rfl, rfl, rfl⟩
  · split <;> exact ⟨rfl, rfl, rfl⟩

theorem armRelayedUnicastFollowup_aside (frame : Frame) (flags : UnicastSlotFlags)
    (upstream : UInt32) (q : FollowupAnswers) :
    Aside r (r.armRelayedUnicastFollowup frame flags upstream q) := by
  rcases r.armRelayedUnicastFollowup_cases frame flags upstream q with heq | ⟨_, _, _, _, heq⟩ <;>
    rw [heq]
  · exact .refl r
  · exact ⟨rfl, rfl, rfl⟩

theorem drawTxIds_aside (n : Nat) : Aside r (Router.drawTxIds n r) := by
  induction n generalizing r with
  | zero => exact .refl r
  | succ n ih =>
    have halloc : Aside r r.allocTxId.2 := ⟨rfl, rfl, rfl⟩
    exact halloc.trans ih

theorem handBack_aside (parsed : ParsedPacket) (snr : Int) (nowMs : UInt32) (frame : Frame)
    (v : RelayVerdict) : Aside r (r.handBack parsed snr nowMs frame v).1 := by
  have h : Aside r (r.armRelayedUnicastFollowup frame v.flags v.heardFrom v.followup) :=
    armRelayedUnicastFollowup_aside _ _ _ _
  unfold Router.handBack
  dsimp only
  split
  · exact h.trans ⟨rfl, rfl, rfl⟩
  · exact h

theorem commitAndStore_aside (parsed : ParsedPacket) (radioId : UInt8) (snr : Int)
    (nowMs : UInt32) (frame : Frame) (v : RelayVerdict) :
    Aside r (r.commitAndStore parsed radioId snr nowMs frame v).1 := by
  have hcommit : Aside r (r.commitPlan parsed radioId snr nowMs v).1 := ⟨rfl, rfl, rfl⟩
  unfold Router.commitAndStore
  dsimp only
  split
  · exact hcommit.trans (handBack_aside _ _ _ _ _)
  · split
    · exact hcommit.trans (storePending_aside _)
    · exact (hcommit.trans (storePending_aside _)).trans (handBack_aside _ _ _ _ _)

/-- A plan arms a T1 slot or leaves all of this aside. -/
theorem evaluateTxPlan_aside (result : ProcessResult) (packet : InboundPacket) (a : Answers)
    (hearsUs : Bool) (verdict : Verdict) (nowMs : UInt32) :
    Aside r (r.evaluateTxPlan result packet a hearsUs verdict nowMs).1 ∨
      ∃ frame portnum relay delay,
        (r.evaluateTxPlan result packet a hearsUs verdict nowMs).1 =
          r.scheduleT1Broadcast frame portnum relay nowMs delay := by
  rcases evaluateTxPlan_cases r result packet a hearsUs verdict nowMs with ⟨n, heq⟩ |
    ⟨_, _, _, ⟨_, _, _, _, heq⟩ | ⟨_, heq⟩ | ⟨_, _, _, _, heq⟩⟩ <;> rw [heq]
  · exact .inl (drawTxIds_aside n)
  · unfold Router.armT1ForDeferredBroadcast
    split
    · exact .inl (.refl r)
    · split
      · exact .inl (.refl r)
      · exact .inr ⟨_, _, _, _, rfl⟩
  · exact .inl ⟨rfl, rfl, rfl⟩
  · exact .inl (commitAndStore_aside _ _ _ _ _ _)

/-- Beyond processing the frame, reception arms a T1 slot at most. -/
theorem receive_aside (packet : InboundPacket) (a : Answers) (hearsUs : Bool)
    (verdict : Verdict) (nowMs : UInt32) :
    Aside (r.processInbound packet a nowMs).1 (r.receive packet a hearsUs verdict nowMs).1 ∨
      ∃ frame portnum relay delay,
        Aside ((r.processInbound packet a nowMs).1.scheduleT1Broadcast frame portnum relay nowMs
          delay) (r.receive packet a hearsUs verdict nowMs).1 := by
  unfold Router.receive
  split
  · rename_i s heq
    rw [heq]
    exact .inl (.refl s)
  · rename_i s result heq
    rw [heq]
    have hev := evaluateTxPlan_aside (r := s) result packet a hearsUs verdict nowMs
    have hdefer : ∀ (t : Router) (plan : RelayPlan),
        Aside t (if (t.deferRelay plan packet.radioId nowMs).2 then
          ((t.deferRelay plan packet.radioId nowMs).1, none)
          else ((t.deferRelay plan packet.radioId nowMs).1, some plan)).1 := by
      intro t plan
      split <;> exact storePending_aside _
    split
    · rename_i t heq'
      rw [heq'] at hev
      rcases hev with hev | ⟨f, p, y, d, hev⟩
      · exact .inl hev
      · exact .inr ⟨f, p, y, d, by rw [← hev]; exact .refl t⟩
    · rename_i t plan heq'
      rw [heq'] at hev
      rcases hev with hev | ⟨f, p, y, d, hev⟩
      · exact .inl (hev.trans (hdefer t plan))
      · exact .inr ⟨f, p, y, d, by rw [← hev]; exact hdefer t plan⟩

theorem scheduleT1Broadcast_txCancels (frame : Frame) (portnum relay : Option UInt32)
    (nowMs delay : UInt32) :
    (r.scheduleT1Broadcast frame portnum relay nowMs delay).txCancels = r.txCancels := by
  rcases r.scheduleT1Broadcast_cases frame portnum relay nowMs delay with heq | ⟨-, _, -, heq⟩ <;>
    rw [heq]

theorem scheduleT1Broadcast_history (frame : Frame) (portnum relay : Option UInt32)
    (nowMs delay : UInt32) :
    (r.scheduleT1Broadcast frame portnum relay nowMs delay).history = r.history := by
  rcases r.scheduleT1Broadcast_cases frame portnum relay nowMs delay with heq | ⟨-, _, -, heq⟩ <;>
    rw [heq]

theorem receive_txCancels (packet : InboundPacket) (a : Answers) (hearsUs : Bool)
    (verdict : Verdict) (nowMs : UInt32) :
    (r.receive packet a hearsUs verdict nowMs).1.txCancels =
      (r.processInbound packet a nowMs).1.txCancels := by
  rcases receive_aside (r := r) packet a hearsUs verdict nowMs with h | ⟨_, _, _, _, h⟩
  · exact h.cancels
  · exact h.cancels.trans (scheduleT1Broadcast_txCancels _ _ _ _ _)

/-- A packet of our own arms a T1 slot at most, besides its retry. -/
theorem sendLocal_aside (q : Router.LocalRequest) (nowMs : UInt32) :
    Aside r (r.sendLocal q nowMs).1 ∨
      ∃ s frame portnum relay, Aside r s ∧
        (r.sendLocal q nowMs).1 = s.scheduleT1Broadcast frame portnum relay nowMs q.fireDelayMs := by
  unfold Router.sendLocal
  dsimp only
  split
  · exact .inl ⟨rfl, rfl, rfl⟩
  · split
    · exact .inl ⟨rfl, rfl, rfl⟩
    · split
      · refine .inr ⟨_, _, _, _, ?_, rfl⟩
        exact ⟨rfl, rfl, rfl⟩
      · exact .inl ⟨rfl, rfl, rfl⟩

theorem pollAdminTx_aside (frame : Frame) (delay : UInt32) :
    Aside r (r.pollAdminTx frame delay).1 := by
  unfold Router.pollAdminTx
  split <;> exact ⟨rfl, rfl, rfl⟩

theorem pollReadyRelay_aside (nowMs : UInt32) (admits : Frame → Bool) (q : FollowupAnswers) :
    Aside r (r.pollReadyRelay nowMs admits q).1 := by
  rcases pollReadyRelay_cases r nowMs admits q with heq | ⟨i, p, _, _, u, heq⟩ <;> rw [heq]
  · exact ⟨rfl, rfl, rfl⟩
  · refine Aside.trans ?_ (armRelayedUnicastFollowup_aside _ _ _ _)
    exact ⟨rfl, rfl, rfl⟩

theorem pollReliableRetransmit_aside (nowMs : UInt32) (delay : PendingReliable → UInt32)
    (alternate : DueRetransmit → Option UInt8) :
    Aside r (r.pollReliableRetransmit nowMs delay alternate).1 := by
  rw [r.pollReliableRetransmit_fields]
  exact ⟨rfl, rfl, rfl⟩

/-- Only `take_tx_cancels` takes an entry off the list. -/
theorem step_cancels {e : Event} (he : e ≠ .takeTxCancels) {k : PacketKey}
    (hk : k ∈ r.txCancels.rows) : k ∈ (r.step e).1.txCancels.rows := by
  cases e with
  | takeTxCancels => exact absurd rfl he
  | receive p a hu v n =>
    change k ∈ (r.receive p a hu v n).1.txCancels.rows
    rw [receive_txCancels]
    exact (r.processInbound_quiet p a n).cancels k hk
  | sendLocal q n =>
    change k ∈ (r.sendLocal q n).1.txCancels.rows
    rcases sendLocal_aside (r := r) q n with h | ⟨s, _, _, _, h, heq⟩
    · rwa [h.cancels]
    · rwa [heq, scheduleT1Broadcast_txCancels, h.cancels]
  | pollAdminTx f d => rwa [← (pollAdminTx_aside (r := r) f d).cancels] at hk
  | pollReadyRelay n a q => rwa [← (pollReadyRelay_aside (r := r) n a q).cancels] at hk
  | pollReliableRetransmit n d alt =>
    rwa [← (pollReliableRetransmit_aside (r := r) n d alt).cancels] at hk
  | noteTxDone f i n =>
    change k ∈ (r.noteTxDone f i n).txCancels.rows
    unfold Router.noteTxDone
    split <;> exact hk
  | discardQueuedForward f i => exact (r.discardQueuedForward_quiet f i).cancels k hk
  | maintenance n reports =>
    exact ((r.clearExpiredCommits_quiet n).trans (Router.drawTxIds_quiet _ reports)).cancels k hk
  | _ => exact hk

/-- Only a received frame is entered into the history. -/
theorem receive_history (packet : InboundPacket) (a : Answers) (hearsUs : Bool) (verdict : Verdict)
    (nowMs : UInt32) :
    (r.receive packet a hearsUs verdict nowMs).1.history =
      (r.processInbound packet a nowMs).1.history := by
  rcases receive_aside (r := r) packet a hearsUs verdict nowMs with h | ⟨_, _, _, _, h⟩
  · exact h.history
  · exact h.history.trans (scheduleT1Broadcast_history _ _ _ _ _)

theorem step_history {e : Event} (he : ∀ p a h v n, e ≠ .receive p a h v n) :
    (r.step e).1.history = r.history := by
  cases e with
  | receive p a h v n => exact absurd rfl (he p a h v n)
  | sendLocal q n =>
    rcases sendLocal_aside (r := r) q n with h | ⟨s, _, _, _, h, heq⟩
    · exact h.history
    · change (r.sendLocal q n).1.history = r.history
      rw [heq, scheduleT1Broadcast_history]
      exact h.history
  | pollAdminTx f d => exact (pollAdminTx_aside (r := r) f d).history
  | pollReadyRelay n a q => exact (pollReadyRelay_aside (r := r) n a q).history
  | pollReliableRetransmit n d alt => exact (pollReliableRetransmit_aside (r := r) n d alt).history
  | noteTxDone f i n =>
    change (r.noteTxDone f i n).history = r.history
    unfold Router.noteTxDone
    split <;> rfl
  | discardQueuedForward f i => exact (Router.cancelT1Retransmit_spares f i).history
  | maintenance n reports =>
    exact (drawTxIds_aside (r := { r with graph := r.graph.clearExpiredCommits n }) reports).history
  | _ => rfl

end Sides

end Meshrustic.Routing
