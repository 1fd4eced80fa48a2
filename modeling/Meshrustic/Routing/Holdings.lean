import Meshrustic.Routing.Commands

/-!
# Where the router's frames come from

`HoldsOnly P r` says that every frame the router still means to send, be it a
pending relay, a live T1 slot or an active retry, satisfies `P`. A call keeps
that as long as the frames it builds itself satisfy `P` too: a relay builds the
frames of `relayedFrames`, `send_local` the one it returns, and everything else
builds none. What a poll returns was held, up to the next-hop byte of a retry.
-/
namespace Meshrustic.Routing

/-- Another next hop is stamped on a frame. -/
def Frame.restamped (f : Frame) (byte : UInt8) : Frame :=
  { f with header := { f.header with nextHop := byte } }

@[simp] theorem Frame.restamped_channel (f : Frame) (byte : UInt8) :
    (f.restamped byte).header.channel = f.header.channel := rfl

@[simp] theorem Frame.restamped_fromNode (f : Frame) (byte : UInt8) :
    (f.restamped byte).header.fromNode = f.header.fromNode := rfl

@[simp] theorem Frame.restamped_id (f : Frame) (byte : UInt8) :
    (f.restamped byte).header.id = f.header.id := rfl

@[simp] theorem Frame.restamped_payload (f : Frame) (byte : UInt8) :
    (f.restamped byte).payload = f.payload := rfl

theorem Frame.restamped_self (f : Frame) : f.restamped f.header.nextHop = f := rfl

/-- The frames that forwarding a packet may put in the tables: the insurance
copy, which asks for no acknowledgement, or the relay itself. -/
def relayedFrames (nodeNum : UInt32) (parsed : ParsedPacket) (payload : Bytes) :
    Verdict → List Frame
  | .insure _ _ =>
    ((relayHeaderWithNextHopOpts parsed nodeNum 0 false).map fun h =>
      (⟨{ h with wantAck := false }, payload⟩ : Frame)).toList
  | .relay v =>
    ((relayHeaderWithNextHopOpts parsed nodeNum v.nextHop v.lastHop).map fun h =>
      (⟨h, v.payload⟩ : Frame)).toList
  | _ => []

/-- All frames the tables still mean to send satisfy `P`. -/
structure HoldsOnly (P : Frame → Prop) (r : Router) : Prop where
  pending : ∀ p ∈ r.pending, p.active = true → P p.frame
  t1 : ∀ s ∈ r.pendingRetransmits, s.live = true → P s.frame
  retries : ∀ s ∈ r.pendingReliable, s.active = true → P s.frame

namespace HoldsOnly

variable {P Q : Frame → Prop} {r s : Router}

theorem mono (h : HoldsOnly P r) (hPQ : ∀ f, P f → Q f) : HoldsOnly Q r :=
  ⟨fun p hp ha => hPQ _ (h.pending p hp ha), fun x hx hl => hPQ _ (h.t1 x hx hl),
    fun x hx ha => hPQ _ (h.retries x hx ha)⟩

theorem calm (h : HoldsOnly P r) (hc : Calms r s) : HoldsOnly P s where
  pending p hp ha := by
    obtain ⟨x, hx, hk⟩ := hc.pending.origin hp
    rw [hk.frame]
    exact h.pending x hx (hk.active ha)
  t1 y hy hl := by
    obtain ⟨x, hx, hk⟩ := hc.t1.origin hy
    rw [hk.frame]
    exact h.t1 x hx (hk.live hl)
  retries y hy ha := by
    obtain ⟨x, hx, hk⟩ := hc.retries.origin hy
    rw [hk.frame]
    exact h.retries x hx (hk.active ha)

/-- T1 and the retries took up frames of `P`; the pending relays stayed. -/
theorem arm (h : HoldsOnly P r) (ha : ArmsOnly P r s) (hp : s.pending = r.pending) :
    HoldsOnly P s where
  pending p hmem := h.pending p (hp ▸ hmem)
  t1 y hy hl := by
    rcases ha.t1 y hy hl with ⟨x, hx, hlx, hf⟩ | hnew
    · rw [← hf]
      exact h.t1 x hx hlx
    · exact hnew
  retries y hy hact := by
    rcases ha.retries y hy hact with ⟨x, hx, hax, hf⟩ | hnew
    · rw [← hf]
      exact h.retries x hx hax
    · exact hnew

/-- Only the ledger changed. -/
theorem of_eq (h : HoldsOnly P r) (hp : s.pending = r.pending)
    (ht : s.pendingRetransmits = r.pendingRetransmits)
    (hr : s.pendingReliable = r.pendingReliable) : HoldsOnly P s :=
  ⟨fun p hmem => h.pending p (hp ▸ hmem), fun x hx => h.t1 x (ht ▸ hx),
    fun x hx => h.retries x (hr ▸ hx)⟩

theorem storePending (h : HoldsOnly P r) {p : PendingRelay} (hp : P p.frame) :
    HoldsOnly P (r.storePending p).1 := by
  unfold Router.storePending
  split
  · refine { h with pending := fun q hq ha => ?_ }
    rcases Slots.changeFirst_split (PendingRelay.serves p.fromNode p.id) (fun _ => p) r.pending
      with ⟨heq, _⟩ | ⟨l, x, t, hs, _, _, ht⟩
    · rw [heq] at hq
      exact h.pending q hq ha
    · rw [Slots.mem_def, ht, List.mem_append, List.mem_cons] at hq
      rcases hq with hq | rfl | hq
      · exact h.pending q (by rw [Slots.mem_def, hs]; simp [hq]) ha
      · exact hp
      · exact h.pending q (by rw [Slots.mem_def, hs]; simp [hq]) ha
  · split
    · rename_i t ht
      refine { h with pending := fun q hq ha => ?_ }
      rcases Slots.mem_of_place ht hq with rfl | hq
      · exact hp
      · exact h.pending q hq ha
    · exact h

theorem scheduleT1Broadcast (h : HoldsOnly P r) {frame : Frame} (hf : P frame)
    (portnum relay : Option UInt32) (nowMs delay : UInt32) :
    HoldsOnly P (r.scheduleT1Broadcast frame portnum relay nowMs delay) :=
  h.arm (.scheduleT1Broadcast hf _ _ _ _) (scheduleT1Broadcast_pending _ _ _ _ _)

theorem scheduleReliable (h : HoldsOnly P r) {frame : Frame} (hf : P frame) (f i toNode : UInt32)
    (relayed : Bool) (delay : UInt32) (numRetx : Nat) (named : Option NamedFollowup) :
    HoldsOnly P { r with pendingReliable :=
      (Routing.scheduleReliable r.pendingReliable f i toNode relayed frame delay numRetx named).1 } :=
  h.arm (.scheduleReliable hf _ _ _ _ _) rfl

theorem armRelayedUnicastFollowup (h : HoldsOnly P r) {frame : Frame} (hf : P frame)
    (flags : UnicastSlotFlags) (upstream : UInt32) (q : FollowupAnswers) :
    HoldsOnly P (r.armRelayedUnicastFollowup frame flags upstream q) := by
  rcases r.armRelayedUnicastFollowup_cases frame flags upstream q with heq | ⟨_, _, _, _, heq⟩
  · rw [heq]
    exact h
  · rw [heq]
    exact h.scheduleReliable hf _ _ _ _ _ _ _

theorem handBack (h : HoldsOnly P r) {frame : Frame} (hf : P frame) (parsed : ParsedPacket)
    (snr : Int) (nowMs : UInt32) (v : RelayVerdict) :
    HoldsOnly P (r.handBack parsed snr nowMs frame v).1 := by
  have harm := h.armRelayedUnicastFollowup hf v.flags v.heardFrom v.followup
  unfold Router.handBack
  dsimp only
  split
  · exact harm.of_eq rfl rfl rfl
  · exact harm

theorem commitAndStore (h : HoldsOnly P r) {frame : Frame} (hf : P frame) (parsed : ParsedPacket)
    (radioId : UInt8) (snr : Int) (nowMs : UInt32) (v : RelayVerdict) :
    HoldsOnly P (r.commitAndStore parsed radioId snr nowMs frame v).1 := by
  have hcommit : HoldsOnly P (r.commitPlan parsed radioId snr nowMs v).1 := h.of_eq rfl rfl rfl
  unfold Router.commitAndStore
  dsimp only
  split
  · exact hcommit.handBack hf _ _ _ _
  · have hstored := hcommit.storePending (p := ⟨true, parsed.fromNode, parsed.id, radioId,
      (r.commitPlan parsed radioId snr nowMs v).2, frame, v.flags⟩) hf
    split
    · exact hstored
    · exact hstored.handBack hf _ _ _ _

theorem armT1ForDeferredBroadcast (h : HoldsOnly P r) {parsed : ParsedPacket} {payload : Bytes}
    {heardFrom fireDelayMs : UInt32}
    (hnew : ∀ f ∈ relayedFrames r.nodeNum parsed payload (.insure heardFrom fireDelayMs), P f)
    (portnum : Option UInt32) (hearsUs : Bool) (nowMs : UInt32) :
    HoldsOnly P (r.armT1ForDeferredBroadcast parsed payload portnum hearsUs heardFrom nowMs
      fireDelayMs) := by
  unfold Router.armT1ForDeferredBroadcast
  split
  · exact h
  · split
    · exact h
    · rename_i hdr heq
      exact h.scheduleT1Broadcast (hnew _ (by simp [relayedFrames, heq])) _ _ _ _

end HoldsOnly

/-- A plan holds, and hands back, what it builds for its packet. -/
theorem HoldsOnly.evaluateTxPlan {P : Frame → Prop} {r : Router} (h : HoldsOnly P r)
    (result : ProcessResult) (packet : InboundPacket) (verdict : Verdict)
    (hnew : ∀ f ∈ relayedFrames r.nodeNum result.parsed packet.payload verdict, P f)
    (a : Answers) (hearsUs : Bool) (nowMs : UInt32) :
    HoldsOnly P (r.evaluateTxPlan result packet a hearsUs verdict nowMs).1 ∧
      ∀ plan, (r.evaluateTxPlan result packet a hearsUs verdict nowMs).2 = some plan →
        P plan.frame := by
  have hnone : HoldsOnly P r ∧ ∀ plan, (none : Option RelayPlan) = some plan → P plan.frame :=
    ⟨h, fun _ hp => by cases hp⟩
  unfold Router.evaluateTxPlan
  dsimp only
  split
  · exact hnone
  split
  · exact hnone
  split
  · exact hnone
  split
  · exact hnone
  split
  · exact ⟨h.calm (r.drawTxIds_quiet _).toCalms, fun _ hp => by cases hp⟩
  · split
    · exact ⟨h.armT1ForDeferredBroadcast hnew _ _ _, fun _ hp => by cases hp⟩
    · exact hnone
  · exact ⟨h.of_eq rfl rfl rfl, fun _ hp => by cases hp⟩
  · split
    · exact hnone
    · rename_i v _ hdr heq
      have hf : P ⟨hdr, v.payload⟩ := hnew _ (by simp [relayedFrames, heq])
      refine ⟨h.commitAndStore hf _ _ _ _ _, fun plan hp => ?_⟩
      unfold Router.commitAndStore at hp
      dsimp only at hp
      split at hp
      · cases hp
        exact hf
      · split at hp
        · cases hp
        · cases hp
          exact hf

section Calls

variable {P : Frame → Prop} {r : Router}

/-- A received frame adds what is built for it, and a plan that found no place
is such a frame. -/
theorem HoldsOnly.receive (h : HoldsOnly P r) (packet : InboundPacket) (verdict : Verdict)
    (hnew : ∀ f ∈ relayedFrames r.nodeNum packet.header.parse packet.payload verdict, P f)
    (a : Answers) (hearsUs : Bool) (nowMs : UInt32) :
    HoldsOnly P (r.receive packet a hearsUs verdict nowMs).1 ∧
      ∀ plan, (r.receive packet a hearsUs verdict nowMs).2 = some plan → P plan.frame := by
  have hin := h.calm (r.processInbound_quiet packet a nowMs).toCalms
  have hnode := (r.processInbound_quiet packet a nowMs).node
  unfold Router.receive
  split
  · rename_i s heq
    rw [heq] at hin
    exact ⟨hin, fun _ hp => by cases hp⟩
  · rename_i s result heq
    rw [heq] at hin hnode
    have hparsed : result.parsed = packet.header.parse :=
      processInbound_parsed (congrArg Prod.snd heq)
    have hev := hin.evaluateTxPlan result packet verdict
      (by rw [hparsed, hnode]; exact hnew) a hearsUs nowMs
    split
    · rename_i t heq'
      rw [heq'] at hev
      exact ⟨hev.1, fun _ hp => by cases hp⟩
    · rename_i t plan heq'
      rw [heq'] at hev
      have hplan := hev.2 plan rfl
      have hdefer : HoldsOnly P (t.deferRelay plan packet.radioId nowMs).1 :=
        hev.1.storePending hplan
      dsimp only
      split
      · exact ⟨hdefer, fun _ hp => by cases hp⟩
      · refine ⟨hdefer, fun p hp => ?_⟩
        cases hp
        exact hplan

theorem HoldsOnly.pollReadyRelay (h : HoldsOnly P r) (nowMs : UInt32) (admits : Frame → Bool)
    (q : FollowupAnswers) :
    HoldsOnly P (r.pollReadyRelay nowMs admits q).1 ∧
      ∀ plan, (r.pollReadyRelay nowMs admits q).2 = some plan → P plan.frame := by
  have hdrop := h.calm (r.dropStale_quiet nowMs admits).toCalms
  rcases pollReadyRelay_cases r nowMs admits q with heq | ⟨i, p, hi, ha, upstream, heq⟩ <;> rw [heq]
  · exact ⟨hdrop, fun _ hp => by cases hp⟩
  · have hp : P p.frame := hdrop.pending p (List.mem_of_getElem? hi) ha
    refine ⟨(h.calm (takeOut_quiet hi).toCalms).armRelayedUnicastFollowup hp _ _ _, fun plan hq => ?_⟩
    cases hq
    exact hp

theorem HoldsOnly.pollT1Retransmit (h : HoldsOnly P r) (nowMs : UInt32)
    (drops : PendingRetransmit → Bool) :
    HoldsOnly P (r.pollT1Retransmit nowMs drops).1 ∧
      ∀ plan, (r.pollT1Retransmit nowMs drops).2 = some plan → P plan.frame := by
  refine ⟨h.calm (r.pollT1Retransmit_quiet nowMs drops).toCalms, fun plan hp => ?_⟩
  obtain ⟨s, hs, hl, hf⟩ := r.pollT1Retransmit_some hp
  rw [← hf]
  exact h.t1 s hs hl

/-- A retry is what its slot holds, with another next hop if it is redirected. -/
theorem pollReliableRetransmit_frame {nowMs : UInt32} {delay : PendingReliable → UInt32}
    {alternate : DueRetransmit → Option UInt8} {plan : RelayPlan}
    (h : (r.pollReliableRetransmit nowMs delay alternate).2 = some plan) :
    ∃ s ∈ r.pendingReliable, s.active = true ∧ ∃ byte, plan.frame = s.frame.restamped byte := by
  unfold Router.pollReliableRetransmit at h
  dsimp only at h
  split at h
  · cases h
  · rename_i d hd
    obtain ⟨s, hs, ha, _, hf⟩ := dueRetransmit_some hd
    refine ⟨s, hs, ha, ?_⟩
    rw [← hf]
    split at h
    · cases h
      exact ⟨_, d.frame.restamped_self.symm⟩
    · split at h
      · cases h
      · cases h
        exact ⟨_, rfl⟩

theorem HoldsOnly.pollReliableRetransmit (h : HoldsOnly P r) (nowMs : UInt32)
    (delay : PendingReliable → UInt32) (alternate : DueRetransmit → Option UInt8) :
    HoldsOnly P (r.pollReliableRetransmit nowMs delay alternate).1 ∧
      ∀ plan, (r.pollReliableRetransmit nowMs delay alternate).2 = some plan →
        ∃ f byte, P f ∧ plan.frame = f.restamped byte := by
  refine ⟨h.calm (r.pollReliableRetransmit_calms nowMs delay alternate), fun plan hp => ?_⟩
  obtain ⟨s, hs, ha, byte, heq⟩ := pollReliableRetransmit_frame hp
  exact ⟨s.frame, byte, h.retries s hs ha, heq⟩

theorem HoldsOnly.pollAdminTx (h : HoldsOnly P r) {frame : Frame} (hf : P frame) (delay : UInt32) :
    HoldsOnly P (r.pollAdminTx frame delay).1 := by
  unfold Router.pollAdminTx
  split
  · exact h.scheduleReliable hf _ _ _ _ _ _ _
  · exact h

/-- What the router originates is on the channel, and in the cipher text, that
the request names. -/
theorem sendLocal_frame {q : Router.LocalRequest} {nowMs : UInt32} {plan : RelayPlan}
    (h : (r.sendLocal q nowMs).2 = some plan) :
    ∃ payload, q.body = some payload ∧
      plan.frame = ⟨r.allocTxId.2.localHeader q r.allocTxId.1, payload⟩ := by
  unfold Router.sendLocal at h
  dsimp only at h
  split at h
  · cases h
  · rename_i payload hbody
    split at h
    · cases h
    · split at h <;> cases h <;> exact ⟨payload, hbody, rfl⟩

theorem HoldsOnly.sendLocal (h : HoldsOnly P r) {q : Router.LocalRequest} {nowMs : UInt32}
    (hnew : ∀ plan, (r.sendLocal q nowMs).2 = some plan → P plan.frame) :
    HoldsOnly P (r.sendLocal q nowMs).1 := by
  have halloc := h.calm r.allocTxId_quiet.toCalms
  unfold Router.sendLocal at hnew ⊢
  dsimp only at hnew ⊢
  split
  · exact halloc
  · rename_i payload hbody
    rw [hbody] at hnew
    dsimp only at hnew
    split
    · exact halloc
    · rename_i harm
      rw [if_neg harm] at hnew
      have hf : P ⟨r.allocTxId.2.localHeader q r.allocTxId.1, payload⟩ := by
        split at hnew <;> exact hnew _ rfl
      have hretry := halloc.arm (ArmsOnly.armLocalRetry q hf) rfl
      split
      · exact hretry.scheduleT1Broadcast hf _ _ _ _
      · exact hretry

/-- After a reconfiguration the three tables hold nothing. -/
theorem HoldsOnly.radioReconfigured (P : Frame → Prop) (r : Router) (presetChanged : Bool)
    (recordWindowMs : UInt32) : HoldsOnly P (r.radioReconfigured presetChanged recordWindowMs) where
  pending p hp ha := by
    obtain ⟨x, _, rfl⟩ := List.mem_map.mp hp
    cases ha
  t1 s hs hl := by
    obtain ⟨x, _, rfl⟩ := List.mem_map.mp hs
    cases hl
  retries s hs ha := by
    obtain ⟨x, _, rfl⟩ := List.mem_map.mp hs
    cases ha

end Calls

end Meshrustic.Routing
