import Meshrustic.Routing.Calm

/-!
# The tables stay well formed

`Wf` is what holds of the router's tables at all times: a packet has at most
one pending frame, one commit a radio and one retry slot; a live T1 slot is
the first of its packet, so the scan of `cancel_t1_retransmit` finds it;
every armed frame carries the name of its slot; packets of our own are
neither pending nor committed.

`ArmsOnly new r r'` says that from `r` to `r'` T1 and the retries took up
frames of `new` only. Each operation has one lemma of either kind.
-/
namespace Meshrustic.Routing

open Meshrustic.RateLimit (NODENUM_BROADCAST)

/-! ## The tables are well formed -/

structure Wf (r : Router) : Prop where
  pendingOnce : Once PendingRelay.active PendingRelay.key r.pending
  pendingFrame : ∀ p ∈ r.pending, p.active = true →
    p.frame.key = p.key ∧ p.fromNode ≠ r.nodeNum
  commitOnce : Once RelayCommit.active RelayCommit.key r.graph.relayStates
  commitForeign : ∀ k, r.graph.Committed k → k.1 ≠ r.nodeNum
  t1Leading : Leading PendingRetransmit.live PendingRetransmit.key r.pendingRetransmits
  t1Frame : ∀ s ∈ r.pendingRetransmits, s.live = true →
    s.frame.key = s.key ∧ s.frame.header.toNode = NODENUM_BROADCAST
  retryOnce : Once PendingReliable.active PendingReliable.key r.pendingReliable
  retryFrame : ∀ s ∈ r.pendingReliable, s.active = true → s.frame.key = s.key

theorem PendingKept.calmer {x y : PendingRelay} (h : PendingKept x y) :
    Calmer PendingRelay.active PendingRelay.key x y := ⟨h.key, h.active⟩

theorem T1Kept.calmer {x y : PendingRetransmit} (h : T1Kept x y) :
    Calmer PendingRetransmit.live PendingRetransmit.key x y := ⟨h.key, h.live⟩

/-- A packet is armed in front of its stale slots. -/
theorem scheduleT1Broadcast_leading {r : Router}
    (h : Leading PendingRetransmit.live PendingRetransmit.key r.pendingRetransmits) (frame : Frame)
    (portnum relay : Option UInt32) (nowMs delay : UInt32) :
    Leading PendingRetransmit.live PendingRetransmit.key
      (r.scheduleT1Broadcast frame portnum relay nowMs delay).pendingRetransmits := by
  rcases r.scheduleT1Broadcast_cases frame portnum relay nowMs delay with heq |
    ⟨hnew, t, ht, heq⟩ <;> rw [heq]
  · exact h
  · refine h.place (fun s _ hfree => ?_) (fun s hs hl => ?_) ht
    · simpa [PendingRetransmit.live] using hfree
    · rw [PendingRetransmit.live, Bool.and_eq_true] at hl
      exact hnew s hs hl.1

namespace Wf

variable {r r' : Router}

theorem new (node role window seed : UInt32) : Wf (.new node role window seed) where
  pendingOnce := .all rfl
  pendingFrame p hp ha := by
    rw [Slots.mem_all hp] at ha
    cases ha
  commitOnce := .all rfl
  commitForeign k hk := by
    obtain ⟨c, hc, ha, _⟩ := hk
    rw [Slots.mem_all hc] at ha
    cases ha
  t1Leading := .all rfl
  t1Frame s hs ha := by
    rw [Slots.mem_all hs] at ha
    cases ha
  retryOnce := .all rfl
  retryFrame s hs ha := by
    rw [Slots.mem_all hs] at ha
    cases ha

theorem calm (h : Wf r) (hc : Calms r r') : Wf r' where
  pendingOnce := h.pendingOnce.calm (hc.pending.imp fun _ _ => PendingKept.calmer)
  pendingFrame p hp ha := by
    obtain ⟨p', hp', hk⟩ := hc.pending.origin hp
    obtain ⟨hf, hn⟩ := h.pendingFrame p' hp' (hk.active ha)
    rw [hk.frame, hk.key, hc.node]
    have : p.fromNode = p'.fromNode := congrArg Prod.fst hk.key
    exact ⟨hf, this ▸ hn⟩
  commitOnce := h.commitOnce.calm hc.commits
  commitForeign k hk := by
    rw [hc.node]
    exact h.commitForeign k (hk.of_calm hc.commits)
  t1Leading := h.t1Leading.calm (hc.t1.imp fun _ _ => T1Kept.calmer)
  t1Frame s hs hl := by
    obtain ⟨s', hs', hk⟩ := hc.t1.origin hs
    rw [hk.frame, hk.key]
    exact h.t1Frame s' hs' (hk.live hl)
  retryOnce := h.retryOnce.calm (hc.retries.imp fun _ _ => Kept.calmer)
  retryFrame s hs ha := by
    obtain ⟨s', hs', hk⟩ := hc.retries.origin hs
    rw [hk.frame, hk.key]
    exact h.retryFrame s' hs' (hk.active ha)

theorem quiet (h : Wf r) (hq : Quiet r r') : Wf r' := h.calm hq.toCalms

theorem storePending (h : Wf r) (new : PendingRelay) (hkey : new.frame.key = new.key)
    (hforeign : new.fromNode ≠ r.nodeNum) : Wf (r.storePending new).1 := by
  unfold Router.storePending
  split
  · refine { h with
      pendingOnce := h.pendingOnce.calm (.changeFirst Calmer.refl fun p _ hp => ?_)
      pendingFrame := fun p hp ha => ?_ }
    · rw [PendingRelay.serves_iff] at hp
      exact ⟨hp.2.symm, fun _ => hp.1⟩
    · rcases Slots.changeFirst_split (PendingRelay.serves new.fromNode new.id) (fun _ => new)
        r.pending with ⟨heq, _⟩ | ⟨l, x, t, hs, _, _, ht⟩
      · rw [heq] at hp
        exact h.pendingFrame p hp ha
      · rw [Slots.mem_def, ht, List.mem_append, List.mem_cons] at hp
        rcases hp with hp | rfl | hp
        · exact h.pendingFrame p (by rw [Slots.mem_def, hs]; simp [hp]) ha
        · exact ⟨hkey, hforeign⟩
        · exact h.pendingFrame p (by rw [Slots.mem_def, hs]; simp [hp]) ha
  · rename_i hany
    rw [Bool.not_eq_true, Slots.any_eq_false] at hany
    split
    · rename_i t ht
      refine { h with
        pendingOnce := h.pendingOnce.place (fun p hp ha hk => ?_) ht
        pendingFrame := fun p hp ha => ?_ }
      · have := hany p hp
        rw [PendingRelay.serves_iff.mpr ⟨ha, hk⟩] at this
        cases this
      · rcases Slots.mem_of_place ht hp with rfl | hp
        · exact ⟨hkey, hforeign⟩
        · exact h.pendingFrame p hp ha
    · exact h

theorem commitRelay (h : Wf r) {f : UInt32} (hf : f ≠ r.nodeNum) (i : UInt32) (radioId : UInt8)
    (snr : Int) (heardFrom nowMs delay : UInt32) :
    Wf { r with graph := (r.graph.commitRelay f i radioId snr heardFrom nowMs delay).1 } := by
  have hnode : (r.graph.commitRelay f i radioId snr heardFrom nowMs delay).1.myNode = r.nodeNum := by
    rw [RelayLedger.commitRelay_frame]
    rfl
  refine { h with
    pendingFrame := fun p hp ha => ?_
    commitOnce := RelayLedger.commitRelay_once h.commitOnce radioId snr heardFrom nowMs delay
    commitForeign := fun k hk => ?_ }
  · simp only [Router.nodeNum, hnode]
    exact h.pendingFrame p hp ha
  · simp only [Router.nodeNum, hnode]
    rcases RelayLedger.Committed.of_commitRelay hk with hk | rfl
    · exact h.commitForeign k hk
    · exact hf

theorem setUnicastCommitFlags (h : Wf r) (f i : UInt32) (flags : UnicastSlotFlags) :
    Wf { r with graph := r.graph.setUnicastCommitFlags f i flags } :=
  h.calm { Calms.refl r with commits := RelayLedger.setUnicastCommitFlags_calm }

theorem scheduleT1Broadcast (h : Wf r) {frame : Frame}
    (hto : frame.header.toNode = NODENUM_BROADCAST) (portnum relay : Option UInt32)
    (nowMs delay : UInt32) : Wf (r.scheduleT1Broadcast frame portnum relay nowMs delay) := by
  have hlead := scheduleT1Broadcast_leading h.t1Leading frame portnum relay nowMs delay
  rcases r.scheduleT1Broadcast_cases frame portnum relay nowMs delay with heq | ⟨-, t, ht, heq⟩ <;>
    rw [heq] at hlead ⊢
  · exact h
  · refine { h with t1Leading := hlead, t1Frame := fun s hs hl => ?_ }
    rcases Slots.mem_of_place ht hs with rfl | hs
    · exact ⟨rfl, hto⟩
    · exact h.t1Frame s hs hl

theorem scheduleReliable (h : Wf r) {f i : UInt32} {frame : Frame} (hkey : frame.key = (f, i))
    (toNode : UInt32) (relayed : Bool) (delay : UInt32) (numRetx : Nat)
    (named : Option NamedFollowup) :
    Wf { r with pendingReliable :=
      (scheduleReliable r.pendingReliable f i toNode relayed frame delay numRetx named).1 } := by
  rcases scheduleReliable_cases r.pendingReliable f i toNode relayed frame delay numRetx named with
    heq | ⟨hnew, hplace⟩
  · rw [heq]
    exact h
  · refine { h with
      retryOnce := h.retryOnce.place ?_ hplace
      retryFrame := fun s hs ha => ?_ }
    · exact hnew
    rcases Slots.mem_of_place hplace hs with rfl | hs
    · exact hkey
    · exact h.retryFrame s hs ha

end Wf

/-! ## Which frames become armed -/

/-- T1 and the retries hold what they held, and frames of `new`. -/
structure ArmsOnly (new : Frame → Prop) (r r' : Router) : Prop where
  node : r'.nodeNum = r.nodeNum
  t1 : ∀ s ∈ r'.pendingRetransmits, s.live = true →
    (∃ x ∈ r.pendingRetransmits, x.live = true ∧ x.frame = s.frame) ∨ new s.frame
  retries : ∀ s ∈ r'.pendingReliable, s.active = true →
    (∃ x ∈ r.pendingReliable, x.active = true ∧ x.frame = s.frame) ∨ new s.frame

namespace ArmsOnly

variable {new : Frame → Prop} {r s t : Router}

theorem of_calms (h : Calms r s) : ArmsOnly new r s where
  node := h.node
  t1 x hx hl := by
    obtain ⟨y, hy, hk⟩ := h.t1.origin hx
    exact .inl ⟨y, hy, hk.live hl, hk.frame.symm⟩
  retries x hx ha := by
    obtain ⟨y, hy, hk⟩ := h.retries.origin hx
    exact .inl ⟨y, hy, hk.active ha, hk.frame.symm⟩

theorem trans (h : ArmsOnly new r s) (h' : ArmsOnly new s t) : ArmsOnly new r t where
  node := h'.node.trans h.node
  t1 x hx hl := by
    rcases h'.t1 x hx hl with ⟨y, hy, hly, hf⟩ | hn
    · rw [← hf]
      exact h.t1 y hy hly
    · exact .inr hn
  retries x hx ha := by
    rcases h'.retries x hx ha with ⟨y, hy, hly, hf⟩ | hn
    · rw [← hf]
      exact h.retries y hy hly
    · exact .inr hn

theorem mono {new' : Frame → Prop} (h : ArmsOnly new r s) (hnew : ∀ f, new f → new' f) :
    ArmsOnly new' r s where
  node := h.node
  t1 x hx hl := (h.t1 x hx hl).imp_right (hnew _)
  retries x hx ha := (h.retries x hx ha).imp_right (hnew _)

/-- Only the pending relays or the ledger changed. -/
theorem of_eq (hnode : s.nodeNum = r.nodeNum) (ht : s.pendingRetransmits = r.pendingRetransmits)
    (hr : s.pendingReliable = r.pendingReliable) : ArmsOnly new r s where
  node := hnode
  t1 x hx hl := .inl ⟨x, ht ▸ hx, hl, rfl⟩
  retries x hx ha := .inl ⟨x, hr ▸ hx, ha, rfl⟩

theorem storePending (p : PendingRelay) : ArmsOnly new r (r.storePending p).1 := by
  unfold Router.storePending
  split
  · exact of_eq rfl rfl rfl
  · split <;> exact of_eq rfl rfl rfl

theorem scheduleT1Broadcast {frame : Frame} (hf : new frame) (portnum relay : Option UInt32)
    (nowMs delay : UInt32) : ArmsOnly new r (r.scheduleT1Broadcast frame portnum relay nowMs delay) := by
  rcases r.scheduleT1Broadcast_cases frame portnum relay nowMs delay with heq | ⟨-, t, ht, heq⟩ <;>
    rw [heq]
  · exact of_eq rfl rfl rfl
  · refine ⟨rfl, fun x hx hl => ?_, fun x hx ha => .inl ⟨x, hx, ha, rfl⟩⟩
    rcases Slots.mem_of_place ht hx with rfl | hx
    · exact .inr hf
    · exact .inl ⟨x, hx, hl, rfl⟩

theorem scheduleReliable {f i : UInt32} {frame : Frame} (hf : new frame) (toNode : UInt32)
    (relayed : Bool) (delay : UInt32) (numRetx : Nat) (named : Option NamedFollowup) :
    ArmsOnly new r { r with pendingReliable :=
      (scheduleReliable r.pendingReliable f i toNode relayed frame delay numRetx named).1 } where
  node := rfl
  t1 x hx hl := .inl ⟨x, hx, hl, rfl⟩
  retries x hx ha := by
    rcases mem_scheduleReliable hx with hx | ⟨_, hframe⟩
    · exact .inl ⟨x, hx, ha, rfl⟩
    · exact .inr (hframe ▸ hf)

end ArmsOnly

/-! ## Relaying -/

/-- Follow-ups are for other nodes' unicasts. -/
theorem Router.armRelayedUnicastFollowup_cases (r : Router) (frame : Frame)
    (flags : UnicastSlotFlags) (upstream : UInt32) (q : FollowupAnswers) :
    r.armRelayedUnicastFollowup frame flags upstream q = r ∨
      frame.header.toNode ≠ NODENUM_BROADCAST ∧ frame.header.fromNode ≠ r.nodeNum ∧
        ∃ named numRetx, r.armRelayedUnicastFollowup frame flags upstream q =
          r.armFollowup frame named numRetx := by
  unfold Router.armRelayedUnicastFollowup
  dsimp only
  split
  · exact .inl rfl
  rename_i hto
  rw [Bool.or_eq_true, not_or] at hto
  have hto1 : frame.header.toNode ≠ NODENUM_BROADCAST := by simpa using hto.1
  have hto2 : frame.header.fromNode ≠ r.nodeNum := by simpa using hto.2
  split
  · exact .inl rfl
  split
  · exact .inl rfl
  split
  · split
    · exact .inl rfl
    · exact .inr ⟨hto1, hto2, _, _, rfl⟩
  · split
    · exact .inl rfl
    · exact .inr ⟨hto1, hto2, _, _, rfl⟩

theorem Wf.armRelayedUnicastFollowup {r : Router} (h : Wf r) (frame : Frame)
    (flags : UnicastSlotFlags) (upstream : UInt32) (q : FollowupAnswers) :
    Wf (r.armRelayedUnicastFollowup frame flags upstream q) := by
  rcases r.armRelayedUnicastFollowup_cases frame flags upstream q with heq | ⟨_, _, _, _, heq⟩
  · rw [heq]
    exact h
  · rw [heq]
    exact h.scheduleReliable rfl _ _ _ _ _

theorem ArmsOnly.armRelayedUnicastFollowup {r : Router} (frame : Frame)
    (flags : UnicastSlotFlags) (upstream : UInt32) (q : FollowupAnswers) :
    ArmsOnly (fun f => f.header.fromNode ≠ r.nodeNum) r
      (r.armRelayedUnicastFollowup frame flags upstream q) := by
  rcases r.armRelayedUnicastFollowup_cases frame flags upstream q with heq | ⟨_, hne, _, _, heq⟩
  · rw [heq]
    exact .of_calms (.refl r)
  · rw [heq]
    exact .scheduleReliable hne _ _ _ _ _

section Plan

variable {r : Router} {parsed : ParsedPacket} {frame : Frame}

theorem Wf.bridgeLeg (h : Wf r) (hf : parsed.fromNode ≠ r.nodeNum) (snr : Int) (nowMs : UInt32)
    (leg : UInt8 × UInt32) : Wf (r.bridgeLeg parsed snr nowMs leg) := h.commitRelay hf _ _ _ _ _ _

theorem bridgeLeg_node (snr : Int) (nowMs : UInt32) (leg : UInt8 × UInt32) :
    (r.bridgeLeg parsed snr nowMs leg).nodeNum = r.nodeNum := by
  unfold Router.bridgeLeg Router.nodeNum
  dsimp only
  rw [RelayLedger.commitRelay_frame]

theorem commitPlan_node (r : Router) (parsed : ParsedPacket) (radioId : UInt8) (snr : Int) (nowMs : UInt32) (v : RelayVerdict) :
    (r.commitPlan parsed radioId snr nowMs v).1.nodeNum = r.nodeNum := by
  unfold Router.commitPlan Router.nodeNum RelayLedger.setUnicastCommitFlags
  dsimp only
  rw [RelayLedger.commitRelay_frame]

theorem Wf.commitPlan (h : Wf r) (hf : parsed.fromNode ≠ r.nodeNum) (radioId : UInt8) (snr : Int)
    (nowMs : UInt32) (v : RelayVerdict) : Wf (r.commitPlan parsed radioId snr nowMs v).1 :=
  (h.commitRelay hf _ _ _ _ _ _).setUnicastCommitFlags _ _ _

theorem storePending_node (p : PendingRelay) : (r.storePending p).1.nodeNum = r.nodeNum := by
  unfold Router.storePending
  split
  · rfl
  · split <;> rfl

theorem Wf.handBack (h : Wf r) (hf : parsed.fromNode ≠ r.nodeNum) (snr : Int) (nowMs : UInt32)
    (v : RelayVerdict) : Wf (r.handBack parsed snr nowMs frame v).1 := by
  have harm := h.armRelayedUnicastFollowup frame v.flags v.heardFrom v.followup
  unfold Router.handBack
  dsimp only
  split
  · have hn := (ArmsOnly.armRelayedUnicastFollowup (r := r) frame v.flags v.heardFrom
      v.followup).node
    exact harm.bridgeLeg (hn ▸ hf) _ _ _
  · exact harm

theorem Wf.commitAndStore (h : Wf r) (hf : parsed.fromNode ≠ r.nodeNum)
    (hkey : frame.key = parsed.key) (radioId : UInt8) (snr : Int) (nowMs : UInt32)
    (v : RelayVerdict) : Wf (r.commitAndStore parsed radioId snr nowMs frame v).1 := by
  have hc := h.commitPlan hf radioId snr nowMs v
  have hn := commitPlan_node r parsed radioId snr nowMs v
  unfold Router.commitAndStore
  dsimp only
  split
  · exact hc.handBack (hn ▸ hf) _ _ _
  · have hs := hc.storePending ⟨true, parsed.fromNode, parsed.id, radioId,
      (r.commitPlan parsed radioId snr nowMs v).2, frame, v.flags⟩ hkey (hn ▸ hf)
    split
    · exact hs
    · refine hs.handBack ?_ _ _ _
      rw [storePending_node]
      exact hn ▸ hf

/-- Frames of other nodes. -/
abbrev Foreign (r : Router) (f : Frame) : Prop := f.header.fromNode ≠ r.nodeNum

theorem foreign_of_node {r s : Router} (h : s.nodeNum = r.nodeNum) {f : Frame} (hf : Foreign s f) :
    Foreign r f := fun he => hf (he.trans h.symm)

theorem ArmsOnly.handBack (snr : Int) (nowMs : UInt32) (v : RelayVerdict) :
    ArmsOnly (Foreign r) r (r.handBack parsed snr nowMs frame v).1 := by
  have harm := ArmsOnly.armRelayedUnicastFollowup (r := r) frame v.flags v.heardFrom v.followup
  unfold Router.handBack
  dsimp only
  split
  · exact harm.trans (.of_eq (bridgeLeg_node _ _ _) rfl rfl)
  · exact harm

theorem ArmsOnly.commitAndStore (radioId : UInt8) (snr : Int) (nowMs : UInt32) (v : RelayVerdict) :
    ArmsOnly (Foreign r) r (r.commitAndStore parsed radioId snr nowMs frame v).1 := by
  have hn := commitPlan_node r parsed radioId snr nowMs v
  have hc : ArmsOnly (Foreign r) r (r.commitPlan parsed radioId snr nowMs v).1 :=
    .of_eq hn rfl rfl
  have hback : ∀ s : Router, s.nodeNum = r.nodeNum →
      ArmsOnly (Foreign r) s (s.handBack parsed snr nowMs frame v).1 := by
    intro s hs
    exact (ArmsOnly.handBack snr nowMs v).mono fun _ => foreign_of_node hs
  unfold Router.commitAndStore
  dsimp only
  split
  · exact hc.trans (hback _ hn)
  · have hs := hc.trans (ArmsOnly.storePending ⟨true, parsed.fromNode, parsed.id, radioId,
      (r.commitPlan parsed radioId snr nowMs v).2, frame, v.flags⟩)
    split
    · exact hs
    · exact hs.trans (hback _ hs.node)

end Plan

section Evaluate

variable {r : Router}

theorem Wf.armT1ForDeferredBroadcast (h : Wf r) {parsed : ParsedPacket}
    (hto : parsed.toNode = NODENUM_BROADCAST) (payload : Bytes) (portnum : Option UInt32)
    (hearsUs : Bool) (heardFrom nowMs delay : UInt32) :
    Wf (r.armT1ForDeferredBroadcast parsed payload portnum hearsUs heardFrom nowMs delay) := by
  unfold Router.armT1ForDeferredBroadcast
  split
  · exact h
  · split
    · exact h
    · rename_i hdr heq
      exact h.scheduleT1Broadcast ((relayHeader_toNode heq).trans hto) _ _ _ _

theorem ArmsOnly.armT1ForDeferredBroadcast {parsed : ParsedPacket}
    (hf : parsed.fromNode ≠ r.nodeNum) (payload : Bytes) (portnum : Option UInt32)
    (hearsUs : Bool) (heardFrom nowMs delay : UInt32) :
    ArmsOnly (Foreign r) r
      (r.armT1ForDeferredBroadcast parsed payload portnum hearsUs heardFrom nowMs delay) := by
  unfold Router.armT1ForDeferredBroadcast
  split
  · exact .of_calms (.refl r)
  · split
    · exact .of_calms (.refl r)
    · rename_i hdr heq
      have hkey : hdr.fromNode = parsed.fromNode := congrArg Prod.fst (relayHeader_key heq)
      exact .scheduleT1Broadcast (hkey ▸ hf) _ _ _ _

/-- A plan is made only for a packet of another node; either it is skipped,
insured, bridged, or committed. -/
theorem evaluateTxPlan_cases (r : Router) (result : ProcessResult) (packet : InboundPacket)
    (a : Answers) (hearsUs : Bool) (verdict : Verdict) (nowMs : UInt32) :
    (∃ n, r.evaluateTxPlan result packet a hearsUs verdict nowMs = (Router.drawTxIds n r, none)) ∨
    result.handle = true ∧ result.parsed.fromNode ≠ r.nodeNum ∧
    r.graph.hasOurTransmission result.parsed.fromNode result.parsed.id nowMs = false ∧
    ((result.parsed.toNode = NODENUM_BROADCAST ∧ ∃ portnum heardFrom delay,
        r.evaluateTxPlan result packet a hearsUs verdict nowMs =
          (r.armT1ForDeferredBroadcast result.parsed packet.payload portnum hearsUs heardFrom nowMs
            delay, none)) ∨
      (∃ leg, r.evaluateTxPlan result packet a hearsUs verdict nowMs =
        (r.bridgeLeg result.parsed packet.snr nowMs leg, none)) ∨
      ∃ frame v, frame.key = result.parsed.key ∧ frame.header.toNode = result.parsed.toNode ∧
        r.evaluateTxPlan result packet a hearsUs verdict nowMs =
          r.commitAndStore result.parsed packet.radioId packet.snr nowMs frame v) := by
  unfold Router.evaluateTxPlan
  dsimp only
  split
  · exact .inl ⟨0, rfl⟩
  rename_i hresult
  split
  · exact .inl ⟨0, rfl⟩
  rename_i hsent
  split
  · exact .inl ⟨0, rfl⟩
  rename_i hwire
  split
  · exact .inl ⟨0, rfl⟩
  have hhandle : result.handle = true := by
    cases h : result.handle
    · simp [h] at hresult
    · rfl
  have hfrom : result.parsed.fromNode ≠ r.nodeNum := by
    intro h
    simp [wireMayRelay, h] at hwire
  have hnot := Bool.eq_false_iff.mpr hsent
  split
  · exact .inl ⟨_, rfl⟩
  · split
    · rename_i hto
      exact .inr ⟨hhandle, hfrom, hnot, .inl ⟨by simpa using hto, _, _, _, rfl⟩⟩
    · exact .inl ⟨0, rfl⟩
  · exact .inr ⟨hhandle, hfrom, hnot, .inr (.inl ⟨_, rfl⟩)⟩
  · split
    · exact .inl ⟨0, rfl⟩
    · rename_i hdr heq
      exact .inr ⟨hhandle, hfrom, hnot,
        .inr (.inr ⟨_, _, relayHeader_key heq, relayHeader_toNode heq, rfl⟩)⟩

theorem Wf.evaluateTxPlan (h : Wf r) (result : ProcessResult) (packet : InboundPacket)
    (a : Answers) (hearsUs : Bool) (verdict : Verdict) (nowMs : UInt32) :
    Wf (r.evaluateTxPlan result packet a hearsUs verdict nowMs).1 := by
  rcases evaluateTxPlan_cases r result packet a hearsUs verdict nowMs with ⟨n, heq⟩ |
    ⟨_, hf, _, ⟨hto, _, _, _, heq⟩ | ⟨leg, heq⟩ | ⟨frame, v, hkey, _, heq⟩⟩ <;> rw [heq]
  · exact h.quiet (r.drawTxIds_quiet n)
  · exact h.armT1ForDeferredBroadcast hto _ _ _ _ _ _
  · exact h.bridgeLeg hf _ _ _
  · exact h.commitAndStore hf hkey _ _ _ _

theorem ArmsOnly.evaluateTxPlan (result : ProcessResult) (packet : InboundPacket)
    (a : Answers) (hearsUs : Bool) (verdict : Verdict) (nowMs : UInt32) :
    ArmsOnly (Foreign r) r (r.evaluateTxPlan result packet a hearsUs verdict nowMs).1 := by
  rcases evaluateTxPlan_cases r result packet a hearsUs verdict nowMs with ⟨n, heq⟩ |
    ⟨_, hf, _, ⟨_, _, _, _, heq⟩ | ⟨leg, heq⟩ | ⟨frame, v, _, _, heq⟩⟩ <;> rw [heq]
  · exact .of_calms (r.drawTxIds_quiet n).toCalms
  · exact .armT1ForDeferredBroadcast hf _ _ _ _ _ _
  · exact .of_eq (bridgeLeg_node _ _ _) rfl rfl
  · exact .commitAndStore _ _ _ _

/-- A plan that is handed back is the frame of the packet it was made for. -/
theorem evaluateTxPlan_some {result : ProcessResult} {packet : InboundPacket} {a : Answers}
    {hearsUs : Bool} {verdict : Verdict} {nowMs : UInt32} {plan : RelayPlan}
    (h : (r.evaluateTxPlan result packet a hearsUs verdict nowMs).2 = some plan) :
    plan.frame.key = result.parsed.key ∧ result.parsed.fromNode ≠ r.nodeNum := by
  rcases evaluateTxPlan_cases r result packet a hearsUs verdict nowMs with ⟨n, heq⟩ |
    ⟨_, hf, _, ⟨_, _, _, _, heq⟩ | ⟨leg, heq⟩ | ⟨frame, v, hkey, _, heq⟩⟩ <;> rw [heq] at h
  · cases h
  · cases h
  · cases h
  · refine ⟨?_, hf⟩
    rw [← hkey]
    unfold Router.commitAndStore at h
    dsimp only at h
    split at h
    · cases h
      rfl
    · split at h
      · cases h
      · cases h
        rfl

end Evaluate

/-! ## One call -/

section Step

variable {r : Router}

theorem Wf.deferRelay (h : Wf r) {plan : RelayPlan} (hf : plan.frame.header.fromNode ≠ r.nodeNum)
    (radioId : UInt8) (nowMs : UInt32) : Wf (r.deferRelay plan radioId nowMs).1 :=
  h.storePending _ rfl hf

theorem Wf.receive (h : Wf r) (packet : InboundPacket) (a : Answers) (hearsUs : Bool)
    (verdict : Verdict) (nowMs : UInt32) : Wf (r.receive packet a hearsUs verdict nowMs).1 := by
  have hin := h.quiet (r.processInbound_quiet packet a nowMs)
  unfold Router.receive
  split
  · rename_i s heq
    rw [heq] at hin
    exact hin
  · rename_i s result heq
    rw [heq] at hin
    have hev := hin.evaluateTxPlan result packet a hearsUs verdict nowMs
    have hnode := (ArmsOnly.evaluateTxPlan (r := s) result packet a hearsUs verdict nowMs).node
    split
    · rename_i t heq'
      rw [heq'] at hev
      exact hev
    · rename_i t plan heq'
      have hplan := evaluateTxPlan_some (congrArg Prod.snd heq')
      rw [heq'] at hev hnode
      have hfrom : plan.frame.header.fromNode ≠ t.nodeNum := by
        have hk : plan.frame.header.fromNode = result.parsed.fromNode := congrArg Prod.fst hplan.1
        rw [hk, hnode]
        exact hplan.2
      have hdef := hev.deferRelay hfrom packet.radioId nowMs
      dsimp only
      split <;> exact hdef

theorem ArmsOnly.receive (packet : InboundPacket) (a : Answers) (hearsUs : Bool)
    (verdict : Verdict) (nowMs : UInt32) :
    ArmsOnly (Foreign r) r (r.receive packet a hearsUs verdict nowMs).1 := by
  have hin : ArmsOnly (Foreign r) r (r.processInbound packet a nowMs).1 :=
    .of_calms (r.processInbound_quiet packet a nowMs).toCalms
  unfold Router.receive
  split
  · rename_i s heq
    rw [heq] at hin
    exact hin
  · rename_i s result heq
    rw [heq] at hin
    have hev := (ArmsOnly.evaluateTxPlan (r := s) result packet a hearsUs verdict nowMs).mono
      fun _ => foreign_of_node hin.node
    split
    · rename_i t heq'
      rw [heq'] at hev
      exact hin.trans hev
    · rename_i t plan heq'
      rw [heq'] at hev
      dsimp only
      split <;> exact (hin.trans hev).trans (.storePending _)

/-- What `poll_ready_relay` releases was due in the table. -/
theorem longestDue_some {nowMs : UInt32} {ps qs : List PendingRelay} {best : Option (Nat × PendingRelay)}
    {i : Nat} {p : PendingRelay}
    (hbest : ∀ j q, best = some (j, q) → (qs ++ ps)[j]? = some q ∧ q.active = true)
    (h : Router.longestDue nowMs ps qs.length best = some (i, p)) :
    (qs ++ ps)[i]? = some p ∧ p.active = true := by
  induction ps generalizing qs best with
  | nil => exact hbest i p h
  | cons x ps ih =>
    have happ : qs ++ x :: ps = (qs ++ [x]) ++ ps := by simp
    have hlen : (qs ++ [x]).length = qs.length + 1 := by simp
    rw [happ] at hbest ⊢
    unfold Router.longestDue at h
    rw [← hlen] at h
    split at h
    · exact ih hbest h
    · rename_i hdue
      split at h
      · refine ih (fun j q hq => ?_) h
        cases hq
        refine ⟨by simp, ?_⟩
        cases hx : x.active
        · simp [hx] at hdue
        · rfl
      · exact ih hbest h

theorem longestDue_mem {s : Slots MAX_PENDING_RELAYS PendingRelay} {nowMs : UInt32} {i : Nat}
    {p : PendingRelay} (h : Router.longestDue nowMs s.cells 0 none = some (i, p)) :
    s.cells[i]? = some p ∧ p.active = true := by
  have := @longestDue_some nowMs s.cells [] none i p (fun j q hq => by cases hq) h
  simpa using this

theorem setInactive_kept {s : Slots MAX_PENDING_RELAYS PendingRelay} {i : Nat} {p : PendingRelay}
    (h : s.cells[i]? = some p) : InPlace PendingKept s (s.set i { p with active := false }) := by
  obtain ⟨hi, rfl⟩ := List.getElem?_eq_some_iff.mp h
  rw [InPlace, List.forall₂_iff_get]
  refine ⟨by simp [Slots.set], fun j hj hj' => ?_⟩
  simp only [Slots.set, List.get_eq_getElem, List.getElem_set]
  split
  · rename_i hij
    subst hij
    exact .off _
  · exact .refl _

/-- Dropping what is stale, and taking the released entry out. -/
theorem pollReadyRelay_cases (r : Router) (nowMs : UInt32) (admits : Frame → Bool)
    (q : FollowupAnswers) :
    r.pollReadyRelay nowMs admits q = (r.dropStale nowMs admits, none) ∨
    ∃ i p, (r.dropStale nowMs admits).pending.cells[i]? = some p ∧ p.active = true ∧
      ∃ upstream, r.pollReadyRelay nowMs admits q =
        (Router.armRelayedUnicastFollowup
          { r.dropStale nowMs admits with
            pending := (r.dropStale nowMs admits).pending.set i { p with active := false } }
          p.frame p.unicastFlags upstream q, some ⟨p.frame, 0⟩) := by
  unfold Router.pollReadyRelay
  dsimp only
  split
  · exact .inl rfl
  · rename_i i p hbest
    obtain ⟨hi, ha⟩ := longestDue_mem hbest
    exact .inr ⟨i, p, hi, ha, _, rfl⟩

/-- The state from which a released relay is followed up. -/
theorem takeOut_quiet {i : Nat} {p : PendingRelay} {nowMs : UInt32} {admits : Frame → Bool}
    (hi : (r.dropStale nowMs admits).pending.cells[i]? = some p) :
    Quiet r { r.dropStale nowMs admits with
      pending := (r.dropStale nowMs admits).pending.set i { p with active := false } } := by
  have h := r.dropStale_quiet nowMs admits
  exact { h with
    pending := InPlace.trans (R := PendingKept) PendingKept.trans h.pending (setInactive_kept hi) }

theorem Wf.pollReadyRelay (h : Wf r) (nowMs : UInt32) (admits : Frame → Bool)
    (q : FollowupAnswers) : Wf (r.pollReadyRelay nowMs admits q).1 := by
  rcases pollReadyRelay_cases r nowMs admits q with heq | ⟨i, p, hi, _, upstream, heq⟩ <;> rw [heq]
  · exact h.quiet (r.dropStale_quiet nowMs admits)
  · exact (h.quiet (takeOut_quiet hi)).armRelayedUnicastFollowup _ _ _ _

theorem ArmsOnly.pollReadyRelay (nowMs : UInt32) (admits : Frame → Bool) (q : FollowupAnswers) :
    ArmsOnly (Foreign r) r (r.pollReadyRelay nowMs admits q).1 := by
  rcases pollReadyRelay_cases r nowMs admits q with heq | ⟨i, p, hi, _, upstream, heq⟩ <;> rw [heq]
  · exact .of_calms (r.dropStale_quiet nowMs admits).toCalms
  · have hq := takeOut_quiet (r := r) hi
    exact (ArmsOnly.of_calms hq.toCalms).trans
      ((ArmsOnly.armRelayedUnicastFollowup _ _ _ _).mono fun _ => foreign_of_node hq.node)

theorem Wf.armLocalRetry (h : Wf r) (q : Router.LocalRequest) (frame : Frame) :
    Wf { r with pendingReliable := (r.armLocalRetry q frame).1 } := by
  unfold Router.armLocalRetry
  split
  · exact h.scheduleReliable rfl _ _ _ _ _
  · exact h

theorem ArmsOnly.armLocalRetry {new : Frame → Prop} (q : Router.LocalRequest) {frame : Frame}
    (hf : new frame) : ArmsOnly new r { r with pendingReliable := (r.armLocalRetry q frame).1 } := by
  unfold Router.armLocalRetry
  split
  · exact .scheduleReliable hf _ _ _ _ _
  · exact .of_calms (.refl r)

theorem Wf.sendLocal (h : Wf r) (q : Router.LocalRequest) (nowMs : UInt32) :
    Wf (r.sendLocal q nowMs).1 := by
  have h1 := h.quiet r.allocTxId_quiet
  unfold Router.sendLocal
  dsimp only
  split
  · exact h1
  · rename_i payload _
    split
    · exact h1
    · have h2 := h1.armLocalRetry q ⟨r.allocTxId.2.localHeader q r.allocTxId.1, payload⟩
      split
      · rename_i hto
        rw [Bool.and_eq_true] at hto
        exact h2.scheduleT1Broadcast (eq_of_beq hto.1) _ _ _ _
      · exact h2

/-- A packet of our own carries the id that was drawn for it. -/
theorem ArmsOnly.sendLocal (q : Router.LocalRequest) (nowMs : UInt32) :
    ArmsOnly (fun f => f.key = (r.nodeNum, r.allocTxId.1)) r (r.sendLocal q nowMs).1 := by
  have h1 : ArmsOnly (fun f => f.key = (r.nodeNum, r.allocTxId.1)) r r.allocTxId.2 :=
    .of_calms r.allocTxId_quiet.toCalms
  unfold Router.sendLocal
  dsimp only
  split
  · exact h1
  · rename_i payload _
    split
    · exact h1
    · have hkey : Frame.key ⟨r.allocTxId.2.localHeader q r.allocTxId.1, payload⟩ =
          (r.nodeNum, r.allocTxId.1) := rfl
      have h2 := h1.trans (.armLocalRetry q hkey)
      split
      · refine h2.trans (.scheduleT1Broadcast ?_ _ _ _ _)
        exact hkey
      · exact h2

theorem sendLocal_some {q : Router.LocalRequest} {nowMs : UInt32} {plan : RelayPlan}
    (h : (r.sendLocal q nowMs).2 = some plan) :
    plan.frame.key = (r.nodeNum, r.allocTxId.1) ∧ plan.frame.header.toNode = q.toNode := by
  unfold Router.sendLocal at h
  dsimp only at h
  split at h
  · cases h
  · split at h
    · cases h
    · split at h <;> cases h <;> exact ⟨rfl, rfl⟩

/-- A request that is refused has at most used up an id. -/
theorem sendLocal_none {q : Router.LocalRequest} {nowMs : UInt32}
    (h : (r.sendLocal q nowMs).2 = none) : Calms r (r.sendLocal q nowMs).1 := by
  unfold Router.sendLocal at h ⊢
  dsimp only at h ⊢
  split
  · exact r.allocTxId_quiet.toCalms
  · split
    · exact r.allocTxId_quiet.toCalms
    · rename_i hbody harm
      rw [hbody] at h
      dsimp only at h
      rw [if_neg harm] at h
      split at h <;> cases h

theorem pollAdminTx_some {frame : Frame} {delay : UInt32} {plan : RelayPlan}
    (h : (r.pollAdminTx frame delay).2 = some plan) : plan.frame = frame := by
  unfold Router.pollAdminTx at h
  dsimp only at h
  split at h
  · split at h <;> cases h
    rfl
  · cases h
    rfl

theorem pollAdminTx_none {frame : Frame} {delay : UInt32}
    (h : (r.pollAdminTx frame delay).2 = none) : Calms r (r.pollAdminTx frame delay).1 := by
  unfold Router.pollAdminTx at h ⊢
  split at h
  · rename_i hack
    rw [if_pos hack]
    dsimp only at h ⊢
    split at h
    · cases h
    · rename_i hfull
      rw [scheduleReliable_full (by simpa using hfull)]
      exact .refl r
  · cases h

theorem Wf.pollAdminTx (h : Wf r) {frame : Frame} (hf : frame.header.fromNode = r.nodeNum)
    (delay : UInt32) : Wf (r.pollAdminTx frame delay).1 := by
  unfold Router.pollAdminTx
  split
  · exact h.scheduleReliable (by rw [← hf]; rfl) _ _ _ _ _
  · exact h

theorem ArmsOnly.pollAdminTx (frame : Frame) (delay : UInt32) :
    ArmsOnly (· = frame) r (r.pollAdminTx frame delay).1 := by
  unfold Router.pollAdminTx
  split
  · refine .scheduleReliable ?_ _ _ _ _ _
    rfl
  · exact .of_calms (.refl r)

end Step

end Meshrustic.Routing
