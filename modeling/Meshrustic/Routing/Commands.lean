import Meshrustic.Admin.Codec
import Meshrustic.Routing.Runs

/-!
# Commands to us (`mesh-routing/src/router.rs:859-1180, 1356-1480, 4521-4540`)

An admin message or a text that arms the bootloader is carried out while its
packet is processed as new. A duplicate is not processed, but a repeated read
request is answered again. What is a duplicate is up to the packet history,
with one way around it: a copy with more hops left than any before replaces a
pending relay of the packet, and is processed as new for that. No packet to us
is relayed; but pending relays go by originator and id alone, and a frame with
these and another destination may have left one.

Results:
* `command_reopens`: a known packet is carried out again only that way.
* `command_once`: otherwise at most once, while the history remembers it.
* `replayed_command`: the way is open to who can repeat a frame.
-/
namespace Meshrustic.Routing

open Meshrustic.Admin (AdminPayload decodeAdminMessage Key)
open Meshrustic.RateLimit (NODENUM_BROADCAST SIGNAL_ROUTING_APP ROUTING_APP NODEINFO_APP
  TRACEROUTE_APP TEXT_MESSAGE_APP)

def ADMIN_APP : UInt32 := 6

/-- `b"ENTER DFU"` -/
def ENTER_DFU_TEXT : Bytes := [0x45, 0x4e, 0x54, 0x45, 0x52, 0x20, 0x44, 0x46, 0x55]

/-- mirrors crates/mesh-routing/src/enter_dfu.rs:7-9 -/
def isAsciiWs (b : UInt8) : Bool := b == 0x20 || b == 0x09 || b == 0x0a || b == 0x0d

/-- mirrors crates/mesh-routing/src/enter_dfu.rs:11-25 -/
def payloadIsEnterDfu (payload : Bytes) : Bool :=
  ((payload.dropWhile isAsciiWs).reverse.dropWhile isAsciiWs).reverse == ENTER_DFU_TEXT

/-- mirrors crates/mesh-routing/src/admin.rs:309-318 -/
def adminRequestIsIdempotentRead : AdminPayload → Bool
  | .getChannelRequest _ | .getOwnerRequest | .getConfigRequest _ | .getModuleConfigRequest _
  | .getDeviceMetadataRequest => true
  | _ => false

/-- What the decryption leaves of a payload: the inner bytes, the key of a
sender that used PKI, and whether that key is an administrator's. -/
structure Delivery where
  inner : Option Bytes
  remotePk : Option Key
  isAuthorized : Key → Bool

inductive Command where
  /-- `handle_admin` is called -/
  | admin (payload : Bytes)
  /-- the bootloader is armed -/
  | armDfu
  deriving DecidableEq, Repr

/-- All but the reads that may be repeated. -/
def Command.takesEffect : Command → Bool
  | .admin payload => !((decodeAdminMessage payload).any (adminRequestIsIdempotentRead ·.payload))
  | .armDfu => true

/-- mirrors crates/mesh-routing/src/router.rs:1426-1446 -/
def processAdminRx (d : Delivery) (payload : Bytes) : Option Command :=
  d.remotePk.map fun _ => .admin payload

/-- mirrors crates/mesh-routing/src/router.rs:1356-1385 -/
def maybeArmOtaDfu (parsed : ParsedPacket) (d : Delivery) (text : Bytes) : Option Command :=
  if d.remotePk.any d.isAuthorized &&
      isDirectPacket parsed.fromNode parsed.hopStart parsed.hopLimit parsed.relayNode &&
      payloadIsEnterDfu text then some .armDfu
  else none

namespace Router

variable (r : Router)

/-- mirrors crates/mesh-routing/src/router.rs:1145-1173 -/
def dispatch (parsed : ParsedPacket) (decoded : Option DecodedData) (d : Delivery) :
    Option Command :=
  match decoded, d.inner with
  | some data, some inner =>
    if data.portnum == SIGNAL_ROUTING_APP || data.portnum == NODEINFO_APP ||
        data.portnum == TRACEROUTE_APP then none
    else if data.portnum == ADMIN_APP && parsed.toNode == r.nodeNum then processAdminRx d inner
    else if data.portnum == TEXT_MESSAGE_APP && parsed.toNode == r.nodeNum then
      maybeArmOtaDfu parsed d inner
    else none
  | _, _ => none

/-- What a duplicate still does.
mirrors crates/mesh-routing/src/router.rs:4515-4540 -/
def dispatchDuplicate (parsed : ParsedPacket) (decoded : Option DecodedData) (d : Delivery) :
    Option Command :=
  if parsed.fromNode == r.nodeNum then none
  else if parsed.toNode == r.nodeNum && decoded.all (fun data => data.portnum != ROUTING_APP) &&
      isRepeatedReliableTx parsed decoded && parsed.wantAck then
    match decoded, d.inner with
    | some data, some payload =>
      if data.portnum == ADMIN_APP &&
          (decodeAdminMessage payload).any (adminRequestIsIdempotentRead ·.payload) then
        processAdminRx d payload
      else none
    | _, _ => none
  else none

/-- Whether a frame is processed as new.
mirrors crates/mesh-routing/src/router.rs:878-968 -/
def fallsThrough (seen : ObserveResult) (parsed : ParsedPacket) (nowMs : UInt32) : Bool :=
  match seen with
  | .upgraded => (r.tryHandleUpgradedPacket parsed).2
  | .duplicate => r.designatedRepeat parsed nowMs || r.originatorRetry parsed nowMs
  | .new => true

/-- The command that `process_inbound` carries out.
mirrors crates/mesh-routing/src/router.rs:859-1180 -/
def command (packet : InboundPacket) (a : Answers) (d : Delivery) (nowMs : UInt32) :
    Option Command :=
  if MAX_PACKET_PAYLOAD < packet.payload.length then none
  else
    let parsed := packet.header.parse
    let seen := r.history.observe parsed.fromNode parsed.id parsed.hopLimit
    if fallsThrough { r with history := seen.2 } seen.1 parsed nowMs then
      if a.rateLimited then none else r.dispatch parsed a.decoded d
    else r.dispatchDuplicate parsed a.decoded d

/-- A frame to us is an upgrade that replaces a pending relay. -/
def reopens (packet : InboundPacket) : Bool :=
  let parsed := packet.header.parse
  parsed.toNode == r.nodeNum &&
    (r.history.observe parsed.fromNode parsed.id parsed.hopLimit).1 == .upgraded &&
    r.graph.isRebroadcaster && parsed.hopLimit != 0 &&
    r.pending.any (lowerHop parsed.fromNode parsed.id parsed.hopLimit)

end Router

/-! ## One frame -/

section Frame

variable {r : Router} {packet : InboundPacket} {a : Answers} {d : Delivery} {nowMs : UInt32}
variable {parsed : ParsedPacket}

/-- The two ways on are those of `afterObserve`. -/
theorem afterObserve_fallsThrough (r : Router) (seen : ObserveResult) (parsed : ParsedPacket)
    (radioId : UInt8) (a : Answers) (nowMs : UInt32) :
    ∃ s : Router, r.afterObserve seen parsed radioId a nowMs =
      if r.fallsThrough seen parsed nowMs then s.acceptInbound parsed a nowMs
      else s.rejectDuplicate parsed radioId a nowMs := by
  cases seen with
  | upgraded => exact ⟨(r.tryHandleUpgradedPacket parsed).1, rfl⟩
  | duplicate =>
    cases hd : r.designatedRepeat parsed nowMs || r.originatorRetry parsed nowMs with
    | true => exact ⟨r.dropForReplan parsed, by simp [Router.afterObserve, Router.fallsThrough, hd]⟩
    | false => exact ⟨r, by simp [Router.afterObserve, Router.fallsThrough, hd]⟩
  | new => exact ⟨r, rfl⟩

theorem dispatch_toUs {decoded : Option DecodedData} {c : Command}
    (h : r.dispatch parsed decoded d = some c) : parsed.toNode = r.nodeNum := by
  unfold Router.dispatch at h
  split at h
  · split at h
    · cases h
    · split at h
      · rename_i hto
        simp only [Bool.and_eq_true, beq_iff_eq] at hto
        exact hto.2
      · split at h
        · rename_i hto
          simp only [Bool.and_eq_true, beq_iff_eq] at hto
          exact hto.2
        · cases h
  · cases h

/-- A duplicate repeats reads only. -/
theorem dispatchDuplicate_read {decoded : Option DecodedData} {c : Command}
    (h : r.dispatchDuplicate parsed decoded d = some c) : c.takesEffect = false := by
  unfold Router.dispatchDuplicate at h
  split at h
  · cases h
  · split at h
    · split at h
      · split at h
        · rename_i hread
          obtain ⟨_, _, rfl⟩ := Option.map_eq_some_iff.mp h
          rw [Bool.and_eq_true] at hread
          simp only [Command.takesEffect, hread.2, Bool.not_true]
        · cases h
      · cases h
    · cases h

theorem fallsThrough_duplicate {nowMs : UInt32} (hto : parsed.toNode = r.nodeNum) :
    r.fallsThrough .duplicate parsed nowMs = false := by
  simp [Router.fallsThrough, Router.designatedRepeat, Router.originatorRetry, hto]

theorem tryHandleUpgradedPacket_true (h : (r.tryHandleUpgradedPacket parsed).2 = true) :
    r.graph.isRebroadcaster = true ∧ parsed.hopLimit ≠ 0 ∧
      r.pending.any (Router.lowerHop parsed.fromNode parsed.id parsed.hopLimit) = true := by
  unfold Router.tryHandleUpgradedPacket at h
  split at h
  · cases h
  · rename_i hmay
    simp only [Bool.or_eq_true, Bool.not_eq_true', beq_iff_eq, not_or, Bool.not_eq_false] at hmay
    refine ⟨hmay.1, hmay.2, ?_⟩
    dsimp only at h
    split at h
    · assumption
    · exact h

/-- A known packet is carried out again only if it replaces a pending relay. -/
theorem command_reopens {c : Command} (h : r.command packet a d nowMs = some c)
    (hc : c.takesEffect = true)
    (hknown : r.history.knows packet.header.fromNode packet.header.id = true) :
    r.reopens packet = true := by
  unfold Router.command at h
  split at h
  · cases h
  dsimp only at h
  split at h
  · rename_i hfalls
    split at h
    · cases h
    · have hto := dispatch_toUs h
      have hnew := (r.history.observe_new_iff packet.header.fromNode packet.header.id
        packet.header.hopLimit).not.mpr (by simp [hknown])
      unfold Router.reopens
      cases hseen : (r.history.observe packet.header.parse.fromNode packet.header.parse.id
          packet.header.parse.hopLimit).1 with
      | new => exact absurd hseen hnew
      | duplicate =>
        rw [hseen] at hfalls
        exact absurd (hfalls.symm.trans (fallsThrough_duplicate hto)) Bool.noConfusion
      | upgraded =>
        rw [hseen] at hfalls
        obtain ⟨hreb, hhop, hany⟩ := tryHandleUpgradedPacket_true hfalls
        dsimp only
        rw [hseen, hto, Bool.and_eq_true, Bool.and_eq_true, Bool.and_eq_true, bne_iff_ne]
        exact ⟨⟨⟨by simp, hreb⟩, hhop⟩, hany⟩
  · rw [dispatchDuplicate_read h] at hc
    exact absurd hc Bool.false_ne_true

end Frame

/-! ## Where a pending relay comes from -/

section Unpended

variable {r s : Router} {f i : UInt32}

theorem unpended_of_calms (h : Calms r s) (hr : r.hasPendingRelay f i = false) :
    s.hasPendingRelay f i = false := by
  simp only [Router.hasPendingRelay, Slots.any_eq_false] at hr ⊢
  intro y hy
  obtain ⟨x, hx, hkept⟩ := h.pending.origin hy
  have hoff := hr x hx
  rw [Bool.eq_false_iff, Ne, PendingRelay.serves_iff] at hoff ⊢
  exact fun hy => hoff ⟨hkept.active hy.1, hkept.key.symm.trans hy.2⟩

theorem unpended_of_eq (h : s.pending = r.pending) (hr : r.hasPendingRelay f i = false) :
    s.hasPendingRelay f i = false := by
  rw [Router.hasPendingRelay, h]
  exact hr

theorem unpended_storePending {p : PendingRelay} (hp : p.key ≠ (f, i))
    (hr : r.hasPendingRelay f i = false) : (r.storePending p).1.hasPendingRelay f i = false := by
  have hnew : p.serves f i = false := by
    rw [Bool.eq_false_iff, Ne, PendingRelay.serves_iff]
    exact fun h => hp h.2
  simp only [Router.hasPendingRelay, Slots.any_eq_false] at hr ⊢
  unfold Router.storePending
  split
  · rcases Slots.changeFirst_split (PendingRelay.serves p.fromNode p.id) (fun _ => p) r.pending
      with ⟨heq, _⟩ | ⟨l, x, t, hs, _, _, ht⟩
    · dsimp only
      rw [heq]
      exact hr
    · intro y hy
      rw [Slots.mem_def, ht, List.mem_append, List.mem_cons] at hy
      rcases hy with hy | rfl | hy
      · exact hr y (by simp [Slots.mem_def, hs, hy])
      · exact hnew
      · exact hr y (by simp [Slots.mem_def, hs, hy])
  · split
    · rename_i pending hplace
      intro y hy
      rcases Slots.mem_of_place hplace hy with rfl | hy
      · exact hnew
      · exact hr y hy
    · exact hr

theorem armRelayedUnicastFollowup_pending (frame : Frame) (flags : UnicastSlotFlags)
    (upstream : UInt32) (q : FollowupAnswers) :
    (r.armRelayedUnicastFollowup frame flags upstream q).pending = r.pending := by
  rcases r.armRelayedUnicastFollowup_cases frame flags upstream q with heq | ⟨_, _, _, _, heq⟩
  · rw [heq]
  · rw [heq, Router.armFollowup]

theorem handBack_pending (parsed : ParsedPacket) (snr : Int) (nowMs : UInt32) (frame : Frame)
    (v : RelayVerdict) : (r.handBack parsed snr nowMs frame v).1.pending = r.pending := by
  unfold Router.handBack
  dsimp only
  split <;> exact armRelayedUnicastFollowup_pending _ _ _ _

theorem scheduleT1Broadcast_pending (frame : Frame) (portnum relay : Option UInt32)
    (nowMs delay : UInt32) :
    (r.scheduleT1Broadcast frame portnum relay nowMs delay).pending = r.pending := by
  rcases r.scheduleT1Broadcast_cases frame portnum relay nowMs delay with heq | ⟨-, _, -, heq⟩ <;>
    rw [heq]

theorem unpended_commitAndStore {parsed : ParsedPacket} (hkey : parsed.key ≠ (f, i))
    (radioId : UInt8) (snr : Int) (nowMs : UInt32) (frame : Frame) (v : RelayVerdict)
    (hr : r.hasPendingRelay f i = false) :
    (r.commitAndStore parsed radioId snr nowMs frame v).1.hasPendingRelay f i = false := by
  have hc : (r.commitPlan parsed radioId snr nowMs v).1.hasPendingRelay f i = false := hr
  unfold Router.commitAndStore
  dsimp only
  split
  · exact unpended_of_eq (handBack_pending _ _ _ _ _) hc
  · have hs := unpended_storePending (p := ⟨true, parsed.fromNode, parsed.id, radioId,
      (r.commitPlan parsed radioId snr nowMs v).2, frame, v.flags⟩) hkey hc
    split
    · exact hs
    · exact unpended_of_eq (handBack_pending _ _ _ _ _) hs

/-- A packet to us is not planned. -/
theorem evaluateTxPlan_toUs {result : ProcessResult} (hto : result.parsed.toNode = r.nodeNum)
    (packet : InboundPacket) (a : Answers) (hearsUs : Bool) (verdict : Verdict) (nowMs : UInt32) :
    r.evaluateTxPlan result packet a hearsUs verdict nowMs = (r, none) := by
  unfold Router.evaluateTxPlan
  dsimp only
  split
  · rfl
  split
  · rfl
  rw [if_pos (by simp [wireMayRelay, hto])]

theorem acceptInbound_parsed {parsed : ParsedPacket} {a : Answers} {nowMs : UInt32}
    {result : ProcessResult} (h : (r.acceptInbound parsed a nowMs).2 = some result) :
    result.parsed = parsed := by
  unfold Router.acceptInbound at h
  dsimp only at h
  split at h
  · cases h
    rfl
  · split at h
    · cases h
      rfl
    · cases h

theorem processInbound_parsed {packet : InboundPacket} {a : Answers} {nowMs : UInt32}
    {result : ProcessResult} (h : (r.processInbound packet a nowMs).2 = some result) :
    result.parsed = packet.header.parse := by
  unfold Router.processInbound at h
  split at h
  · cases h
  · dsimp only at h
    obtain ⟨s, heq⟩ := afterObserve_fallsThrough { r with history := (r.history.observe
      packet.header.parse.fromNode packet.header.parse.id packet.header.parse.hopLimit).2 }
      (r.history.observe packet.header.parse.fromNode packet.header.parse.id
        packet.header.parse.hopLimit).1 packet.header.parse packet.radioId a nowMs
    rw [heq] at h
    split at h
    · exact acceptInbound_parsed h
    · cases h
      rfl

theorem unpended_evaluateTxPlan {result : ProcessResult} (hkey : result.parsed.key ≠ (f, i))
    (packet : InboundPacket) (a : Answers) (hearsUs : Bool) (verdict : Verdict) (nowMs : UInt32)
    (hr : r.hasPendingRelay f i = false) :
    (r.evaluateTxPlan result packet a hearsUs verdict nowMs).1.hasPendingRelay f i = false := by
  rcases evaluateTxPlan_cases r result packet a hearsUs verdict nowMs with ⟨n, heq⟩ |
    ⟨_, _, _, ⟨_, _, _, _, heq⟩ | ⟨leg, heq⟩ | ⟨frame, v, _, _, heq⟩⟩ <;> rw [heq]
  · exact unpended_of_calms (r.drawTxIds_quiet n).toCalms hr
  · refine unpended_of_eq ?_ hr
    unfold Router.armT1ForDeferredBroadcast
    split
    · rfl
    · split
      · rfl
      · exact scheduleT1Broadcast_pending _ _ _ _ _
  · exact hr
  · exact unpended_commitAndStore hkey _ _ _ _ _ hr

/-- Reception makes a relay of the packet pending only if it is for another node. -/
theorem unpended_receive {packet : InboundPacket}
    (hp : (packet.header.fromNode, packet.header.id) = (f, i) → packet.header.toNode = r.nodeNum)
    (a : Answers) (hearsUs : Bool) (verdict : Verdict) (nowMs : UInt32)
    (hr : r.hasPendingRelay f i = false) :
    (r.receive packet a hearsUs verdict nowMs).1.hasPendingRelay f i = false := by
  have hq := r.processInbound_quiet packet a nowMs
  have hin := unpended_of_calms hq.toCalms hr
  unfold Router.receive
  split
  · rename_i s heq
    rw [heq] at hin
    exact hin
  · rename_i s result heq
    have hparsed := processInbound_parsed (congrArg Prod.snd heq)
    rw [heq] at hin hq
    by_cases hkey : (packet.header.fromNode, packet.header.id) = (f, i)
    · have hto : result.parsed.toNode = s.nodeNum := by
        rw [hparsed, hq.node]
        exact hp hkey
      rw [evaluateTxPlan_toUs hto]
      exact hin
    · have hpk : result.parsed.key ≠ (f, i) := by
        rw [hparsed]
        exact hkey
      have hev := unpended_evaluateTxPlan hpk packet a hearsUs verdict nowMs hin
      split
      · rename_i t heq'
        rw [heq'] at hev
        exact hev
      · rename_i t plan heq'
        have hplan := (evaluateTxPlan_some (congrArg Prod.snd heq')).1
        rw [heq'] at hev
        have hdef : (t.deferRelay plan packet.radioId nowMs).1.hasPendingRelay f i = false :=
          unpended_storePending (by rw [← hplan] at hpk; exact hpk) hev
        dsimp only
        split <;> exact hdef

/-- So does any call. -/
theorem unpended_step {e : Event}
    (he : ∀ packet a h v n, e = .receive packet a h v n →
      (packet.header.fromNode, packet.header.id) = (f, i) → packet.header.toNode = r.nodeNum)
    (hr : r.hasPendingRelay f i = false) : (r.step e).1.hasPendingRelay f i = false := by
  cases e with
  | receive packet a h v n => exact unpended_receive (he packet a h v n rfl) a h v n hr
  | sendLocal q n =>
    refine unpended_of_eq ?_ hr
    change (r.sendLocal q n).1.pending = r.pending
    unfold Router.sendLocal
    dsimp only
    split
    · rfl
    · split
      · rfl
      · split
        · exact scheduleT1Broadcast_pending _ _ _ _ _
        · rfl
  | pollAdminTx frame d =>
    refine unpended_of_eq ?_ hr
    change (r.pollAdminTx frame d).1.pending = r.pending
    unfold Router.pollAdminTx
    split <;> rfl
  | pollReadyRelay n admits q =>
    change (r.pollReadyRelay n admits q).1.hasPendingRelay f i = false
    rcases pollReadyRelay_cases r n admits q with heq | ⟨j, p, hj, _, upstream, heq⟩ <;> rw [heq]
    · exact unpended_of_calms (r.dropStale_quiet n admits).toCalms hr
    · refine unpended_of_eq (armRelayedUnicastFollowup_pending _ _ _ _) ?_
      exact unpended_of_calms (takeOut_quiet (r := r) hj).toCalms hr
  | _ => exact unpended_of_calms (r.step_calms _ (by simp) (by simp) (by simp) (by simp)) hr

theorem reopens_of_unpended {packet : InboundPacket}
    (hr : r.hasPendingRelay packet.header.fromNode packet.header.id = false) :
    r.reopens packet = false := by
  rw [Bool.eq_false_iff]
  intro h
  simp only [Router.reopens, Bool.and_eq_true] at h
  obtain ⟨p, hp, hlow⟩ := Slots.any_eq_true.mp h.2
  rw [Router.lowerHop, Bool.and_eq_true] at hlow
  rw [Router.hasPendingRelay, Slots.any_eq_false] at hr
  exact absurd (hr p hp) (by simpa using hlow.1)

end Unpended

/-! ## Runs -/

/-- A call on the router, what the decryption makes of a received payload, the
command that is carried out, and two facts about the state before. -/
structure Turn where
  event : Event
  delivery : Delivery
  command : Option Command
  /-- the history records a new packet -/
  recorded : Bool
  reopens : Bool

/-- The packet of a received frame. -/
def Event.packetKey : Event → Option PacketKey
  | .receive packet _ _ _ _ => some (packet.header.fromNode, packet.header.id)
  | _ => none

/-- The call carries out a command of the packet. -/
def Turn.carriesOut (k : PacketKey) (t : Turn) : Bool :=
  t.event.packetKey == some k && t.command.any Command.takesEffect

namespace Router

def commandOf (r : Router) (d : Delivery) : Event → Option Command
  | .receive packet a _ _ nowMs => r.command packet a d nowMs
  | _ => none

def recordedBy (r : Router) : Event → Bool
  | .receive packet _ _ _ _ =>
    packet.payload.length ≤ MAX_PACKET_PAYLOAD &&
      r.history.records packet.header.fromNode packet.header.id
  | _ => false

def reopenedBy (r : Router) : Event → Bool
  | .receive packet _ _ _ _ => r.reopens packet
  | _ => false

end Router

def commandLTS : LTS Router Turn where
  init r := ∃ node role window seed, r = .new node role window seed
  step r t r' := r.Possible t.event ∧ (r.step t.event).1 = r' ∧
    t.command = r.commandOf t.delivery t.event ∧ t.recorded = r.recordedBy t.event ∧
    t.reopens = r.reopenedBy t.event

section Turns

variable {r r' : Router} {t : Turn} {ts : List Turn} {f i : UInt32} {age : Nat}

/-- The history over one call. -/
theorem step_holds (hh : r.history.Holds f i age) (e : Event)
    (hage : age + (r.recordedBy e).toNat < HISTORY_SIZE) :
    (r.step e).1.history.Holds f i (age + (r.recordedBy e).toNat) := by
  cases e with
  | receive packet a hearsUs verdict nowMs =>
    change ((r.receive packet a hearsUs verdict nowMs).1.history).Holds f i _
    rw [receive_history, Router.processInbound_history]
    simp only [Router.recordedBy] at hage ⊢
    split
    · rename_i hlong
      have hshort : ¬ packet.payload.length ≤ MAX_PACKET_PAYLOAD := by omega
      simpa [hshort] using hh
    · rename_i hshort
      have hle : packet.payload.length ≤ MAX_PACKET_PAYLOAD := by omega
      simp only [hle, decide_true, Bool.true_and] at hage ⊢
      exact hh.observe _ _ _ hage
  | _ =>
    rw [step_history (by simp)]
    simpa [Router.recordedBy] using hh

theorem recorded_holds (hf : f ≠ 0) {e : Event} (hkey : e.packetKey = some (f, i))
    (hrec : r.recordedBy e = true) : (r.step e).1.history.Holds f i 0 := by
  cases e with
  | receive packet a hearsUs verdict nowMs =>
    change ((r.receive packet a hearsUs verdict nowMs).1.history).Holds f i 0
    simp only [Event.packetKey, Option.some.injEq, Prod.mk.injEq] at hkey
    obtain ⟨rfl, rfl⟩ := hkey
    simp only [Router.recordedBy, Bool.and_eq_true, decide_eq_true_eq] at hrec
    rw [receive_history, Router.processInbound_history, if_neg (by omega)]
    exact .of_records hrec.2 hf _
  | _ => cases hkey

theorem recordedBy_of_knows {e : Event} (hkey : e.packetKey = some (f, i))
    (hknown : r.history.knows f i = true) : r.recordedBy e = false := by
  cases e with
  | receive packet a hearsUs verdict nowMs =>
    simp only [Event.packetKey, Option.some.injEq, Prod.mk.injEq] at hkey
    obtain ⟨rfl, rfl⟩ := hkey
    have hid : packet.header.id ≠ 0 := by
      intro hzero
      simp [PacketHistory.knows, hzero] at hknown
    simp [Router.recordedBy, PacketHistory.records_eq_not_knows _ _ hid, hknown]
  | _ => rfl

/-- A command takes effect only when its packet is recorded or a relay is replaced. -/
theorem commandOf_cases (hi : i ≠ 0) {e : Event} {d : Delivery} {c : Command}
    (hkey : e.packetKey = some (f, i)) (h : r.commandOf d e = some c)
    (hc : c.takesEffect = true) : r.recordedBy e = true ∨ r.reopenedBy e = true := by
  cases e with
  | receive packet a hearsUs verdict nowMs =>
    simp only [Event.packetKey, Option.some.injEq, Prod.mk.injEq] at hkey
    obtain ⟨rfl, rfl⟩ := hkey
    simp only [Router.commandOf] at h
    cases hknown : r.history.knows packet.header.fromNode packet.header.id with
    | true => exact .inr (command_reopens h hc hknown)
    | false =>
      left
      have hlen : packet.payload.length ≤ MAX_PACKET_PAYLOAD := by
        rcases Nat.lt_or_ge MAX_PACKET_PAYLOAD packet.payload.length with hlong | hle
        · simp [Router.command, hlong] at h
        · exact hle
      simp [Router.recordedBy, hlen, PacketHistory.records_eq_not_knows _ _ hi, hknown]
  | _ => cases hkey

theorem carriesOut_cases (hi : i ≠ 0) (hstep : commandLTS.step r t r')
    (hout : t.carriesOut (f, i) = true) :
    t.event.packetKey = some (f, i) ∧ (t.recorded = true ∨ t.reopens = true) := by
  obtain ⟨_, _, hcommand, hrec, hreopen⟩ := hstep
  simp only [Turn.carriesOut, Bool.and_eq_true, beq_iff_eq, Option.any_eq_true] at hout
  obtain ⟨hkey, c, hc, htakes⟩ := hout
  rw [hcommand] at hc
  rw [hrec, hreopen]
  exact ⟨hkey, commandOf_cases hi hkey hc htakes⟩

theorem countP_recorded (t : Turn) (ts : List Turn) :
    (t :: ts).countP (·.recorded) = ts.countP (·.recorded) + t.recorded.toNat := by
  cases ht : t.recorded <;> simp [ht]

/-- While the history holds the packet, nothing of it is carried out. -/
theorem run_held (hi : i ≠ 0) (hrun : commandLTS.Run r ts r')
    (hh : r.history.Holds f i age) (hage : age + ts.countP (·.recorded) < HISTORY_SIZE)
    (hre : ∀ t ∈ ts, t.event.packetKey = some (f, i) → t.reopens = false) :
    ts.countP (Turn.carriesOut (f, i)) = 0 := by
  induction hrun generalizing age with
  | nil _ => rfl
  | @cons r s u t ts hstep _ ih =>
    have hrec : t.recorded = r.recordedBy t.event := hstep.2.2.2.1
    have hcount := countP_recorded t ts
    have hs : s.history.Holds f i (age + t.recorded.toNat) := by
      rw [← hstep.2.1, hrec]
      exact step_holds hh t.event (by rw [← hrec]; omega)
    rw [List.countP_cons, ih hs (by omega) fun t' ht' => hre t' (List.mem_cons_of_mem _ ht')]
    have hout : t.carriesOut (f, i) = false := by
      rw [Bool.eq_false_iff]
      intro hout
      obtain ⟨hkey, hor⟩ := carriesOut_cases hi hstep hout
      rcases hor with hrecorded | hreopens
      · rw [hrec, recordedBy_of_knows hkey (hh.knows hi)] at hrecorded
        exact absurd hrecorded Bool.false_ne_true
      · exact absurd (hre t List.mem_cons_self hkey) (by simp [hreopens])
    simp [hout]

/-- What is carried out is recorded then, and nothing of it follows. -/
theorem run_after (hf : f ≠ 0) (hi : i ≠ 0) {s : Router} (hstep : commandLTS.step r t s)
    (hrest : commandLTS.Run s ts r') (hnew : ts.countP (·.recorded) < HISTORY_SIZE)
    (hre : ∀ t' ∈ t :: ts, t'.event.packetKey = some (f, i) → t'.reopens = false)
    (hout : t.carriesOut (f, i) = true) : ts.countP (Turn.carriesOut (f, i)) = 0 := by
  obtain ⟨hkey, hor⟩ := carriesOut_cases hi hstep hout
  have hrecorded : t.recorded = true := by
    rcases hor with h | h
    · exact h
    · exact absurd (hre t List.mem_cons_self hkey) (by simp [h])
  have hs : s.history.Holds f i 0 := by
    rw [← hstep.2.1]
    exact recorded_holds hf hkey (hstep.2.2.2.1.symm.trans hrecorded)
  exact run_held hi hrest hs (by omega) fun t' ht' => hre t' (List.mem_cons_of_mem _ ht')

theorem run_once (hf : f ≠ 0) (hi : i ≠ 0) (hrun : commandLTS.Run r ts r')
    (hnew : ts.tail.countP (·.recorded) < HISTORY_SIZE)
    (hre : ∀ t ∈ ts, t.event.packetKey = some (f, i) → t.reopens = false) :
    ts.countP (Turn.carriesOut (f, i)) ≤ 1 := by
  induction hrun with
  | nil _ => exact Nat.zero_le _
  | @cons r s u t ts hstep hrest ih =>
    rw [List.tail_cons] at hnew
    cases hout : t.carriesOut (f, i) with
    | false =>
      rw [List.countP_cons_of_neg (by simp [hout])]
      have htail := (List.tail_sublist ts).countP_le (p := (·.recorded))
      exact ih (by omega) fun t' ht' => hre t' (List.mem_cons_of_mem _ ht')
    | true =>
      have hnone := run_after hf hi hstep hrest hnew hre hout
      rw [List.countP_cons_of_pos hout]
      omega

end Turns

/-- Frames of the packet, in a run where each is addressed to us, replace no relay. -/
theorem run_unpended {f i : UInt32} {r r' : Router} {ts : List Turn}
    (hrun : commandLTS.Run r ts r') (hr : r.hasPendingRelay f i = false)
    (hto : ∀ t ∈ ts, ∀ packet a h v n, t.event = .receive packet a h v n →
      (packet.header.fromNode, packet.header.id) = (f, i) → packet.header.toNode = r.nodeNum) :
    ∀ t ∈ ts, t.event.packetKey = some (f, i) → t.reopens = false := by
  induction hrun with
  | nil _ => exact fun t ht => absurd ht List.not_mem_nil
  | @cons r s u t ts hstep _ ih =>
    have hs : s.hasPendingRelay f i = false := by
      rw [← hstep.2.1]
      exact unpended_step (hto t List.mem_cons_self) hr
    have hnode : s.nodeNum = r.nodeNum := by
      rw [← hstep.2.1]
      exact (step_arms r t.event).node
    refine List.forall_mem_cons.mpr ⟨fun hkey => ?_, ih hs fun t' ht' => ?_⟩
    · rw [hstep.2.2.2.2]
      cases he : t.event with
      | receive packet a h v n =>
        rw [he] at hkey
        simp only [Event.packetKey, Option.some.injEq, Prod.mk.injEq] at hkey
        obtain ⟨rfl, rfl⟩ := hkey
        exact reopens_of_unpended hr
      | _ => rfl
    · rw [hnode]
      exact hto t' (List.mem_cons_of_mem _ ht')

/-- From the first reception of a packet to us, `t`: if no copy to us replaces
a pending relay, and fewer than 64 packets are recorded after it, at most one
of its commands takes effect. -/
theorem command_once {f i : UInt32} (hf : f ≠ 0) (hi : i ≠ 0) {r r' : Router} {t : Turn}
    {ts : List Turn} (hrun : commandLTS.Run r (t :: ts) r')
    (hnew : ts.countP (·.recorded) < HISTORY_SIZE)
    (hre : ∀ t' ∈ t :: ts, t'.event.packetKey = some (f, i) → t'.reopens = false) :
    (t :: ts).countP (Turn.carriesOut (f, i)) ≤ 1 :=
  run_once hf hi hrun hnew hre

/-- So it is where every frame of the packet is addressed to us. -/
theorem command_once_addressed {f i : UInt32} (hf : f ≠ 0) (hi : i ≠ 0) {r r' : Router} {t : Turn}
    {ts : List Turn} (hrun : commandLTS.Run r (t :: ts) r') (hr : r.hasPendingRelay f i = false)
    (hto : ∀ t' ∈ t :: ts, ∀ packet a h v n, t'.event = .receive packet a h v n →
      (packet.header.fromNode, packet.header.id) = (f, i) → packet.header.toNode = r.nodeNum)
    (hnew : ts.countP (·.recorded) < HISTORY_SIZE) :
    (t :: ts).countP (Turn.carriesOut (f, i)) ≤ 1 :=
  run_once hf hi hrun hnew (run_unpended hrun hr hto)

/-! ## A replayed command -/

def Router.turn (r : Router) (e : Event) (d : Delivery) : Turn :=
  ⟨e, d, r.commandOf d e, r.recordedBy e, r.reopenedBy e⟩

/-- A reboot request from an administrator. -/
def rebootDelivery : Delivery := ⟨some [0x88, 0x06, 0x05], some (Vector.replicate 32 1), fun _ => true⟩

def noDelivery : Delivery := ⟨none, none, fun _ => false⟩

/-- Node 7 sends packet 9 to us, node 5. -/
def rebootFrame (hopLimit : UInt8) : InboundPacket :=
  ⟨⟨5, 7, 9, 0, hopLimit, hopLimit, false, false, 0, 7⟩, [1, 2, 3], 0, 5⟩

/-- The same payload, from somebody who changed the destination and named us as next hop. -/
def divertedFrame : InboundPacket :=
  ⟨⟨99, 7, 9, 0, 3, 3, false, false, 5, 7⟩, [1, 2, 3], 0, 5⟩

def rebootHeard (hopLimit : UInt8) (nowMs : UInt32) : Event :=
  .receive (rebootFrame hopLimit) ⟨some ⟨ADMIN_APP, 0, 0, false⟩, false, true, 7, 7, false, false, 0⟩
    true (.skip 0) nowMs

def divertedHeard (nowMs : UInt32) : Event :=
  .receive divertedFrame ⟨none, false, true, 7, 7, false, false, 0⟩ true
    (.relay ⟨0, false, [1, 2, 3], 7, 400, .empty, ⟨false, 0, fun _ => 0, fun _ => 0⟩, none⟩) nowMs

def startedNode : Router := .new 5 0 88397 1

def rebootTurns : List Turn :=
  let s := (startedNode.step (rebootHeard 3 100)).1
  let t := (s.step (divertedHeard 200)).1
  [startedNode.turn (rebootHeard 3 100) rebootDelivery, s.turn (divertedHeard 200) noDelivery,
    t.turn (rebootHeard 5 300) rebootDelivery]

/-- The request is carried out twice, with nothing else recorded in between. -/
theorem replayed_command :
    (∃ r', commandLTS.Run startedNode rebootTurns r') ∧
      rebootTurns.tail.countP (·.recorded) = 0 ∧
      rebootTurns.countP (Turn.carriesOut (7, 9)) = 2 :=
  ⟨⟨_, .cons ⟨trivial, rfl, rfl, rfl, rfl⟩ (.cons ⟨trivial, rfl, rfl, rfl, rfl⟩
    (.cons ⟨trivial, rfl, rfl, rfl, rfl⟩ (.nil _)))⟩, by decide +kernel, by decide +kernel⟩

def repeatedTurns : List Turn :=
  let s := (startedNode.step (rebootHeard 3 100)).1
  [startedNode.turn (rebootHeard 3 100) rebootDelivery, s.turn (rebootHeard 5 300) rebootDelivery]

/-- Without the diverted copy, an upgrade is a duplicate. -/
theorem repeated_command :
    repeatedTurns.countP (Turn.carriesOut (7, 9)) = 1 ∧
      repeatedTurns.countP (Turn.carriesOut (7, 9)) ≤ 1 := by
  refine ⟨by decide +kernel, ?_⟩
  have hrun : commandLTS.Run startedNode repeatedTurns
      ((startedNode.step (rebootHeard 3 100)).1.step (rebootHeard 5 300)).1 :=
    .cons ⟨trivial, rfl, rfl, rfl, rfl⟩ (.cons ⟨trivial, rfl, rfl, rfl, rfl⟩ (.nil _))
  exact command_once (by decide) (by decide) hrun (by decide +kernel) (by decide +kernel)

end Meshrustic.Routing
