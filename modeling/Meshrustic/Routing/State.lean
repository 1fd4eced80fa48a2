import Meshrustic.Routing.History
import Meshrustic.Routing.Ledger
import Meshrustic.Routing.Reliable

/-!
# The router's packet bookkeeping (`mesh-routing/src/router.rs`)

A frame of ours is in one of three tables before the radio has it: the
pending relays, the T1 insurance of broadcasts, the reliable retries. Frames
already handed over are called back through `tx_cancels`, a list of eight
that the radio loop empties.

What the router only consults (the neighbour graph beyond its ledger, the
rate limiter, the decryption, the contention clock) is not part of the state:
its answers are arguments. `sr_log` is left out.
-/
namespace Meshrustic.Routing

open Meshrustic.RateLimit (NODENUM_BROADCAST SIGNAL_ROUTING_APP)

def MAX_PENDING_RELAYS : Nat := 8
def MAX_PENDING_RETRANSMITS : Nat := 4
def MAX_TX_CANCELS : Nat := 8
def NUM_RELIABLE_RETX : Nat := 3
def LAST_HOP_BUDGET : UInt8 := 1

/-- mirrors crates/mesh-routing/src/router.rs:119-129 -/
structure PendingRelay where
  active : Bool
  fromNode : UInt32
  id : UInt32
  radioId : UInt8
  txAfterMs : UInt32
  frame : Frame
  unicastFlags : UnicastSlotFlags
  deriving DecidableEq, Repr

/-- mirrors crates/mesh-routing/src/router.rs:144-156 -/
structure PendingRetransmit where
  active : Bool
  canceled : Bool
  fired : Bool
  fromNode : UInt32
  resolvedRelay : Option UInt32
  packetId : UInt32
  fireAfterMs : UInt32
  decodedPortnum : Option UInt32
  frame : Frame
  deriving DecidableEq, Repr

def emptyFrame : Frame := ⟨⟨0, 0, 0, 0, 0, 0, false, false, 0, 0⟩, []⟩

namespace PendingRelay

def key (p : PendingRelay) : PacketKey := (p.fromNode, p.id)

def serves (fromNode id : UInt32) (p : PendingRelay) : Bool :=
  p.active && p.fromNode == fromNode && p.id == id

theorem serves_iff {fromNode id : UInt32} {p : PendingRelay} :
    p.serves fromNode id = true ↔ p.active = true ∧ p.key = (fromNode, id) := by
  simp [serves, key, and_assoc]

def inactive : PendingRelay := ⟨false, 0, 0, 0, 0, emptyFrame, .empty⟩

end PendingRelay

namespace PendingRetransmit

def key (s : PendingRetransmit) : PacketKey := (s.fromNode, s.packetId)

def named (fromNode packetId : UInt32) (s : PendingRetransmit) : Bool :=
  s.fromNode == fromNode && s.packetId == packetId

theorem named_iff {fromNode packetId : UInt32} {s : PendingRetransmit} :
    s.named fromNode packetId = true ↔ s.key = (fromNode, packetId) := by
  simp [named, key]

/-- Armed: it will fire unless something stops it. -/
def live (s : PendingRetransmit) : Bool := s.active && !s.canceled

def inactive : PendingRetransmit :=
  ⟨false, false, false, 0, none, 0, 0, none, emptyFrame⟩

end PendingRetransmit

/-! ## Slots whose frame the radio reports on -/

/-- The frame has left the radio, on the air or not.
mirrors crates/mesh-routing/src/router.rs:4257-4266 -/
def PendingReliable.sent (k : PacketKey) (nowMs : UInt32) (s : PendingReliable) : PendingReliable :=
  if s.active && s.key == k && s.awaitingTx then
    { s with hasTransmitted := true, awaitingTx := false, nextTxMs := nowMs + s.retxDelayMs }
  else s

/-- A retry that never went out is given back; a first copy is given up.
mirrors crates/mesh-routing/src/router.rs:4281-4294 -/
def PendingReliable.rejected (k : PacketKey) (nowMs : UInt32) (s : PendingReliable) :
    PendingReliable :=
  if !s.active || s.key != k then s
  else if s.hasTransmitted then
    if s.awaitingTx then
      { s with numRetx := min (s.numRetx + 1) 255, awaitingTx := false, nextTxMs := nowMs }
    else s
  else { s with active := false }

/-- mirrors crates/mesh-routing/src/router.rs:216-269; `node_num` and the
graph's `my_node` are set together and are one field here. -/
structure Router where
  graph : RelayLedger
  history : PacketHistory
  pending : Slots MAX_PENDING_RELAYS PendingRelay
  pendingRetransmits : Slots MAX_PENDING_RETRANSMITS PendingRetransmit
  pendingReliable : ReliableSlots
  txCancels : Table MAX_TX_CANCELS PacketKey
  nextTxId : UInt32
  deriving DecidableEq

namespace Router

variable (r : Router)

def nodeNum : UInt32 := r.graph.myNode

/-- mirrors crates/mesh-routing/src/router.rs:271-462; the id seed is drawn
from the hardware. -/
def new (nodeNum deviceRole recordWindowMs seed : UInt32) : Router where
  graph := ⟨nodeNum, deviceRole, recordWindowMs, .all .inactive, .empty⟩
  history := .new
  pending := .all .inactive
  pendingRetransmits := .all .inactive
  pendingReliable := .all .inactive
  txCancels := .empty
  nextTxId := seed

/-- mirrors crates/mesh-routing/src/router.rs:4188-4192 -/
def allocTxId : UInt32 × Router :=
  let id := max r.nextTxId 1
  (id, { r with nextTxId := max (id + 1) 1 })

/-! ## Pending relays -/

/-- The entry of the same packet is replaced; false when the table is full.
mirrors crates/mesh-routing/src/router.rs:4194-4223 -/
def storePending (new : PendingRelay) : Router × Bool :=
  if r.pending.any (PendingRelay.serves new.fromNode new.id) then
    ({ r with
      pending := r.pending.changeFirst (PendingRelay.serves new.fromNode new.id) fun _ => new },
      true)
  else
    match r.pending.place (fun p => !p.active) new with
    | some pending => ({ r with pending }, true)
    | none => (r, false)

/-- mirrors crates/mesh-routing/src/router.rs:4225-4238 -/
def deferRelay (plan : RelayPlan) (radioId : UInt8) (nowMs : UInt32) : Router × Bool :=
  r.storePending ⟨true, plan.frame.header.fromNode, plan.frame.header.id, radioId,
    nowMs + plan.delayMs, plan.frame, .empty⟩

def hasPendingRelay (fromNode id : UInt32) : Bool :=
  r.pending.any (PendingRelay.serves fromNode id)

/-- mirrors crates/mesh-routing/src/router.rs:4325-4334 -/
def cancelPending (fromNode id : UInt32) : Router :=
  { r with pending := r.pending.map fun p =>
      if p.serves fromNode id then { p with active := false } else p }

def lowerHop (fromNode id : UInt32) (threshold : UInt8) (p : PendingRelay) : Bool :=
  p.serves fromNode id && p.frame.header.hopLimit < threshold

/-- mirrors crates/mesh-routing/src/router.rs:4342-4355 -/
def cancelPendingLowerHop (fromNode id : UInt32) (threshold : UInt8) : Router × Bool :=
  ({ r with pending := r.pending.map fun p =>
      if lowerHop fromNode id threshold p then { p with active := false } else p },
    r.pending.any (lowerHop fromNode id threshold))

/-! ## Frames called back -/

/-- With eight entries waiting, the call is lost.
mirrors crates/mesh-routing/src/router.rs:4240-4244 -/
def noteTxCancel (k : PacketKey) : Router :=
  if k ∈ r.txCancels.rows then r
  else
    match r.txCancels.push k with
    | some txCancels => { r with txCancels }
    | none => r

/-- mirrors crates/mesh-routing/src/router.rs:4317-4323 -/
def takeTxCancels : List PacketKey × Router := (r.txCancels.rows, { r with txCancels := .empty })

/-! ## T1 insurance -/

/-- The packet is named by its frame; `fireDelayMs` is the contention window.
mirrors crates/mesh-routing/src/router.rs:4814-4863 -/
def scheduleT1Broadcast (frame : Frame) (decodedPortnum resolvedRelay : Option UInt32)
    (nowMs fireDelayMs : UInt32) : Router :=
  let fromNode := frame.header.fromNode
  let packetId := frame.header.id
  if r.pendingRetransmits.any fun s => s.active && s.named fromNode packetId then r
  else
    match r.pendingRetransmits.place (fun s => !s.active || s.canceled)
        ⟨true, false, false, fromNode, resolvedRelay, packetId, nowMs + fireDelayMs,
          decodedPortnum, frame⟩ with
    | some pendingRetransmits => { r with pendingRetransmits }
    | none => r

/-- Only the first slot with the packet's name is looked at.
mirrors crates/mesh-routing/src/router.rs:4893-4921 -/
def cancelT1Retransmit (fromNode packetId : UInt32) : Router :=
  match r.pendingRetransmits.find? (PendingRetransmit.named fromNode packetId) with
  | none => r
  | some s =>
    if s.live then
      { r with pendingRetransmits :=
          r.pendingRetransmits.changeFirst (PendingRetransmit.named fromNode packetId) fun s =>
            { s with active := false, canceled := true } }
    else if s.fired then
      noteTxCancel
        { r with pendingRetransmits :=
            r.pendingRetransmits.changeFirst (PendingRetransmit.named fromNode packetId) fun s =>
              { s with fired := false } }
        (fromNode, packetId)
    else r

/-- One slot of the scan; `drops` is the verdict of rate limit and QoS.
mirrors crates/mesh-routing/src/router.rs:4693-4752 -/
def t1Visit (nowMs : UInt32) (drops : PendingRetransmit → Bool) (s : PendingRetransmit) :
    Visit PendingRetransmit RelayPlan :=
  if !s.active || s.canceled then .pass s
  else if notYet nowMs s.fireAfterMs then .pass s
  else if (s.frame.header.fromNode != r.nodeNum && !r.graph.isRebroadcaster) || drops s then
    .pass { s with active := false, canceled := true }
  else if r.graph.hasOurTransmission s.fromNode s.packetId nowMs then
    .pass { s with active := false, canceled := true }
  else .stop { s with active := false, fired := true } ⟨s.frame, 0⟩

/-- mirrors crates/mesh-routing/src/router.rs:4692-4753 -/
def pollT1Retransmit (nowMs : UInt32) (drops : PendingRetransmit → Bool) :
    Router × Option RelayPlan :=
  let swept := r.pendingRetransmits.sweep (r.t1Visit nowMs drops)
  ({ r with pendingRetransmits := swept.1 }, swept.2)

/-! ## Outcomes of a transmission -/

/-- mirrors crates/mesh-routing/src/router.rs:4246-4268 -/
def noteTxDone (fromNode packetId nowMs : UInt32) : Router :=
  if packetId == 0 then r
  else
    { r with
      graph := (r.graph.recordOurTransmission fromNode packetId nowMs).cancelRelay fromNode packetId
      pendingRetransmits := r.pendingRetransmits.map fun s =>
        if s.named fromNode packetId then { s with fired := false } else s
      pendingReliable := r.pendingReliable.map (PendingReliable.sent (fromNode, packetId) nowMs) }

/-- mirrors crates/mesh-routing/src/router.rs:4270-4278 -/
def noteTxFailure (fromNode packetId nowMs : UInt32) : Router :=
  { r with
    pendingReliable := r.pendingReliable.map (PendingReliable.sent (fromNode, packetId) nowMs) }

/-- mirrors crates/mesh-routing/src/router.rs:4280-4297 -/
def noteTxQueueRejected (fromNode packetId nowMs : UInt32) : Router :=
  { r with
    pendingReliable := r.pendingReliable.map (PendingReliable.rejected (fromNode, packetId) nowMs) }

/-- mirrors crates/mesh-routing/src/router.rs:2710-2715 -/
def discardQueuedForward (fromNode id : UInt32) : Router :=
  let r := r.cancelPending fromNode id
  let r := { r with graph := r.graph.cancelRelay fromNode id }
  let r := r.cancelT1Retransmit fromNode id
  { r with pendingReliable := stopReliableFor r.pendingReliable fromNode id }

/-! ## Our own packets -/

/-- What the host asks for, and what the rest of the node adds: the encrypted
payload (`none` if it does not fit), the routing decision and the delays. -/
structure LocalRequest where
  toNode : UInt32
  portnum : UInt32
  wantAck : Bool
  hopLimit : UInt8
  channel : UInt8
  body : Option Bytes
  capsLastHop : Bool
  srHop : UInt32
  srHopVerified : Bool
  retxDelayMs : UInt32
  fireDelayMs : UInt32
  deriving DecidableEq, Repr

/-- The header of a packet we originate.
mirrors crates/mesh-routing/src/router.rs:3110-3125 -/
def localHeader (q : LocalRequest) (packetId : UInt32) : PacketHeader :=
  let lastHop := q.toNode != NODENUM_BROADCAST && q.capsLastHop
  let hop := if lastHop then min q.hopLimit LAST_HOP_BUDGET else q.hopLimit
  let nextHop :=
    if lastHop then lowByte q.toNode
    else if q.toNode != NODENUM_BROADCAST && q.srHopVerified && q.srHop != 0 &&
        q.srHop != r.nodeNum then lowByte q.srHop
    else 0
  .fromFields q.toNode r.nodeNum packetId q.channel hop hop q.wantAck false nextHop
    (lowByte r.nodeNum)

/-- A packet that asks for an acknowledgement needs a retry slot.
mirrors crates/mesh-routing/src/router.rs:3140-3157 -/
def armLocalRetry (q : LocalRequest) (frame : Frame) : ReliableSlots × Bool :=
  if q.wantAck then
    scheduleReliable r.pendingReliable frame.header.fromNode frame.header.id q.toNode false frame
      q.retxDelayMs NUM_RELIABLE_RETX none
  else (r.pendingReliable, true)

/-- mirrors crates/mesh-routing/src/router.rs:3099-3184 -/
def sendLocal (q : LocalRequest) (nowMs : UInt32) : Router × Option RelayPlan :=
  let packetId := r.allocTxId.1
  let r := r.allocTxId.2
  match q.body with
  | none => (r, none)
  | some payload =>
    let frame : Frame := ⟨r.localHeader q packetId, payload⟩
    let armed := r.armLocalRetry q frame
    if !armed.2 then (r, none)
    else
      let r := { r with pendingReliable := armed.1 }
      if q.toNode == NODENUM_BROADCAST && q.portnum != SIGNAL_ROUTING_APP then
        (r.scheduleT1Broadcast frame (some q.portnum) (some r.nodeNum) nowMs q.fireDelayMs,
          some ⟨frame, 0⟩)
      else (r, some ⟨frame, 0⟩)

/-- An admin reply that asks for an acknowledgement takes a reliable slot; with
none free it stays in its queue.
mirrors crates/mesh-routing/src/router.rs:3560-3615 -/
def pollAdminTx (frame : Frame) (retxDelayMs : UInt32) : Router × Option RelayPlan :=
  if frame.header.wantAck then
    let scheduled := scheduleReliable r.pendingReliable r.nodeNum frame.header.id
      frame.header.toNode false frame retxDelayMs NUM_RELIABLE_RETX none
    ({ r with pendingReliable := scheduled.1 }, if scheduled.2 then some ⟨frame, 0⟩ else none)
  else (r, some ⟨frame, 0⟩)

/-- The retry as it goes out; `alternate` is the byte of another next hop
that may be stamped on the last, redirected try.
mirrors crates/mesh-routing/src/router.rs:3235-3322 -/
def pollReliableRetransmit (nowMs : UInt32) (retxDelayFor : PendingReliable → UInt32)
    (alternate : DueRetransmit → Option UInt8) : Router × Option RelayPlan :=
  let due := dueRetransmit r.pendingReliable nowMs retxDelayFor
  let r := { r with pendingReliable := due.1 }
  match due.2 with
  | none => (r, none)
  | some d =>
    if !d.redirect then (r, some ⟨d.frame, 0⟩)
    else
      match alternate d with
      | none => (r, none)
      | some byte =>
        (r, some ⟨{ d.frame with header := { d.frame.header with nextHop := byte } }, 0⟩)

end Router

end Meshrustic.Routing
