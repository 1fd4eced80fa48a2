import Meshrustic.Routing.State

/-!
# A received frame (`mesh-routing/src/router.rs:859-1200, 4342-4690`)

`process_inbound` first asks the packet history. A known packet is a
duplicate unless it hands the packet to us, is its originator's retry, or
replaces a pending copy by one with more hops left; a duplicate may stop
retries and call frames back, and everything else is processed as new.

`Answers` are what the graph and the decoder say while one frame is
processed. `resolve_heard_from_node` may answer differently from one call to
the next, so each call has its own answer.
-/
namespace Meshrustic.Routing

open Meshrustic.RateLimit (NODENUM_BROADCAST)

/-- A frame of at least a header's length; a shorter one is refused unread. -/
structure InboundPacket where
  header : PacketHeader
  payload : Bytes
  radioId : UInt8
  snr : Int
  deriving DecidableEq, Repr

structure Answers where
  decoded : Option DecodedData
  rateLimited : Bool
  /-- the packet pool has a free slot -/
  poolFree : Bool
  /-- `resolve_heard_from_node` in `handle_duplicate_rx` -/
  transmitter : UInt32
  /-- the same in `perhaps_cancel_dupe` -/
  heardRelayer : UInt32
  unicastDupeCancels : Bool
  allNeighborsCovered : Bool
  /-- replies of our own that are scheduled, each with a fresh packet id -/
  replies : Nat
  deriving DecidableEq, Repr

/-- mirrors crates/mesh-routing/src/router.rs:80-93 -/
structure ProcessResult where
  parsed : ParsedPacket
  duplicate : Bool
  rateLimited : Bool
  handle : Bool
  deriving DecidableEq, Repr

namespace Router

variable (r : Router)

/-- mirrors crates/mesh-routing/src/router.rs:4357-4367 -/
def tryHandleUpgradedPacket (parsed : ParsedPacket) : Router × Bool :=
  if !r.graph.isRebroadcaster || parsed.hopLimit == 0 then (r, false)
  else
    let dropped := r.cancelPendingLowerHop parsed.fromNode parsed.id parsed.hopLimit
    if dropped.2 then
      (noteTxCancel
        { dropped.1 with graph := dropped.1.graph.cancelRelay parsed.fromNode parsed.id }
        (parsed.fromNode, parsed.id), true)
    else dropped

/-- mirrors crates/mesh-routing/src/router.rs:4369-4372 -/
def isRepeatedReliableTx (parsed : ParsedPacket) (data : Option DecodedData) : Bool :=
  hopsAway parsed.hopStart parsed.hopLimit (data.any (·.hasBitfield)) == some 0

/-- The packet a reply on its way to someone else answers. -/
def answeredId (data : DecodedData) : UInt32 :=
  if data.requestId != 0 then data.requestId else data.replyId

/-- mirrors crates/mesh-routing/src/router.rs:4374-4412 -/
def maybeCancelRelayForForeignAck (parsed : ParsedPacket) (data : DecodedData) (nowMs : UInt32) :
    Router :=
  if parsed.toNode == r.nodeNum || parsed.toNode == NODENUM_BROADCAST || answeredId data == 0 then r
  else
    let f := parsed.toNode
    let i := answeredId data
    let r' := r.cancelPending f i
    let r' :=
      if r.hasPendingRelay f i || r.graph.isCommittedRelay f i ||
          r.graph.hasOurTransmission f i nowMs then
        noteTxCancel { r' with graph := r'.graph.cancelRelay f i } (f, i)
      else r'
    { r' with pendingReliable := stopReliableFor r'.pendingReliable f i }

/-- mirrors crates/mesh-routing/src/router.rs:4462-4464 -/
def cancelAnswered (parsed : ParsedPacket) (data : Option DecodedData) (nowMs : UInt32) : Router :=
  match data with
  | some data => r.maybeCancelRelayForForeignAck parsed data nowMs
  | none => r

/-- mirrors crates/mesh-routing/src/router.rs:4548-4554 -/
def duplicateIsRebroadcast (parsed : ParsedPacket) : Bool :=
  parsed.hopLimit < parsed.hopStart ||
    (parsed.relayNode != 0 && parsed.relayNode != lowByte r.nodeNum &&
      parsed.relayNode != lowByte parsed.fromNode)

/-- Withdraws the packet and calls its frame back. -/
def withdraw (fromNode id : UInt32) : Router :=
  noteTxCancel
    (cancelPending { r with graph := r.graph.cancelRelay fromNode id } fromNode id) (fromNode, id)

/-- A duplicate of a unicast that we are relaying.
mirrors crates/mesh-routing/src/router.rs:4593-4628 -/
def cancelUnicastDupe (parsed : ParsedPacket) (a : Answers) : Router :=
  if r.graph.roleAllowsCancelingDupe && a.unicastDupeCancels then
    r.withdraw parsed.fromNode parsed.id
  else r

/-- A duplicate of a broadcast whose relay is committed but no longer pending.
mirrors crates/mesh-routing/src/router.rs:4635-4649 -/
def cancelReleasedDupe (parsed : ParsedPacket) (a : Answers) : Router :=
  let r := r.cancelT1Retransmit parsed.fromNode parsed.id
  if r.duplicateIsRebroadcast parsed && !a.allNeighborsCovered then r
  else
    noteTxCancel { r with graph := r.graph.cancelRelay parsed.fromNode parsed.id }
      (parsed.fromNode, parsed.id)

/-- The tail of `perhaps_cancel_dupe`. The commit is cancelled before it is
looked up, so only a pending frame is ever called back here.
mirrors crates/mesh-routing/src/router.rs:4658-4689 -/
def cancelPendingDupe (parsed : ParsedPacket) (radioId : UInt8) (coverageCancel : Bool) : Router :=
  let f := parsed.fromNode
  let i := parsed.id
  let r :=
    if coverageCancel || r.graph.roleAllowsCancelingDupe then
      -- `cancel_relay_on_rebroadcast` repeats the test it is called under
      let r' := { r with graph := r.graph.cancelRelay f i }
      if (r'.graph.relayTxAfter f i radioId).isSome || r'.hasPendingRelay f i then
        noteTxCancel (r'.cancelPending f i) (f, i)
      else r'.cancelPending f i
    else r
  let r := r.cancelT1Retransmit f i
  if f == r.nodeNum then
    { r with pendingReliable := stopReliableFor r.pendingReliable r.nodeNum i }
  else r

/-- mirrors crates/mesh-routing/src/router.rs:4556-4690 -/
def perhapsCancelDupe (parsed : ParsedPacket) (radioId : UInt8) (a : Answers) (nowMs : UInt32) :
    Router :=
  let committed := r.graph.isCommittedRelay parsed.fromNode parsed.id
  let hasPending := r.hasPendingRelay parsed.fromNode parsed.id
  let inFlight := r.graph.hasOurTransmission parsed.fromNode parsed.id nowMs
  if parsed.toNode != NODENUM_BROADCAST && (committed || hasPending || inFlight) then
    r.cancelUnicastDupe parsed a
  else if committed && !hasPending then r.cancelReleasedDupe parsed a
  else if committed && r.duplicateIsRebroadcast parsed && !a.allNeighborsCovered then r
  else r.cancelPendingDupe parsed radioId committed

/-- The copy comes from the hop that a retry of ours nominated.
mirrors crates/mesh-routing/src/router.rs:4493-4497 -/
def fromNominated (parsed : ParsedPacket) (transmitter : UInt32) (n : NamedFollowup) : Bool :=
  (n.nominatedByte != 0 && parsed.relayNode == n.nominatedByte) ||
    (n.nominatedHop != 0 && transmitter == n.nominatedHop)

/-- A heard copy of a relayed unicast ends its retries, unless they wait for a
nominated hop and the copy is another node's.
mirrors crates/mesh-routing/src/router.rs:4485-4513 -/
def stopRelayedRetries (parsed : ParsedPacket) (a : Answers) : Router :=
  if parsed.toNode != NODENUM_BROADCAST && parsed.fromNode != r.nodeNum &&
      ((namedFollowup r.pendingReliable parsed.fromNode parsed.id).all
        (fromNominated parsed a.transmitter)) then
    { r with pendingReliable := stopReliableFor r.pendingReliable parsed.fromNode parsed.id }
  else r

/-- mirrors crates/mesh-routing/src/router.rs:4454-4546 -/
def handleDuplicateRx (parsed : ParsedPacket) (radioId : UInt8) (a : Answers) (nowMs : UInt32) :
    Router :=
  let r := (r.cancelAnswered parsed a.decoded nowMs).stopRelayedRetries parsed a
  if parsed.fromNode == r.nodeNum then
    perhapsCancelDupe
      { r with pendingReliable := stopReliableFor r.pendingReliable r.nodeNum parsed.id }
      parsed radioId a nowMs
  -- an acknowledgement or an admin reply may be scheduled on the way
  else if isRepeatedReliableTx parsed a.decoded then r
  else r.perhapsCancelDupe parsed radioId a nowMs

/-- mirrors crates/mesh-routing/src/router.rs:905-915 -/
def designatedRepeat (parsed : ParsedPacket) (nowMs : UInt32) : Bool :=
  parsed.toNode != NODENUM_BROADCAST && parsed.toNode != r.nodeNum &&
    parsed.fromNode != r.nodeNum && parsed.nextHop == lowByte r.nodeNum && 0 < parsed.hopLimit &&
    r.graph.isActiveRoutingRole && !r.graph.hasOurTransmission parsed.fromNode parsed.id nowMs

/-- mirrors crates/mesh-routing/src/router.rs:916-931 -/
def originatorRetry (parsed : ParsedPacket) (nowMs : UInt32) : Bool :=
  parsed.toNode != NODENUM_BROADCAST && parsed.toNode != r.nodeNum &&
    parsed.fromNode != r.nodeNum &&
    isDirectPacket parsed.fromNode parsed.hopStart parsed.hopLimit parsed.relayNode &&
    (parsed.nextHop == 0 || parsed.nextHop == lowByte r.nodeNum) && 0 < parsed.hopLimit &&
    !r.graph.hasOurTransmission parsed.fromNode parsed.id nowMs &&
    !r.hasPendingRelay parsed.fromNode parsed.id &&
    !r.graph.isCommittedRelay parsed.fromNode parsed.id

/-- Forgets the copy we hold, before the packet is planned again.
mirrors crates/mesh-routing/src/router.rs:932-941 -/
def dropForReplan (parsed : ParsedPacket) : Router :=
  let r := r.cancelPending parsed.fromNode parsed.id
  { r with
    graph := r.graph.cancelRelay parsed.fromNode parsed.id
    pendingReliable := stopReliableFor r.pendingReliable parsed.fromNode parsed.id }

/-- mirrors crates/mesh-routing/src/router.rs:3720-3743 -/
def processReliableRx (parsed : ParsedPacket) (data : Option DecodedData) : Router :=
  if parsed.toNode == r.nodeNum then
    match data with
    | some d =>
      if d.requestId != 0 then
        { r with pendingReliable := stopReliableFor r.pendingReliable r.nodeNum d.requestId }
      else r
    | none => r
  else r

/-- Ids drawn by replies of our own. -/
def drawTxIds : Nat → Router → Router
  | 0, r => r
  | n + 1, r => drawTxIds n r.allocTxId.2

/-- The rest of `process_inbound`, for a packet taken as new.
mirrors crates/mesh-routing/src/router.rs:969-1199 -/
def acceptInbound (parsed : ParsedPacket) (a : Answers) (nowMs : UInt32) :
    Router × Option ProcessResult :=
  if a.rateLimited then (r, some ⟨parsed, false, true, false⟩)
  else
    let r := (r.cancelAnswered parsed a.decoded nowMs).processReliableRx parsed a.decoded
    let r := drawTxIds a.replies r
    if a.poolFree then (r, some ⟨parsed, false, false, true⟩) else (r, none)

def rejectDuplicate (parsed : ParsedPacket) (radioId : UInt8) (a : Answers) (nowMs : UInt32) :
    Router × Option ProcessResult :=
  (drawTxIds a.replies (r.handleDuplicateRx parsed radioId a nowMs), some ⟨parsed, true, false, false⟩)

/-- What follows from the answer of the history.
mirrors crates/mesh-routing/src/router.rs:878-968 -/
def afterObserve (seen : ObserveResult) (parsed : ParsedPacket) (radioId : UInt8) (a : Answers)
    (nowMs : UInt32) : Router × Option ProcessResult :=
  match seen with
  | .upgraded =>
    let upgraded := r.tryHandleUpgradedPacket parsed
    if upgraded.2 then upgraded.1.acceptInbound parsed a nowMs
    else upgraded.1.rejectDuplicate parsed radioId a nowMs
  | .duplicate =>
    if r.designatedRepeat parsed nowMs || r.originatorRetry parsed nowMs then
      (r.dropForReplan parsed).acceptInbound parsed a nowMs
    else r.rejectDuplicate parsed radioId a nowMs
  | .new => r.acceptInbound parsed a nowMs

/-- mirrors crates/mesh-routing/src/router.rs:859-1200 -/
def processInbound (packet : InboundPacket) (a : Answers) (nowMs : UInt32) :
    Router × Option ProcessResult :=
  if MAX_PACKET_PAYLOAD < packet.payload.length then (r, none)
  else
    let parsed := packet.header.parse
    let seen := r.history.observe parsed.fromNode parsed.id parsed.hopLimit
    afterObserve { r with history := seen.2 } seen.1 parsed packet.radioId a nowMs

end Router

end Meshrustic.Routing
