import Meshrustic.Routing.Inbound

/-!
# Relaying (`mesh-routing/src/router.rs:1868-2767, 3324-3423`)

A packet that was taken as new is planned: it is skipped, insured by T1,
bridged, or committed and stored until its slot comes. `poll_ready_relay`
releases the stored frame, and a relayed unicast gets a retry slot when its
frame is released.

How a packet is ranked is the subject of `Relay.Plan`; here the outcome is
the `Verdict`.
-/
namespace Meshrustic.Routing

open Meshrustic.RateLimit (NODENUM_BROADCAST SIGNAL_ROUTING_APP)

/-- What the graph and the contention clock say about a follow-up. -/
structure FollowupAnswers where
  /-- `delivery_hop_cost_fixed` prices the destination itself -/
  lastHop : Bool
  /-- `match_relay_byte_on_outgoing_edges` of the next-hop byte, 0 for none -/
  matchedHop : UInt32
  carryWaitMs : UInt32 → UInt32
  namedDelayMs : UInt32 → UInt32

/-- A relay: the stamp of its header, the payload (a traceroute gains a hop),
the slot, and the radio it is bridged to if it leaves at once. -/
structure RelayVerdict where
  nextHop : UInt32
  lastHop : Bool
  payload : Bytes
  heardFrom : UInt32
  delayMs : UInt32
  flags : UnicastSlotFlags
  followup : FollowupAnswers
  bridge : Option (UInt8 × UInt32)

inductive Verdict where
  /-- one of the `RelaySkip` reasons; a designated hop without a route answers
  with a NAK of its own -/
  | skip (replies : Nat)
  /-- somebody else is expected to relay the broadcast -/
  | insure (heardFrom fireDelayMs : UInt32)
  /-- the route leaves by another radio -/
  | bridge (radioId : UInt8) (delayMs : UInt32)
  | relay (v : RelayVerdict)

namespace Router

variable (r : Router)

def armFollowup (frame : Frame) (named : NamedFollowup) (numRetx : Nat) : Router :=
  { r with
    pendingReliable := (scheduleReliable r.pendingReliable frame.header.fromNode frame.header.id
      frame.header.toNode true frame named.delayMs numRetx (some named)).1 }

/-- The hop that is expected to carry the frame on, 0 for none.
mirrors crates/mesh-routing/src/router.rs:3377-3385 -/
def onwardHop (p : ParsedPacket) (flags : UnicastSlotFlags) (q : FollowupAnswers) : UInt32 :=
  if flags.nominatedNextHop != 0 then flags.nominatedNextHop
  else if p.nextHop != 0 then q.matchedHop
  else 0

/-- mirrors crates/mesh-routing/src/router.rs:3355-3374 -/
def lastHopFollowup (p : ParsedPacket) (flags : UnicastSlotFlags) (upstream : UInt32)
    (q : FollowupAnswers) : NamedFollowup :=
  let hop := if flags.nominatedNextHop != 0 then flags.nominatedNextHop else p.toNode
  ⟨hop, lowByte hop, upstream, q.carryWaitMs hop, false⟩

/-- mirrors crates/mesh-routing/src/router.rs:3388-3407 -/
def onwardFollowup (p : ParsedPacket) (flags : UnicastSlotFlags) (upstream : UInt32)
    (q : FollowupAnswers) : NamedFollowup :=
  let hop := onwardHop p flags q
  let weakFlood := p.nextHop == 0
  ⟨hop, if hop != 0 then lowByte hop else p.nextHop, upstream,
    if weakFlood then q.carryWaitMs hop else q.namedDelayMs hop, !weakFlood⟩

/-- mirrors crates/mesh-routing/src/router.rs:3324-3423 -/
def armRelayedUnicastFollowup (frame : Frame) (flags : UnicastSlotFlags) (upstream : UInt32)
    (q : FollowupAnswers) : Router :=
  let p := frame.header.parse
  if p.toNode == NODENUM_BROADCAST || p.fromNode == r.nodeNum then r
  else if p.hopLimit == 0 && !q.lastHop then r
  else if flags.nonfinalFlood then r
  else if q.lastHop then
    if flags.lastHopBackup then r
    else r.armFollowup frame (lastHopFollowup p flags upstream q) 1
  else if onwardHop p flags q == 0 && p.nextHop == 0 then r
  else
    r.armFollowup frame (onwardFollowup p flags upstream q)
      (if p.nextHop == 0 then 1 else NAMED_FOLLOWUP_TRIES)

/-- mirrors crates/mesh-routing/src/router.rs:4755-4812; `hearsUs` is
`has_any_hears_us_neighbor`. -/
def armT1ForDeferredBroadcast (parsed : ParsedPacket) (payload : Bytes) (portnum : Option UInt32)
    (hearsUs : Bool) (heardFrom nowMs fireDelayMs : UInt32) : Router :=
  if portnum == some SIGNAL_ROUTING_APP || !hearsUs then r
  else
    match relayHeaderWithNextHopOpts parsed r.nodeNum 0 false with
    | none => r
    | some h =>
      r.scheduleT1Broadcast ⟨{ h with wantAck := false }, payload⟩ portnum (some heardFrom) nowMs
        fireDelayMs

/-- Commits on another radio.
mirrors crates/mesh-routing/src/bridge.rs:205-256 -/
def bridgeLeg (parsed : ParsedPacket) (snr : Int) (nowMs : UInt32) (leg : UInt8 × UInt32) : Router :=
  { r with graph := (r.graph.commitRelay parsed.fromNode parsed.id leg.1 snr parsed.fromNode nowMs
      leg.2).1 }

/-- The commit of a planned relay, and the time it is due.
mirrors crates/mesh-routing/src/router.rs:2510-2521, 2587-2597 -/
def commitPlan (parsed : ParsedPacket) (radioId : UInt8) (snr : Int) (nowMs : UInt32)
    (v : RelayVerdict) : Router × UInt32 :=
  let committed := r.graph.commitRelay parsed.fromNode parsed.id radioId snr v.heardFrom nowMs
    v.delayMs
  ({ r with graph := committed.1.setUnicastCommitFlags parsed.fromNode parsed.id v.flags },
    committed.2)

/-- A frame that leaves at once, with its follow-up armed.
mirrors crates/mesh-routing/src/router.rs:2600-2624, 2639-2667 -/
def handBack (parsed : ParsedPacket) (snr : Int) (nowMs : UInt32) (frame : Frame)
    (v : RelayVerdict) : Router × Option RelayPlan :=
  let r := r.armRelayedUnicastFollowup frame v.flags v.heardFrom v.followup
  (match v.bridge with
    | some leg => r.bridgeLeg parsed snr nowMs leg
    | none => r,
    some ⟨frame, 0⟩)

/-- Commits, and stores the frame until its slot comes. A frame that is due at
once, or finds the table full, is handed back.
mirrors crates/mesh-routing/src/router.rs:2510-2667 -/
def commitAndStore (parsed : ParsedPacket) (radioId : UInt8) (snr : Int) (nowMs : UInt32)
    (frame : Frame) (v : RelayVerdict) : Router × Option RelayPlan :=
  let committed := r.commitPlan parsed radioId snr nowMs v
  if committed.2 - nowMs == 0 then committed.1.handBack parsed snr nowMs frame v
  else
    let stored := committed.1.storePending
      ⟨true, parsed.fromNode, parsed.id, radioId, committed.2, frame, v.flags⟩
    if stored.2 then (stored.1, none) else stored.1.handBack parsed snr nowMs frame v

/-- mirrors crates/mesh-routing/src/router.rs:1868-2668 -/
def evaluateTxPlan (result : ProcessResult) (packet : InboundPacket) (a : Answers)
    (hearsUs : Bool) (verdict : Verdict) (nowMs : UInt32) : Router × Option RelayPlan :=
  let parsed := result.parsed
  if result.duplicate || result.rateLimited || !result.handle then (r, none)
  else if r.graph.hasOurTransmission parsed.fromNode parsed.id nowMs then (r, none)
  else if !wireMayRelay parsed (parsed.fromNode == r.nodeNum) (parsed.toNode == r.nodeNum) then
    (r, none)
  else if !r.graph.isRebroadcaster then (r, none)
  else
    match verdict with
    | .skip replies => (drawTxIds replies r, none)
    | .insure heardFrom fireDelayMs =>
      if parsed.toNode == NODENUM_BROADCAST then
        (r.armT1ForDeferredBroadcast parsed packet.payload (a.decoded.map (·.portnum)) hearsUs
          heardFrom nowMs fireDelayMs, none)
      else (r, none)
    | .bridge radioId delayMs => (r.bridgeLeg parsed packet.snr nowMs (radioId, delayMs), none)
    | .relay v =>
      match relayHeaderWithNextHopOpts parsed r.nodeNum v.nextHop v.lastHop with
      | none => (r, none)
      | some h => r.commitAndStore parsed packet.radioId packet.snr nowMs ⟨h, v.payload⟩ v

/-- A frame as the radio loop gets it: processed, planned, and deferred. A
plan that finds no place in the pending table goes to the radio at once.
mirrors boards/nrf52840/src/lora/radio_task.rs:457-550 -/
def receive (packet : InboundPacket) (a : Answers) (hearsUs : Bool) (verdict : Verdict)
    (nowMs : UInt32) : Router × Option RelayPlan :=
  match r.processInbound packet a nowMs with
  | (r, none) => (r, none)
  | (r, some result) =>
    match r.evaluateTxPlan result packet a hearsUs verdict nowMs with
    | (r, none) => (r, none)
    | (r, some plan) =>
      let deferred := r.deferRelay plan packet.radioId nowMs
      if deferred.2 then (deferred.1, none) else (deferred.1, some plan)

/-! ## Releasing a pending relay -/

/-- mirrors crates/mesh-routing/src/router.rs:2671-2708; `admits` is the verdict
of rate limit and QoS. -/
def queuedFrameAllowed (admits : Frame → Bool) (frame : Frame) : Bool :=
  if frame.header.fromNode == r.nodeNum then true
  else if !r.graph.isRebroadcaster then false
  else admits frame

/-- An entry that `poll_ready_relay` drops because its policy changed. -/
def disallowed (nowMs : UInt32) (admits : Frame → Bool) (p : PendingRelay) : Bool :=
  p.active && !r.graph.hasOurTransmission p.fromNode p.id nowMs &&
    !r.queuedFrameAllowed admits p.frame

/-- An entry that stays for now.
mirrors crates/mesh-routing/src/router.rs:2721-2739 -/
def stays (nowMs : UInt32) (admits : Frame → Bool) (p : PendingRelay) : Bool :=
  p.active && !r.graph.hasOurTransmission p.fromNode p.id nowMs &&
    r.queuedFrameAllowed admits p.frame

/-- The first entry that is due longest, with its index.
mirrors crates/mesh-routing/src/router.rs:2718-2748 -/
def longestDue (nowMs : UInt32) :
    List PendingRelay → Nat → Option (Nat × PendingRelay) → Option (Nat × PendingRelay)
  | [], _, best => best
  | p :: ps, i, best =>
    if !p.active || notYet nowMs p.txAfterMs then longestDue nowMs ps (i + 1) best
    else if best.all fun b => nowMs - b.2.txAfterMs < nowMs - p.txAfterMs then
      longestDue nowMs ps (i + 1) (some (i, p))
    else longestDue nowMs ps (i + 1) best

/-- The first pass of `poll_ready_relay`: entries already sent or no longer
allowed are dropped, the latter with their commit.
mirrors crates/mesh-routing/src/router.rs:2720-2739 -/
def dropStale (nowMs : UInt32) (admits : Frame → Bool) : Router :=
  { r with
    graph := r.pending.cells.foldl
      (fun g p => if r.disallowed nowMs admits p then g.cancelRelay p.fromNode p.id else g) r.graph
    pending := r.pending.map fun p =>
      if p.active && !r.stays nowMs admits p then { p with active := false } else p }

/-- mirrors crates/mesh-routing/src/router.rs:2717-2767 -/
def pollReadyRelay (nowMs : UInt32) (admits : Frame → Bool) (q : FollowupAnswers) :
    Router × Option RelayPlan :=
  let r := r.dropStale nowMs admits
  match longestDue nowMs r.pending.cells 0 none with
  | none => (r, none)
  | some (i, p) =>
    let upstream := (r.graph.committedHeardFrom p.fromNode p.id).getD 0
    let r := { r with pending := r.pending.set i { p with active := false } }
    (r.armRelayedUnicastFollowup p.frame p.unicastFlags upstream q, some ⟨p.frame, 0⟩)

/-- mirrors crates/mesh-routing/src/router.rs:558-622, with the effects on this
state; a new preset forgets our transmissions. -/
def radioReconfigured (presetChanged : Bool) (recordWindowMs : UInt32) : Router :=
  { r with
    graph := { r.graph.clearRelays with
      recordWindowMs
      ourTx := if presetChanged then .empty else r.graph.ourTx }
    pending := r.pending.map fun p => { p with active := false }
    pendingRetransmits := r.pendingRetransmits.map fun s => { s with active := false }
    pendingReliable := r.pendingReliable.map fun s => { s with active := false } }

end Router

end Meshrustic.Routing
