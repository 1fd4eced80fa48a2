import Mathlib.Logic.Function.Basic
import Meshrustic.Channel.Sealing
import Meshrustic.Core.Table
import Meshrustic.Routing.Holdings

/-!
# The frames a node has ready (`mesh-routing/src/router.rs`)

Beside relays, insurance and retries, which are `Routing.Router`, a node keeps
frames of its own until the radio asks for them: one slot each for an
acknowledgement, the node info, the telemetry, the position and a traceroute
reply, four for admin replies and a list of topology chunks. Each is encrypted
when it is scheduled, under the key and on the channel of that moment.

`built` is a history variable, which no function reads: the frames built since
the radio was last configured, with how each was sealed.

Left out: the reply that announces a firmware update, which is always sealed for
the peer that asked; the graph, whose answers are arguments; `sr_log`.
-/
namespace Meshrustic.Channel

open Meshrustic.RateLimit (NODENUM_BROADCAST)
open Meshrustic.Radio
open Meshrustic.Routing
open Meshrustic.Store (CryptoKey)

def MAX_PENDING_ADMIN : Nat := 4
def MAX_TOPOLOGY_PACKETS : Nat := 4
def SR_BROADCAST_HOP_LIMIT : UInt8 := 4
def NODEINFO_BROADCAST_MS : UInt32 := 900000
def BOOTSTRAP_REPLY_MIN_MS : UInt32 := 120000

/-- A slot for a frame of our own.
mirrors crates/mesh-routing/src/router.rs:158-198 -/
structure Outgoing where
  active : Bool
  nextTxMs : UInt32
  frame : Frame
  deriving DecidableEq, Repr

namespace Outgoing

def inactive : Outgoing := ⟨false, 0, emptyFrame⟩

def off (p : Outgoing) : Outgoing := { p with active := false }

def due (nowMs : UInt32) (p : Outgoing) : Bool := p.active && !notYet nowMs p.nextTxMs

end Outgoing

/-- The slots that hold one frame. -/
inductive Kind where
  | ack
  | nodeinfo
  | telemetry
  | position
  | traceroute
  deriving DecidableEq, Repr

/-- mirrors crates/mesh-routing/src/router.rs:131-140 -/
structure PendingTopology where
  active : Bool
  nextIdx : Nat
  nextTxMs : UInt32
  spacingMs : UInt32
  frames : Table MAX_TOPOLOGY_PACKETS Frame
  deriving DecidableEq

def PendingTopology.inactive : PendingTopology := ⟨false, 0, 0, 0, .empty⟩

/-- mirrors crates/mesh-routing/src/router.rs:200-206 -/
structure PendingRadioSettings where
  modemPreset : UInt8
  usePreset : Bool
  channelKey : CryptoKey
  channelHash : UInt8
  deriving DecidableEq

/-- How the payload of a frame came about. -/
inductive Sealing where
  /-- encrypted by us under the channel key -/
  | channel (plaintext : Bytes)
  /-- encrypted by us for one peer -/
  | peer
  /-- received so, or rebuilt from what was received -/
  | heard
  deriving DecidableEq, Repr

structure Built where
  frame : Frame
  sealing : Sealing
  deriving DecidableEq, Repr

/-- mirrors crates/mesh-routing/src/router.rs:210-269 -/
structure Node where
  router : Router
  channelKey : CryptoKey
  channelHash : UInt8
  modemPreset : UInt8
  usePreset : Bool
  operatingPreset : UInt8
  pendingRadioSettings : Option PendingRadioSettings
  pendingRadioReinit : Bool
  hopLimit : UInt8
  /-- `admin.broadcasts_fixed_position()` -/
  broadcastsFixedPosition : Bool
  outgoing : Kind → Outgoing
  pendingAdmin : Slots MAX_PENDING_ADMIN Outgoing
  pendingTopology : PendingTopology
  pendingTopologyReplyMs : UInt32
  lastBootstrapReplyMs : Option UInt32
  lastNodeinfoMs : Option UInt32
  lastTelemetryMs : Option UInt32
  lastPositionMs : Option UInt32
  built : List Built

namespace Node

variable (K : KeyStream) (s : Node)

def nodeNum : UInt32 := s.router.nodeNum

def pendingAck : Outgoing := s.outgoing .ack
def pendingNodeinfo : Outgoing := s.outgoing .nodeinfo
def pendingTelemetry : Outgoing := s.outgoing .telemetry
def pendingPosition : Outgoing := s.outgoing .position
def pendingTraceroute : Outgoing := s.outgoing .traceroute

/-- A configured node before its first packet.
mirrors crates/mesh-routing/src/router.rs:312-463, 477-496 -/
def new (router : Router) (channelKey : CryptoKey) (modemPreset : UInt8) (usePreset : Bool)
    (hopLimit : UInt8) (broadcastsFixedPosition : Bool) : Node where
  router := router
  channelKey := channelKey
  channelHash := primaryChannelHash [] (normalizeModemPreset modemPreset) usePreset
    (pskBytes channelKey)
  modemPreset := normalizeModemPreset modemPreset
  usePreset := usePreset
  operatingPreset := normalizeModemPreset modemPreset
  pendingRadioSettings := none
  pendingRadioReinit := false
  hopLimit := hopLimit
  broadcastsFixedPosition := broadcastsFixedPosition
  outgoing := fun _ => .inactive
  pendingAdmin := .all .inactive
  pendingTopology := .inactive
  pendingTopologyReplyMs := 0
  lastBootstrapReplyMs := none
  lastNodeinfoMs := none
  lastTelemetryMs := none
  lastPositionMs := none
  built := []

/-! ## Building frames -/

/-- What the encoder of a frame made: its data, or the cipher text for the
peer whose key the request came under. -/
inductive Body where
  | channel (data : Bytes)
  | peer (cipher : Option Bytes)
  deriving DecidableEq, Repr

def put (k : Kind) (p : Outgoing) : Node := { s with outgoing := Function.update s.outgoing k p }

def turnOff (k : Kind) : Node := s.put k (s.outgoing k).off

@[simp] theorem put_outgoing_self (k : Kind) (p : Outgoing) : (s.put k p).outgoing k = p :=
  Function.update_self ..

theorem put_outgoing_of_ne {k j : Kind} (h : j ≠ k) (p : Outgoing) :
    (s.put k p).outgoing j = s.outgoing j := Function.update_of_ne h ..

/-- Draws an id and builds a frame of ours.
mirrors crates/mesh-routing/src/topology.rs:273-312 -/
def compose (toNode : UInt32) (channel hopLimit : UInt8) (wantAck : Bool) (data : Bytes)
    (nextHop : UInt8) : Node × Option Frame :=
  let id := s.router.allocTxId.1
  let f := buildAppWireFrame K toNode s.nodeNum id channel hopLimit hopLimit wantAck s.channelKey
    data nextHop
  ({ s with
    router := s.router.allocTxId.2
    built := (f.map (⟨·, .channel data⟩)).toList ++ s.built }, f)

/-- The same for a peer, with its header on no channel.
mirrors crates/mesh-routing/src/router.rs:1659-1724 -/
def composeForPeer (toNode : UInt32) (hopLimit : UInt8) (wantAck : Bool) (cipher : Option Bytes)
    (nextHop : UInt8) : Node × Option Frame :=
  let id := s.router.allocTxId.1
  let f : Option Frame := cipher.map fun payload =>
    ⟨.fromFields toNode s.nodeNum id 0 hopLimit hopLimit wantAck false nextHop (lowByte s.nodeNum),
      payload⟩
  ({ s with
    router := s.router.allocTxId.2
    built := (f.map (⟨·, .peer⟩)).toList ++ s.built }, f)

def composeBody (toNode : UInt32) (channel hopLimit : UInt8) (wantAck : Bool) (nextHop : UInt8) :
    Body → Node × Option Frame
  | .channel data => s.compose K toNode channel hopLimit wantAck data nextHop
  | .peer cipher => s.composeForPeer toNode hopLimit wantAck cipher nextHop

/-- Puts a frame in its slot, if there is one. -/
def storeIn (k : Kind) (txMs : UInt32) : Node × Option Frame → Node
  | (s, some f) => s.put k ⟨true, txMs, f⟩
  | (s, none) => s

/-! ## Answers to a packet -/

/-- An acknowledgement is not built while another waits. It is on the channel it
is told, which every caller takes from the packet.
mirrors crates/mesh-routing/src/router.rs:3781-3809, 3837-3879 -/
def scheduleAckWithHop (parsed : ParsedPacket) (channelHash hop nextHop : UInt8) (body : Body)
    (nowMs : UInt32) : Node :=
  if s.pendingAck.active then s
  else storeIn .ack nowMs (s.composeBody K parsed.fromNode channelHash hop false nextHop body)

/-- mirrors crates/mesh-routing/src/router.rs:3777-3779 -/
def scheduleDupeWantAck (parsed : ParsedPacket) (channelHash : UInt8) (body : Body)
    (nowMs : UInt32) : Node := s.scheduleAckWithHop K parsed channelHash 0 0 body nowMs

/-- mirrors crates/mesh-routing/src/router.rs:3811-3835 -/
def scheduleNak (parsed : ParsedPacket) (hop nextHop : UInt8) (body : Body) (nowMs : UInt32) : Node :=
  s.scheduleAckWithHop K parsed parsed.channel hop nextHop body nowMs

/-- `route` is the recorded route with our hop in it, if it could be read and
written.
mirrors crates/mesh-routing/src/router.rs:4014-4077 -/
def maybeScheduleTracerouteResponse (parsed : ParsedPacket) (wantResponse : Bool)
    (route : Option Bytes) (hop nextHop : UInt8) (nowMs : UInt32) : Node :=
  if parsed.fromNode == s.nodeNum || parsed.fromNode == 0 then s
  else if parsed.toNode != s.nodeNum || !wantResponse then s
  else
    match route with
    | none => s
    | some data =>
      storeIn .traceroute nowMs
        (s.compose K parsed.fromNode parsed.channel hop parsed.wantAck data nextHop)

/-- mirrors crates/mesh-routing/src/router.rs:3938-3957 -/
def scheduleNodeinfoUnicast (toNode : UInt32) (data : Bytes) (delayMs nowMs : UInt32) : Node :=
  storeIn .nodeinfo (nowMs + delayMs) (s.compose K toNode s.channelHash s.hopLimit false data 0)

/-- The first slot whose frame waits longest, of those that pass `p`. -/
def longestWaiting (nowMs : UInt32) (p : Outgoing → Bool) :
    List Outgoing → Nat → Option (Nat × Outgoing) → Option (Nat × Outgoing)
  | [], _, best => best
  | x :: xs, i, best =>
    if p x && best.all fun b => nowMs - b.2.nextTxMs < nowMs - x.nextTxMs then
      longestWaiting nowMs p xs (i + 1) (some (i, x))
    else longestWaiting nowMs p xs (i + 1) best

/-- With all slots taken, the reply that waits longest is replaced.
mirrors crates/mesh-routing/src/router.rs:1630-1657 -/
def enqueueAdminTx (nowMs : UInt32) (f : Frame) : Node :=
  match s.pendingAdmin.place (fun p => !p.active) ⟨true, nowMs, f⟩ with
  | some pendingAdmin => { s with pendingAdmin }
  | none =>
    match longestWaiting nowMs (fun _ => true) s.pendingAdmin.cells 0 none with
    | none => s
    | some (oldest, _) => { s with pendingAdmin := s.pendingAdmin.set oldest ⟨true, nowMs, f⟩ }

def storeInAdmin (nowMs : UInt32) : Node × Option Frame → Node
  | (s, some f) => s.enqueueAdminTx nowMs f
  | (s, none) => s

/-- A reply for a peer travels one hop at least.
mirrors crates/mesh-routing/src/router.rs:1505-1553 -/
def scheduleAdminRoutingError (parsed : ParsedPacket) (hop nextHop : UInt8) (body : Body)
    (nowMs : UInt32) : Node :=
  let hop := match body with
    | .peer _ => max hop 1
    | .channel _ => hop
  storeInAdmin nowMs
    (s.composeBody K parsed.fromNode s.channelHash hop parsed.wantAck nextHop body)

/-- mirrors crates/mesh-routing/src/router.rs:1569-1628 -/
def scheduleAdminResponse (parsed : ParsedPacket) (hop : UInt8) (body : Body) (nowMs : UInt32) :
    Node :=
  storeInAdmin nowMs
    (s.composeBody K parsed.fromNode s.channelHash (max hop 1) parsed.wantAck 0 body)

/-! ## Broadcasts -/

/-- The frame of a broadcast takes its slot, and `stamp` notes the time. -/
def scheduleBroadcast (k : Kind) (stamp : Node → Node) (data : Bytes) (nowMs : UInt32) : Node :=
  match s.compose K NODENUM_BROADCAST s.channelHash s.hopLimit false data 0 with
  | (s, some f) => stamp (s.put k ⟨true, nowMs, f⟩)
  | (s, none) => s

/-- mirrors crates/mesh-routing/src/router.rs:3910-3926 -/
def scheduleNodeinfoBroadcast (data : Bytes) (nowMs : UInt32) : Node :=
  s.scheduleBroadcast K .nodeinfo (fun s => { s with lastNodeinfoMs := some nowMs }) data nowMs

/-- mirrors crates/mesh-routing/src/router.rs:3966-3981, 4007-4012 -/
def scheduleTelemetryBroadcast (data : Bytes) (nowMs : UInt32) : Node :=
  s.scheduleBroadcast K .telemetry (fun s => { s with lastTelemetryMs := some nowMs }) data nowMs

/-- mirrors crates/mesh-routing/src/router.rs:3983-4005 -/
def schedulePositionBroadcast (data : Bytes) (nowMs : UInt32) : Node :=
  if !s.broadcastsFixedPosition then s
  else s.scheduleBroadcast K .position (fun s => { s with lastPositionMs := some nowMs }) data nowMs

/-- What the graph says about our own list: whether it may and did go out, when
a list last did, its chunks as data (nothing for one that does not encode), and
the times that follow from them. -/
structure TopologyAnswers where
  canSend : Bool
  hasSent : Bool
  due : Bool
  lastListMs : Option UInt32
  chunks : List Bytes
  delayMs : UInt32
  airtimeMs : UInt32

/-- Frames of the chunks in turn; the table ends the loop when it is full.
mirrors crates/mesh-routing/src/router.rs:4103-4131 -/
def buildTopologyFrames : List Bytes → Node → Table MAX_TOPOLOGY_PACKETS Frame →
    Node × Table MAX_TOPOLOGY_PACKETS Frame
  | [], s, frames => (s, frames)
  | data :: chunks, s, frames =>
    match s.compose K NODENUM_BROADCAST s.channelHash SR_BROADCAST_HOP_LIMIT false data 0 with
    | (s, none) => buildTopologyFrames chunks s frames
    | (s, some f) =>
      match frames.push f with
      | none => (s, frames)
      | some frames => buildTopologyFrames chunks s frames

/-- mirrors crates/mesh-routing/src/router.rs:4079-4148 -/
def scheduleTopologyBroadcast (g : TopologyAnswers) (nowMs : UInt32) : Node × Bool :=
  if !g.canSend then (s, false)
  else
    let built := buildTopologyFrames K g.chunks s .empty
    if built.2.rows.isEmpty then (built.1, false)
    else
      ({ built.1 with
        pendingTopology := ⟨true, 0, nowMs + g.delayMs, g.airtimeMs * 2, built.2⟩ }, true)

/-! ## Maintenance -/

/-- `last.is_none_or(|last| now - last >= interval)` -/
def elapsed (last : Option UInt32) (nowMs intervalMs : UInt32) : Bool :=
  last.all fun last => intervalMs ≤ nowMs - last

/-- mirrors crates/mesh-routing/src/router.rs:823-834 -/
def ensureBootBroadcasts (g : TopologyAnswers) (nodeinfo : Bytes) (nowMs : UInt32) : Node :=
  let s := if g.canSend && !g.hasSent && !s.pendingTopology.active then
      (s.scheduleTopologyBroadcast K g nowMs).1
    else s
  if s.lastNodeinfoMs.isNone && !s.pendingNodeinfo.active then
    s.scheduleNodeinfoBroadcast K nodeinfo nowMs
  else s

/-- mirrors crates/mesh-routing/src/router.rs:1839-1866 -/
def pollScheduledTopologyReply (g : TopologyAnswers) (nowMs : UInt32) : Node :=
  let requestedMs := s.pendingTopologyReplyMs
  if requestedMs == 0 then s
  else
    let s := { s with pendingTopologyReplyMs := 0 }
    if s.pendingTopology.active || !g.canSend then s
    else if g.lastListMs.any fun last => 1 ≤ last - requestedMs && last - requestedMs < HALF_TURN
      then s
    else if s.lastBootstrapReplyMs.any fun last => nowMs - last < BOOTSTRAP_REPLY_MIN_MS then s
    else
      match s.scheduleTopologyBroadcast K g nowMs with
      | (s, true) => { s with lastBootstrapReplyMs := some nowMs }
      | (s, false) => s

/-- The data of the broadcasts, and how often telemetry and position go out. -/
structure Broadcasts where
  nodeinfo : Bytes
  telemetry : Bytes
  position : Bytes
  telemetryIntervalMs : UInt32
  positionIntervalMs : UInt32

/-- `reply` is what the graph says when a list was asked for, `g` after its own
maintenance.
mirrors crates/mesh-routing/src/router.rs:2769-2814 -/
def runMaintenance (reply g : TopologyAnswers) (b : Broadcasts) (nowMs : UInt32) : Node :=
  let s := s.pollScheduledTopologyReply K reply nowMs
  let s := { s with router := (s.router.step (.maintenance nowMs 0)).1 }
  let s := if g.due && g.canSend && !s.pendingTopology.active then
      (s.scheduleTopologyBroadcast K g nowMs).1
    else s
  let s := if elapsed s.lastNodeinfoMs nowMs NODEINFO_BROADCAST_MS && !s.pendingNodeinfo.active then
      s.scheduleNodeinfoBroadcast K b.nodeinfo nowMs
    else s
  let s := if elapsed s.lastTelemetryMs nowMs b.telemetryIntervalMs && !s.pendingTelemetry.active then
      s.scheduleTelemetryBroadcast K b.telemetry nowMs
    else s
  if !s.broadcastsFixedPosition then s.turnOff .position
  else if elapsed s.lastPositionMs nowMs b.positionIntervalMs && !s.pendingPosition.active then
    s.schedulePositionBroadcast K b.position nowMs
  else s

/-! ## Settings -/

/-- mirrors crates/mesh-routing/src/router.rs:717-730 -/
def applyModemSettings (p : PendingRadioSettings) : Node :=
  { s with
    channelKey := p.channelKey
    modemPreset := p.modemPreset
    usePreset := p.usePreset
    channelHash := p.channelHash }

/-- mirrors crates/mesh-routing/src/router.rs:692-715 -/
def requestModemPreset (storedChannelName : Bytes) (modemPreset : UInt8) (usePreset : Bool)
    (channelKey : CryptoKey) : Node × Bool :=
  if !isValidModemPreset modemPreset then (s, false)
  else
    ({ s with
      pendingRadioSettings := some ⟨modemPreset, usePreset, channelKey,
        primaryChannelHash storedChannelName modemPreset usePreset (pskBytes channelKey)⟩
      pendingRadioReinit := true }, true)

/-- What an admin command changes here. -/
structure AdminOutcome where
  applyModemPreset : Option UInt8
  hopLimit : UInt8
  /-- a new role or owner -/
  applyIdentity : Bool
  broadcastsFixedPosition : Bool
  broadcastPosition : Bool
  position : Bytes

/-- mirrors crates/mesh-routing/src/router.rs:1456-1490 -/
def applyAdmin (o : AdminOutcome) (nowMs : UInt32) : Node :=
  let s := match o.applyModemPreset with
    | some preset =>
      ({ s with hopLimit := o.hopLimit }.requestModemPreset [] preset true s.channelKey).1
    | none => s
  let s := if o.applyIdentity then { s with lastNodeinfoMs := none } else s
  let s := { s with broadcastsFixedPosition := o.broadcastsFixedPosition }
  if !s.broadcastsFixedPosition then s.turnOff .position
  else if o.broadcastPosition then s.schedulePositionBroadcast K o.position nowMs
  else s

/-- The radio runs on the new settings: relays, retries, replies and the
acknowledgement are dropped, and with a new preset the topology list as well.
The node info, the telemetry and the position stay.
mirrors crates/mesh-routing/src/router.rs:557-616 -/
def radioReconfigured (recordWindowMs : UInt32) (g : TopologyAnswers) (nodeinfo : Bytes)
    (nowMs : UInt32) : Node :=
  let s := match s.pendingRadioSettings with
    | some p => { s.applyModemSettings p with pendingRadioSettings := none }
    | none => s
  let presetChanged := s.modemPreset != s.operatingPreset
  let s := (({ s with built := [] }).turnOff .ack).turnOff .traceroute
  let s := { s with
    router := s.router.radioReconfigured presetChanged recordWindowMs
    pendingAdmin := s.pendingAdmin.map .off
    pendingTopologyReplyMs := 0 }
  if presetChanged then
    ensureBootBroadcasts K
      { s with
        pendingTopology := { s.pendingTopology with active := false }
        lastNodeinfoMs := none
        operatingPreset := s.modemPreset }
      g nodeinfo nowMs
  else s

/-! ## Packets -/

/-- mirrors crates/mesh-routing/src/router.rs:3098-3184 -/
def sendLocal (q : Router.LocalRequest) (data : Bytes) (nowMs : UInt32) : Node × Option RelayPlan :=
  let sent := s.router.sendLocal
    { q with
      channel := s.channelHash
      body := sealData K s.channelKey s.nodeNum s.router.allocTxId.1 data } nowMs
  ({ s with
    router := sent.1
    built := (sent.2.map fun plan => (⟨plan.frame, .channel data⟩ : Built)).toList ++ s.built },
    sent.2)

/-- The history takes in what the packet may be forwarded as. -/
def receive (packet : InboundPacket) (a : Answers) (hearsUs : Bool) (verdict : Verdict)
    (nowMs : UInt32) : Node × Option RelayPlan :=
  let got := s.router.receive packet a hearsUs verdict nowMs
  ({ s with
    router := got.1
    built := (relayedFrames s.nodeNum packet.header.parse packet.payload verdict).map
      (⟨·, .heard⟩) ++ s.built }, got.2)

/-! ## Handing frames to the radio -/

/-- mirrors crates/mesh-routing/src/router.rs:3535-3548 -/
def pollSlot (k : Kind) (nowMs : UInt32) : Node × Option RelayPlan :=
  if (s.outgoing k).due nowMs then (s.turnOff k, some ⟨(s.outgoing k).frame, 0⟩) else (s, none)

def pollAckTx (nowMs : UInt32) : Node × Option RelayPlan := s.pollSlot .ack nowMs

/-- mirrors crates/mesh-routing/src/router.rs:3623-3636 -/
def pollNodeinfoTx (nowMs : UInt32) : Node × Option RelayPlan := s.pollSlot .nodeinfo nowMs

/-- mirrors crates/mesh-routing/src/router.rs:3638-3655 -/
def pollPositionTx (nowMs : UInt32) : Node × Option RelayPlan :=
  if !s.broadcastsFixedPosition then (s.turnOff .position, none) else s.pollSlot .position nowMs

/-- mirrors crates/mesh-routing/src/router.rs:3657-3670 -/
def pollTelemetryTx (nowMs : UInt32) : Node × Option RelayPlan := s.pollSlot .telemetry nowMs

/-- mirrors crates/mesh-routing/src/router.rs:3672-3685 -/
def pollTracerouteTx (nowMs : UInt32) : Node × Option RelayPlan := s.pollSlot .traceroute nowMs

/-- The reply stays in its slot until the radio has taken it.
mirrors crates/mesh-routing/src/router.rs:3565-3615 -/
def pollAdminTx (retxDelayMs nowMs : UInt32) : Node × Option RelayPlan :=
  match longestWaiting nowMs (Outgoing.due nowMs) s.pendingAdmin.cells 0 none with
  | none => (s, none)
  | some (_, p) =>
    let polled := s.router.pollAdminTx p.frame retxDelayMs
    ({ s with router := polled.1 }, polled.2)

/-- mirrors crates/mesh-routing/src/router.rs:4299-4315 -/
def noteTxEnqueued (fromNode packetId : UInt32) : Node :=
  { s with
    pendingAdmin := s.pendingAdmin.changeFirst
      (fun p => p.active && p.frame.header.parse.key == (fromNode, packetId)) .off }

/-- mirrors crates/mesh-routing/src/router.rs:3687-3713 -/
def pollTopologyTx (nowMs : UInt32) : Node × Option RelayPlan :=
  let t := s.pendingTopology
  if !t.active || notYet nowMs t.nextTxMs then (s, none)
  else
    match t.frames.rows[t.nextIdx]? with
    | none => ({ s with pendingTopology := { t with active := false } }, none)
    | some f =>
      ({ s with pendingTopology :=
          if t.frames.rows.length ≤ t.nextIdx + 1 then
            { t with nextIdx := t.nextIdx + 1, active := false }
          else { t with nextIdx := t.nextIdx + 1, nextTxMs := nowMs + t.spacingMs } },
        some ⟨f, 0⟩)

end Node

end Meshrustic.Channel
