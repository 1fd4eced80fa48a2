import Meshrustic.Core.Bytes
import Meshrustic.RateLimit.Limiter

/-!
# Packets (`mesh-protocol/src/header.rs`, `direct.rs`, `mesh-routing/src/relay.rs`)

A frame is a header and an opaque payload. The header is kept with its flag
byte unpacked: two hop fields of three bits and two flags. A sender whose
firmware predates `hop_start` leaves it zero, and then the next-hop and relay
bytes mean nothing, so `parse` clears them.
-/
namespace Meshrustic.Routing

open Meshrustic.RateLimit (NODENUM_BROADCAST)

def PACKET_HEADER_LEN : Nat := 16
def MAX_PACKET_PAYLOAD : Nat := 255 - PACKET_HEADER_LEN

/-- Half a turn of the clock: a moment that lies ahead measures at least this. -/
def HALF_TURN : UInt32 := 0x80000000

/-- `now_ms.wrapping_sub(at_ms) >= 0x8000_0000` -/
def notYet (nowMs atMs : UInt32) : Bool := HALF_TURN ≤ nowMs - atMs

/-- mirrors crates/mesh-protocol/src/header.rs:7-30 -/
structure PacketHeader where
  toNode : UInt32
  fromNode : UInt32
  id : UInt32
  channel : UInt8
  hopLimit : UInt8
  hopStart : UInt8
  wantAck : Bool
  viaMqtt : Bool
  nextHop : UInt8
  relayNode : UInt8
  deriving DecidableEq, Repr

/-- What `process_inbound` reads of a header. -/
abbrev ParsedPacket := PacketHeader

structure Frame where
  header : PacketHeader
  payload : Bytes
  deriving DecidableEq, Repr

/-- mirrors crates/mesh-protocol/src/header.rs:40-75; the flag byte has three
bits for each hop field. -/
def PacketHeader.fromFields (toNode fromNode id : UInt32) (channel hopLimit hopStart : UInt8)
    (wantAck viaMqtt : Bool) (nextHop relayNode : UInt8) : PacketHeader :=
  ⟨toNode, fromNode, id, channel, hopLimit &&& 7, hopStart &&& 7, wantAck, viaMqtt, nextHop,
    relayNode⟩

/-- mirrors crates/mesh-protocol/src/header.rs:125-147 -/
def PacketHeader.parse (h : PacketHeader) : ParsedPacket :=
  { h with
    nextHop := if h.hopStart == 0 then 0 else h.nextHop
    relayNode := if h.hopStart == 0 then 0 else h.relayNode }

@[simp] theorem PacketHeader.parse_toNode (h : PacketHeader) : h.parse.toNode = h.toNode := rfl

@[simp] theorem PacketHeader.parse_fromNode (h : PacketHeader) : h.parse.fromNode = h.fromNode :=
  rfl

@[simp] theorem PacketHeader.parse_id (h : PacketHeader) : h.parse.id = h.id := rfl

/-- A packet is named by its originator and its id. -/
abbrev PacketKey := UInt32 × UInt32

def PacketHeader.key (h : PacketHeader) : PacketKey := (h.fromNode, h.id)

def Frame.key (f : Frame) : PacketKey := f.header.key

/-- What a frame carries: a named packet for a destination. -/
def Frame.packet (f : Frame) : PacketKey × UInt32 := (f.key, f.header.toNode)

theorem Frame.key_of_packet {f g : Frame} (h : f.packet = g.packet) : f.key = g.key :=
  congrArg Prod.fst h

/-- `(node & 0xFF) as u8` -/
def lowByte (node : UInt32) : UInt8 := node.toUInt8

/-- mirrors crates/mesh-protocol/src/direct.rs:1-10 -/
def isDirectPacket (fromNode : UInt32) (hopStart hopLimit relayNode : UInt8) : Bool :=
  hopStart == hopLimit && (relayNode == 0 || relayNode == lowByte fromNode)

/-- mirrors crates/mesh-routing/src/routing_ack.rs:46-54 -/
def hopsAway (hopStart hopLimit : UInt8) (hopStartKnown : Bool) : Option UInt8 :=
  if hopStart == 0 && !hopStartKnown then none
  else if hopStart < hopLimit then none
  else some (hopStart - hopLimit)

/-- mirrors crates/mesh-routing/src/relay.rs:3-5 -/
def wireMayRelay (rx : ParsedPacket) (fromUs toUs : Bool) : Bool :=
  !fromUs && !toUs && 0 < rx.hopLimit

/-- mirrors crates/mesh-routing/src/relay.rs:54-65 -/
def relayHopFields (rx : ParsedPacket) : Option (UInt8 × UInt8) :=
  if rx.hopLimit == 0 then none
  else
    let hopLimit := rx.hopLimit - 1
    some (hopLimit, if rx.hopStart != 0 && rx.hopStart < hopLimit then hopLimit else rx.hopStart)

/-- mirrors crates/mesh-routing/src/relay.rs:19-51 -/
def relayHeaderWithNextHopOpts (rx : ParsedPacket) (ourNode nextHop : UInt32) (lastHop : Bool) :
    Option PacketHeader :=
  (relayHopFields rx).map fun (hopLimit, hopStart) =>
    .fromFields rx.toNode rx.fromNode rx.id rx.channel hopLimit hopStart rx.wantAck rx.viaMqtt
      (if lastHop then lowByte rx.toNode else if nextHop != 0 then lowByte nextHop else 0)
      (lowByte ourNode)

/-- A relayed header names the packet it relays. -/
theorem relayHeader_key {rx : ParsedPacket} {ourNode nextHop : UInt32} {lastHop : Bool}
    {h : PacketHeader} (heq : relayHeaderWithNextHopOpts rx ourNode nextHop lastHop = some h) :
    h.key = rx.key := by
  obtain ⟨_, _, rfl⟩ := Option.map_eq_some_iff.mp heq
  rfl

theorem relayHeader_toNode {rx : ParsedPacket} {ourNode nextHop : UInt32} {lastHop : Bool}
    {h : PacketHeader} (heq : relayHeaderWithNextHopOpts rx ourNode nextHop lastHop = some h) :
    h.toNode = rx.toNode := by
  obtain ⟨_, _, rfl⟩ := Option.map_eq_some_iff.mp heq
  rfl

/-- mirrors crates/mesh-routing/src/topology.rs:27-36, the fields that the
packet bookkeeping reads. -/
structure DecodedData where
  portnum : UInt32
  requestId : UInt32
  replyId : UInt32
  hasBitfield : Bool
  deriving DecidableEq, Repr

/-- mirrors crates/mesh-routing/src/router.rs:101-105 -/
structure RelayPlan where
  frame : Frame
  delayMs : UInt32
  deriving DecidableEq, Repr

end Meshrustic.Routing
