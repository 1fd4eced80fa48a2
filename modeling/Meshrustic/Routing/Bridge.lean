import Meshrustic.Core.LTS
import Meshrustic.Core.Trail
import Meshrustic.Relay.Transmissions
import Meshrustic.Routing.Commands

/-!
# Bridging (`mesh-routing/src/bridge.rs`)

A node with two radios sends what it heard on one of them on the other as well: a unicast that is
routed over it, a broadcast as long as some neighbour there has not passed it on. A cache of the
last 32 legs keeps a packet from being bridged again; it is overwritten in turn.

Results:
* `evaluateBridgeTargets_legs`: on which radio a call sends its leg; the shortcut for a routed
  unicast picks the radio that the scan would have picked.
* `bridged_spaced`: over whole runs, whatever the graph and the routes become in between, no leg
  is sent again within the next 32, and nothing else holds back one that is wanted.
-/
namespace Meshrustic.Routing

open Meshrustic.Graph (EdgeStore Edge)
open Meshrustic.RateLimit (NODENUM_BROADCAST SIGNAL_ROUTING_APP ROUTING_APP TRACEROUTE_APP
  TEXT_MESSAGE_APP TEXT_MESSAGE_COMPRESSED_APP)
open Meshrustic.Relay (MAX_NODE_TX_RECORDS Transmissions)

def MAX_RADIOS : Nat := 2
def MAX_BRIDGE_TARGETS : Nat := MAX_RADIOS - 1
def BRIDGE_DEDUP_SIZE : Nat := 32
def UNKNOWN_APP : UInt32 := 0

/-! ## Quality of service -/

/-- mirrors crates/mesh-protocol/src/portnum.rs:26-32 -/
inductive QosTier where
  | low | medium | high | critical
  deriving DecidableEq, Repr

/-- mirrors crates/mesh-protocol/src/portnum.rs:49-68 -/
def qosTier (decodedPortnum : Option UInt32) (channel primaryChannel : UInt8) : QosTier :=
  match decodedPortnum.filter (· != UNKNOWN_APP) with
  | none => .low
  | some portnum =>
    if portnum == TEXT_MESSAGE_APP || portnum == TEXT_MESSAGE_COMPRESSED_APP then
      if channel == primaryChannel then .critical else .medium
    else if portnum == ADMIN_APP then .critical
    else if portnum == ROUTING_APP || portnum == SIGNAL_ROUTING_APP ||
        portnum == TRACEROUTE_APP then
      .high
    else .low

/-- mirrors crates/mesh-routing/src/qos.rs:3-5 -/
structure ChannelQoS where
  primaryChannel : UInt8

/-- `chutilBelow` says of a number of per cent whether the channel is in use for less; it is a float
in the source.
mirrors crates/mesh-routing/src/qos.rs:22-31 -/
def ChannelQoS.canRelay (qos : ChannelQoS) (decodedPortnum : Option UInt32) (channel : UInt8)
    (chutilBelow : Nat → Bool) : Bool :=
  match qosTier decodedPortnum channel qos.primaryChannel with
  | .low => chutilBelow 25
  | .medium => chutilBelow 30
  | .high => chutilBelow 38
  | .critical => true

/-! ## The cache -/

/-- mirrors crates/mesh-routing/src/bridge.rs:13-18 -/
structure BridgeDedupEntry where
  fromNode : UInt32 := 0
  id : UInt32 := 0
  targetRadio : UInt8 := 0
  deriving DecidableEq, Repr

/-- mirrors crates/mesh-routing/src/bridge.rs:20-24 -/
abbrev BridgeDedupCache := Trail BRIDGE_DEDUP_SIZE BridgeDedupEntry

namespace BridgeDedupCache

/-- mirrors crates/mesh-routing/src/bridge.rs:27-36 -/
def new : BridgeDedupCache := Trail.new {} (by decide)

variable (dedup : BridgeDedupCache)

/-- mirrors crates/mesh-routing/src/bridge.rs:38-45 -/
def seen (fromNode id : UInt32) (targetRadio : UInt8) : Bool :=
  if fromNode == 0 || id == 0 then false
  else dedup.cells.any fun e => e.fromNode == fromNode && e.id == id && e.targetRadio == targetRadio

/-- mirrors crates/mesh-routing/src/bridge.rs:47-60 -/
def remember (fromNode id : UInt32) (targetRadio : UInt8) : BridgeDedupCache :=
  if fromNode == 0 || id == 0 then dedup
  else if dedup.seen fromNode id targetRadio then dedup
  else dedup.note ⟨fromNode, id, targetRadio⟩

end BridgeDedupCache

/-! ## The bridge -/

/-- What is read of a route here.
mirrors crates/mesh-routing/src/graph/route.rs:47-56 -/
structure Egress where
  nextHop : UInt32
  egressRadio : UInt8

/-- mirrors crates/mesh-routing/src/bridge.rs:84-93 -/
structure BridgeEval where
  rxRadio : UInt8
  parsed : ParsedPacket
  route : Egress
  decodedPortnum : Option UInt32
  chutilBelow : Nat → Bool
  nowMs : UInt32
  fromUs : Bool
  toUs : Bool

/-- The frame of a relay, on another radio.
mirrors crates/mesh-routing/src/bridge.rs:63-68 -/
structure BridgeLeg where
  targetRadio : UInt8
  frame : Frame

/-- The parts of `NeighborGraph` that a bridge reads and writes. -/
structure BridgeGraph where
  edges : EdgeStore
  nodeTx : Table MAX_NODE_TX_RECORDS NodeTxRecord
  relays : RelayLedger

namespace BridgeGraph

variable (g : BridgeGraph)

def hasNodeTransmitted (nodeId originator packetId nowMs : UInt32) : Bool :=
  (Transmissions.mk g.relays.myNode g.nodeTx).hasNodeTransmitted g.relays.recordWindowMs nodeId
    originator packetId nowMs

/-- mirrors crates/mesh-routing/src/neighbor_graph.rs:2568-2591 -/
def segmentHasUncoveredHearsUsNeighbors (radio : UInt8) (packetId heardFrom nowMs : UInt32) :
    Bool :=
  (g.edges.listed g.relays.myNode).any fun edge =>
    if !edge.hearsUs || edge.heardOn != radio then false
    else if edge.toNode == heardFrom then false
    else !g.hasNodeTransmitted edge.toNode heardFrom packetId nowMs

end BridgeGraph

/-- mirrors crates/mesh-routing/src/bridge.rs:123-139 -/
def routingNeed (eval : BridgeEval) (dstRadio : UInt8) (graph : BridgeGraph) : Bool :=
  if eval.parsed.toNode == NODENUM_BROADCAST then
    graph.segmentHasUncoveredHearsUsNeighbors dstRadio eval.parsed.id eval.parsed.fromNode
      eval.nowMs
  else if eval.route.nextHop == 0 then false
  else if eval.route.egressRadio != dstRadio then false
  else eval.route.egressRadio != eval.rxRadio

/-- mirrors crates/mesh-routing/src/bridge.rs:95-121 -/
def shouldBridgeTo (eval : BridgeEval) (dstRadio : UInt8) (graph : BridgeGraph)
    (dedup : BridgeDedupCache) (qos : ChannelQoS) : Bool :=
  if eval.parsed.id == 0 then false
  else if dstRadio == eval.rxRadio then false
  else if MAX_RADIOS ≤ dstRadio.toNat then false
  else if dedup.seen eval.parsed.fromNode eval.parsed.id dstRadio then false
  else if !wireMayRelay eval.parsed eval.fromUs eval.toUs then false
  else if !qos.canRelay eval.decodedPortnum eval.parsed.channel eval.chutilBelow then false
  else routingNeed eval dstRadio graph

/-- What a call on the bridge is given beside the graph and the cache; `delay` is the slot of a
radio and its tie break. -/
structure BridgeCall where
  eval : BridgeEval
  relay : Frame
  qos : ChannelQoS
  snr : Int
  delay : UInt8 → UInt32

/-- What a call on the bridge changes; `legs` are the legs of its plan. -/
structure Bridge where
  graph : BridgeGraph
  dedup : BridgeDedupCache
  legs : Table MAX_BRIDGE_TARGETS BridgeLeg

namespace Bridge

variable (b : Bridge) (c : BridgeCall)

/-- mirrors crates/mesh-routing/src/bridge.rs:205-256 -/
def enqueueBridgeLeg (dstRadio : UInt8) : Bridge × Bool :=
  match b.legs.push ⟨dstRadio, c.relay⟩ with
  | none => (b, false)
  | some legs =>
    let parsed := c.eval.parsed
    ({ graph := { b.graph with
         relays := (b.graph.relays.commitRelay parsed.fromNode parsed.id dstRadio c.snr
           parsed.fromNode c.eval.nowMs (c.delay dstRadio)).1 }
       dedup := b.dedup.remember parsed.fromNode parsed.id dstRadio
       legs }, true)

/-- mirrors crates/mesh-routing/src/bridge.rs:180-201 -/
def bridgeFirst : List UInt8 → Bridge × Bool
  | [] => (b, false)
  | dst :: radios =>
    if dst == c.eval.rxRadio then bridgeFirst radios
    else if !shouldBridgeTo c.eval dst b.graph b.dedup c.qos then bridgeFirst radios
    else
      match b.enqueueBridgeLeg c dst with
      | (b', true) => (b', true)
      | (_, false) => bridgeFirst radios

/-- `0..MAX_RADIOS` -/
def radios : List UInt8 := (List.range MAX_RADIOS).map UInt8.ofNat

/-- mirrors crates/mesh-routing/src/bridge.rs:141-203 -/
def evaluateBridgeTargets : Bridge × Bool :=
  let b := { b with legs := .empty }
  let eval := c.eval
  if eval.parsed.toNode != NODENUM_BROADCAST && eval.route.nextHop != 0 &&
      eval.route.egressRadio != eval.rxRadio then
    let dst := eval.route.egressRadio
    if shouldBridgeTo eval dst b.graph b.dedup c.qos then b.enqueueBridgeLeg c dst else (b, false)
  else b.bridgeFirst c radios

end Bridge

/-! ## What a bridge is for -/

namespace BridgeCall

variable (c : BridgeCall)

/-- What the cache calls a leg. -/
def entry (dst : UInt8) : BridgeDedupEntry := ⟨c.eval.parsed.fromNode, c.eval.parsed.id, dst⟩

/-- The packet is of use on another radio, and may be sent there. -/
structure Wanted (g : BridgeGraph) (dst : UInt8) : Prop where
  named : c.eval.parsed.id ≠ 0
  other : dst ≠ c.eval.rxRadio
  present : dst.toNat < MAX_RADIOS
  mayRelay : wireMayRelay c.eval.parsed c.eval.fromUs c.eval.toUs = true
  admitted : c.qos.canRelay c.eval.decodedPortnum c.eval.parsed.channel c.eval.chutilBelow = true
  /-- a neighbour there hears us and has not passed the broadcast on -/
  broadcast : c.eval.parsed.toNode = NODENUM_BROADCAST → ∃ e ∈ g.edges.listed g.relays.myNode,
    e.hearsUs = true ∧ e.heardOn = dst ∧ e.toNode ≠ c.eval.parsed.fromNode ∧
      g.hasNodeTransmitted e.toNode c.eval.parsed.fromNode c.eval.parsed.id c.eval.nowMs = false
  /-- the route leaves by this radio -/
  unicast : c.eval.parsed.toNode ≠ NODENUM_BROADCAST →
    c.eval.route.nextHop ≠ 0 ∧ c.eval.route.egressRadio = dst

/-- And no leg of it is among the last 32; a packet that names no source is not remembered. -/
def Due (sent : List BridgeDedupEntry) (g : BridgeGraph) (dst : UInt8) : Prop :=
  c.Wanted g dst ∧ (c.eval.parsed.fromNode = 0 ∨ c.entry dst ∉ sent.take BRIDGE_DEDUP_SIZE)

def FirstDue (sent : List BridgeDedupEntry) (g : BridgeGraph) (dst : UInt8) : Prop :=
  c.Due sent g dst ∧ ∀ d < dst, ¬ c.Due sent g d

end BridgeCall

section

variable {g : BridgeGraph} {c : BridgeCall} {dst : UInt8} {dedup : BridgeDedupCache}
  {sent : List BridgeDedupEntry}

theorem segment_uncovered_iff {radio : UInt8} {packetId heardFrom nowMs : UInt32} :
    g.segmentHasUncoveredHearsUsNeighbors radio packetId heardFrom nowMs = true ↔
      ∃ e ∈ g.edges.listed g.relays.myNode, e.hearsUs = true ∧ e.heardOn = radio ∧
        e.toNode ≠ heardFrom ∧ g.hasNodeTransmitted e.toNode heardFrom packetId nowMs = false := by
  have hedge : ∀ e : Edge, (if (!e.hearsUs || e.heardOn != radio) = true then false
      else if (e.toNode == heardFrom) = true then false
      else !g.hasNodeTransmitted e.toNode heardFrom packetId nowMs) = true ↔
        e.hearsUs = true ∧ e.heardOn = radio ∧ e.toNode ≠ heardFrom ∧
          g.hasNodeTransmitted e.toNode heardFrom packetId nowMs = false := by
    intro e
    cases e.hearsUs <;> by_cases hradio : e.heardOn = radio <;>
      by_cases hfrom : e.toNode = heardFrom <;> simp [hradio, hfrom]
  rw [BridgeGraph.segmentHasUncoveredHearsUsNeighbors, List.any_eq_true]
  simp only [hedge]

theorem routingNeed_iff (hother : dst ≠ c.eval.rxRadio) :
    routingNeed c.eval dst g = true ↔
      (c.eval.parsed.toNode = NODENUM_BROADCAST → ∃ e ∈ g.edges.listed g.relays.myNode,
        e.hearsUs = true ∧ e.heardOn = dst ∧ e.toNode ≠ c.eval.parsed.fromNode ∧
          g.hasNodeTransmitted e.toNode c.eval.parsed.fromNode c.eval.parsed.id c.eval.nowMs
            = false) ∧
      (c.eval.parsed.toNode ≠ NODENUM_BROADCAST →
        c.eval.route.nextHop ≠ 0 ∧ c.eval.route.egressRadio = dst) := by
  unfold routingNeed
  by_cases hto : c.eval.parsed.toNode = NODENUM_BROADCAST
  · simp only [hto, beq_self_eq_true, if_true, segment_uncovered_iff, true_implies, ne_eq,
      not_true_eq_false, false_implies, and_true]
  · by_cases hhop : c.eval.route.nextHop = 0
    · simp [hto, hhop]
    · by_cases hradio : c.eval.route.egressRadio = dst
      · simp [hto, hhop, hradio, hother]
      · simp [hto, hhop, hradio]

theorem shouldBridgeTo_iff : shouldBridgeTo c.eval dst g dedup c.qos = true ↔
    c.Wanted g dst ∧ dedup.seen c.eval.parsed.fromNode c.eval.parsed.id dst = false := by
  unfold shouldBridgeTo
  constructor
  · intro h
    split at h
    · cases h
    rename_i hid
    split at h
    · cases h
    rename_i hother
    split at h
    · cases h
    rename_i hradio
    split at h
    · cases h
    rename_i hseen
    split at h
    · cases h
    rename_i hrelay
    split at h
    · cases h
    rename_i hqos
    have hother : dst ≠ c.eval.rxRadio := by simpa using hother
    obtain ⟨hbroadcast, hunicast⟩ := (routingNeed_iff hother).mp h
    exact ⟨⟨by simpa using hid, hother, by omega, by simpa using hrelay, by simpa using hqos,
      hbroadcast, hunicast⟩, by simpa using hseen⟩
  · rintro ⟨hw, hseen⟩
    have hradio := hw.present
    rw [if_neg (by simpa using hw.named), if_neg (by simpa using hw.other), if_neg (by omega),
      if_neg (by simp [hseen]), if_neg (by simp [hw.mayRelay]), if_neg (by simp [hw.admitted])]
    exact (routingNeed_iff hw.other).mpr ⟨hw.broadcast, hw.unicast⟩

/-- What the cache has seen is among the last legs. -/
theorem seen_iff (h : dedup.Holds {} sent) {fromNode id : UInt32} {radio : UInt8} (hid : id ≠ 0) :
    dedup.seen fromNode id radio = true ↔
      fromNode ≠ 0 ∧ ⟨fromNode, id, radio⟩ ∈ sent.take BRIDGE_DEDUP_SIZE := by
  unfold BridgeDedupCache.seen
  by_cases hfrom : fromNode = 0
  · simp [hfrom]
  · have hcells : (dedup.cells.any fun e => e.fromNode == fromNode && e.id == id &&
          e.targetRadio == radio) = true ↔
        (⟨fromNode, id, radio⟩ : BridgeDedupEntry) ∈ dedup.cells := by
      rw [Slots.any_eq_true]
      constructor
      · rintro ⟨⟨f, i, t⟩, he, hsame⟩
        simp only [Bool.and_eq_true, beq_iff_eq] at hsame
        obtain ⟨⟨rfl, rfl⟩, rfl⟩ := hsame
        exact he
      · exact fun he => ⟨_, he, by simp⟩
    have hnone : (fromNode == 0 || id == 0) = false := by simp [hfrom, hid]
    rw [hnone, if_neg Bool.false_ne_true, hcells, h.mem_iff]
    -- a cell that was never written names no source
    have hblank : (⟨fromNode, id, radio⟩ : BridgeDedupEntry) ≠ {} := by
      intro heq
      exact hfrom (congrArg BridgeDedupEntry.fromNode heq)
    simp [hfrom, hblank]

theorem due_iff (h : dedup.Holds {} sent) :
    shouldBridgeTo c.eval dst g dedup c.qos = true ↔ c.Due sent g dst := by
  rw [shouldBridgeTo_iff, BridgeCall.Due]
  refine and_congr_right fun hw => ?_
  rw [Bool.eq_false_iff, Ne, seen_iff h hw.named, not_and_or, Ne, not_not]
  rfl

end

/-! ## One call -/

namespace Bridge

variable {b : Bridge} {c : BridgeCall} {dst : UInt8} {sent : List BridgeDedupEntry}

/-- The plan has room for one leg. -/
def one (leg : BridgeLeg) : Table MAX_BRIDGE_TARGETS BridgeLeg := ⟨[leg], Nat.le_refl 1⟩

/-- The bridge with a leg sent. -/
def send (b : Bridge) (c : BridgeCall) (dst : UInt8) : Bridge where
  graph := { b.graph with
    relays := (b.graph.relays.commitRelay c.eval.parsed.fromNode c.eval.parsed.id dst c.snr
      c.eval.parsed.fromNode c.eval.nowMs (c.delay dst)).1 }
  dedup := b.dedup.remember c.eval.parsed.fromNode c.eval.parsed.id dst
  legs := one ⟨dst, c.relay⟩

theorem enqueueBridgeLeg_empty (hlegs : b.legs = .empty) :
    b.enqueueBridgeLeg c dst = (b.send c dst, true) := by
  rw [enqueueBridgeLeg, hlegs]
  rfl

theorem mem_radios : dst ∈ radios ↔ dst.toNat < MAX_RADIOS := by
  simp only [radios, List.mem_map, List.mem_range]
  constructor
  · rintro ⟨i, hi, rfl⟩
    have hsmall : i < 2 ^ 8 := Nat.lt_trans hi (by decide)
    rwa [UInt8.toNat_ofNat_of_lt' hsmall]
  · exact fun h => ⟨dst.toNat, h, UInt8.ofNat_toNat⟩

theorem radios_ordered : radios.Pairwise (· < ·) := by decide

/-- The scan stops at the first radio to bridge to. -/
theorem bridgeFirst_cases (hlegs : b.legs = .empty) (radios : List UInt8) :
    (∃ front dst back, radios = front ++ dst :: back ∧
      (∀ d ∈ front, shouldBridgeTo c.eval d b.graph b.dedup c.qos = false) ∧
      shouldBridgeTo c.eval dst b.graph b.dedup c.qos = true ∧
      b.bridgeFirst c radios = (b.send c dst, true)) ∨
    ((∀ d ∈ radios, shouldBridgeTo c.eval d b.graph b.dedup c.qos = false) ∧
      b.bridgeFirst c radios = (b, false)) := by
  induction radios with
  | nil => exact .inr ⟨by simp, rfl⟩
  | cons r rs ih =>
    by_cases hr : shouldBridgeTo c.eval r b.graph b.dedup c.qos = true
    · have hother : (r == c.eval.rxRadio) = false :=
        beq_eq_false_iff_ne.mpr (shouldBridgeTo_iff.mp hr).1.other
      refine .inl ⟨[], r, rs, rfl, by simp, hr, ?_⟩
      simp [bridgeFirst, hother, hr, enqueueBridgeLeg_empty hlegs]
    · have hskip : b.bridgeFirst c (r :: rs) = b.bridgeFirst c rs := by
        rw [bridgeFirst]
        simp [hr]
      rw [hskip]
      have hr := Bool.eq_false_iff.mpr hr
      rcases ih with ⟨front, dst, back, rfl, hfront, hdst, heq⟩ | ⟨hnone, heq⟩
      · exact .inl ⟨r :: front, dst, back, rfl, List.forall_mem_cons.mpr ⟨hr, hfront⟩, hdst, heq⟩
      · exact .inr ⟨List.forall_mem_cons.mpr ⟨hr, hnone⟩, heq⟩

/-- A leg leaves on the first radio that is due, if there is one. -/
theorem evaluateBridgeTargets_legs (h : b.dedup.Holds {} sent) (c : BridgeCall) :
    (∃ dst, c.FirstDue sent b.graph dst ∧ b.evaluateBridgeTargets c = (b.send c dst, true)) ∨
    ((∀ d, ¬ c.Due sent b.graph d) ∧
      b.evaluateBridgeTargets c = ({ b with legs := .empty }, false)) := by
  have hsend : ∀ d, ({ b with legs := .empty } : Bridge).send c d = b.send c d := fun _ => rfl
  unfold evaluateBridgeTargets
  dsimp only
  split
  · -- a unicast whose route leaves by another radio
    rename_i hrouted
    simp only [Bool.and_eq_true, bne_iff_ne] at hrouted
    have honly : ∀ d, c.Due sent b.graph d → d = c.eval.route.egressRadio :=
      fun d hd => (hd.1.unicast hrouted.1.1).2.symm
    split
    · rename_i hdst
      have hdue := (due_iff h).mp hdst
      refine .inl ⟨_, ⟨hdue, fun d hlt hd => ?_⟩, ?_⟩
      · exact UInt8.lt_irrefl _ (honly d hd ▸ hlt)
      · rw [enqueueBridgeLeg_empty rfl, hsend]
    · rename_i hdst
      refine .inr ⟨fun d hd => hdst ((due_iff h).mpr ?_), rfl⟩
      exact honly d hd ▸ hd
  · rcases bridgeFirst_cases (b := { b with legs := .empty }) (c := c) rfl radios with
      ⟨front, dst, back, hradios, hfront, hdst, heq⟩ | ⟨hnone, heq⟩
    · refine .inl ⟨dst, ⟨(due_iff h).mp hdst, fun d hlt hd => ?_⟩, by rw [heq, hsend]⟩
      have hmem : d ∈ radios := mem_radios.mpr hd.1.present
      have hordered := radios_ordered
      rw [hradios] at hmem hordered
      rcases List.mem_append.mp hmem with hmem | hmem
      · exact Bool.eq_false_iff.mp (hfront d hmem) ((due_iff h).mpr hd)
      rcases List.mem_cons.mp hmem with rfl | hmem
      · exact UInt8.lt_irrefl _ hlt
      · have hback := (List.pairwise_cons.mp (List.pairwise_append.mp hordered).2.1).1 d hmem
        exact UInt8.lt_irrefl _ (UInt8.lt_trans hlt hback)
    · refine .inr ⟨fun d hd => ?_, heq⟩
      exact Bool.eq_false_iff.mp (hnone d (mem_radios.mpr hd.1.present)) ((due_iff h).mpr hd)

/-- The commit of a leg is the one the router makes for it. -/
theorem send_bridgeLeg (r : Router) (hr : r.graph = b.graph.relays) :
    (b.send c dst).graph.relays =
      (r.bridgeLeg c.eval.parsed c.snr c.eval.nowMs (dst, c.delay dst)).graph := by
  rw [Router.bridgeLeg, hr]
  rfl

end Bridge

/-! ## Whole runs -/

/-- A bridge and the legs it has sent of packets that name their source, the latest first. -/
structure BridgeHistory where
  bridge : Bridge
  sent : List BridgeDedupEntry

inductive BridgeHistory.Label where
  | bridge (c : BridgeCall)
  /-- the graph becomes another one -/
  | graph (g : BridgeGraph)

namespace BridgeHistory

variable {s t : BridgeHistory} {l : Label}

def next (s : BridgeHistory) : Label → BridgeHistory
  | .bridge c =>
    let b := (s.bridge.evaluateBridgeTargets c).1
    let legs := if c.eval.parsed.fromNode == 0 then [] else b.legs.rows
    ⟨b, legs.map (fun leg => c.entry leg.targetRadio) ++ s.sent⟩
  | .graph g => ⟨{ s.bridge with graph := g }, s.sent⟩

/-- The cache is the end of the legs sent, and none of these is a repetition. -/
structure Recalls (s : BridgeHistory) : Prop where
  holds : s.bridge.dedup.Holds {} s.sent
  spaced : Spaced BRIDGE_DEDUP_SIZE s.sent

theorem Recalls.next (h : s.Recalls) (l : Label) : (s.next l).Recalls := by
  cases l with
  | graph g => exact ⟨h.holds, h.spaced⟩
  | bridge c =>
    rcases Bridge.evaluateBridgeTargets_legs h.holds c with ⟨dst, hdue, heq⟩ | ⟨_, heq⟩
    · by_cases hfrom : c.eval.parsed.fromNode = 0
      · have hsame : s.bridge.dedup.remember c.eval.parsed.fromNode c.eval.parsed.id dst =
            s.bridge.dedup := by
          simp [BridgeDedupCache.remember, hfrom]
        have hnext : s.next (.bridge c) = ⟨s.bridge.send c dst, s.sent⟩ := by
          simp [BridgeHistory.next, heq, hfrom]
        rw [hnext]
        exact ⟨by rw [Bridge.send, hsame]; exact h.holds, h.spaced⟩
      · have hfresh : c.entry dst ∉ s.sent.take BRIDGE_DEDUP_SIZE := hdue.1.2.resolve_left hfrom
        have hid : c.eval.parsed.id ≠ 0 := hdue.1.1.named
        have hunseen : s.bridge.dedup.seen c.eval.parsed.fromNode c.eval.parsed.id dst = false := by
          rw [Bool.eq_false_iff, Ne, seen_iff h.holds hid]
          exact fun hseen => hfresh hseen.2
        have hnote : s.bridge.dedup.remember c.eval.parsed.fromNode c.eval.parsed.id dst =
            s.bridge.dedup.note (c.entry dst) := by
          simp [BridgeDedupCache.remember, hfrom, hid, hunseen, BridgeCall.entry]
        have hnext : s.next (.bridge c) = ⟨s.bridge.send c dst, c.entry dst :: s.sent⟩ := by
          simp [BridgeHistory.next, heq, hfrom, Bridge.send, Bridge.one]
        rw [hnext]
        exact ⟨by rw [Bridge.send, hnote]; exact h.holds.note _, h.spaced.cons hfresh⟩
    · have hnext : s.next (.bridge c) = ⟨{ s.bridge with legs := .empty }, s.sent⟩ := by
        simp [BridgeHistory.next, heq, Table.empty]
      rw [hnext]
      exact ⟨h.holds, h.spaced⟩

end BridgeHistory

/-- The runs of a bridge from a fresh cache on. -/
def bridgeLTS : LTS BridgeHistory BridgeHistory.Label where
  init s := s.bridge.dedup = .new ∧ s.sent = []
  step s l t := s.next l = t

theorem bridgeLTS_recalls : bridgeLTS.Inductive BridgeHistory.Recalls where
  init s hs := by
    obtain ⟨hnew, hsent⟩ := hs
    refine ⟨?_, hsent ▸ Spaced.nil _⟩
    rw [hnew, hsent]
    exact Trail.new_holds _
  step s l t h hs := by
    cases hs
    exact h.next l

/-- No leg is sent again within the next 32, and a call sends a leg exactly on the first radio
where its packet is wanted and no leg of it was among the last 32. -/
theorem bridged_spaced {s : BridgeHistory} (h : bridgeLTS.Reachable s) (c : BridgeCall) :
    Spaced BRIDGE_DEDUP_SIZE s.sent ∧
      ∀ leg, leg ∈ (s.bridge.evaluateBridgeTargets c).1.legs.rows ↔
        leg.frame = c.relay ∧ c.FirstDue s.sent s.bridge.graph leg.targetRadio := by
  have hrecalls := bridgeLTS_recalls.reachable h
  refine ⟨hrecalls.spaced, fun leg => ?_⟩
  rcases Bridge.evaluateBridgeTargets_legs hrecalls.holds c with ⟨dst, hfirst, heq⟩ | ⟨hnone, heq⟩
  · rw [heq]
    change leg ∈ [(⟨dst, c.relay⟩ : BridgeLeg)] ↔ _
    rw [List.mem_singleton]
    constructor
    · rintro rfl
      exact ⟨rfl, hfirst⟩
    · rintro ⟨hframe, hleg⟩
      have hradio : leg.targetRadio = dst := by
        by_contra hne
        rcases UInt8.lt_or_lt_of_ne hne with hlt | hlt
        · exact hfirst.2 _ hlt hleg.1
        · exact hleg.2 _ hlt hfirst.1
      rw [← hradio, ← hframe]
  · rw [heq]
    exact ⟨fun hmem => absurd hmem List.not_mem_nil, fun hleg => absurd hleg.2.1 (hnone _)⟩

/-- A packet for node 3, heard on radio 0; the route to it leaves by radio 1. -/
def crossingCall : BridgeCall where
  eval := {
    rxRadio := 0
    parsed := ⟨3, 2, 7, 8, 3, 3, false, false, 0, 0⟩
    route := ⟨3, 1⟩
    decodedPortnum := some TEXT_MESSAGE_APP
    chutilBelow := fun _ => true
    nowMs := 1000
    fromUs := false
    toUs := false }
  relay := ⟨⟨3, 2, 7, 8, 2, 3, false, false, 3, 1⟩, []⟩
  qos := ⟨8⟩
  snr := 5
  delay := fun _ => 20

def unbridged : BridgeHistory where
  bridge := {
    graph := ⟨⟨.empty, List.nodup_nil⟩, .empty, ⟨1, 0, 60000, .all .inactive, .empty⟩⟩
    dedup := .new
    legs := .empty }
  sent := []

def bridged : BridgeHistory := unbridged.next (.bridge crossingCall)

theorem bridged_sent : bridged.sent = [crossingCall.entry 1] := by decide

/-- It goes out on radio 1 once; when it is heard again nothing is sent. -/
theorem bridged_spaced_crossing :
    bridged.sent = [crossingCall.entry 1] ∧
      (bridged.bridge.evaluateBridgeTargets crossingCall).1.legs.rows = [] := by
  refine ⟨bridged_sent, List.eq_nil_iff_forall_not_mem.mpr fun leg hleg => ?_⟩
  have hreached : bridgeLTS.Reachable bridged :=
    ⟨unbridged, [.bridge crossingCall], ⟨rfl, rfl⟩, .cons rfl (.nil _)⟩
  obtain ⟨-, hdue, -⟩ := ((bridged_spaced hreached crossingCall).2 leg).mp hleg
  have hradio : leg.targetRadio = 1 := (hdue.1.unicast (by decide)).2.symm
  rw [bridged_sent, hradio] at hdue
  exact (hdue.2.resolve_left (by decide)) (by decide)

end Meshrustic.Routing
