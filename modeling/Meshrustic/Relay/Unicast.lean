import Meshrustic.Topology.Routes

/-!
# Unicast relay plan (`mesh-routing/src/unicast_relay.rs`)

For a unicast the node ranks itself and the neighbours that hold the same copy
by what their way to the destination costs: a priced hop to it, the recorded
gateway, or a hop to the next hop we would choose ourselves. The tiers lie one
above the other in one 16-bit cost. At most one or two candidates with a
direct hop keep their place; who has transmitted takes no slot.

A slot count stays below 256, since there are at most
`MAX_UNICAST_CANDIDATES` candidates.
-/
namespace Meshrustic.Relay

open Meshrustic.Graph
open Meshrustic.Topology (DownstreamTable)

def MAX_UNICAST_CANDIDATES : Nat := MAX_EDGES_PER_NODE + 1
def DOWNSTREAM_TIER_COST : Nat := 0x7FFF
def INDIRECT_TIER : Nat := 0x8000
def BEST_EFFORT_SELF_COST : Nat := 0xFFFE
def NO_PATH : Nat := 0xFFFF

/-- mirrors crates/mesh-routing/src/unicast_relay.rs:18-20 -/
def bucket (etxFixed : Nat) : Nat := etxFixed / COST_BUCKET_FIXED * COST_BUCKET_FIXED

/-! ## Candidates -/

/-- mirrors crates/mesh-routing/src/unicast_relay.rs:22-28 -/
structure UnicastRelayContext where
  myNode : UInt32
  edges : EdgeStore
  capability : CapabilityCache
  downstream : DownstreamTable
  downstreamTtlMs : UInt32

/-- mirrors crates/mesh-routing/src/unicast_relay.rs:30-34 -/
structure UnicastCandidate where
  nodeId : UInt32
  cost : Nat
  deriving DecidableEq, Repr

/-- mirrors crates/mesh-routing/src/unicast_relay.rs:56-65 -/
def rankedAhead (packetId : UInt32) (a b : UnicastCandidate) : Bool :=
  let preferHighId := packetId &&& 1 != 0
  a.cost < b.cost ||
    (a.cost == b.cost && if preferHighId then b.nodeId < a.nodeId else a.nodeId < b.nodeId)

/-- A candidate with a priced hop to the destination. -/
def UnicastCandidate.direct (c : UnicastCandidate) : Bool := c.cost < DOWNSTREAM_TIER_COST

namespace UnicastRelayContext

variable (ctx : UnicastRelayContext)

/-- mirrors crates/mesh-routing/src/unicast_relay.rs:68-71 -/
def downstreamRelay (destination nowMs : UInt32) : Option UInt32 :=
  ctx.downstream.getRelay destination nowMs ctx.downstreamTtlMs

/-- mirrors crates/mesh-routing/src/unicast_relay.rs:73-84 -/
def chainEgress (destination nowMs : UInt32) : Option UInt32 :=
  (ctx.downstream.chainEgress destination nowMs ctx.downstreamTtlMs fun n =>
    n != 0 && n != ctx.myNode && (ctx.edges.edge ctx.myNode n).isSome).map (·.node)

/-- mirrors crates/mesh-routing/src/unicast_relay.rs:90-93 -/
def heardThisCopy (heardFrom node : UInt32) : Bool :=
  heardFrom == 0 || node == ctx.myNode || knownToHear ctx.edges heardFrom node

/-- mirrors crates/mesh-routing/src/unicast_relay.rs:95-107 -/
def canFinish (node destination nowMs : UInt32) : Bool :=
  (deliveryHopCostFixed ctx.edges (some ctx.capability) node destination nowMs ctx.myNode).isSome ||
    ctx.downstreamRelay destination nowMs == some node

/-- mirrors crates/mesh-routing/src/unicast_relay.rs:86-88 -/
def reaches (node destination nowMs : UInt32) : Bool := ctx.canFinish node destination nowMs

/-- The price of the hop to our own next hop, a tier above the others.
mirrors crates/mesh-routing/src/unicast_relay.rs:126-136 -/
def indirectCost (node destination myNextHop : UInt32) : Nat :=
  if myNextHop != 0 && myNextHop != destination && myNextHop != node && myNextHop != ctx.myNode &&
      canDeliver ctx.edges (some ctx.capability) node myNextHop then
    match hopCostFixed ctx.edges node myNextHop with
    | none => NO_PATH
    | some cost => bucket (min cost (INDIRECT_TIER - 1)) ||| INDIRECT_TIER
  else NO_PATH

/-- mirrors crates/mesh-routing/src/unicast_relay.rs:109-138 -/
def candidateCost (node destination myNextHop nowMs : UInt32) : Nat :=
  match deliveryHopCostFixed ctx.edges (some ctx.capability) node destination nowMs ctx.myNode with
  | some cost => bucket (min cost (DOWNSTREAM_TIER_COST - 1))
  | none =>
    if ctx.downstreamRelay destination nowMs == some node then DOWNSTREAM_TIER_COST
    else if ctx.chainEgress destination nowMs == some node then DOWNSTREAM_TIER_COST
    else ctx.indirectCost node destination myNextHop

/-- mirrors crates/mesh-routing/src/unicast_relay.rs:140-160 -/
def betterPositionedNeighbor (heardFrom destination nowMs : UInt32)
    (hasTransmitted : UInt32 → Bool) : Bool :=
  (ctx.edges.listed ctx.myNode).any fun e =>
    let n := e.toNode
    n != heardFrom && n != ctx.myNode && !isPlaceholderNode n &&
      ctx.capability.status n == .srActive && hasTransmitted n &&
      canDeliver ctx.edges (some ctx.capability) heardFrom n && ctx.reaches n destination nowMs

end UnicastRelayContext

/-- What a unicast plan is made for. -/
structure UnicastRequest where
  packetId : UInt32
  source : UInt32
  heardFrom : UInt32
  destination : UInt32
  myNextHop : UInt32
  nowMs : UInt32
  hasTransmitted : UInt32 → Bool

/-- mirrors crates/mesh-routing/src/sr_log.rs:299-316 -/
inductive SrSkipReason where
  | wireGate | qos | duplicate | rateLimited | ownRebroadcast | unknownDestination | betterNeighbor
  | routerExpected | nextHopIsRelayer | deadEndHop | unicastCovered | noRelayPath
  | replyRetracesLink | alreadyCovered | unverifiedBacktrack | lastHopReserved
  deriving DecidableEq, Repr

section

variable (ctx : UnicastRelayContext) (r : UnicastRequest)

/-- Somebody with the copy serves the destination: the gateway of both ends, the
transmitter, or a neighbour it reaches.
mirrors crates/mesh-routing/src/unicast_relay.rs:175-192 -/
def unicastCovered : Bool :=
  (match ctx.downstreamRelay r.source r.nowMs with
    | none => false
    | some relay =>
      ctx.downstreamRelay r.destination r.nowMs == some relay && relay != ctx.myNode &&
        (relay == r.heardFrom || r.hasTransmitted relay)) ||
  (r.heardFrom != 0 && r.heardFrom != ctx.myNode && r.heardFrom != r.source &&
    (ctx.reaches r.heardFrom r.destination r.nowMs ||
      ctx.betterPositionedNeighbor r.heardFrom r.destination r.nowMs r.hasTransmitted))

/-- mirrors crates/mesh-routing/src/unicast_relay.rs:197-200 -/
def myCost : Nat :=
  let cost := ctx.candidateCost ctx.myNode r.destination r.myNextHop r.nowMs
  if cost == NO_PATH && r.myNextHop == ctx.myNode then BEST_EFFORT_SELF_COST else cost

/-- One turn of the scan over our edges.
mirrors crates/mesh-routing/src/unicast_relay.rs:210-229 -/
def neighborCandidate (edge : Edge) : Option UnicastCandidate :=
  let n := edge.toNode
  if n == r.heardFrom || n == r.source || n == ctx.myNode || isPlaceholderNode n then none
  else if ctx.capability.isLegacyRouter n || ctx.capability.status n != .srActive then none
  else if !ctx.heardThisCopy r.heardFrom n then none
  else
    let cost := ctx.candidateCost n r.destination r.myNextHop r.nowMs
    if cost == NO_PATH then none else some ⟨n, cost⟩

/-- mirrors crates/mesh-routing/src/unicast_relay.rs:201-207 -/
def myCandidate : List UnicastCandidate :=
  if myCost ctx r == NO_PATH then [] else [⟨ctx.myNode, myCost ctx r⟩]

/-- mirrors crates/mesh-routing/src/unicast_relay.rs:194-230 -/
def unicastCandidates : List UnicastCandidate :=
  (myCandidate ctx r ++
    (ctx.edges.listed ctx.myNode).filterMap (neighborCandidate ctx r)).take MAX_UNICAST_CANDIDATES

/-- mirrors crates/mesh-routing/src/unicast_relay.rs:232-238 -/
def sortCandidates (packetId : UInt32) (candidates : List UnicastCandidate) :
    List UnicastCandidate :=
  (candidates.foldl (fun sorted x => bubble (rankedAhead packetId) x sorted) []).reverse

/-- mirrors crates/mesh-routing/src/unicast_relay.rs:240 -/
def destSr : Bool := CapabilityCache.isSignalRouting (ctx.capability.status r.destination)

/-- mirrors crates/mesh-routing/src/unicast_relay.rs:244-245 -/
def maxDirects : Nat := if destSr ctx r then 2 else 1

end

/-- Drops the direct candidates behind the first `maxDirects`.
mirrors crates/mesh-routing/src/unicast_relay.rs:246-258 -/
def keepDirects (maxDirects : Nat) : Nat → List UnicastCandidate → List UnicastCandidate
  | _, [] => []
  | keptDirects, c :: cs =>
    if c.direct then
      if maxDirects ≤ keptDirects then keepDirects maxDirects keptDirects cs
      else c :: keepDirects maxDirects (keptDirects + 1) cs
    else c :: keepDirects maxDirects keptDirects cs

/-- mirrors crates/mesh-routing/src/unicast_relay.rs:244-259 -/
def capDirects (maxDirects : Nat) : List UnicastCandidate → List UnicastCandidate
  | [] => []
  | c :: cs => if c.direct then keepDirects maxDirects 0 (c :: cs) else c :: cs

/-- The variables of the loop that hands out the slots. -/
structure SlotScan where
  slot : Nat := 0
  mySlot : Option Nat := none
  myDirect : Bool := false
  lastNonDirectSlot : Option Nat := none
  nonDirectSlots : Nat := 0
  ranked : List UInt32 := []

/-- mirrors crates/mesh-routing/src/unicast_relay.rs:284-302 -/
def SlotScan.step (myNode : UInt32) (hasTransmitted : UInt32 → Bool) (s : SlotScan)
    (c : UnicastCandidate) : SlotScan :=
  if hasTransmitted c.nodeId then s
  else {
    slot := s.slot + 1
    mySlot := if c.nodeId == myNode then some s.slot else s.mySlot
    myDirect := if c.nodeId == myNode then c.direct else s.myDirect
    lastNonDirectSlot := if c.direct then s.lastNonDirectSlot else some s.slot
    nonDirectSlots := if c.direct then s.nonDirectSlots else s.nonDirectSlots + 1
    ranked := pushLog s.ranked c.nodeId }

/-- A plan with the three fields only a unicast sets.
mirrors crates/mesh-routing/src/broadcast_relay.rs:23-53 -/
structure UnicastRelayPlan extends BroadcastRelayPlan where
  lastHopBackup : Bool
  nonfinalFlood : Bool
  hasNonfinalFloodSlot : Bool

section

variable (ctx : UnicastRelayContext) (r : UnicastRequest)

/-- The candidates in their order, before and after the cap. -/
def sortedCandidates : List UnicastCandidate := sortCandidates r.packetId (unicastCandidates ctx r)

def keptCandidates : List UnicastCandidate := capDirects (maxDirects ctx r) (sortedCandidates ctx r)

/-- A direct hop of ours that the cap has dropped.
mirrors crates/mesh-routing/src/unicast_relay.rs:241-263 -/
def lastHopReserved : Bool :=
  (match sortedCandidates ctx r with
    | [] => false
    | c :: _ => c.direct) &&
  ((sortedCandidates ctx r).any fun c => c.nodeId == ctx.myNode && c.direct) &&
  !(keptCandidates ctx r).any fun c => c.nodeId == ctx.myNode

/-- mirrors crates/mesh-routing/src/unicast_relay.rs:163-313 -/
def planUnicastRelay : Except SrSkipReason UnicastRelayPlan :=
  if unicastCovered ctx r then .error .unicastCovered
  else if lastHopReserved ctx r then .error .lastHopReserved
  else
    let scan := (keptCandidates ctx r).foldl (SlotScan.step ctx.myNode r.hasTransmitted) {}
    match scan.mySlot with
    | none => .error .noRelayPath
    | some mySlot => .ok {
        shouldRelay := true
        slotDelayMs := 0
        slotIndex := mySlot
        candidateCount := max scan.slot 1
        ranked := scan.ranked
        reason := .unicastCost
        evaluated := ((keptCandidates ctx r).map fun c => (c.nodeId, 0, 0, c.cost)).take RANKED_LOG
        preCovered := 0
        uncovered := []
        slotsGiven := 0
        reservedSlots := 0
        reservedRanked := 0
        absorbed := []
        coverageFor := 0
        lastHopBackup := scan.myDirect && destSr ctx r && mySlot == 1
        nonfinalFlood :=
          !scan.myDirect && decide (2 ≤ scan.nonDirectSlots) &&
            scan.lastNonDirectSlot == some mySlot
        hasNonfinalFloodSlot := decide (2 ≤ scan.nonDirectSlots) }

end

end Meshrustic.Relay
