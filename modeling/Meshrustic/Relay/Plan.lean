import Meshrustic.Graph.Coverage
import Meshrustic.Relay.Window

/-!
# Broadcast relay plan (`mesh-routing/src/broadcast_relay.rs`)

For a broadcast heard from a transmitter the node ranks the relays it knows
by what each would newly cover, and gives each a position; it relays itself
when its turn comes before everybody is covered. Routers that relay in any
case have a position reserved. Behind the ranking stand three fallbacks: we
are the downstream gateway, we know no other candidate, or the originator
still needs to hear a rebroadcast.

The arrays of the plan that only feed the log (`ranked`, `evaluated`,
`absorbed`, `uncovered`) are lists cut at their capacity.
-/
namespace Meshrustic.Relay

open Meshrustic.Admin Meshrustic.Graph

def MAX_COVERED : Nat := MAX_EDGES_PER_NODE + 8
def MAX_CANDIDATES : Nat := MAX_EDGES_PER_NODE + 4
def RANKED_LOG : Nat := 4
def UNCOVERED_LOG : Nat := 6
def COST_BUCKET_FIXED : Nat := 50
def BIDI_ETX_CEILING_FIXED : Nat := 2000
def MAX_DOWNSTREAM : Nat := 900
def DOWNSTREAM_TTL_MS : Nat := 10800000

/-- mirrors crates/mesh-routing/src/graph/downstream.rs:14-21 -/
structure DownstreamEntry where
  destination : UInt32
  relay : UInt32
  costFixed : UInt16
  lastUpdateMs : UInt32

/-- mirrors crates/mesh-routing/src/graph/downstream.rs:65-87 -/
def getRelay (downstream : Table MAX_DOWNSTREAM DownstreamEntry) (destination nowMs : UInt32)
    (ttlMs : Nat) : Option UInt32 :=
  (downstream.rows.foldl
    (fun (best : Option UInt32 × Nat) entry =>
      if entry.destination != destination then best
      else if ttlMs ≤ (nowMs - entry.lastUpdateMs).toNat then best
      else if entry.costFixed.toNat < best.2 then (some entry.relay, entry.costFixed.toNat)
      else best)
    (none, 0xFFFF)).1

/-- mirrors crates/mesh-routing/src/broadcast_relay.rs:72-85 -/
inductive RelayReason where
  | none | ranked | downstream | sparse | unicastCost | acknowledgement
  deriving DecidableEq, Repr

/-- mirrors crates/mesh-routing/src/broadcast_relay.rs:167-174 -/
structure BroadcastRelayContext extends CoverageContext where
  downstream : Table MAX_DOWNSTREAM DownstreamEntry

/-! ## Coverage of a relay -/

section

variable (ctx : BroadcastRelayContext)

/-- mirrors crates/mesh-routing/src/broadcast_relay.rs:233-249 -/
def admitsCoverage (relay target nowMs : UInt32) : Bool :=
  if ctx.silent target nowMs then false
  else if ctx.droppedCoverage.blocks target then false
  else ctx.covers relay target || ctx.owner target == relay

variable {ctx} in
theorem admitsCoverage_iff {relay target nowMs : UInt32} :
    admitsCoverage ctx relay target nowMs = true ↔
      ctx.silent target nowMs = false ∧ ctx.droppedCoverage.blocks target = false ∧
        (ctx.covers relay target = true ∨ ctx.owner target = relay) := by
  unfold admitsCoverage
  cases ctx.silent target nowMs with
  | true => simp
  | false =>
    cases ctx.droppedCoverage.blocks target with
    | true => simp
    | false => simp

/-- One turn of the scan over the relay's list.
mirrors crates/mesh-routing/src/broadcast_relay.rs:187-206 -/
def coveredTarget (relay nowMs : UInt32) (edge : Edge) : Option UInt32 :=
  let target := edge.toNode
  if target == 0 || isPlaceholderNode target then none
  else if relay == ctx.myNode && edge.source != .reported then none
  else if !edge.source.isMeasured then none
  else if !admitsCoverage ctx relay target nowMs then none
  else some target

/-- A list has at most `MAX_EDGES_PER_NODE` entries, so `out` never fills.
mirrors crates/mesh-routing/src/broadcast_relay.rs:176-208 -/
def getCoverageIfRelays (relay nowMs : UInt32) : List UInt32 :=
  (ctx.edges.listed relay).filterMap (coveredTarget ctx relay nowMs)

/-- mirrors crates/mesh-routing/src/broadcast_relay.rs:210-231 -/
def absorbRelayCoverage (covered : NodeSet MAX_COVERED) (relay nowMs : UInt32) :
    NodeSet MAX_COVERED :=
  (ctx.edges.listed relay).foldl
    (fun covered edge =>
      if !edge.source.isMeasured then covered
      else if admitsCoverage ctx relay edge.toNode nowMs then covered.insert edge.toNode
      else covered)
    (covered.insert relay)

/-- mirrors crates/mesh-routing/src/broadcast_relay.rs:507-525 -/
def buildAlreadyCovered (source heardFrom : UInt32) : NodeSet MAX_COVERED :=
  (source :: heardFrom :: ((ctx.edges.listed heardFrom).map (·.toNode)).filter fun target =>
    target != 0 && ctx.covers heardFrom target).foldl NodeSet.insert .new

/-- mirrors crates/mesh-routing/src/broadcast_relay.rs:527-550 -/
def buildCandidates (source heardFrom : UInt32) : NodeSet MAX_CANDIDATES :=
  (ctx.myNode :: ((ctx.edges.listed ctx.myNode).filter fun edge =>
    !(edge.toNode == 0 || edge.toNode == heardFrom || edge.toNode == source || !edge.hearsUs) &&
      (ctx.capability.status edge.toNode == .srActive ||
        ctx.capability.isImmediateRelayRouter edge.toNode)).map (·.toNode)).foldl
    NodeSet.insert .new

/-- mirrors crates/mesh-routing/src/broadcast_relay.rs:552-557 -/
def stockCanHearTransmitter (edges : EdgeStore) (stock heardFrom : UInt32) : Bool :=
  (edges.edge stock heardFrom).isSome

/-- mirrors crates/mesh-routing/src/broadcast_relay.rs:375-377 -/
def mayTakeEarlyWindow (candidate : UInt32) : Bool :=
  ctx.capability.role candidate == some DEVICE_ROLE_ROUTER

/-- mirrors crates/mesh-routing/src/broadcast_relay.rs:371-373 -/
def roleRank (candidate : UInt32) : Nat := if mayTakeEarlyWindow ctx candidate then 1 else 0

end

/-! ## Choosing a relay -/

/-- mirrors crates/mesh-routing/src/broadcast_relay.rs:13-21 -/
structure RelayCandidate where
  nodeId : UInt32 := 0
  coverageCount : Nat := 0
  avgCostFixed : Nat := 0
  tier : Nat := 0
  roleRank : Nat := 0
  coverageFor : UInt32 := 0

/-- The bucket of the mean price, as the code's floats compute it.
mirrors crates/mesh-routing/src/broadcast_relay.rs:424-451 -/
def avgCostFixed (costs : List Nat) : Nat :=
  if costs.isEmpty then 0
  else
    let total : Float32 := costs.foldl (fun t c => t + Float32.ofNat c / 100.0) 0.0
    let mean := (total / Float32.ofNat costs.length * 100.0).toUInt16.toNat
    mean / COST_BUCKET_FIXED * COST_BUCKET_FIXED

/-- The targets of `candidate` that nobody covers yet. -/
def uniqueTargets (ctx : BroadcastRelayContext) (covered : NodeSet MAX_COVERED)
    (candidate nowMs : UInt32) : List UInt32 :=
  (getCoverageIfRelays ctx candidate nowMs).filter fun node => !covered.contains node

/-- mirrors crates/mesh-routing/src/broadcast_relay.rs:400-502 -/
def priceCandidate (ctx : BroadcastRelayContext) (covered : NodeSet MAX_COVERED)
    (source nowMs candidate : UInt32) : Option RelayCandidate :=
  match uniqueTargets ctx covered candidate nowMs with
  | [] => none
  | first :: rest => some {
      nodeId := candidate
      coverageCount := rest.length + 1
      avgCostFixed := avgCostFixed ((first :: rest).filterMap fun target =>
        deliveryHopCostFixed ctx.edges (some ctx.capability) candidate target nowMs ctx.myNode)
      tier :=
        if source == 0 then 0
        else
          match ctx.edges.edge candidate source with
          | none => 0
          | some edge =>
            if edge.hearsUs && edge.etxFixed.toNat < BIDI_ETX_CEILING_FIXED then 1 else 0
      roleRank := roleRank ctx candidate
      coverageFor := first }

/-- mirrors crates/mesh-routing/src/broadcast_relay.rs:471-491 -/
def isBetter (preferHighNodeId : Bool) (c best : RelayCandidate) : Bool :=
  best.nodeId == 0 || best.roleRank < c.roleRank ||
    (c.roleRank == best.roleRank && best.tier < c.tier) ||
    (c.roleRank == best.roleRank && c.tier == best.tier && best.coverageCount < c.coverageCount) ||
    (c.roleRank == best.roleRank && c.tier == best.tier && c.coverageCount == best.coverageCount &&
      c.avgCostFixed < best.avgCostFixed) ||
    (c.roleRank == best.roleRank && c.tier == best.tier && c.coverageCount == best.coverageCount &&
      c.avgCostFixed == best.avgCostFixed &&
      if preferHighNodeId then best.nodeId < c.nodeId else c.nodeId < best.nodeId)

/-- What a plan is made for. -/
structure PlanRequest where
  packetId : UInt32
  source : UInt32
  heardFrom : UInt32
  broadcastDest : UInt32
  nowMs : UInt32
  halfAirtimeMs : Nat
  slotTimeMs : Nat
  hasTransmitted : UInt32 → Bool
  ackEligible : Bool

def PlanRequest.preferHigh (r : PlanRequest) : Bool := (r.packetId &&& 1) != 0

/-- One turn of the scan over the candidates. -/
def considerCandidate (ctx : BroadcastRelayContext) (r : PlanRequest)
    (covered : NodeSet MAX_COVERED) (best : RelayCandidate) (candidate : UInt32) :
    RelayCandidate :=
  if r.hasTransmitted candidate then best
  else
    match priceCandidate ctx covered r.source r.nowMs candidate with
    | none => best
    | some c => if isBetter r.preferHigh c best then c else best

/-- mirrors crates/mesh-routing/src/broadcast_relay.rs:379-505 -/
def findBestRelayCandidate (ctx : BroadcastRelayContext) (r : PlanRequest)
    (candidates : NodeSet MAX_CANDIDATES) (covered : NodeSet MAX_COVERED) : RelayCandidate :=
  candidates.ids.rows.foldl (considerCandidate ctx r covered) {}

/-- What the first choice looked at, for the log: node, new and all targets,
price. A candidate has one entry, and four fit.
mirrors crates/mesh-routing/src/broadcast_relay.rs:418-427, 454-459 -/
def evaluatedOf (ctx : BroadcastRelayContext) (r : PlanRequest)
    (candidates : NodeSet MAX_CANDIDATES) (covered : NodeSet MAX_COVERED) :
    List (UInt32 × Nat × Nat × Nat) :=
  ((candidates.ids.rows.filter fun c => !r.hasTransmitted c).map fun c =>
    (c, (uniqueTargets ctx covered c r.nowMs).length, (getCoverageIfRelays ctx c r.nowMs).length,
      match priceCandidate ctx covered r.source r.nowMs c with
      | none => 0
      | some p => p.avgCostFixed)).take RANKED_LOG

/-! ## The plan -/

/-- `push_ranked`, `push_absorbed`: append while the log has room. -/
def pushLog {α : Type} (log : List α) (a : α) : List α :=
  if log.length < RANKED_LOG then log ++ [a] else log

/-- The planner's variables. -/
structure PlanState where
  covered : NodeSet MAX_COVERED
  candidates : NodeSet MAX_CANDIDATES
  positions : PositionAllocator
  shouldRelay : Bool := false
  reason : RelayReason := .none
  myDelay : Nat := 0
  mySlotIndex : Nat := 0
  coverageFor : UInt32 := 0
  slotsGiven : Nat := 0
  reservedSlots : Nat := 0
  reservedRanked : Nat := 0
  absorbed : List (UInt32 × Nat) := []
  ranked : List UInt32 := []
  evaluated : List (UInt32 × Nat × Nat × Nat) := []
  firstPick : Bool := true

/-- Credits a copy that is already on the air. -/
def PlanState.absorb (st : PlanState) (ctx : BroadcastRelayContext) (relay nowMs : UInt32) :
    PlanState :=
  let covered := absorbRelayCoverage ctx st.covered relay nowMs
  { st with
    covered := covered
    absorbed := pushLog st.absorbed (relay, covered.length - st.covered.length) }

/-- A router among our neighbours: never a candidate, and given a position if
it hears the transmitter.
mirrors crates/mesh-routing/src/broadcast_relay.rs:613-639 -/
def reserve (ctx : BroadcastRelayContext) (r : PlanRequest) (st : PlanState) (neighbor : UInt32) :
    PlanState :=
  if neighbor == 0 || neighbor == r.heardFrom || neighbor == r.source then st
  else if !ctx.capability.isImmediateRelayRouter neighbor then st
  else if !stockCanHearTransmitter ctx.edges neighbor r.heardFrom then
    { st with candidates := st.candidates.erase neighbor }
  else
    let st := { st with
      candidates := st.candidates.erase neighbor
      ranked := pushLog st.ranked neighbor
      reservedRanked := st.reservedRanked + 1 }
    let st :=
      if r.hasTransmitted neighbor then st.absorb ctx neighbor r.nowMs
      else { st with slotsGiven := st.slotsGiven + 1, reservedSlots := st.reservedSlots + 1 }
    { st with positions := st.positions.takeReserved.2 }

/-- Moves the candidates that may not take the early window to a pool of
their own.
mirrors crates/mesh-routing/src/broadcast_relay.rs:641-653 -/
def splitLate (ctx : BroadcastRelayContext) :
    Nat → Nat → NodeSet MAX_CANDIDATES → NodeSet MAX_CANDIDATES →
      NodeSet MAX_CANDIDATES × NodeSet MAX_CANDIDATES
  | 0, _, candidates, late => (candidates, late)
  | fuel + 1, i, candidates, late =>
    match candidates.ids.rows[i]? with
    | none => (candidates, late)
    | some id =>
      if mayTakeEarlyWindow ctx id then splitLate ctx fuel (i + 1) candidates late
      else splitLate ctx fuel i (candidates.erase id) (late.insert id)

/-- Ranks one pool until it is empty, nobody in it adds coverage, or it is
our turn. Each turn takes one candidate out, so the pool's size bounds them.
mirrors crates/mesh-routing/src/broadcast_relay.rs:664-708 -/
def rankPool (ctx : BroadcastRelayContext) (r : PlanRequest) (early : Bool) :
    Nat → PlanState → NodeSet MAX_CANDIDATES → PlanState
  | 0, st, _ => st
  | fuel + 1, st, pool =>
    if pool.length == 0 then st
    else
      let best := findBestRelayCandidate ctx r pool st.covered
      let st := { st with
        evaluated := if st.firstPick then evaluatedOf ctx r pool st.covered else st.evaluated
        firstPick := false }
      if best.nodeId == 0 then st
      else
        let pool := pool.erase best.nodeId
        if r.hasTransmitted best.nodeId then
          rankPool ctx r early fuel (st.absorb ctx best.nodeId r.nowMs) pool
        else
          let taken := if early then st.positions.takeRung else st.positions.takeLateRung
          let index := st.positions.nextIndex
          let st := { st with ranked := pushLog st.ranked best.nodeId, positions := taken.2 }
          if best.nodeId == ctx.myNode then
            { st with
              shouldRelay := true
              reason := .ranked
              mySlotIndex := index
              myDelay := taken.1
              coverageFor := best.coverageFor }
          else rankPool ctx r early fuel { st with slotsGiven := st.slotsGiven + 1 } pool

/-- Both pools, the early one first.
mirrors crates/mesh-routing/src/broadcast_relay.rs:655-709 -/
def rank (ctx : BroadcastRelayContext) (r : PlanRequest) (st : PlanState) : PlanState :=
  let pools := splitLate ctx st.candidates.length 0 st.candidates .new
  let st := rankPool ctx r true pools.1.length st pools.1
  if st.shouldRelay then st else rankPool ctx r false pools.2.length st pools.2

/-- We are the recorded gateway of the source or of the destination.
mirrors crates/mesh-routing/src/broadcast_relay.rs:711-722 -/
def relayDownstream (ctx : BroadcastRelayContext) (r : PlanRequest) (st : PlanState) : PlanState :=
  if !st.shouldRelay &&
      (getRelay ctx.downstream r.source r.nowMs DOWNSTREAM_TTL_MS == some ctx.myNode ||
        getRelay ctx.downstream r.broadcastDest r.nowMs DOWNSTREAM_TTL_MS == some ctx.myNode) then
    { st with
      shouldRelay := true
      reason := .downstream
      mySlotIndex := st.positions.nextIndex
      myDelay := st.positions.firstFreeMs }
  else st

/-- mirrors crates/mesh-routing/src/broadcast_relay.rs:724-729 -/
def relaySparse (initialCandidates : Nat) (st : PlanState) : PlanState :=
  if !st.shouldRelay && initialCandidates ≤ 1 then
    { st with
      shouldRelay := true
      reason := .sparse
      mySlotIndex := st.positions.nextIndex
      myDelay := st.positions.firstFreeMs }
  else st

/-! ### The acknowledgement fallback -/

/-- One pass of the insertion sort: `x` moves towards the front of the sorted
part, here reversed, while it is better than the entry before it. -/
def bubble {α : Type} (better : α → α → Bool) (x : α) : List α → List α
  | [] => [x]
  | y :: ys => if better x y then y :: bubble better x ys else x :: y :: ys

/-- mirrors crates/mesh-routing/src/broadcast_relay.rs:313-335 -/
def sortEntries (preferHigh : Bool) (entries : List (UInt32 × Nat)) : List (UInt32 × Nat) :=
  let better (a b : UInt32 × Nat) : Bool :=
    if a.2 / COST_BUCKET_FIXED != b.2 / COST_BUCKET_FIXED then
      a.2 / COST_BUCKET_FIXED < b.2 / COST_BUCKET_FIXED
    else if preferHigh then b.1 < a.1 else a.1 < b.1
  (entries.foldl (fun sorted x => bubble better x sorted) []).reverse

/-- mirrors crates/mesh-routing/src/broadcast_relay.rs:251-257 -/
structure AcknowledgementPlan where
  myDelay : Nat
  slotsGiven : Nat
  ranked : List UInt32

/-- The entries before ours, and our delay behind them; `none` if we are not
among them.
mirrors crates/mesh-routing/src/broadcast_relay.rs:337-362 -/
def acknowledgementSlot (myNode : UInt32) (half : Nat) :
    List (UInt32 × Nat) → Nat → AcknowledgementPlan → Option AcknowledgementPlan
  | [], _, _ => none
  | (node, _) :: rest, delay, plan =>
    let plan := { plan with ranked := pushLog plan.ranked node }
    if node == myNode then some { plan with myDelay := delay }
    else
      acknowledgementSlot myNode half rest (min (delay + half) U32_MAX)
        { plan with slotsGiven := plan.slotsGiven + 1 }

/-- mirrors crates/mesh-routing/src/broadcast_relay.rs:289-306 -/
def acknowledgementEntry (ctx : BroadcastRelayContext) (source node : UInt32) :
    Option (UInt32 × Nat) :=
  if node == 0 || node == source then none
  else if node != ctx.myNode &&
      !(ctx.capability.status node == .srActive || ctx.capability.isImmediateRelayRouter node) then
    none
  else (acknowledgementPriceFixed ctx.edges node source).map fun price => (node, price)

/-- mirrors crates/mesh-routing/src/broadcast_relay.rs:261-363 -/
def planAcknowledgement (ctx : BroadcastRelayContext) (r : PlanRequest) (half : Nat) :
    Option AcknowledgementPlan :=
  if !ctx.myNodeRelays then none
  else if (ctx.edges.findNode ctx.myNode).isNone then none
  else
    let neighbors := (ctx.edges.listed ctx.myNode).map (·.toNode)
    if neighbors.any fun neighbor =>
        neighbor != 0 && neighbor != r.source && ctx.capability.willNotCancelForUs neighbor &&
          stockCanHearTransmitter ctx.edges neighbor r.heardFrom then none
    else
      let entries :=
        ((ctx.myNode :: neighbors).filterMap (acknowledgementEntry ctx r.source)).take MAX_CANDIDATES
      acknowledgementSlot ctx.myNode half (sortEntries r.preferHigh entries)
        (relayFloorMs r.slotTimeMs) ⟨0, 0, []⟩

/-- mirrors crates/mesh-routing/src/broadcast_relay.rs:732-745 -/
def relayAcknowledgement (ctx : BroadcastRelayContext) (r : PlanRequest) (half : Nat)
    (st : PlanState) : PlanState :=
  if !st.shouldRelay && st.slotsGiven == 0 && r.ackEligible then
    match planAcknowledgement ctx r half with
    | none => st
    | some ack =>
      { st with
        shouldRelay := true
        reason := .acknowledgement
        myDelay := ack.myDelay
        mySlotIndex := ack.slotsGiven
        slotsGiven := ack.slotsGiven
        ranked := ack.ranked.foldl pushLog st.ranked }
  else st

/-- mirrors crates/mesh-routing/src/broadcast_relay.rs:23-50 -/
structure BroadcastRelayPlan where
  shouldRelay : Bool
  slotDelayMs : Nat
  slotIndex : Nat
  candidateCount : Nat
  ranked : List UInt32
  reason : RelayReason
  evaluated : List (UInt32 × Nat × Nat × Nat)
  preCovered : Nat
  uncovered : List UInt32
  slotsGiven : Nat
  reservedSlots : Nat
  reservedRanked : Nat
  absorbed : List (UInt32 × Nat)
  coverageFor : UInt32

/-- The planner's variables before the reservations. -/
def planStart (ctx : BroadcastRelayContext) (r : PlanRequest) (half : Nat) : PlanState where
  covered := buildAlreadyCovered ctx r.source r.heardFrom
  candidates := buildCandidates ctx r.source r.heardFrom
  positions := .new r.slotTimeMs half

/-- The variables when the ranking is over. -/
def planRanked (ctx : BroadcastRelayContext) (r : PlanRequest) (half : Nat) : PlanState :=
  rank ctx r (((ctx.edges.listed ctx.myNode).map (·.toNode)).foldl (reserve ctx r)
    (planStart ctx r half))

/-- mirrors crates/mesh-routing/src/broadcast_relay.rs:559-775 -/
def planBroadcastRelay (ctx : BroadcastRelayContext) (r : PlanRequest) : BroadcastRelayPlan :=
  let half := max r.halfAirtimeMs MIN_RUNG_SPACING_MS
  let start := planStart ctx r half
  let initialCandidates := start.candidates.length
  let st := relayAcknowledgement ctx r half
    (relaySparse initialCandidates (relayDownstream ctx r (planRanked ctx r half)))
  { shouldRelay := st.shouldRelay
    slotDelayMs := st.myDelay
    slotIndex := st.mySlotIndex
    candidateCount := max initialCandidates 1
    ranked := st.ranked
    reason := st.reason
    evaluated := st.evaluated
    preCovered := start.covered.length
    uncovered := (uniqueTargets ctx start.covered ctx.myNode r.nowMs).take UNCOVERED_LOG
    slotsGiven := st.slotsGiven
    reservedSlots := st.reservedSlots
    reservedRanked := st.reservedRanked
    absorbed := st.absorbed
    coverageFor := st.coverageFor }

end Meshrustic.Relay
