import Meshrustic.Graph.Route
import Meshrustic.RateLimit.Limiter

/-!
# Coverage (`mesh-routing/src/graph/route.rs`, `neighbor_graph.rs`)

Who a transmission of a node reaches, as this node's graph knows it. `covers`
asks for evidence that the receiver hears the sender over a link that is not
hopeless; `coverageOwner` names one relay for a neighbour that publishes no
list. `uniqueCoverageNeighbor` is the question of the cancel path: is there a
neighbour only we serve?
-/
namespace Meshrustic.Graph

open Meshrustic.Admin Meshrustic.RateLimit

def COVERAGE_ETX_CEILING_FIXED : Nat := 700
def OWNER_COST_BUCKET_FIXED : Nat := 50
def PUBLISHER_SILENCE_MS : Nat := 2 * TOPOLOGY_BROADCAST_MS + 20000

/-- mirrors crates/mesh-routing/src/graph/route.rs:194-206 -/
def knownToHear (edges : EdgeStore) (a b : UInt32) : Bool :=
  (match edges.edge a b with
    | none => false
    | some e => e.hearsUs) ||
  (edges.edge b a).isSome

/-- mirrors crates/mesh-routing/src/graph/route.rs:182-192 -/
def canDeliver (edges : EdgeStore) (capability : Option CapabilityCache) (a b : UInt32) : Bool :=
  knownToHear edges a b || !publishesTopology capability b

/-- mirrors crates/mesh-routing/src/graph/route.rs:219-224 -/
def measuredEdge (edges : EdgeStore) (node peer : UInt32) : Option Edge :=
  (edges.edge node peer).filter fun e => e.source.isMeasured

/-- mirrors crates/mesh-routing/src/graph/route.rs:215-217 -/
def measuredEtx (edges : EdgeStore) (node peer : UInt32) : Option Nat :=
  (measuredEdge edges node peer).map fun e => e.etxFixed.toNat

/-- mirrors crates/mesh-routing/src/graph/route.rs:227-232 -/
def hopCostFixed (edges : EdgeStore) (a b : UInt32) : Option Nat :=
  match measuredEtx edges b a with
  | some cost => some cost
  | none => measuredEtx edges a b

/-- mirrors crates/mesh-routing/src/graph/route.rs:278-294 -/
def deliveryDirectionCostFixed (edges : EdgeStore) (capability : Option CapabilityCache)
    (a b nowMs myNode : UInt32) : Option Nat :=
  match measuredEdge edges b a with
  | some edge => some (pricedHopCostFixed edge b myNode nowMs false)
  | none =>
    (measuredEdge edges a b).map fun edge =>
      pricedHopCostFixed edge a myNode nowMs (publishesTopology capability b)

/-- mirrors crates/mesh-routing/src/graph/route.rs:296-308 -/
def deliveryHopCostFixed (edges : EdgeStore) (capability : Option CapabilityCache)
    (a b nowMs myNode : UInt32) : Option Nat :=
  if !canDeliver edges capability a b then none
  else deliveryDirectionCostFixed edges capability a b nowMs myNode

/-- mirrors crates/mesh-routing/src/graph/route.rs:342-361 -/
def acknowledgementPriceFixed (edges : EdgeStore) (candidate source : UInt32) : Option Nat :=
  if source == 0 || candidate == 0 || candidate == source then none
  else if isPlaceholderNode source || isPlaceholderNode candidate then none
  else
    match measuredEdge edges candidate source with
    | none => none
    | some edge =>
      if !edge.hearsUs then none
      else
        let cost := (hopCostFixed edges candidate source).getD edge.etxFixed.toNat
        if COVERAGE_ETX_CEILING_FIXED < cost then none else some cost

/-- What `coverage_owner` knows of one candidate: its key, tier before cost
bucket. `none` is a `continue`.
mirrors crates/mesh-routing/src/graph/route.rs:379-420 -/
def ownerKey (edges : EdgeStore) (capability : CapabilityCache) (me : UInt32) (meRelays : Bool)
    (target candidate : UInt32) : Option (Nat × Nat) :=
  if candidate == target || isPlaceholderNode candidate ||
      (match capability.role candidate with
        | none => false
        | some role => roleIsMute role) then none
  else if candidate != me && !edges.hasDirectReportedEdgeTo me candidate then none
  else
    match measuredEdge edges candidate target with
    | none => none
    | some edge =>
      if COVERAGE_ETX_CEILING_FIXED < edge.etxFixed.toNat then none
      else
        let bucket := edge.etxFixed.toNat / OWNER_COST_BUCKET_FIXED
        if candidate == me then if !meRelays then none else some (1, bucket)
        else if capability.isImmediateRelayRouter candidate then some (0, bucket)
        else if capability.status candidate == .srActive then some (1, bucket)
        else none

/-- The best key so far and its owner. -/
structure OwnerPick where
  best : Nat × Nat
  owner : UInt32

def OwnerPick.offer (p : OwnerPick) (key : Option (Nat × Nat)) (candidate : UInt32) : OwnerPick :=
  match key with
  | none => p
  | some key =>
    if key.1 < p.best.1 ∨ key.1 = p.best.1 ∧ key.2 < p.best.2 ∨
        key = p.best ∧ candidate < p.owner then ⟨key, candidate⟩
    else p

/-- mirrors crates/mesh-routing/src/graph/route.rs:364-428 -/
def coverageOwner (edges : EdgeStore) (capability : CapabilityCache) (me : UInt32)
    (meRelays : Bool) (target : UInt32) : UInt32 :=
  if target == 0 || isPlaceholderNode target then 0
  else if publishesTopology (some capability) target then 0
  else
    (edges.nodeIds.foldl
      (fun (p : OwnerPick) candidate =>
        p.offer (ownerKey edges capability me meRelays target candidate) candidate)
      ⟨(255, 65535), 0⟩).owner

/-- mirrors crates/mesh-routing/src/graph/route.rs:431-445 -/
def isSilentPublisher (edges : EdgeStore) (capability : Option CapabilityCache)
    (node nowMs : UInt32) : Bool :=
  if !publishesTopology capability node then false
  else
    match edges.findNode node with
    | none => false
    | some entry =>
      let silent := (nowMs - entry.lastFullUpdateMs).toNat
      PUBLISHER_SILENCE_MS < silent && silent < 0x80000000

/-- mirrors crates/mesh-routing/src/graph/route.rs:448-459 -/
def covers (edges : EdgeStore) (capability : Option CapabilityCache) (a b : UInt32) : Bool :=
  let evidenced :=
    if publishesTopology capability b then knownToHear edges a b
    else knownToHear edges a b || (edges.edge a b).isSome
  evidenced &&
    match hopCostFixed edges a b with
    | none => false
    | some c => c ≤ COVERAGE_ETX_CEILING_FIXED

/-- The young nodes whose coverage does not count.
mirrors crates/mesh-routing/src/rate_limit.rs:109-117 -/
structure YoungCoverageGate where
  active : Bool
  tableFull : Bool
  ids : Table MAX_YOUNG UInt32
  established : Table (MAX_ALUMNI + MAX_YOUNG) UInt32

/-- mirrors crates/mesh-routing/src/rate_limit.rs:120-129 -/
def YoungCoverageGate.empty : YoungCoverageGate := ⟨false, false, .empty, .empty⟩

/-- mirrors crates/mesh-routing/src/rate_limit.rs:131-139 -/
def YoungCoverageGate.blocks (g : YoungCoverageGate) (nodeId : UInt32) : Bool :=
  if !g.active || nodeId == 0 then false
  else if g.tableFull then !g.established.rows.contains nodeId
  else g.ids.rows.contains nodeId

/-- What both paths read of the neighbour graph: the ranking as its context,
the cancel path as `self`. `coverageOwner` is asked with the same flag by
both (`is_rebroadcaster`).
mirrors crates/mesh-routing/src/broadcast_relay.rs:167-174 -/
structure CoverageContext where
  myNode : UInt32
  myNodeRelays : Bool
  edges : EdgeStore
  capability : CapabilityCache
  droppedCoverage : YoungCoverageGate

namespace CoverageContext

variable (ctx : CoverageContext)

/-- The relay that owns `target`, as this node sees it. -/
def owner (target : UInt32) : UInt32 :=
  coverageOwner ctx.edges ctx.capability ctx.myNode ctx.myNodeRelays target

def covers (a b : UInt32) : Bool := Graph.covers ctx.edges (some ctx.capability) a b

def silent (target nowMs : UInt32) : Bool :=
  isSilentPublisher ctx.edges (some ctx.capability) target nowMs

/-- One turn of the scan over our edges.
mirrors crates/mesh-routing/src/neighbor_graph.rs:2446-2486 -/
def servesAlone (coveredBy : List UInt32) (nowMs : UInt32) (edge : Edge) : Bool :=
  let neighbor := edge.toNode
  if isPlaceholderNode neighbor then false
  else if ctx.silent neighbor nowMs then false
  else if ctx.droppedCoverage.blocks neighbor then false
  else if !edge.hearsUs && ctx.owner neighbor != ctx.myNode then false
  else if !ctx.covers ctx.myNode neighbor then false
  else if coveredBy.contains neighbor then false
  else !coveredBy.any fun coverer => ctx.covers coverer neighbor

/-- mirrors crates/mesh-routing/src/neighbor_graph.rs:2444-2489 -/
def uniqueCoverageNeighbor (coveredBy : List UInt32) (nowMs : UInt32) : Option UInt32 :=
  ((ctx.edges.listed ctx.myNode).find? (ctx.servesAlone coveredBy nowMs)).map (·.toNode)

/-- mirrors crates/mesh-routing/src/neighbor_graph.rs:2440-2442 -/
def hasUniqueCoverage (coveredBy : List UInt32) (nowMs : UInt32) : Bool :=
  (ctx.uniqueCoverageNeighbor coveredBy nowMs).isSome

theorem hasUniqueCoverage_iff {coveredBy : List UInt32} {nowMs : UInt32} :
    ctx.hasUniqueCoverage coveredBy nowMs = true ↔
      ∃ e ∈ ctx.edges.listed ctx.myNode, ctx.servesAlone coveredBy nowMs e = true := by
  unfold hasUniqueCoverage uniqueCoverageNeighbor
  rw [Option.isSome_map, List.find?_isSome]

end CoverageContext

end Meshrustic.Graph
