import Meshrustic.Topology.Publish
import Meshrustic.Topology.Routes

/-!
# What the neighbour graph hears (`mesh-routing/src/neighbor_graph.rs`)

Apart from merges, the graph is written by what the radio hears: frames of direct
neighbours, frames that a relay passed on, and silence, which `run_maintenance`
counts. Each of these keeps the edge store, the downstream table, the cached routes
and the measured signals together.

The flag that a list is due (`topology_dirty`) is no field of the model; what the
transmission records and the relay commitments say of a relayed frame comes with
the frame.
-/
namespace Meshrustic.Topology

open Meshrustic.Graph Meshrustic.Admin

def NEIGHBOR_TTL_MS : UInt32 := 10800000
def SATURATED_RX_RSSI_DBM : Int16 := -30
def INFERRED_LINK_RSSI : Int32 := -70
def INFERRED_LINK_SNR : Int8 := 5

/-- mirrors crates/mesh-routing/src/graph/placeholder.rs:3-5 -/
def placeholderNodeId (relayByte : UInt8) : UInt32 := PLACEHOLDER_NODE_PREFIX ||| relayByte.toUInt32

/-- `(id & 0xFF) as u8` -/
def lowByte (nodeId : UInt32) : UInt8 := nodeId.toUInt8

/-- mirrors crates/mesh-routing/src/graph/etx.rs:32-40 -/
def normalizeRxSignal (rssi : Int16) (snr : Int8) : Option (Int16 × Int8) :=
  if rssi == 0 && snr == 0 then none
  else if rssi == 0 then some (SATURATED_RX_RSSI_DBM, snr)
  else some (rssi, snr)

/-- mirrors crates/mesh-routing/src/capability.rs:282-298 -/
def roleMaySendTopology (role : UInt32) : Bool :=
  role == DEVICE_ROLE_CLIENT || role == DEVICE_ROLE_CLIENT_MUTE || role == DEVICE_ROLE_ROUTER ||
    role == DEVICE_ROLE_ROUTER_CLIENT || role == DEVICE_ROLE_REPEATER ||
    role == DEVICE_ROLE_ROUTER_LATE || role == DEVICE_ROLE_TRACKER || role == DEVICE_ROLE_SENSOR ||
    role == DEVICE_ROLE_TAK || role == DEVICE_ROLE_CLIENT_HIDDEN ||
    role == DEVICE_ROLE_TAK_TRACKER || role == Routing.DEVICE_ROLE_CLIENT_BASE

/-- A frame as the graph is told of it: its header fields, how it was heard,
whom the relay byte is known to be, and what the records say of it: that we sent it
ourselves, that its originator was heard sending it, that we are to relay it. -/
structure Observation where
  fromNode : UInt32
  hopStart : UInt8
  hopLimit : UInt8
  relayNode : UInt8
  rssi : Int16
  snr : Int8
  nowMs : UInt32
  heardOn : UInt8
  knownRelay : Option UInt32
  ourTransmission : Bool
  heardDirect : Bool
  committed : Bool

namespace NeighborGraph

section

variable (g : NeighborGraph)

/-- mirrors crates/mesh-routing/src/neighbor_graph.rs:377-379 -/
def canSendTopology : Bool := roleMaySendTopology g.deviceRole

/-! ## Signals -/

/-- mirrors crates/mesh-routing/src/neighbor_graph.rs:951-985 -/
def upsertDirectSignal (nodeId : UInt32) (rssi : Int16) (snr : Int8) (nowMs : UInt32) :
    NeighborGraph :=
  if nodeId == 0 || nodeId == g.myNode then g
  else
    let new : DirectNeighborSignal := ⟨nodeId, rssi, clampTopologySnr snr, nowMs⟩
    match g.directSignals.rows.findIdx? fun s => s.nodeId == nodeId with
    | some i => { g with directSignals := g.directSignals.set i new }
    | none =>
      match g.directSignals.push new with
      | some directSignals => { g with directSignals }
      | none =>
        let oldest := (g.directSignals.rows.zipIdx.foldl
          (fun (best : Nat × UInt32) (row : DirectNeighborSignal × Nat) =>
            if best.2 < nowMs - row.1.lastRxMs then (row.2, nowMs - row.1.lastRxMs) else best)
          (0, 0)).1
        { g with directSignals := g.directSignals.set oldest new }

/-- Keeps the signals that pass `p`. -/
def filterSignals (p : DirectNeighborSignal → Bool) : NeighborGraph :=
  { g with directSignals := ⟨g.directSignals.rows.filter p,
      Nat.le_trans (List.length_filter_le _ _) g.directSignals.le⟩ }

/-- mirrors crates/mesh-routing/src/neighbor_graph.rs:996-1007 -/
def removeDirectSignal (nodeId : UInt32) : NeighborGraph := g.filterSignals fun s => s.nodeId != nodeId

/-- mirrors crates/mesh-routing/src/neighbor_graph.rs:1009-1034 -/
def pruneDirectSignals (nowMs : UInt32) : NeighborGraph :=
  g.filterSignals fun s => s.nodeId != 0 && decide (nowMs - s.lastRxMs ≤ NEIGHBOR_TTL_MS) &&
    g.edges.hasDirectReportedEdgeTo g.myNode s.nodeId

/-- mirrors crates/mesh-routing/src/neighbor_graph.rs:2654-2671 -/
def confirmDirectNeighborHearsUs (neighbor : UInt32) : NeighborGraph × Bool :=
  if neighbor == 0 || neighbor == g.myNode then (g, false)
  else
    match g.edges.edge g.myNode neighbor with
    | none => (g, false)
    | some e =>
      if e.hearsUs then (g, false)
      else
        ({ g with
          edges := g.edges.setEdgeHearsUs g.myNode neighbor true
          routeCache := .empty }, true)

/-- mirrors crates/mesh-routing/src/neighbor_graph.rs:2624-2637 -/
def maybeConfirmHearsUsFromRelay (gateway packetFrom : UInt32) (committed : Bool) :
    NeighborGraph × Bool :=
  if gateway == 0 || gateway == g.myNode then (g, false)
  else if packetFrom != g.myNode && !committed then (g, false)
  else g.confirmDirectNeighborHearsUs gateway

/-- mirrors crates/mesh-routing/src/neighbor_graph.rs:563-575 -/
def applyTopologyHearsUs (sender ourNode : UInt32) (neighbors : List PackedNeighbor) : NeighborGraph :=
  if neighbors.any fun n => n.nodeId == ourNode && n.hearsUs then
    { g with edges := g.edges.setEdgeHearsUs sender ourNode true }
  else g

/-- mirrors crates/mesh-routing/src/neighbor_graph.rs:350-371; the fields the model has. -/
def purgeForPresetChange : NeighborGraph :=
  { g with
    edges := .empty
    downstream := ⟨.empty⟩
    routeCache := .empty
    capability := .empty
    directSignals := .empty
    topoVersions := .empty
    lastVersionResync := none
    pendingListed := .all .EMPTY
    mergeAsymmetricSkips := [] }

/-- mirrors crates/mesh-routing/src/neighbor_graph.rs:381-384 -/
def trackNodeRole (nodeId role nowMs : UInt32) : NeighborGraph :=
  { g with capability := g.capability.trackRole nodeId role nowMs, routeCache := .empty }

/-- mirrors crates/mesh-routing/src/neighbor_graph.rs:331-334 -/
def setDeviceRole (role : UInt32) : NeighborGraph :=
  { g with deviceRole := role, signalRoutingActive := Routing.roleIsActiveRouting role }

/-- mirrors crates/mesh-routing/src/neighbor_graph.rs:2161-2183 -/
def getRoute (destination nowMs : UInt32) : NeighborGraph × CachedRoute :=
  match cacheGet g.routeCache destination nowMs with
  | some cached => (g, cached)
  | none =>
    let filter : RoutableFilter := ⟨g.capability, g.myNode, g.deviceRole, []⟩
    let route := calculateRoute g.edges g.downstream g.myNode destination nowMs (some filter)
    if route.nextHop != 0 then ({ g with routeCache := cacheInsert g.routeCache route }, route)
    else (g, route)

/-- mirrors crates/mesh-routing/src/neighbor_graph.rs:2095-2102 -/
def replaceGatewayNode (oldNode newNode nowMs : UInt32) : NeighborGraph :=
  if oldNode == 0 || newNode == 0 || oldNode == newNode then g
  else
    { g with
      downstream := (g.downstream.transferDownstream oldNode newNode nowMs).clearForDestination oldNode
      routeCache := .empty }

end

section

variable {Etx : Type} (F : F32 Etx) (g : NeighborGraph)

/-- `self.edges.ensure_local_node(self.my_node, now_ms)`, as every observation, merge and
maintenance begins. -/
def withLocalNode (nowMs : UInt32) : NeighborGraph :=
  { g with edges := g.edges.ensureLocalNode F g.myNode nowMs }

/-! ## Direct neighbours -/

/-- A neighbour that is heard again after a silence pays for it.
mirrors crates/mesh-routing/src/neighbor_graph.rs:1664-1686 -/
def noteSilence (nodeId nowMs : UInt32) : NeighborGraph :=
  let prevHeard := match g.edges.edge g.myNode nodeId with
    | none => 0
    | some e => if e.source == .reported then e.lastHeardMs else 0
  let gap := (nowMs - prevHeard).toNat
  if prevHeard != 0 && decide (TOPOLOGY_BROADCAST_MS / 2 ≤ gap) then
    let silence := UInt16.ofNat (silenceEtxFixedFromAge gap TOPOLOGY_BROADCAST_MS)
    { g with
      edges := g.edges.modifyEdge g.myNode nodeId fun e =>
        { e with etxVariance := F.varianceAfter e.etxVariance silence } }
  else g

/-- Our edge to the neighbour is measured, and the one back inferred.
mirrors crates/mesh-routing/src/neighbor_graph.rs:1687-1717 -/
def measureNeighbor (nodeId : UInt32) (rssi : Int16) (snr : Int8) (nowMs : UInt32) (heardOn : UInt8) :
    NeighborGraph × EdgeChange :=
  let etx := F.calculateEtx rssi.toInt32 snr g.modemPreset
  let (edges, result) := g.edges.updateEdge F g.myNode g.myNode nodeId etx nowMs .reported true heardOn
  let (edges, _) := edges.updateEdge F g.myNode nodeId g.myNode etx nowMs .inferred true heardOn
  let edges := edges.modifyEdge g.myNode nodeId fun e => { e with lastHeardMs := nowMs }
  ({ g with edges }, result)

/-- mirrors crates/mesh-routing/src/neighbor_graph.rs:1655-1719 -/
def refreshReportedDirectNeighbor (nodeId : UInt32) (rssi : Int16) (snr : Int8) (nowMs : UInt32)
    (heardOn : UInt8) : NeighborGraph × EdgeChange :=
  let g := (g.withLocalNode F nowMs).noteSilence F nodeId nowMs
  let (g, result) := g.measureNeighbor F nodeId rssi snr nowMs heardOn
  (g.upsertDirectSignal nodeId rssi snr nowMs, result)

/-- mirrors crates/mesh-routing/src/neighbor_graph.rs:1721-1741 -/
def observeDirectNeighbor (nodeId : UInt32) (rssi : Int16) (snr : Int8) (nowMs : UInt32)
    (heardOn : UInt8) : NeighborGraph × Bool :=
  if nodeId == 0 || nodeId == g.myNode then (g, false)
  else
    match normalizeRxSignal rssi snr with
    | none => (g, false)
    | some (rssi, snr) =>
      let (g, result) := g.refreshReportedDirectNeighbor F nodeId rssi snr nowMs heardOn
      let g := if result == .new || result == .significantChange then { g with routeCache := .empty }
        else g
      ({ g with downstream := g.downstream.clearForDestination nodeId }, result == .new)

/-! ## Retractions -/

/-- mirrors crates/mesh-routing/src/neighbor_graph.rs:2078-2093 -/
def retractDirectLinkInner (neighbor : UInt32) (cascade : Bool) : NeighborGraph × Bool :=
  if neighbor == 0 || neighbor == g.myNode then (g, false)
  else
    let (edges, removed) := g.edges.removeEdge g.myNode neighbor
    let (edges, _) := edges.removeEdge neighbor g.myNode
    let g := { g with edges }
    if removed then
      let g := if cascade then
          let (edges, downstream, _) := g.edges.pruneUnreachableFromRoot F g.myNode 0 g.downstream
          { g with edges, downstream }
        else g
      ({ g with routeCache := .empty }, true)
    else (g, false)

/-! ## Relayed frames -/

/-- mirrors crates/mesh-routing/src/neighbor_graph.rs:1774-1796 -/
def relayGatewayForObservation (fromNode : UInt32) (relayNode : UInt8) (knownRelay : Option UInt32) :
    UInt32 :=
  let placeholder := placeholderNodeId relayNode
  if (g.edges.findNode placeholder).isSome then placeholder
  else
    match knownRelay with
    | none => placeholder
    | some real =>
      if real != 0 && real != g.myNode && real != fromNode && !isPlaceholderNode real &&
          lowByte real == relayNode then real
      else placeholder

/-- The relay that a frame came through and its signal, if the frame counts.
mirrors crates/mesh-routing/src/neighbor_graph.rs:1811-1830 -/
def observedGateway (p : Observation) : Option (UInt32 × Int16 × Int8) :=
  if !g.isActiveRoutingRole && !g.canSendTopology then none
  else if p.fromNode == 0 then none
  else
    match normalizeRxSignal p.rssi p.snr with
    | none => none
    | some (rssi, snr) =>
      if p.relayNode == 0 || p.relayNode == lowByte p.fromNode then none
      else
        let gateway := g.relayGatewayForObservation p.fromNode p.relayNode p.knownRelay
        if gateway == p.fromNode || gateway == g.myNode then none
        else if p.ourTransmission then none
        else some (gateway, rssi, snr)

/-- Our neighbour is heard through a relay only: it has moved away.
mirrors crates/mesh-routing/src/neighbor_graph.rs:1831-1834 -/
def travelling (p : Observation) : Bool :=
  g.edges.hasDirectReportedEdgeTo g.myNode p.fromNode && !p.heardDirect

/-- mirrors crates/mesh-routing/src/neighbor_graph.rs:1835-1838 -/
def retractTravelling (p : Observation) : NeighborGraph :=
  if g.travelling p then
    let (g, removed) := g.retractDirectLinkInner F p.fromNode true
    if removed then g.removeDirectSignal p.fromNode else g
  else g

/-- mirrors crates/mesh-routing/src/neighbor_graph.rs:1634-1653 -/
def observeRelayGatewaySignal (gateway : UInt32) (rssi : Int16) (snr : Int8) (nowMs : UInt32)
    (heardOn : UInt8) : NeighborGraph × Bool :=
  if isPlaceholderNode gateway then (g, false)
  else
    let (g, result) := g.refreshReportedDirectNeighbor F gateway rssi snr nowMs heardOn
    if result == .new then
      ({ g with downstream := g.downstream.clearForDestination gateway }, true)
    else (g, false)

def nominalHop : Etx := F.calculateEtx INFERRED_LINK_RSSI INFERRED_LINK_SNR g.modemPreset

/-- `saturating_sub(hop_start, hop_limit).max(1)` -/
def hopsUsed (p : Observation) : UInt8 := max (if p.hopLimit ≤ p.hopStart then p.hopStart - p.hopLimit else 0) 1

/-- A new or changed edge makes the cached routes old. -/
def clearOn (change : EdgeChange) : NeighborGraph :=
  if change == .new || change == .significantChange then { g with routeCache := .empty } else g

/-- Nobody else will tell of the relay's link to the originator.
mirrors crates/mesh-routing/src/neighbor_graph.rs:1851-1871 -/
def inferRelayEdge (gateway : UInt32) (p : Observation) : NeighborGraph :=
  let gatewayNeverPublishes := g.capability.status gateway == .legacy || isPlaceholderNode gateway
  if g.isActiveRoutingRole && gatewayNeverPublishes then
    let (edges, result) := g.edges.updateEdge F g.myNode gateway p.fromNode (g.nominalHop F) p.nowMs
      .inferred true p.heardOn
    { g with edges }.clearOn result
  else g

/-- mirrors crates/mesh-routing/src/neighbor_graph.rs:1873-1887 -/
def mirrorRelayEdge (gateway : UInt32) (rssi : Int16) (snr : Int8) (p : Observation) : NeighborGraph :=
  let etx := F.calculateEtx rssi.toInt32 snr g.modemPreset
  let (edges, result) := g.edges.updateEdge F g.myNode g.myNode gateway etx p.nowMs .mirrored true
    p.heardOn
  { g with edges }.clearOn result

/-- The originator is served by the relay, if nobody knows better.
mirrors crates/mesh-routing/src/neighbor_graph.rs:1891-1939 -/
def inferDownstream (gateway : UInt32) (p : Observation) (travelling sourcePublishes : Bool) :
    NeighborGraph :=
  let relayHearsUs := (g.edges.edge g.myNode gateway).any (·.hearsUs)
  let destinationListsRelay := (g.edges.edge p.fromNode gateway).isSome
  let canInferDownstream := relayHearsUs && (destinationListsRelay || !sourcePublishes)
  let inferDownstream := travelling || hopsUsed p == 1 || !sourcePublishes
  let destInBall := (g.edges.findNode p.fromNode).isSome
  let listParked := (g.downstream.listDownstream p.fromNode p.nowMs NEIGHBOR_TTL_MS).any fun m =>
    (g.edges.findNode m.1).isSome
  let stealOk := travelling || (!destInBall && !listParked)
  let pathEtx := F.times (g.nominalHop F) (hopsUsed p)
  if g.isActiveRoutingRole && canInferDownstream && inferDownstream && stealOk then
    if travelling then
      { g with
        downstream := g.downstream.updateExclusive F g.myNode p.fromNode gateway pathEtx p.nowMs
          false p.heardOn
        routeCache := .empty }
    else if !g.downstream.isRelayFor gateway p.fromNode p.nowMs NEIGHBOR_TTL_MS then
      let existingParent := g.downstream.getRelay p.fromNode p.nowMs NEIGHBOR_TTL_MS
      if (existingParent.any fun parent => parent != gateway) && !destinationListsRelay then g
      else
        { g with
          downstream := g.downstream.updateInner F g.myNode p.fromNode gateway pathEtx p.nowMs false
            p.heardOn false
          routeCache := .empty }
    else g
  else g

/-- The relay that passed the frame on is written, our own node being stored.
mirrors crates/mesh-routing/src/neighbor_graph.rs:1841-1944 -/
def hearRelay (gateway : UInt32) (rssi : Int16) (snr : Int8) (p : Observation) (travelling : Bool) :
    NeighborGraph × Bool × Bool :=
  let (g, isNewGateway) := g.observeRelayGatewaySignal F gateway rssi snr p.nowMs p.heardOn
  let sourcePublishes := g.capability.publishesTopology p.fromNode
  let g := (g.inferRelayEdge F gateway p).mirrorRelayEdge F gateway rssi snr p
  let (g, hearsUs) := g.maybeConfirmHearsUsFromRelay gateway p.fromNode p.committed
  (g.inferDownstream F gateway p travelling sourcePublishes, isNewGateway, hearsUs)

/-- mirrors crates/mesh-routing/src/neighbor_graph.rs:1798-1945 -/
def observeRelayedPacket (p : Observation) : NeighborGraph × Option (UInt32 × Bool × Bool) :=
  match g.observedGateway p with
  | none => (g, none)
  | some (gateway, rssi, snr) =>
    let travelling := g.travelling p
    let g := (g.retractTravelling F p).withLocalNode F p.nowMs
    let (g, flags) := g.hearRelay F gateway rssi snr p travelling
    (g, some (gateway, flags))

/-- mirrors crates/mesh-routing/src/neighbor_graph.rs:1743-1776 -/
def observePacket (p : Observation) : NeighborGraph × Option (UInt32 × Int16 × Int8 × Bool × Bool) :=
  if Routing.isDirectPacket p.fromNode p.hopStart p.hopLimit p.relayNode then
    let (g, isNew) := g.observeDirectNeighbor F p.fromNode p.rssi p.snr p.nowMs p.heardOn
    (g, some (p.fromNode, p.rssi, p.snr, isNew, false))
  else
    let (g, observed) := g.observeRelayedPacket F p
    (g, observed.map fun r => (r.1, p.rssi, p.snr, r.2.1, r.2.2))

/-! ## Placeholders -/

/-- Whether a placeholder stands for the node.
mirrors crates/mesh-routing/src/neighbor_graph.rs:2110-2121 -/
def resolves (placeholderId realNodeId : UInt32) : Bool :=
  isPlaceholderNode placeholderId && !isPlaceholderNode realNodeId && realNodeId != 0 &&
    realNodeId != g.myNode && lowByte realNodeId == lowByte placeholderId &&
    (g.edges.findNode placeholderId).isSome

/-- Our edge to the placeholder becomes one to the node.
mirrors crates/mesh-routing/src/neighbor_graph.rs:2124-2152 -/
def copyEdge (placeholderId realNodeId nowMs : UInt32) : NeighborGraph :=
  match g.edges.edge g.myNode placeholderId with
  | none => g
  | some e =>
    let (edges, _) := g.edges.updateEdge F g.myNode g.myNode realNodeId (F.ofFixed e.etxFixed) nowMs
      .reported true e.heardOn
    { g with edges := if e.hearsUs then edges.setEdgeHearsUs g.myNode realNodeId true else edges }

/-- mirrors crates/mesh-routing/src/neighbor_graph.rs:2104-2159 -/
def resolvePlaceholder (placeholderId realNodeId nowMs : UInt32) : NeighborGraph × Bool :=
  if !g.resolves placeholderId realNodeId then (g, false)
  else
    let g := (g.withLocalNode F nowMs).copyEdge F placeholderId realNodeId nowMs
    let g := g.replaceGatewayNode placeholderId realNodeId nowMs
    let edges := (g.edges.removeEdgesTo placeholderId).removeNode placeholderId
    ({ g with edges := edges.1, routeCache := .empty }, true)

/-! ## Maintenance -/

/-- The publishers among our neighbours that have been silent for too long.
mirrors crates/mesh-routing/src/neighbor_graph.rs:2686-2706 -/
def silentPublishers (nowMs : UInt32) : List UInt32 :=
  match g.edges.findNode g.myNode with
  | none => []
  | some me =>
    (me.edges.rows.filter fun e =>
      let silent := (nowMs - e.lastUpdateMs).toNat
      e.toNode != 0 && !isPlaceholderNode e.toNode && g.capability.publishesTopology e.toNode &&
        decide (PUBLISHER_SILENCE_MS < silent) && decide (silent < 0x80000000)).map (·.toNode)

/-- mirrors crates/mesh-routing/src/neighbor_graph.rs:2685-2715 -/
def pruneSilentPublishers (nowMs : UInt32) : NeighborGraph × Bool :=
  let gone := g.silentPublishers nowMs
  (gone.foldl
    (fun (g : NeighborGraph) nodeId =>
      let g := (g.retractDirectLinkInner F nodeId false).1
      { g with downstream := g.downstream.clearForDestination nodeId })
    g, !gone.isEmpty)

/-- The neighbours whose records have expired do not count as hearing us any more. -/
def clearHearsUs (expired : List UInt32) : NeighborGraph :=
  { g with
    edges := expired.foldl (fun (edges : EdgeStore) n => edges.setEdgeHearsUs g.myNode n false) g.edges }

/-- What follows the ageing of the edges, which were aged or not; before it we had so many
direct neighbours.
mirrors crates/mesh-routing/src/neighbor_graph.rs:2722-2742 -/
def forgetSilent (nowMs : UInt32) (before : Nat) (edgesAged : Bool) : NeighborGraph :=
  let (g, publishersPruned) := g.pruneSilentPublishers F nowMs
  let g := g.pruneDirectSignals nowMs
  let (downstream, downstreamAged) := g.downstream.age nowMs NEIGHBOR_TTL_MS fun relay =>
    (g.edges.findNode relay).isSome
  let (capability, expired) := g.capability.prune nowMs g.myNode
  let g := { g with downstream, capability }.clearHearsUs expired
  let after := g.edges.countDirectNeighbors g.myNode
  if before != after || edgesAged || downstreamAged || publishersPruned || !expired.isEmpty then
    { g with routeCache := .empty }
  else g

/-- mirrors crates/mesh-routing/src/neighbor_graph.rs:2717-2742 -/
def runMaintenance (nowMs : UInt32) : NeighborGraph :=
  let g := g.withLocalNode F nowMs
  let before := g.edges.countDirectNeighbors g.myNode
  let (edges, downstream, edgesAged) := g.edges.ageEdges F g.myNode nowMs NEIGHBOR_TTL_MS g.downstream
  { g with edges, downstream }.forgetSilent F nowMs before edgesAged

end

end NeighborGraph

end Meshrustic.Topology
