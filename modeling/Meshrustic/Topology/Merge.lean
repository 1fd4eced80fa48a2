import Meshrustic.Topology.Admission
import Meshrustic.Topology.Codec
import Meshrustic.Topology.Versions
import Meshrustic.Core.Slots
import Meshrustic.Routing.Ledger
import Meshrustic.Radio.Config

/-!
# Merging a topology list (`mesh-routing/src/neighbor_graph.rs`)

`merge_topology` takes one chunk of a sender's neighbour list: it accepts or
refuses the version, checks that the sender lies within the horizon, writes
the listed neighbours into the edge store or the downstream table, and gathers
the chunk's ids. When the last chunk of a list is in hand, edges and `hears_us`
flags that the list does not bear out are removed.

The routine is split at these stages; each stage is a definition of its own
that names its lines.
-/
namespace Meshrustic.Topology

open Meshrustic.Graph Meshrustic.Relay

def MAX_NEIGHBORS : Nat := MAX_EDGES_PER_NODE
def PENDING_LISTED_SLOTS : Nat := 4
def MAX_CACHED_ROUTES : Nat := 32
def MERGE_ASYMMETRIC_SKIPS : Nat := 4

/-- mirrors crates/mesh-routing/src/graph/route.rs:38-44 -/
inductive RouteMode where
  | ball | listDownstream | orphanGateway
  deriving DecidableEq, Repr

/-- mirrors crates/mesh-routing/src/graph/route.rs:47-56 -/
structure CachedRoute where
  destination : UInt32
  nextHop : UInt32
  egressRadio : UInt8
  costFixed : UInt16
  timestampMs : UInt32
  hops : UInt8
  verified : Bool
  mode : RouteMode
  deriving DecidableEq

/-- mirrors crates/mesh-routing/src/neighbor_graph.rs:80-88 -/
structure PendingListed where
  sender : UInt32
  version : UInt8
  valid : Bool
  ids : Table MAX_NEIGHBORS UInt32
  nextChunk : UInt8
  deriving DecidableEq

/-- mirrors crates/mesh-routing/src/neighbor_graph.rs:92-101 -/
def PendingListed.EMPTY : PendingListed := ⟨0, 0, false, .empty, 1⟩

/-- mirrors crates/mesh-routing/src/neighbor_graph.rs:119-124 -/
inductive TopologyMergeResult where
  | applied (neighbors topoV : UInt8)
  | stale (received last : UInt8)
  | ignoredFormat
  deriving DecidableEq, Repr

/-- The answers that refuse a list. -/
def TopologyMergeResult.refused : TopologyMergeResult → Bool
  | .applied _ _ => false
  | .stale _ _ => true
  | .ignoredFormat => true

/-- The measured signal of a direct neighbour.
mirrors crates/mesh-routing/src/neighbor_graph.rs:50-56 -/
structure DirectNeighborSignal where
  nodeId : UInt32
  rssi : Int16
  snr : Int8
  lastRxMs : UInt32

/-- The fields that lists are merged into and built from.
mirrors crates/mesh-routing/src/neighbor_graph.rs:132-162 -/
structure NeighborGraph where
  myNode : UInt32
  deviceRole : UInt32
  modemPreset : UInt8
  edges : EdgeStore
  downstream : DownstreamTable
  topoVersions : VersionTable
  lastVersionResync : Option (UInt32 × UInt8 × UInt8)
  pendingListed : Slots PENDING_LISTED_SLOTS PendingListed
  signalRoutingActive : Bool
  routeCache : Table MAX_CACHED_ROUTES CachedRoute
  capability : CapabilityCache
  directSignals : Table MAX_NEIGHBORS DirectNeighborSignal
  mergeAsymmetricSkips : List (UInt32 × UInt32)

/-- A node that has heard nothing yet.
mirrors crates/mesh-routing/src/neighbor_graph.rs:171-245 -/
def NeighborGraph.new (myNode : UInt32) : NeighborGraph where
  myNode := myNode
  deviceRole := Admin.DEVICE_ROLE_CLIENT
  modemPreset := Radio.MODEM_DEFAULT_PRESET
  edges := .empty
  downstream := ⟨.empty⟩
  topoVersions := .empty
  lastVersionResync := none
  pendingListed := .all .EMPTY
  signalRoutingActive := true
  routeCache := .empty
  capability := .empty
  directSignals := .empty
  mergeAsymmetricSkips := []

/-- The arguments of one `merge_topology` call. -/
structure Call where
  sender : UInt32
  header : PackedHeader
  neighbors : List PackedNeighbor
  isDirect : Bool
  nowMs : UInt32
  heardOn : UInt8

namespace Call

def received (c : Call) : UInt8 := c.header.topologyVersion

/-- mirrors crates/mesh-routing/src/neighbor_graph.rs:1234 -/
def bootReset (c : Call) : Bool :=
  c.neighbors.isEmpty && c.received == 0 && c.header.isCompleteList

end Call

/-! ## Reassembly -/

/-- mirrors crates/mesh-routing/src/neighbor_graph.rs:1449-1456 -/
def PendingListed.add (p : PendingListed) (id : UInt32) : PendingListed :=
  match p.ids.push id with
  | some ids => { p with ids := ids }
  | none => { p with valid := false }

/-- mirrors crates/mesh-routing/src/neighbor_graph.rs:1626-1632 -/
def pendingListedSlot (slots : Slots PENDING_LISTED_SLOTS PendingListed) (sender : UInt32) : Nat :=
  match slots.cells.findIdx? fun p => p.valid && p.sender == sender with
  | some i => i
  | none =>
    match slots.cells.findIdx? fun p => !p.valid with
    | some i => i
    | none => 0

theorem pendingListedSlot_lt (slots : Slots PENDING_LISTED_SLOTS PendingListed) (sender : UInt32) :
    pendingListedSlot slots sender < slots.cells.length := by
  have hsize := slots.size
  unfold pendingListedSlot
  split
  · rename_i i hi
    exact (List.findIdx?_eq_some_iff_getElem.mp hi).1
  · split
    · rename_i i hi
      exact (List.findIdx?_eq_some_iff_getElem.mp hi).1
    · rw [hsize]
      decide

/-- The chunk enters slot `i`, if it is the next one of the list gathered
there; the ids of a list whose last chunk this is.
mirrors crates/mesh-routing/src/neighbor_graph.rs:1440-1476 -/
def fillSlot (slots : Slots PENDING_LISTED_SLOTS PendingListed) (i : Nat) (c : Call) :
    Slots PENDING_LISTED_SLOTS PendingListed × Option (List UInt32) :=
  match slots.cells[i]? with
  | none => (slots, none)
  | some p =>
    if p.valid && p.sender == c.sender && p.version == c.received &&
        (!c.header.continuation || c.header.chunkIndex == p.nextChunk) then
      let p := if c.header.continuation then { p with nextChunk := p.nextChunk + 1 } else p
      let p := (c.neighbors.map (·.nodeId)).foldl PendingListed.add p
      if !c.header.moreChunks then
        (slots.set i { p with valid := false }, if p.valid then some p.ids.rows else none)
      else (slots.set i p, none)
    else if c.header.continuation then (slots.set i { p with valid := false }, none)
    else (slots, none)

/-- A first chunk opens a slot, taking its sender's, a free one or the first.
mirrors crates/mesh-routing/src/neighbor_graph.rs:1415-1439 -/
def reassemble (slots : Slots PENDING_LISTED_SLOTS PendingListed) (c : Call) :
    Slots PENDING_LISTED_SLOTS PendingListed × Option (List UInt32) :=
  if c.header.continuation then
    match slots.cells.findIdx? fun p => p.valid && p.sender == c.sender with
    | none => (slots, none)
    | some i => fillSlot slots i c
  else
    let i := pendingListedSlot slots c.sender
    fillSlot (slots.set i ⟨c.sender, c.received, c.header.chunkIndex == 0, .empty, 1⟩) i c

/-! ## The merge -/

namespace NeighborGraph

variable (g : NeighborGraph)

/-- mirrors crates/mesh-routing/src/neighbor_graph.rs:373-375 -/
def isActiveRoutingRole : Bool := Routing.roleIsActiveRouting g.deviceRole

/-- mirrors crates/mesh-routing/src/neighbor_graph.rs:1236-1238 -/
def silence (c : Call) : Bool :=
  let lastAcceptMs := (g.topoVersions.topoVersionEntry c.sender).2
  lastAcceptMs != 0 && decide (TOPOLOGY_RESYNC_MS ≤ c.nowMs - lastAcceptMs) &&
    decide (c.nowMs - lastAcceptMs < 0x80000000)

/-- mirrors crates/mesh-routing/src/neighbor_graph.rs:1239 -/
def inWindow (c : Call) : Bool :=
  let entry := g.topoVersions.topoVersionEntry c.sender
  entry.2 == 0 || topologyVersionAccept c.received entry.1

/-- The version is accepted: in the window, or by one of the rules for a
sender that restarted.
mirrors crates/mesh-routing/src/neighbor_graph.rs:1232-1246 -/
def versionAccepted (c : Call) : Bool :=
  let last := (g.topoVersions.topoVersionEntry c.sender).1
  g.inWindow c || c.bootReset || topologyVersionLargeBehind c.received last || g.silence c ||
    g.topoVersions.topoVersionClimbsAfterStale c.sender c.received ||
    (c.isDirect && c.header.isCompleteList && !c.neighbors.isEmpty)

/-- mirrors crates/mesh-routing/src/neighbor_graph.rs:1493-1511 -/
def listNamesHorizonAnchor (neighbors : List PackedNeighbor) : Bool :=
  neighbors.any fun n =>
    g.edges.hasDirectReportedEdgeTo g.myNode n.nodeId ||
      g.edges.nodeClass n.nodeId == some .l1 || g.edges.nodeClass n.nodeId == some .l2

/-- mirrors crates/mesh-routing/src/neighbor_graph.rs:1267-1275 -/
def senderHorizonOk (c : Call) : Bool :=
  g.edges.hasDirectReportedEdgeTo g.myNode c.sender || c.isDirect ||
    (g.edges.findNode c.sender).isSome || g.edges.reachableViaHearsUs c.sender ||
    (g.edges.nodeClass c.sender == some .l2 || g.edges.nodeClass c.sender == some .l3) ||
    g.listNamesHorizonAnchor c.neighbors

/-- mirrors crates/mesh-routing/src/neighbor_graph.rs:1484-1491 -/
def recordMergeAsymmetricSkip (sender destination : UInt32) : NeighborGraph :=
  if g.mergeAsymmetricSkips.length < MERGE_ASYMMETRIC_SKIPS then
    { g with mergeAsymmetricSkips := g.mergeAsymmetricSkips ++ [(sender, destination)] }
  else g

section

variable {Etx : Type} (F : F32 Etx)

/-- What an accepted list does before its contents are looked at.
mirrors crates/mesh-routing/src/neighbor_graph.rs:1249-1263 -/
def noteAccepted (c : Call) : NeighborGraph :=
  let last := (g.topoVersions.topoVersionEntry c.sender).1
  { g with
    lastVersionResync :=
      if !g.inWindow c || (c.bootReset && last != 0) then some (c.sender, c.received, last)
      else g.lastVersionResync
    topoVersions := g.topoVersions.setTopoVersion c.sender (if c.bootReset then 0 else c.received)
      c.nowMs
    capability := g.capability.trackTopology c.sender c.header.signalRoutingActive c.nowMs
    edges := g.edges.ensureLocalNode F g.myNode c.nowMs
    mergeAsymmetricSkips := [] }

/-- The parent of a sender that is not our neighbour.
mirrors crates/mesh-routing/src/neighbor_graph.rs:1294-1315 -/
def senderParent (c : Call) : UInt32 :=
  let hint := match g.edges.findNode c.sender with
    | none => 0
    | some n => n.parentHint
  if hint != 0 then hint
  else
    (c.neighbors.findSome? fun n =>
      if g.edges.hasDirectReportedEdgeTo g.myNode n.nodeId then some n.nodeId
      else if g.edges.nodeClass n.nodeId == some .l2 || g.edges.nodeClass n.nodeId == some .l1 then
        some n.nodeId
      else none).getD 0

/-- mirrors crates/mesh-routing/src/neighbor_graph.rs:1282-1331 -/
def admitSender (c : Call) : NeighborGraph :=
  let namesL1 := c.neighbors.any fun n => g.edges.hasDirectReportedEdgeTo g.myNode n.nodeId
  let namesL2 := c.neighbors.any fun n => g.edges.nodeClass n.nodeId == some .l2
  if (g.edges.findNode c.sender).isSome || namesL1 || namesL2 then
    let cls := g.edges.classifyCandidate c.sender g.myNode
    let cls := if cls == .unknown then (if namesL2 && !namesL1 then .l3 else .l2) else cls
    if classWithinDepth cls && cls != .unknown then
      let (edges, downstream, _) :=
        g.edges.ensurePublisher F c.sender cls (g.senderParent c) c.nowMs g.myNode g.downstream
      { g with edges := edges, downstream := downstream }
    else g
  else g

/-- mirrors crates/mesh-routing/src/neighbor_graph.rs:1513-1550 -/
def tryAdmitListedPublisher (sender listed : UInt32) (senderIsDirect : Bool) (nowMs : UInt32) :
    NeighborGraph × Bool :=
  if listed == 0 || listed == g.myNode then (g, false)
  else if g.edges.hasDirectReportedEdgeTo g.myNode listed then (g, true)
  else
    let cls : Option NodeClass :=
      if senderIsDirect then some .l2
      else if g.edges.nodeClass sender == some .l2 then some .l3
      else none
    match cls with
    | none => (g, false)
    | some cls =>
      if !classWithinDepth cls then (g, false)
      else
        let (edges, downstream, admitted) :=
          g.edges.ensurePublisher F listed cls sender nowMs g.myNode g.downstream
        ({ g with edges := edges, downstream := downstream }, admitted)

/-- The edge a listed neighbour stands for, and the flags it proves.
mirrors crates/mesh-routing/src/neighbor_graph.rs:1356-1377 -/
def mirrorNeighbor (c : Call) (senderIsDirect : Bool) (n : PackedNeighbor) (etx : Etx) :
    EdgeStore :=
  if n.nodeId != g.myNode || senderIsDirect then
    let edges := (g.edges.updateEdge F g.myNode c.sender n.nodeId etx c.nowMs .mirrored true
      c.heardOn).1
    let edges := edges.setEdgeHearsUs c.sender n.nodeId n.hearsUs
    if n.nodeId == g.myNode then edges.setEdgeHearsUs g.myNode c.sender true
    else edges.setEdgeHearsUs n.nodeId c.sender true
  else g.edges

/-- One listed neighbour.
mirrors crates/mesh-routing/src/neighbor_graph.rs:1334-1410 -/
def mergeNeighbor (c : Call) (senderIsDirect : Bool) (n : PackedNeighbor) : NeighborGraph :=
  if n.nodeId == 0 || isPlaceholderNode n.nodeId then g
  else if !g.isActiveRoutingRole && n.nodeId != g.myNode &&
      !g.edges.hasDirectReportedEdgeTo g.myNode n.nodeId &&
      !g.edges.hasDirectReportedEdgeTo n.nodeId g.myNode then g
  else
    let etx := F.calculateEtx n.rssi.toInt32 n.snr g.modemPreset
    let relayHasEdge := (g.edges.edge c.sender n.nodeId).isSome
    let g := { g with edges := g.mirrorNeighbor F c senderIsDirect n etx }
    if n.nodeId == g.myNode || g.edges.hasDirectReportedEdgeTo g.myNode n.nodeId then
      if n.nodeId != g.myNode then
        { g with downstream := g.downstream.clearForDestination n.nodeId }
      else g
    else if n.hearsUs then
      let (g, admitted) := g.tryAdmitListedPublisher F c.sender n.nodeId senderIsDirect c.nowMs
      if admitted then { g with downstream := g.downstream.clearForDestination n.nodeId }
      else
        let viaRadio := g.edges.relayHeardOn g.myNode c.sender
        { g with
          downstream := g.downstream.updateInner F g.myNode n.nodeId c.sender etx c.nowMs
            relayHasEdge viaRadio true }
    else if n.nodeId != g.myNode then g.recordMergeAsymmetricSkip c.sender n.nodeId
    else g

/-- Edges and flags the complete list does not bear out are removed.
mirrors crates/mesh-routing/src/neighbor_graph.rs:1459-1470 -/
def sweepUnlisted (sender : UInt32) (listed : List UInt32) (nowMs : UInt32) : NeighborGraph :=
  let edges := g.edges.clearHearsUsToUnlisted sender listed
  match edges.retainListedEdges sender listed with
  | (edges, false) => { g with edges := edges }
  | (edges, true) =>
    let (edges, downstream, _) := edges.pruneUnreachableFromRoot F g.myNode nowMs g.downstream
    { g with edges := edges, downstream := downstream, routeCache := .empty }

/-- The listed neighbours, in order, after the sender itself.
mirrors crates/mesh-routing/src/neighbor_graph.rs:1266, 1282-1413 -/
def mergeListed (c : Call) : NeighborGraph :=
  let senderIsDirect := g.edges.hasDirectReportedEdgeTo g.myNode c.sender
  let g := if senderIsDirect || !g.senderHorizonOk c then g else g.admitSender F c
  let g := { g with routeCache := .empty }
  let g := c.neighbors.foldl (fun (g : NeighborGraph) n => g.mergeNeighbor F c senderIsDirect n) g
  let (edges, downstream) := g.edges.flushPendingDemotion F g.myNode c.nowMs g.downstream
  { g with edges := edges, downstream := downstream }

/-- The chunk is gathered; the sweep runs once the list is complete, but not
for a boot broadcast.
mirrors crates/mesh-routing/src/neighbor_graph.rs:1415-1482 -/
def completeList (c : Call) : NeighborGraph :=
  let (slots, listed) := reassemble g.pendingListed c
  let g := { g with pendingListed := slots }
  match listed with
  | none => g
  | some ids => if c.bootReset then g else g.sweepUnlisted F c.sender ids c.nowMs

/-- The formats and the receiver's role let the list through.
mirrors crates/mesh-routing/src/neighbor_graph.rs:1220-1230 -/
def formatOk (c : Call) : Bool :=
  c.header.formatVersion == PACKED_NEIGHBOR_FORMAT_VERSION &&
    c.header.routingVersion == SIGNAL_ROUTING_VERSION

/-- mirrors crates/mesh-routing/src/neighbor_graph.rs:1211-1482 -/
def mergeTopology (c : Call) : NeighborGraph × TopologyMergeResult :=
  if !formatOk c then (g, .ignoredFormat)
  else if !g.isActiveRoutingRole && !c.isDirect then
    ({ g with
      capability := g.capability.trackTopology c.sender c.header.signalRoutingActive c.nowMs },
      .ignoredFormat)
  else if !g.versionAccepted c then
    ({ g with topoVersions := g.topoVersions.noteTopoVersionStale c.sender c.received },
      .stale c.received (g.topoVersions.topoVersionEntry c.sender).1)
  else
    let g := g.noteAccepted F c
    if !g.senderHorizonOk c && g.isActiveRoutingRole then (g, .applied 0 c.received)
    else
      ((g.mergeListed F c).completeList F c, .applied (UInt8.ofNat c.neighbors.length) c.received)

/-- The list is taken: its formats fit, it did not come through a relay to a
node of a passive role, and its version is accepted. -/
def accepts (c : Call) : Bool :=
  formatOk c && (g.isActiveRoutingRole || c.isDirect) && g.versionAccepted c

/-- An accepted list whose sender lies beyond the horizon is dropped. -/
def beyondHorizon (c : Call) : Bool :=
  !(g.noteAccepted F c).senderHorizonOk c && g.isActiveRoutingRole

theorem mergeTopology_accepted {c : Call} (h : g.accepts c = true) :
    g.mergeTopology F c =
      if g.beyondHorizon F c then (g.noteAccepted F c, .applied 0 c.received)
      else (((g.noteAccepted F c).mergeListed F c).completeList F c,
        .applied (UInt8.ofNat c.neighbors.length) c.received) := by
  unfold accepts at h
  simp only [Bool.and_eq_true] at h
  obtain ⟨⟨hformat, hrole⟩, hversion⟩ := h
  have hrelayed : (!g.isActiveRoutingRole && !c.isDirect) = false := by
    rw [← Bool.not_or, hrole]
    rfl
  unfold mergeTopology
  rw [hformat, hversion, hrelayed]
  rfl

/-- A list that is not taken leaves a note at most: of its sender's version, or
of what its sender is. -/
theorem mergeTopology_rejected {c : Call} (h : g.accepts c = false) :
    ∃ capability topoVersions, (g.mergeTopology F c).1 =
      { g with capability := capability, topoVersions := topoVersions } := by
  unfold mergeTopology
  dsimp only
  by_cases hformat : (!formatOk c) = true
  · rw [if_pos hformat]
    exact ⟨_, _, rfl⟩
  · rw [if_neg hformat]
    by_cases hrole : (!g.isActiveRoutingRole && !c.isDirect) = true
    · rw [if_pos hrole]
      exact ⟨_, _, rfl⟩
    · rw [if_neg hrole]
      by_cases hversion : (!g.versionAccepted c) = true
      · rw [if_pos hversion]
        exact ⟨_, _, rfl⟩
      · unfold accepts at h
        rw [← Bool.not_or] at hrole
        rw [Bool.not_eq_true', Bool.not_eq_false] at hformat hrole hversion
        rw [hformat, hrole, hversion] at h
        cases h

theorem refused_eq (c : Call) : (g.mergeTopology F c).2.refused = !g.accepts c := by
  cases h : g.accepts c with
  | true =>
    rw [mergeTopology_accepted g F h]
    split <;> rfl
  | false =>
    unfold mergeTopology
    by_cases hformat : formatOk c = true
    · by_cases hrole : (g.isActiveRoutingRole || c.isDirect) = true
      · have hversion : g.versionAccepted c = false := by
          unfold accepts at h
          rw [hformat, hrole] at h
          exact h
        have hrelayed : (!g.isActiveRoutingRole && !c.isDirect) = false := by
          rw [← Bool.not_or, hrole]
          rfl
        rw [hformat, hversion, hrelayed]
        rfl
      · have hrelayed : (!g.isActiveRoutingRole && !c.isDirect) = true := by
          rw [← Bool.not_or, Bool.eq_false_iff.mpr hrole]
          rfl
        rw [hformat, hrelayed]
        rfl
    · rw [Bool.eq_false_iff.mpr hformat]
      rfl

end

end NeighborGraph

end Meshrustic.Topology
