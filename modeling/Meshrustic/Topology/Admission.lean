import Meshrustic.Topology.Store

/-!
# Admission, eviction and pruning (`mesh-routing/src/graph/edge.rs`)

Which nodes the store keeps: `update_edge` admits the owner of an edge if its
class is within depth, `ensure_publisher` a listed one; a full store evicts;
`prune_unreachable_from_root` removes what no chain of edges joins to us. A
node that leaves hands its destinations to a direct neighbour, at once or
through `pending_demotion` where the caller has no downstream table at hand.
-/
namespace Meshrustic.Topology

open Meshrustic.Graph Meshrustic.Relay

namespace EdgeStore

section

variable (edges : EdgeStore)

/-! ## Classes -/

/-- mirrors crates/mesh-routing/src/graph/edge.rs:515-560 -/
def classifyCandidate (nodeId myNode : UInt32) : NodeClass :=
  if nodeId == myNode then .l1
  else if edges.hasDirectReportedEdgeTo myNode nodeId then .l1
  else if (edges.reportedTo myNode).any fun l1 =>
      ((edges.edge l1.toNode nodeId).any fun e => e.hearsUs) ||
        (edges.edge nodeId l1.toNode).isSome then .l2
  else if edges.nodes.rows.any fun n =>
      n.cls == .l2 && (((n.findEdge nodeId).any fun e => e.hearsUs) ||
        (edges.edge nodeId n.nodeId).isSome) then .l3
  else .unknown

/-- mirrors crates/mesh-routing/src/graph/edge.rs:562-586 -/
def bootstrapClassFromReachability (nodeId myNode : UInt32) : NodeClass :=
  if (edges.reportedTo myNode).any fun l1 => (edges.edge l1.toNode nodeId).isSome then .l2
  else if edges.nodes.rows.any fun n => n.cls == .l2 && (n.findEdge nodeId).isSome then .l3
  else .unknown

/-- `classify_candidate`, with `bootstrap_class_from_reachability` behind it. -/
def classOrBootstrap (nodeId myNode : UInt32) : NodeClass :=
  let cls := edges.classifyCandidate nodeId myNode
  if cls == .unknown then edges.bootstrapClassFromReachability nodeId myNode else cls

/-! ## Eviction -/

/-- One candidate of the scan: its index, rank, edge count and age. -/
structure Victim where
  idx : Nat
  rank : Nat
  edgeCount : Nat
  age : UInt32

/-- mirrors crates/mesh-routing/src/graph/edge.rs:386-391 -/
def Victim.better (v : Victim) : Option Victim → Bool
  | none => true
  | some b =>
    decide (b.rank < v.rank) || (v.rank == b.rank &&
      (decide (v.edgeCount < b.edgeCount) ||
        (v.edgeCount == b.edgeCount && decide (b.age < v.age))))

/-- `evict_for_capacity` always protects L1.
mirrors crates/mesh-routing/src/graph/edge.rs:367-397 -/
def selectEvictionVictim (myNode nowMs : UInt32) : Option Nat :=
  (edges.nodes.rows.zipIdx.foldl
    (fun (best : Option Victim) (row : NodeEdges × Nat) =>
      if row.1.nodeId == myNode then best
      else if row.1.cls == .l1 then best
      else
        let v : Victim := ⟨row.2, row.1.cls.evictionRank, row.1.edges.rows.length,
          nowMs - row.1.lastFullUpdateMs⟩
        if v.better best then some v else best)
    none).map (·.idx)

/-- mirrors crates/mesh-routing/src/graph/edge.rs:399-435 -/
def pickL1Parent (victim myNode : UInt32) : Option (UInt32 × UInt16) :=
  let hint := match edges.findNode victim with
    | none => 0
    | some n => n.parentHint
  if hint != 0 && edges.isOurDirectNeighbor hint myNode then
    match edges.edge myNode hint with
    | none => some (hint, 200)
    | some e => some (hint, e.etxFixed)
  else
    (edges.reportedTo myNode).foldl
      (fun (best : Option (UInt32 × UInt16)) l1 =>
        let listsV := (edges.edge l1.toNode victim).isSome
        let vLists := (edges.edge victim l1.toNode).any fun e => e.hearsUs
        if !listsV && !vLists && hint != l1.toNode then best
        else if (best.all fun b => l1.etxFixed < b.2) then some (l1.toNode, l1.etxFixed)
        else best)
      none

end

section

variable {Etx : Type} (F : F32 Etx) (edges : EdgeStore)

/-- mirrors crates/mesh-routing/src/graph/edge.rs:464-496 -/
def applyDemotion (myNode : UInt32) (d : PendingDemotion) (nowMs : UInt32) (ds : DownstreamTable) :
    EdgeStore × DownstreamTable :=
  let listedHears := (edges.edge d.parent d.victim).any fun e => e.hearsUs
  let ds := ds.updateInner F myNode d.victim d.parent (F.ofFixed d.costFixed) nowMs false 0
    listedHears
  ({ edges with pendingDemotion := none }, ds.transferDownstream d.victim d.parent nowMs)

/-- mirrors crates/mesh-routing/src/graph/edge.rs:498-507 -/
def flushPendingDemotion (myNode nowMs : UInt32) (ds : DownstreamTable) :
    EdgeStore × DownstreamTable :=
  match edges.pendingDemotion with
  | none => (edges, ds)
  | some d => edges.applyDemotion F myNode d nowMs ds

/-- Without a downstream table the demotion is left pending; with one, a
victim that nobody serves is not evicted.
mirrors crates/mesh-routing/src/graph/edge.rs:437-462 -/
def evictForCapacity (nowMs myNode : UInt32) (downstream : Option DownstreamTable) :
    Option (EdgeStore × Option DownstreamTable) :=
  match edges.selectEvictionVictim myNode nowMs with
  | none => none
  | some idx =>
    match edges.nodes.rows[idx]? with
    | none => none
    | some n =>
      match edges.pickL1Parent n.nodeId myNode, downstream with
      | some (parent, cost), some ds =>
        let (edges, ds) := edges.applyDemotion F myNode ⟨n.nodeId, parent, cost⟩ nowMs ds
        some (edges.removeNodeAt idx, some ds)
      | some (parent, cost), none =>
        some ({ edges with pendingDemotion := some ⟨n.nodeId, parent, cost⟩ }.removeNodeAt idx,
          none)
      | none, some _ => none
      | none, none => some (edges.removeNodeAt idx, none)

/-- mirrors crates/mesh-routing/src/graph/edge.rs:294-323 -/
def findOrCreateNode (nodeId nowMs myNode : UInt32) : Option EdgeStore :=
  if (edges.findNode nodeId).isSome then some edges
  else
    let room :=
      if edges.nodes.rows.length < MAX_GRAPH_NODES then some edges
      else (edges.evictForCapacity F nowMs myNode none).map (·.1)
    room.map fun edges =>
      edges.pushNode (.fresh nodeId nowMs (if nodeId == myNode then .l1 else .unknown) 0)

/-- mirrors crates/mesh-routing/src/graph/edge.rs:1132-1136 -/
def ensureLocalNode (myNode nowMs : UInt32) : EdgeStore :=
  if (edges.findNode myNode).isNone then (edges.findOrCreateNode F myNode nowMs myNode).getD edges
  else edges

/-- mirrors crates/mesh-routing/src/graph/edge.rs:325-365 -/
def ensurePublisher (nodeId : UInt32) (cls : NodeClass) (parentHint nowMs myNode : UInt32)
    (ds : DownstreamTable) : EdgeStore × DownstreamTable × Bool :=
  if nodeId == 0 || nodeId == myNode then (edges, ds, true)
  else if !classWithinDepth cls then (edges, ds, false)
  else if (edges.findNode nodeId).isSome then
    ((edges.setNodeClass nodeId cls parentHint).touchNode nodeId nowMs, ds, true)
  else
    let room :=
      if edges.nodes.rows.length < MAX_GRAPH_NODES then some (edges, ds)
      else
        match edges.evictForCapacity F nowMs myNode (some ds) with
        | some (edges, some ds) => some (edges, ds)
        | _ => none
    match room with
    | none => (edges, ds, false)
    | some (edges, ds) => (edges.pushNode (.fresh nodeId nowMs cls parentHint), ds, true)

/-! ## Edges -/

/-- The owner of an edge may be stored: it is us, is stored already, is a
placeholder, or is heard of and classed within depth.
mirrors crates/mesh-routing/src/graph/edge.rs:760-776 -/
def admitOwner (owner nowMs myNode : UInt32) : Option EdgeStore :=
  if owner == myNode || (edges.findNode owner).isSome then some edges
  else if isPlaceholderNode owner then
    some ((edges.findOrCreateNode F owner nowMs myNode).getD edges)
  else if !edges.isOurDirectNeighbor owner myNode && !edges.reachableViaNeighbor owner then none
  else if classWithinDepth (edges.classOrBootstrap owner myNode) then some edges
  else none

/-- mirrors crates/mesh-routing/src/graph/edge.rs:781-797 -/
def classifyEnds (myNode a b nowMs : UInt32) (source : EdgeSource) : EdgeStore :=
  if a == myNode then
    let edges := (edges.findOrCreateNode F b nowMs myNode).getD edges
    if source == .reported then edges.setL1 b else edges
  else
    let cls := edges.classOrBootstrap a myNode
    if cls != .unknown then
      edges.setNodeClass a cls (match edges.findNode a with
        | none => 0
        | some n => n.parentHint)
    else edges

/-- The index and score of the worst edge a list may give up for one of
`source`.
mirrors crates/mesh-routing/src/graph/edge.rs:851-867 -/
def worstEdge (rows : List Edge) (source : EdgeSource) (nowMs : UInt32) : Option (Nat × Etx) :=
  rows.zipIdx.foldl
    (fun (worst : Option (Nat × Etx)) (row : Edge × Nat) =>
      if source.rank < row.1.source.rank then worst
      else
        let score := F.score row.1.etxFixed (nowMs - row.1.lastUpdateMs)
        let worstScore := match worst with
          | none => F.least
          | some w => w.2
        if F.below worstScore score then some (row.2, score) else worst)
    none

/-- An edge that is measured again.
mirrors crates/mesh-routing/src/graph/edge.rs:811-829 -/
def remeasure (e : Edge) (etx : Etx) (nowMs : UInt32) (source : EdgeSource) (updateTimestamp : Bool)
    (heardOn : UInt8) : Edge :=
  { e with
    etxFixed := F.etxToFixed etx
    lastUpdateMs := if updateTimestamp then nowMs else e.lastUpdateMs
    etxVariance :=
      if source == .reported then F.updateEtxVariance e.etxVariance e.etxFixed etx
      else e.etxVariance
    source := source
    heardOn := if source == .reported then heardOn else e.heardOn }

/-- The list of `a` takes the edge to `b`.
mirrors crates/mesh-routing/src/graph/edge.rs:805-883 -/
def writeEdge (n : NodeEdges) (b : UInt32) (etx : Etx) (nowMs : UInt32) (source : EdgeSource)
    (updateTimestamp : Bool) (heardOn : UInt8) : NodeEdges × EdgeChange :=
  let new : Edge := {
    toNode := b, etxFixed := F.etxToFixed etx, lastUpdateMs := nowMs, source := source
    heardOn := heardOn }
  match n.findEdge b with
  | some e =>
    if source.rank < e.source.rank then (n, .noChange)
    else
      (n.mapEdges
        (fun e =>
          if e.toNode == b then remeasure F e etx nowMs source updateTimestamp heardOn else e)
        (by intro e; split <;> rfl),
        if F.significant e.etxVariance e.etxFixed etx then .significantChange else .noChange)
  | none =>
    if n.edges.rows.length < MAX_EDGES_PER_NODE then (n.pushEdge new, .new)
    else
      match worstEdge F n.edges.rows source nowMs with
      | none => (n, .noChange)
      | some (i, worstScore) =>
        -- `etx >= worst_score`, prices being numbers
        if !F.below etx worstScore then (n, .noChange) else (n.replaceEdge i new, .new)

theorem writeEdge_nodeId (n : NodeEdges) (b : UInt32) (etx : Etx) (nowMs : UInt32)
    (source : EdgeSource) (updateTimestamp : Bool) (heardOn : UInt8) :
    (writeEdge F n b etx nowMs source updateTimestamp heardOn).1.nodeId = n.nodeId := by
  unfold writeEdge
  dsimp only
  repeat' split
  all_goals simp

/-- The node notes when it published, if this does, and its list takes the edge.
mirrors crates/mesh-routing/src/graph/edge.rs:801-883 -/
def takeEdge (n : NodeEdges) (b : UInt32) (etx : Etx) (nowMs : UInt32) (source : EdgeSource)
    (updateTimestamp : Bool) (heardOn : UInt8) : NodeEdges :=
  (writeEdge F (if updateTimestamp then n.touched nowMs else n) b etx nowMs source updateTimestamp
    heardOn).1

theorem takeEdge_nodeId (n : NodeEdges) (b : UInt32) (etx : Etx) (nowMs : UInt32)
    (source : EdgeSource) (updateTimestamp : Bool) (heardOn : UInt8) :
    (takeEdge F n b etx nowMs source updateTimestamp heardOn).nodeId = n.nodeId := by
  unfold takeEdge
  rw [writeEdge_nodeId]
  split <;> simp

/-- mirrors crates/mesh-routing/src/graph/edge.rs:745-885 -/
def updateEdge (myNode a b : UInt32) (etx : Etx) (nowMs : UInt32) (source : EdgeSource)
    (updateTimestamp : Bool) (heardOn : UInt8) : EdgeStore × EdgeChange :=
  if b == 0 || a == 0 || a == b || !F.positive etx then (edges, .noChange)
  else
    match edges.admitOwner F a nowMs myNode with
    | none => (edges, .noChange)
    | some edges =>
      match edges.findOrCreateNode F a nowMs myNode with
      | none => (edges, .noChange)
      | some edges =>
        let edges := edges.classifyEnds F myNode a b nowMs source
        match edges.findNode a with
        | none => (edges, .noChange)
        | some n =>
          (edges.modifyNode a
            (fun n => takeEdge F n b etx nowMs source updateTimestamp heardOn)
            (fun n => takeEdge_nodeId F n b etx nowMs source updateTimestamp heardOn),
            (writeEdge F n b etx nowMs source updateTimestamp heardOn).2)

/-! ## Pruning -/

/-- One id is reached: it is marked and put on the stack.
mirrors crates/mesh-routing/src/graph/edge.rs:622-628 -/
def reach (st : List UInt32 × List UInt32) (id : UInt32) : List UInt32 × List UInt32 :=
  if st.2.contains id then st
  else (if st.1.length < MAX_GRAPH_NODES then id :: st.1 else st.1, id :: st.2)

/-- The walk from us along edges, in either direction; `fuel` bounds the nodes
taken from the stack, each of which is put there once.
mirrors crates/mesh-routing/src/graph/edge.rs:613-647 -/
def reachableFrom : Nat → List UInt32 × List UInt32 → List UInt32
  | 0, st => st.2
  | _ + 1, ([], reached) => reached
  | fuel + 1, (cur :: stack, reached) =>
    match edges.findNode cur with
    | none => reachableFrom fuel (stack, reached)
    | some n =>
      let forward := n.edges.rows.filter fun e => (edges.findNode e.toNode).isSome
      let st := forward.foldl (fun st e => reach st e.toNode) (stack, reached)
      let backward := edges.nodes.rows.filter fun n => (n.findEdge cur).isSome
      reachableFrom fuel (backward.foldl (fun st n => reach st n.nodeId) st)

/-- mirrors crates/mesh-routing/src/graph/edge.rs:588-692 -/
def pruneUnreachableFromRoot (myNode nowMs : UInt32) (ds : DownstreamTable) :
    EdgeStore × DownstreamTable × Bool :=
  if (edges.findNode myNode).isNone then (edges, ds, false)
  else
    let reached := edges.reachableFrom edges.nodes.rows.length ([myNode], [myNode])
    let doomed := (edges.nodes.rows.map (·.nodeId)).filter fun id =>
      !reached.contains id && id != myNode
    doomed.foldl
      (fun (st : EdgeStore × DownstreamTable × Bool) victim =>
        let (edges, ds) := match st.1.pickL1Parent victim myNode with
          | some (parent, cost) => st.1.applyDemotion F myNode ⟨victim, parent, cost⟩ nowMs st.2.1
          | none => (st.1, (st.2.1.clearForRelay victim).clearForDestination victim)
        let (edges, removed) := edges.removeNode victim
        (edges, ds, removed || st.2.2))
      (edges, ds, false)

end

end EdgeStore

end Meshrustic.Topology
