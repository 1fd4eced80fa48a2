import Meshrustic.Topology.Admission

/-!
# The edge store as its arrays (`mesh-routing/src/graph/edge.rs`)

`EdgeStore` carries its invariant in its fields, and its writes check what would
break it. The code has no such checks: it keeps an array of nodes with a count,
each with an array of edges and a count, compacts them in place, moves the last
node into a gap and appends without looking. Here are the same operations on the
bare lists, with every write as the code makes it.
-/
namespace Meshrustic.Topology

open Meshrustic.Graph Meshrustic.Relay

/-- mirrors crates/mesh-routing/src/graph/edge.rs:133-141; the edges in use. -/
structure NodeRow where
  nodeId : UInt32
  lastFullUpdateMs : UInt32
  cls : NodeClass
  parentHint : UInt32
  edges : List Edge

/-- mirrors crates/mesh-routing/src/graph/edge.rs:177-182; the nodes in use. -/
structure EdgeRows where
  nodes : List NodeRow
  pendingDemotion : Option PendingDemotion

/-- mirrors crates/mesh-routing/src/graph/edge.rs:163-167 -/
def NodeRow.findEdge (n : NodeRow) (toNode : UInt32) : Option Edge :=
  n.edges.find? fun e => e.toNode == toNode

def NodeRow.fresh (nodeId nowMs : UInt32) (cls : NodeClass) (parentHint : UInt32) : NodeRow :=
  ⟨nodeId, nowMs, cls, parentHint, []⟩

/-- Changes the first row that passes `p`. -/
def modifyFirst {α : Type} (p : α → Bool) (f : α → α) : List α → List α
  | [] => []
  | x :: xs => if p x then f x :: xs else x :: modifyFirst p f xs

/-- The last row takes the place of row `i`. -/
def swapRemove {α : Type} (rows : List α) (i : Nat) : List α :=
  ((⟨rows, Nat.le_refl _⟩ : Table rows.length α).swapRemove i).rows

namespace EdgeRows

/-- mirrors crates/mesh-routing/src/graph/edge.rs:191-214 -/
def new : EdgeRows := ⟨[], none⟩

section

variable (s : EdgeRows)

def ids : List UInt32 := s.nodes.map (·.nodeId)

/-- mirrors crates/mesh-routing/src/graph/edge.rs:220-223 -/
def clear (_ : EdgeRows) : EdgeRows := ⟨[], none⟩

/-- mirrors crates/mesh-routing/src/graph/edge.rs:225-227 -/
def takePendingDemotion : EdgeRows × Option PendingDemotion :=
  ({ s with pendingDemotion := none }, s.pendingDemotion)

/-! ## Reads -/

/-- mirrors crates/mesh-routing/src/graph/edge.rs:274-278 -/
def findNode (nodeId : UInt32) : Option NodeRow := s.nodes.find? fun n => n.nodeId == nodeId

/-- `find_node(a).and_then(|n| n.find_edge(b))` -/
def edge (a b : UInt32) : Option Edge := (s.findNode a).bind fun n => n.findEdge b

/-- mirrors crates/mesh-routing/src/graph/edge.rs:713-720 -/
def hasDirectReportedEdgeTo (a b : UInt32) : Bool := (s.edge a b).any fun e => e.source == .reported

/-- mirrors crates/mesh-routing/src/graph/edge.rs:707-711 -/
def isOurDirectNeighbor (nodeId myNode : UInt32) : Bool := (s.edge myNode nodeId).isSome

/-- mirrors crates/mesh-routing/src/graph/edge.rs:722-731 -/
def reachableViaNeighbor (nodeId : UInt32) : Bool :=
  s.nodes.any fun n => n.edges.any fun e => e.toNode == nodeId

/-- The neighbours we measured ourselves, in list order. -/
def reportedTo (myNode : UInt32) : List Edge :=
  match s.findNode myNode with
  | none => []
  | some me => me.edges.filter fun e => e.toNode != 0 && e.source == .reported

/-- mirrors crates/mesh-routing/src/graph/edge.rs:525-573 -/
def classifyCandidate (nodeId myNode : UInt32) : NodeClass :=
  if nodeId == myNode then .l1
  else if s.hasDirectReportedEdgeTo myNode nodeId then .l1
  else if (s.reportedTo myNode).any fun l1 =>
      ((s.edge l1.toNode nodeId).any fun e => e.hearsUs) || (s.edge nodeId l1.toNode).isSome then .l2
  else if s.nodes.any fun n =>
      n.cls == .l2 && (((n.findEdge nodeId).any fun e => e.hearsUs) ||
        (s.edge nodeId n.nodeId).isSome) then .l3
  else .unknown

/-- mirrors crates/mesh-routing/src/graph/edge.rs:575-600 -/
def bootstrapClassFromReachability (nodeId myNode : UInt32) : NodeClass :=
  if (s.reportedTo myNode).any fun l1 => (s.edge l1.toNode nodeId).isSome then .l2
  else if s.nodes.any fun n => n.cls == .l2 && (n.findEdge nodeId).isSome then .l3
  else .unknown

def classOrBootstrap (nodeId myNode : UInt32) : NodeClass :=
  let cls := s.classifyCandidate nodeId myNode
  if cls == .unknown then s.bootstrapClassFromReachability nodeId myNode else cls

/-- mirrors crates/mesh-routing/src/graph/edge.rs:367-394 -/
def selectEvictionVictim (myNode nowMs : UInt32) : Option Nat :=
  (s.nodes.zipIdx.foldl
    (fun (best : Option EdgeStore.Victim) (row : NodeRow × Nat) =>
      if row.1.nodeId == myNode then best
      else if row.1.cls == .l1 then best
      else
        let v : EdgeStore.Victim := ⟨row.2, row.1.cls.evictionRank, row.1.edges.length,
          nowMs - row.1.lastFullUpdateMs⟩
        if v.better best then some v else best)
    none).map (·.idx)

/-- mirrors crates/mesh-routing/src/graph/edge.rs:396-431 -/
def pickL1Parent (victim myNode : UInt32) : Option (UInt32 × UInt16) :=
  let hint := match s.findNode victim with
    | none => 0
    | some n => n.parentHint
  if hint != 0 && s.isOurDirectNeighbor hint myNode then
    match s.edge myNode hint with
    | none => some (hint, 200)
    | some e => some (hint, e.etxFixed)
  else
    (s.reportedTo myNode).foldl
      (fun (best : Option (UInt32 × UInt16)) l1 =>
        let listsV := (s.edge l1.toNode victim).isSome
        let vLists := (s.edge victim l1.toNode).any fun e => e.hearsUs
        if !listsV && !vLists && hint != l1.toNode then best
        else if (best.all fun b => l1.etxFixed < b.2) then some (l1.toNode, l1.etxFixed)
        else best)
      none

/-- The walk from us along edges, in either direction; `fuel` bounds the nodes
taken from the stack, each of which is put there once.
mirrors crates/mesh-routing/src/graph/edge.rs:623-656 -/
def reachableFrom : Nat → List UInt32 × List UInt32 → List UInt32
  | 0, st => st.2
  | _ + 1, ([], reached) => reached
  | fuel + 1, (cur :: stack, reached) =>
    match s.findNode cur with
    | none => reachableFrom fuel (stack, reached)
    | some n =>
      let forward := n.edges.filter fun e => (s.findNode e.toNode).isSome
      let st := forward.foldl (fun st e => EdgeStore.reach st e.toNode) (stack, reached)
      let backward := s.nodes.filter fun n => (n.findEdge cur).isSome
      reachableFrom fuel (backward.foldl (fun st n => EdgeStore.reach st n.nodeId) st)

/-! ## Writes -/

/-- `if let Some(node) = self.find_node_mut(id)` -/
def modifyNode (nodeId : UInt32) (f : NodeRow → NodeRow) : EdgeRows :=
  { s with nodes := modifyFirst (fun n => n.nodeId == nodeId) f s.nodes }

/-- `self.nodes[self.node_count] = node; self.node_count += 1` -/
def pushNode (n : NodeRow) : EdgeRows := { s with nodes := s.nodes ++ [n] }

/-- mirrors crates/mesh-routing/src/graph/edge.rs:518-523 -/
def removeNodeAt (i : Nat) : EdgeRows := { s with nodes := swapRemove s.nodes i }

/-- mirrors crates/mesh-routing/src/graph/edge.rs:248-261 -/
def setNodeClass (nodeId : UInt32) (cls : NodeClass) (parentHint : UInt32) : EdgeRows :=
  s.modifyNode nodeId fun n =>
    let n := if n.cls == .l1 && cls != .l1 then n else { n with cls := cls }
    if parentHint != 0 then { n with parentHint := parentHint } else n

/-- mirrors crates/mesh-routing/src/graph/edge.rs:263-268 -/
def setL1 (nodeId : UInt32) : EdgeRows :=
  s.modifyNode nodeId fun n => { n with cls := .l1, parentHint := 0 }

/-- mirrors crates/mesh-routing/src/graph/edge.rs:342-344 -/
def touchNode (nodeId nowMs : UInt32) : EdgeRows :=
  s.modifyNode nodeId fun n => { n with lastFullUpdateMs := nowMs }

/-- mirrors crates/mesh-routing/src/graph/edge.rs:1137-1147 -/
def updateNodeActivity (nodeId nowMs myNode : UInt32) : EdgeRows × Bool :=
  if nodeId == 0 || nodeId == myNode then (s, false)
  else (s.touchNode nodeId nowMs, (s.findNode nodeId).isSome)

/-- `find_node_mut(a).and_then(|n| n.find_edge_mut(b))`: what the callers write of
an edge leaves its target as it is. -/
def modifyEdge (a b : UInt32) (f : Edge → Edge) : EdgeRows :=
  let keepTarget := fun (e : Edge) => { (f e) with toNode := e.toNode }
  s.modifyNode a fun n => { n with edges := modifyFirst (fun e => e.toNode == b) keepTarget n.edges }

/-- mirrors crates/mesh-routing/src/graph/edge.rs:907-913 -/
def setEdgeHearsUs (a b : UInt32) (hearsUs : Bool) : EdgeRows :=
  s.modifyEdge a b fun e => { e with hearsUs }

/-- mirrors crates/mesh-routing/src/graph/edge.rs:915-939 -/
def retainListedEdges (sender : UInt32) (listed : List UInt32) : EdgeRows × Bool :=
  match s.findNode sender with
  | none => (s, false)
  | some n =>
    (s.modifyNode sender fun n => { n with edges := n.edges.filter (EdgeStore.keepsEdge listed) },
      n.edges.any fun e => !EdgeStore.keepsEdge listed e)

/-- mirrors crates/mesh-routing/src/graph/edge.rs:941-957 -/
def clearHearsUsToUnlisted (sender : UInt32) (listed : List UInt32) : EdgeRows :=
  { s with
    nodes := s.nodes.map fun n =>
      if n.nodeId == sender then n
      else { n with edges := n.edges.map fun e =>
        if e.toNode == sender && e.hearsUs && !listed.contains n.nodeId then
          { e with hearsUs := false }
        else e } }

/-- mirrors crates/mesh-routing/src/graph/edge.rs:1071-1090 -/
def removeEdgesTo (target : UInt32) : EdgeRows :=
  { s with
    nodes := s.nodes.map fun n => { n with edges := n.edges.filter fun e => e.toNode != target } }

/-- mirrors crates/mesh-routing/src/graph/edge.rs:1092-1113 -/
def removeEdge (a b : UInt32) : EdgeRows × Bool :=
  match s.findNode a with
  | none => (s, false)
  | some n =>
    (s.modifyNode a fun n => { n with edges := n.edges.filter fun e => e.toNode != b },
      n.edges.any fun e => e.toNode == b)

/-- mirrors crates/mesh-routing/src/graph/edge.rs:1115-1129 -/
def removeNode (nodeId : UInt32) : EdgeRows × Bool :=
  if nodeId == 0 then (s, false)
  else
    let s := s.removeEdgesTo nodeId
    match s.nodes.findIdx? fun n => n.nodeId == nodeId with
    | none => (s, false)
    | some i => (s.removeNodeAt i, true)

end

/-! ## Demotion and eviction -/

section

variable {Etx : Type} (F : F32 Etx) (s : EdgeRows)

/-- mirrors crates/mesh-routing/src/graph/edge.rs:460-495 -/
def applyDemotion (myNode : UInt32) (d : PendingDemotion) (nowMs : UInt32) (ds : DownstreamTable) :
    EdgeRows × DownstreamTable :=
  let listedHears := (s.edge d.parent d.victim).any fun e => e.hearsUs
  let ds := ds.updateInner F myNode d.victim d.parent (F.ofFixed d.costFixed) nowMs false 0
    listedHears
  ({ s with pendingDemotion := none }, ds.transferDownstream d.victim d.parent nowMs)

/-- mirrors crates/mesh-routing/src/graph/edge.rs:497-506 -/
def flushPendingDemotion (myNode nowMs : UInt32) (ds : DownstreamTable) :
    EdgeRows × DownstreamTable :=
  match s.pendingDemotion with
  | none => (s, ds)
  | some d => s.applyDemotion F myNode d nowMs ds

/-- mirrors crates/mesh-routing/src/graph/edge.rs:433-458 -/
def evictForCapacity (nowMs myNode : UInt32) (downstream : Option DownstreamTable) :
    Option (EdgeRows × Option DownstreamTable) :=
  match s.selectEvictionVictim myNode nowMs with
  | none => none
  | some idx =>
    match s.nodes[idx]? with
    | none => none
    | some n =>
      match s.pickL1Parent n.nodeId myNode, downstream with
      | some (parent, cost), some ds =>
        let (s, ds) := s.applyDemotion F myNode ⟨n.nodeId, parent, cost⟩ nowMs ds
        some (s.removeNodeAt idx, some ds)
      | some (parent, cost), none =>
        some ({ s with pendingDemotion := some ⟨n.nodeId, parent, cost⟩ }.removeNodeAt idx, none)
      | none, some _ => none
      | none, none => some (s.removeNodeAt idx, none)

/-- mirrors crates/mesh-routing/src/graph/edge.rs:508-516 -/
def demoteForCapacity (nowMs myNode : UInt32) (ds : DownstreamTable) :
    EdgeRows × DownstreamTable × Bool :=
  match s.evictForCapacity F nowMs myNode (some ds) with
  | some (s, some ds) => (s, ds, true)
  | _ => (s, ds, false)

/-- mirrors crates/mesh-routing/src/graph/edge.rs:294-323 -/
def findOrCreateNode (nodeId nowMs myNode : UInt32) : Option EdgeRows :=
  if (s.findNode nodeId).isSome then some s
  else
    let room :=
      if s.nodes.length < MAX_GRAPH_NODES then some s
      else (s.evictForCapacity F nowMs myNode none).map (·.1)
    room.map fun s =>
      s.pushNode (.fresh nodeId nowMs (if nodeId == myNode then .l1 else .unknown) 0)

/-- mirrors crates/mesh-routing/src/graph/edge.rs:1131-1135 -/
def ensureLocalNode (myNode nowMs : UInt32) : EdgeRows :=
  if (s.findNode myNode).isNone then (s.findOrCreateNode F myNode nowMs myNode).getD s else s

/-- mirrors crates/mesh-routing/src/graph/edge.rs:325-365 -/
def ensurePublisher (nodeId : UInt32) (cls : NodeClass) (parentHint nowMs myNode : UInt32)
    (ds : DownstreamTable) : EdgeRows × DownstreamTable × Bool :=
  if nodeId == 0 || nodeId == myNode then (s, ds, true)
  else if !classWithinDepth cls then (s, ds, false)
  else if (s.findNode nodeId).isSome then
    ((s.setNodeClass nodeId cls parentHint).touchNode nodeId nowMs, ds, true)
  else
    let room :=
      if s.nodes.length < MAX_GRAPH_NODES then some (s, ds)
      else
        match s.evictForCapacity F nowMs myNode (some ds) with
        | some (s, some ds) => some (s, ds)
        | _ => none
    match room with
    | none => (s, ds, false)
    | some (s, ds) => (s.pushNode (.fresh nodeId nowMs cls parentHint), ds, true)

/-! ## Edges -/

/-- mirrors crates/mesh-routing/src/graph/edge.rs:760-776 -/
def admitOwner (owner nowMs myNode : UInt32) : Option EdgeRows :=
  if owner == myNode || (s.findNode owner).isSome then some s
  else if isPlaceholderNode owner then some ((s.findOrCreateNode F owner nowMs myNode).getD s)
  else if !s.isOurDirectNeighbor owner myNode && !s.reachableViaNeighbor owner then none
  else if classWithinDepth (s.classOrBootstrap owner myNode) then some s
  else none

/-- mirrors crates/mesh-routing/src/graph/edge.rs:781-797 -/
def classifyEnds (myNode a b nowMs : UInt32) (source : EdgeSource) : EdgeRows :=
  if a == myNode then
    let s := (s.findOrCreateNode F b nowMs myNode).getD s
    if source == .reported then s.setL1 b else s
  else
    let cls := s.classOrBootstrap a myNode
    if cls != .unknown then
      s.setNodeClass a cls (match s.findNode a with
        | none => 0
        | some n => n.parentHint)
    else s

/-- The list of `a` takes the edge to `b`: the edge that is there is measured
again, or a new one is appended, or takes the place of the worst.
mirrors crates/mesh-routing/src/graph/edge.rs:801-883 -/
def writeEdge (n : NodeRow) (b : UInt32) (etx : Etx) (nowMs : UInt32) (source : EdgeSource)
    (updateTimestamp : Bool) (heardOn : UInt8) : NodeRow × EdgeChange :=
  let n := if updateTimestamp then { n with lastFullUpdateMs := nowMs } else n
  let new : Edge := {
    toNode := b, etxFixed := F.etxToFixed etx, lastUpdateMs := nowMs, source := source
    heardOn := heardOn }
  let again := fun (e : Edge) => EdgeStore.remeasure F e etx nowMs source updateTimestamp heardOn
  match n.findEdge b with
  | some e =>
    if source.rank < e.source.rank then (n, .noChange)
    else
      ({ n with edges := modifyFirst (fun e => e.toNode == b) again n.edges },
        if F.significant e.etxVariance e.etxFixed etx then .significantChange else .noChange)
  | none =>
    if n.edges.length < MAX_EDGES_PER_NODE then ({ n with edges := n.edges ++ [new] }, .new)
    else
      match EdgeStore.worstEdge F n.edges source nowMs with
      | none => (n, .noChange)
      | some (i, worstScore) =>
        if !F.below etx worstScore then (n, .noChange)
        else ({ n with edges := n.edges.set i new }, .new)

/-- mirrors crates/mesh-routing/src/graph/edge.rs:745-882 -/
def updateEdge (myNode a b : UInt32) (etx : Etx) (nowMs : UInt32) (source : EdgeSource)
    (updateTimestamp : Bool) (heardOn : UInt8) : EdgeRows × EdgeChange :=
  if b == 0 || a == 0 || a == b || !F.positive etx then (s, .noChange)
  else
    match s.admitOwner F a nowMs myNode with
    | none => (s, .noChange)
    | some s =>
      match s.findOrCreateNode F a nowMs myNode with
      | none => (s, .noChange)
      | some s =>
        let s := s.classifyEnds F myNode a b nowMs source
        match s.findNode a with
        | none => (s, .noChange)
        | some n =>
          (s.modifyNode a fun n => (writeEdge F n b etx nowMs source updateTimestamp heardOn).1,
            (writeEdge F n b etx nowMs source updateTimestamp heardOn).2)

/-- mirrors crates/mesh-routing/src/graph/edge.rs:884-898 -/
def updateEdgeFromObservation (myNode a b : UInt32) (rssi : Int16) (snr : Int8) (nowMs : UInt32)
    (source : EdgeSource) (heardOn modemPreset : UInt8) : EdgeRows × EdgeChange :=
  s.updateEdge F myNode a b (F.calculateEtx rssi.toInt32 snr modemPreset) nowMs source true heardOn

/-! ## Pruning and ageing -/

/-- A victim goes, and its destinations are handed over or forgotten.
mirrors crates/mesh-routing/src/graph/edge.rs:666-687 -/
def dropVictim (myNode nowMs : UInt32) (st : EdgeRows × DownstreamTable × Bool) (victim : UInt32) :
    EdgeRows × DownstreamTable × Bool :=
  let (s, ds) := match st.1.pickL1Parent victim myNode with
    | some (parent, cost) => st.1.applyDemotion F myNode ⟨victim, parent, cost⟩ nowMs st.2.1
    | none => (st.1, (st.2.1.clearForRelay victim).clearForDestination victim)
  let (s, removed) := s.removeNode victim
  (s, ds, removed || st.2.2)

/-- mirrors crates/mesh-routing/src/graph/edge.rs:602-690 -/
def pruneUnreachableFromRoot (myNode nowMs : UInt32) (ds : DownstreamTable) :
    EdgeRows × DownstreamTable × Bool :=
  if (s.findNode myNode).isNone then (s, ds, false)
  else
    let reached := s.reachableFrom s.nodes.length ([myNode], [myNode])
    let doomed := s.ids.filter fun id => !reached.contains id && id != myNode
    doomed.foldl (dropVictim F myNode nowMs) (s, ds, false)

/-- mirrors crates/mesh-routing/src/graph/edge.rs:692-705 -/
def removeEdgeAndPrune (a b myNode nowMs : UInt32) (ds : DownstreamTable) :
    EdgeRows × DownstreamTable × Bool :=
  match s.removeEdge a b with
  | (_, false) => (s, ds, false)
  | (s, true) =>
    let (s, ds, _) := s.pruneUnreachableFromRoot F myNode nowMs ds
    (s, ds, true)

/-- Every edge that was last written too long ago goes.
mirrors crates/mesh-routing/src/graph/edge.rs:997-1013 -/
def dropOldEdges (nowMs ttlMs : UInt32) : EdgeRows × Bool :=
  let keep := fun (e : Edge) => decide (nowMs - e.lastUpdateMs ≤ ttlMs)
  ({ s with nodes := s.nodes.map fun n => { n with edges := n.edges.filter keep } },
    s.nodes.any fun n => n.edges.any fun e => !keep e)

/-- The node is not heard by us, and is stale, or unclassed and without edges.
mirrors crates/mesh-routing/src/graph/edge.rs:1015-1036 -/
def ages (myNode nowMs ttlMs : UInt32) (n : NodeRow) : Bool :=
  n.nodeId != myNode && !s.hasDirectReportedEdgeTo myNode n.nodeId &&
    (decide (ttlMs < nowMs - n.lastFullUpdateMs) ||
      (n.edges.isEmpty && !classWithinDepth n.cls))

/-- Without a downstream table the victims just go.
mirrors crates/mesh-routing/src/graph/edge.rs:990-1069 -/
def ageEdges (myNode nowMs ttlMs : UInt32) (downstream : Option DownstreamTable) :
    EdgeRows × Option DownstreamTable × Bool :=
  let (s, changed) := s.dropOldEdges nowMs ttlMs
  let victims := (s.nodes.filter (s.ages myNode nowMs ttlMs)).map (·.nodeId)
  match downstream with
  | none =>
    let (s, changed) := victims.foldl
      (fun (st : EdgeRows × Bool) victim =>
        let (s, removed) := st.1.removeNode victim
        (s, removed || st.2))
      (s, changed)
    (s, none, changed)
  | some ds =>
    let (s, ds, changed) := victims.foldl (dropVictim F myNode nowMs) (s, ds, changed)
    if changed then
      let (s, ds, _) := s.pruneUnreachableFromRoot F myNode nowMs ds
      (s, some ds, true)
    else (s, some ds, false)

end

end EdgeRows

end Meshrustic.Topology
