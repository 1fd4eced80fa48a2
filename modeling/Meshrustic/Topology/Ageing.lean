import Meshrustic.Topology.Admission

/-!
# Removals from the edge store (`mesh-routing/src/graph/edge.rs`)

What the neighbour graph takes out of the store outside of a merge: single
edges, all edges to a node, and what has not been written for too long.
-/
namespace Meshrustic.Topology

open Meshrustic.Graph Meshrustic.Relay

namespace EdgeStore

section

variable (edges : EdgeStore)

/-- `find_node_mut(a).and_then(|n| n.find_edge_mut(b))`: what the callers write of
an edge leaves its target as it is. -/
def modifyEdge (a b : UInt32) (f : Edge → Edge) : EdgeStore :=
  edges.modifyNode a
    (fun n => n.mapEdges (fun e => if e.toNode == b then { (f e) with toNode := e.toNode } else e)
      (by intro e; split <;> rfl))
    fun n => n.mapEdges_nodeId _ _

/-- mirrors crates/mesh-routing/src/graph/edge.rs:1137-1147 -/
def updateNodeActivity (nodeId nowMs myNode : UInt32) : EdgeStore :=
  if nodeId == 0 || nodeId == myNode then edges else edges.touchNode nodeId nowMs

theorem keptRows_nodeId (target : UInt32) (n : NodeEdges) :
    (n.filterEdges fun e => e.toNode != target).nodeId = n.nodeId :=
  n.filterEdges_nodeId _

/-- mirrors crates/mesh-routing/src/graph/edge.rs:1071-1090 -/
def removeEdgesTo (target : UInt32) : EdgeStore :=
  edges.mapNodes (fun n => n.filterEdges fun e => e.toNode != target) (keptRows_nodeId target)

/-- mirrors crates/mesh-routing/src/graph/edge.rs:1092-1113 -/
def removeEdge (a b : UInt32) : EdgeStore × Bool :=
  match edges.findNode a with
  | none => (edges, false)
  | some n =>
    (edges.modifyNode a (fun n => n.filterEdges fun e => e.toNode != b) (keptRows_nodeId b),
      n.edges.rows.any fun e => e.toNode == b)

/-- mirrors crates/mesh-routing/src/graph/edge.rs:959-970 -/
def countDirectNeighbors (myNode : UInt32) : Nat :=
  min ((edges.reportedTo myNode).countP fun e => e.toNode != myNode) 255

/-- Every edge that was last written too long ago goes.
mirrors crates/mesh-routing/src/graph/edge.rs:997-1013 -/
def dropOldEdges (nowMs ttlMs : UInt32) : EdgeStore × Bool :=
  let keep := fun (e : Edge) => decide (nowMs - e.lastUpdateMs ≤ ttlMs)
  (edges.mapNodes (fun n => n.filterEdges keep) fun n => n.filterEdges_nodeId keep,
    edges.nodes.rows.any fun n => n.edges.rows.any fun e => !keep e)

/-- The node is not heard by us, and is stale, or unclassed and without edges.
mirrors crates/mesh-routing/src/graph/edge.rs:1015-1036 -/
def ages (myNode nowMs ttlMs : UInt32) (n : NodeEdges) : Bool :=
  n.nodeId != myNode && !edges.hasDirectReportedEdgeTo myNode n.nodeId &&
    (decide (ttlMs < nowMs - n.lastFullUpdateMs) ||
      (n.edges.rows.isEmpty && !classWithinDepth n.cls))

end

section

variable {Etx : Type} (F : F32 Etx) (edges : EdgeStore)

/-- A victim goes, and its destinations are handed over or forgotten.
mirrors crates/mesh-routing/src/graph/edge.rs:1038-1058 -/
def dropVictim (myNode nowMs : UInt32) (st : EdgeStore × DownstreamTable × Bool) (victim : UInt32) :
    EdgeStore × DownstreamTable × Bool :=
  let (edges, ds) := match st.1.pickL1Parent victim myNode with
    | some (parent, cost) => st.1.applyDemotion F myNode ⟨victim, parent, cost⟩ nowMs st.2.1
    | none => (st.1, (st.2.1.clearForRelay victim).clearForDestination victim)
  let (edges, removed) := edges.removeNode victim
  (edges, ds, removed || st.2.2)

/-- mirrors crates/mesh-routing/src/graph/edge.rs:990-1069, with the downstream table at
hand. -/
def ageEdges (myNode nowMs ttlMs : UInt32) (ds : DownstreamTable) :
    EdgeStore × DownstreamTable × Bool :=
  let (edges, changed) := edges.dropOldEdges nowMs ttlMs
  let victims := (edges.nodes.rows.filter (edges.ages myNode nowMs ttlMs)).map (·.nodeId)
  let (edges, ds, changed) := victims.foldl (dropVictim F myNode nowMs) (edges, ds, changed)
  if changed then
    let (edges, ds, _) := edges.pruneUnreachableFromRoot F myNode nowMs ds
    (edges, ds, true)
  else (edges, ds, false)

end

end EdgeStore

end Meshrustic.Topology
