import Meshrustic.Core.Table
import Meshrustic.Core.Clock

/-!
# Edge store (`mesh-routing/src/graph/edge.rs`)

The graph a node keeps: for each stored node the list of the neighbours it
says it hears, with the price it measured. The store is only written through
`update_edge`, `ensure_publisher` and their removals, which refuse node 0 and
self-loops and keep one edge per neighbour; the structures carry these facts,
so a store that breaks them cannot be built.

Times are the firmware's wrapping 32-bit milliseconds; prices are fixed-point
ETX in hundredths.
-/
namespace Meshrustic.Graph

def MAX_GRAPH_NODES : Nat := 32
def MAX_EDGES_PER_NODE : Nat := 40
def PLACEHOLDER_NODE_PREFIX : UInt32 := 0xFF000000

/-- mirrors crates/mesh-routing/src/graph/placeholder.rs:11-13 -/
def isPlaceholderNode (nodeId : UInt32) : Bool :=
  (nodeId &&& 0xFF000000) == PLACEHOLDER_NODE_PREFIX

/-- mirrors crates/mesh-routing/src/graph/edge.rs:11-19 -/
inductive EdgeSource where
  | mirrored | reported | inferred
  deriving DecidableEq, Repr

/-- mirrors crates/mesh-routing/src/graph/edge.rs:22-28 -/
def EdgeSource.rank : EdgeSource → Nat
  | .inferred => 0
  | .mirrored => 1
  | .reported => 2

/-- mirrors crates/mesh-routing/src/graph/edge.rs:29-31 -/
def EdgeSource.isMeasured (s : EdgeSource) : Bool := s != .inferred

@[simp] theorem EdgeSource.isMeasured_reported : EdgeSource.reported.isMeasured = true := rfl

/-- mirrors crates/mesh-routing/src/graph/edge.rs:34-44 -/
structure Edge where
  toNode : UInt32
  etxFixed : UInt16
  lastUpdateMs : UInt32 := 0
  etxVariance : UInt8 := 0
  source : EdgeSource
  hearsUs : Bool := false
  heardOn : UInt8 := 0
  lastHeardMs : UInt32 := 0
  deriving DecidableEq, Repr

/-- mirrors crates/mesh-routing/src/graph/edge.rs:67-86 -/
def silenceEtxFixedFromAge (ageMs periodMs : Nat) : Nat :=
  if periodMs < 2 then 1275
  else
    let half := periodMs / 2
    if ageMs < half then 0
    else if ageMs < periodMs then (ageMs - half) * 50 / half
    else if ageMs < periodMs * 2 then 50 + (ageMs - periodMs) * 550 / periodMs
    else 1275

/-- mirrors crates/mesh-routing/src/graph/edge.rs:88-91 -/
def silenceVarianceByteFromAge (ageMs periodMs : Nat) : Nat :=
  min ((silenceEtxFixedFromAge ageMs periodMs * 20 + 50) / 100) 255

/-- mirrors crates/mesh-routing/src/graph/edge.rs:93-100 -/
def effectiveVarianceByte (edge : Edge) (nowMs : UInt32) (periodMs : Nat) (ourRx : Bool) : Nat :=
  if !ourRx || edge.lastHeardMs == 0 then edge.etxVariance.toNat
  else
    let age := (nowMs - edge.lastHeardMs).toNat
    min (edge.etxVariance.toNat + silenceVarianceByteFromAge age periodMs) 255

/-- The list of one node.
mirrors crates/mesh-routing/src/graph/edge.rs:133-141 -/
structure NodeEdges where
  nodeId : UInt32
  lastFullUpdateMs : UInt32
  edges : Table MAX_EDGES_PER_NODE Edge
  ids : ∀ e ∈ edges.rows, nodeId ≠ 0 ∧ e.toNode ≠ 0 ∧ e.toNode ≠ nodeId
  nodup : (edges.rows.map (·.toNode)).Nodup

/-- mirrors crates/mesh-routing/src/graph/edge.rs:163-167 -/
def NodeEdges.findEdge (n : NodeEdges) (toNode : UInt32) : Option Edge :=
  n.edges.rows.find? fun e => e.toNode == toNode

/-- mirrors crates/mesh-routing/src/graph/edge.rs:177-182 -/
structure EdgeStore where
  nodes : Table MAX_GRAPH_NODES NodeEdges
  nodup : (nodes.rows.map (·.nodeId)).Nodup

namespace EdgeStore

variable (edges : EdgeStore)

/-- mirrors crates/mesh-routing/src/graph/edge.rs:274-278 -/
def findNode (nodeId : UInt32) : Option NodeEdges :=
  edges.nodes.rows.find? fun n => n.nodeId == nodeId

/-- `find_node(a).and_then(|n| n.find_edge(b))`, the graph's basic question:
the edge of `a`'s list to `b`. -/
def edge (a b : UInt32) : Option Edge := (edges.findNode a).bind fun n => n.findEdge b

/-- The ids `node_id_at` enumerates.
mirrors crates/mesh-routing/src/graph/edge.rs:280-286 -/
def nodeIds : List UInt32 := edges.nodes.rows.map (·.nodeId)

/-- mirrors crates/mesh-routing/src/graph/edge.rs:713-720 -/
def hasDirectReportedEdgeTo (a b : UInt32) : Bool :=
  match edges.edge a b with
  | none => false
  | some e => e.source == .reported

/-- The edges `a` lists, in list order. -/
def listed (a : UInt32) : List Edge :=
  match edges.findNode a with
  | none => []
  | some n => n.edges.rows

end EdgeStore

/-! ## Reading the store -/

section

variable {edges : EdgeStore} {a b : UInt32} {e : Edge}

theorem NodeEdges.findEdge_toNode {n : NodeEdges} (h : n.findEdge b = some e) : e.toNode = b := by
  have := List.find?_some h
  simpa using this

theorem EdgeStore.findNode_nodeId {n : NodeEdges} (h : edges.findNode a = some n) :
    n.nodeId = a := by
  have := List.find?_some h
  simpa using this

/-- An edge found by its two ends is on the list. -/
theorem EdgeStore.edge_mem (h : edges.edge a b = some e) : e ∈ edges.listed a ∧ e.toNode = b := by
  unfold EdgeStore.edge at h
  rw [Option.bind_eq_some_iff] at h
  obtain ⟨n, hn, he⟩ := h
  unfold EdgeStore.listed
  rw [hn]
  exact ⟨List.mem_of_find?_eq_some he, NodeEdges.findEdge_toNode he⟩

/-- An edge on the list is the one found by its two ends. -/
theorem EdgeStore.edge_of_mem (h : e ∈ edges.listed a) : edges.edge a e.toNode = some e := by
  unfold EdgeStore.listed at h
  unfold EdgeStore.edge
  cases hn : edges.findNode a with
  | none => rw [hn] at h; cases h
  | some n =>
    rw [hn] at h
    exact lookup_of_mem (fun e => e.toNode) n.nodup h

/-- No edge touches node 0, and none is a self-loop. -/
theorem EdgeStore.listed_ids (h : e ∈ edges.listed a) : a ≠ 0 ∧ e.toNode ≠ 0 ∧ e.toNode ≠ a := by
  unfold EdgeStore.listed at h
  cases hn : edges.findNode a with
  | none => rw [hn] at h; cases h
  | some n =>
    rw [hn] at h
    have := n.ids e h
    rwa [EdgeStore.findNode_nodeId hn] at this

theorem EdgeStore.listed_nodup : ((edges.listed a).map (·.toNode)).Nodup := by
  unfold EdgeStore.listed
  split
  · exact List.nodup_nil
  · exact NodeEdges.nodup _

/-- A list is never longer than the array behind it. -/
theorem EdgeStore.listed_length : (edges.listed a).length ≤ MAX_EDGES_PER_NODE := by
  unfold EdgeStore.listed
  split
  · exact Nat.zero_le _
  · exact Table.le _

end

end Meshrustic.Graph
