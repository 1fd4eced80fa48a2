import Meshrustic.Topology.Downstream
import Meshrustic.Graph.Edge

/-!
# The edge store as topology lists write it (`mesh-routing/src/graph/edge.rs`)

Each stored node has a class, its distance from us in published links, and a
hint at the neighbour it was learned from. The store admits a node of a class
within `GRAPH_MAX_DEPTH`; a full store evicts the highest class first and
hands the victim's destinations to a direct neighbour.

`EdgeStore.graph` forgets class and hint: it is the store the routing
calculations read.
-/
namespace Meshrustic.Topology

open Meshrustic.Graph Meshrustic.Relay

def GRAPH_MAX_DEPTH : Nat := 3

/-- mirrors crates/mesh-routing/src/graph/edge.rs:102-110 -/
inductive NodeClass where
  | unknown | l1 | l2 | l3
  deriving DecidableEq, Repr

/-- mirrors crates/mesh-routing/src/graph/edge.rs:113-120 -/
def NodeClass.depth : NodeClass → Nat
  | .l1 => 1
  | .l2 => 2
  | .l3 => 3
  | .unknown => 255

/-- mirrors crates/mesh-routing/src/graph/edge.rs:122-129 -/
def NodeClass.evictionRank : NodeClass → Nat
  | .unknown => 3
  | .l3 => 2
  | .l2 => 1
  | .l1 => 0

/-- mirrors crates/mesh-routing/src/graph/edge.rs:270-272 -/
def classWithinDepth (c : NodeClass) : Bool := c != .unknown && decide (c.depth ≤ GRAPH_MAX_DEPTH)

/-- mirrors crates/mesh-routing/src/graph/edge.rs:133-141 -/
structure NodeEdges extends Graph.NodeEdges where
  cls : NodeClass
  parentHint : UInt32

namespace NodeEdges

def fresh (nodeId nowMs : UInt32) (cls : NodeClass) (parentHint : UInt32) : NodeEdges where
  nodeId := nodeId
  lastFullUpdateMs := nowMs
  edges := .empty
  ids _ he := absurd he List.not_mem_nil
  nodup := List.nodup_nil
  cls := cls
  parentHint := parentHint

/-- Changes edges in place. -/
def mapEdges (n : NodeEdges) (f : Edge → Edge) (hf : ∀ e, (f e).toNode = e.toNode) : NodeEdges :=
  { n with
    edges := n.edges.map f
    ids := by
      intro e he
      obtain ⟨e', he', rfl⟩ := List.mem_map.mp he
      rw [hf]
      exact n.ids e' he'
    nodup := by
      have hkeys : ((n.edges.map f).rows.map (·.toNode)) = n.edges.rows.map (·.toNode) := by
        show (n.edges.rows.map f).map (·.toNode) = n.edges.rows.map (·.toNode)
        rw [List.map_map]
        exact List.map_congr_left fun e _ => hf e
      rw [hkeys]
      exact n.nodup }

/-- Keeps the edges that pass `p`. -/
def filterEdges (n : NodeEdges) (p : Edge → Bool) : NodeEdges :=
  { n with
    edges := ⟨n.edges.rows.filter p, Nat.le_trans (List.length_filter_le _ _) n.edges.le⟩
    ids := fun e he => n.ids e (List.mem_filter.mp he).1
    nodup := n.nodup.sublist (List.filter_sublist.map _) }

/-- A new edge behind the others, if there is room. -/
def pushEdge (n : NodeEdges) (e : Edge) : NodeEdges :=
  if h : n.nodeId ≠ 0 ∧ e.toNode ≠ 0 ∧ e.toNode ≠ n.nodeId ∧
      e.toNode ∉ n.edges.rows.map (·.toNode) ∧ n.edges.rows.length < MAX_EDGES_PER_NODE then
    { n with
      edges := ⟨n.edges.rows ++ [e], by
        rw [List.length_append, List.length_singleton]
        exact h.2.2.2.2⟩
      ids := by
        intro e' he'
        rcases List.mem_append.mp he' with he' | he'
        · exact n.ids e' he'
        · rw [List.mem_singleton.mp he']
          exact ⟨h.1, h.2.1, h.2.2.1⟩
      nodup := by
        rw [List.map_append]
        refine List.nodup_append.mpr ⟨n.nodup, List.nodup_singleton _, ?_⟩
        intro a ha b hb hab
        rw [List.map_singleton, List.mem_singleton] at hb
        exact h.2.2.2.1 (by rw [← hb, ← hab]; exact ha) }
  else n

/-- A new edge in the place of edge `i`. -/
def replaceEdge (n : NodeEdges) (i : Nat) (e : Edge) : NodeEdges :=
  if h : n.nodeId ≠ 0 ∧ e.toNode ≠ 0 ∧ e.toNode ≠ n.nodeId ∧
      e.toNode ∉ n.edges.rows.map (·.toNode) then
    { n with
      edges := n.edges.set i e
      ids := by
        intro e' he'
        rcases List.mem_or_eq_of_mem_set he' with he' | rfl
        · exact n.ids e' he'
        · exact ⟨h.1, h.2.1, h.2.2.1⟩
      nodup := by
        rw [Table.set_rows, List.map_set]
        exact List.Nodup.set n.nodup h.2.2.2 }
  else n

/-- Notes when the node last published its whole list. -/
def touched (n : NodeEdges) (nowMs : UInt32) : NodeEdges := { n with lastFullUpdateMs := nowMs }

@[simp] theorem touched_nodeId (n : NodeEdges) (nowMs : UInt32) :
    (n.touched nowMs).nodeId = n.nodeId := rfl

@[simp] theorem mapEdges_nodeId (n : NodeEdges) (f : Edge → Edge) (hf) :
    (n.mapEdges f hf).nodeId = n.nodeId := rfl

@[simp] theorem filterEdges_nodeId (n : NodeEdges) (p : Edge → Bool) :
    (n.filterEdges p).nodeId = n.nodeId := rfl

@[simp] theorem pushEdge_nodeId (n : NodeEdges) (e : Edge) : (n.pushEdge e).nodeId = n.nodeId := by
  unfold pushEdge
  split <;> rfl

@[simp] theorem replaceEdge_nodeId (n : NodeEdges) (i : Nat) (e : Edge) :
    (n.replaceEdge i e).nodeId = n.nodeId := by
  unfold replaceEdge
  split <;> rfl

end NodeEdges

/-- mirrors crates/mesh-routing/src/graph/edge.rs:170-175 -/
structure PendingDemotion where
  victim : UInt32
  parent : UInt32
  costFixed : UInt16

/-- mirrors crates/mesh-routing/src/graph/edge.rs:177-182 -/
structure EdgeStore where
  nodes : Table MAX_GRAPH_NODES NodeEdges
  nodup : (nodes.rows.map (·.nodeId)).Nodup
  pendingDemotion : Option PendingDemotion

/-- mirrors crates/mesh-routing/src/graph/edge.rs:7-9 -/
inductive EdgeChange where
  | noChange | new | significantChange
  deriving DecidableEq, Repr

namespace EdgeStore

/-- mirrors crates/mesh-routing/src/graph/edge.rs:191-214 -/
def empty : EdgeStore := ⟨.empty, List.nodup_nil, none⟩

variable (edges : EdgeStore)

/-- The store the routing calculations read. -/
def graph : Graph.EdgeStore where
  nodes := ⟨edges.nodes.rows.map (·.toNodeEdges), by
    rw [List.length_map]
    exact edges.nodes.le⟩
  nodup := by
    have hkeys : (edges.nodes.rows.map (·.toNodeEdges)).map (·.nodeId) =
        edges.nodes.rows.map (·.nodeId) := by rw [List.map_map]; rfl
    rw [hkeys]
    exact edges.nodup

/-- mirrors crates/mesh-routing/src/graph/edge.rs:274-278 -/
def findNode (nodeId : UInt32) : Option NodeEdges :=
  edges.nodes.rows.find? fun n => n.nodeId == nodeId

/-- `find_node(a).and_then(|n| n.find_edge(b))` -/
def edge (a b : UInt32) : Option Edge := (edges.findNode a).bind fun n => n.findEdge b

/-- mirrors crates/mesh-routing/src/graph/edge.rs:229-231 -/
def nodeClass (nodeId : UInt32) : Option NodeClass := (edges.findNode nodeId).map (·.cls)

/-- mirrors crates/mesh-routing/src/graph/edge.rs:713-720 -/
def hasDirectReportedEdgeTo (a b : UInt32) : Bool :=
  match edges.edge a b with
  | none => false
  | some e => e.source == .reported

/-- mirrors crates/mesh-routing/src/graph/edge.rs:707-711 -/
def isOurDirectNeighbor (nodeId myNode : UInt32) : Bool := (edges.edge myNode nodeId).isSome

/-- mirrors crates/mesh-routing/src/graph/edge.rs:722-731 -/
def reachableViaNeighbor (nodeId : UInt32) : Bool :=
  edges.nodes.rows.any fun n => n.edges.rows.any fun e => e.toNode == nodeId

/-- mirrors crates/mesh-routing/src/graph/edge.rs:733-743 -/
def reachableViaHearsUs (nodeId : UInt32) : Bool :=
  edges.nodes.rows.any fun n => n.edges.rows.any fun e => e.toNode == nodeId && e.hearsUs

/-- mirrors crates/mesh-routing/src/graph/edge.rs:896-901 -/
def relayHeardOn (myNode relay : UInt32) : UInt8 :=
  match edges.edge myNode relay with
  | none => 0
  | some e => e.heardOn

/-- The neighbours we measured ourselves, in list order. -/
def reportedTo (myNode : UInt32) : List Edge :=
  match edges.findNode myNode with
  | none => []
  | some me => me.edges.rows.filter fun e => e.toNode != 0 && e.source == .reported

/-! ### Writing nodes -/

/-- Changes the edges of every node. -/
def mapNodes (f : NodeEdges → NodeEdges) (hf : ∀ n, (f n).nodeId = n.nodeId) : EdgeStore :=
  { edges with
    nodes := edges.nodes.map f
    nodup := by
      have hkeys : ((edges.nodes.map f).rows.map (·.nodeId)) =
          edges.nodes.rows.map (·.nodeId) := by
        show (edges.nodes.rows.map f).map (·.nodeId) = _
        rw [List.map_map]
        exact List.map_congr_left fun n _ => hf n
      rw [hkeys]
      exact edges.nodup }

/-- `find_node_mut(id)`: changes the node of that id. -/
def modifyNode (nodeId : UInt32) (f : NodeEdges → NodeEdges)
    (hf : ∀ n, (f n).nodeId = n.nodeId) : EdgeStore :=
  edges.mapNodes (fun n => if n.nodeId == nodeId then f n else n) (by
    intro n
    split
    · exact hf n
    · rfl)

/-- A new node behind the others, if there is room and none of its id. -/
def pushNode (n : NodeEdges) : EdgeStore :=
  if h : n.nodeId ∉ edges.nodes.rows.map (·.nodeId) ∧ edges.nodes.rows.length < MAX_GRAPH_NODES then
    { edges with
      nodes := ⟨edges.nodes.rows ++ [n], by
        rw [List.length_append, List.length_singleton]
        exact h.2⟩
      nodup := by
        rw [List.map_append]
        refine List.nodup_append.mpr ⟨edges.nodup, List.nodup_singleton _, ?_⟩
        intro a ha b hb hab
        rw [List.map_singleton, List.mem_singleton] at hb
        exact h.1 (by rw [← hb, ← hab]; exact ha) }
  else edges

/-- mirrors crates/mesh-routing/src/graph/edge.rs:508-513 -/
def removeNodeAt (i : Nat) : EdgeStore :=
  if h : i < edges.nodes.rows.length then
    { edges with
      nodes := edges.nodes.swapRemove i
      nodup := by
        have hperm := (edges.nodes.swapRemove_perm h).map (·.nodeId)
        refine hperm.nodup_iff.mpr (edges.nodup.sublist ?_)
        exact (List.eraseIdx_sublist _ _).map _ }
  else edges

/-- mirrors crates/mesh-routing/src/graph/edge.rs:249-261 -/
def setNodeClass (nodeId : UInt32) (cls : NodeClass) (parentHint : UInt32) : EdgeStore :=
  edges.modifyNode nodeId
    (fun n =>
      let n := if n.cls == .l1 && cls != .l1 then n else { n with cls := cls }
      if parentHint != 0 then { n with parentHint := parentHint } else n)
    (by intro n; dsimp only; split <;> split <;> rfl)

/-- mirrors crates/mesh-routing/src/graph/edge.rs:263-268 -/
def setL1 (nodeId : UInt32) : EdgeStore :=
  edges.modifyNode nodeId (fun n => { n with cls := .l1, parentHint := 0 }) fun _ => rfl

/-- A node that published just now.
mirrors crates/mesh-routing/src/graph/edge.rs:342-344 -/
def touchNode (nodeId nowMs : UInt32) : EdgeStore :=
  edges.modifyNode nodeId (·.touched nowMs) fun n => n.touched_nodeId nowMs

/-- mirrors crates/mesh-routing/src/graph/edge.rs:903-909 -/
def setEdgeHearsUs (a b : UInt32) (hearsUs : Bool) : EdgeStore :=
  edges.modifyNode a
    (fun n => n.mapEdges (fun e => if e.toNode == b then { e with hearsUs := hearsUs } else e)
      (by intro e; split <;> rfl))
    fun n => n.mapEdges_nodeId _ _

/-- What `retain_listed_edges` keeps of an edge.
mirrors crates/mesh-routing/src/graph/edge.rs:925-928 -/
def keepsEdge (listed : List UInt32) (e : Edge) : Bool :=
  e.toNode == 0 || e.source == .reported || isPlaceholderNode e.toNode || listed.contains e.toNode

/-- mirrors crates/mesh-routing/src/graph/edge.rs:915-940 -/
def retainListedEdges (sender : UInt32) (listed : List UInt32) : EdgeStore × Bool :=
  match edges.findNode sender with
  | none => (edges, false)
  | some n =>
    (edges.modifyNode sender (fun n => n.filterEdges (keepsEdge listed))
        (fun n => n.filterEdges_nodeId _),
      n.edges.rows.any fun e => !keepsEdge listed e)

/-- mirrors crates/mesh-routing/src/graph/edge.rs:942-957 -/
def clearHearsUsToUnlisted (sender : UInt32) (listed : List UInt32) : EdgeStore :=
  edges.mapNodes
    (fun n =>
      if n.nodeId == sender then n
      else n.mapEdges
        (fun e =>
          if e.toNode == sender && e.hearsUs && !listed.contains n.nodeId then
            { e with hearsUs := false }
          else e)
        (by intro e; split <;> rfl))
    (by intro n; split <;> rfl)

/-- mirrors crates/mesh-routing/src/graph/edge.rs:1067-1085, 1116-1130 -/
def removeNode (nodeId : UInt32) : EdgeStore × Bool :=
  if nodeId == 0 then (edges, false)
  else
    let edges := edges.mapNodes (fun n => n.filterEdges fun e => e.toNode != nodeId)
      fun n => n.filterEdges_nodeId _
    match edges.nodes.rows.findIdx? fun n => n.nodeId == nodeId with
    | none => (edges, false)
    | some i => (edges.removeNodeAt i, true)

/-! ### Finding nodes after a write -/

section

variable {edges : EdgeStore} {a b : UInt32} {n : NodeEdges}

theorem findNode_eq_some_iff : edges.findNode a = some n ↔ n ∈ edges.nodes.rows ∧ n.nodeId = a :=
  lookup_eq_some_iff (fun n : NodeEdges => n.nodeId) edges.nodup

theorem findNode_eq_none_iff : edges.findNode a = none ↔ a ∉ edges.nodes.rows.map (·.nodeId) := by
  rw [Option.eq_none_iff_forall_ne_some]
  constructor
  · intro h hmem
    obtain ⟨n, hn, rfl⟩ := List.mem_map.mp hmem
    exact h n (findNode_eq_some_iff.mpr ⟨hn, rfl⟩)
  · intro h n hn
    obtain ⟨hmem, rfl⟩ := findNode_eq_some_iff.mp hn
    exact h (List.mem_map.mpr ⟨n, hmem, rfl⟩)

/-- An edge is found where its owner's list has it. -/
theorem edge_eq_some_iff {e : Edge} :
    edges.edge a b = some e ↔ ∃ n, edges.findNode a = some n ∧ n.findEdge b = some e := by
  unfold edge
  rw [Option.bind_eq_some_iff]

@[simp] theorem findNode_mapNodes (f : NodeEdges → NodeEdges) (hf) :
    (edges.mapNodes f hf).findNode a = (edges.findNode a).map f := by
  show List.find? _ (edges.nodes.rows.map f) = _
  rw [List.find?_map]
  congr 2
  funext n
  show ((f n).nodeId == a) = (n.nodeId == a)
  rw [hf]

theorem findNode_modifyNode_other {nodeId : UInt32} (f : NodeEdges → NodeEdges) (hf)
    (h : a ≠ nodeId) : (edges.modifyNode nodeId f hf).findNode a = edges.findNode a := by
  unfold modifyNode
  rw [findNode_mapNodes]
  cases hn : edges.findNode a with
  | none => rfl
  | some n =>
    have hid := (findNode_eq_some_iff.mp hn).2
    have : (n.nodeId == nodeId) = false := by simpa [hid] using h
    rw [Option.map_some, this]
    rfl

theorem findNode_modifyNode_self (f : NodeEdges → NodeEdges) (hf) :
    (edges.modifyNode a f hf).findNode a = (edges.findNode a).map f := by
  unfold modifyNode
  rw [findNode_mapNodes]
  cases hn : edges.findNode a with
  | none => rfl
  | some n =>
    have hid := (findNode_eq_some_iff.mp hn).2
    rw [Option.map_some, Option.map_some, hid, beq_self_eq_true]
    rfl

theorem pushNode_rows (hn : edges.findNode n.nodeId = none)
    (hroom : edges.nodes.rows.length < MAX_GRAPH_NODES) :
    (edges.pushNode n).nodes.rows = edges.nodes.rows ++ [n] := by
  unfold pushNode
  rw [dif_pos ⟨findNode_eq_none_iff.mp hn, hroom⟩]

/-- A node without edges adds none. -/
theorem edge_pushNode_fresh {nodeId nowMs : UInt32} {cls : NodeClass} {parentHint : UInt32} :
    (edges.pushNode (.fresh nodeId nowMs cls parentHint)).edge a b = edges.edge a b := by
  unfold pushNode
  split
  · rename_i h
    unfold edge findNode
    show ((edges.nodes.rows ++ [NodeEdges.fresh nodeId nowMs cls parentHint]).find? _).bind _ = _
    rw [List.find?_append]
    cases hf : edges.nodes.rows.find? fun n => n.nodeId == a with
    | some n => rfl
    | none =>
      rw [Option.none_or, List.find?_cons]
      split <;> rfl
  · rfl

/-- Node `i` leaves; the others stay. -/
theorem findNode_removeNodeAt {i : Nat} {victim : NodeEdges}
    (hv : edges.nodes.rows[i]? = some victim) :
    (edges.removeNodeAt i).findNode a = if a = victim.nodeId then none else edges.findNode a := by
  obtain ⟨hi, hget⟩ := List.getElem?_eq_some_iff.mp hv
  have hperm := edges.nodes.swapRemove_perm hi
  have hrows : (edges.removeNodeAt i).nodes.rows = (edges.nodes.swapRemove i).rows := by
    unfold removeNodeAt
    rw [dif_pos hi]
  -- among distinct ids, leaving out row `i` leaves out the id of its node
  have hmem : ∀ m, m ∈ (edges.removeNodeAt i).nodes.rows ↔
      m ∈ edges.nodes.rows ∧ m.nodeId ≠ victim.nodeId := by
    intro m
    have hsplit : edges.nodes.rows.Perm (victim :: edges.nodes.rows.eraseIdx i) := by
      rw [← hget]
      exact (List.getElem_cons_eraseIdx_perm hi).symm
    have hnd := (hsplit.map (·.nodeId)).nodup_iff.mp edges.nodup
    rw [List.map_cons, List.nodup_cons] at hnd
    rw [hrows, hperm.mem_iff, hsplit.mem_iff, List.mem_cons]
    constructor
    · intro hm
      refine ⟨.inr hm, ?_⟩
      intro hid
      exact hnd.1 (hid ▸ List.mem_map.mpr ⟨m, hm, rfl⟩)
    · rintro ⟨rfl | hm, hid⟩
      · exact absurd rfl hid
      · exact hm
  apply Option.ext
  intro m
  rw [findNode_eq_some_iff, hmem]
  split
  · rename_i ha
    subst ha
    constructor
    · rintro ⟨⟨-, hne⟩, hid⟩
      exact absurd hid hne
    · intro h
      cases h
  · rename_i ha
    rw [findNode_eq_some_iff]
    constructor
    · rintro ⟨⟨hm, -⟩, hid⟩
      exact ⟨hm, hid⟩
    · rintro ⟨hm, hid⟩
      exact ⟨⟨hm, hid ▸ ha⟩, hid⟩

end

end EdgeStore

end Meshrustic.Topology
