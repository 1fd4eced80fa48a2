import Meshrustic.Topology.Ageing
import Meshrustic.Topology.Representation

/-!
# The checked store over its arrays (`mesh-routing/src/graph/edge.rs`)

`EdgeStore` carries its invariant and checks what would break it; `EdgeRows` has the arrays
of the code and no checks. `EdgeStore.rows` forgets the invariant. Every read of a store is
the read of its rows, and every operation commutes with `rows`: the checks never refuse
what the code would write.

Results:
* `EdgeStore.rows_apply`, `EdgeStore.rows_run`: the two models take the same steps;
* `EdgeStore.reached_rows`: what the operations lead to on the arrays are the rows of a store.
-/
namespace Meshrustic.Topology

open Meshrustic.Graph Meshrustic.Relay

/-- Where keys are distinct, the first row with a key is the only one. -/
theorem modifyFirst_eq_map {α κ : Type} [DecidableEq κ] {key : α → κ} {f : α → α} {k : κ}
    {xs : List α} (h : (xs.map key).Nodup) :
    modifyFirst (fun x => key x == k) f xs = xs.map fun x => if key x == k then f x else x := by
  induction xs with
  | nil => rfl
  | cons x xs ih =>
    rw [List.map_cons, List.nodup_cons] at h
    rw [modifyFirst, List.map_cons]
    by_cases hx : (key x == k) = true
    · have hrest : ∀ y ∈ xs, (if key y == k then f y else y) = y := by
        intro y hy
        refine if_neg fun hkey => h.1 ?_
        rw [beq_iff_eq] at hx hkey
        exact hx.trans hkey.symm ▸ List.mem_map_of_mem hy
      rw [if_pos hx, if_pos hx, List.map_congr_left hrest, List.map_id']
    · rw [if_neg hx, if_neg hx, ih h.2]

/-! ## Nodes -/

namespace NodeEdges

def row (n : NodeEdges) : NodeRow :=
  ⟨n.nodeId, n.lastFullUpdateMs, n.cls, n.parentHint, n.edges.rows⟩

variable (n : NodeEdges)

@[simp] theorem row_nodeId : n.row.nodeId = n.nodeId := rfl

@[simp] theorem row_cls : n.row.cls = n.cls := rfl

@[simp] theorem row_parentHint : n.row.parentHint = n.parentHint := rfl

@[simp] theorem row_lastFullUpdateMs : n.row.lastFullUpdateMs = n.lastFullUpdateMs := rfl

@[simp] theorem row_edges : n.row.edges = n.edges.rows := rfl

@[simp] theorem row_findEdge (b : UInt32) : n.row.findEdge b = n.findEdge b := rfl

theorem row_mapEdges (f : Edge → Edge) (hf) :
    (n.mapEdges f hf).row = { n.row with edges := n.row.edges.map f } := rfl

/-- One edge is changed. -/
theorem row_mapEdge (b : UInt32) (f : Edge → Edge) (hf) :
    (n.mapEdges (fun e => if e.toNode == b then f e else e) hf).row =
      { n.row with edges := modifyFirst (fun e => e.toNode == b) f n.row.edges } := by
  rw [row_mapEdges, row_edges, modifyFirst_eq_map n.nodup]

theorem row_pushEdge {e : Edge} (hid : n.nodeId ≠ 0) (hnew : e.toNode ≠ 0 ∧ e.toNode ≠ n.nodeId)
    (habsent : n.findEdge e.toNode = none) (hroom : n.edges.rows.length < MAX_EDGES_PER_NODE) :
    (n.pushEdge e).row = { n.row with edges := n.row.edges ++ [e] } := by
  unfold pushEdge
  rw [dif_pos ⟨hid, hnew.1, hnew.2, lookup_eq_none (fun e : Edge => e.toNode) habsent, hroom⟩]
  rfl

theorem row_replaceEdge {i : Nat} {e : Edge} (hid : n.nodeId ≠ 0)
    (hnew : e.toNode ≠ 0 ∧ e.toNode ≠ n.nodeId) (habsent : n.findEdge e.toNode = none) :
    (n.replaceEdge i e).row = { n.row with edges := n.row.edges.set i e } := by
  unfold replaceEdge
  rw [dif_pos ⟨hid, hnew.1, hnew.2, lookup_eq_none (fun e : Edge => e.toNode) habsent⟩]
  rfl

end NodeEdges

/-! ## Reads -/

namespace EdgeStore

def rows (edges : EdgeStore) : EdgeRows := ⟨edges.nodes.rows.map (·.row), edges.pendingDemotion⟩

section

variable (edges : EdgeStore) (a b myNode nowMs : UInt32)

@[simp] theorem rows_nodes : edges.rows.nodes = edges.nodes.rows.map (·.row) := rfl

@[simp] theorem rows_pendingDemotion : edges.rows.pendingDemotion = edges.pendingDemotion := rfl

theorem rows_ids : edges.rows.ids = edges.nodes.rows.map (·.nodeId) := by
  rw [EdgeRows.ids, rows_nodes, List.map_map]
  rfl

@[simp] theorem rows_findNode : edges.rows.findNode a = (edges.findNode a).map (·.row) := by
  rw [EdgeRows.findNode, rows_nodes, List.find?_map]
  rfl

@[simp] theorem rows_edge : edges.rows.edge a b = edges.edge a b := by
  rw [EdgeRows.edge, rows_findNode, Option.bind_map]
  rfl

@[simp] theorem rows_hasDirectReportedEdgeTo :
    edges.rows.hasDirectReportedEdgeTo a b = edges.hasDirectReportedEdgeTo a b := by
  unfold EdgeRows.hasDirectReportedEdgeTo hasDirectReportedEdgeTo
  rw [rows_edge]
  cases edges.edge a b <;> rfl

@[simp] theorem rows_isOurDirectNeighbor :
    edges.rows.isOurDirectNeighbor a myNode = edges.isOurDirectNeighbor a myNode := by
  rw [EdgeRows.isOurDirectNeighbor, rows_edge, isOurDirectNeighbor]

@[simp] theorem rows_reachableViaNeighbor :
    edges.rows.reachableViaNeighbor a = edges.reachableViaNeighbor a := by
  rw [EdgeRows.reachableViaNeighbor, rows_nodes, List.any_map]
  rfl

@[simp] theorem rows_reportedTo : edges.rows.reportedTo myNode = edges.reportedTo myNode := by
  unfold EdgeRows.reportedTo reportedTo
  rw [rows_findNode]
  cases edges.findNode myNode <;> rfl

@[simp] theorem rows_classOrBootstrap :
    edges.rows.classOrBootstrap a myNode = edges.classOrBootstrap a myNode := by
  have hclassify : edges.rows.classifyCandidate a myNode = edges.classifyCandidate a myNode := by
    unfold EdgeRows.classifyCandidate classifyCandidate
    simp only [rows_hasDirectReportedEdgeTo, rows_reportedTo, rows_edge, rows_nodes, List.any_map]
    rfl
  have hbootstrap : edges.rows.bootstrapClassFromReachability a myNode =
      edges.bootstrapClassFromReachability a myNode := by
    unfold EdgeRows.bootstrapClassFromReachability bootstrapClassFromReachability
    simp only [rows_reportedTo, rows_edge, rows_nodes, List.any_map]
    rfl
  rw [EdgeRows.classOrBootstrap, hclassify, hbootstrap, classOrBootstrap]

@[simp] theorem rows_selectEvictionVictim :
    edges.rows.selectEvictionVictim myNode nowMs = edges.selectEvictionVictim myNode nowMs := by
  unfold EdgeRows.selectEvictionVictim selectEvictionVictim
  rw [rows_nodes, List.zipIdx_map, List.foldl_map]
  rfl

@[simp] theorem rows_pickL1Parent :
    edges.rows.pickL1Parent a myNode = edges.pickL1Parent a myNode := by
  unfold EdgeRows.pickL1Parent pickL1Parent
  simp only [rows_findNode, rows_isOurDirectNeighbor, rows_edge, rows_reportedTo]
  cases edges.findNode a <;> rfl

@[simp] theorem rows_reachableFrom (fuel : Nat) (st : List UInt32 × List UInt32) :
    edges.rows.reachableFrom fuel st = edges.reachableFrom fuel st := by
  induction fuel generalizing st with
  | zero => rfl
  | succ fuel ih =>
    obtain ⟨stack, reached⟩ := st
    cases stack with
    | nil => rfl
    | cons cur stack =>
      rw [EdgeRows.reachableFrom, reachableFrom, rows_findNode]
      cases edges.findNode cur with
      | none => exact ih _
      | some n =>
        simp only [Option.map_some, rows_findNode, Option.isSome_map, rows_nodes, List.filter_map,
          List.foldl_map, ih]
        rfl

end

/-! ## Writes -/

section

variable {edges : EdgeStore} {a b : UInt32} {f : NodeEdges → NodeEdges} {g : NodeRow → NodeRow}

theorem rows_mapNodes {hf} (h : ∀ n, (f n).row = g n.row) :
    (edges.mapNodes f hf).rows = { edges.rows with nodes := edges.rows.nodes.map g } := by
  have hnodes : (edges.nodes.rows.map f).map (·.row) = (edges.nodes.rows.map (·.row)).map g := by
    rw [List.map_map, List.map_map]
    exact List.map_congr_left fun n _ => h n
  exact congrArg (EdgeRows.mk · edges.pendingDemotion) hnodes

/-- One node is changed. -/
theorem rows_modifyNode {hf} (h : ∀ n, n.nodeId = a → (f n).row = g n.row) :
    (edges.modifyNode a f hf).rows = edges.rows.modifyNode a g := by
  have hids : (edges.rows.nodes.map (·.nodeId)).Nodup := by
    rw [rows_nodes, List.map_map]
    exact edges.nodup
  rw [EdgeRows.modifyNode, modifyFirst_eq_map hids, modifyNode]
  refine rows_mapNodes (g := fun n => if n.nodeId == a then g n else n) fun n => ?_
  rw [NodeEdges.row_nodeId]
  split
  · rename_i hn
    exact h n (beq_iff_eq.mp hn)
  · rfl

theorem rows_pushNode {n : NodeEdges} (habsent : edges.findNode n.nodeId = none)
    (hroom : edges.nodes.rows.length < MAX_GRAPH_NODES) :
    (edges.pushNode n).rows = edges.rows.pushNode n.row := by
  have hnodes :
      (edges.pushNode n).nodes.rows.map (·.row) = edges.nodes.rows.map (·.row) ++ [n.row] := by
    rw [pushNode_rows habsent hroom, List.map_append]
    rfl
  have hpending : (edges.pushNode n).pendingDemotion = edges.pendingDemotion := by
    unfold pushNode
    split <;> rfl
  unfold rows EdgeRows.pushNode
  rw [hnodes, hpending]

theorem rows_pushFresh {nowMs : UInt32} {cls : NodeClass} {parentHint : UInt32}
    (habsent : edges.findNode a = none) (hroom : edges.nodes.rows.length < MAX_GRAPH_NODES) :
    (edges.pushNode (.fresh a nowMs cls parentHint)).rows =
      edges.rows.pushNode (.fresh a nowMs cls parentHint) :=
  rows_pushNode habsent hroom

theorem swapRemove_map {α β : Type} (g : α → β) (xs : List α) (i : Nat) :
    swapRemove (xs.map g) i = (swapRemove xs i).map g := by
  unfold swapRemove Table.swapRemove
  dsimp only
  rw [List.getLast?_map]
  cases xs.getLast? with
  | none => rfl
  | some last =>
    dsimp only [Option.map_some]
    rw [List.map_dropLast, List.map_set]

theorem rows_removeNodeAt {i : Nat} (hi : i < edges.nodes.rows.length) :
    (edges.removeNodeAt i).rows = edges.rows.removeNodeAt i := by
  unfold removeNodeAt EdgeRows.removeNodeAt
  rw [dif_pos hi, rows_nodes, swapRemove_map]
  have hsame : (edges.nodes.swapRemove i).rows = swapRemove edges.nodes.rows i := by
    unfold swapRemove Table.swapRemove
    dsimp only
    split <;> rfl
  unfold rows
  rw [hsame]

variable (edges) (a b)

@[simp] theorem rows_setNodeClass (cls : NodeClass) (parentHint : UInt32) :
    (edges.setNodeClass a cls parentHint).rows = edges.rows.setNodeClass a cls parentHint := by
  refine rows_modifyNode fun n _ => ?_
  cases hkept : (n.cls == .l1 && cls != .l1) with
  | true =>
    simp only [NodeEdges.row_cls, hkept, reduceIte]
    split <;> rfl
  | false =>
    simp only [NodeEdges.row_cls, hkept, Bool.false_eq_true, reduceIte]
    split <;> rfl

@[simp] theorem rows_setL1 : (edges.setL1 a).rows = edges.rows.setL1 a :=
  rows_modifyNode fun _ _ => rfl

@[simp] theorem rows_touchNode (nowMs : UInt32) :
    (edges.touchNode a nowMs).rows = edges.rows.touchNode a nowMs :=
  rows_modifyNode fun _ _ => rfl

theorem rows_updateNodeActivity (nowMs myNode : UInt32) :
    (edges.updateNodeActivity a nowMs myNode).rows =
      (edges.rows.updateNodeActivity a nowMs myNode).1 := by
  unfold updateNodeActivity EdgeRows.updateNodeActivity
  split
  · rfl
  · exact rows_touchNode edges a nowMs

theorem rows_modifyEdge (g : Edge → Edge) :
    (edges.modifyEdge a b g).rows = edges.rows.modifyEdge a b g :=
  rows_modifyNode fun n _ => n.row_mapEdge b _ _

theorem rows_setEdgeHearsUs (hearsUs : Bool) :
    (edges.setEdgeHearsUs a b hearsUs).rows = edges.rows.setEdgeHearsUs a b hearsUs :=
  rows_modifyNode fun n _ => n.row_mapEdge b _ _

theorem rows_retainListedEdges (listed : List UInt32) :
    (edges.retainListedEdges a listed).1.rows = (edges.rows.retainListedEdges a listed).1 ∧
      (edges.retainListedEdges a listed).2 = (edges.rows.retainListedEdges a listed).2 := by
  unfold retainListedEdges EdgeRows.retainListedEdges
  rw [rows_findNode]
  cases edges.findNode a with
  | none => exact ⟨rfl, rfl⟩
  | some n =>
    dsimp only [Option.map_some]
    exact ⟨rows_modifyNode fun _ _ => rfl, rfl⟩

theorem rows_clearHearsUsToUnlisted (listed : List UInt32) :
    (edges.clearHearsUsToUnlisted a listed).rows = edges.rows.clearHearsUsToUnlisted a listed := by
  refine rows_mapNodes fun n => ?_
  rw [NodeEdges.row_nodeId]
  by_cases hn : (n.nodeId == a) = true
  · rw [if_pos hn, if_pos hn]
  · rw [if_neg hn, if_neg hn]
    rfl

theorem rows_removeEdgesTo : (edges.removeEdgesTo a).rows = edges.rows.removeEdgesTo a :=
  rows_mapNodes fun _ => rfl

theorem rows_removeEdge :
    (edges.removeEdge a b).1.rows = (edges.rows.removeEdge a b).1 ∧
      (edges.removeEdge a b).2 = (edges.rows.removeEdge a b).2 := by
  unfold removeEdge EdgeRows.removeEdge
  rw [rows_findNode]
  cases edges.findNode a with
  | none => exact ⟨rfl, rfl⟩
  | some n =>
    dsimp only [Option.map_some]
    exact ⟨rows_modifyNode fun _ _ => rfl, rfl⟩

theorem rows_removeNode :
    (edges.removeNode a).1.rows = (edges.rows.removeNode a).1 ∧
      (edges.removeNode a).2 = (edges.rows.removeNode a).2 := by
  unfold removeNode EdgeRows.removeNode
  by_cases ha : (a == 0) = true
  · rw [if_pos ha, if_pos ha]
    exact ⟨rfl, rfl⟩
  · rw [if_neg ha, if_neg ha, ← rows_removeEdgesTo]
    have hindex : (edges.removeEdgesTo a).rows.nodes.findIdx? (fun n => n.nodeId == a) =
        (edges.removeEdgesTo a).nodes.rows.findIdx? fun n => n.nodeId == a := by
      rw [rows_nodes, List.findIdx?_map]
      rfl
    dsimp only
    rw [hindex]
    unfold removeEdgesTo
    cases hfound : (edges.mapNodes (fun n => n.filterEdges fun e => e.toNode != a)
        (keptRows_nodeId a)).nodes.rows.findIdx? fun n => n.nodeId == a with
    | none => exact ⟨rfl, rfl⟩
    | some i =>
      exact ⟨rows_removeNodeAt (List.findIdx?_eq_some_iff_getElem.mp hfound).choose, rfl⟩

end

/-! ## Demotion and eviction -/

section

variable {Etx : Type} (F : F32 Etx) (edges : EdgeStore) (a b myNode nowMs : UInt32)

theorem rows_applyDemotion (d : PendingDemotion) (ds : DownstreamTable) :
    (edges.applyDemotion F myNode d nowMs ds).1.rows =
        (edges.rows.applyDemotion F myNode d nowMs ds).1 ∧
      (edges.applyDemotion F myNode d nowMs ds).2 =
        (edges.rows.applyDemotion F myNode d nowMs ds).2 := by
  unfold applyDemotion EdgeRows.applyDemotion
  rw [rows_edge]
  exact ⟨rfl, rfl⟩

theorem rows_flushPendingDemotion (ds : DownstreamTable) :
    (edges.flushPendingDemotion F myNode nowMs ds).1.rows =
        (edges.rows.flushPendingDemotion F myNode nowMs ds).1 ∧
      (edges.flushPendingDemotion F myNode nowMs ds).2 =
        (edges.rows.flushPendingDemotion F myNode nowMs ds).2 := by
  unfold flushPendingDemotion EdgeRows.flushPendingDemotion
  rw [rows_pendingDemotion]
  cases edges.pendingDemotion with
  | none => exact ⟨rfl, rfl⟩
  | some d => exact rows_applyDemotion F edges myNode nowMs d ds

theorem rows_evictForCapacity (downstream : Option DownstreamTable) :
    edges.rows.evictForCapacity F nowMs myNode downstream =
      (edges.evictForCapacity F nowMs myNode downstream).map fun r => (r.1.rows, r.2) := by
  unfold evictForCapacity EdgeRows.evictForCapacity
  rw [rows_selectEvictionVictim]
  cases edges.selectEvictionVictim myNode nowMs with
  | none => rfl
  | some i =>
    dsimp only
    rw [rows_nodes, List.getElem?_map]
    cases hn : edges.nodes.rows[i]? with
    | none => rfl
    | some n =>
      have hi : i < edges.nodes.rows.length := (List.getElem?_eq_some_iff.mp hn).choose
      dsimp only [Option.map_some]
      rw [NodeEdges.row_nodeId, rows_pickL1Parent]
      cases edges.pickL1Parent n.nodeId myNode with
      | none =>
        cases downstream with
        | none => exact congrArg some (Prod.ext (rows_removeNodeAt hi).symm rfl)
        | some ds => rfl
      | some parent =>
        obtain ⟨parent, cost⟩ := parent
        cases downstream with
        | none =>
          let pending := { edges with pendingDemotion := some ⟨n.nodeId, parent, cost⟩ }
          have hremoved : (pending.removeNodeAt i).rows = pending.rows.removeNodeAt i :=
            rows_removeNodeAt hi
          exact congrArg some (Prod.ext hremoved.symm rfl)
        | some ds =>
          obtain ⟨hrows, hds⟩ := rows_applyDemotion F edges myNode nowMs ⟨n.nodeId, parent, cost⟩ ds
          dsimp only [Option.map_some]
          rw [rows_removeNodeAt (by exact hi), hrows, hds]

/-- A full store that evicts has room for a node that it did not have. -/
theorem evictForCapacity_makesRoom {downstream : Option DownstreamTable}
    {r : EdgeStore × Option DownstreamTable}
    (h : edges.evictForCapacity F nowMs myNode downstream = some r)
    (habsent : edges.findNode a = none) :
    r.1.nodes.rows.length < MAX_GRAPH_NODES ∧ r.1.findNode a = none := by
  have hrows : edges.rows.evictForCapacity F nowMs myNode downstream = some (r.1.rows, r.2) := by
    rw [rows_evictForCapacity, h, Option.map_some]
  have hcount : edges.rows.nodes.length ≤ MAX_GRAPH_NODES := by
    rw [rows_nodes, List.length_map]
    exact edges.nodes.le
  obtain ⟨hroom, hgone⟩ := EdgeRows.evictForCapacity_room hrows hcount
    (by rw [rows_ids]; exact findNode_eq_none_iff.mp habsent)
  rw [rows_ids] at hgone
  rw [rows_nodes, List.length_map] at hroom
  exact ⟨hroom, findNode_eq_none_iff.mpr hgone⟩

theorem rows_findOrCreateNode :
    edges.rows.findOrCreateNode F a nowMs myNode =
      (edges.findOrCreateNode F a nowMs myNode).map rows := by
  unfold findOrCreateNode EdgeRows.findOrCreateNode
  rw [rows_findNode, Option.isSome_map]
  cases hfind : edges.findNode a with
  | some n => rfl
  | none =>
    rw [Option.isSome_none, if_neg Bool.false_ne_true, if_neg Bool.false_ne_true, rows_nodes,
      List.length_map]
    by_cases hroom : edges.nodes.rows.length < MAX_GRAPH_NODES
    · rw [if_pos hroom, if_pos hroom]
      exact congrArg some (rows_pushFresh hfind hroom).symm
    · rw [if_neg hroom, if_neg hroom, rows_evictForCapacity]
      cases hevict : edges.evictForCapacity F nowMs myNode none with
      | none => rfl
      | some r =>
        obtain ⟨hroom', habsent⟩ := evictForCapacity_makesRoom F edges a myNode nowMs hevict hfind
        exact congrArg some (rows_pushFresh habsent hroom').symm

/-- A creation that fails leaves the store. -/
theorem rows_findOrCreateNode_getD :
    (edges.rows.findOrCreateNode F a nowMs myNode).getD edges.rows =
      ((edges.findOrCreateNode F a nowMs myNode).getD edges).rows := by
  rw [rows_findOrCreateNode]
  cases edges.findOrCreateNode F a nowMs myNode <;> rfl

theorem rows_ensureLocalNode :
    (edges.ensureLocalNode F myNode nowMs).rows = edges.rows.ensureLocalNode F myNode nowMs := by
  unfold ensureLocalNode EdgeRows.ensureLocalNode
  rw [rows_findNode, Option.isNone_map, rows_findOrCreateNode_getD]
  split <;> rfl

theorem rows_ensurePublisher (cls : NodeClass) (parentHint : UInt32) (ds : DownstreamTable) :
    (edges.ensurePublisher F a cls parentHint nowMs myNode ds).1.rows =
        (edges.rows.ensurePublisher F a cls parentHint nowMs myNode ds).1 ∧
      (edges.ensurePublisher F a cls parentHint nowMs myNode ds).2 =
        (edges.rows.ensurePublisher F a cls parentHint nowMs myNode ds).2 := by
  unfold ensurePublisher EdgeRows.ensurePublisher
  rw [rows_findNode, Option.isSome_map]
  split
  · exact ⟨rfl, rfl⟩
  split
  · exact ⟨rfl, rfl⟩
  cases hfind : edges.findNode a with
  | some n =>
    rw [Option.isSome_some, if_pos rfl, if_pos rfl, rows_touchNode, rows_setNodeClass]
    exact ⟨rfl, rfl⟩
  | none =>
    rw [Option.isSome_none, if_neg Bool.false_ne_true, if_neg Bool.false_ne_true, rows_nodes,
      List.length_map]
    by_cases hroom : edges.nodes.rows.length < MAX_GRAPH_NODES
    · rw [if_pos hroom, if_pos hroom]
      exact ⟨rows_pushFresh hfind hroom, rfl⟩
    · rw [if_neg hroom, if_neg hroom, rows_evictForCapacity]
      cases hevict : edges.evictForCapacity F nowMs myNode (some ds) with
      | none => exact ⟨rfl, rfl⟩
      | some r =>
        obtain ⟨hroom', habsent⟩ := evictForCapacity_makesRoom F edges a myNode nowMs hevict hfind
        obtain ⟨edges', downstream⟩ := r
        cases downstream with
        | none => exact ⟨rfl, rfl⟩
        | some ds => exact ⟨rows_pushFresh habsent hroom', rfl⟩

/-! ## Edges -/

theorem rows_admitOwner :
    edges.rows.admitOwner F a nowMs myNode = (edges.admitOwner F a nowMs myNode).map rows := by
  unfold admitOwner EdgeRows.admitOwner
  rw [rows_findNode, Option.isSome_map, rows_findOrCreateNode_getD, rows_isOurDirectNeighbor,
    rows_reachableViaNeighbor, rows_classOrBootstrap]
  repeat' split
  all_goals rfl

theorem rows_classifyEnds (source : EdgeSource) :
    (edges.classifyEnds F myNode a b nowMs source).rows =
      edges.rows.classifyEnds F myNode a b nowMs source := by
  unfold classifyEnds EdgeRows.classifyEnds
  rw [rows_findOrCreateNode_getD, rows_classOrBootstrap, rows_findNode]
  split
  · dsimp only
    split
    · exact rows_setL1 _ b
    · rfl
  · dsimp only
    split
    · rw [rows_setNodeClass]
      cases edges.findNode a <;> rfl
    · rfl

/-- The list takes the edge as the array does. -/
theorem row_writeEdge {n : NodeEdges} (hid : n.nodeId ≠ 0) (hb : b ≠ 0 ∧ b ≠ n.nodeId) (etx : Etx)
    (source : EdgeSource) (updateTimestamp : Bool) (heardOn : UInt8) :
    (takeEdge F n b etx nowMs source updateTimestamp heardOn).row =
        (EdgeRows.writeEdge F n.row b etx nowMs source updateTimestamp heardOn).1 ∧
      (writeEdge F n b etx nowMs source updateTimestamp heardOn).2 =
        (EdgeRows.writeEdge F n.row b etx nowMs source updateTimestamp heardOn).2 := by
  -- noting the time leaves id and list
  obtain ⟨m, hm, hrow, hsame, hedges⟩ : ∃ m : NodeEdges,
      (if updateTimestamp then n.touched nowMs else n) = m ∧
      (if updateTimestamp then { n.row with lastFullUpdateMs := nowMs } else n.row) = m.row ∧
      m.nodeId = n.nodeId ∧ n.edges = m.edges := by
    refine ⟨_, rfl, ?_⟩
    split <;> exact ⟨rfl, rfl, rfl⟩
  have hfind : n.findEdge b = m.findEdge b := congrArg (·.rows.find? fun e => e.toNode == b) hedges
  unfold takeEdge EdgeRows.writeEdge
  rw [hm, hrow]
  unfold writeEdge
  rw [hfind, hedges]
  dsimp only [NodeEdges.row_findEdge, NodeEdges.row_edges]
  cases hedge : m.findEdge b with
  | some e =>
    by_cases hrank : source.rank < e.source.rank
    · simp only [hrank, reduceIte, and_self]
    · simp only [hrank, reduceIte, and_true]
      exact m.row_mapEdge b (remeasure F · etx nowMs source updateTimestamp heardOn) fun e => by
        split <;> rfl
  | none =>
    rw [← hsame] at hid hb
    by_cases hroom : m.edges.rows.length < MAX_EDGES_PER_NODE
    · simp only [hroom, reduceIte, and_true]
      exact m.row_pushEdge hid (by exact hb) (by exact hedge) hroom
    · simp only [hroom, reduceIte]
      cases worstEdge F m.edges.rows source nowMs with
      | none => exact ⟨rfl, rfl⟩
      | some worst =>
        obtain ⟨i, worstScore⟩ := worst
        cases hbelow : F.below etx worstScore with
        | false => simp [hbelow]
        | true =>
          simp only [hbelow, Bool.not_true, Bool.false_eq_true, reduceIte, and_true]
          exact m.row_replaceEdge hid (by exact hb) (by exact hedge)

theorem rows_updateEdge (etx : Etx) (source : EdgeSource) (updateTimestamp : Bool)
    (heardOn : UInt8) :
    (edges.updateEdge F myNode a b etx nowMs source updateTimestamp heardOn).1.rows =
        (edges.rows.updateEdge F myNode a b etx nowMs source updateTimestamp heardOn).1 ∧
      (edges.updateEdge F myNode a b etx nowMs source updateTimestamp heardOn).2 =
        (edges.rows.updateEdge F myNode a b etx nowMs source updateTimestamp heardOn).2 := by
  unfold updateEdge EdgeRows.updateEdge
  split
  · exact ⟨rfl, rfl⟩
  rename_i hends
  simp only [Bool.or_eq_true, beq_iff_eq, not_or] at hends
  obtain ⟨⟨⟨hb, ha⟩, hne⟩, -⟩ := hends
  rw [rows_admitOwner]
  cases edges.admitOwner F a nowMs myNode with
  | none => exact ⟨rfl, rfl⟩
  | some admitted =>
    dsimp only [Option.map_some]
    rw [rows_findOrCreateNode]
    cases admitted.findOrCreateNode F a nowMs myNode with
    | none => exact ⟨rfl, rfl⟩
    | some created =>
      dsimp only [Option.map_some]
      rw [← rows_classifyEnds, rows_findNode]
      cases hn : (created.classifyEnds F myNode a b nowMs source).findNode a with
      | none => exact ⟨rfl, rfl⟩
      | some n =>
        have hid := (findNode_eq_some_iff.mp hn).2
        dsimp only [Option.map_some]
        refine ⟨rows_modifyNode fun m hm => ?_, ?_⟩
        · exact (row_writeEdge F b nowMs (hm ▸ ha) ⟨hb, hm ▸ Ne.symm hne⟩ etx source
            updateTimestamp heardOn).1
        · exact (row_writeEdge F b nowMs (hid ▸ ha) ⟨hb, hid ▸ Ne.symm hne⟩ etx source
            updateTimestamp heardOn).2

/-! ## Pruning and ageing -/

/-- A store, a table and an answer, without the checks. -/
def laidOut (st : EdgeStore × DownstreamTable × Bool) : EdgeRows × DownstreamTable × Bool :=
  (st.1.rows, st.2)

theorem laidOut_dropVictim (st : EdgeStore × DownstreamTable × Bool) (victim : UInt32) :
    laidOut (dropVictim F myNode nowMs st victim) =
      EdgeRows.dropVictim F myNode nowMs (laidOut st) victim := by
  obtain ⟨edges, ds, changed⟩ := st
  unfold dropVictim EdgeRows.dropVictim laidOut
  dsimp only
  rw [rows_pickL1Parent]
  cases edges.pickL1Parent victim myNode with
  | none =>
    obtain ⟨hrows, hremoved⟩ := rows_removeNode edges victim
    dsimp only
    rw [hrows, hremoved]
  | some parent =>
    obtain ⟨hdemoted, hds⟩ :=
      rows_applyDemotion F edges myNode nowMs ⟨victim, parent.1, parent.2⟩ ds
    obtain ⟨hrows, hremoved⟩ :=
      rows_removeNode (edges.applyDemotion F myNode ⟨victim, parent.1, parent.2⟩ nowMs ds).1 victim
    dsimp only
    rw [← hdemoted, ← hds, hrows, hremoved]

theorem laidOut_dropVictims (victims : List UInt32) (st : EdgeStore × DownstreamTable × Bool) :
    laidOut (victims.foldl (dropVictim F myNode nowMs) st) =
      victims.foldl (EdgeRows.dropVictim F myNode nowMs) (laidOut st) := by
  induction victims generalizing st with
  | nil => rfl
  | cons victim victims ih =>
    rw [List.foldl_cons, List.foldl_cons, ih, laidOut_dropVictim]

theorem laidOut_pruneUnreachableFromRoot (ds : DownstreamTable) :
    laidOut (edges.pruneUnreachableFromRoot F myNode nowMs ds) =
      edges.rows.pruneUnreachableFromRoot F myNode nowMs ds := by
  unfold pruneUnreachableFromRoot EdgeRows.pruneUnreachableFromRoot
  rw [rows_findNode, Option.isNone_map, rows_reachableFrom, rows_ids, rows_nodes, List.length_map]
  split
  · rfl
  · exact laidOut_dropVictims F myNode nowMs _ (edges, ds, false)

theorem rows_dropOldEdges (ttlMs : UInt32) :
    (edges.dropOldEdges nowMs ttlMs).1.rows = (edges.rows.dropOldEdges nowMs ttlMs).1 ∧
      (edges.dropOldEdges nowMs ttlMs).2 = (edges.rows.dropOldEdges nowMs ttlMs).2 := by
  unfold dropOldEdges EdgeRows.dropOldEdges
  dsimp only
  refine ⟨rows_mapNodes fun _ => rfl, ?_⟩
  rw [rows_nodes, List.any_map]
  rfl

theorem rows_aged (ttlMs : UInt32) :
    (edges.rows.nodes.filter (edges.rows.ages myNode nowMs ttlMs)).map (·.nodeId) =
      (edges.nodes.rows.filter (edges.ages myNode nowMs ttlMs)).map (·.nodeId) := by
  have hages : edges.rows.ages myNode nowMs ttlMs ∘ NodeEdges.row =
      edges.ages myNode nowMs ttlMs := by
    funext n
    unfold EdgeRows.ages ages
    rw [Function.comp_apply, NodeEdges.row_nodeId, rows_hasDirectReportedEdgeTo]
    rfl
  rw [rows_nodes, List.filter_map, hages, List.map_map]
  rfl

theorem rows_ageEdges (ttlMs : UInt32) (ds : DownstreamTable) :
    (edges.ageEdges F myNode nowMs ttlMs ds).1.rows =
      (edges.rows.ageEdges F myNode nowMs ttlMs (some ds)).1 := by
  obtain ⟨hrows, hchanged⟩ := rows_dropOldEdges edges nowMs ttlMs
  unfold ageEdges EdgeRows.ageEdges
  dsimp only
  rw [← hrows, ← hchanged, rows_aged]
  have hvictims := laidOut_dropVictims F myNode nowMs
    (((edges.dropOldEdges nowMs ttlMs).1.nodes.rows.filter
      ((edges.dropOldEdges nowMs ttlMs).1.ages myNode nowMs ttlMs)).map (·.nodeId))
    ((edges.dropOldEdges nowMs ttlMs).1, ds, (edges.dropOldEdges nowMs ttlMs).2)
  rw [laidOut, laidOut] at hvictims
  rw [← hvictims]
  generalize List.foldl (dropVictim F myNode nowMs) _ _ = left
  obtain ⟨left, ds', changed⟩ := left
  cases changed with
  | false => rfl
  | true => exact congrArg Prod.fst (laidOut_pruneUnreachableFromRoot F left myNode nowMs ds')

end

/-! ## Runs -/

section

open EdgeRows (StoreOp)

variable {Etx : Type} (F : F32 Etx) (me : UInt32)

/-- Nodes go one by one, with no table at hand. -/
def removeNodes (edges : EdgeStore) (victims : List UInt32) : EdgeStore :=
  victims.foldl (fun edges victim => (edges.removeNode victim).1) edges

theorem rows_removeNodes (victims : List UInt32) (edges : EdgeStore) (changed : Bool) :
    (edges.removeNodes victims).rows =
      (victims.foldl
        (fun (st : EdgeRows × Bool) victim =>
          ((st.1.removeNode victim).1, (st.1.removeNode victim).2 || st.2))
        (edges.rows, changed)).1 := by
  unfold removeNodes
  induction victims generalizing edges changed with
  | nil => rfl
  | cons victim victims ih =>
    rw [List.foldl_cons, List.foldl_cons, ih _ ((edges.rows.removeNode victim).2 || changed),
      (rows_removeNode edges victim).1]

def apply (edges : EdgeStore) : StoreOp Etx → EdgeStore
  | .clear => .empty
  | .takePendingDemotion => { edges with pendingDemotion := none }
  | .setNodeClass nodeId cls parentHint => edges.setNodeClass nodeId cls parentHint
  | .setL1 nodeId => edges.setL1 nodeId
  | .modifyEdge a b f => edges.modifyEdge a b f
  | .setEdgeHearsUs a b hearsUs => edges.setEdgeHearsUs a b hearsUs
  | .retainListedEdges sender listed => (edges.retainListedEdges sender listed).1
  | .clearHearsUsToUnlisted sender listed => edges.clearHearsUsToUnlisted sender listed
  | .removeEdgesTo target => edges.removeEdgesTo target
  | .removeEdge a b => (edges.removeEdge a b).1
  | .removeNode nodeId => (edges.removeNode nodeId).1
  | .updateNodeActivity nodeId nowMs => edges.updateNodeActivity nodeId nowMs me
  | .ensureLocalNode nowMs => edges.ensureLocalNode F me nowMs
  | .ensurePublisher nodeId cls parentHint nowMs ds =>
    (edges.ensurePublisher F nodeId cls parentHint nowMs me ds).1
  | .flushPendingDemotion nowMs ds => (edges.flushPendingDemotion F me nowMs ds).1
  | .demoteForCapacity nowMs ds =>
    match edges.evictForCapacity F nowMs me (some ds) with
    | some (edges, some _) => edges
    | _ => edges
  | .updateEdge a b etx nowMs source updateTimestamp heardOn =>
    (edges.updateEdge F me a b etx nowMs source updateTimestamp heardOn).1
  | .updateEdgeFromObservation a b rssi snr nowMs source heardOn modemPreset =>
    (edges.updateEdge F me a b (F.calculateEtx rssi.toInt32 snr modemPreset) nowMs source true
      heardOn).1
  | .pruneUnreachableFromRoot nowMs ds => (edges.pruneUnreachableFromRoot F me nowMs ds).1
  | .removeEdgeAndPrune a b nowMs ds =>
    match edges.removeEdge a b with
    | (_, false) => edges
    | (edges, true) => (edges.pruneUnreachableFromRoot F me nowMs ds).1
  | .ageEdges nowMs ttlMs (some ds) => (edges.ageEdges F me nowMs ttlMs ds).1
  | .ageEdges nowMs ttlMs none =>
    let edges := (edges.dropOldEdges nowMs ttlMs).1
    edges.removeNodes ((edges.nodes.rows.filter (edges.ages me nowMs ttlMs)).map (·.nodeId))

/-- Both models take the same step. -/
theorem rows_apply (edges : EdgeStore) (op : StoreOp Etx) :
    (edges.apply F me op).rows = edges.rows.apply F me op := by
  cases op with
  | clear => rfl
  | takePendingDemotion => rfl
  | setNodeClass nodeId cls parentHint => exact edges.rows_setNodeClass nodeId cls parentHint
  | setL1 nodeId => exact edges.rows_setL1 nodeId
  | modifyEdge a b f => exact edges.rows_modifyEdge a b f
  | setEdgeHearsUs a b hearsUs => exact edges.rows_setEdgeHearsUs a b hearsUs
  | retainListedEdges sender listed => exact (edges.rows_retainListedEdges sender listed).1
  | clearHearsUsToUnlisted sender listed => exact edges.rows_clearHearsUsToUnlisted sender listed
  | removeEdgesTo target => exact edges.rows_removeEdgesTo target
  | removeEdge a b => exact (edges.rows_removeEdge a b).1
  | removeNode nodeId => exact (edges.rows_removeNode nodeId).1
  | updateNodeActivity nodeId nowMs => exact edges.rows_updateNodeActivity nodeId nowMs me
  | ensureLocalNode nowMs => exact rows_ensureLocalNode F edges me nowMs
  | ensurePublisher nodeId cls parentHint nowMs ds =>
    exact (rows_ensurePublisher F edges nodeId me nowMs cls parentHint ds).1
  | flushPendingDemotion nowMs ds => exact (rows_flushPendingDemotion F edges me nowMs ds).1
  | demoteForCapacity nowMs ds =>
    simp only [apply, EdgeRows.apply]
    unfold EdgeRows.demoteForCapacity
    rw [rows_evictForCapacity]
    rcases edges.evictForCapacity F nowMs me (some ds) with _ | ⟨edges', _ | ds'⟩ <;> rfl
  | updateEdge a b etx nowMs source updateTimestamp heardOn =>
    exact (rows_updateEdge F edges a b me nowMs etx source updateTimestamp heardOn).1
  | updateEdgeFromObservation a b rssi snr nowMs source heardOn modemPreset =>
    exact (rows_updateEdge F edges a b me nowMs _ source true heardOn).1
  | pruneUnreachableFromRoot nowMs ds =>
    exact congrArg Prod.fst (laidOut_pruneUnreachableFromRoot F edges me nowMs ds)
  | removeEdgeAndPrune a b nowMs ds =>
    obtain ⟨hrows, hremoved⟩ := rows_removeEdge edges a b
    simp only [apply, EdgeRows.apply]
    unfold EdgeRows.removeEdgeAndPrune
    cases hremove : edges.removeEdge a b with
    | mk edges' removed =>
      cases hremove' : edges.rows.removeEdge a b with
      | mk s removed' =>
        rw [hremove, hremove'] at hrows hremoved
        dsimp only at hrows hremoved
        subst hrows hremoved
        cases removed with
        | false => rfl
        | true => exact congrArg Prod.fst (laidOut_pruneUnreachableFromRoot F edges' me nowMs ds)
  | ageEdges nowMs ttlMs downstream =>
    cases downstream with
    | some ds => exact rows_ageEdges F edges me nowMs ttlMs ds
    | none =>
      obtain ⟨hrows, hchanged⟩ := rows_dropOldEdges edges nowMs ttlMs
      simp only [apply, EdgeRows.apply]
      unfold EdgeRows.ageEdges
      dsimp only
      rw [← hrows, rows_aged]
      exact rows_removeNodes _ _ _

theorem rows_run (ops : List (StoreOp Etx)) (edges : EdgeStore) :
    (ops.foldl (apply F me) edges).rows = ops.foldl (EdgeRows.apply F me) edges.rows := by
  induction ops generalizing edges with
  | nil => rfl
  | cons op ops ih => rw [List.foldl_cons, List.foldl_cons, ih, rows_apply]

/-- What operations lead to on the arrays are the rows of a store, and no other rows are. -/
theorem reached_rows (s : EdgeRows) :
    (EdgeRows.edgeRows F me).Reachable s ↔
      ∃ ops : List (StoreOp Etx), (ops.foldl (apply F me) .empty).rows = s := by
  constructor
  · rintro ⟨s0, ops, rfl, hrun⟩
    exact ⟨ops, (rows_run F me ops .empty).trans ((LTS.run_iff_foldl fun _ _ _ => .rfl).mp hrun)⟩
  · rintro ⟨ops, rfl⟩
    exact ⟨.new, ops, rfl,
      (LTS.run_iff_foldl fun _ _ _ => .rfl).mpr (rows_run F me ops .empty).symm⟩

end

end EdgeStore

end Meshrustic.Topology
