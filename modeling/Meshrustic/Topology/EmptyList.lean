import Meshrustic.Topology.Stale

/-!
# Header-only lists

A node that hears nobody publishes its header alone. Only a header under
version 0 is exempt from the sweep: under a running version the list is
complete, and everything is unlisted. What such a list leaves alone is
determined exactly (`empty_list_clears`), the sweep being the only stage of
the merge that touches an edge here, and making room for our own node the only
other way to lose one.
-/
namespace Meshrustic.Topology

open Meshrustic.Graph

/-! ## Stores with the same edges -/

namespace NodeEdges

variable {n : NodeEdges} {b : UInt32} {e : Edge}

theorem findEdge_eq_some_iff : n.findEdge b = some e ↔ e ∈ n.edges.rows ∧ e.toNode = b :=
  lookup_eq_some_iff (fun e : Edge => e.toNode) n.nodup

theorem findEdge_mapEdges (f : Edge → Edge) (hf) :
    (n.mapEdges f hf).findEdge b = (n.findEdge b).map f := by
  show List.find? _ (n.edges.rows.map f) = _
  rw [List.find?_map]
  congr 2
  funext e
  show ((f e).toNode == b) = (e.toNode == b)
  rw [hf]

theorem findEdge_filterEdges {p : Edge → Bool} :
    (n.filterEdges p).findEdge b = some e ↔ n.findEdge b = some e ∧ p e = true := by
  rw [findEdge_eq_some_iff, findEdge_eq_some_iff]
  show e ∈ n.edges.rows.filter p ∧ e.toNode = b ↔ _
  rw [List.mem_filter]
  tauto

end NodeEdges

namespace EdgeStore

/-- Every edge is as it was, its `hears_us` flag included. -/
def SameEdges (edges edges' : EdgeStore) : Prop := ∀ a b, edges'.edge a b = edges.edge a b

/-- Edges are only lost. -/
def Loses (edges edges' : EdgeStore) : Prop :=
  ∀ a b e, edges'.edge a b = some e → edges.edge a b = some e

variable {edges edges' edges'' : EdgeStore}

theorem SameEdges.refl (edges : EdgeStore) : SameEdges edges edges := fun _ _ => rfl

theorem SameEdges.trans (h : SameEdges edges edges') (h' : SameEdges edges' edges'') :
    SameEdges edges edges'' := fun a b => (h' a b).trans (h a b)

theorem SameEdges.symm (h : SameEdges edges edges') : SameEdges edges' edges :=
  fun a b => (h a b).symm

theorem SameEdges.loses (h : SameEdges edges edges') : Loses edges edges' := by
  intro a b e he
  rw [← h a b]
  exact he

theorem Loses.trans (h : Loses edges edges') (h' : Loses edges' edges'') : Loses edges edges'' :=
  fun a b e he => h a b e (h' a b e he)

/-- Changing what is no edge: class, hint or time of a node. -/
theorem sameEdges_mapNodes {f : NodeEdges → NodeEdges} {hf}
    (hedges : ∀ n, (f n).toNodeEdges.edges = n.edges) : SameEdges edges (edges.mapNodes f hf) := by
  intro a b
  unfold edge
  rw [findNode_mapNodes]
  cases edges.findNode a with
  | none => rfl
  | some n =>
    show (f n).edges.rows.find? _ = n.edges.rows.find? _
    rw [hedges]

theorem sameEdges_modifyNode {nodeId : UInt32} {f : NodeEdges → NodeEdges} {hf}
    (hedges : ∀ n, (f n).toNodeEdges.edges = n.edges) :
    SameEdges edges (edges.modifyNode nodeId f hf) := by
  unfold modifyNode
  apply sameEdges_mapNodes
  intro n
  split
  · exact hedges n
  · rfl

theorem sameEdges_setNodeClass (nodeId : UInt32) (cls : NodeClass) (parentHint : UInt32) :
    SameEdges edges (edges.setNodeClass nodeId cls parentHint) := by
  apply sameEdges_modifyNode
  intro n
  dsimp only
  split <;> split <;> rfl

theorem sameEdges_touchNode (nodeId nowMs : UInt32) :
    SameEdges edges (edges.touchNode nodeId nowMs) :=
  sameEdges_modifyNode fun _ => rfl

theorem loses_filterEdges (p : Edge → Bool) :
    Loses edges (edges.mapNodes (fun n => n.filterEdges p) fun n => n.filterEdges_nodeId p) := by
  intro a b e he
  rw [edge_eq_some_iff] at he ⊢
  obtain ⟨n, hn, he⟩ := he
  rw [findNode_mapNodes, Option.map_eq_some_iff] at hn
  obtain ⟨m, hm, rfl⟩ := hn
  exact ⟨m, hm, (NodeEdges.findEdge_filterEdges.mp he).1⟩

theorem loses_removeNodeAt (i : Nat) : Loses edges (edges.removeNodeAt i) := by
  intro a b e he
  cases hi : edges.nodes.rows[i]? with
  | none =>
    unfold removeNodeAt at he
    rw [dif_neg (by
      rw [List.getElem?_eq_none_iff] at hi
      omega)] at he
    exact he
  | some victim =>
    rw [edge_eq_some_iff] at he ⊢
    obtain ⟨n, hn, he⟩ := he
    rw [findNode_removeNodeAt hi] at hn
    split at hn
    · cases hn
    · exact ⟨n, hn, he⟩

theorem loses_removeNode (nodeId : UInt32) : Loses edges (edges.removeNode nodeId).1 := by
  unfold removeNode
  split
  · exact (SameEdges.refl edges).loses
  · dsimp only
    split
    · exact loses_filterEdges _
    · exact (loses_filterEdges _).trans (loses_removeNodeAt _)

section

variable {Etx : Type} (F : F32 Etx)

theorem sameEdges_applyDemotion (myNode : UInt32) (d : PendingDemotion) (nowMs : UInt32)
    (ds : DownstreamTable) : SameEdges edges (edges.applyDemotion F myNode d nowMs ds).1 :=
  fun _ _ => rfl

theorem sameEdges_flush (myNode nowMs : UInt32) (ds : DownstreamTable) :
    SameEdges edges (edges.flushPendingDemotion F myNode nowMs ds).1 := by
  unfold flushPendingDemotion
  split
  · exact .refl edges
  · exact sameEdges_applyDemotion F _ _ _ _

/-- Pruning removes nodes, and with them edges; none is added. -/
theorem loses_prune (myNode nowMs : UInt32) (ds : DownstreamTable) :
    Loses edges (edges.pruneUnreachableFromRoot F myNode nowMs ds).1 := by
  unfold pruneUnreachableFromRoot
  split
  · exact (SameEdges.refl edges).loses
  · dsimp only
    generalize List.filter _ (edges.nodes.rows.map (·.nodeId)) = doomed
    generalize hst : (edges, ds, false) = st
    have hstart : Loses edges st.1 := by
      rw [← hst]
      exact (SameEdges.refl edges).loses
    clear hst
    induction doomed generalizing st with
    | nil => exact hstart
    | cons victim rest ih =>
      rw [List.foldl_cons]
      apply ih
      cases hp : st.1.pickL1Parent victim myNode with
      | none => exact hstart.trans (loses_removeNode victim)
      | some p =>
        exact hstart.trans ((sameEdges_applyDemotion F _ _ _ _).loses.trans (loses_removeNode victim))

end

/-! ## The sweep -/

section

variable {sender : UInt32} {listed : List UInt32} {a b : UInt32}

/-- The flag of an edge to `sender` goes, unless its owner is listed. -/
theorem edge_clearHearsUs :
    (edges.clearHearsUsToUnlisted sender listed).edge a b =
      (edges.edge a b).map fun e =>
        if a ≠ sender ∧ b = sender ∧ e.hearsUs = true ∧ listed.contains a = false then
          { e with hearsUs := false }
        else e := by
  unfold clearHearsUsToUnlisted edge
  rw [findNode_mapNodes]
  cases hn : edges.findNode a with
  | none => rfl
  | some n =>
    obtain ⟨-, rfl⟩ := findNode_eq_some_iff.mp hn
    simp only [Option.map_some, Option.bind_some]
    by_cases ha : n.nodeId = sender
    · rw [if_pos (by simpa using ha)]
      cases n.findEdge b with
      | none => rfl
      | some e => simp [ha]
    · rw [if_neg (by simpa using ha), NodeEdges.findEdge_mapEdges]
      cases he : n.findEdge b with
      | none => rfl
      | some e =>
        obtain ⟨-, rfl⟩ := NodeEdges.findEdge_eq_some_iff.mp he
        simp only [Option.map_some, Option.some.injEq]
        refine if_congr ?_ rfl rfl
        simp [ha, and_assoc]

theorem edge_retainListed {e : Edge} :
    (edges.retainListedEdges sender listed).1.edge a b = some e ↔
      edges.edge a b = some e ∧ (a = sender → keepsEdge listed e = true) := by
  unfold retainListedEdges
  cases hs : edges.findNode sender with
  | none =>
    show edges.edge a b = some e ↔ _
    constructor
    · intro he
      refine ⟨he, ?_⟩
      rintro rfl
      obtain ⟨n, hn, -⟩ := edge_eq_some_iff.mp he
      rw [hs] at hn
      cases hn
    · exact And.left
  | some n =>
    dsimp only
    rw [edge_eq_some_iff, edge_eq_some_iff]
    by_cases ha : a = sender
    · subst ha
      rw [findNode_modifyNode_self, hs]
      constructor
      · rintro ⟨m, hm, he⟩
        cases hm
        rw [NodeEdges.findEdge_filterEdges] at he
        exact ⟨⟨n, rfl, he.1⟩, fun _ => he.2⟩
      · rintro ⟨⟨m, hm, he⟩, hkeep⟩
        cases hm
        exact ⟨_, rfl, NodeEdges.findEdge_filterEdges.mpr ⟨he, hkeep rfl⟩⟩
    · rw [findNode_modifyNode_other _ _ ha]
      exact ⟨fun h => ⟨h, fun h' => absurd h' ha⟩, And.left⟩

/-- Whether an edge of the sender's list goes. -/
theorem retainListed_removed :
    (edges.retainListedEdges sender listed).2 = true ↔
      ∃ b e, edges.edge sender b = some e ∧ keepsEdge listed e = false := by
  unfold retainListedEdges
  cases hs : edges.findNode sender with
  | none =>
    constructor
    · intro h
      cases h
    · rintro ⟨b, e, he, -⟩
      obtain ⟨n, hn, -⟩ := edge_eq_some_iff.mp he
      rw [hs] at hn
      cases hn
  | some n =>
    dsimp only
    rw [List.any_eq_true]
    constructor
    · rintro ⟨e, he, hkeep⟩
      refine ⟨e.toNode, e, edge_eq_some_iff.mpr ⟨n, hs, ?_⟩, by simpa using hkeep⟩
      exact NodeEdges.findEdge_eq_some_iff.mpr ⟨he, rfl⟩
    · rintro ⟨b, e, he, hkeep⟩
      obtain ⟨m, hm, he⟩ := edge_eq_some_iff.mp he
      rw [hs, Option.some.injEq] at hm
      subst hm
      exact ⟨e, (NodeEdges.findEdge_eq_some_iff.mp he).1, by simpa using hkeep⟩

/-- Nothing for a list without ids to remove: no other node has a `hears_us`
edge to the sender, and every edge of the sender's own list was measured by us
or leads to a placeholder. -/
structure NothingUnlisted (edges : EdgeStore) (sender : UInt32) : Prop where
  flags : ∀ a e, a ≠ sender → edges.edge a sender = some e → e.hearsUs = false
  list : ∀ b e, edges.edge sender b = some e → keepsEdge [] e = true

theorem SameEdges.nothingUnlisted (h : SameEdges edges edges')
    (hn : NothingUnlisted edges sender) : NothingUnlisted edges' sender where
  flags a e ha he := hn.flags a e ha (by rw [← h a sender]; exact he)
  list b e he := hn.list b e (by rw [← h sender b]; exact he)

end

end EdgeStore

section

variable {Etx : Type} (F : F32 Etx) {g : NeighborGraph} {sender nowMs : UInt32}

open EdgeStore

/-- What the sweep leaves of an edge: at most the edge without its flag. -/
theorem sweep_edge {a b : UInt32} {e : Edge} {listed : List UInt32}
    (h : (g.sweepUnlisted F sender listed nowMs).edges.edge a b = some e) :
    ((g.edges.clearHearsUsToUnlisted sender listed).retainListedEdges sender listed).1.edge a b =
      some e := by
  unfold NeighborGraph.sweepUnlisted at h
  dsimp only at h
  cases hr : (g.edges.clearHearsUsToUnlisted sender listed).retainListedEdges sender listed with
  | mk edges removed =>
    rw [hr] at h
    cases removed with
    | false => exact h
    | true => exact loses_prune F _ _ _ a b e h

/-- The sweep by a list without ids keeps every edge and flag exactly if there
is nothing unlisted. -/
theorem sweep_same_iff :
    SameEdges g.edges (g.sweepUnlisted F sender [] nowMs).edges ↔
      NothingUnlisted g.edges sender := by
  constructor
  · intro h
    -- an edge that survives with its flag was not cleared, and was kept
    have hkept : ∀ a b e, g.edges.edge a b = some e →
        ((g.edges.clearHearsUsToUnlisted sender []).edge a b = some e ∧
          (a = sender → keepsEdge [] e = true)) := by
      intro a b e he
      rw [← edge_retainListed]
      exact sweep_edge F ((h a b).trans he)
    constructor
    · intro a e ha he
      have hcleared := (hkept a sender e he).1
      rw [edge_clearHearsUs, he, Option.map_some, Option.some.injEq] at hcleared
      cases hf : e.hearsUs with
      | false => rfl
      | true =>
        rw [if_pos ⟨ha, rfl, hf, rfl⟩] at hcleared
        rw [← hcleared] at hf
        cases hf
    · intro b e he
      exact (hkept sender b e he).2 rfl
  · intro h
    have hclear : SameEdges g.edges (g.edges.clearHearsUsToUnlisted sender []) := by
      intro a b
      rw [edge_clearHearsUs]
      cases he : g.edges.edge a b with
      | none => rfl
      | some e =>
        rw [Option.map_some, if_neg]
        rintro ⟨ha, rfl, hf, -⟩
        rw [h.flags a e ha he] at hf
        cases hf
    have hnothing := hclear.nothingUnlisted h
    have hretain : ((g.edges.clearHearsUsToUnlisted sender []).retainListedEdges sender []).2 =
        false := by
      rw [Bool.eq_false_iff, Ne, retainListed_removed]
      rintro ⟨b, e, he, hkeep⟩
      rw [hnothing.list b e he] at hkeep
      cases hkeep
    have hsame : SameEdges (g.edges.clearHearsUsToUnlisted sender [])
        ((g.edges.clearHearsUsToUnlisted sender []).retainListedEdges sender []).1 := by
      intro a b
      apply Option.ext
      intro e
      rw [edge_retainListed]
      constructor
      · exact And.left
      · intro he
        refine ⟨he, ?_⟩
        rintro rfl
        exact hnothing.list b e he
    have hedges : (g.sweepUnlisted F sender [] nowMs).edges =
        ((g.edges.clearHearsUsToUnlisted sender []).retainListedEdges sender []).1 := by
      unfold NeighborGraph.sweepUnlisted
      dsimp only
      cases hr : (g.edges.clearHearsUsToUnlisted sender []).retainListedEdges sender [] with
      | mk edges removed =>
        rw [hr] at hretain
        cases hretain
        rfl
    rw [hedges]
    exact hclear.trans hsame

end

/-! ## The stages before it -/

namespace EdgeStore

/-- The node that gives way to our own, where that is not stored and the store
is full. -/
def evictedForUs (edges : EdgeStore) (myNode nowMs : UInt32) : Option NodeEdges :=
  if (edges.findNode myNode).isSome || decide (edges.nodes.rows.length < MAX_GRAPH_NODES) then none
  else (edges.selectEvictionVictim myNode nowMs).bind fun i => edges.nodes.rows[i]?

theorem evictedForUs_mem {edges : EdgeStore} {myNode nowMs : UInt32} {n : NodeEdges}
    (h : edges.evictedForUs myNode nowMs = some n) : n ∈ edges.nodes.rows := by
  unfold evictedForUs at h
  split at h
  · cases h
  · obtain ⟨i, -, hi⟩ := Option.bind_eq_some_iff.mp h
    exact List.mem_of_getElem? hi

section

variable {Etx : Type} (F : F32 Etx) {edges edges' : EdgeStore} {myNode nowMs : UInt32}

/-- An eviction with no downstream table at hand removes the selected node. -/
theorem evict_findNode {ds : Option DownstreamTable}
    (h : edges.evictForCapacity F nowMs myNode none = some (edges', ds)) :
    ∃ i n, edges.selectEvictionVictim myNode nowMs = some i ∧ edges.nodes.rows[i]? = some n ∧
      ∀ a, edges'.findNode a = if a = n.nodeId then none else edges.findNode a := by
  unfold evictForCapacity at h
  cases hi : edges.selectEvictionVictim myNode nowMs with
  | none =>
    rw [hi] at h
    cases h
  | some i =>
    rw [hi] at h
    dsimp only at h
    cases hn : edges.nodes.rows[i]? with
    | none =>
      rw [hn] at h
      cases h
    | some n =>
      rw [hn] at h
      dsimp only at h
      refine ⟨i, n, rfl, hn, ?_⟩
      cases hp : edges.pickL1Parent n.nodeId myNode with
      | none =>
        rw [hp] at h
        cases h
        intro a
        exact findNode_removeNodeAt hn
      | some p =>
        rw [hp] at h
        cases h
        intro a
        exact findNode_removeNodeAt (by exact hn)

theorem evict_eq_none (h : edges.evictForCapacity F nowMs myNode none = none) :
    (edges.selectEvictionVictim myNode nowMs).bind (fun i => edges.nodes.rows[i]?) = none := by
  unfold evictForCapacity at h
  cases hi : edges.selectEvictionVictim myNode nowMs with
  | none => rfl
  | some i =>
    rw [hi] at h
    dsimp only at h
    cases hn : edges.nodes.rows[i]? with
    | none => exact hn
    | some n =>
      rw [hn] at h
      dsimp only at h
      cases hp : edges.pickL1Parent n.nodeId myNode <;> rw [hp] at h <;> cases h

/-- Our own node costs the edges of the node that gives way to it. -/
theorem edge_ensureLocalNode {a b : UInt32} :
    (edges.ensureLocalNode F myNode nowMs).edge a b =
      if ((edges.evictedForUs myNode nowMs).any fun n => a == n.nodeId) then none
      else edges.edge a b := by
  unfold ensureLocalNode evictedForUs findOrCreateNode
  cases hme : edges.findNode myNode with
  | some n => rfl
  | none =>
    simp only [Option.isNone_none, if_true, Option.isSome_none, Bool.false_or, Bool.false_eq_true,
      if_false, decide_eq_true_eq]
    by_cases hroom : edges.nodes.rows.length < MAX_GRAPH_NODES
    · simp only [hroom, if_true, Option.map_some, Option.getD_some, Option.any_none,
        Bool.false_eq_true, if_false]
      exact edge_pushNode_fresh
    · simp only [hroom, if_false]
      cases he : edges.evictForCapacity F nowMs myNode none with
      | none =>
        rw [evict_eq_none F he]
        rfl
      | some r =>
        obtain ⟨i, n, hi, hn, hfind⟩ := evict_findNode F he
        rw [hi, Option.bind_some, hn]
        simp only [Option.map_some, Option.getD_some, Option.any_some, beq_iff_eq]
        rw [edge_pushNode_fresh]
        unfold edge
        rw [hfind]
        split <;> rfl

theorem loses_ensureLocalNode : Loses edges (edges.ensureLocalNode F myNode nowMs) := by
  intro a b e he
  rw [edge_ensureLocalNode] at he
  split at he
  · cases he
  · exact he

theorem same_ensureLocalNode_iff :
    SameEdges edges (edges.ensureLocalNode F myNode nowMs) ↔
      ∀ n, edges.evictedForUs myNode nowMs = some n → n.edges.rows = [] := by
  constructor
  · intro h n hn
    rw [List.eq_nil_iff_forall_not_mem]
    intro e he
    have hfound : edges.edge n.nodeId e.toNode = some e :=
      edge_eq_some_iff.mpr ⟨n, findNode_eq_some_iff.mpr ⟨evictedForUs_mem hn, rfl⟩,
        NodeEdges.findEdge_eq_some_iff.mpr ⟨he, rfl⟩⟩
    have hgone := h n.nodeId e.toNode
    rw [edge_ensureLocalNode, hn, hfound] at hgone
    simp at hgone
  · intro h a b
    rw [edge_ensureLocalNode]
    split
    · rename_i hany
      obtain ⟨n, hn, ha⟩ := (Option.any_eq_true _ _).mp hany
      rw [beq_iff_eq] at ha
      subst ha
      -- the node that gave way is the one found by its id, and its list is empty
      have hfind := findNode_eq_some_iff.mpr ⟨evictedForUs_mem hn, rfl⟩
      unfold edge
      rw [hfind, Option.bind_some]
      show none = n.edges.rows.find? _
      rw [h n hn]
      rfl
    · rfl

/-- Admitting a node that is stored already touches no edge. -/
theorem same_ensurePublisher {nodeId parentHint : UInt32} {cls : NodeClass} {ds : DownstreamTable}
    (h : (edges.findNode nodeId).isSome) :
    SameEdges edges (edges.ensurePublisher F nodeId cls parentHint nowMs myNode ds).1 := by
  unfold ensurePublisher
  rw [if_pos h]
  split
  · exact .refl edges
  · split
    · exact .refl edges
    · exact (sameEdges_setNodeClass _ _ _).trans (sameEdges_touchNode _ _)

end

end EdgeStore

section

variable {Etx : Type} (F : F32 Etx) {g : NeighborGraph} {c : Call}

open EdgeStore

/-- A header-only list is complete, with no ids. -/
theorem reassemble_headerOnly {slots : Slots PENDING_LISTED_SLOTS PendingListed}
    (hempty : c.neighbors = []) (hcomplete : c.header.isCompleteList = true) :
    (reassemble slots c).2 = some [] := by
  unfold PackedHeader.isCompleteList at hcomplete
  simp only [Bool.and_eq_true, Bool.not_eq_true', beq_iff_eq] at hcomplete
  obtain ⟨⟨hmore, hcont⟩, hindex⟩ := hcomplete
  unfold reassemble fillSlot
  simp only [hcont, Bool.false_eq_true, if_false, hindex, beq_self_eq_true]
  rw [show (slots.set (pendingListedSlot slots c.sender)
      ⟨c.sender, c.received, true, .empty, 1⟩).cells[pendingListedSlot slots c.sender]? =
      some ⟨c.sender, c.received, true, .empty, 1⟩ from
    List.getElem?_set_self (pendingListedSlot_lt slots c.sender)]
  simp only [beq_self_eq_true, Bool.not_false, Bool.true_or, Bool.and_true, if_true, hmore, hempty,
    List.map_nil, List.foldl_nil]
  rfl

/-- Nothing before the sweep touches an edge. -/
theorem same_mergeListed (hempty : c.neighbors = []) :
    SameEdges g.edges (g.mergeListed F c).edges := by
  have hadmit : SameEdges g.edges (g.admitSender F c).edges := by
    unfold NeighborGraph.admitSender
    rw [hempty]
    simp only [List.any_nil, Bool.or_false, Bool.false_and, Bool.false_eq_true, if_false]
    generalize (if (g.edges.classifyCandidate c.sender g.myNode == NodeClass.unknown) = true then
      NodeClass.l2 else g.edges.classifyCandidate c.sender g.myNode) = cls
    by_cases hfound : (g.edges.findNode c.sender).isSome
    · rw [if_pos hfound]
      by_cases hdepth : (classWithinDepth cls && cls != NodeClass.unknown) = true
      · rw [if_pos hdepth]
        exact same_ensurePublisher F hfound
      · rw [if_neg hdepth]
        exact .refl g.edges
    · rw [if_neg hfound]
      exact .refl g.edges
  unfold NeighborGraph.mergeListed
  dsimp only
  rw [hempty, List.foldl_nil]
  refine SameEdges.trans ?_ (sameEdges_flush F _ _ _)
  split
  · exact .refl g.edges
  · exact hadmit

/-- What an accepted header-only list leaves of the edges: the store with our
own node in it, with or without a sweep. -/
theorem headerOnly_edges (hempty : c.neighbors = []) (hcomplete : c.header.isCompleteList = true)
    (haccepted : g.accepts c = true) :
    ∃ g' : NeighborGraph, SameEdges (g.edges.ensureLocalNode F g.myNode c.nowMs) g'.edges ∧
      (g.mergeTopology F c).1.edges =
        if c.received = 0 ∨ g.beyondHorizon F c = true then g'.edges
        else (g'.sweepUnlisted F c.sender [] c.nowMs).edges := by
  rw [NeighborGraph.mergeTopology_accepted g F haccepted]
  by_cases hhorizon : g.beyondHorizon F c = true
  · refine ⟨g.noteAccepted F c, .refl _, ?_⟩
    rw [if_pos hhorizon, if_pos (.inr hhorizon)]
  · have hboot : c.bootReset = decide (c.received = 0) := by
      unfold Call.bootReset
      rw [hempty, hcomplete, Bool.and_true, List.isEmpty_nil, Bool.true_and]
      rfl
    rw [if_neg hhorizon]
    refine ⟨{ (g.noteAccepted F c).mergeListed F c with
        pendingListed := (reassemble ((g.noteAccepted F c).mergeListed F c).pendingListed c).1 },
      same_mergeListed F hempty, ?_⟩
    unfold NeighborGraph.completeList
    dsimp only
    rw [reassemble_headerOnly hempty hcomplete]
    dsimp only
    rw [hboot]
    by_cases h0 : c.received = 0
    · rw [if_pos (by simpa using h0), if_pos (.inl h0)]
    · rw [if_neg (by simpa using h0), if_neg (by tauto)]

/-- A header-only list keeps every edge and flag exactly if no node with edges
gives way to our own and the sweep does not run, or has nothing to remove: the
list is a boot broadcast, or its sender is beyond the horizon of an active
node, or nothing unlisted is stored. -/
theorem empty_list_clears (hempty : c.neighbors = []) (hcomplete : c.header.isCompleteList = true)
    (haccepted : (g.mergeTopology F c).2.refused = false) :
    SameEdges g.edges (g.mergeTopology F c).1.edges ↔
      (∀ n, g.edges.evictedForUs g.myNode c.nowMs = some n → n.edges.rows = []) ∧
        (c.received = 0 ∨ g.beyondHorizon F c = true ∨ NothingUnlisted g.edges c.sender) := by
  rw [NeighborGraph.refused_eq, Bool.not_eq_false'] at haccepted
  obtain ⟨g', hsame, hedges⟩ := headerOnly_edges F hempty hcomplete haccepted
  rw [hedges, ← same_ensureLocalNode_iff F]
  by_cases hskip : c.received = 0 ∨ g.beyondHorizon F c = true
  · rw [if_pos hskip]
    constructor
    · intro h
      exact ⟨h.trans hsame.symm, by tauto⟩
    · rintro ⟨h, -⟩
      exact h.trans hsame
  · rw [if_neg hskip]
    constructor
    · intro h
      -- what the sweep kept was there before it, so our own node cost nothing
      have hlocal : SameEdges g.edges (g.edges.ensureLocalNode F g.myNode c.nowMs) := by
        intro a b
        apply Option.ext
        intro e
        refine ⟨loses_ensureLocalNode F a b e, ?_⟩
        intro he
        have hkept := (edge_retainListed.mp (sweep_edge F ((h a b).trans he))).1
        rw [edge_clearHearsUs, Option.map_eq_some_iff] at hkept
        obtain ⟨e', he', -⟩ := hkept
        rw [hsame a b] at he'
        rw [he', ← loses_ensureLocalNode F a b e' he', he]
      have hnothing := (sweep_same_iff F).mp ((hlocal.trans hsame).symm.trans h)
      exact ⟨hlocal, .inr (.inr ((hlocal.trans hsame).symm.nothingUnlisted hnothing))⟩
    · rintro ⟨hlocal, hcond⟩
      have hnothing : NothingUnlisted g.edges c.sender := by tauto
      have hg' := (hlocal.trans hsame).nothingUnlisted hnothing
      exact (hlocal.trans hsame).trans ((sweep_same_iff F).mpr hg')

end

/-- Node 1 has measured node 2 and holds its list of version 5, which names us. -/
def heardByTwo : NeighborGraph :=
  let g := NeighborGraph.new 1
  let g := { g with
    edges := (g.edges.updateEdge hundredths 1 1 2 105 500 .reported true 0).1 }
  (g.mergeTopology hundredths {
    sender := 2
    header := chunkHeader 5 true false false 0
    neighbors := [⟨1, -60, 10, true, true, 0⟩]
    isDirect := true
    nowMs := 1000
    heardOn := 0 }).1

theorem boot_broadcast_clears_nothing :
    EdgeStore.SameEdges heardByTwo.edges
      (heardByTwo.mergeTopology hundredths (headerOnly 0 true 3000)).1.edges := by
  refine (empty_list_clears hundredths rfl (by decide) (by decide +kernel)).mpr ⟨?_, .inl rfl⟩
  intro n hn
  have hnone : (heardByTwo.edges.evictedForUs heardByTwo.myNode 3000).isNone = true := by
    decide +kernel
  rw [show heardByTwo.edges.evictedForUs heardByTwo.myNode 3000 = some n from hn] at hnone
  cases hnone

/-- Under version 6 the same header clears the flag on our edge to node 2, and
removes the edge of its list. -/
theorem running_header_clears :
    (heardByTwo.mergeTopology hundredths (headerOnly 6 true 3000)).2 = .applied 0 6 ∧
      ((heardByTwo.edges.edge 1 2).map (·.hearsUs) = some true ∧
        (heardByTwo.edges.edge 2 1).isSome = true) ∧
      let edges := (heardByTwo.mergeTopology hundredths (headerOnly 6 true 3000)).1.edges
      (edges.edge 1 2).map (·.hearsUs) = some false ∧ (edges.edge 2 1).isSome = false := by
  decide +kernel

end Meshrustic.Topology
