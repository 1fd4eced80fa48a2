import Meshrustic.Topology.Arrays
import Meshrustic.Core.LTS

/-!
# The representation invariant of the edge store (`mesh-routing/src/graph/edge.rs`)

`EdgeRows.Inv` says what every lookup relies on: ids are distinct and nonzero,
both kinds of array keep their bounds, and a list has one edge for each target
and none to node 0 or to its owner. The code never checks any of it when it
writes. `Kept` is what a step leaves in place, the invariant and our own node;
each operation is `Kept` because the writes it is made of are.

Results:
* `..._kept`: one for each operation;
* `evictForCapacity_spares`: an eviction spares us and every L1 node;
* `representation_invariant`: the invariant over whole runs.
-/
namespace Meshrustic.Topology

open Meshrustic.Graph Meshrustic.Relay

/-! ## Lists -/

section Lists

variable {α β : Type} {p : α → Bool} {f : α → α} {xs : List α}

theorem length_modifyFirst : (modifyFirst p f xs).length = xs.length := by
  induction xs with
  | nil => rfl
  | cons x xs ih =>
    rw [modifyFirst]
    split
    · rfl
    · rw [List.length_cons, ih, List.length_cons]

theorem map_modifyFirst {key : α → β} (h : ∀ x, p x = true → key (f x) = key x) :
    (modifyFirst p f xs).map key = xs.map key := by
  induction xs with
  | nil => rfl
  | cons x xs ih =>
    rw [modifyFirst]
    split
    · rename_i hx
      rw [List.map_cons, h x hx, List.map_cons]
    · rw [List.map_cons, ih, List.map_cons]

theorem mem_modifyFirst {y : α} (h : y ∈ modifyFirst p f xs) :
    y ∈ xs ∨ ∃ x ∈ xs, p x = true ∧ y = f x := by
  induction xs with
  | nil => cases h
  | cons x xs ih =>
    rw [modifyFirst] at h
    split at h
    · rename_i hx
      rcases List.mem_cons.mp h with rfl | h
      · exact .inr ⟨x, List.mem_cons_self, hx, rfl⟩
      · exact .inl (List.mem_cons_of_mem _ h)
    · rcases List.mem_cons.mp h with rfl | h
      · exact .inl List.mem_cons_self
      · rcases ih h with h | ⟨x', hx', hp, hy⟩
        · exact .inl (List.mem_cons_of_mem _ h)
        · exact .inr ⟨x', List.mem_cons_of_mem _ hx', hp, hy⟩

theorem swapRemove_perm {i : Nat} (hi : i < xs.length) : (swapRemove xs i).Perm (xs.eraseIdx i) :=
  Table.swapRemove_perm ⟨xs, Nat.le_refl _⟩ hi

end Lists

/-! ## One node -/

/-- The list of one node is well formed. -/
structure NodeRow.Ok (n : NodeRow) : Prop where
  nonzero : n.nodeId ≠ 0
  count : n.edges.length ≤ MAX_EDGES_PER_NODE
  nodup : (n.edges.map (·.toNode)).Nodup
  targets : ∀ e ∈ n.edges, e.toNode ≠ 0 ∧ e.toNode ≠ n.nodeId

namespace NodeRow

variable {n : NodeRow}

theorem ok_fresh {nodeId nowMs : UInt32} {cls : NodeClass} {parentHint : UInt32} (h : nodeId ≠ 0) :
    (fresh nodeId nowMs cls parentHint).Ok where
  nonzero := h
  count := Nat.zero_le _
  nodup := List.nodup_nil
  targets _ he := absurd he List.not_mem_nil

/-- The edges of a node, in place of its old ones. -/
theorem Ok.withEdges (h : n.Ok) {edges : List Edge} (hcount : edges.length ≤ MAX_EDGES_PER_NODE)
    (hnodup : (edges.map (·.toNode)).Nodup)
    (htargets : ∀ e ∈ edges, e.toNode ≠ 0 ∧ e.toNode ≠ n.nodeId) : Ok { n with edges } where
  nonzero := h.nonzero
  count := hcount
  nodup := hnodup
  targets := htargets

theorem Ok.filter (h : n.Ok) (p : Edge → Bool) : Ok { n with edges := n.edges.filter p } :=
  h.withEdges (Nat.le_trans (List.length_filter_le _ _) h.count)
    (h.nodup.sublist (List.filter_sublist.map _))
    fun e he => h.targets e (List.mem_filter.mp he).1

/-- Edges that keep their targets. -/
theorem Ok.sameTargets (h : n.Ok) {edges : List Edge}
    (hkeys : edges.map (·.toNode) = n.edges.map (·.toNode)) : Ok { n with edges } := by
  refine h.withEdges ?_ (hkeys ▸ h.nodup) fun e he => ?_
  · have hlen := congrArg List.length hkeys
    rw [List.length_map, List.length_map] at hlen
    exact hlen ▸ h.count
  · have hmem : e.toNode ∈ n.edges.map (·.toNode) := hkeys ▸ List.mem_map_of_mem he
    obtain ⟨e', he', heq⟩ := List.mem_map.mp hmem
    exact heq ▸ h.targets e' he'

theorem not_mem_of_findEdge {b : UInt32} (h : n.findEdge b = none) :
    b ∉ n.edges.map (·.toNode) := lookup_eq_none (fun e : Edge => e.toNode) h

/-- The list takes an edge to another node. -/
theorem Ok.writeEdge {Etx : Type} (F : F32 Etx) (h : n.Ok) {b : UInt32} (hb : b ≠ 0)
    (hne : b ≠ n.nodeId) (etx : Etx) (nowMs : UInt32) (source : EdgeSource) (updateTimestamp : Bool)
    (heardOn : UInt8) :
    (EdgeRows.writeEdge F n b etx nowMs source updateTimestamp heardOn).1.Ok := by
  unfold EdgeRows.writeEdge
  generalize hm : (if updateTimestamp then { n with lastFullUpdateMs := nowMs } else n) = m
  have hm' : m.Ok ∧ m.nodeId = n.nodeId := by
    rw [← hm]
    split
    · exact ⟨⟨h.nonzero, h.count, h.nodup, h.targets⟩, rfl⟩
    · exact ⟨h, rfl⟩
  obtain ⟨hok, hid⟩ := hm'
  dsimp only
  cases hf : m.findEdge b with
  | some e =>
    dsimp only
    split
    · exact hok
    · exact hok.sameTargets (map_modifyFirst fun _ _ => rfl)
  | none =>
    have habsent := not_mem_of_findEdge hf
    have hnew : b ≠ 0 ∧ b ≠ m.nodeId := ⟨hb, hid ▸ hne⟩
    dsimp only
    split
    · rename_i hroom
      refine hok.withEdges ?_ ?_ ?_
      · rw [List.length_append, List.length_singleton]
        exact hroom
      · rw [List.map_append]
        refine List.nodup_append.mpr ⟨hok.nodup, List.nodup_singleton _, ?_⟩
        intro a ha c hc hac
        rw [List.map_singleton, List.mem_singleton] at hc
        rw [hac.trans hc] at ha
        exact habsent ha
      · intro e he
        rcases List.mem_append.mp he with he | he
        · exact hok.targets e he
        · rw [List.mem_singleton.mp he]
          exact hnew
    · split
      · exact hok
      · split
        · exact hok
        · refine hok.withEdges ?_ ?_ ?_
          · rw [List.length_set]
            exact hok.count
          · rw [List.map_set]
            exact List.Nodup.set hok.nodup habsent
          · intro e he
            rcases List.mem_or_eq_of_mem_set he with he | rfl
            · exact hok.targets e he
            · exact hnew

theorem writeEdge_nodeId {Etx : Type} (F : F32 Etx) (b : UInt32) (etx : Etx) (nowMs : UInt32)
    (source : EdgeSource) (updateTimestamp : Bool) (heardOn : UInt8) :
    (EdgeRows.writeEdge F n b etx nowMs source updateTimestamp heardOn).1.nodeId = n.nodeId := by
  unfold EdgeRows.writeEdge
  cases updateTimestamp <;> dsimp only <;> repeat' split
  all_goals rfl

end NodeRow

namespace EdgeRows

/-- What every lookup relies on. -/
structure Inv (s : EdgeRows) : Prop where
  nodup : s.ids.Nodup
  count : s.nodes.length ≤ MAX_GRAPH_NODES
  rows : ∀ n ∈ s.nodes, n.Ok

/-- The step keeps the invariant, and our own node. -/
def Kept (me : UInt32) (s t : EdgeRows) : Prop := s.Inv → t.Inv ∧ (me ∈ s.ids → me ∈ t.ids)

section

variable {me : UInt32} {s t u : EdgeRows}

theorem Kept.refl (s : EdgeRows) : Kept me s s := fun h => ⟨h, id⟩

theorem Kept.trans (h : Kept me s t) (h' : Kept me t u) : Kept me s u := by
  intro hs
  obtain ⟨ht, hmine⟩ := h hs
  obtain ⟨hu, hmine'⟩ := h' ht
  exact ⟨hu, fun hm => hmine' (hmine hm)⟩

/-- The invariant is about the nodes, whatever demotion is parked. -/
theorem Kept.of_nodes (h : t.nodes = s.nodes) : Kept me s t := by
  have hids : t.ids = s.ids := congrArg (List.map fun n : NodeRow => n.nodeId) h
  exact fun hs => ⟨⟨hids ▸ hs.nodup, h ▸ hs.count, h ▸ hs.rows⟩, fun hm => hids ▸ hm⟩

theorem findNode_some {a : UInt32} {n : NodeRow} (h : s.findNode a = some n) :
    n ∈ s.nodes ∧ n.nodeId = a :=
  ⟨List.mem_of_find?_eq_some h, lookup_key (fun n : NodeRow => n.nodeId) h⟩

theorem findNode_none {a : UInt32} (h : s.findNode a = none) : a ∉ s.ids :=
  lookup_eq_none (fun n : NodeRow => n.nodeId) h

/-! ### The writes -/

theorem mapNodes_kept {f : NodeRow → NodeRow} (hid : ∀ n, (f n).nodeId = n.nodeId)
    (hok : ∀ n, n.Ok → (f n).Ok) : Kept me s { s with nodes := s.nodes.map f } := by
  have hids : ids { s with nodes := s.nodes.map f } = s.ids := by
    change (s.nodes.map f).map (·.nodeId) = _
    rw [List.map_map]
    exact List.map_congr_left fun n _ => hid n
  refine fun h => ⟨⟨?_, ?_, ?_⟩, fun hm => hids.symm ▸ hm⟩
  · exact hids.symm ▸ h.nodup
  · rw [List.length_map]
    exact h.count
  · intro m hm
    obtain ⟨n, hn, rfl⟩ := List.mem_map.mp hm
    exact hok n (h.rows n hn)

theorem modifyNode_kept {a : UInt32} {f : NodeRow → NodeRow} (hid : ∀ n, (f n).nodeId = n.nodeId)
    (hok : ∀ n, n.Ok → n.nodeId = a → (f n).Ok) : Kept me s (s.modifyNode a f) := by
  have hids : (s.modifyNode a f).ids = s.ids := map_modifyFirst fun n _ => hid n
  refine fun h => ⟨⟨?_, ?_, ?_⟩, fun hm => hids.symm ▸ hm⟩
  · exact hids.symm ▸ h.nodup
  · change (modifyFirst _ _ _).length ≤ _
    rw [length_modifyFirst]
    exact h.count
  · intro m hm
    rcases mem_modifyFirst hm with hm | ⟨n, hn, hp, rfl⟩
    · exact h.rows m hm
    · exact hok n (h.rows n hn) (by simpa using hp)

/-- A node is appended: the code has looked for its id, and for room. -/
theorem pushNode_kept {n : NodeRow} (habsent : n.nodeId ∉ s.ids)
    (hroom : s.nodes.length < MAX_GRAPH_NODES) (hok : n.Ok) : Kept me s (s.pushNode n) := by
  have hids : (s.pushNode n).ids = s.ids ++ [n.nodeId] := List.map_append
  refine fun h => ⟨⟨?_, ?_, ?_⟩, fun hm => ?_⟩
  · rw [hids]
    refine List.nodup_append.mpr ⟨h.nodup, List.nodup_singleton _, ?_⟩
    intro a ha b hb hab
    rw [hab.trans (List.mem_singleton.mp hb)] at ha
    exact habsent ha
  · change (s.nodes ++ [n]).length ≤ _
    rw [List.length_append, List.length_singleton]
    exact hroom
  · intro m hm
    rcases List.mem_append.mp hm with hm | hm
    · exact h.rows m hm
    · rw [List.mem_singleton.mp hm]
      exact hok
  · rw [hids]
    exact List.mem_append_left _ hm

/-- What moving the last node into gap `i` leaves. -/
theorem removeNodeAt_perm {i : Nat} {v : NodeRow} (hv : s.nodes[i]? = some v) :
    (v :: (s.removeNodeAt i).nodes).Perm s.nodes := by
  obtain ⟨hi, hget⟩ := List.getElem?_eq_some_iff.mp hv
  have hperm : (s.removeNodeAt i).nodes.Perm (s.nodes.eraseIdx i) := swapRemove_perm hi
  rw [← hget]
  exact (hperm.cons _).trans (List.getElem_cons_eraseIdx_perm hi)

theorem removeNodeAt_inv {i : Nat} {v : NodeRow} (hv : s.nodes[i]? = some v) (h : s.Inv) :
    (s.removeNodeAt i).Inv := by
  have hperm := removeNodeAt_perm hv
  refine ⟨?_, ?_, fun n hn => h.rows n (hperm.mem_iff.mp (List.mem_cons_of_mem _ hn))⟩
  · have hnodup := (hperm.map fun n : NodeRow => n.nodeId).nodup_iff.mpr h.nodup
    rw [List.map_cons, List.nodup_cons] at hnodup
    exact hnodup.2
  · have hlen := hperm.length_eq
    have hcount := h.count
    rw [List.length_cons] at hlen
    omega

/-- The other nodes stay. -/
theorem mem_removeNodeAt {i : Nat} {v n : NodeRow} (hv : s.nodes[i]? = some v) (hn : n ∈ s.nodes)
    (hne : n ≠ v) : n ∈ (s.removeNodeAt i).nodes := by
  rcases List.mem_cons.mp ((removeNodeAt_perm hv).mem_iff.mpr hn) with rfl | hn
  · exact absurd rfl hne
  · exact hn

/-- A node goes that is not ours. -/
theorem removeNodeAt_kept {i : Nat} {v : NodeRow} (hv : s.nodes[i]? = some v) (hne : v.nodeId ≠ me) :
    Kept me s (s.removeNodeAt i) := by
  refine fun h => ⟨removeNodeAt_inv hv h, fun hm => ?_⟩
  obtain ⟨n, hn, rfl⟩ := List.mem_map.mp hm
  exact List.mem_map.mpr ⟨n, mem_removeNodeAt hv hn fun heq => hne (heq ▸ rfl), rfl⟩

end

/-! ## Eviction -/

section

variable {Etx : Type} {F : F32 Etx} {s : EdgeRows} {me nowMs : UInt32}

/-- The scan only remembers nodes that are neither ours nor L1. -/
theorem selectEvictionVictim_spec {i : Nat} (h : s.selectEvictionVictim me nowMs = some i) :
    ∃ v, s.nodes[i]? = some v ∧ v.nodeId ≠ me ∧ v.cls ≠ .l1 := by
  unfold selectEvictionVictim at h
  rw [Option.map_eq_some_iff] at h
  obtain ⟨best, hbest, rfl⟩ := h
  refine scan_some (P := fun b => ∃ v, s.nodes[b.idx]? = some v ∧ v.nodeId ≠ me ∧ v.cls ≠ .l1)
    ?_ (fun b hb => by cases hb) hbest
  intro acc row hrow b hb
  have hmem := List.mem_zipIdx hrow
  have hat : s.nodes[row.2]? = some row.1 := by
    rw [List.getElem?_eq_getElem (by omega)]
    simp [hmem.2.2]
  split at hb
  · exact .inl hb
  · rename_i hid
    split at hb
    · exact .inl hb
    · rename_i hcls
      dsimp only at hb
      split at hb
      · cases hb
        exact .inr ⟨row.1, hat, by simpa using hid, by simpa using hcls⟩
      · exact .inl hb

/-- An eviction removes one node, neither ours nor L1. -/
theorem evictForCapacity_spec {ds : Option DownstreamTable} {r : EdgeRows × Option DownstreamTable}
    (h : s.evictForCapacity F nowMs me ds = some r) :
    ∃ i v, s.nodes[i]? = some v ∧ v.nodeId ≠ me ∧ v.cls ≠ .l1 ∧
      r.1.nodes = (s.removeNodeAt i).nodes := by
  unfold evictForCapacity at h
  cases hi : s.selectEvictionVictim me nowMs with
  | none => rw [hi] at h; cases h
  | some i =>
    obtain ⟨v, hv, hid, hcls⟩ := selectEvictionVictim_spec hi
    rw [hi] at h
    dsimp only at h
    rw [hv] at h
    dsimp only at h
    refine ⟨i, v, hv, hid, hcls, ?_⟩
    split at h <;> cases h <;> rfl

/-- An eviction spares us and every L1 node. -/
theorem evictForCapacity_spares {ds : Option DownstreamTable} {r : EdgeRows × Option DownstreamTable}
    (h : s.evictForCapacity F nowMs me ds = some r) {n : NodeRow} (hn : n ∈ s.nodes)
    (hspared : n.nodeId = me ∨ n.cls = .l1) : n ∈ r.1.nodes := by
  obtain ⟨i, v, hv, hid, hcls, hnodes⟩ := evictForCapacity_spec h
  rw [hnodes]
  refine mem_removeNodeAt hv hn fun heq => ?_
  subst heq
  exact hspared.elim hid hcls

theorem evictForCapacity_kept {ds : Option DownstreamTable} {r : EdgeRows × Option DownstreamTable}
    (h : s.evictForCapacity F nowMs me ds = some r) : Kept me s r.1 := by
  obtain ⟨i, v, hv, hid, -, hnodes⟩ := evictForCapacity_spec h
  exact (removeNodeAt_kept hv hid).trans (.of_nodes hnodes)

/-- It makes room for a node that is not there. -/
theorem evictForCapacity_room {ds : Option DownstreamTable} {r : EdgeRows × Option DownstreamTable}
    (h : s.evictForCapacity F nowMs me ds = some r) (hcount : s.nodes.length ≤ MAX_GRAPH_NODES)
    {a : UInt32} (ha : a ∉ s.ids) : r.1.nodes.length < MAX_GRAPH_NODES ∧ a ∉ r.1.ids := by
  obtain ⟨i, v, hv, -, -, hnodes⟩ := evictForCapacity_spec h
  have hperm := removeNodeAt_perm hv
  have hlen := hperm.length_eq
  rw [List.length_cons] at hlen
  refine ⟨by rw [hnodes]; omega, fun hmem => ha ?_⟩
  change a ∈ r.1.nodes.map (·.nodeId) at hmem
  rw [hnodes] at hmem
  obtain ⟨n, hn, rfl⟩ := List.mem_map.mp hmem
  exact List.mem_map.mpr ⟨n, hperm.mem_iff.mp (List.mem_cons_of_mem _ hn), rfl⟩

theorem findOrCreateNode_kept {a : UInt32} {t : EdgeRows} (ha : a ≠ 0)
    (h : s.findOrCreateNode F a nowMs me = some t) : Kept me s t := by
  unfold findOrCreateNode at h
  split at h
  · cases h
    exact .refl s
  · rename_i hfind
    have habsent : a ∉ s.ids := findNode_none (Option.not_isSome_iff_eq_none.mp hfind)
    simp only [Option.map_eq_some_iff] at h
    obtain ⟨r, hr, rfl⟩ := h
    split at hr
    · rename_i hroom
      cases hr
      exact pushNode_kept habsent hroom (NodeRow.ok_fresh ha)
    · obtain ⟨q, hq, rfl⟩ := Option.map_eq_some_iff.mp hr
      intro hs
      obtain ⟨hroom, habsent'⟩ := evictForCapacity_room hq hs.count habsent
      exact ((evictForCapacity_kept hq).trans
        (pushNode_kept habsent' hroom (NodeRow.ok_fresh ha))) hs

theorem findOrCreateNode_getD_kept {a : UInt32} (ha : a ≠ 0) :
    Kept me s ((s.findOrCreateNode F a nowMs me).getD s) := by
  cases h : s.findOrCreateNode F a nowMs me with
  | none => exact .refl s
  | some t => exact findOrCreateNode_kept ha h

theorem ensureLocalNode_kept (hme : me ≠ 0) : Kept me s (s.ensureLocalNode F me nowMs) := by
  unfold ensureLocalNode
  split
  · exact findOrCreateNode_getD_kept hme
  · exact .refl s

end

/-! ## Single writes -/

section

variable {s : EdgeRows} {me a b nowMs : UInt32}

theorem setNodeClass_kept (cls : NodeClass) (parentHint : UInt32) :
    Kept me s (s.setNodeClass a cls parentHint) := by
  refine modifyNode_kept (fun n => ?_) fun n hn _ => ?_
  · dsimp only
    split <;> split <;> rfl
  · dsimp only
    split <;> split <;> exact ⟨hn.nonzero, hn.count, hn.nodup, hn.targets⟩

theorem setL1_kept : Kept me s (s.setL1 a) :=
  modifyNode_kept (fun _ => rfl) fun _ hn _ => ⟨hn.nonzero, hn.count, hn.nodup, hn.targets⟩

theorem touchNode_kept : Kept me s (s.touchNode a nowMs) :=
  modifyNode_kept (fun _ => rfl) fun _ hn _ => ⟨hn.nonzero, hn.count, hn.nodup, hn.targets⟩

theorem updateNodeActivity_kept : Kept me s (s.updateNodeActivity a nowMs me).1 := by
  unfold updateNodeActivity
  split
  · exact .refl s
  · exact touchNode_kept

theorem modifyEdge_kept (f : Edge → Edge) : Kept me s (s.modifyEdge a b f) :=
  modifyNode_kept (fun _ => rfl) fun _ hn _ => hn.sameTargets (map_modifyFirst fun _ _ => rfl)

theorem retainListedEdges_kept (sender : UInt32) (listed : List UInt32) :
    Kept me s (s.retainListedEdges sender listed).1 := by
  unfold retainListedEdges
  split
  · exact .refl s
  · exact modifyNode_kept (fun _ => rfl) fun _ hn _ => hn.filter _

theorem clearHearsUsToUnlisted_kept (sender : UInt32) (listed : List UInt32) :
    Kept me s (s.clearHearsUsToUnlisted sender listed) := by
  refine mapNodes_kept (fun n => ?_) fun n hn => ?_
  · split <;> rfl
  · split
    · exact hn
    · refine hn.sameTargets ?_
      rw [List.map_map]
      refine List.map_congr_left fun e _ => ?_
      change Edge.toNode (if _ then _ else _) = e.toNode
      split <;> rfl

theorem removeEdgesTo_kept (target : UInt32) : Kept me s (s.removeEdgesTo target) :=
  mapNodes_kept (fun _ => rfl) fun _ hn => hn.filter _

theorem removeEdge_kept : Kept me s (s.removeEdge a b).1 := by
  unfold removeEdge
  split
  · exact .refl s
  · exact modifyNode_kept (fun _ => rfl) fun _ hn _ => hn.filter _

/-- The node that `remove_node` takes out. -/
theorem findIdx_node {i : Nat} (h : s.nodes.findIdx? (fun n => n.nodeId == a) = some i) :
    ∃ v, s.nodes[i]? = some v ∧ v.nodeId = a := by
  have hlookup := findIdx_lookup (fun n : NodeRow => n.nodeId) h
  obtain ⟨hi, hv, -⟩ := List.findIdx?_eq_some_iff_getElem.mp h
  exact ⟨s.nodes[i], List.getElem?_eq_getElem hi, by simpa using hv⟩

theorem removeNode_inv (h : s.Inv) : (s.removeNode a).1.Inv := by
  have hedges : (s.removeEdgesTo a).Inv := (@removeEdgesTo_kept s a a h).1
  unfold removeNode
  split
  · exact h
  · dsimp only
    split
    · exact hedges
    · rename_i i hi
      obtain ⟨v, hv, -⟩ := findIdx_node hi
      exact removeNodeAt_inv hv hedges

theorem removeNode_kept (hne : a ≠ me) : Kept me s (s.removeNode a).1 := by
  unfold removeNode
  split
  · exact .refl s
  · dsimp only
    split
    · exact removeEdgesTo_kept a
    · rename_i i hi
      obtain ⟨v, hv, rfl⟩ := findIdx_node hi
      exact (removeEdgesTo_kept _).trans (removeNodeAt_kept hv hne)

end

/-! ## The operations -/

section

variable {Etx : Type} {F : F32 Etx} {s : EdgeRows} {me a b nowMs : UInt32}

theorem flushPendingDemotion_kept (ds : DownstreamTable) :
    Kept me s (s.flushPendingDemotion F me nowMs ds).1 := by
  unfold flushPendingDemotion
  split
  · exact .refl s
  · exact .of_nodes rfl

theorem demoteForCapacity_kept (ds : DownstreamTable) :
    Kept me s (s.demoteForCapacity F nowMs me ds).1 := by
  unfold demoteForCapacity
  split
  · rename_i h
    exact evictForCapacity_kept h
  · exact .refl s

theorem ensurePublisher_kept (cls : NodeClass) (parentHint : UInt32) (ds : DownstreamTable) :
    Kept me s (s.ensurePublisher F a cls parentHint nowMs me ds).1 := by
  unfold ensurePublisher
  split
  · exact .refl s
  rename_i hids
  have ha : a ≠ 0 := fun h => hids (by simp [h])
  split
  · exact .refl s
  split
  · exact (setNodeClass_kept cls parentHint).trans touchNode_kept
  rename_i hfind
  have habsent : a ∉ s.ids := findNode_none (Option.not_isSome_iff_eq_none.mp hfind)
  dsimp only
  split
  · exact .refl s
  · rename_i t ds' hroom
    split at hroom
    · rename_i hroom'
      cases hroom
      exact pushNode_kept habsent hroom' (NodeRow.ok_fresh ha)
    · split at hroom
      · rename_i hevict
        cases hroom
        intro hs
        obtain ⟨hroom', habsent'⟩ := evictForCapacity_room hevict hs.count habsent
        exact ((evictForCapacity_kept hevict).trans
          (pushNode_kept habsent' hroom' (NodeRow.ok_fresh ha))) hs
      · cases hroom

theorem admitOwner_kept {t : EdgeRows} (ha : a ≠ 0) (h : s.admitOwner F a nowMs me = some t) :
    Kept me s t := by
  unfold admitOwner at h
  split at h
  · cases h
    exact .refl s
  split at h
  · cases h
    exact findOrCreateNode_getD_kept ha
  split at h
  · cases h
  split at h
  · cases h
    exact .refl s
  · cases h

theorem classifyEnds_kept (hb : b ≠ 0) (source : EdgeSource) :
    Kept me s (s.classifyEnds F me a b nowMs source) := by
  unfold classifyEnds
  split
  · dsimp only
    split
    · exact (findOrCreateNode_getD_kept hb).trans setL1_kept
    · exact findOrCreateNode_getD_kept hb
  · dsimp only
    split
    · exact setNodeClass_kept _ _
    · exact .refl s

theorem updateEdge_kept (etx : Etx) (source : EdgeSource) (updateTimestamp : Bool)
    (heardOn : UInt8) :
    Kept me s (s.updateEdge F me a b etx nowMs source updateTimestamp heardOn).1 := by
  unfold updateEdge
  split
  · exact .refl s
  rename_i hends
  have hb : b ≠ 0 := fun h => hends (by simp [h])
  have ha : a ≠ 0 := fun h => hends (by simp [h])
  have hab : a ≠ b := fun h => hends (by simp [h])
  split
  · exact .refl s
  rename_i s₁ h₁
  split
  · exact admitOwner_kept ha h₁
  rename_i s₂ h₂
  have hclassified : Kept me s (s₂.classifyEnds F me a b nowMs source) :=
    ((admitOwner_kept ha h₁).trans (findOrCreateNode_kept ha h₂)).trans (classifyEnds_kept hb source)
  dsimp only
  split
  · exact hclassified
  · rename_i n hn
    obtain ⟨hmem, hid⟩ := findNode_some hn
    refine hclassified.trans (modifyNode_kept (fun m => NodeRow.writeEdge_nodeId F ..) fun m hm hma => ?_)
    exact hm.writeEdge F hb (hma ▸ Ne.symm hab) etx nowMs source updateTimestamp heardOn

theorem dropVictim_kept {st : EdgeRows × DownstreamTable × Bool} (hne : a ≠ me) :
    Kept me st.1 (dropVictim F me nowMs st a).1 := by
  unfold dropVictim
  cases st.1.pickL1Parent a me with
  | none => exact removeNode_kept hne
  | some p =>
    have hdemoted : Kept me st.1 (st.1.applyDemotion F me ⟨a, p.1, p.2⟩ nowMs st.2.1).1 :=
      .of_nodes rfl
    exact hdemoted.trans (removeNode_kept hne)

/-- Any number of victims that are not ours. -/
theorem dropVictims_kept {victims : List UInt32} (hne : ∀ v ∈ victims, v ≠ me)
    (st : EdgeRows × DownstreamTable × Bool) :
    Kept me st.1 (victims.foldl (dropVictim F me nowMs) st).1 := by
  induction victims generalizing st with
  | nil => exact .refl st.1
  | cons v victims ih =>
    rw [List.foldl_cons]
    exact (dropVictim_kept (hne v List.mem_cons_self)).trans
      (ih (fun v hv => hne v (List.mem_cons_of_mem _ hv)) _)

theorem pruneUnreachableFromRoot_kept (ds : DownstreamTable) :
    Kept me s (s.pruneUnreachableFromRoot F me nowMs ds).1 := by
  unfold pruneUnreachableFromRoot
  split
  · exact .refl s
  · refine dropVictims_kept (fun v hv => ?_) (s, ds, false)
    have hdoomed := (List.mem_filter.mp hv).2
    simp only [Bool.and_eq_true, bne_iff_ne] at hdoomed
    exact hdoomed.2

theorem removeEdgeAndPrune_kept (ds : DownstreamTable) :
    Kept me s (s.removeEdgeAndPrune F a b me nowMs ds).1 := by
  unfold removeEdgeAndPrune
  have hremove : Kept me s (s.removeEdge a b).1 := removeEdge_kept
  split
  · exact .refl s
  · rename_i t ht
    rw [ht] at hremove
    exact hremove.trans (pruneUnreachableFromRoot_kept ds)

theorem ageEdges_kept (ttlMs : UInt32) (downstream : Option DownstreamTable) :
    Kept me s (s.ageEdges F me nowMs ttlMs downstream).1 := by
  have hold : Kept me s (s.dropOldEdges nowMs ttlMs).1 :=
    mapNodes_kept (fun _ => rfl) fun _ hn => hn.filter _
  have hvictims : ∀ t : EdgeRows, ∀ v ∈ (t.nodes.filter (t.ages me nowMs ttlMs)).map (·.nodeId),
      v ≠ me := by
    intro t v hv
    obtain ⟨n, hn, rfl⟩ := List.mem_map.mp hv
    have hages := (List.mem_filter.mp hn).2
    simp only [ages, Bool.and_eq_true, bne_iff_ne] at hages
    exact hages.1.1
  unfold ageEdges
  generalize s.dropOldEdges nowMs ttlMs = old at hold
  obtain ⟨t, changed⟩ := old
  dsimp only at hold ⊢
  generalize hv : (t.nodes.filter (t.ages me nowMs ttlMs)).map (·.nodeId) = victims
  have hne := hvictims t
  rw [hv] at hne
  cases downstream with
  | none =>
    refine hold.trans ?_
    dsimp only
    clear hv hold
    induction victims generalizing t changed with
    | nil => exact .refl t
    | cons v victims ih =>
      rw [List.foldl_cons]
      exact (removeNode_kept (hne v List.mem_cons_self)).trans
        (ih _ _ fun v hv => hne v (List.mem_cons_of_mem _ hv))
  | some ds =>
    have hdrop : Kept me t (victims.foldl (dropVictim F me nowMs) (t, ds, changed)).1 :=
      dropVictims_kept hne (t, ds, changed)
    dsimp only
    split
    · exact (hold.trans hdrop).trans (pruneUnreachableFromRoot_kept _)
    · exact hold.trans hdrop

end

/-! ## Runs -/

/-- The operations that write the store, with the downstream table at hand. What
the callers write through `find_edge_mut` is `modifyEdge`. -/
inductive StoreOp (Etx : Type) where
  | clear
  | takePendingDemotion
  | setNodeClass (nodeId : UInt32) (cls : NodeClass) (parentHint : UInt32)
  | setL1 (nodeId : UInt32)
  | modifyEdge (a b : UInt32) (f : Edge → Edge)
  | setEdgeHearsUs (a b : UInt32) (hearsUs : Bool)
  | retainListedEdges (sender : UInt32) (listed : List UInt32)
  | clearHearsUsToUnlisted (sender : UInt32) (listed : List UInt32)
  | removeEdgesTo (target : UInt32)
  | removeEdge (a b : UInt32)
  | removeNode (nodeId : UInt32)
  | updateNodeActivity (nodeId nowMs : UInt32)
  | ensureLocalNode (nowMs : UInt32)
  | ensurePublisher (nodeId : UInt32) (cls : NodeClass) (parentHint nowMs : UInt32)
      (ds : DownstreamTable)
  | flushPendingDemotion (nowMs : UInt32) (ds : DownstreamTable)
  | demoteForCapacity (nowMs : UInt32) (ds : DownstreamTable)
  | updateEdge (a b : UInt32) (etx : Etx) (nowMs : UInt32) (source : EdgeSource)
      (updateTimestamp : Bool) (heardOn : UInt8)
  | updateEdgeFromObservation (a b : UInt32) (rssi : Int16) (snr : Int8) (nowMs : UInt32) (source : EdgeSource)
      (heardOn modemPreset : UInt8)
  | pruneUnreachableFromRoot (nowMs : UInt32) (ds : DownstreamTable)
  | removeEdgeAndPrune (a b nowMs : UInt32) (ds : DownstreamTable)
  | ageEdges (nowMs ttlMs : UInt32) (downstream : Option DownstreamTable)

/-- The two operations that are told to remove our own node. -/
def StoreOp.dropsNode {Etx : Type} (me : UInt32) : StoreOp Etx → Bool
  | .clear => true
  | .removeNode nodeId => nodeId == me
  | _ => false

section

variable {Etx : Type} (F : F32 Etx) (me : UInt32)

def apply (s : EdgeRows) : StoreOp Etx → EdgeRows
  | .clear => s.clear
  | .takePendingDemotion => s.takePendingDemotion.1
  | .setNodeClass nodeId cls parentHint => s.setNodeClass nodeId cls parentHint
  | .setL1 nodeId => s.setL1 nodeId
  | .modifyEdge a b f => s.modifyEdge a b f
  | .setEdgeHearsUs a b hearsUs => s.setEdgeHearsUs a b hearsUs
  | .retainListedEdges sender listed => (s.retainListedEdges sender listed).1
  | .clearHearsUsToUnlisted sender listed => s.clearHearsUsToUnlisted sender listed
  | .removeEdgesTo target => s.removeEdgesTo target
  | .removeEdge a b => (s.removeEdge a b).1
  | .removeNode nodeId => (s.removeNode nodeId).1
  | .updateNodeActivity nodeId nowMs => (s.updateNodeActivity nodeId nowMs me).1
  | .ensureLocalNode nowMs => s.ensureLocalNode F me nowMs
  | .ensurePublisher nodeId cls parentHint nowMs ds =>
    (s.ensurePublisher F nodeId cls parentHint nowMs me ds).1
  | .flushPendingDemotion nowMs ds => (s.flushPendingDemotion F me nowMs ds).1
  | .demoteForCapacity nowMs ds => (s.demoteForCapacity F nowMs me ds).1
  | .updateEdge a b etx nowMs source updateTimestamp heardOn =>
    (s.updateEdge F me a b etx nowMs source updateTimestamp heardOn).1
  | .updateEdgeFromObservation a b rssi snr nowMs source heardOn modemPreset =>
    (s.updateEdgeFromObservation F me a b rssi snr nowMs source heardOn modemPreset).1
  | .pruneUnreachableFromRoot nowMs ds => (s.pruneUnreachableFromRoot F me nowMs ds).1
  | .removeEdgeAndPrune a b nowMs ds => (s.removeEdgeAndPrune F a b me nowMs ds).1
  | .ageEdges nowMs ttlMs downstream => (s.ageEdges F me nowMs ttlMs downstream).1

/-- The store under any sequence of operations. -/
def edgeRows : LTS EdgeRows (StoreOp Etx) where
  init s := s = new
  step s op t := t = s.apply F me op

variable {F me} {s : EdgeRows}

theorem inv_new : Inv new where
  nodup := List.nodup_nil
  count := Nat.zero_le _
  rows _ hn := absurd hn List.not_mem_nil

theorem apply_kept (hme : me ≠ 0) {op : StoreOp Etx} (h : op.dropsNode me = false) :
    Kept me s (s.apply F me op) := by
  cases op with
  | clear => cases h
  | takePendingDemotion => exact .of_nodes rfl
  | setNodeClass nodeId cls parentHint => exact setNodeClass_kept cls parentHint
  | setL1 nodeId => exact setL1_kept
  | modifyEdge a b f => exact modifyEdge_kept f
  | setEdgeHearsUs a b hearsUs => exact modifyEdge_kept _
  | retainListedEdges sender listed => exact retainListedEdges_kept sender listed
  | clearHearsUsToUnlisted sender listed => exact clearHearsUsToUnlisted_kept sender listed
  | removeEdgesTo target => exact removeEdgesTo_kept target
  | removeEdge a b => exact removeEdge_kept
  | removeNode nodeId => exact removeNode_kept (by simpa [StoreOp.dropsNode] using h)
  | updateNodeActivity nodeId nowMs => exact updateNodeActivity_kept
  | ensureLocalNode nowMs => exact ensureLocalNode_kept hme
  | ensurePublisher nodeId cls parentHint nowMs ds => exact ensurePublisher_kept cls parentHint ds
  | flushPendingDemotion nowMs ds => exact flushPendingDemotion_kept ds
  | demoteForCapacity nowMs ds => exact demoteForCapacity_kept ds
  | updateEdge a b etx nowMs source updateTimestamp heardOn =>
    exact updateEdge_kept etx source updateTimestamp heardOn
  | updateEdgeFromObservation a b rssi snr nowMs source heardOn modemPreset =>
    exact updateEdge_kept _ source true heardOn
  | pruneUnreachableFromRoot nowMs ds => exact pruneUnreachableFromRoot_kept ds
  | removeEdgeAndPrune a b nowMs ds => exact removeEdgeAndPrune_kept ds
  | ageEdges nowMs ttlMs downstream => exact ageEdges_kept ttlMs downstream

theorem apply_inv (hme : me ≠ 0) (op : StoreOp Etx) (h : s.Inv) : (s.apply F me op).Inv := by
  cases hdrop : op.dropsNode me with
  | false => exact (apply_kept hme hdrop h).1
  | true =>
    cases op with
    | clear => exact ⟨List.nodup_nil, Nat.zero_le _, fun _ hn => absurd hn List.not_mem_nil⟩
    | removeNode nodeId => exact removeNode_inv h
    | _ => cases hdrop

theorem inductive_inv (hme : me ≠ 0) : (edgeRows F me).Inductive Inv where
  init s hs := by
    rw [show s = new from hs]
    exact inv_new
  step s op t hs ht := by
    rw [show t = s.apply F me op from ht]
    exact apply_inv hme op hs

/-- In every state that operations lead to, the representation invariant holds,
no operation but those told to takes our own node out, and an eviction for
capacity spares it and every L1 node. -/
theorem representation_invariant (hme : me ≠ 0) (h : (edgeRows F me).Reachable s) :
    s.Inv ∧
      (∀ op : StoreOp Etx, op.dropsNode me = false → me ∈ s.ids → me ∈ (s.apply F me op).ids) ∧
      ∀ nowMs ds r, s.evictForCapacity F nowMs me ds = some r →
        ∀ n ∈ s.nodes, n.nodeId = me ∨ n.cls = .l1 → n ∈ r.1.nodes := by
  have hinv := (inductive_inv hme).reachable h
  exact ⟨hinv, fun op hop hmine => (apply_kept hme hop hinv).2 hmine,
    fun nowMs ds r hr n hn hspared => evictForCapacity_spares hr hn hspared⟩

/-- A store that has met two nodes. -/
theorem two_nodes_invariant :
    let s := (new.apply hundredths 1 (.ensureLocalNode 0)).apply hundredths 1
      (.updateEdge 1 2 105 0 .reported true 0)
    s.ids = [1, 2] ∧ s.Inv ∧ 1 ∈ (s.apply hundredths 1 (.ageEdges 1000 10 none)).ids := by
  intro s
  have hreach : (edgeRows hundredths 1).Reachable s :=
    ⟨new, [.ensureLocalNode 0, .updateEdge 1 2 105 0 .reported true 0], rfl,
      .cons rfl (.cons rfl (.nil _))⟩
  have hinvariant := representation_invariant (by decide) hreach
  exact ⟨by decide +kernel, hinvariant.1, hinvariant.2.1 (.ageEdges 1000 10 none) rfl (by decide +kernel)⟩

end

end EdgeRows

end Meshrustic.Topology
