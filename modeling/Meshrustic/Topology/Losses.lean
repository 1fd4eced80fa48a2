import Meshrustic.Topology.Ageing
import Meshrustic.Topology.EmptyList

/-!
# What a write to the edge store loses (`mesh-routing/src/graph/edge.rs`)

A new node may push another one out of a full store, and a new edge another one out
of a full list. Both are told of the store before the write (`pushedOut`,
`crowdedOut`); a write loses no other edge.

Results:
* `spares_updateEdge_mine`, `spares_updateEdge_other`: what `update_edge` loses;
* `keeps_updateEdge_other`: an edge of another list that is not new costs nothing;
* `Rooted.ensureLocalNode`: our own node pushes nobody out.
-/
namespace Meshrustic.Topology

open Meshrustic.Graph Meshrustic.Relay

namespace EdgeStore

/-! ## Losses -/

/-- Every edge that is not `lost` is still there, perhaps with other contents. -/
def Spares (lost : UInt32 → UInt32 → Prop) (edges edges' : EdgeStore) : Prop :=
  ∀ a b, (edges.edge a b).isSome = true → lost a b ∨ (edges'.edge a b).isSome = true

/-- No edge is lost. -/
def Keeps (edges edges' : EdgeStore) : Prop :=
  ∀ a b, (edges.edge a b).isSome = true → (edges'.edge a b).isSome = true

section

variable {edges edges' edges'' : EdgeStore} {lost : UInt32 → UInt32 → Prop}

theorem Keeps.refl (edges : EdgeStore) : Keeps edges edges := fun _ _ h => h

theorem Keeps.trans (h : Keeps edges edges') (h' : Keeps edges' edges'') : Keeps edges edges'' :=
  fun a b he => h' a b (h a b he)

theorem Keeps.spares (h : Keeps edges edges') : Spares lost edges edges' :=
  fun a b he => .inr (h a b he)

theorem Spares.trans (h : Spares lost edges edges') (h' : Spares lost edges' edges'') :
    Spares lost edges edges'' :=
  fun a b he => (h a b he).elim .inl (h' a b)

theorem Spares.mono {lost' : UInt32 → UInt32 → Prop} (h : Spares lost edges edges')
    (hlost : ∀ a b, lost a b → lost' a b) : Spares lost' edges edges' :=
  fun a b he => (h a b he).imp_left (hlost a b)

theorem Spares.keeps (h : Spares lost edges edges') (hlost : ∀ a b, ¬lost a b) : Keeps edges edges' :=
  fun a b he => (h a b he).resolve_left (hlost a b)

theorem SameEdges.keeps (h : SameEdges edges edges') : Keeps edges edges' := by
  intro a b he
  rw [h a b]
  exact he

/-- The lists of the nodes are changed, and each keeps its edges. -/
theorem keeps_modifyNode {nodeId : UInt32} {f : NodeEdges → NodeEdges} {hf}
    (h : ∀ n b, (n.findEdge b).isSome = true → ((f n).findEdge b).isSome = true) :
    Keeps edges (edges.modifyNode nodeId f hf) := by
  intro a b he
  unfold edge modifyNode at *
  rw [findNode_mapNodes]
  cases hn : edges.findNode a with
  | none =>
    rw [hn] at he
    cases he
  | some n =>
    rw [hn] at he
    rw [Option.map_some, Option.bind_some]
    split
    · exact h n b he
    · exact he

theorem keeps_mapEdges {nodeId : UInt32} {f : Edge → Edge} {hf hf'} :
    Keeps edges (edges.modifyNode nodeId (fun n => n.mapEdges f hf) hf') := by
  refine keeps_modifyNode fun n b he => ?_
  rw [NodeEdges.findEdge_mapEdges, Option.isSome_map]
  exact he

theorem keeps_setEdgeHearsUs (a b : UInt32) (hearsUs : Bool) :
    Keeps edges (edges.setEdgeHearsUs a b hearsUs) := keeps_mapEdges

theorem keeps_modifyEdge (a b : UInt32) (f : Edge → Edge) : Keeps edges (edges.modifyEdge a b f) :=
  keeps_mapEdges

end

/-! ## Nodes that give way -/

/-- The node that gives way to `nodeId`, where that is not stored and the store is full. -/
def pushedOut (edges : EdgeStore) (nodeId myNode nowMs : UInt32) : Option UInt32 :=
  if (edges.findNode nodeId).isSome || decide (edges.nodes.rows.length < MAX_GRAPH_NODES) then none
  else (edges.selectEvictionVictim myNode nowMs).bind fun i =>
    (edges.nodes.rows[i]?).map (·.nodeId)

section

variable {edges : EdgeStore} {nodeId me nowMs : UInt32}

/-- The victim is neither ours nor L1. -/
theorem selectEvictionVictim_spec {i : Nat} (h : edges.selectEvictionVictim me nowMs = some i) :
    ∃ v, edges.nodes.rows[i]? = some v ∧ v.nodeId ≠ me ∧ v.cls ≠ .l1 := by
  unfold selectEvictionVictim at h
  obtain ⟨best, hbest, rfl⟩ := Option.map_eq_some_iff.mp h
  refine scan_some (P := fun b : Victim => ∃ v, edges.nodes.rows[b.idx]? = some v ∧ v.nodeId ≠ me ∧
    v.cls ≠ .l1) (fun best row hrow b hb => ?_) (fun b hb => by cases hb) hbest
  split at hb
  · exact .inl hb
  rename_i hid
  split at hb
  · exact .inl hb
  rename_i hcls
  dsimp only at hb
  split at hb
  · cases hb
    exact .inr ⟨row.1, List.mem_zipIdx_iff_getElem?.mp hrow, by simpa using hid, by simpa using hcls⟩
  · exact .inl hb

/-- There is no victim if every node is ours or L1. -/
theorem selectEvictionVictim_none_iff :
    edges.selectEvictionVictim me nowMs = none ↔
      ∀ n ∈ edges.nodes.rows, n.nodeId = me ∨ n.cls = .l1 := by
  unfold selectEvictionVictim
  rw [Option.map_eq_none_iff]
  constructor
  · intro h n hn
    obtain ⟨i, hi, rfl⟩ := List.mem_iff_getElem.mp hn
    refine (scan_none (P := fun row : NodeEdges × Nat => row.1.nodeId = me ∨ row.1.cls = .l1)
      (fun best row hrow hnone => ?_) h).2 (edges.nodes.rows[i], i) (List.mk_mem_zipIdx_iff_getElem?.mpr
        (List.getElem?_eq_getElem hi))
    split at hnone
    · rename_i hid
      exact ⟨hnone, .inl (by simpa using hid)⟩
    split at hnone
    · rename_i hcls
      exact ⟨hnone, .inr (by simpa using hcls)⟩
    dsimp only at hnone
    split at hnone
    · cases hnone
    · rename_i hbetter
      subst hnone
      exact absurd rfl hbetter
  · intro h
    refine scan_skips fun best row hrow => ?_
    rcases h row.1 (List.mem_of_getElem? (List.mem_zipIdx_iff_getElem?.mp hrow)) with hid | hcls
    · simp [hid]
    · simp [hcls]

theorem pushedOut_ne_me : edges.pushedOut nodeId me nowMs ≠ some me := by
  intro h
  unfold pushedOut at h
  split at h
  · cases h
  · obtain ⟨i, hi, hrow⟩ := Option.bind_eq_some_iff.mp h
    obtain ⟨v, hv, hid, -⟩ := selectEvictionVictim_spec hi
    rw [hv, Option.map_some, Option.some.injEq] at hrow
    exact hid hrow

/-- Whoever adds `nodeId` now pushes nobody out: it is stored, or nobody would give way. -/
def Settled (edges : EdgeStore) (nodeId me : UInt32) : Prop :=
  (edges.findNode nodeId).isSome = true ∨ ∀ n ∈ edges.nodes.rows, n.nodeId = me ∨ n.cls = .l1

theorem Settled.pushedOut (h : edges.Settled nodeId me) : edges.pushedOut nodeId me nowMs = none := by
  unfold EdgeStore.pushedOut
  split
  · rfl
  · rename_i hfull
    rcases h with h | h
    · exact absurd (by rw [h]; rfl) hfull
    · rw [selectEvictionVictim_none_iff.mpr h]
      rfl

theorem Settled.mapNodes {f : NodeEdges → NodeEdges} {hf} (h : edges.Settled nodeId me)
    (hcls : ∀ n, n.cls = .l1 → (f n).cls = .l1) : (edges.mapNodes f hf).Settled nodeId me := by
  rcases h with h | h
  · left
    rw [findNode_mapNodes, Option.isSome_map]
    exact h
  · right
    intro n hn
    obtain ⟨m, hm, rfl⟩ := List.mem_map.mp hn
    rw [hf]
    exact (h m hm).imp_right (hcls m)

theorem Settled.modifyNode {a : UInt32} {f : NodeEdges → NodeEdges} {hf} (h : edges.Settled nodeId me)
    (hcls : ∀ n, n.cls = .l1 → (f n).cls = .l1) : (edges.modifyNode a f hf).Settled nodeId me := by
  refine h.mapNodes fun n hn => ?_
  split
  · exact hcls n hn
  · exact hn

end

/-! ## New nodes -/

section

variable {edges : EdgeStore} {nodeId me nowMs a b : UInt32} {n : NodeEdges}

theorem removeNodeAt_length {i : Nat} (hi : i < edges.nodes.rows.length) :
    (edges.removeNodeAt i).nodes.rows.length + 1 = edges.nodes.rows.length := by
  unfold removeNodeAt
  rw [dif_pos hi]
  change (edges.nodes.swapRemove i).rows.length + 1 = _
  have hlen := (edges.nodes.swapRemove_perm hi).length_eq
  rw [List.length_eraseIdx_of_lt hi] at hlen
  omega

theorem findNode_pushNode (hn : edges.findNode n.nodeId = none)
    (hroom : edges.nodes.rows.length < MAX_GRAPH_NODES) :
    (edges.pushNode n).findNode a = if a = n.nodeId then some n else edges.findNode a := by
  unfold findNode at *
  rw [pushNode_rows hn hroom, List.find?_append]
  split
  · rename_i ha
    subst ha
    rw [hn]
    simp
  · rename_i ha
    cases h : edges.nodes.rows.find? fun n => n.nodeId == a with
    | some m => rfl
    | none => simp [Ne.symm ha]

/-- What `find_or_create_node` can do: the node is stored; or there is no room and nobody
gives way; or it is stored from now on, with an empty list, at the cost of `pushedOut`. -/
inductive Created (edges : EdgeStore) (nodeId me nowMs : UInt32) : Option EdgeStore → Prop where
  | stored (h : (edges.findNode nodeId).isSome = true) : Created edges nodeId me nowMs (some edges)
  | refused (hnew : edges.findNode nodeId = none) (hfull : ¬edges.nodes.rows.length < MAX_GRAPH_NODES)
      (hall : ∀ n ∈ edges.nodes.rows, n.nodeId = me ∨ n.cls = .l1) : Created edges nodeId me nowMs none
  | created {edges' : EdgeStore} {n : NodeEdges} (hnew : edges.findNode nodeId = none)
      (hid : n.nodeId = nodeId) (hempty : n.edges.rows = [])
      (hfind : ∀ a, edges'.findNode a = if a = nodeId then some n
        else if edges.pushedOut nodeId me nowMs = some a then none else edges.findNode a) :
      Created edges nodeId me nowMs (some edges')

theorem Created.isSome {t : EdgeStore} (h : Created edges nodeId me nowMs (some t)) :
    (t.findNode nodeId).isSome = true := by
  cases h with
  | stored h => exact h
  | created hnew hid hempty hfind =>
    rw [hfind, if_pos rfl]
    rfl

theorem Created.spares {t : EdgeStore} (h : Created edges nodeId me nowMs (some t)) :
    Spares (fun x _ => edges.pushedOut nodeId me nowMs = some x) edges t := by
  intro x y he
  cases h with
  | stored => exact .inr he
  | created hnew hid hempty hfind =>
    by_cases hout : edges.pushedOut nodeId me nowMs = some x
    · exact .inl hout
    right
    unfold edge at *
    rw [hfind, if_neg hout]
    split
    · rename_i hx
      rw [hx, hnew] at he
      cases he
    · exact he

theorem findNode_congr {edges' : EdgeStore} (h : edges'.nodes = edges.nodes) :
    edges'.findNode a = edges.findNode a := by
  unfold findNode
  rw [h]

variable {Etx : Type} (F : F32 Etx)

/-- An eviction with no downstream table at hand removes the victim. -/
theorem evict_nodes {edges' : EdgeStore} {ds : Option DownstreamTable}
    (h : edges.evictForCapacity F nowMs me none = some (edges', ds)) :
    ∃ i v, edges.selectEvictionVictim me nowMs = some i ∧ edges.nodes.rows[i]? = some v ∧
      edges'.nodes = (edges.removeNodeAt i).nodes := by
  unfold evictForCapacity at h
  cases hi : edges.selectEvictionVictim me nowMs with
  | none =>
    rw [hi] at h
    cases h
  | some i =>
    obtain ⟨v, hv, -, -⟩ := selectEvictionVictim_spec hi
    rw [hi] at h
    dsimp only at h
    rw [hv] at h
    dsimp only at h
    refine ⟨i, v, rfl, hv, ?_⟩
    cases hp : edges.pickL1Parent v.nodeId me with
    | none =>
      rw [hp] at h
      cases h
      rfl
    | some p =>
      rw [hp] at h
      cases h
      unfold removeNodeAt
      split <;> rfl

theorem findOrCreateNode_created (edges : EdgeStore) (nodeId nowMs me : UInt32) :
    Created edges nodeId me nowMs (edges.findOrCreateNode F nodeId nowMs me) := by
  unfold findOrCreateNode
  cases hnew : edges.findNode nodeId with
  | some n => exact .stored (by rw [hnew]; rfl)
  | none =>
    rw [if_neg (by simp)]
    by_cases hroom : edges.nodes.rows.length < MAX_GRAPH_NODES
    · have hout : edges.pushedOut nodeId me nowMs = none := by
        unfold pushedOut
        rw [decide_eq_true hroom, Bool.or_true]
        rfl
      rw [if_pos hroom]
      refine .created (n := .fresh nodeId nowMs (if nodeId == me then .l1 else .unknown) 0) hnew rfl rfl
        fun a => ?_
      rw [findNode_pushNode hnew hroom, hout]
      rfl
    · rw [if_neg hroom]
      cases hevict : edges.evictForCapacity F nowMs me none with
      | none =>
        refine .refused hnew hroom ((@selectEvictionVictim_none_iff edges me nowMs).mp ?_)
        cases hi : edges.selectEvictionVictim me nowMs with
        | none => rfl
        | some i =>
          have hnone := evict_eq_none F hevict
          obtain ⟨v, hv, -⟩ := selectEvictionVictim_spec hi
          rw [hi, Option.bind_some, hv] at hnone
          cases hnone
      | some r =>
        obtain ⟨i, v, hi, hv, hnodes⟩ := evict_nodes F hevict
        have hlt := (List.getElem?_eq_some_iff.mp hv).1
        have hout : edges.pushedOut nodeId me nowMs = some v.nodeId := by
          unfold pushedOut
          rw [hnew, decide_eq_false hroom, hi]
          simp [hv]
        have hgone : ∀ a, r.1.findNode a = if a = v.nodeId then none else edges.findNode a := by
          intro a
          rw [findNode_congr hnodes, findNode_removeNodeAt hv]
        have hleft : r.1.nodes.rows.length < MAX_GRAPH_NODES := by
          have hlen := removeNodeAt_length hlt
          have hle := edges.nodes.le
          rw [hnodes]
          omega
        have hnew' : r.1.findNode nodeId = none := by
          rw [hgone, hnew]
          split <;> rfl
        refine .created (n := .fresh nodeId nowMs (if nodeId == me then .l1 else .unknown) 0) hnew rfl
          rfl fun a => ?_
        change (r.1.pushNode _).findNode a = _
        rw [findNode_pushNode hnew' hleft, hgone, hout]
        refine if_congr Iff.rfl rfl (if_congr ?_ rfl rfl)
        rw [Option.some.injEq, eq_comm]

theorem spares_findOrCreateNode :
    Spares (fun x _ => edges.pushedOut nodeId me nowMs = some x) edges
      ((edges.findOrCreateNode F nodeId nowMs me).getD edges) := by
  have hcreated := findOrCreateNode_created F edges nodeId nowMs me
  cases h : edges.findOrCreateNode F nodeId nowMs me with
  | none => exact (Keeps.refl edges).spares
  | some edges' =>
    rw [h] at hcreated
    exact hcreated.spares

theorem settled_findOrCreateNode :
    ((edges.findOrCreateNode F nodeId nowMs me).getD edges).Settled nodeId me := by
  have hcreated := findOrCreateNode_created F edges nodeId nowMs me
  cases h : edges.findOrCreateNode F nodeId nowMs me with
  | none =>
    rw [h] at hcreated
    cases hcreated with
    | refused hnew hfull hall => exact .inr hall
  | some edges' =>
    rw [h] at hcreated
    exact .inl hcreated.isSome

/-- Our own node stays as it is. -/
theorem findNode_me_findOrCreateNode (h : edges.findNode me = some n) :
    ((edges.findOrCreateNode F nodeId nowMs me).getD edges).findNode me = some n := by
  cases hc : edges.findOrCreateNode F nodeId nowMs me with
  | none => exact h
  | some edges' =>
    have hcreated := findOrCreateNode_created F edges nodeId nowMs me
    rw [hc] at hcreated
    rw [Option.getD_some]
    cases hcreated with
    | stored => exact h
    | created hnew hid hempty hfind =>
      have hne : me ≠ nodeId := by
        rintro rfl
        rw [h] at hnew
        cases hnew
      rw [hfind, if_neg hne, if_neg pushedOut_ne_me]
      exact h

end

/-! ## Lists -/

section

variable {Etx : Type} (F : F32 Etx)

/-- The edge of the list that gives way to a new one. -/
def crowdedOut (n : NodeEdges) (etx : Etx) (nowMs : UInt32) (source : EdgeSource) : Option UInt32 :=
  if n.edges.rows.length < MAX_EDGES_PER_NODE then none
  else (worstEdge F n.edges.rows source nowMs).bind fun w =>
    if F.below etx w.2 then (n.edges.rows[w.1]?).map (·.toNode) else none

/-- The list has room for a new edge, or an edge that is worse. -/
def takesNew (n : NodeEdges) (etx : Etx) (nowMs : UInt32) (source : EdgeSource) : Bool :=
  decide (n.edges.rows.length < MAX_EDGES_PER_NODE) ||
    (worstEdge F n.edges.rows source nowMs).any fun w => F.below etx w.2

/-- The edge to `b` is new to the list, or changes by more than it usually does. -/
def changesList (n : NodeEdges) (b : UInt32) (etx : Etx) (nowMs : UInt32) (source : EdgeSource) :
    Bool :=
  match n.findEdge b with
  | some e => decide (e.source.rank ≤ source.rank) && F.significant e.etxVariance e.etxFixed etx
  | none => takesNew F n etx nowMs source

variable {F} {n : NodeEdges} {b x : UInt32} {etx : Etx} {nowMs : UInt32} {source : EdgeSource}
  {updateTimestamp : Bool} {heardOn : UInt8}

theorem isSome_findEdge_iff {n : NodeEdges} : (n.findEdge x).isSome = true ↔
    ∃ e ∈ n.edges.rows, e.toNode = x := by
  unfold Graph.NodeEdges.findEdge
  rw [List.find?_isSome]
  simp only [beq_iff_eq]

/-- The other edges of a list stay, except the one crowded out by a new edge. -/
theorem writeEdge_keeps (h : (n.findEdge x).isSome = true) :
    ((writeEdge F n b etx nowMs source updateTimestamp heardOn).1.findEdge x).isSome = true ∨
      (writeEdge F n b etx nowMs source updateTimestamp heardOn).2 = .new ∧ n.findEdge b = none ∧
        crowdedOut F n etx nowMs source = some x := by
  unfold writeEdge
  dsimp only
  split
  · split
    · exact .inl h
    · left
      rw [NodeEdges.findEdge_mapEdges, Option.isSome_map]
      exact h
  · rename_i hb
    split
    · left
      obtain ⟨e, he, hx⟩ := isSome_findEdge_iff.mp h
      unfold NodeEdges.pushEdge
      split
      · exact isSome_findEdge_iff.mpr ⟨e, List.mem_append_left _ he, hx⟩
      · exact h
    · rename_i hfull
      split
      · exact .inl h
      · rename_i i worst hworst
        split
        · exact .inl h
        · rename_i hbelow
          obtain ⟨e, he, hx⟩ := isSome_findEdge_iff.mp h
          obtain ⟨j, hj, hget⟩ := List.mem_iff_getElem.mp he
          by_cases hij : j = i
          · subst hij
            refine .inr ⟨rfl, hb, ?_⟩
            unfold crowdedOut
            rw [if_neg hfull, hworst, Option.bind_some, if_pos (by simpa using hbelow),
              List.getElem?_eq_getElem hj, hget, ← hx]
            rfl
          · left
            unfold NodeEdges.replaceEdge
            split
            · refine isSome_findEdge_iff.mpr ⟨e, ?_, hx⟩
              change e ∈ n.edges.rows.set i _
              rw [List.mem_iff_getElem?]
              exact ⟨j, by rw [List.getElem?_set_ne (Ne.symm hij), List.getElem?_eq_getElem hj, hget]⟩
            · exact h

theorem writeEdge_known {e : Edge} (h : n.findEdge b = some e) :
    (writeEdge F n b etx nowMs source updateTimestamp heardOn).2 =
      if decide (e.source.rank ≤ source.rank) && F.significant e.etxVariance e.etxFixed etx then
        .significantChange
      else .noChange := by
  unfold writeEdge
  rw [h]
  dsimp only
  by_cases hrank : source.rank < e.source.rank
  · rw [if_pos hrank, decide_eq_false (by omega)]
    rfl
  · rw [if_neg hrank, decide_eq_true (by omega), Bool.true_and]

theorem writeEdge_new (h : n.findEdge b = none) :
    (writeEdge F n b etx nowMs source updateTimestamp heardOn).2 =
      if takesNew F n etx nowMs source then .new else .noChange := by
  unfold writeEdge takesNew
  rw [h]
  dsimp only
  by_cases hroom : n.edges.rows.length < MAX_EDGES_PER_NODE
  · rw [if_pos hroom, decide_eq_true hroom]
    rfl
  · rw [if_neg hroom, decide_eq_false hroom, Bool.false_or]
    cases worstEdge F n.edges.rows source nowMs with
    | none => rfl
    | some w =>
      rw [Option.any_some]
      dsimp only
      cases F.below etx w.2 <;> rfl

/-- An edge that changes the list is told. -/
theorem writeEdge_changes (h : changesList F n b etx nowMs source = true) :
    (writeEdge F n b etx nowMs source updateTimestamp heardOn).2 ≠ .noChange := by
  unfold changesList at h
  cases hb : n.findEdge b with
  | some e =>
    rw [hb] at h
    rw [writeEdge_known hb, if_pos h]
    exact EdgeChange.noConfusion
  | none =>
    rw [hb] at h
    rw [writeEdge_new hb, if_pos h]
    exact EdgeChange.noConfusion

/-- An empty list takes any edge as a new one. -/
theorem writeEdge_empty (h : n.edges.rows = []) :
    (writeEdge F n b etx nowMs source updateTimestamp heardOn).2 = .new := by
  have hb : n.findEdge b = none := by
    unfold Graph.NodeEdges.findEdge
    rw [h]
    rfl
  have htakes : takesNew F n etx nowMs source = true := by
    unfold takesNew
    rw [h]
    rfl
  rw [writeEdge_new hb, if_pos htakes]

/-- An edge is none of the owner's class and hint. -/
theorem takeEdge_header (n : NodeEdges) :
    (takeEdge F n b etx nowMs source updateTimestamp heardOn).cls = n.cls ∧
      (takeEdge F n b etx nowMs source updateTimestamp heardOn).parentHint = n.parentHint := by
  have hpush : ∀ (n : NodeEdges) (e : Edge),
      (n.pushEdge e).cls = n.cls ∧ (n.pushEdge e).parentHint = n.parentHint := by
    intro n e
    unfold NodeEdges.pushEdge
    split <;> exact ⟨rfl, rfl⟩
  have hreplace : ∀ (n : NodeEdges) (i : Nat) (e : Edge),
      (n.replaceEdge i e).cls = n.cls ∧ (n.replaceEdge i e).parentHint = n.parentHint := by
    intro n i e
    unfold NodeEdges.replaceEdge
    split <;> exact ⟨rfl, rfl⟩
  have hwrite : ∀ n : NodeEdges,
      (writeEdge F n b etx nowMs source updateTimestamp heardOn).1.cls = n.cls ∧
        (writeEdge F n b etx nowMs source updateTimestamp heardOn).1.parentHint = n.parentHint := by
    intro n
    unfold writeEdge
    dsimp only
    split
    · split <;> exact ⟨rfl, rfl⟩
    · split
      · exact hpush n _
      · split
        · exact ⟨rfl, rfl⟩
        · split
          · exact ⟨rfl, rfl⟩
          · exact hreplace n _ _
  unfold takeEdge
  cases updateTimestamp with
  | false => exact hwrite n
  | true => exact hwrite (n.touched nowMs)

theorem takeEdge_keeps (h : (n.findEdge x).isSome = true) :
    ((takeEdge F n b etx nowMs source updateTimestamp heardOn).findEdge x).isSome = true ∨
      (writeEdge F n b etx nowMs source updateTimestamp heardOn).2 = .new ∧ n.findEdge b = none ∧
        crowdedOut F n etx nowMs source = some x := by
  unfold takeEdge
  cases updateTimestamp with
  | false => exact writeEdge_keeps h
  | true =>
    -- when the node published does not matter to its list
    have hsame : (writeEdge F (n.touched nowMs) b etx nowMs source true heardOn).2 =
        (writeEdge F n b etx nowMs source true heardOn).2 := by
      cases hb : n.findEdge b with
      | some e => rw [writeEdge_known hb, @writeEdge_known _ F (n.touched nowMs) b _ _ _ _ _ e hb]
      | none =>
        rw [writeEdge_new hb, @writeEdge_new _ F (n.touched nowMs) b _ _ _ _ _ hb]
        rfl
    rw [← hsame]
    exact @writeEdge_keeps _ F (n.touched nowMs) b x etx nowMs source true heardOn h

end

/-! ## `update_edge` -/

section

variable {Etx : Type} {F : F32 Etx} {edges : EdgeStore} {me a b nowMs : UInt32} {etx : Etx}
  {source : EdgeSource} {updateTimestamp : Bool} {heardOn : UInt8}

/-- A placeholder that is admitted is created there and then. -/
theorem admitOwner_creates {t : EdgeStore} (h : edges.admitOwner F a nowMs me = some t) :
    t.findOrCreateNode F a nowMs me = edges.findOrCreateNode F a nowMs me ∧
      (t.findOrCreateNode F a nowMs me = none → t = edges) := by
  unfold admitOwner at h
  split at h
  · cases h
    exact ⟨rfl, fun _ => rfl⟩
  split at h
  · cases h
    cases hc : edges.findOrCreateNode F a nowMs me with
    | none =>
      rw [Option.getD_none, hc]
      exact ⟨rfl, fun _ => rfl⟩
    | some u =>
      have hcreated := findOrCreateNode_created F edges a nowMs me
      rw [hc] at hcreated
      rw [Option.getD_some]
      have hagain : u.findOrCreateNode F a nowMs me = some u := by
        unfold findOrCreateNode
        rw [if_pos hcreated.isSome]
      rw [hagain]
      exact ⟨rfl, fun hnone => by cases hnone⟩
  split at h
  · cases h
  split at h
  · cases h
    exact ⟨rfl, fun _ => rfl⟩
  · cases h

/-- Of the owner's own node, classing changes the class at most. -/
theorem classifyEnds_owner {n : NodeEdges} (h : edges.findNode a = some n) (hab : a ≠ b) :
    ∃ m, (edges.classifyEnds F me a b nowMs source).findNode a = some m ∧
      m.toNodeEdges.edges = n.toNodeEdges.edges ∧ (a = me → m = n) := by
  unfold classifyEnds
  split
  · rename_i ha
    rw [beq_iff_eq] at ha
    subst ha
    have hstays := @findNode_me_findOrCreateNode edges b a nowMs n _ F h
    refine ⟨n, ?_, rfl, fun _ => rfl⟩
    dsimp only
    split
    · unfold setL1
      rw [findNode_modifyNode_other _ _ hab]
      exact hstays
    · exact hstays
  · rename_i ha
    rw [beq_iff_eq] at ha
    dsimp only
    split
    · unfold setNodeClass
      rw [findNode_modifyNode_self, h, Option.map_some]
      refine ⟨_, rfl, ?_, fun heq => absurd heq ha⟩
      dsimp only
      split <;> split <;> rfl
    · exact ⟨n, h, rfl, fun _ => rfl⟩

/-- The ends and the price of an edge that may be written. -/
def Writable (F : F32 Etx) (a b : UInt32) (etx : Etx) : Prop :=
  b ≠ 0 ∧ a ≠ 0 ∧ a ≠ b ∧ F.positive etx = true

/-- `update_edge` refuses the edge, the store being as before; or its owner is admitted
and stored, the ends are classed, and the owner's list takes the edge. -/
theorem updateEdge_steps :
    ((¬Writable F a b etx ∨ edges.admitOwner F a nowMs me = none ∨
        edges.findOrCreateNode F a nowMs me = none) ∧
      edges.updateEdge F me a b etx nowMs source updateTimestamp heardOn = (edges, .noChange)) ∨
      ∃ u n, Writable F a b etx ∧ (edges.admitOwner F a nowMs me).isSome = true ∧
        edges.findOrCreateNode F a nowMs me = some u ∧
        (u.classifyEnds F me a b nowMs source).findNode a = some n ∧
        edges.updateEdge F me a b etx nowMs source updateTimestamp heardOn =
          ((u.classifyEnds F me a b nowMs source).modifyNode a
            (fun n => takeEdge F n b etx nowMs source updateTimestamp heardOn)
            (fun n => takeEdge_nodeId F n b etx nowMs source updateTimestamp heardOn),
            (writeEdge F n b etx nowMs source updateTimestamp heardOn).2) := by
  unfold updateEdge
  split
  · rename_i hguard
    simp only [Bool.or_eq_true, beq_iff_eq, Bool.not_eq_true'] at hguard
    refine .inl ⟨.inl ?_, rfl⟩
    rintro ⟨hb, ha, hab, hpos⟩
    rw [hpos] at hguard
    rcases hguard with ((h | h) | h) | h
    · exact hb h
    · exact ha h
    · exact hab h
    · cases h
  rename_i hguard
  simp only [Bool.or_eq_true, beq_iff_eq, Bool.not_eq_true', not_or, Bool.not_eq_false] at hguard
  obtain ⟨⟨⟨hb, ha⟩, hab⟩, hpos⟩ := hguard
  cases hadmitted : edges.admitOwner F a nowMs me with
  | none => exact .inl ⟨.inr (.inl rfl), rfl⟩
  | some t =>
    obtain ⟨hsame, hrefused⟩ := admitOwner_creates hadmitted
    dsimp only
    cases hc : t.findOrCreateNode F a nowMs me with
    | none =>
      rw [hrefused hc]
      exact .inl ⟨.inr (.inr (hsame.symm.trans hc)), rfl⟩
    | some u =>
      have hcreated := findOrCreateNode_created F edges a nowMs me
      rw [← hsame, hc] at hcreated
      obtain ⟨m, hm⟩ := Option.isSome_iff_exists.mp hcreated.isSome
      obtain ⟨n, hn, -⟩ := @classifyEnds_owner _ F u me a b nowMs source m hm hab
      dsimp only
      rw [hn]
      exact .inr ⟨u, n, ⟨hb, ha, hab, hpos⟩, rfl, hsame.symm.trans hc, hn, rfl⟩

/-- What `update_edge` can do, the owner being stored or created as `Created` has it. -/
theorem updateEdge_cases :
    ((¬Writable F a b etx ∨ edges.admitOwner F a nowMs me = none ∨ Created edges a me nowMs none) ∧
      edges.updateEdge F me a b etx nowMs source updateTimestamp heardOn = (edges, .noChange)) ∨
      ∃ u n, Created edges a me nowMs (some u) ∧ Writable F a b etx ∧
        (u.classifyEnds F me a b nowMs source).findNode a = some n ∧
        edges.updateEdge F me a b etx nowMs source updateTimestamp heardOn =
          ((u.classifyEnds F me a b nowMs source).modifyNode a
            (fun n => takeEdge F n b etx nowMs source updateTimestamp heardOn)
            (fun n => takeEdge_nodeId F n b etx nowMs source updateTimestamp heardOn),
            (writeEdge F n b etx nowMs source updateTimestamp heardOn).2) := by
  have hcreated := findOrCreateNode_created F edges a nowMs me
  rcases @updateEdge_steps _ F edges me a b nowMs etx source updateTimestamp heardOn with
    ⟨hrefused, heq⟩ | ⟨u, n, hw, -, hc, hn, heq⟩
  · refine .inl ⟨hrefused.imp_right fun h => h.imp_right fun hnone => ?_, heq⟩
    rw [hnone] at hcreated
    exact hcreated
  · rw [hc] at hcreated
    exact .inr ⟨u, n, hcreated, hw, hn, heq⟩

theorem Writable.symm (h : Writable F a b etx) : Writable F b a etx :=
  ⟨h.2.1, h.1, Ne.symm h.2.2.1, h.2.2.2⟩

theorem updateEdge_unwritable (h : ¬Writable F a b etx) :
    edges.updateEdge F me a b etx nowMs source updateTimestamp heardOn = (edges, .noChange) := by
  rcases @updateEdge_cases _ F edges me a b nowMs etx source updateTimestamp heardOn with
    ⟨-, heq⟩ | ⟨u, n, -, hw, -⟩
  · exact heq
  · exact absurd hw h

/-- The owner's list takes the edge at the cost of the one crowded out. -/
theorem spares_takeEdge {n : NodeEdges} (hn : edges.findNode a = some n) :
    Spares (fun x y => x = a ∧ (writeEdge F n b etx nowMs source updateTimestamp heardOn).2 = .new ∧
        n.findEdge b = none ∧ crowdedOut F n etx nowMs source = some y) edges
      (edges.modifyNode a (fun n => takeEdge F n b etx nowMs source updateTimestamp heardOn)
        fun n => takeEdge_nodeId F n b etx nowMs source updateTimestamp heardOn) := by
  intro x y he
  by_cases hx : x = a
  · subst hx
    unfold edge at *
    rw [hn, Option.bind_some] at he
    rw [findNode_modifyNode_self, hn, Option.map_some, Option.bind_some]
    exact (takeEdge_keeps he).symm.imp_left fun h => ⟨rfl, h⟩
  · right
    unfold edge at *
    rw [findNode_modifyNode_other _ _ hx]
    exact he

/-! ### Edges of ours -/

section

variable {n : NodeEdges}

theorem updateEdge_mine (hme : edges.findNode me = some n) (hw : Writable F me b etx) :
    edges.updateEdge F me me b etx nowMs source updateTimestamp heardOn =
      ((edges.classifyEnds F me me b nowMs source).modifyNode me
        (fun n => takeEdge F n b etx nowMs source updateTimestamp heardOn)
        (fun n => takeEdge_nodeId F n b etx nowMs source updateTimestamp heardOn),
        (writeEdge F n b etx nowMs source updateTimestamp heardOn).2) := by
  rcases @updateEdge_cases _ F edges me me b nowMs etx source updateTimestamp heardOn with
    ⟨hrefused, -⟩ | ⟨u, m, hcreated, -, hm, heq⟩
  · rcases hrefused with h | h | h
    · exact absurd hw h
    · unfold admitOwner at h
      rw [if_pos (by simp)] at h
      cases h
    · cases h with
      | refused hnew =>
        rw [hme] at hnew
        cases hnew
  · have hu : u = edges := by
      cases hcreated with
      | stored => rfl
      | created hnew =>
        rw [hme] at hnew
        cases hnew
    subst hu
    obtain ⟨m', hm', -, heqn⟩ := @classifyEnds_owner _ F u me me b nowMs source n hme hw.2.2.1
    rw [hm', Option.some.injEq] at hm
    rw [heq, ← hm, heqn rfl]

theorem sameEdges_setL1 (nodeId : UInt32) : SameEdges edges (edges.setL1 nodeId) :=
  sameEdges_modifyNode fun _ => rfl

/-- Our new edge may push out the node that gives way to its end, and crowd out the edge
that gives way in our list. -/
theorem spares_updateEdge_mine (hme : edges.findNode me = some n) :
    Spares (fun x y => Writable F me b etx ∧ (edges.pushedOut b me nowMs = some x ∨ x = me ∧
        (edges.updateEdge F me me b etx nowMs source updateTimestamp heardOn).2 = .new ∧
        n.findEdge b = none ∧ crowdedOut F n etx nowMs source = some y))
      edges (edges.updateEdge F me me b etx nowMs source updateTimestamp heardOn).1 := by
  rcases @updateEdge_cases _ F edges me me b nowMs etx source updateTimestamp heardOn with
    ⟨-, heq⟩ | ⟨u, m, -, hw, -, -⟩
  · rw [heq]
    exact (Keeps.refl edges).spares
  · rw [updateEdge_mine hme hw]
    obtain ⟨m', hm', -, heqn⟩ := @classifyEnds_owner _ F edges me me b nowMs source n hme hw.2.2.1
    rw [heqn rfl] at hm'
    have hclass : Spares (fun x _ => edges.pushedOut b me nowMs = some x) edges
        (edges.classifyEnds F me me b nowMs source) := by
      unfold classifyEnds
      rw [if_pos (beq_self_eq_true me)]
      dsimp only
      split
      · exact (spares_findOrCreateNode F).trans (sameEdges_setL1 b).keeps.spares
      · exact spares_findOrCreateNode F
    exact (hclass.mono fun x _ h => ⟨hw, .inl h⟩).trans
      ((spares_takeEdge hm').mono fun x y h => ⟨hw, .inr h⟩)

theorem updateEdge_mine_changes (hme : edges.findNode me = some n) (hw : Writable F me b etx)
    (h : changesList F n b etx nowMs source = true) :
    (edges.updateEdge F me me b etx nowMs source updateTimestamp heardOn).2 ≠ .noChange := by
  rw [updateEdge_mine hme hw]
  exact writeEdge_changes h

theorem settled_takeEdge {nodeId : UInt32} (h : edges.Settled nodeId me) :
    (edges.modifyNode a (fun n => takeEdge F n b etx nowMs source updateTimestamp heardOn)
      fun n => takeEdge_nodeId F n b etx nowMs source updateTimestamp heardOn).Settled nodeId me :=
  h.modifyNode fun n hn => by rw [(takeEdge_header n).1, hn]

/-- Whatever became of the other end, the next edge to it pushes nobody out. -/
theorem settled_updateEdge_mine (hme : edges.findNode me = some n) (hw : Writable F me b etx) :
    (edges.updateEdge F me me b etx nowMs source updateTimestamp heardOn).1.Settled b me := by
  rw [updateEdge_mine hme hw]
  refine settled_takeEdge ?_
  unfold classifyEnds
  rw [if_pos (beq_self_eq_true me)]
  dsimp only
  split
  · exact (settled_findOrCreateNode F).modifyNode fun n _ => rfl
  · exact settled_findOrCreateNode F

end

/-! ### Edges of others -/

theorem Settled.setNodeClass {cls : NodeClass} {nodeId parentHint : UInt32}
    (h : edges.Settled nodeId me) : (edges.setNodeClass a cls parentHint).Settled nodeId me := by
  refine h.modifyNode fun n hn => ?_
  dsimp only
  by_cases hcls : cls = .l1
  · subst hcls
    simp only [hn, bne_self_eq_false, Bool.and_false, Bool.false_eq_true, if_false]
    split <;> rfl
  · have hkept : (n.cls == .l1 && cls != .l1) = true := by simpa [hn] using hcls
    rw [if_pos hkept]
    split <;> exact hn

theorem classifyEnds_other (ha : a ≠ me) :
    edges.classifyEnds F me a b nowMs source = edges ∨ ∃ cls parentHint,
      edges.classifyEnds F me a b nowMs source = edges.setNodeClass a cls parentHint := by
  unfold classifyEnds
  rw [if_neg (by simpa using ha)]
  dsimp only
  split
  · exact .inr ⟨_, _, rfl⟩
  · exact .inl rfl

theorem keeps_classifyEnds_other (ha : a ≠ me) :
    Keeps edges (edges.classifyEnds F me a b nowMs source) := by
  rcases @classifyEnds_other _ F edges me a b nowMs source ha with h | ⟨cls, parentHint, h⟩
  · rw [h]
    exact .refl edges
  · rw [h]
    exact (sameEdges_setNodeClass a cls parentHint).keeps

/-- An edge of another list may push out the node that gives way to its owner, and crowd
out another edge of the owner's. -/
theorem spares_updateEdge_other (ha : a ≠ me) :
    Spares (fun x y => edges.pushedOut a me nowMs = some x ∨ x = a ∧ y ≠ b) edges
      (edges.updateEdge F me a b etx nowMs source updateTimestamp heardOn).1 := by
  rcases @updateEdge_cases _ F edges me a b nowMs etx source updateTimestamp heardOn with
    ⟨-, heq⟩ | ⟨u, n, hcreated, -, hn, heq⟩
  · rw [heq]
    exact (Keeps.refl edges).spares
  · rw [heq]
    refine (hcreated.spares.mono fun x y h => .inl h).trans
      ((@keeps_classifyEnds_other _ F u me a b nowMs source ha).spares.trans fun x y he => ?_)
    refine (spares_takeEdge hn x y he).imp_left fun h => ?_
    obtain ⟨rfl, -, hb, -⟩ := h
    refine .inr ⟨rfl, ?_⟩
    rintro rfl
    unfold edge at he
    rw [hn, Option.bind_some, hb] at he
    cases he

/-- An edge of another list that is not new costs nothing. -/
theorem keeps_updateEdge_other (ha : a ≠ me)
    (hnew : (edges.updateEdge F me a b etx nowMs source updateTimestamp heardOn).2 ≠ .new) :
    Keeps edges (edges.updateEdge F me a b etx nowMs source updateTimestamp heardOn).1 := by
  rcases @updateEdge_cases _ F edges me a b nowMs etx source updateTimestamp heardOn with
    ⟨-, heq⟩ | ⟨u, n, hcreated, hw, hn, heq⟩
  · rw [heq]
    exact .refl edges
  · rw [heq] at hnew ⊢
    cases hcreated with
    | stored =>
      exact (keeps_classifyEnds_other ha).trans
        ((spares_takeEdge hn).keeps fun x y h => hnew h.2.1)
    | @created _ m hnone hid hempty hfind =>
      -- the list of a new owner is empty
      obtain ⟨n', hn', hrows, -⟩ := @classifyEnds_owner _ F u me a b nowMs source m
        (by rw [hfind, if_pos rfl]) hw.2.2.1
      rw [hn', Option.some.injEq] at hn
      subst hn
      exact absurd (writeEdge_empty (by rw [hrows, hempty])) hnew

/-- The owner of the edge is stored, or would push nobody out, if it would not before, or if
it is a placeholder. -/
theorem settled_updateEdge_other (ha : a ≠ me)
    (h : edges.Settled a me ∨ Writable F a b etx ∧ isPlaceholderNode a = true) :
    (edges.updateEdge F me a b etx nowMs source updateTimestamp heardOn).1.Settled a me := by
  rcases @updateEdge_cases _ F edges me a b nowMs etx source updateTimestamp heardOn with
    ⟨hrefused, heq⟩ | ⟨u, n, hcreated, -, -, heq⟩
  · rw [heq]
    rcases h with h | ⟨hw, hplace⟩
    · exact h
    rcases hrefused with h | h | h
    · exact absurd hw h
    · unfold admitOwner at h
      rw [hplace] at h
      split at h
      · cases h
      · cases h
    · cases h with
      | refused hnew hfull hall => exact .inr hall
  · rw [heq]
    refine settled_takeEdge ?_
    have hu : u.Settled a me := .inl hcreated.isSome
    rcases @classifyEnds_other _ F u me a b nowMs source ha with h | ⟨cls, parentHint, h⟩
    · rw [h]
      exact hu
    · rw [h]
      exact hu.setNodeClass

end

/-! ## Our own node -/

/-- Our own node is stored, or there is room for it. -/
def Rooted (edges : EdgeStore) (me : UInt32) : Prop :=
  (edges.findNode me).isSome = true ∨ edges.nodes.rows.length < MAX_GRAPH_NODES

section

variable {edges : EdgeStore} {me nodeId a b nowMs : UInt32}

theorem holds_modifyNode {f : NodeEdges → NodeEdges} {hf} (h : (edges.findNode me).isSome = true) :
    ((edges.modifyNode nodeId f hf).findNode me).isSome = true := by
  unfold modifyNode
  rw [findNode_mapNodes, Option.isSome_map]
  exact h

theorem Created.holds {t : EdgeStore} (h : Created edges nodeId me nowMs (some t))
    (hme : (edges.findNode me).isSome = true) : (t.findNode me).isSome = true := by
  cases h with
  | stored => exact hme
  | created hnew hid hempty hfind =>
    rw [hfind]
    split
    · rfl
    · rw [if_neg pushedOut_ne_me]
      exact hme

theorem holds_removeNodeAt {i : Nat} {v : NodeEdges} (hv : edges.nodes.rows[i]? = some v)
    (hid : v.nodeId ≠ me) (h : (edges.findNode me).isSome = true) :
    ((edges.removeNodeAt i).findNode me).isSome = true := by
  rw [findNode_removeNodeAt hv, if_neg (Ne.symm hid)]
  exact h

theorem findNode_removeNode (h0 : nodeId ≠ 0) :
    (edges.removeNode nodeId).1.findNode a =
      if a = nodeId then none else (edges.findNode a).map fun n => n.filterEdges fun e => e.toNode != nodeId := by
  unfold removeNode
  rw [if_neg (by simpa using h0)]
  dsimp only
  generalize hfiltered : edges.mapNodes (fun n => n.filterEdges fun e => e.toNode != nodeId)
    (fun n => n.filterEdges_nodeId _) = filtered
  have hfind : ∀ a, filtered.findNode a =
      (edges.findNode a).map fun n => n.filterEdges fun e => e.toNode != nodeId := by
    intro a
    rw [← hfiltered, findNode_mapNodes]
  split
  · rename_i hnone
    dsimp only
    split
    · rename_i ha
      subst ha
      unfold findNode
      rw [List.find?_eq_none]
      exact fun n hn => by simpa using List.findIdx?_eq_none_iff.mp hnone n hn
    · exact hfind a
  · rename_i i hi
    obtain ⟨hlt, hkey, -⟩ := List.findIdx?_eq_some_iff_getElem.mp hi
    dsimp only
    rw [findNode_removeNodeAt (List.getElem?_eq_getElem hlt), beq_iff_eq.mp hkey, hfind]

/-- Another node is removed. -/
theorem holds_removeNode (hid : nodeId ≠ me) (h : (edges.findNode me).isSome = true) :
    ((edges.removeNode nodeId).1.findNode me).isSome = true := by
  by_cases h0 : nodeId = 0
  · unfold removeNode
    rw [if_pos (by simpa using h0)]
    exact h
  · rw [findNode_removeNode h0, if_neg (Ne.symm hid), Option.isSome_map]
    exact h

theorem removeNode_length (edges : EdgeStore) (nodeId : UInt32) :
    (edges.removeNode nodeId).1.nodes.rows.length ≤ edges.nodes.rows.length ∧
      ((edges.findNode nodeId).isSome = true → nodeId ≠ 0 →
        (edges.removeNode nodeId).1.nodes.rows.length < edges.nodes.rows.length) := by
  unfold removeNode
  split
  · rename_i h0
    exact ⟨Nat.le_refl _, fun _ hne => absurd (beq_iff_eq.mp h0) hne⟩
  · dsimp only
    generalize hfiltered : edges.mapNodes (fun n => n.filterEdges fun e => e.toNode != nodeId)
      (fun n => n.filterEdges_nodeId _) = filtered
    have hlen : filtered.nodes.rows.length = edges.nodes.rows.length := by
      rw [← hfiltered]
      exact List.length_map _
    have hfind : (filtered.findNode nodeId).isSome = (edges.findNode nodeId).isSome := by
      rw [← hfiltered, findNode_mapNodes, Option.isSome_map]
    split
    · rename_i hnone
      refine ⟨by dsimp only; omega, fun hstored => ?_⟩
      rw [← hfind] at hstored
      obtain ⟨n, hn⟩ := Option.isSome_iff_exists.mp hstored
      obtain ⟨hmem, hid⟩ := findNode_eq_some_iff.mp hn
      have := List.findIdx?_eq_none_iff.mp hnone n hmem
      rw [hid, beq_self_eq_true] at this
      cases this
    · rename_i i hi
      obtain ⟨hlt, -⟩ := List.findIdx?_eq_some_iff_getElem.mp hi
      have hless := removeNodeAt_length hlt
      exact ⟨by dsimp only; omega, fun _ _ => by dsimp only; omega⟩

/-- Whichever node is removed, our own is stored still or there is room for it. -/
theorem Rooted.removeNode (h : edges.Rooted me) : (edges.removeNode nodeId).1.Rooted me := by
  obtain ⟨hle, hlt⟩ := removeNode_length edges nodeId
  rcases h with h | h
  · by_cases hid : nodeId = me
    · subst hid
      by_cases h0 : nodeId = 0
      · unfold EdgeStore.removeNode
        rw [if_pos (by simpa using h0)]
        exact .inl h
      · have hless := hlt h h0
        have hcap := edges.nodes.le
        exact .inr (by omega)
    · exact .inl (holds_removeNode hid h)
  · exact .inr (by omega)

variable {Etx : Type} {F : F32 Etx}

theorem holds_updateEdge {etx : Etx} {source : EdgeSource} {updateTimestamp : Bool} {heardOn : UInt8}
    (h : (edges.findNode me).isSome = true) :
    ((edges.updateEdge F me a b etx nowMs source updateTimestamp heardOn).1.findNode me).isSome =
      true := by
  rcases @updateEdge_cases _ F edges me a b nowMs etx source updateTimestamp heardOn with
    ⟨-, heq⟩ | ⟨u, n, hcreated, -, -, heq⟩
  · rw [heq]
    exact h
  · rw [heq]
    dsimp only
    refine holds_modifyNode ?_
    have hu := hcreated.holds h
    unfold classifyEnds
    split
    · obtain ⟨m, hm⟩ := Option.isSome_iff_exists.mp hu
      have hstays := Option.isSome_iff_exists.mpr ⟨m, @findNode_me_findOrCreateNode u b me nowMs m _ F hm⟩
      dsimp only
      split
      · exact holds_modifyNode hstays
      · exact hstays
    · dsimp only
      split
      · exact holds_modifyNode hu
      · exact hu

/-- An eviction removes another node. -/
theorem holds_evict {edges' : EdgeStore} {ds ds' : Option DownstreamTable}
    (h : edges.evictForCapacity F nowMs me ds = some (edges', ds'))
    (hme : (edges.findNode me).isSome = true) : (edges'.findNode me).isSome = true := by
  unfold evictForCapacity at h
  cases hi : edges.selectEvictionVictim me nowMs with
  | none =>
    rw [hi] at h
    cases h
  | some i =>
    obtain ⟨v, hv, hid, -⟩ := selectEvictionVictim_spec hi
    rw [hi] at h
    dsimp only at h
    rw [hv] at h
    dsimp only at h
    cases hp : edges.pickL1Parent v.nodeId me with
    | none =>
      rw [hp] at h
      cases ds with
      | none =>
        cases h
        exact holds_removeNodeAt hv hid hme
      | some ds => cases h
    | some p =>
      rw [hp] at h
      cases ds with
      | none =>
        cases h
        exact holds_removeNodeAt (by exact hv) hid hme
      | some ds =>
        cases h
        exact holds_removeNodeAt (by exact hv) hid hme

theorem holds_pushNode {n : NodeEdges} (h : (edges.findNode me).isSome = true) :
    ((edges.pushNode n).findNode me).isSome = true := by
  unfold pushNode
  split
  · change ((edges.nodes.rows ++ [n]).find? _).isSome = true
    rw [List.find?_append, Option.isSome_or]
    exact Bool.or_eq_true_iff.mpr (.inl h)
  · exact h

theorem holds_ensurePublisher {cls : NodeClass} {parentHint : UInt32} {ds : DownstreamTable}
    (h : (edges.findNode me).isSome = true) :
    ((edges.ensurePublisher F nodeId cls parentHint nowMs me ds).1.findNode me).isSome = true := by
  unfold ensurePublisher
  split
  · exact h
  split
  · exact h
  split
  · unfold touchNode setNodeClass
    dsimp only
    exact holds_modifyNode (holds_modifyNode h)
  · extract_lets room
    have hroom : ∀ r, room = some r → (r.1.findNode me).isSome = true := by
      intro r hr
      simp only [room] at hr
      split at hr
      · cases hr
        exact h
      · split at hr
        · rename_i hevict
          cases hr
          exact holds_evict hevict h
        · cases hr
    clear_value room
    cases room with
    | none => exact h
    | some r => exact holds_pushNode (hroom r rfl)

/-- A victim other than our node leaves. -/
theorem holds_dropVictim {st : EdgeStore × DownstreamTable × Bool} {victim : UInt32}
    (hid : victim ≠ me) (h : (st.1.findNode me).isSome = true) :
    ((dropVictim F me nowMs st victim).1.findNode me).isSome = true := by
  unfold dropVictim
  cases st.1.pickL1Parent victim me with
  | none => exact holds_removeNode hid h
  | some p => exact holds_removeNode hid h

theorem holds_dropVictims {victims : List UInt32} {st : EdgeStore × DownstreamTable × Bool}
    (hids : ∀ v ∈ victims, v ≠ me) (h : (st.1.findNode me).isSome = true) :
    ((victims.foldl (dropVictim F me nowMs) st).1.findNode me).isSome = true := by
  induction victims generalizing st with
  | nil => exact h
  | cons v victims ih =>
    rw [List.foldl_cons]
    exact ih (fun w hw => hids w (List.mem_cons_of_mem _ hw))
      (holds_dropVictim (hids v List.mem_cons_self) h)

theorem holds_prune {ds : DownstreamTable} (h : (edges.findNode me).isSome = true) :
    ((edges.pruneUnreachableFromRoot F me nowMs ds).1.findNode me).isSome = true := by
  unfold pruneUnreachableFromRoot
  split
  · exact h
  · dsimp only
    refine @holds_dropVictims me nowMs _ F _ (edges, ds, false) (fun v hv => ?_) h
    have hkept := (List.mem_filter.mp hv).2
    rw [Bool.and_eq_true, bne_iff_ne] at hkept
    exact hkept.2

theorem holds_ageEdges {ttlMs : UInt32} {ds : DownstreamTable}
    (h : (edges.findNode me).isSome = true) :
    ((edges.ageEdges F me nowMs ttlMs ds).1.findNode me).isSome = true := by
  unfold ageEdges dropOldEdges
  dsimp only
  generalize hst : List.foldl (dropVictim F me nowMs) _ _ = st
  have hdropped : (st.1.findNode me).isSome = true := by
    rw [← hst]
    refine holds_dropVictims (fun v hv => ?_) ?_
    · obtain ⟨n, hn, rfl⟩ := List.mem_map.mp hv
      have hages := (List.mem_filter.mp hn).2
      unfold ages at hages
      simp only [Bool.and_eq_true, bne_iff_ne] at hages
      exact hages.1.1
    · rw [findNode_mapNodes, Option.isSome_map]
      exact h
  obtain ⟨edges', ds', changed⟩ := st
  dsimp only
  split
  · exact holds_prune hdropped
  · exact hdropped

/-! ### Ageing -/

theorem dropVictims_changed {victims : List UInt32} {st : EdgeStore × DownstreamTable × Bool}
    (h : st.2.2 = true) : (victims.foldl (dropVictim F me nowMs) st).2.2 = true := by
  induction victims generalizing st with
  | nil => exact h
  | cons v victims ih =>
    refine ih ?_
    change ((removeNode _ v).2 || st.2.2) = true
    rw [h, Bool.or_true]

theorem removeNode_stored (h0 : nodeId ≠ 0) (h : (edges.findNode nodeId).isSome = true) :
    (edges.removeNode nodeId).2 = true := by
  obtain ⟨-, hlt⟩ := removeNode_length edges nodeId
  have hless := hlt h h0
  unfold removeNode at hless ⊢
  rw [if_neg (by simpa using h0)] at hless ⊢
  dsimp only at hless ⊢
  split
  · rename_i hnone
    rw [hnone] at hless
    change (edges.nodes.rows.map _).length < _ at hless
    rw [List.length_map] at hless
    exact absurd hless (Nat.lt_irrefl _)
  · rfl

/-- What ageing does not report, it does not do: a stored victim is removed. -/
theorem dropVictims_unchanged {victims : List UInt32} {st : EdgeStore × DownstreamTable × Bool}
    (hstored : ∀ v ∈ victims, (st.1.findNode v).isSome = true)
    (h : (victims.foldl (dropVictim F me nowMs) st).2.2 = false) :
    SameEdges st.1 (victims.foldl (dropVictim F me nowMs) st).1 ∧ st.2.2 = false := by
  induction victims generalizing st with
  | nil => exact ⟨.refl st.1, h⟩
  | cons v victims ih =>
    rw [List.foldl_cons] at h ⊢
    -- what is handed over does not touch the nodes
    obtain ⟨edges', ds', hnodes, hdrop⟩ : ∃ (edges' : EdgeStore) (ds' : DownstreamTable),
        edges'.nodes = st.1.nodes ∧ dropVictim F me nowMs st v =
          ((edges'.removeNode v).1, ds', (edges'.removeNode v).2 || st.2.2) := by
      unfold dropVictim
      cases st.1.pickL1Parent v me with
      | none => exact ⟨st.1, _, rfl, rfl⟩
      | some p => exact ⟨(st.1.applyDemotion F me ⟨v, p.1, p.2⟩ nowMs st.2.1).1, _, rfl, rfl⟩
    have hfind : ∀ a, edges'.findNode a = st.1.findNode a := fun a => findNode_congr hnodes
    by_cases h0 : v = 0
    · have hsame : (dropVictim F me nowMs st v).1 = edges' ∧
          (dropVictim F me nowMs st v).2.2 = st.2.2 := by
        rw [hdrop, h0]
        exact ⟨rfl, Bool.false_or _⟩
      obtain ⟨hedges, hflag⟩ := ih (fun w hw => by
        rw [hsame.1, hfind]
        exact hstored w (List.mem_cons_of_mem _ hw)) h
      refine ⟨fun a b => ?_, hsame.2 ▸ hflag⟩
      rw [hedges a b, hsame.1]
      unfold edge
      rw [hfind]
    · have hremoved := removeNode_stored h0 ((hfind v).symm ▸ hstored v List.mem_cons_self)
      have hchanged : (dropVictim F me nowMs st v).2.2 = true := by
        rw [hdrop, hremoved]
        rfl
      rw [dropVictims_changed hchanged] at h
      cases h

/-- Ageing that changes nothing keeps every edge. -/
theorem keeps_ageEdges {ttlMs : UInt32} {ds : DownstreamTable}
    (h : (edges.ageEdges F me nowMs ttlMs ds).2.2 = false) :
    Keeps edges (edges.ageEdges F me nowMs ttlMs ds).1 := by
  unfold ageEdges dropOldEdges at h ⊢
  dsimp only at h ⊢
  generalize hfiltered : edges.mapNodes _ _ = filtered at h ⊢
  generalize hold : (edges.nodes.rows.any _) = old at h ⊢
  generalize hst : List.foldl (dropVictim F me nowMs) _ _ = st at h ⊢
  obtain ⟨edges', ds', changed⟩ := st
  cases changed with
  | true => cases h
  | false =>
    have hflag := congrArg (fun st => st.2.2) hst
    obtain ⟨hsame, hnone⟩ := dropVictims_unchanged (fun v hv => by
      obtain ⟨n, hn, rfl⟩ := List.mem_map.mp hv
      exact Option.isSome_iff_exists.mpr
        ⟨n, findNode_eq_some_iff.mpr ⟨(List.mem_filter.mp hn).1, rfl⟩⟩) hflag
    rw [hst] at hsame
    dsimp only at hsame hnone ⊢
    subst hnone
    refine Keeps.trans (fun a b he => ?_) hsame.keeps
    obtain ⟨e, he⟩ := Option.isSome_iff_exists.mp he
    obtain ⟨n, hn, hedge⟩ := edge_eq_some_iff.mp he
    have hkeep := List.any_eq_false.mp hold n (findNode_eq_some_iff.mp hn).1
    rw [List.any_eq_true] at hkeep
    rw [← hfiltered]
    unfold edge
    rw [findNode_mapNodes, hn, Option.map_some, Option.bind_some, Option.isSome_iff_exists]
    refine ⟨e, NodeEdges.findEdge_filterEdges.mpr ⟨hedge, ?_⟩⟩
    by_contra hdrop
    exact hkeep ⟨e, (NodeEdges.findEdge_eq_some_iff.mp hedge).1, by simpa using hdrop⟩

/-- Our own node pushes nobody out. -/
theorem Rooted.ensureLocalNode (F : F32 Etx) (h : edges.Rooted me) :
    SameEdges edges (edges.ensureLocalNode F me nowMs) ∧
      ((edges.ensureLocalNode F me nowMs).findNode me).isSome = true := by
  constructor
  · refine (same_ensureLocalNode_iff F).mpr fun n hn => ?_
    unfold evictedForUs at hn
    rcases h with h | h
    · rw [h] at hn
      cases hn
    · rw [decide_eq_true h, Bool.or_true] at hn
      cases hn
  · unfold EdgeStore.ensureLocalNode
    split
    · rename_i hnone
      have hcreated := findOrCreateNode_created F edges me nowMs me
      cases hc : edges.findOrCreateNode F me nowMs me with
      | none =>
        rw [hc] at hcreated
        cases hcreated with
        | refused hnew hfull =>
          rcases h with h | h
          · rw [hnew] at h
            cases h
          · exact absurd h hfull
      | some t =>
        rw [hc] at hcreated
        exact hcreated.isSome
    · rename_i hsome
      rw [Bool.not_eq_true, Option.isNone_eq_false_iff] at hsome
      exact hsome

end

end EdgeStore

end Meshrustic.Topology
