import Meshrustic.Topology.Evidence
import Meshrustic.Topology.Observe

/-!
# Resolving a placeholder (`mesh-routing/src/neighbor_graph.rs`)

A placeholder stands for a relay that is known by one byte, until the node of that byte
is heard. Then its edge and its rows are to be the node's. They are written before the
placeholder's own are removed, so each write looks for room as if it were a new one: in
a full list, a full store or a full table it gives up what a renaming would keep, or
refuses.

Results:
* `EdgeStore.Copied`: what copying our edge does to the store;
* `NeighborGraph.resolve_renames`: when the placeholder is renamed, and no more.
-/
namespace Meshrustic.Topology

open Meshrustic.Graph Meshrustic.Relay

/-! ## Lists -/

section

variable {Etx : Type} {F : F32 Etx} {n : NodeEdges} {b y nowMs : UInt32} {etx : Etx}
  {source : EdgeSource} {updateTimestamp : Bool} {heardOn : UInt8}

namespace NodeEdges

theorem findEdge_pushEdge (hids : n.nodeId ≠ 0) {e : Edge} (hto : e.toNode ≠ 0 ∧ e.toNode ≠ n.nodeId)
    (hnew : n.findEdge e.toNode = none) (hroom : n.edges.rows.length < MAX_EDGES_PER_NODE) :
    (n.pushEdge e).findEdge y = if y = e.toNode then some e else n.findEdge y := by
  have hmem : e.toNode ∉ n.edges.rows.map (·.toNode) := by
    intro hmem
    obtain ⟨e', he', hto'⟩ := List.mem_map.mp hmem
    have hfound := findEdge_eq_some_iff.mpr ⟨he', hto'⟩
    rw [hnew] at hfound
    cases hfound
  unfold pushEdge
  rw [dif_pos ⟨hids, hto.1, hto.2, hmem, hroom⟩]
  unfold Graph.NodeEdges.findEdge at hnew ⊢
  rw [List.find?_append]
  split
  · rename_i hy
    rw [hy, hnew]
    simp
  · rename_i hy
    cases n.edges.rows.find? fun e => e.toNode == y with
    | some e' => rfl
    | none => simp [Ne.symm hy]

theorem findEdge_replaceEdge (hids : n.nodeId ≠ 0) {e v : Edge} {i : Nat}
    (hto : e.toNode ≠ 0 ∧ e.toNode ≠ n.nodeId) (hnew : n.findEdge e.toNode = none)
    (hv : n.edges.rows[i]? = some v) :
    (n.replaceEdge i e).findEdge y =
      if y = e.toNode then some e else if y = v.toNode then none else n.findEdge y := by
  have hmem : e.toNode ∉ n.edges.rows.map (·.toNode) := by
    intro hmem
    obtain ⟨e', he', hto'⟩ := List.mem_map.mp hmem
    have hfound := findEdge_eq_some_iff.mpr ⟨he', hto'⟩
    rw [hnew] at hfound
    cases hfound
  have hvmem := List.mem_of_getElem? hv
  have hrows : (n.replaceEdge i e).edges.rows = n.edges.rows.set i e := by
    unfold replaceEdge
    rw [dif_pos ⟨hids, hto.1, hto.2, hmem⟩]
    rfl
  have hother : ∀ x : Edge, x ≠ e → x ≠ v → (x ∈ n.edges.rows.set i e ↔ x ∈ n.edges.rows) :=
    fun x hx hx' => mem_set_other hv hx hx'
  refine Option.ext fun x => ?_
  rw [findEdge_eq_some_iff, hrows]
  split
  · rename_i hy
    subst hy
    rw [Option.some.injEq]
    constructor
    · rintro ⟨hx, hxto⟩
      rcases List.mem_or_eq_of_mem_set hx with hx | rfl
      · exact absurd (List.mem_map.mpr ⟨x, hx, hxto⟩) hmem
      · rfl
    · rintro rfl
      obtain ⟨hi, -⟩ := List.getElem?_eq_some_iff.mp hv
      exact ⟨List.mem_set hi _, rfl⟩
  rename_i hy
  split
  · rename_i hyv
    subst hyv
    simp only [reduceCtorEq, iff_false, not_and]
    intro hx hxto
    have hxne : x ≠ e := by
      rintro rfl
      exact hy hxto.symm
    have hxn : x ∈ n.edges.rows := (List.mem_or_eq_of_mem_set hx).resolve_right hxne
    have hxv : x = v := by
      have h₁ := findEdge_eq_some_iff.mpr ⟨hxn, hxto⟩
      rw [findEdge_eq_some_iff.mpr ⟨hvmem, rfl⟩, Option.some.injEq] at h₁
      exact h₁.symm
    subst hxv
    have hnodup : n.edges.rows.Nodup := List.Nodup.of_map _ n.nodup
    exact not_mem_set hnodup hv hxne hx
  · rename_i hyv
    rw [findEdge_eq_some_iff]
    refine and_congr_left fun hxto => hother x ?_ ?_
    · rintro rfl
      exact hy hxto.symm
    · rintro rfl
      exact hyv hxto.symm

end NodeEdges

namespace EdgeStore

/-- What a list takes an edge for is the edge crowded out, if any. -/
theorem findEdge_writeEdge_other (hids : n.nodeId ≠ 0) (hb : b ≠ 0 ∧ b ≠ n.nodeId) (hy : y ≠ b) :
    (writeEdge F n b etx nowMs source updateTimestamp heardOn).1.findEdge y =
      if n.findEdge b = none ∧ crowdedOut F n etx nowMs source = some y then none
      else n.findEdge y := by
  unfold writeEdge
  dsimp only
  split
  · rename_i e he
    have hknown : ¬(n.findEdge b = none ∧ crowdedOut F n etx nowMs source = some y) := by
      rw [he]
      exact fun h => by cases h.1
    rw [if_neg hknown]
    split
    · rfl
    · dsimp only
      rw [NodeEdges.findEdge_mapEdges]
      cases hfound : n.findEdge y with
      | none => rfl
      | some e' =>
        have hto := (NodeEdges.findEdge_eq_some_iff.mp hfound).2
        rw [Option.map_some, if_neg (by simpa [hto] using hy)]
  · rename_i hnew
    unfold crowdedOut
    split
    · rename_i hroom
      rw [if_neg (by simp), NodeEdges.findEdge_pushEdge hids hb hnew hroom, if_neg hy]
    · split
      · rename_i hworst
        rw [if_neg (by simp [hworst])]
      · rename_i i score hworst
        obtain ⟨v, hv, -⟩ := NodeEdges.worstEdge_rank F hworst
        rw [hworst, Option.bind_some, hv, Option.map_some]
        dsimp only
        split
        · rename_i hbelow
          rw [if_neg (by
            rw [Bool.not_eq_true'] at hbelow
            simp [hbelow])]
        · rename_i hbelow
          rw [NodeEdges.findEdge_replaceEdge hids hb hnew hv, if_neg hy]
          refine if_congr ?_ rfl rfl
          rw [Bool.not_eq_true', Bool.not_eq_false] at hbelow
          rw [if_pos hbelow, Option.some.injEq, eq_comm]
          exact (and_iff_right hnew).symm

theorem findEdge_takeEdge_other (hids : n.nodeId ≠ 0) (hb : b ≠ 0 ∧ b ≠ n.nodeId) (hy : y ≠ b) :
    (takeEdge F n b etx nowMs source updateTimestamp heardOn).findEdge y =
      if n.findEdge b = none ∧ crowdedOut F n etx nowMs source = some y then none
      else n.findEdge y := by
  unfold takeEdge
  cases updateTimestamp with
  | false => exact findEdge_writeEdge_other hids hb hy
  | true => exact @findEdge_writeEdge_other _ F (n.touched nowMs) b y nowMs etx source true heardOn hids hb hy

/-- An edge that the list knows under no higher rank, or that it has room for or gives one up
for, is there. -/
theorem findEdge_writeEdge_self (hids : n.nodeId ≠ 0) (hb : b ≠ 0 ∧ b ≠ n.nodeId)
    (hrank : ∀ e, n.findEdge b = some e → e.source.rank ≤ source.rank) :
    ((n.findEdge b).isSome = true ∨ takesNew F n etx nowMs source = true →
      ∃ e, (writeEdge F n b etx nowMs source updateTimestamp heardOn).1.findEdge b = some e ∧
        e.source = source ∧ e.hearsUs = (n.findEdge b).any (·.hearsUs)) ∧
      (n.findEdge b = none → takesNew F n etx nowMs source = false →
        (writeEdge F n b etx nowMs source updateTimestamp heardOn).1.findEdge b = none) := by
  unfold writeEdge takesNew
  dsimp only
  split
  · rename_i e he
    rw [he]
    refine ⟨fun _ => ?_, fun hnone => by cases hnone⟩
    have hto := (NodeEdges.findEdge_eq_some_iff.mp he).2
    have hle := hrank e he
    rw [if_neg (by omega)]
    dsimp only
    rw [NodeEdges.findEdge_mapEdges, he, Option.map_some, if_pos (by simpa using hto)]
    exact ⟨_, rfl, rfl, rfl⟩
  · rename_i hnew
    rw [hnew]
    by_cases hroom : n.edges.rows.length < MAX_EDGES_PER_NODE
    · rw [if_pos hroom, decide_eq_true hroom]
      refine ⟨fun _ => ?_, fun _ hfull => by cases hfull⟩
      rw [NodeEdges.findEdge_pushEdge hids hb hnew hroom, if_pos rfl]
      exact ⟨_, rfl, rfl, rfl⟩
    · rw [if_neg hroom, decide_eq_false hroom, Bool.false_or]
      split
      · rename_i hworst
        rw [hworst]
        refine ⟨?_, fun _ _ => hnew⟩
        rintro (h | h) <;> cases h
      · rename_i i score hworst
        obtain ⟨v, hv, -⟩ := NodeEdges.worstEdge_rank F hworst
        rw [hworst, Option.any_some]
        dsimp only
        cases hbelow : F.below etx score with
        | false =>
          refine ⟨?_, fun _ _ => hnew⟩
          rintro (h | h) <;> cases h
        | true =>
          refine ⟨fun _ => ?_, fun _ h => by cases h⟩
          rw [if_neg (by simp), NodeEdges.findEdge_replaceEdge hids hb hnew hv, if_pos rfl]
          exact ⟨_, rfl, rfl, rfl⟩

theorem findEdge_takeEdge_self (hids : n.nodeId ≠ 0) (hb : b ≠ 0 ∧ b ≠ n.nodeId)
    (hrank : ∀ e, n.findEdge b = some e → e.source.rank ≤ source.rank) :
    ((n.findEdge b).isSome = true ∨ takesNew F n etx nowMs source = true →
      ∃ e, (takeEdge F n b etx nowMs source updateTimestamp heardOn).findEdge b = some e ∧
        e.source = source ∧ e.hearsUs = (n.findEdge b).any (·.hearsUs)) ∧
      (n.findEdge b = none → takesNew F n etx nowMs source = false →
        (takeEdge F n b etx nowMs source updateTimestamp heardOn).findEdge b = none) := by
  unfold takeEdge
  cases updateTimestamp with
  | false => exact findEdge_writeEdge_self hids hb hrank
  | true =>
    exact @findEdge_writeEdge_self _ F (n.touched nowMs) b nowMs etx source true heardOn hids hb hrank

end EdgeStore

end

/-! ## Stores -/

namespace EdgeStore

section

variable {edges edges' : EdgeStore} {me r x nowMs : UInt32}

/-- Who gives way is stored, and neither ours nor the new node. -/
theorem pushedOut_stored (h : edges.pushedOut r me nowMs = some x) :
    edges.findNode r = none ∧ (∃ n, edges.findNode x = some n) ∧ x ≠ me ∧ x ≠ r := by
  have hme : x ≠ me := by
    rintro rfl
    exact pushedOut_ne_me h
  unfold pushedOut at h
  split at h
  · cases h
  rename_i hnew
  simp only [Bool.or_eq_true, decide_eq_true_eq, not_or, Bool.not_eq_true, Option.isSome_eq_false_iff,
    Option.isNone_iff_eq_none] at hnew
  obtain ⟨i, hi, hrow⟩ := Option.bind_eq_some_iff.mp h
  obtain ⟨v, hv, rfl⟩ := Option.map_eq_some_iff.mp hrow
  have hfound := findNode_eq_some_iff.mpr ⟨List.mem_of_getElem? hv, rfl⟩
  refine ⟨hnew.1, ⟨v, hfound⟩, hme, ?_⟩
  intro heq
  rw [heq, hnew.1] at hfound
  cases hfound

/-- Making a node costs the one that gives way. -/
theorem Created.findNode_other {o : Option EdgeStore} (h : Created edges r me nowMs o) (hx : x ≠ r) :
    (o.getD edges).findNode x =
      if edges.pushedOut r me nowMs = some x then none else edges.findNode x := by
  cases h with
  | stored h =>
    have hsettled : edges.Settled r me := .inl h
    rw [hsettled.pushedOut, if_neg (by simp)]
    rfl
  | refused hnew hfull hall =>
    have hsettled : edges.Settled r me := .inr hall
    rw [hsettled.pushedOut, if_neg (by simp)]
    rfl
  | created hnew hid hempty hfind =>
    rw [Option.getD_some, hfind, if_neg hx]

theorem Created.edge {o : Option EdgeStore} (h : Created edges r me nowMs o) (a y : UInt32) :
    (o.getD edges).edge a y = if edges.pushedOut r me nowMs = some a then none else edges.edge a y := by
  by_cases ha : a = r
  · subst ha
    rw [if_neg fun hout => (pushedOut_stored hout).2.2.2 rfl]
    cases h with
    | stored => rfl
    | refused => rfl
    | created hnew hid hempty hfind =>
      unfold EdgeStore.edge Graph.NodeEdges.findEdge
      rw [Option.getD_some, hfind, if_pos rfl, hnew, Option.bind_some, hempty]
      rfl
  · unfold EdgeStore.edge
    rw [h.findNode_other ha]
    split <;> rfl

theorem mem_pushNode {n m : NodeEdges} (h : m ∈ (edges.pushNode n).nodes.rows) :
    m ∈ edges.nodes.rows ∨ m = n := by
  unfold pushNode at h
  split at h
  · exact (List.mem_append.mp h).imp_right List.mem_singleton.mp
  · exact .inl h

/-- A node that is made has no hint. -/
theorem findNode_fresh {Etx : Type} (F : F32 Etx) {n : NodeEdges} (hnew : edges.findNode r = none)
    (h : edges.findOrCreateNode F r nowMs me = some edges') (hn : edges'.findNode r = some n) :
    n.parentHint = 0 := by
  unfold findOrCreateNode at h
  rw [if_neg (by simp [hnew])] at h
  obtain ⟨t, ht, rfl⟩ := Option.map_eq_some_iff.mp h
  have hnone : t.findNode r = none := by
    split at ht
    · cases ht
      exact hnew
    · obtain ⟨v, hevict, rfl⟩ := Option.map_eq_some_iff.mp ht
      obtain ⟨i, w, -, hw, hnodes⟩ := evict_nodes F hevict
      rw [findNode_congr hnodes, findNode_removeNodeAt hw, hnew]
      split <;> rfl
  obtain ⟨hmem, hid⟩ := findNode_eq_some_iff.mp hn
  rcases mem_pushNode hmem with hmem | rfl
  · rw [findNode_eq_some_iff.mpr ⟨hmem, hid⟩] at hnone
    cases hnone
  · rfl

/-- What copying our edge to a placeholder does to the store: the node `out` gives way,
and in our list the edge to `crowd`; if it `relabels` it, `r` has no hint left. Our edge to
`r` is left open. -/
structure Copied (me r : UInt32) (relabels : Bool) (out crowd : Option UInt32)
    (edges edges' : EdgeStore) : Prop where
  nodes : ∀ x, x ≠ me → x ≠ r → edges'.findNode x = if out = some x then none else edges.findNode x
  hinted : ∀ x n', edges'.findNode x = some n' → n'.parentHint = 0 ∨
    ∃ n, edges.findNode x = some n ∧ out ≠ some x ∧ ¬(x = r ∧ relabels = true) ∧
      n.parentHint = n'.parentHint
  kept : ∀ x n, edges.findNode x = some n → out ≠ some x → ¬(x = r ∧ relabels = true) →
    ∃ n', edges'.findNode x = some n' ∧ n'.parentHint = n.parentHint
  lists : ∀ a y, (a = me → y ≠ r) →
    edges'.edge a y = if out = some a ∨ a = me ∧ crowd = some y then none else edges.edge a y

theorem Copied.refl (edges : EdgeStore) : Copied me r false none none edges edges where
  nodes _ _ _ := rfl
  hinted _ n' hn' := .inr ⟨n', hn', by simp, by simp, rfl⟩
  kept _ n hn _ _ := ⟨n, hn, rfl⟩
  lists _ _ _ := by simp

theorem Copied.setEdgeHearsUs {relabels : Bool} {out crowd : Option UInt32}
    (h : Copied me r relabels out crowd edges edges') (hearsUs : Bool) :
    Copied me r relabels out crowd edges (edges'.setEdgeHearsUs me r hearsUs) := by
  unfold EdgeStore.setEdgeHearsUs
  constructor
  · intro x hx hxr
    rw [findNode_modifyNode_other _ _ hx]
    exact h.nodes x hx hxr
  · intro x n' hn'
    unfold modifyNode at hn'
    rw [findNode_mapNodes] at hn'
    obtain ⟨n, hn, rfl⟩ := Option.map_eq_some_iff.mp hn'
    have hhint := h.hinted x n hn
    split
    · exact hhint
    · exact hhint
  · intro x n hn hout hlabel
    obtain ⟨n', hn', hhint⟩ := h.kept x n hn hout hlabel
    unfold modifyNode
    rw [findNode_mapNodes, hn', Option.map_some]
    refine ⟨_, rfl, ?_⟩
    split
    · exact hhint
    · exact hhint
  · intro a y ha
    rw [← h.lists a y ha]
    by_cases hame : a = me
    · subst hame
      unfold EdgeStore.edge
      rw [findNode_modifyNode_self]
      cases edges'.findNode a with
      | none => rfl
      | some n =>
        rw [Option.map_some, Option.bind_some, Option.bind_some, NodeEdges.findEdge_mapEdges]
        cases hfound : n.findEdge y with
        | none => rfl
        | some e =>
          have hto := (NodeEdges.findEdge_eq_some_iff.mp hfound).2
          rw [Option.map_some, if_neg (by simpa [hto] using ha rfl)]
    · unfold EdgeStore.edge
      rw [findNode_modifyNode_other _ _ hame]

section

variable {Etx : Type} (F : F32 Etx) {n : NodeEdges} {etx : Etx} {updateTimestamp : Bool}
  {heardOn : UInt8}

/-- Our own node is made, with an empty list. -/
theorem copied_ensureLocalNode (hnew : edges.findNode me = none) :
    Copied me r false (edges.pushedOut me me nowMs) none edges (edges.ensureLocalNode F me nowMs) := by
  unfold ensureLocalNode
  rw [if_pos (by simp [hnew])]
  have hcreated := findOrCreateNode_created F edges me nowMs me
  constructor
  · exact fun x hx _ => hcreated.findNode_other hx
  · intro x n' hn'
    by_cases hx : x = me
    · subst hx
      left
      cases hc : edges.findOrCreateNode F x nowMs x with
      | none =>
        rw [hc, Option.getD_none, hnew] at hn'
        cases hn'
      | some t =>
        rw [hc, Option.getD_some] at hn'
        exact findNode_fresh F hnew hc hn'
    · right
      rw [hcreated.findNode_other hx] at hn'
      split at hn'
      · cases hn'
      · rename_i hout
        exact ⟨n', hn', hout, by simp, rfl⟩
  · intro x n hn hout _
    have hx : x ≠ me := by
      rintro rfl
      rw [hnew] at hn
      cases hn
    rw [hcreated.findNode_other hx, if_neg hout]
    exact ⟨n, hn, rfl⟩
  · intro a y _
    rw [hcreated.edge a y]
    simp

theorem classifyEnds_mine :
    edges.classifyEnds F me me r nowMs .reported =
      ((edges.findOrCreateNode F r nowMs me).getD edges).setL1 r := by
  unfold classifyEnds
  rw [if_pos (beq_self_eq_true me)]
  rfl

/-- The list of ours after an edge of ours. -/
theorem edge_updateEdge_mine (hme : edges.findNode me = some n) (hw : Writable F me r etx) (y : UInt32) :
    (edges.updateEdge F me me r etx nowMs .reported updateTimestamp heardOn).1.edge me y =
      (takeEdge F n r etx nowMs .reported updateTimestamp heardOn).findEdge y := by
  obtain ⟨m, hm, -, heq⟩ := @classifyEnds_owner _ F edges me me r nowMs .reported n hme hw.2.2.1
  rw [updateEdge_mine hme hw]
  unfold EdgeStore.edge
  rw [findNode_modifyNode_self, hm, heq rfl]
  rfl

/-- Our edge to `r` is written. -/
theorem copied_updateEdge (hme : edges.findNode me = some n) (hw : Writable F me r etx) :
    Copied me r true (edges.pushedOut r me nowMs)
      (if (n.findEdge r).isNone then crowdedOut F n etx nowMs .reported else none) edges
      (edges.updateEdge F me me r etx nowMs .reported updateTimestamp heardOn).1 := by
  have hcreated := findOrCreateNode_created F edges r nowMs me
  have hids : n.nodeId = me := (findNode_eq_some_iff.mp hme).2
  have hne : me ≠ r := hw.2.2.1
  have heq := @updateEdge_mine _ F edges me r nowMs etx .reported updateTimestamp heardOn n hme hw
  have hedge := @edge_updateEdge_mine edges me r nowMs _ F n etx updateTimestamp heardOn hme hw
  rw [classifyEnds_mine] at heq
  rw [heq] at hedge ⊢
  dsimp only at hedge ⊢
  -- our own list, the other end, and everybody else
  have hmine : ∀ n', (((edges.findOrCreateNode F r nowMs me).getD edges).setL1 r |>.modifyNode me
      (fun n => takeEdge F n r etx nowMs .reported updateTimestamp heardOn)
      fun n => takeEdge_nodeId F n r etx nowMs .reported updateTimestamp heardOn).findNode me = some n' ↔
        n' = takeEdge F n r etx nowMs .reported updateTimestamp heardOn := by
    intro n'
    unfold setL1
    rw [findNode_modifyNode_self, findNode_modifyNode_other _ _ hne,
      findNode_me_findOrCreateNode F hme, Option.map_some, Option.some.injEq, eq_comm]
  have hend : ∀ n', (((edges.findOrCreateNode F r nowMs me).getD edges).setL1 r |>.modifyNode me
      (fun n => takeEdge F n r etx nowMs .reported updateTimestamp heardOn)
      fun n => takeEdge_nodeId F n r etx nowMs .reported updateTimestamp heardOn).findNode r = some n' →
        n'.parentHint = 0 := by
    intro n' hn'
    unfold setL1 at hn'
    rw [findNode_modifyNode_other _ _ (Ne.symm hne), findNode_modifyNode_self] at hn'
    obtain ⟨m, -, rfl⟩ := Option.map_eq_some_iff.mp hn'
    rfl
  have hothers : ∀ x, x ≠ me → x ≠ r → (((edges.findOrCreateNode F r nowMs me).getD edges).setL1 r
      |>.modifyNode me (fun n => takeEdge F n r etx nowMs .reported updateTimestamp heardOn)
      fun n => takeEdge_nodeId F n r etx nowMs .reported updateTimestamp heardOn).findNode x =
        if edges.pushedOut r me nowMs = some x then none else edges.findNode x := by
    intro x hx hxr
    unfold setL1
    rw [findNode_modifyNode_other _ _ hx, findNode_modifyNode_other _ _ hxr]
    exact hcreated.findNode_other hxr
  constructor
  · exact hothers
  · intro x n' hn'
    by_cases hx : x = me
    · subst hx
      right
      rw [(hmine n').mp hn']
      exact ⟨n, hme, pushedOut_ne_me, fun h => hne h.1, (takeEdge_header n).2.symm⟩
    · by_cases hxr : x = r
      · subst hxr
        exact .inl (hend n' hn')
      · right
        rw [hothers x hx hxr] at hn'
        split at hn'
        · cases hn'
        · rename_i hout
          exact ⟨n', hn', hout, fun h => hxr h.1, rfl⟩
  · intro x m hm hout hlabel
    have hxr : x ≠ r := fun h => hlabel ⟨h, rfl⟩
    by_cases hx : x = me
    · subst hx
      rw [hme, Option.some.injEq] at hm
      subst hm
      exact ⟨_, (hmine _).mpr rfl, (takeEdge_header n).2⟩
    · rw [hothers x hx hxr, if_neg hout]
      exact ⟨m, hm, rfl⟩
  · intro a y ha
    by_cases hame : a = me
    · subst hame
      have hold : edges.edge a y = n.findEdge y := by
        unfold EdgeStore.edge
        rw [hme, Option.bind_some]
      rw [hedge y, hold, findEdge_takeEdge_other (hids ▸ hw.2.1) ⟨hw.1, hids ▸ Ne.symm hne⟩ (ha rfl)]
      refine if_congr ?_ rfl rfl
      cases n.findEdge r with
      | none => simp [pushedOut_ne_me]
      | some e => simp [pushedOut_ne_me]
    · have hlist := (@sameEdges_setL1 ((edges.findOrCreateNode F r nowMs me).getD edges) r) a y
      rw [hcreated.edge a y] at hlist
      simp only [hame, false_and, or_false]
      rw [← hlist]
      unfold EdgeStore.edge
      rw [findNode_modifyNode_other _ _ hame]

end

end

/-! ## A node is forgotten -/

section

variable {edges : EdgeStore} {p x : UInt32}

/-- The edges to a node and the node itself are removed. -/
theorem findNode_forget (hp : p ≠ 0) :
    ((edges.removeEdgesTo p).removeNode p).1.findNode x = if x = p then none else
      (edges.findNode x).map fun n =>
        (n.filterEdges fun e => e.toNode != p).filterEdges fun e => e.toNode != p := by
  rw [findNode_removeNode hp]
  unfold removeEdgesTo
  rw [findNode_mapNodes, Option.map_map]
  rfl

theorem edge_forget (hp : p ≠ 0) (a b : UInt32) :
    ((edges.removeEdgesTo p).removeNode p).1.edge a b =
      if a = p ∨ b = p then none else edges.edge a b := by
  unfold edge
  rw [findNode_forget hp]
  by_cases ha : a = p
  · rw [if_pos ha, if_pos (.inl ha)]
    rfl
  · rw [if_neg ha]
    cases edges.findNode a with
    | none =>
      rw [Option.map_none, Option.bind_none]
      split <;> rfl
    | some n =>
      rw [Option.map_some, Option.bind_some, Option.bind_some]
      refine Option.ext fun e => ?_
      rw [NodeEdges.findEdge_filterEdges, NodeEdges.findEdge_filterEdges]
      split
      · rename_i hb
        simp only [reduceCtorEq, iff_false, not_and]
        rintro ⟨hfound, hkept⟩
        rw [(NodeEdges.findEdge_eq_some_iff.mp hfound).2] at hkept
        exact absurd (hb.resolve_left ha) (by simpa using hkept)
      · rename_i hb
        have hkept : n.findEdge b = some e → (e.toNode != p) = true := by
          intro hfound
          rw [(NodeEdges.findEdge_eq_some_iff.mp hfound).2]
          simpa using fun h => hb (.inr h)
        tauto

end

/-! ## Our edge to the placeholder -/

section

variable {Etx : Type} (F : F32 Etx) (edges : EdgeStore) (me p r nowMs : UInt32)

/-- Our edge to the placeholder is copied, its price being one. -/
def copies : Bool := (edges.edge me p).any fun e => F.positive (F.ofFixed e.etxFixed)

/-- The node that gives way for ours, or for the one that the placeholder is. -/
def gaveWay : Option UInt32 :=
  if (edges.findNode me).isNone then edges.pushedOut me me nowMs
  else if edges.copies F me p then edges.pushedOut r me nowMs
  else none

/-- The edge of ours that gives way to the copy. -/
def crowdedByCopy : Option UInt32 :=
  match edges.findNode me, edges.edge me p with
  | some n, some e =>
    if F.positive (F.ofFixed e.etxFixed) && (n.findEdge r).isNone then
      crowdedOut F n (F.ofFixed e.etxFixed) nowMs .reported
    else none
  | _, _ => none

/-- Our list holds a measured edge to `r` already, or it takes the copy. -/
def takesCopy (n : NodeEdges) (e : Edge) : Bool :=
  ((n.findEdge r).any fun e => e.source == .reported) ||
    F.positive (F.ofFixed e.etxFixed) &&
      ((n.findEdge r).isSome || takesNew F n (F.ofFixed e.etxFixed) nowMs .reported)

end

end EdgeStore

namespace NeighborGraph

section

variable {Etx : Type} {F : F32 Etx} {g : NeighborGraph} {p r nowMs : UInt32}

theorem copyEdge_copied (hpr : p ≠ r) (hr : r ≠ 0 ∧ r ≠ g.myNode) :
    EdgeStore.Copied g.myNode r (g.edges.copies F g.myNode p) (g.edges.gaveWay F g.myNode p r nowMs)
      (g.edges.crowdedByCopy F g.myNode p r nowMs) g.edges
      ((g.withLocalNode F nowMs).copyEdge F p r nowMs).edges := by
  unfold EdgeStore.copies EdgeStore.gaveWay EdgeStore.crowdedByCopy
  cases hme : g.edges.findNode g.myNode with
  | none =>
    -- our node is made, and its list is empty
    have hlocal := @EdgeStore.copied_ensureLocalNode g.edges g.myNode r nowMs _ F hme
    have hnone : g.edges.edge g.myNode p = none := by
      unfold EdgeStore.edge
      rw [hme]
      rfl
    have hnone' : (g.edges.ensureLocalNode F g.myNode nowMs).edge g.myNode p = none := by
      rw [hlocal.lists g.myNode p fun _ => hpr, hnone]
      split <;> rfl
    unfold copyEdge withLocalNode
    dsimp only
    rw [hnone', hnone]
    exact hlocal
  | some n =>
    have hlocal : g.withLocalNode F nowMs = g := by
      unfold withLocalNode EdgeStore.ensureLocalNode
      rw [hme]
      rfl
    rw [hlocal]
    unfold EdgeStore.copies copyEdge
    cases he : g.edges.edge g.myNode p with
    | none => exact .refl g.edges
    | some e =>
      have hids : g.myNode ≠ 0 := by
        obtain ⟨m, hm, hedge⟩ := EdgeStore.edge_eq_some_iff.mp he
        obtain ⟨hmem, -⟩ := NodeEdges.findEdge_eq_some_iff.mp hedge
        rw [← (EdgeStore.findNode_eq_some_iff.mp hm).2]
        exact (m.ids e hmem).1
      rw [Option.any_some, Option.isNone_some, if_neg Bool.false_ne_true]
      dsimp only
      by_cases hpos : F.positive (F.ofFixed e.etxFixed) = true
      · have hwritten := @EdgeStore.copied_updateEdge g.edges g.myNode r nowMs _ F n _ true e.heardOn
          hme ⟨hr.1, hids, Ne.symm hr.2, hpos⟩
        rw [if_pos hpos, hpos, Bool.true_and]
        by_cases hhears : e.hearsUs = true
        · rw [if_pos hhears]
          exact hwritten.setEdgeHearsUs true
        · rw [if_neg hhears]
          exact hwritten
      · have hrefused : ¬EdgeStore.Writable F g.myNode r (F.ofFixed e.etxFixed) := fun h => hpos h.2.2.2
        rw [EdgeStore.updateEdge_unwritable hrefused, if_neg hpos]
        rw [Bool.not_eq_true] at hpos
        rw [hpos, Bool.false_and, if_neg Bool.false_ne_true]
        split
        · exact (EdgeStore.Copied.refl g.edges).setEdgeHearsUs true
        · exact .refl g.edges

/-- A measured edge is found exactly if it is taken, and then it hears us if it should. -/
def MeasuredIf (taken : Bool) (hears : Prop) (found : Option Edge) : Prop :=
  (taken = true → ∃ e, found = some e ∧ e.source = .reported ∧ (hears → e.hearsUs = true)) ∧
    (taken = false → ∀ e, found = some e → e.source ≠ .reported)

/-- Our edge to `r` is a measured one exactly if our list takes the copy, and then it hears
us if either edge did. -/
theorem copyEdge_target {n : NodeEdges} {e : Edge} (hr : r ≠ 0 ∧ r ≠ g.myNode)
    (hme : g.edges.findNode g.myNode = some n) (he : n.findEdge p = some e) :
    MeasuredIf (EdgeStore.takesCopy F r nowMs n e)
      (e.hearsUs = true ∨ (n.findEdge r).any (·.hearsUs) = true)
      (((g.withLocalNode F nowMs).copyEdge F p r nowMs).edges.edge g.myNode r) := by
  have hids := n.ids e (NodeEdges.findEdge_eq_some_iff.mp he).1
  have hid : n.nodeId = g.myNode := (EdgeStore.findNode_eq_some_iff.mp hme).2
  have hlocal : g.withLocalNode F nowMs = g := by
    unfold withLocalNode EdgeStore.ensureLocalNode
    rw [hme]
    rfl
  have hlist : ∀ y, g.edges.edge g.myNode y = n.findEdge y := by
    intro y
    unfold EdgeStore.edge
    rw [hme, Option.bind_some]
  -- the flag is set where the placeholder's edge has it, and changes nothing else
  have hflag : ∀ edges₁ : EdgeStore,
      MeasuredIf (EdgeStore.takesCopy F r nowMs n e) ((n.findEdge r).any (·.hearsUs) = true)
        (edges₁.edge g.myNode r) →
      MeasuredIf (EdgeStore.takesCopy F r nowMs n e)
        (e.hearsUs = true ∨ (n.findEdge r).any (·.hearsUs) = true)
        ((if e.hearsUs then edges₁.setEdgeHearsUs g.myNode r true else edges₁).edge g.myNode r) := by
    rintro edges₁ ⟨htaken, hrefused⟩
    split
    · have hset : (edges₁.setEdgeHearsUs g.myNode r true).edge g.myNode r =
          (edges₁.edge g.myNode r).map fun e => { e with hearsUs := true } := by
        unfold EdgeStore.edge EdgeStore.setEdgeHearsUs
        rw [EdgeStore.findNode_modifyNode_self]
        cases edges₁.findNode g.myNode with
        | none => rfl
        | some m =>
          rw [Option.map_some, Option.bind_some, Option.bind_some, NodeEdges.findEdge_mapEdges]
          cases hfound : m.findEdge r with
          | none => rfl
          | some e' =>
            have hto := (NodeEdges.findEdge_eq_some_iff.mp hfound).2
            rw [Option.map_some, if_pos (by simpa using hto)]
            rfl
      rw [hset]
      refine ⟨fun htakes => ?_, fun hno e' he' => ?_⟩
      · obtain ⟨e', he', hsource, -⟩ := htaken htakes
        rw [he']
        exact ⟨_, rfl, hsource, fun _ => rfl⟩
      · obtain ⟨e₁, he₁, rfl⟩ := Option.map_eq_some_iff.mp he'
        exact hrefused hno e₁ he₁
    · rename_i hdeaf
      refine ⟨fun htakes => ?_, hrefused⟩
      obtain ⟨e', he', hsource, hhears⟩ := htaken htakes
      exact ⟨e', he', hsource, fun h => hhears (h.resolve_left hdeaf)⟩
  rw [hlocal]
  unfold copyEdge
  rw [hlist p, he]
  dsimp only
  refine hflag _ ?_
  by_cases hpos : F.positive (F.ofFixed e.etxFixed) = true
  · have hw : EdgeStore.Writable F g.myNode r (F.ofFixed e.etxFixed) :=
      ⟨hr.1, hid ▸ hids.1, Ne.symm hr.2, hpos⟩
    obtain ⟨htaken, hrefused⟩ := @EdgeStore.findEdge_takeEdge_self _ F n r nowMs (F.ofFixed e.etxFixed)
      .reported true e.heardOn hids.1 ⟨hr.1, hid ▸ hr.2⟩ fun e _ => by cases e.source <;> decide
    rw [EdgeStore.edge_updateEdge_mine F hme hw]
    unfold EdgeStore.takesCopy
    rw [hpos, Bool.true_and]
    constructor
    · intro htakes
      obtain ⟨e', he', hsource, hhears⟩ := htaken (by
        rcases Bool.or_eq_true_iff.mp htakes with h | h
        · left
          cases hfound : n.findEdge r with
          | none =>
            rw [hfound] at h
            cases h
          | some e' => rfl
        · exact Bool.or_eq_true_iff.mp h)
      exact ⟨e', he', hsource, fun h => hhears.trans h⟩
    · intro hno e' he'
      rw [Bool.or_eq_false_iff, Bool.or_eq_false_iff] at hno
      have hnew : n.findEdge r = none := by simpa using hno.2.1
      rw [hrefused hnew hno.2.2] at he'
      cases he'
  · have hunwritable : ¬EdgeStore.Writable F g.myNode r (F.ofFixed e.etxFixed) :=
      fun h => hpos h.2.2.2
    rw [EdgeStore.updateEdge_unwritable hunwritable]
    dsimp only
    rw [hlist r]
    unfold EdgeStore.takesCopy
    rw [Bool.not_eq_true] at hpos
    rw [hpos, Bool.false_and, Bool.or_false]
    cases n.findEdge r with
    | none => simp [MeasuredIf]
    | some e₁ =>
      refine ⟨fun h => ⟨e₁, rfl, by simpa using h, fun h => h⟩, fun h e' he' => ?_⟩
      cases he'
      simpa using h

end

/-! ## The renaming -/

/-- What may be given up for room. -/
inductive Evicted where
  | nothing
  | edge (a b : UInt32)
  | node (a : UInt32)

/-- A node but for its edges. -/
def header (n : NodeEdges) : UInt32 × NodeClass × UInt32 := (n.lastFullUpdateMs, n.cls, n.parentHint)

/-- Resolving the placeholder `p` as `r` leads from `g` to `g'`: nothing is left of `p`, what
was its is `r`'s, and all others are as they were, one edge or node at most excepted. -/
structure Renamed (g g' : NeighborGraph) (p r nowMs : UInt32) : Prop where
  edgesGone : ∀ a b, (g'.edges.edge a b).isSome = true → a ≠ p ∧ b ≠ p
  nodesGone : ∀ x n, g'.edges.findNode x = some n → x ≠ p ∧ n.parentHint ≠ p
  rowsGone : ∀ row ∈ g'.downstream.entries.rows, row.destination ≠ p ∧ row.relay ≠ p
  edge : ∀ e, g.edges.edge g.myNode p = some e → ∃ e', g'.edges.edge g.myNode r = some e' ∧
    e'.source = .reported ∧
    (e.hearsUs = true ∨ (g.edges.edge g.myNode r).any (·.hearsUs) = true → e'.hearsUs = true)
  served : ∀ d, d ≠ r → g.downstream.isRelayFor p d nowMs NEIGHBOR_TTL_MS = true →
    g'.downstream.isRelayFor r d nowMs NEIGHBOR_TTL_MS = true
  rows : ∀ row : DownstreamRow, row.destination ≠ p → row.relay ≠ p →
    (∀ q ∈ g.downstream.entries.rows, q.relay = p → row.relay = r → q.destination ≠ row.destination) →
    (row ∈ g'.downstream.entries.rows ↔ row ∈ g.downstream.entries.rows)
  others : ∃ ev : Evicted,
    (∀ x, x ≠ p → x ≠ r → x ≠ g.myNode → ev ≠ .node x →
      (g'.edges.findNode x).map header = (g.edges.findNode x).map header) ∧
    ∀ a b, a ≠ p → b ≠ p → (a = g.myNode → b ≠ r) → ev ≠ .node a → ev ≠ .edge a b →
      g'.edges.edge a b = g.edges.edge a b

/-- What the state before must promise: our list takes the edge; not both another node and
another edge give way; who stays has not the placeholder for its parent; and the placeholder
does not serve itself. -/
structure Renamable {Etx : Type} (F : F32 Etx) (g : NeighborGraph) (p r nowMs : UInt32) : Prop where
  taken : ∀ n e, g.edges.findNode g.myNode = some n → n.findEdge p = some e →
    EdgeStore.takesCopy F r nowMs n e = true
  oneOut : ∀ x y, g.edges.gaveWay F g.myNode p r nowMs = some x →
    g.edges.crowdedByCopy F g.myNode p r nowMs = some y → x = p ∨ y = p
  hints : ∀ x n, g.edges.findNode x = some n → n.parentHint = p → x = p ∨
    g.edges.gaveWay F g.myNode p r nowMs = some x ∨ x = r ∧ g.edges.copies F g.myNode p = true
  noSelf : g.downstream.isRelayFor p p nowMs NEIGHBOR_TTL_MS = false

section

variable {Etx : Type} {F : F32 Etx} {g : NeighborGraph} {p r nowMs : UInt32}

theorem resolves_ends (h : g.resolves p r = true) : p ≠ 0 ∧ p ≠ r ∧ r ≠ 0 ∧ r ≠ g.myNode := by
  unfold resolves at h
  simp only [Bool.and_eq_true, Bool.not_eq_true', bne_iff_ne] at h
  obtain ⟨⟨⟨⟨⟨hp, hr⟩, hr0⟩, hrme⟩, -⟩, -⟩ := h
  refine ⟨?_, ?_, hr0, hrme⟩
  · rintro rfl
    exact absurd hp (by decide)
  · rintro rfl
    rw [hp] at hr
    cases hr

/-- What resolving writes: the copy of our edge, the rows moved, and then the removals. -/
theorem resolvePlaceholder_eq (h : g.resolves p r = true) :
    let copy := ((g.withLocalNode F nowMs).copyEdge F p r nowMs).edges
    (g.resolvePlaceholder F p r nowMs).1.edges = ((copy.removeEdgesTo p).removeNode p).1 ∧
      (g.resolvePlaceholder F p r nowMs).1.downstream =
        (g.downstream.transferDownstream p r nowMs).clearForDestination p := by
  obtain ⟨hp, hpr, hr, -⟩ := resolves_ends h
  have hdown : ((g.withLocalNode F nowMs).copyEdge F p r nowMs).downstream = g.downstream := by
    unfold copyEdge
    split <;> rfl
  unfold resolvePlaceholder replaceGatewayNode
  rw [if_neg (by simp [h])]
  dsimp only
  rw [if_neg (by simp [hp, hr, hpr])]
  dsimp only
  rw [hdown]
  exact ⟨rfl, rfl⟩

/-- The edge that gives way is ours, and gives way for a new one. -/
theorem crowdedByCopy_mine {y : UInt32} (h : g.edges.crowdedByCopy F g.myNode p r nowMs = some y) :
    ∃ n, g.edges.findNode g.myNode = some n ∧ g.edges.copies F g.myNode p = true ∧
      n.findEdge r = none ∧ (n.findEdge y).isSome = true := by
  unfold EdgeStore.crowdedByCopy at h
  split at h
  · rename_i n e hn he
    split at h
    · rename_i hcopies
      rw [Bool.and_eq_true, Option.isNone_iff_eq_none] at hcopies
      refine ⟨n, hn, ?_, hcopies.2, ?_⟩
      · unfold EdgeStore.copies
        rw [he]
        exact hcopies.1
      · unfold EdgeStore.crowdedOut at h
        split at h
        · cases h
        obtain ⟨w, -, hw⟩ := Option.bind_eq_some_iff.mp h
        split at hw
        · obtain ⟨v, hv, rfl⟩ := Option.map_eq_some_iff.mp hw
          exact EdgeStore.isSome_findEdge_iff.mpr ⟨v, List.mem_of_getElem? hv, rfl⟩
        · cases hw
    · cases h
  · cases h

/-- Who gives way is stored, and not our node. -/
theorem gaveWay_stored {x : UInt32} (h : g.edges.gaveWay F g.myNode p r nowMs = some x) :
    (∃ n, g.edges.findNode x = some n) ∧ x ≠ g.myNode ∧
      ((g.edges.findNode g.myNode).isSome = true → x ≠ r) := by
  unfold EdgeStore.gaveWay at h
  split at h
  · rename_i hnone
    obtain ⟨-, hstored, hme, -⟩ := EdgeStore.pushedOut_stored h
    exact ⟨hstored, hme, fun hsome => by simp_all⟩
  · split at h
    · obtain ⟨-, hstored, hme, hr⟩ := EdgeStore.pushedOut_stored h
      exact ⟨hstored, hme, fun _ => hr⟩
    · cases h

/-! ### The store -/

/-- After the removals, the store is the copy's without the placeholder. -/
theorem edge_resolve (h : g.resolves p r = true) (a b : UInt32) :
    (g.resolvePlaceholder F p r nowMs).1.edges.edge a b = if a = p ∨ b = p then none
      else ((g.withLocalNode F nowMs).copyEdge F p r nowMs).edges.edge a b := by
  rw [(resolvePlaceholder_eq h).1, EdgeStore.edge_forget (resolves_ends h).1]

theorem findNode_resolve (h : g.resolves p r = true) (x : UInt32) :
    (g.resolvePlaceholder F p r nowMs).1.edges.findNode x = if x = p then none
      else (((g.withLocalNode F nowMs).copyEdge F p r nowMs).edges.findNode x).map fun n =>
        (n.filterEdges fun e => e.toNode != p).filterEdges fun e => e.toNode != p := by
  rw [(resolvePlaceholder_eq h).1, EdgeStore.findNode_forget (resolves_ends h).1]

/-! ### The rows -/

theorem mem_resolve_rows (h : g.resolves p r = true) {row : DownstreamRow} :
    row ∈ (g.resolvePlaceholder F p r nowMs).1.downstream.entries.rows ↔
      row ∈ (g.downstream.transferDownstream p r nowMs).entries.rows ∧ row.destination ≠ p := by
  rw [(resolvePlaceholder_eq h).2]
  exact (Table.mem_swapOut row).trans (and_congr_right fun _ => by simp)

theorem isRelayFor_iff {ds : DownstreamTable} {relay d ttlMs : UInt32} :
    ds.isRelayFor relay d nowMs ttlMs = true ↔
      ∃ row ∈ ds.entries.rows, row.destination = d ∧ row.relay = relay ∧
        nowMs - row.lastUpdateMs < ttlMs := by
  unfold DownstreamTable.isRelayFor
  simp only [List.any_eq_true, Bool.and_eq_true, beq_iff_eq, decide_eq_true_eq, and_assoc]

theorem renamed_rows (h : g.resolves p r = true) (hroom : g.downstream.HasRoom p r)
    (hself : g.downstream.isRelayFor p p nowMs NEIGHBOR_TTL_MS = false) :
    let g' := (g.resolvePlaceholder F p r nowMs).1
    (∀ row ∈ g'.downstream.entries.rows, row.destination ≠ p ∧ row.relay ≠ p) ∧
      (∀ d, d ≠ r → g.downstream.isRelayFor p d nowMs NEIGHBOR_TTL_MS = true →
        g'.downstream.isRelayFor r d nowMs NEIGHBOR_TTL_MS = true) ∧
      ∀ row : DownstreamRow, row.destination ≠ p → row.relay ≠ p →
        (∀ q ∈ g.downstream.entries.rows, q.relay = p → row.relay = r →
          q.destination ≠ row.destination) →
        (row ∈ g'.downstream.entries.rows ↔ row ∈ g.downstream.entries.rows) := by
  obtain ⟨hp, hpr, hr, -⟩ := resolves_ends h
  refine ⟨fun row hrow => ?_, fun d _ hd => ?_, fun row hdest hrelay hcopied => ?_⟩
  · obtain ⟨hmem, hdest⟩ := (mem_resolve_rows h).mp hrow
    exact ⟨hdest, ((DownstreamTable.mem_transfer hp hr hpr).mp hmem).2⟩
  · have hdp : d ≠ p := by
      rintro rfl
      rw [hself] at hd
      cases hd
    obtain ⟨q, hq, hqd, hqrelay, -⟩ := isRelayFor_iff.mp hd
    obtain ⟨row, hrow, hrowd, hrowr, hms⟩ :=
      @DownstreamTable.transfer_fresh p r nowMs g.downstream hp hr hpr hroom q hq hqrelay
    have hdest : row.destination = d := hrowd.trans hqd
    refine isRelayFor_iff.mpr ⟨row, (mem_resolve_rows h).mpr ⟨hrow, hdest ▸ hdp⟩, hdest, hrowr, ?_⟩
    rw [hms, UInt32.sub_self]
    decide
  · rw [mem_resolve_rows h, and_iff_left hdest]
    exact DownstreamTable.transfer_others hp hr hpr hroom hrelay hcopied

/-! ### Both directions -/

/-- Of the node and the edge that give way, one at most is not the placeholder's. -/
theorem Renamable.evicted (hg : Renamable F g p r nowMs) : ∃ ev : Evicted,
    (∀ x, x ≠ p → g.edges.gaveWay F g.myNode p r nowMs = some x → ev = .node x) ∧
      ∀ y, y ≠ p → g.edges.crowdedByCopy F g.myNode p r nowMs = some y → ev = .edge g.myNode y := by
  by_cases hnode : ∃ x, x ≠ p ∧ g.edges.gaveWay F g.myNode p r nowMs = some x
  · obtain ⟨x, hx, hout⟩ := hnode
    refine ⟨.node x, fun x' _ hout' => ?_, fun y hy hcrowd => ?_⟩
    · rw [hout, Option.some.injEq] at hout'
      rw [hout']
    · exact ((hg.oneOut x y hout hcrowd).elim hx hy).elim
  · by_cases hedge : ∃ y, y ≠ p ∧ g.edges.crowdedByCopy F g.myNode p r nowMs = some y
    · obtain ⟨y, hy, hcrowd⟩ := hedge
      refine ⟨.edge g.myNode y, fun x hx hout => absurd ⟨x, hx, hout⟩ hnode, fun y' _ hcrowd' => ?_⟩
      rw [hcrowd, Option.some.injEq] at hcrowd'
      rw [hcrowd']
    · exact ⟨.nothing, fun x hx hout => absurd ⟨x, hx, hout⟩ hnode,
        fun y hy hcrowd => absurd ⟨y, hy, hcrowd⟩ hedge⟩

theorem Renamable.renamed (h : g.resolves p r = true) (hroom : g.downstream.HasRoom p r)
    (hg : Renamable F g p r nowMs) : Renamed g (g.resolvePlaceholder F p r nowMs).1 p r nowMs := by
  obtain ⟨hp, hpr, hr, hrme⟩ := resolves_ends h
  have hcopied := @copyEdge_copied _ F g p r nowMs hpr ⟨hr, hrme⟩
  obtain ⟨hrows, hserved, hothers⟩ := @renamed_rows _ F g p r nowMs h hroom hg.noSelf
  refine ⟨fun a b he => ?_, fun x n hn => ?_, hrows, fun e he => ?_, hserved, hothers, ?_⟩
  · rw [edge_resolve h] at he
    split at he
    · cases he
    · rename_i hends
      exact not_or.mp hends
  · rw [findNode_resolve h] at hn
    split at hn
    · cases hn
    rename_i hx
    obtain ⟨m, hm, rfl⟩ := Option.map_eq_some_iff.mp hn
    refine ⟨hx, ?_⟩
    change m.parentHint ≠ p
    rcases hcopied.hinted x m hm with hzero | ⟨n, hn, hout, hlabel, hhint⟩
    · rw [hzero]
      exact Ne.symm hp
    · intro hmp
      rcases hg.hints x n hn (hhint.trans hmp) with hxp | hgone | hr
      · exact hx hxp
      · exact hout hgone
      · exact hlabel hr
  · obtain ⟨n, hn, hedge⟩ := EdgeStore.edge_eq_some_iff.mp he
    have hlist : g.edges.edge g.myNode r = n.findEdge r := by
      unfold EdgeStore.edge
      rw [hn, Option.bind_some]
    have hme : g.myNode ≠ p := by
      obtain ⟨hmem, hto⟩ := NodeEdges.findEdge_eq_some_iff.mp hedge
      rw [← (EdgeStore.findNode_eq_some_iff.mp hn).2, ← hto]
      exact Ne.symm (n.ids e hmem).2.2
    obtain ⟨e', he', hsource, hhears⟩ :=
      (@copyEdge_target _ F g p r nowMs n e ⟨hr, hrme⟩ hn hedge).1 (hg.taken n e hn hedge)
    refine ⟨e', ?_, hsource, hlist ▸ hhears⟩
    rw [edge_resolve h, if_neg (by simp [hme, Ne.symm hpr])]
    exact he'
  · obtain ⟨ev, hnode, hedge⟩ := hg.evicted
    refine ⟨ev, fun x hx hxr hxme hev => ?_, fun a b ha hb hab hev hev' => ?_⟩
    · rw [findNode_resolve h, if_neg hx, hcopied.nodes x hxme hxr,
        if_neg fun hout => hev (hnode x hx hout), Option.map_map]
      rfl
    · rw [edge_resolve h, if_neg (by simp [ha, hb]), hcopied.lists a b hab, if_neg]
      rintro (hout | ⟨rfl, hcrowd⟩)
      · exact hev (hnode a ha hout)
      · exact hev' (hedge b hb hcrowd)

theorem Renamed.renamable (h : g.resolves p r = true)
    (hg : Renamed g (g.resolvePlaceholder F p r nowMs).1 p r nowMs) : Renamable F g p r nowMs := by
  obtain ⟨hp, hpr, hr, hrme⟩ := resolves_ends h
  have hcopied := @copyEdge_copied _ F g p r nowMs hpr ⟨hr, hrme⟩
  refine ⟨fun n e hn hedge => ?_, fun x y hout hcrowd => ?_, fun x n hn hhint => ?_, ?_⟩
  · have he : g.edges.edge g.myNode p = some e := EdgeStore.edge_eq_some_iff.mpr ⟨n, hn, hedge⟩
    obtain ⟨e', he', hsource, -⟩ := hg.edge e he
    rw [edge_resolve h] at he'
    split at he'
    · cases he'
    · by_contra htaken
      rw [Bool.not_eq_true] at htaken
      exact (@copyEdge_target _ F g p r nowMs n e ⟨hr, hrme⟩ hn hedge).2 htaken e' he' hsource
  · by_contra hboth
    obtain ⟨hx, hy⟩ := not_or.mp hboth
    obtain ⟨n, hn, -, hnew, hlisted⟩ := crowdedByCopy_mine hcrowd
    obtain ⟨⟨m, hm⟩, hxme, hxr⟩ := gaveWay_stored hout
    have hxr : x ≠ r := hxr (by rw [hn]; rfl)
    have hyr : y ≠ r := by
      rintro rfl
      rw [hnew] at hlisted
      cases hlisted
    obtain ⟨ev, hnodes, hedges⟩ := hg.others
    -- the node that is gone is what was evicted, so our edge should be there still
    have hev : ev = .node x := by
      by_contra hev
      have hsame := hnodes x hx hxr hxme hev
      rw [findNode_resolve h, if_neg hx, hcopied.nodes x hxme hxr, if_pos hout, hm] at hsame
      cases hsame
    subst hev
    have hme : g.myNode ≠ p := by
      intro hmep
      obtain ⟨e, he⟩ : ∃ e, g.edges.edge g.myNode p = some e := by
        have hcopies := (crowdedByCopy_mine hcrowd).choose_spec.2.1
        unfold EdgeStore.copies at hcopies
        rw [Option.any_eq_true] at hcopies
        exact hcopies.imp fun _ h => h.1
      obtain ⟨n', hn', hfound⟩ := EdgeStore.edge_eq_some_iff.mp he
      obtain ⟨hmem, hto⟩ := NodeEdges.findEdge_eq_some_iff.mp hfound
      have hself := (n'.ids e hmem).2.2
      rw [(EdgeStore.findNode_eq_some_iff.mp hn').2, hto] at hself
      exact hself hmep.symm
    have hsame := hedges g.myNode y hme hy (fun _ => hyr) (fun h => hxme (by cases h; rfl))
      (fun h => by cases h)
    rw [edge_resolve h, if_neg (by simp [hme, hy]), hcopied.lists g.myNode y fun _ => hyr,
      if_pos (.inr ⟨rfl, hcrowd⟩)] at hsame
    unfold EdgeStore.edge at hsame
    rw [hn, Option.bind_some] at hsame
    rw [← hsame] at hlisted
    cases hlisted
  · by_contra hstays
    simp only [not_or] at hstays
    obtain ⟨hx, hout, hlabel⟩ := hstays
    obtain ⟨n', hn', hhint'⟩ := hcopied.kept x n hn hout hlabel
    have hthere : (g.resolvePlaceholder F p r nowMs).1.edges.findNode x = _ := findNode_resolve h x
    rw [if_neg hx, hn', Option.map_some] at hthere
    exact (hg.nodesGone x _ hthere).2 (hhint'.trans hhint)
  · by_contra hself
    rw [Bool.not_eq_false] at hself
    obtain ⟨row, hrow, hdest, -⟩ := isRelayFor_iff.mp (hg.served p hpr hself)
    exact (hg.rowsGone row hrow).1 hdest

/-- Where the placeholder's rows find room for their copies, resolving it renames it exactly
if our list takes the edge, no second entry gives way, nobody who stays has it for its
parent and it does not serve itself. In a full table it already fails where the oldest row is a
third relay's. -/
theorem resolve_renames {Etx : Type} (F : F32 Etx) (g : NeighborGraph) (p r nowMs : UInt32)
    (h : g.resolves p r = true) :
    (g.downstream.HasRoom p r →
      (Renamed g (g.resolvePlaceholder F p r nowMs).1 p r nowMs ↔ Renamable F g p r nowMs)) ∧
      ∀ o, g.downstream.keys.Nodup → g.downstream.entries.rows.length = MAX_DOWNSTREAM →
        (∀ row ∈ g.downstream.entries.rows, row.relay ≠ r) →
        (∃ row ∈ g.downstream.entries.rows, row.relay = p) →
        g.downstream.entries.rows[DownstreamTable.oldestIdx g.downstream.entries.rows nowMs]? = some o →
        o.relay ≠ p → o.destination ≠ p →
        ¬Renamed g (g.resolvePlaceholder F p r nowMs).1 p r nowMs := by
  refine ⟨fun hroom => ⟨Renamed.renamable h, Renamable.renamed h hroom⟩, ?_⟩
  intro o hdistinct hfull hnone hsome ho hrelay hdest hrenamed
  obtain ⟨hp, hpr, hr, -⟩ := resolves_ends h
  have hmem := List.mem_of_getElem? ho
  have hkept := (hrenamed.rows o hdest hrelay fun _ _ _ ho => absurd ho (hnone o hmem)).mpr hmem
  have hloop := ((DownstreamTable.mem_transfer hp hr hpr).mp ((mem_resolve_rows h).mp hkept).1).1
  obtain ⟨row, hrow, hrowp⟩ := hsome
  obtain ⟨i, hi, rfl⟩ := List.mem_iff_getElem.mp hrow
  refine DownstreamTable.moveRows_give_up hdistinct ?_ (fun k hk => ?_) ho
    ⟨i, List.mem_range.mpr hi, _, List.getElem?_eq_getElem hi, hrowp⟩ (DownstreamTable.mem_keys hloop)
  · rw [DownstreamTable.keys_length]
    omega
  · obtain ⟨row', hrow', rfl⟩ := List.mem_map.mp hk
    exact hnone row' hrow'

end

/-! ### Two graphs -/

/-- Node 1 measures a relay of byte 0xCD, which serves node 9. -/
def relayHeard : NeighborGraph :=
  let g := NeighborGraph.new 1
  { g with
    edges := (g.edges.updateEdge hundredths 1 1 0xFF0000CD 150 1000 .reported true 0).1
    downstream := g.downstream.updateInner hundredths 1 9 0xFF0000CD 300 1000 false 0 false }

theorem resolve_renames_sample :
    Renamed relayHeard (relayHeard.resolvePlaceholder hundredths 0xFF0000CD 0xBEEF00CD 2000).1 0xFF0000CD
      0xBEEF00CD 2000 := by
  refine ((resolve_renames hundredths relayHeard 0xFF0000CD 0xBEEF00CD 2000 (by decide +kernel)).1
    (.inr (by decide +kernel))).mpr ⟨fun n e hn he => ?_, fun x y hout => ?_, fun x n hn hhint => ?_,
      by decide +kernel⟩
  · have htakes : (relayHeard.edges.findNode 1).all (fun n => (n.findEdge 0xFF0000CD).all
        fun e => EdgeStore.takesCopy hundredths 0xBEEF00CD 2000 n e) = true := by decide +kernel
    change relayHeard.edges.findNode 1 = some n at hn
    rw [hn, Option.all_some, he, Option.all_some] at htakes
    exact htakes
  · have hnobody : relayHeard.edges.gaveWay hundredths relayHeard.myNode 0xFF0000CD 0xBEEF00CD 2000 =
        none := by decide +kernel
    rw [hnobody] at hout
    cases hout
  · have hnone : (relayHeard.edges.nodes.rows.all fun n => n.parentHint == 0) = true := by decide +kernel
    have hzero := List.all_eq_true.mp hnone n (EdgeStore.findNode_eq_some_iff.mp hn).1
    rw [hhint] at hzero
    exact absurd hzero (by decide)

/-- Node 1 measures that relay and 39 nodes, the relay at the highest price and all at this
moment. -/
def listFull : NeighborGraph :=
  let g := NeighborGraph.new 1
  { g with
    edges := (List.range 39).foldl
      (fun (edges : EdgeStore) i =>
        (edges.updateEdge hundredths 1 1 (UInt32.ofNat (i + 100)) 120 2000 .reported true 0).1)
      (g.edges.updateEdge hundredths 1 1 0xFF0000CD 150 2000 .reported true 0).1 }

/-- The full list refuses the copy, and the relay is lost. -/
theorem resolve_loses_relay :
    listFull.resolves 0xFF0000CD 0xBEEF00CD = true ∧
      ¬Renamed listFull (listFull.resolvePlaceholder hundredths 0xFF0000CD 0xBEEF00CD 2000).1 0xFF0000CD
        0xBEEF00CD 2000 := by
  refine ⟨by decide +kernel, fun hrenamed => ?_⟩
  have hedge : (listFull.edges.edge 1 0xFF0000CD).isSome = true := by decide +kernel
  have hlost : (listFull.resolvePlaceholder hundredths 0xFF0000CD 0xBEEF00CD 2000).1.edges.edge 1
      0xBEEF00CD = none := by decide +kernel
  obtain ⟨e, he⟩ := Option.isSome_iff_exists.mp hedge
  obtain ⟨e', he', -⟩ := hrenamed.edge e he
  change (listFull.resolvePlaceholder hundredths 0xFF0000CD 0xBEEF00CD 2000).1.edges.edge 1
    0xBEEF00CD = some e' at he'
  rw [hlost] at he'
  cases he'

end NeighborGraph

end Meshrustic.Topology
