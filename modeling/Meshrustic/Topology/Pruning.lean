import Meshrustic.Core.Visit
import Meshrustic.Topology.Representation

/-!
# Pruning (`mesh-routing/src/graph/edge.rs:602-690`)

`prune_unreachable_from_root` walks from our node along edges, in either
direction, with a stack of `MAX_GRAPH_NODES` places, and removes every stored
node it has not met.

Results:
* `mem_reachableFrom`: the walk meets exactly our component.
* `removeNode_spec`: what taking a node out leaves of the others.
* `prune_keeps_component`: what is left are the nodes of our component, each
  as it was.
-/
namespace Meshrustic.Topology

open Meshrustic.Graph Meshrustic.Relay

namespace EdgeRows

section

variable {s : EdgeRows} {me a b : UInt32}

/-! ## The component -/

/-- Two stored nodes, one of which lists the other. -/
def Link (s : EdgeRows) (a b : UInt32) : Prop :=
  a ∈ s.ids ∧ b ∈ s.ids ∧ ((s.edge a b).isSome = true ∨ (s.edge b a).isSome = true)

/-- Joined to us by a chain of stored nodes. -/
def Connected (s : EdgeRows) (me : UInt32) : UInt32 → Prop := Relation.ReflTransGen s.Link me

/-- The nodes the walk goes on to from `cur`. -/
def nextOf (s : EdgeRows) (cur : UInt32) : List UInt32 :=
  match s.findNode cur with
  | none => []
  | some n =>
    (n.edges.filter fun e => (s.findNode e.toNode).isSome).map (·.toNode) ++
      (s.nodes.filter fun n => (n.findEdge cur).isSome).map (·.nodeId)

theorem reachableFrom_eq (fuel : Nat) (st : List UInt32 × List UInt32) :
    s.reachableFrom fuel st = visit MAX_GRAPH_NODES s.nextOf fuel st := by
  induction fuel generalizing st with
  | zero => rfl
  | succ fuel ih =>
    obtain ⟨stack, reached⟩ := st
    cases stack with
    | nil => rfl
    | cons cur stack =>
      rw [reachableFrom, visit]
      unfold nextOf
      cases s.findNode cur with
      | none => exact ih _
      | some n =>
        dsimp only
        rw [ih, List.foldl_append, List.foldl_map, List.foldl_map]
        rfl

theorem mem_ids_iff : a ∈ s.ids ↔ (s.findNode a).isSome = true := by
  cases h : s.findNode a with
  | none => simp [findNode_none h]
  | some n =>
    obtain ⟨hn, rfl⟩ := findNode_some h
    simp [ids, List.mem_map_of_mem hn]

theorem findNode_of_mem (hinv : s.Inv) {n : NodeRow} (h : n ∈ s.nodes) :
    s.findNode n.nodeId = some n := lookup_of_mem (fun n : NodeRow => n.nodeId) hinv.nodup h

theorem findEdge_isSome {n : NodeRow} : (n.findEdge b).isSome = true ↔ ∃ e ∈ n.edges, e.toNode = b := by
  unfold NodeRow.findEdge
  rw [List.find?_isSome]
  simp

theorem mem_nextOf (hinv : s.Inv) : b ∈ s.nextOf a ↔ s.Link a b := by
  unfold nextOf Link
  cases ha : s.findNode a with
  | none => simp [mem_ids_iff, ha]
  | some n =>
    have hforward : b ∈ (n.edges.filter fun e => (s.findNode e.toNode).isSome).map (·.toNode) ↔
        b ∈ s.ids ∧ (s.edge a b).isSome = true := by
      have hedge : s.edge a b = n.findEdge b := by
        unfold edge
        rw [ha, Option.bind_some]
      rw [hedge, findEdge_isSome, mem_ids_iff, List.mem_map]
      simp only [List.mem_filter]
      constructor
      · rintro ⟨e, ⟨he, hstored⟩, rfl⟩
        exact ⟨hstored, e, he, rfl⟩
      · rintro ⟨hstored, e, he, rfl⟩
        exact ⟨e, ⟨he, hstored⟩, rfl⟩
    have hbackward : b ∈ (s.nodes.filter fun n => (n.findEdge a).isSome).map (·.nodeId) ↔
        b ∈ s.ids ∧ (s.edge b a).isSome = true := by
      rw [List.mem_map]
      simp only [List.mem_filter]
      constructor
      · rintro ⟨m, ⟨hm, hedge⟩, rfl⟩
        refine ⟨List.mem_map_of_mem hm, ?_⟩
        unfold edge
        rw [findNode_of_mem hinv hm, Option.bind_some]
        exact hedge
      · rintro ⟨-, hedge⟩
        unfold edge at hedge
        cases hb : s.findNode b with
        | none =>
          rw [hb] at hedge
          cases hedge
        | some m =>
          rw [hb, Option.bind_some] at hedge
          obtain ⟨hm, hid⟩ := findNode_some hb
          exact ⟨m, ⟨hm, hedge⟩, hid⟩
    have hstored : a ∈ s.ids := by
      rw [mem_ids_iff, ha]
      rfl
    dsimp only
    rw [List.mem_append, hforward, hbackward]
    tauto

/-- The walk meets exactly our component. -/
theorem mem_reachableFrom (hinv : s.Inv) (hme : me ∈ s.ids) :
    a ∈ s.reachableFrom s.nodes.length ([me], [me]) ↔ s.Connected me a := by
  have hlength : s.ids.length = s.nodes.length := List.length_map _
  have hcap : s.ids.length ≤ MAX_GRAPH_NODES := hlength ▸ hinv.count
  rw [reachableFrom_eq, visit_spec hcap (fun a _ b hb => ((mem_nextOf hinv).mp hb).2.1) hme
    (Nat.le_of_eq hlength)]
  unfold Reached Connected
  simp only [mem_nextOf hinv]

/-! ## Taking a node out -/

/-- The node without its edges to `v`. -/
def without (v : UInt32) (n : NodeRow) : NodeRow :=
  { n with edges := n.edges.filter fun e => e.toNode != v }

/-- A stored node goes; the others lose their edges to it. -/
theorem removeNode_spec (hinv : s.Inv) {v : UInt32} (hv : v ∈ s.ids) :
    (s.removeNode v).2 = true ∧
      ∀ m, m ∈ (s.removeNode v).1.nodes ↔ ∃ n ∈ s.nodes, n.nodeId ≠ v ∧ without v n = m := by
  have hzero : v ≠ 0 := by
    obtain ⟨n, hn, rfl⟩ := List.mem_map.mp hv
    exact (hinv.rows n hn).nonzero
  have hinv' : (s.removeEdgesTo v).Inv := (@removeEdgesTo_kept s v v hinv).1
  have hids : (s.removeEdgesTo v).ids = s.ids := by
    change (s.nodes.map (without v)).map (·.nodeId) = s.nodes.map (·.nodeId)
    rw [List.map_map]
    rfl
  unfold removeNode
  rw [if_neg (by simpa using hzero)]
  dsimp only
  cases hi : (s.removeEdgesTo v).nodes.findIdx? fun n => n.nodeId == v with
  | none =>
    rw [List.findIdx?_eq_none_iff] at hi
    rw [← hids] at hv
    obtain ⟨n, hn, rfl⟩ := List.mem_map.mp hv
    have := hi n hn
    simp at this
  | some i =>
    obtain ⟨w, hw, hid⟩ := findIdx_node hi
    have hperm := removeNodeAt_perm hw
    have hnodup := (hperm.map fun n : NodeRow => n.nodeId).nodup_iff.mpr hinv'.nodup
    rw [List.map_cons, List.nodup_cons] at hnodup
    refine ⟨rfl, fun m => ?_⟩
    have hmem : m ∈ ((s.removeEdgesTo v).removeNodeAt i).nodes ↔
        m ∈ (s.removeEdgesTo v).nodes ∧ m.nodeId ≠ v := by
      rw [← hperm.mem_iff, List.mem_cons]
      constructor
      · intro hm
        exact ⟨.inr hm, fun heq => hnodup.1 (hid.trans heq.symm ▸ List.mem_map_of_mem hm)⟩
      · rintro ⟨rfl | hm, hne⟩
        · exact absurd hid hne
        · exact hm
    rw [hmem]
    constructor
    · rintro ⟨hm, hne⟩
      obtain ⟨n, hn, rfl⟩ := List.mem_map.mp hm
      exact ⟨n, hn, hne, rfl⟩
    · rintro ⟨n, hn, hne, rfl⟩
      exact ⟨List.mem_map_of_mem hn, hne⟩

end

/-! ## The loop over the victims -/

section

variable {Etx : Type} {F : F32 Etx} {s t : EdgeRows} {me nowMs v : UInt32}

/-- A victim is taken out of the nodes as they are. -/
theorem dropVictim_eq (st : EdgeRows × DownstreamTable × Bool) :
    ∃ u : EdgeRows, u.nodes = st.1.nodes ∧ ∃ ds, dropVictim F me nowMs st v =
      ((u.removeNode v).1, ds, (u.removeNode v).2 || st.2.2) := by
  unfold dropVictim
  cases st.1.pickL1Parent v me with
  | some p => exact ⟨{ st.1 with pendingDemotion := none }, rfl, _, rfl⟩
  | none => exact ⟨st.1, rfl, _, rfl⟩

/-- While victims are taken out: the nodes to keep stay as they were, of the others
those to do are left. -/
structure Pruned (s : EdgeRows) (keep : UInt32 → Prop) (todo : List UInt32) (t : EdgeRows) : Prop where
  inv : t.Inv
  kept : ∀ n ∈ s.nodes, keep n.nodeId → n ∈ t.nodes
  stored : ∀ a ∈ t.ids, a ∈ s.ids
  rest : ∀ a ∈ t.ids, keep a ∨ a ∈ todo
  waiting : ∀ a ∈ todo, a ∈ t.ids

/-- One victim. -/
theorem dropVictim_pruned {keep : UInt32 → Prop} {todo : List UInt32} {ds : DownstreamTable}
    {changed : Bool} (h : Pruned s keep (v :: todo) t) (hfresh : v ∉ todo) (hv : ¬keep v)
    (hclosed : ∀ n ∈ s.nodes, keep n.nodeId → ∀ e ∈ n.edges, e.toNode ≠ v) :
    Pruned s keep todo (dropVictim F me nowMs (t, ds, changed) v).1 ∧
      (dropVictim F me nowMs (t, ds, changed) v).2.2 = true := by
  obtain ⟨u, hsame, ds', heq⟩ := @dropVictim_eq _ F me nowMs v (t, ds, changed)
  have huids : u.ids = t.ids := congrArg (List.map fun n : NodeRow => n.nodeId) hsame
  have hinv' : u.Inv := ⟨huids ▸ h.inv.nodup, hsame ▸ h.inv.count, hsame ▸ h.inv.rows⟩
  obtain ⟨hflag, hnodes⟩ := removeNode_spec hinv' (huids ▸ h.waiting v List.mem_cons_self)
  rw [heq, hflag]
  have hids : ∀ a, a ∈ (u.removeNode v).1.ids ↔ a ∈ t.ids ∧ a ≠ v := by
    intro a
    rw [← huids]
    constructor
    · intro ha
      obtain ⟨m, hm, rfl⟩ := List.mem_map.mp ha
      obtain ⟨n, hn, hne, rfl⟩ := (hnodes m).mp hm
      exact ⟨List.mem_map.mpr ⟨n, hn, rfl⟩, hne⟩
    · rintro ⟨ha, hne⟩
      obtain ⟨n, hn, rfl⟩ := List.mem_map.mp ha
      exact List.mem_map.mpr ⟨without v n, (hnodes _).mpr ⟨n, hn, hne, rfl⟩, rfl⟩
  refine ⟨⟨removeNode_inv hinv', fun n hn hkeep => ?_, fun a ha => ?_, fun a ha => ?_,
    fun a ha => ?_⟩, rfl⟩
  · refine (hnodes n).mpr ⟨n, hsame ▸ h.kept n hn hkeep, fun hid => hv (hid ▸ hkeep), ?_⟩
    have hall : (n.edges.filter fun e => e.toNode != v) = n.edges :=
      List.filter_eq_self.mpr fun e he => by simpa using hclosed n hn hkeep e he
    unfold without
    rw [hall]
  · exact h.stored a ((hids a).mp ha).1
  · obtain ⟨ha, hne⟩ := (hids a).mp ha
    exact (h.rest a ha).imp_right fun hmem => (List.mem_cons.mp hmem).resolve_left hne
  · exact (hids a).mpr ⟨h.waiting a (List.mem_cons_of_mem _ ha), fun heq => hfresh (heq ▸ ha)⟩

/-- All of them. -/
theorem dropVictims_pruned {keep : UInt32 → Prop} {todo : List UInt32} {ds : DownstreamTable}
    {changed : Bool} (h : Pruned s keep todo t) (hnodup : todo.Nodup) (hv : ∀ v ∈ todo, ¬keep v)
    (hclosed : ∀ n ∈ s.nodes, keep n.nodeId → ∀ e ∈ n.edges, e.toNode ∉ todo) :
    let r := todo.foldl (dropVictim F me nowMs) (t, ds, changed)
    Pruned s keep [] r.1 ∧ (r.2.2 = true ↔ changed = true ∨ todo ≠ []) := by
  induction todo generalizing t ds changed with
  | nil => exact ⟨h, by simp⟩
  | cons v todo ih =>
    obtain ⟨hfresh, hnodup'⟩ := List.nodup_cons.mp hnodup
    obtain ⟨hstep, hflag⟩ := @dropVictim_pruned _ F s t me nowMs v keep todo ds changed h hfresh
      (hv v List.mem_cons_self) fun n hn hkeep e he heq =>
        hclosed n hn hkeep e he (heq ▸ List.mem_cons_self)
    rw [List.foldl_cons]
    generalize dropVictim F me nowMs (t, ds, changed) v = st at hstep hflag ⊢
    obtain ⟨t', ds', changed'⟩ := st
    obtain ⟨hrest, hchanged⟩ := @ih t' ds' changed' hstep hnodup'
      (fun a ha => hv a (List.mem_cons_of_mem _ ha))
      fun n hn hkeep e he hmem => hclosed n hn hkeep e he (List.mem_cons_of_mem _ hmem)
    refine ⟨hrest, ?_⟩
    rw [hchanged]
    have hset : changed' = true := hflag
    simp [hset]

end

/-! ## What is left -/

/-- Pruning leaves the nodes that a chain of stored nodes joins to us, each as it
was with its whole list; no list that is left names a node that went; and the
answer says whether one did. -/
theorem prune_keeps_component {Etx : Type} (F : F32 Etx) (s : EdgeRows) (me nowMs : UInt32)
    (ds : DownstreamTable) (hinv : s.Inv) (hme : me ∈ s.ids) :
    let r := s.pruneUnreachableFromRoot F me nowMs ds
    (∀ a, a ∈ r.1.ids ↔ s.Connected me a) ∧
      (∀ a b, (r.1.edge a b).isSome = true → b ∈ s.ids → b ∈ r.1.ids) ∧
      (∀ a ∈ r.1.ids, r.1.findNode a = s.findNode a) ∧
      (∀ a ∈ r.1.ids, ∀ b, r.1.edge a b = s.edge a b) ∧
      (r.2.2 = true ↔ ∃ a ∈ s.ids, a ∉ r.1.ids) ∧ r.1.Inv := by
  unfold pruneUnreachableFromRoot
  rw [if_neg (by simpa [Option.isSome_iff_ne_none] using mem_ids_iff.mp hme)]
  dsimp only
  generalize hdoomed : (s.ids.filter fun id =>
    !(s.reachableFrom s.nodes.length ([me], [me])).contains id && id != me) = doomed
  have hmem : ∀ a, a ∈ doomed ↔ a ∈ s.ids ∧ ¬s.Connected me a := by
    intro a
    rw [← hdoomed, List.mem_filter, Bool.and_eq_true, Bool.not_eq_true', bne_iff_ne]
    refine and_congr_right fun _ => ?_
    rw [← Bool.not_eq_true, List.contains_iff_mem, mem_reachableFrom hinv hme]
    exact and_iff_left_of_imp fun hnot heq => hnot (heq ▸ Relation.ReflTransGen.refl)
  have hnodup : doomed.Nodup := hdoomed ▸ hinv.nodup.filter _
  have hlinked : ∀ n ∈ s.nodes, s.Connected me n.nodeId → ∀ e ∈ n.edges, e.toNode ∈ s.ids →
      s.Connected me e.toNode := by
    intro n hn hconnected e he hstored
    refine hconnected.tail ⟨List.mem_map_of_mem hn, hstored, .inl ?_⟩
    unfold edge
    rw [findNode_of_mem hinv hn]
    exact findEdge_isSome.mpr ⟨e, he, rfl⟩
  have hstart : Pruned s (s.Connected me) doomed s := by
    refine ⟨hinv, fun n hn _ => hn, fun a ha => ha, fun a ha => ?_, fun a ha => ((hmem a).mp ha).1⟩
    by_cases hconnected : s.Connected me a
    · exact .inl hconnected
    · exact .inr ((hmem a).mpr ⟨ha, hconnected⟩)
  obtain ⟨hpruned, hflag⟩ := @dropVictims_pruned _ F s s me nowMs (s.Connected me) doomed ds false
    hstart hnodup (fun v hv => ((hmem v).mp hv).2) fun n hn hconnected e he hdoom =>
      ((hmem _).mp hdoom).2 (hlinked n hn hconnected e he ((hmem _).mp hdoom).1)
  generalize doomed.foldl (dropVictim F me nowMs) (s, ds, false) = r at hpruned hflag
  have hstored : ∀ a, s.Connected me a → a ∈ s.ids := by
    intro a ha
    rcases ha.cases_tail with rfl | ⟨b, -, hlink⟩
    · exact hme
    · exact hlink.2.1
  have hids : ∀ a, a ∈ r.1.ids ↔ s.Connected me a := by
    intro a
    constructor
    · intro ha
      exact (hpruned.rest a ha).resolve_right List.not_mem_nil
    · intro ha
      obtain ⟨n, hn, rfl⟩ := List.mem_map.mp (hstored a ha)
      exact List.mem_map_of_mem (hpruned.kept n hn ha)
  have hfind : ∀ a ∈ r.1.ids, r.1.findNode a = s.findNode a := by
    intro a ha
    obtain ⟨n, hn, rfl⟩ := List.mem_map.mp (hpruned.stored a ha)
    rw [findNode_of_mem hinv hn]
    exact findNode_of_mem hpruned.inv (hpruned.kept n hn ((hids _).mp ha))
  have hedge : ∀ a ∈ r.1.ids, ∀ b, r.1.edge a b = s.edge a b := by
    intro a ha b
    unfold edge
    rw [hfind a ha]
  refine ⟨hids, fun a b hab hb => ?_, hfind, hedge, ?_, hpruned.inv⟩
  · have ha : a ∈ r.1.ids := by
      rw [mem_ids_iff]
      unfold edge at hab
      cases hn : r.1.findNode a with
      | none =>
        rw [hn] at hab
        cases hab
      | some n => rfl
    rw [hedge a ha b] at hab
    exact (hids b).mpr (((hids a).mp ha).tail ⟨hpruned.stored a ha, hb, .inl hab⟩)
  · rw [hflag, or_iff_right Bool.false_ne_true]
    constructor
    · intro hne
      obtain ⟨v, rest, rfl⟩ := List.exists_cons_of_ne_nil hne
      obtain ⟨hv, hnot⟩ := (hmem v).mp List.mem_cons_self
      exact ⟨v, hv, fun h => hnot ((hids v).mp h)⟩
    · rintro ⟨a, ha, hgone⟩ rfl
      refine List.not_mem_nil ((hmem a).mpr ⟨ha, fun hconnected => hgone ((hids a).mpr hconnected)⟩)

/-- A node without a list. -/
def bareNode (nodeId : UInt32) : NodeRow := .fresh nodeId 1000 .l1 0

/-- We hear node 2; node 9 has nobody. -/
def strayRows : EdgeRows where
  nodes := [{ bareNode 1 with edges := [{ toNode := 2, etxFixed := 100, source := .reported }] },
    bareNode 2, bareNode 9]
  pendingDemotion := none

theorem strayRows_inv : strayRows.Inv where
  nodup := by decide
  count := by decide
  rows n hn := by
    unfold strayRows at hn
    rcases List.mem_cons.mp hn with rfl | hn
    · exact ⟨by decide, by decide, List.nodup_singleton _, fun e he => by
        obtain rfl := List.mem_singleton.mp he
        decide⟩
    · rcases List.mem_pair.mp hn with rfl | rfl
      · exact NodeRow.ok_fresh (by decide)
      · exact NodeRow.ok_fresh (by decide)

/-- Node 9 goes. -/
theorem prune_stray_sample :
    let r := strayRows.pruneUnreachableFromRoot hundredths 1 2000 ⟨.empty⟩
    (2 ∈ r.1.ids ∧ strayRows.Connected 1 2) ∧ 9 ∉ r.1.ids ∧ r.2.2 = true := by
  intro r
  obtain ⟨hids, -, -, -, hflag, -⟩ := prune_keeps_component hundredths strayRows 1 2000 ⟨.empty⟩
    strayRows_inv (by decide)
  have hleft : r.1.ids = [1, 2] := by decide +kernel
  have hstays : 2 ∈ r.1.ids := by
    rw [hleft]
    decide
  have hgoes : 9 ∉ r.1.ids := by
    rw [hleft]
    decide
  exact ⟨⟨hstays, (hids 2).mp hstays⟩, hgoes, hflag.mpr ⟨9, by decide, hgoes⟩⟩

end EdgeRows

end Meshrustic.Topology
