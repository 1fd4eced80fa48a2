import Meshrustic.Topology.Losses
import Meshrustic.Topology.Moves

/-!
# Stronger evidence stays (`mesh-routing/src/graph/edge.rs`)

A list takes an edge in three ways: it measures one again, it has room, or it gives
one up for it. None touches an edge of a higher rank than the new one's, and but one
edge at most. Around it `update_edge` classes the ends, which is no edge, and creates
nodes, which costs nothing where they fit.

Results:
* `NodeEdges.writeEdge_yields`: what a list gives up for an edge;
* `EdgeStore.update_edge_respects_rank`: what the store does.
-/
namespace Meshrustic.Topology

open Meshrustic.Graph

namespace NodeEdges

/-! ## Lists -/

/-- The list `n'` is `n` with the edge to `b` in the place of one of no higher rank at
most. -/
structure Yields (b : UInt32) (source : EdgeSource) (n n' : NodeEdges) : Prop where
  weaker : ∀ e ∈ n.edges.rows, e ∉ n'.edges.rows → e.source.rank ≤ source.rank
  one : ∀ e ∈ n.edges.rows, ∀ f ∈ n.edges.rows, e ∉ n'.edges.rows → f ∉ n'.edges.rows → e = f
  new : ∀ e ∈ n'.edges.rows, e ∈ n.edges.rows ∨ e.toNode = b ∧ e.source = source

variable {n : NodeEdges} {b : UInt32} {source : EdgeSource}

theorem Yields.refl (n : NodeEdges) : Yields b source n n where
  weaker _ he hgone := absurd he hgone
  one _ he _ _ hgone _ := absurd he hgone
  new _ he := .inl he

/-- An edge of no higher rank is measured again. -/
theorem yields_mapEdges {e : Edge} {f : Edge → Edge} {hf} (he : n.findEdge b = some e)
    (hrank : e.source.rank ≤ source.rank) (hsource : (f e).source = source)
    (hother : ∀ e', e'.toNode ≠ b → f e' = e') : Yields b source n (n.mapEdges f hf) := by
  -- what is not as it was is the edge to `b`
  have hgone : ∀ e' ∈ n.edges.rows, e' ∉ (n.mapEdges f hf).edges.rows → e' = e := by
    intro e' hmem hlost
    have hto : e'.toNode = b := by
      by_contra hne
      exact hlost (List.mem_map.mpr ⟨e', hmem, hother e' hne⟩)
    have he' := findEdge_eq_some_iff.mpr ⟨hmem, hto⟩
    rw [he, Option.some.injEq] at he'
    exact he'.symm
  constructor
  · intro e' hmem hlost
    rw [hgone e' hmem hlost]
    exact hrank
  · intro e₁ h₁ e₂ h₂ hlost₁ hlost₂
    rw [hgone e₁ h₁ hlost₁, hgone e₂ h₂ hlost₂]
  · intro e' he'
    obtain ⟨e₀, h₀, rfl⟩ := List.mem_map.mp he'
    by_cases hto : e₀.toNode = b
    · have he₀ := findEdge_eq_some_iff.mpr ⟨h₀, hto⟩
      rw [he, Option.some.injEq] at he₀
      subst he₀
      exact .inr ⟨(hf e).trans hto, hsource⟩
    · rw [hother e₀ hto]
      exact .inl h₀

theorem yields_pushEdge {e : Edge} (hto : e.toNode = b) (hsource : e.source = source) :
    Yields b source n (n.pushEdge e) := by
  unfold pushEdge
  split
  · have hstays : ∀ e' ∈ n.edges.rows, e' ∈ n.edges.rows ++ [e] :=
      fun e' he' => List.mem_append_left _ he'
    constructor
    · intro e' he' hlost
      exact absurd (hstays e' he') hlost
    · intro e₁ h₁ e₂ _ hlost
      exact absurd (hstays e₁ h₁) hlost
    · intro e' he'
      rcases List.mem_append.mp he' with he' | he'
      · exact .inl he'
      · rw [List.mem_singleton.mp he']
        exact .inr ⟨hto, hsource⟩
  · exact .refl n

/-- An edge of no higher rank gives way. -/
theorem yields_replaceEdge {i : Nat} {e v : Edge} (hv : n.edges.rows[i]? = some v)
    (hrank : v.source.rank ≤ source.rank) (hto : e.toNode = b) (hsource : e.source = source) :
    Yields b source n (n.replaceEdge i e) := by
  unfold replaceEdge
  split
  · have hgone : ∀ e' ∈ n.edges.rows, e' ∉ n.edges.rows.set i e → e' = v := by
      intro e' he' hlost
      by_contra hne
      by_cases hnew : e' = e
      · subst hnew
        obtain ⟨hi, -⟩ := List.getElem?_eq_some_iff.mp hv
        exact hlost (List.mem_set hi e')
      · exact hlost ((mem_set_other hv hnew hne).mpr he')
    constructor
    · intro e' he' hlost
      rw [hgone e' he' hlost]
      exact hrank
    · intro e₁ h₁ e₂ h₂ hlost₁ hlost₂
      rw [hgone e₁ h₁ hlost₁, hgone e₂ h₂ hlost₂]
    · intro e' he'
      rcases List.mem_or_eq_of_mem_set he' with he' | rfl
      · exact .inl he'
      · exact .inr ⟨hto, hsource⟩
  · exact .refl n

section

variable {Etx : Type} (F : F32 Etx) {etx : Etx} {nowMs : UInt32} {updateTimestamp : Bool}
  {heardOn : UInt8}

/-- The edge that scores worst is one the new edge may replace. -/
theorem worstEdge_rank {rows : List Edge} {w : Nat × Etx}
    (h : EdgeStore.worstEdge F rows source nowMs = some w) :
    ∃ v, rows[w.1]? = some v ∧ v.source.rank ≤ source.rank := by
  unfold EdgeStore.worstEdge at h
  refine scan_some (P := fun w : Nat × Etx => ∃ v, rows[w.1]? = some v ∧ v.source.rank ≤ source.rank)
    (fun best row hrow w hw => ?_) (fun w hw => by cases hw) h
  split at hw
  · exact .inl hw
  rename_i hrank
  rcases ite_eq_iff.mp hw with ⟨-, hw⟩ | ⟨-, hw⟩
  · cases hw
    exact .inr ⟨row.1, List.mem_zipIdx_iff_getElem?.mp hrow, by omega⟩
  · exact .inl hw

theorem writeEdge_yields :
    Yields b source n (EdgeStore.writeEdge F n b etx nowMs source updateTimestamp heardOn).1 := by
  unfold EdgeStore.writeEdge
  dsimp only
  split
  · rename_i e he
    split
    · exact .refl n
    · rename_i hrank
      have hto : e.toNode = b := (findEdge_eq_some_iff.mp he).2
      refine @yields_mapEdges n b source e _ (by intro e; split <;> rfl) he (by omega) ?_
        fun e' hne => if_neg (by simpa using hne)
      rw [if_pos (by simpa using hto)]
      rfl
  · split
    · exact yields_pushEdge rfl rfl
    · split
      · exact .refl n
      · rename_i i score hworst
        split
        · exact .refl n
        · obtain ⟨v, hv, hrank⟩ := worstEdge_rank F hworst
          exact yields_replaceEdge hv hrank rfl rfl

/-- When a node published is none of its edges. -/
theorem takeEdge_yields :
    Yields b source n (EdgeStore.takeEdge F n b etx nowMs source updateTimestamp heardOn) := by
  unfold EdgeStore.takeEdge
  cases updateTimestamp with
  | false => exact writeEdge_yields F
  | true =>
    obtain ⟨hweaker, hone, hnew⟩ := @writeEdge_yields (n.touched nowMs) b source _ F etx nowMs true heardOn
    exact ⟨hweaker, hone, hnew⟩

end

end NodeEdges

namespace EdgeStore

/-! ## Room for the ends -/

section

variable {Etx : Type} (F : F32 Etx) {edges : EdgeStore} {me a b nowMs : UInt32} {etx : Etx}
  {source : EdgeSource}

/-- The nodes that an edge from `a` to `b` adds: its owner, and for an edge of ours its
other end. -/
def newEnds (edges : EdgeStore) (me a b : UInt32) : List UInt32 :=
  (if a == me then [a, b] else [a]).filter fun x => (edges.findNode x).isNone

/-- The call creates no node in a full table. -/
def Fits (edges : EdgeStore) (me a b : UInt32) (etx : Etx) (nowMs : UInt32) : Prop :=
  Writable F a b etx → (edges.admitOwner F a nowMs me).isSome = true →
    edges.nodes.rows.length + (edges.newEnds me a b).length ≤ MAX_GRAPH_NODES

/-- A node that is stored, or that there is room for, is there from then on, and costs no
edge. -/
theorem findOrCreateNode_fits
    (h : (edges.findNode a).isSome = true ∨ edges.nodes.rows.length < MAX_GRAPH_NODES) :
    ∃ u, edges.findOrCreateNode F a nowMs me = some u ∧ SameEdges edges u ∧
      (∀ x, x ≠ a → u.findNode x = edges.findNode x) ∧
      u.nodes.rows.length = edges.nodes.rows.length +
        if (edges.findNode a).isSome then 0 else 1 := by
  unfold findOrCreateNode
  by_cases hstored : (edges.findNode a).isSome = true
  · rw [if_pos hstored, if_pos hstored]
    exact ⟨edges, rfl, .refl edges, fun _ _ => rfl, rfl⟩
  · have hroom := h.resolve_left hstored
    have hnone : edges.findNode a = none := by simpa using hstored
    rw [if_neg hstored, if_pos hroom, if_neg hstored, Option.map_some]
    refine ⟨_, rfl, fun x y => edge_pushNode_fresh, fun x hx => ?_, ?_⟩
    · rw [findNode_pushNode hnone hroom]
      exact if_neg hx
    · rw [pushNode_rows hnone hroom, List.length_append]
      rfl

omit F in
theorem newEnds_length :
    (edges.newEnds me a b).length = (if (edges.findNode a).isSome then 0 else 1) +
      if a = me then (if (edges.findNode b).isSome then 0 else 1) else 0 := by
  unfold newEnds
  by_cases ha : a = me
  · rw [if_pos (by simpa using ha), if_pos ha]
    cases hna : edges.findNode a <;> cases hnb : edges.findNode b <;> simp [hna, hnb]
  · rw [if_neg (by simpa using ha), if_neg ha]
    cases hna : edges.findNode a <;> simp [hna]

/-- Where the ends fit, nothing but the owner's list is changed. -/
theorem classifyEnds_fits {u : EdgeStore} (hw : Writable F a b etx)
    (hcreated : edges.findOrCreateNode F a nowMs me = some u)
    (hroom : edges.nodes.rows.length + (edges.newEnds me a b).length ≤ MAX_GRAPH_NODES) :
    SameEdges edges (u.classifyEnds F me a b nowMs source) := by
  obtain ⟨-, -, hab, -⟩ := hw
  rw [newEnds_length] at hroom
  obtain ⟨u', hu', hsame, hothers, hlen⟩ := @findOrCreateNode_fits _ F edges me a nowMs (by
    by_cases ha : (edges.findNode a).isSome = true
    · exact .inl ha
    · rw [if_neg ha] at hroom
      exact .inr (by omega))
  rw [hcreated, Option.some.injEq] at hu'
  subst hu'
  by_cases ha : a = me
  · subst ha
    rw [if_pos rfl, ← hothers b (Ne.symm hab)] at hroom
    obtain ⟨v, hv, hboth, -, -⟩ := @findOrCreateNode_fits _ F u a b nowMs (by
      by_cases hb : (u.findNode b).isSome = true
      · exact .inl hb
      · rw [if_neg hb] at hroom
        exact .inr (by omega))
    unfold classifyEnds
    rw [if_pos (beq_self_eq_true a), hv]
    dsimp only [Option.getD_some]
    split
    · exact hsame.trans (hboth.trans (sameEdges_setL1 b))
    · exact hsame.trans hboth
  · rcases @classifyEnds_other _ F u me a b nowMs source ha with h | ⟨cls, parentHint, h⟩
    · rw [h]
      exact hsame
    · rw [h]
      exact hsame.trans (sameEdges_setNodeClass a cls parentHint)

/-! ## `update_edge` -/

/-- The edge `e` of `a` to `b` is overwritten, repriced, re-stamped or removed. -/
def Displaced (edges edges' : EdgeStore) (a b : UInt32) (e : Edge) : Prop :=
  edges.edge a b = some e ∧ edges'.edge a b ≠ some e

/-- The list of `a` yields an edge, in a store that is otherwise as it was. -/
theorem displaced_modifyNode {edges' : EdgeStore} {f : NodeEdges → NodeEdges} {hf} {n : NodeEdges}
    (hsame : SameEdges edges edges') (hn : edges'.findNode a = some n)
    (hyields : NodeEdges.Yields b source n (f n)) :
    (∀ c x, c ≠ a → (edges'.modifyNode a f hf).edge c x = edges.edge c x) ∧
      (∀ x e, Displaced edges (edges'.modifyNode a f hf) a x e → e.source.rank ≤ source.rank) ∧
      (∀ x y e e', Displaced edges (edges'.modifyNode a f hf) a x e →
        Displaced edges (edges'.modifyNode a f hf) a y e' → x = y) ∧
      ∀ x e, (edges'.modifyNode a f hf).edge a x = some e →
        edges.edge a x = some e ∨ x = b ∧ e.source = source := by
  have hold : ∀ x e, edges.edge a x = some e ↔ e ∈ n.edges.rows ∧ e.toNode = x := by
    intro x e
    rw [← hsame a x]
    unfold edge
    rw [hn, Option.bind_some]
    exact NodeEdges.findEdge_eq_some_iff
  have hnow : ∀ x e, (edges'.modifyNode a f hf).edge a x = some e ↔
      e ∈ (f n).edges.rows ∧ e.toNode = x := by
    intro x e
    unfold edge
    rw [findNode_modifyNode_self, hn, Option.map_some, Option.bind_some]
    exact NodeEdges.findEdge_eq_some_iff
  have hlost : ∀ x e, Displaced edges (edges'.modifyNode a f hf) a x e →
      e ∈ n.edges.rows ∧ e ∉ (f n).edges.rows ∧ e.toNode = x := by
    rintro x e ⟨he, hne⟩
    rw [hold] at he
    rw [Ne, hnow, and_iff_left he.2] at hne
    exact ⟨he.1, hne, he.2⟩
  refine ⟨fun c x hc => ?_, fun x e hd => ?_, fun x y e e' hd hd' => ?_, fun x e he => ?_⟩
  · rw [← hsame c x]
    unfold edge
    rw [findNode_modifyNode_other _ _ hc]
  · obtain ⟨hmem, hgone, -⟩ := hlost x e hd
    exact hyields.weaker e hmem hgone
  · obtain ⟨hmem, hgone, rfl⟩ := hlost x e hd
    obtain ⟨hmem', hgone', rfl⟩ := hlost y e' hd'
    rw [hyields.one e hmem e' hmem' hgone hgone']
  · rw [hnow] at he
    rw [hold]
    obtain ⟨hmem, rfl⟩ := he
    exact (hyields.new e hmem).imp_left fun h => ⟨h, rfl⟩

/-- Unless the call creates a node in a full table: what it displaces is of the sender's
list and of no higher rank than its source, one edge at most; the other lists are as they
were; and the sender's has nothing new but the edge to `b`. -/
theorem update_edge_respects_rank (edges : EdgeStore) (me a b : UInt32) (etx : Etx) (nowMs : UInt32)
    (source : EdgeSource) (updateTimestamp : Bool) (heardOn : UInt8)
    (hfits : edges.Fits F me a b etx nowMs) :
    let edges' := (edges.updateEdge F me a b etx nowMs source updateTimestamp heardOn).1
    (∀ c x e, Displaced edges edges' c x e → c = a ∧ e.source.rank ≤ source.rank) ∧
      (∀ c x, c ≠ a → edges'.edge c x = edges.edge c x) ∧
      (∀ x y e e', Displaced edges edges' a x e → Displaced edges edges' a y e' → x = y) ∧
      ∀ x e, edges'.edge a x = some e → edges.edge a x = some e ∨ x = b ∧ e.source = source := by
  intro edges'
  suffices h : (∀ c x, c ≠ a → edges'.edge c x = edges.edge c x) ∧
      (∀ x e, Displaced edges edges' a x e → e.source.rank ≤ source.rank) ∧
      (∀ x y e e', Displaced edges edges' a x e → Displaced edges edges' a y e' → x = y) ∧
      ∀ x e, edges'.edge a x = some e → edges.edge a x = some e ∨ x = b ∧ e.source = source by
    obtain ⟨hothers, hrank, hone, hnew⟩ := h
    refine ⟨fun c x e hd => ?_, hothers, hone, hnew⟩
    by_cases hc : c = a
    · subst hc
      exact ⟨rfl, hrank x e hd⟩
    · exact absurd ((hothers c x hc).trans hd.1) hd.2
  rcases @updateEdge_steps _ F edges me a b nowMs etx source updateTimestamp heardOn with
    ⟨-, heq⟩ | ⟨u, n, hw, hadmitted, hcreated, hn, heq⟩
  · have hedges : edges' = edges := congrArg Prod.fst heq
    rw [hedges]
    exact ⟨fun _ _ _ => rfl, fun x e hd => absurd hd.1 hd.2, fun x y e e' hd => absurd hd.1 hd.2,
      fun x e he => .inl he⟩
  · have hedges := congrArg Prod.fst heq
    dsimp only at hedges
    change edges' = _ at hedges
    rw [hedges]
    exact displaced_modifyNode (classifyEnds_fits F hw hcreated (hfits hw hadmitted)) hn
      (NodeEdges.takeEdge_yields F)

/-- Node 1 measures node 2, which published what it measured of node 3. -/
def publishedByTwo : EdgeStore :=
  ((EdgeStore.empty.updateEdge hundredths 1 1 2 100 1000 .reported true 0).1.updateEdge hundredths 1 2 3
    1500 1000 .mirrored true 0).1

/-- A guess does not reprice what was published. -/
theorem update_edge_respects_rank_sample :
    let edges' := (publishedByTwo.updateEdge hundredths 1 2 3 157 2000 .inferred true 0).1
    (publishedByTwo.edge 2 3).map (fun e => (e.source, e.etxFixed)) = some (.mirrored, 1500) ∧
      edges'.edge 2 3 = publishedByTwo.edge 2 3 ∧
      ∀ c x, c ≠ 2 → edges'.edge c x = publishedByTwo.edge c x := by
  intro edges'
  obtain ⟨hrank, hothers, -, -⟩ := update_edge_respects_rank hundredths publishedByTwo 1 2 3 157 2000
    .inferred true 0 fun _ _ => by decide +kernel
  have hpublished : (publishedByTwo.edge 2 3).map (fun e => (e.source, e.etxFixed)) =
      some (.mirrored, 1500) := by decide +kernel
  refine ⟨hpublished, ?_, hothers⟩
  obtain ⟨e, he, hsource⟩ := Option.map_eq_some_iff.mp hpublished
  by_contra hne
  have hweak := (hrank 2 3 e ⟨he, fun he' => hne (he'.trans he.symm)⟩).2
  rw [(Prod.mk.inj hsource).1] at hweak
  exact absurd hweak (by decide)

end

end EdgeStore

end Meshrustic.Topology
