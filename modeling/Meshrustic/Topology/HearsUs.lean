import Meshrustic.Topology.CachedLinks
import Meshrustic.Topology.RelayIdentity

/-!
# Who hears us (`neighbor_graph.rs:2420-2426, 2624-2671`, `router.rs:4548-4588`)

A flag on our own edge says that the node at its other end hears us. It is set by a list that
names us, by a direct frame that names us as its next hop, and by a relay that is heard to
carry a packet of ours. Which packets are ours is asked of the commits, and a commit is ended
by the transmission it was made for: the relay of a packet that we have yet to send counts
as well, and so does the originator of a copy that names no relay.

Results:
* `NeighborGraph.observePacket_confirms`, `mergeTopology_confirms` and their like: what each
  call can set.
* `hears_us_on_evidence`: in a run without such copies, every flag is proven.
* `commit_confirms_hears_us`: a run with one, in which we send nothing.
-/
namespace Meshrustic.Topology

open Meshrustic.Graph Meshrustic.Routing

/-! ## Flags -/

/-- No edge of `n'` has a flag that the edge of `n` to the same node has not. -/
def NodeEdges.NoNewFlags (n n' : NodeEdges) : Prop :=
  ∀ e' ∈ n'.edges.rows, e'.hearsUs = true →
    ∃ e ∈ n.edges.rows, e.toNode = e'.toNode ∧ e.hearsUs = true

namespace NodeEdges.NoNewFlags

variable {n n' n'' : NodeEdges}

theorem refl (n : NodeEdges) : NoNewFlags n n := fun e he hflag => ⟨e, he, rfl, hflag⟩

theorem trans (h : NoNewFlags n n') (h' : NoNewFlags n' n'') : NoNewFlags n n'' := by
  intro e'' he hflag
  obtain ⟨e', he', hto', hflag'⟩ := h' e'' he hflag
  obtain ⟨e, he, hto, hflag⟩ := h e' he' hflag'
  exact ⟨e, he, hto.trans hto', hflag⟩

theorem mapEdges {f : Edge → Edge} {hf} (h : ∀ e, (f e).hearsUs = true → e.hearsUs = true) :
    NoNewFlags n (n.mapEdges f hf) := by
  intro e' he' hflag
  obtain ⟨e, he, rfl⟩ := List.mem_map.mp he'
  exact ⟨e, he, (hf e).symm, h e hflag⟩

theorem filterEdges {p : Edge → Bool} : NoNewFlags n (n.filterEdges p) :=
  fun e he hflag => ⟨e, (List.mem_filter.mp he).1, rfl, hflag⟩

theorem pushEdge {e : Edge} (h : e.hearsUs = false) : NoNewFlags n (n.pushEdge e) := by
  unfold NodeEdges.pushEdge
  split
  · intro e' he' hflag
    rcases List.mem_append.mp he' with he' | he'
    · exact ⟨e', he', rfl, hflag⟩
    · rw [List.mem_singleton.mp he', h] at hflag
      cases hflag
  · exact .refl n

theorem replaceEdge {i : Nat} {e : Edge} (h : e.hearsUs = false) :
    NoNewFlags n (n.replaceEdge i e) := by
  unfold NodeEdges.replaceEdge
  split
  · intro e' he' hflag
    rcases List.mem_or_eq_of_mem_set he' with he' | rfl
    · exact ⟨e', he', rfl, hflag⟩
    · rw [h] at hflag
      cases hflag
  · exact .refl n

end NodeEdges.NoNewFlags

namespace EdgeStore

/-- The edge is there, with its flag. -/
def Flagged (edges : EdgeStore) (a b : UInt32) : Prop :=
  ∃ e, edges.edge a b = some e ∧ e.hearsUs = true

/-- Every flag was there. -/
def NoNewFlags (edges edges' : EdgeStore) : Prop :=
  ∀ a b, edges'.Flagged a b → edges.Flagged a b

section

variable {edges edges' edges'' : EdgeStore} {a b x y : UInt32}

theorem flagged_iff : edges.Flagged a b ↔
    ∃ n ∈ edges.nodes.rows, n.nodeId = a ∧
      ∃ e ∈ n.edges.rows, e.toNode = b ∧ e.hearsUs = true := by
  constructor
  · rintro ⟨e, he, hflag⟩
    obtain ⟨n, hn, he⟩ := edge_eq_some_iff.mp he
    obtain ⟨hmem, hid⟩ := findNode_eq_some_iff.mp hn
    obtain ⟨hin, hto⟩ := NodeEdges.findEdge_eq_some_iff.mp he
    exact ⟨n, hmem, hid, e, hin, hto, hflag⟩
  · rintro ⟨n, hmem, hid, e, hin, hto, hflag⟩
    exact ⟨e, edge_eq_some_iff.mpr ⟨n, findNode_eq_some_iff.mpr ⟨hmem, hid⟩,
      NodeEdges.findEdge_eq_some_iff.mpr ⟨hin, hto⟩⟩, hflag⟩

theorem not_flagged_empty : ¬EdgeStore.empty.Flagged a b := by
  intro hflag
  obtain ⟨n, hn, -⟩ := flagged_iff.mp hflag
  exact absurd hn List.not_mem_nil

theorem NoNewFlags.refl (edges : EdgeStore) : NoNewFlags edges edges := fun _ _ h => h

theorem NoNewFlags.trans (h : NoNewFlags edges edges') (h' : NoNewFlags edges' edges'') :
    NoNewFlags edges edges'' := fun a b hflag => h a b (h' a b hflag)

theorem Loses.noNewFlags (h : Loses edges edges') : NoNewFlags edges edges' :=
  fun a b ⟨e, he, hflag⟩ => ⟨e, h a b e he, hflag⟩

theorem SameEdges.noNewFlags (h : SameEdges edges edges') : NoNewFlags edges edges' :=
  h.loses.noNewFlags

theorem noNewFlags_mapNodes {f : NodeEdges → NodeEdges} {hf}
    (h : ∀ n, NodeEdges.NoNewFlags n (f n)) : NoNewFlags edges (edges.mapNodes f hf) := by
  intro a b hflag
  rw [flagged_iff] at hflag ⊢
  obtain ⟨n', hn', hid, e', he', hto, hflag⟩ := hflag
  obtain ⟨n, hn, rfl⟩ := List.mem_map.mp hn'
  obtain ⟨e, he, hto', hflag⟩ := h n e' he' hflag
  exact ⟨n, hn, (hf n).symm.trans hid, e, he, hto'.trans hto, hflag⟩

theorem noNewFlags_modifyNode {nodeId : UInt32} {f : NodeEdges → NodeEdges} {hf}
    (h : ∀ n, NodeEdges.NoNewFlags n (f n)) : NoNewFlags edges (edges.modifyNode nodeId f hf) := by
  refine noNewFlags_mapNodes fun n => ?_
  split
  · exact h n
  · exact .refl n

theorem noNewFlags_modifyEdge {f : Edge → Edge} (h : ∀ e, (f e).hearsUs = e.hearsUs) :
    NoNewFlags edges (edges.modifyEdge a b f) := by
  refine noNewFlags_modifyNode fun n => .mapEdges fun e he => ?_
  split at he
  · exact (h e).symm.trans he
  · exact he

/-- A flag that is set: the one of this edge, and no other. -/
theorem flagged_setEdgeHearsUs {hearsUs : Bool}
    (h : (edges.setEdgeHearsUs a b hearsUs).Flagged x y) :
    edges.Flagged x y ∨ x = a ∧ y = b ∧ hearsUs = true := by
  rw [flagged_iff] at h
  obtain ⟨n', hn', hid, e', he', hto, hflag⟩ := h
  obtain ⟨n, hn, rfl⟩ := List.mem_map.mp hn'
  split at he'
  · rename_i ha
    rw [if_pos ha] at hid
    obtain ⟨e, he, rfl⟩ := List.mem_map.mp he'
    split at hflag
    · rename_i hb
      rw [if_pos hb] at hto
      exact .inr ⟨hid.symm.trans (beq_iff_eq.mp ha), hto.symm.trans (beq_iff_eq.mp hb), hflag⟩
    · rename_i hb
      rw [if_neg hb] at hto
      exact .inl (flagged_iff.mpr ⟨n, hn, hid, e, he, hto, hflag⟩)
  · rename_i ha
    rw [if_neg ha] at hid
    exact .inl (flagged_iff.mpr ⟨n, hn, hid, e', he', hto, hflag⟩)

theorem noNewFlags_pushNode {nodeId nowMs : UInt32} {cls : NodeClass} {parentHint : UInt32} :
    NoNewFlags edges (edges.pushNode (.fresh nodeId nowMs cls parentHint)) := by
  intro a b ⟨e, he, hflag⟩
  rw [edge_pushNode_fresh] at he
  exact ⟨e, he, hflag⟩

theorem noNewFlags_removeEdge : NoNewFlags edges (edges.removeEdge a b).1 := by
  unfold removeEdge
  split
  · exact .refl edges
  · dsimp only
    exact noNewFlags_modifyNode fun n => .filterEdges

variable {Etx : Type} (F : F32 Etx) {nodeId me nowMs : UInt32} {etx : Etx} {source : EdgeSource}
  {updateTimestamp : Bool} {heardOn : UInt8}

theorem loses_evictForCapacity {ds ds' : Option DownstreamTable}
    (h : edges.evictForCapacity F nowMs me ds = some (edges', ds')) : Loses edges edges' := by
  unfold evictForCapacity at h
  split at h
  · cases h
  split at h
  · cases h
  dsimp only at h
  split at h
  · cases h
    exact (sameEdges_applyDemotion F _ _ _ _).loses.trans (loses_removeNodeAt _)
  · cases h
    have hparked : ∀ pending, Loses edges { edges with pendingDemotion := pending } :=
      fun pending => SameEdges.loses fun _ _ => rfl
    exact (hparked _).trans (loses_removeNodeAt _)
  · cases h
  · cases h
    exact loses_removeNodeAt _

theorem noNewFlags_findOrCreateNode
    (h : edges.findOrCreateNode F nodeId nowMs me = some edges') : NoNewFlags edges edges' := by
  unfold findOrCreateNode at h
  split at h
  · cases h
    exact .refl edges
  · dsimp only at h
    obtain ⟨room, hroom, rfl⟩ := Option.map_eq_some_iff.mp h
    refine NoNewFlags.trans ?_ noNewFlags_pushNode
    split at hroom
    · cases hroom
      exact .refl edges
    · obtain ⟨⟨room', ds⟩, hevict, rfl⟩ := Option.map_eq_some_iff.mp hroom
      exact (loses_evictForCapacity F hevict).noNewFlags

theorem noNewFlags_createdOr :
    NoNewFlags edges ((edges.findOrCreateNode F nodeId nowMs me).getD edges) := by
  cases h : edges.findOrCreateNode F nodeId nowMs me with
  | none => exact .refl edges
  | some edges' => exact noNewFlags_findOrCreateNode F h

theorem noNewFlags_ensurePublisher {cls : NodeClass} {parentHint : UInt32} {ds : DownstreamTable} :
    NoNewFlags edges (edges.ensurePublisher F nodeId cls parentHint nowMs me ds).1 := by
  unfold ensurePublisher
  split
  · exact .refl edges
  split
  · exact .refl edges
  split
  · exact ((sameEdges_setNodeClass _ _ _).trans (sameEdges_touchNode _ _)).noNewFlags
  · dsimp only
    split
    · exact .refl edges
    · rename_i room ds' hroom
      refine NoNewFlags.trans ?_ noNewFlags_pushNode
      split at hroom
      · cases hroom
        exact .refl edges
      · split at hroom
        · rename_i hevict
          cases hroom
          exact (loses_evictForCapacity F hevict).noNewFlags
        · cases hroom

theorem noNewFlags_admitOwner (h : edges.admitOwner F a nowMs me = some edges') :
    NoNewFlags edges edges' := by
  unfold admitOwner at h
  split at h
  · cases h
    exact .refl edges
  split at h
  · cases h
    exact noNewFlags_createdOr F
  split at h
  · cases h
  split at h
  · cases h
    exact .refl edges
  · cases h

theorem noNewFlags_classifyEnds : NoNewFlags edges (edges.classifyEnds F me a b nowMs source) := by
  unfold classifyEnds
  split
  · dsimp only
    split
    · exact (noNewFlags_createdOr F).trans (sameEdges_setL1 _).noNewFlags
    · exact noNewFlags_createdOr F
  · dsimp only
    split
    · exact (sameEdges_setNodeClass _ _ _).noNewFlags
    · exact .refl edges

theorem noNewFlags_takeEdge {n : NodeEdges} :
    NodeEdges.NoNewFlags n (takeEdge F n b etx nowMs source updateTimestamp heardOn) := by
  unfold takeEdge
  have htouched : NodeEdges.NoNewFlags n (if updateTimestamp then n.touched nowMs else n) := by
    split
    · exact .refl n
    · exact .refl n
  refine htouched.trans ?_
  generalize (if updateTimestamp then n.touched nowMs else n) = n
  unfold writeEdge
  dsimp only
  split
  · split
    · exact .refl n
    · dsimp only
      refine .mapEdges fun e he => ?_
      split at he
      · exact he
      · exact he
  split
  · exact .pushEdge rfl
  split
  · exact .refl n
  split
  · exact .refl n
  · exact .replaceEdge rfl

/-- A new edge has no flag, and one that is measured again keeps its own. -/
theorem noNewFlags_updateEdge :
    NoNewFlags edges (edges.updateEdge F me a b etx nowMs source updateTimestamp heardOn).1 := by
  unfold updateEdge
  split
  · exact .refl edges
  split
  · exact .refl edges
  rename_i edges₁ hadmit
  have hadmitted := noNewFlags_admitOwner F hadmit
  split
  · exact hadmitted
  rename_i edges₂ hcreate
  have hclassed : NoNewFlags edges (edges₂.classifyEnds F me a b nowMs source) :=
    (hadmitted.trans (noNewFlags_findOrCreateNode F hcreate)).trans (noNewFlags_classifyEnds F)
  dsimp only
  split
  · exact hclassed
  · dsimp only
    exact hclassed.trans (noNewFlags_modifyNode fun n => noNewFlags_takeEdge F)

theorem loses_dropVictim {st : EdgeStore × DownstreamTable × Bool} {victim : UInt32} :
    Loses st.1 (dropVictim F me nowMs st victim).1 := by
  unfold dropVictim
  cases st.1.pickL1Parent victim me with
  | none => exact loses_removeNode victim
  | some p => exact (sameEdges_applyDemotion F _ _ _ _).loses.trans (loses_removeNode victim)

theorem loses_ageEdges {ttlMs : UInt32} {ds : DownstreamTable} :
    Loses edges (edges.ageEdges F me nowMs ttlMs ds).1 := by
  unfold ageEdges
  have hold : Loses edges (edges.dropOldEdges nowMs ttlMs).1 := loses_filterEdges _
  generalize edges.dropOldEdges nowMs ttlMs = r at hold
  obtain ⟨edges', changed⟩ := r
  dsimp only at hold ⊢
  have hdrop : ∀ (victims : List UInt32) (st : EdgeStore × DownstreamTable × Bool), Loses edges st.1 →
      Loses edges (victims.foldl (dropVictim F me nowMs) st).1 := by
    intro victims
    induction victims with
    | nil => exact fun st h => h
    | cons victim victims ih => exact fun st h => ih _ (h.trans (loses_dropVictim F))
  have hdropped := hdrop ((edges'.nodes.rows.filter (edges'.ages me nowMs ttlMs)).map (·.nodeId))
    (edges', ds, changed) hold
  split
  · exact hdropped.trans (loses_prune F _ _ _)
  · exact hdropped

end

end EdgeStore

namespace NeighborGraph

open EdgeStore

/-- mirrors crates/mesh-routing/src/neighbor_graph.rs:2420-2426 -/
def edgeHearsUs (g : NeighborGraph) (nextHop : UInt32) : Bool :=
  (g.edges.edge g.myNode nextHop).any (·.hearsUs)

/-- Our own edges have no flags that were not there, but those to nodes in `P`. -/
structure Confirms (P : UInt32 → Prop) (g g' : NeighborGraph) : Prop where
  me : g'.myNode = g.myNode
  flags : ∀ n, g'.edgeHearsUs n = true → g.edgeHearsUs n = true ∨ P n

section

variable {g g' g'' : NeighborGraph} {P Q : UInt32 → Prop}

theorem edgeHearsUs_iff {n : UInt32} : g.edgeHearsUs n = true ↔ g.edges.Flagged g.myNode n := by
  unfold edgeHearsUs Flagged
  rw [Option.any_eq_true]

theorem Confirms.refl (g : NeighborGraph) : Confirms P g g := ⟨rfl, fun _ => .inl⟩

theorem Confirms.trans (h : Confirms P g g') (h' : Confirms P g' g'') : Confirms P g g'' where
  me := h'.me.trans h.me
  flags n hflag := (h'.flags n hflag).elim (h.flags n) .inr

theorem Confirms.mono (h : Confirms P g g') (hPQ : ∀ n, P n → Q n) : Confirms Q g g' :=
  ⟨h.me, fun n hflag => (h.flags n hflag).imp_right (hPQ n)⟩

theorem Confirms.of_noNewFlags (hme : g'.myNode = g.myNode) (h : NoNewFlags g.edges g'.edges) :
    Confirms P g g' := by
  refine ⟨hme, fun n hflag => .inl ?_⟩
  rw [edgeHearsUs_iff] at hflag ⊢
  rw [hme] at hflag
  exact h _ _ hflag

/-- A change that leaves the store alone. -/
theorem Confirms.same (hme : g'.myNode = g.myNode) (hedges : g'.edges = g.edges) : Confirms P g g' :=
  Confirms.of_noNewFlags hme (by rw [hedges]; exact .refl _)

end

/-! ## Observations -/

section

variable {Etx : Type} (F : F32 Etx) {g : NeighborGraph} {P : UInt32 → Prop} {b nowMs : UInt32}
  {rssi : Int16} {snr : Int8} {heardOn : UInt8} {p : Observation}

theorem withLocalNode_confirms : Confirms P g (g.withLocalNode F nowMs) :=
  Confirms.of_noNewFlags rfl (loses_ensureLocalNode F).noNewFlags

theorem noteSilence_confirms : Confirms P g (g.noteSilence F b nowMs) := by
  unfold noteSilence
  extract_lets prevHeard gap silence
  split
  · exact Confirms.of_noNewFlags rfl (noNewFlags_modifyEdge fun _ => rfl)
  · exact .refl g

theorem measureNeighbor_confirms :
    Confirms P g (g.measureNeighbor F b rssi snr nowMs heardOn).1 :=
  Confirms.of_noNewFlags rfl (((noNewFlags_updateEdge F).trans (noNewFlags_updateEdge F)).trans
    (noNewFlags_modifyEdge fun _ => rfl))

theorem refresh_confirms :
    Confirms P g (g.refreshReportedDirectNeighbor F b rssi snr nowMs heardOn).1 := by
  unfold refreshReportedDirectNeighbor
  dsimp only
  obtain ⟨directSignals, heq⟩ := @upsertDirectSignal_graph
    (((g.withLocalNode F nowMs).noteSilence F b nowMs).measureNeighbor F b rssi snr nowMs heardOn).1
    b nowMs rssi snr
  rw [heq]
  have hmeasured : Confirms P g
      (((g.withLocalNode F nowMs).noteSilence F b nowMs).measureNeighbor F b rssi snr nowMs heardOn).1 :=
    ((withLocalNode_confirms F).trans (noteSilence_confirms F)).trans (measureNeighbor_confirms F)
  exact hmeasured.trans (.same rfl rfl)

theorem observeDirectNeighbor_confirms :
    Confirms P g (g.observeDirectNeighbor F b rssi snr nowMs heardOn).1 := by
  unfold observeDirectNeighbor
  split
  · exact .refl g
  split
  · exact .refl g
  rename_i rssi snr hsignal
  have hfresh : Confirms P g (g.refreshReportedDirectNeighbor F b rssi snr nowMs heardOn).1 :=
    refresh_confirms F
  dsimp only
  split
  · exact hfresh.trans (.same rfl rfl)
  · exact hfresh.trans (.same rfl rfl)

theorem retractDirectLinkInner_confirms {neighbor : UInt32} {cascade : Bool} :
    Confirms P g (g.retractDirectLinkInner F neighbor cascade).1 := by
  unfold retractDirectLinkInner
  split
  · exact .refl g
  dsimp only
  have hremoved : NoNewFlags g.edges
      ((g.edges.removeEdge g.myNode neighbor).1.removeEdge neighbor g.myNode).1 :=
    noNewFlags_removeEdge.trans noNewFlags_removeEdge
  split
  · cases cascade with
    | true => exact Confirms.of_noNewFlags rfl (hremoved.trans (loses_prune F _ _ _).noNewFlags)
    | false => exact Confirms.of_noNewFlags rfl hremoved
  · exact Confirms.of_noNewFlags rfl hremoved

theorem retractTravelling_confirms : Confirms P g (g.retractTravelling F p) := by
  unfold retractTravelling
  split
  · dsimp only
    have hretracted : Confirms P g (g.retractDirectLinkInner F p.fromNode true).1 :=
      retractDirectLinkInner_confirms F
    split
    · exact hretracted.trans (.same rfl rfl)
    · exact hretracted
  · exact .refl g

theorem observeRelayGatewaySignal_confirms :
    Confirms P g (g.observeRelayGatewaySignal F b rssi snr nowMs heardOn).1 := by
  unfold observeRelayGatewaySignal
  split
  · exact .refl g
  dsimp only
  have hfresh : Confirms P g (g.refreshReportedDirectNeighbor F b rssi snr nowMs heardOn).1 :=
    refresh_confirms F
  split
  · exact hfresh.trans (.same rfl rfl)
  · exact hfresh

theorem Confirms.clearOn {g' : NeighborGraph} (h : Confirms P g g') (change : EdgeChange) :
    Confirms P g (g'.clearOn change) := by
  unfold NeighborGraph.clearOn
  split
  · exact h.trans (.same rfl rfl)
  · exact h

theorem inferRelayEdge_confirms : Confirms P g (g.inferRelayEdge F b p) := by
  unfold inferRelayEdge
  dsimp only
  split
  · refine Confirms.clearOn ?_ _
    exact Confirms.of_noNewFlags rfl (noNewFlags_updateEdge F)
  · exact .refl g

theorem mirrorRelayEdge_confirms : Confirms P g (g.mirrorRelayEdge F b rssi snr p) := by
  unfold mirrorRelayEdge
  refine Confirms.clearOn ?_ _
  exact Confirms.of_noNewFlags rfl (noNewFlags_updateEdge F)

/-- The one place where a flag of ours is set, apart from the lists. -/
theorem confirm_confirms (neighbor : UInt32) :
    Confirms (· = neighbor) g (g.confirmDirectNeighborHearsUs neighbor).1 := by
  unfold confirmDirectNeighborHearsUs
  split
  · exact .refl g
  split
  · exact .refl g
  split
  · exact .refl g
  · refine ⟨rfl, fun n hflag => ?_⟩
    rw [edgeHearsUs_iff] at hflag ⊢
    exact (flagged_setEdgeHearsUs hflag).imp_right fun h => h.2.1

theorem maybeConfirm_confirms {gateway packetFrom : UInt32} {committed : Bool} :
    Confirms (fun n => n = gateway ∧ n ≠ g.myNode ∧ (packetFrom = g.myNode ∨ committed = true)) g
      (g.maybeConfirmHearsUsFromRelay gateway packetFrom committed).1 := by
  unfold maybeConfirmHearsUsFromRelay
  split
  · exact .refl g
  rename_i hgateway
  split
  · exact .refl g
  · rename_i hours
    refine (confirm_confirms gateway).mono fun n hn => ⟨hn, ?_, ?_⟩
    · rw [hn]
      exact fun h => hgateway (by simp [h])
    · rw [Bool.not_eq_true, Bool.and_eq_false_iff] at hours
      simpa using hours

theorem inferDownstream_confirms {gateway : UInt32} {travelling sourcePublishes : Bool} :
    Confirms P g (g.inferDownstream F gateway p travelling sourcePublishes) := by
  have hsame : ∀ downstream, Confirms P g { g with downstream := downstream, routeCache := .empty } :=
    fun downstream => .same rfl rfl
  unfold inferDownstream
  extract_lets relayHearsUs listsRelay canInfer infers destInBall listParked stealOk pathEtx existing
  split
  · split
    · exact hsame _
    · split
      · split
        · exact .refl g
        · exact hsame _
      · exact .refl g
  · exact .refl g

/-- What a relayed frame proves: that its relay hears us, if we sent the packet or are
to relay it. -/
def RelayProof (g : NeighborGraph) (p : Observation) (n : UInt32) : Prop :=
  (∃ signal, g.observedGateway p = some (n, signal)) ∧ (p.fromNode = g.myNode ∨ p.committed = true)

theorem observeRelayedPacket_confirms :
    Confirms (g.RelayProof p) g (g.observeRelayedPacket F p).1 := by
  unfold observeRelayedPacket
  split
  · exact .refl g
  rename_i gateway rssi snr hgateway
  dsimp only
  unfold hearRelay
  dsimp only
  have hready : Confirms (g.RelayProof p) g ((g.retractTravelling F p).withLocalNode F p.nowMs) :=
    (retractTravelling_confirms F).trans (withLocalNode_confirms F)
  generalize (g.retractTravelling F p).withLocalNode F p.nowMs = ready at hready ⊢
  have hwritten : Confirms (g.RelayProof p) g (((ready.observeRelayGatewaySignal F gateway rssi snr p.nowMs
      p.heardOn).1.inferRelayEdge F gateway p).mirrorRelayEdge F gateway rssi snr p) :=
    ((hready.trans (observeRelayGatewaySignal_confirms F)).trans (inferRelayEdge_confirms F)).trans
      (mirrorRelayEdge_confirms F)
  refine (hwritten.trans (maybeConfirm_confirms.mono ?_)).trans (inferDownstream_confirms F)
  rintro n ⟨rfl, -, hours⟩
  rw [hwritten.me] at hours
  exact ⟨⟨_, hgateway⟩, hours⟩

theorem observePacket_confirms :
    Confirms (fun n => Routing.isDirectPacket p.fromNode p.hopStart p.hopLimit p.relayNode = false ∧
      g.RelayProof p n) g (g.observePacket F p).1 := by
  unfold observePacket
  split
  · exact observeDirectNeighbor_confirms F
  · rename_i hrelayed
    rw [Bool.not_eq_true] at hrelayed
    exact (observeRelayedPacket_confirms F).mono fun n h => ⟨hrelayed, h⟩

/-! ## Lists -/

variable {c : Call}

theorem mirrorNeighbor_confirms {direct : Bool} {n : PackedNeighbor} {etx : Etx}
    (hsender : c.sender ≠ g.myNode) :
    Confirms (fun m => m = c.sender ∧ n.nodeId = g.myNode) g
      { g with edges := g.mirrorNeighbor F c direct n etx } := by
  unfold mirrorNeighbor
  split
  · refine ⟨rfl, fun m hflag => ?_⟩
    rw [edgeHearsUs_iff] at hflag ⊢
    dsimp only at hflag
    have hlisted : ∀ {edges : EdgeStore} {v : Bool}, (edges.setEdgeHearsUs c.sender n.nodeId v).Flagged
        g.myNode m → edges.Flagged g.myNode m := fun h =>
      (flagged_setEdgeHearsUs h).resolve_right fun h => hsender h.1.symm
    split at hflag
    · rename_i hnamed
      rcases flagged_setEdgeHearsUs hflag with hflag | ⟨-, hm, -⟩
      · exact .inl (noNewFlags_updateEdge F _ _ (hlisted hflag))
      · exact .inr ⟨hm, by simpa using hnamed⟩
    · rename_i hother
      rcases flagged_setEdgeHearsUs hflag with hflag | ⟨hme, -, -⟩
      · exact .inl (noNewFlags_updateEdge F _ _ (hlisted hflag))
      · exact absurd hme.symm (by simpa using hother)
  · exact .refl g

theorem tryAdmit_confirms {sender listed : UInt32} {direct : Bool} :
    Confirms P g (g.tryAdmitListedPublisher F sender listed direct nowMs).1 := by
  unfold tryAdmitListedPublisher
  split
  · exact .refl g
  split
  · exact .refl g
  extract_lets cls
  clear_value cls
  cases cls with
  | none => exact .refl g
  | some cls =>
    dsimp only
    split
    · exact .refl g
    · exact Confirms.of_noNewFlags rfl (noNewFlags_ensurePublisher F)

theorem mergeNeighbor_confirms {direct : Bool} {n : PackedNeighbor} (hsender : c.sender ≠ g.myNode) :
    Confirms (fun m => m = c.sender ∧ n.nodeId = g.myNode) g (g.mergeNeighbor F c direct n) := by
  unfold mergeNeighbor
  split
  · exact .refl g
  split
  · exact .refl g
  extract_lets etx relayHasEdge mirrored
  have hmirrored : Confirms (fun m => m = c.sender ∧ n.nodeId = g.myNode) g mirrored :=
    mirrorNeighbor_confirms F hsender
  clear_value mirrored
  split
  · split
    · exact hmirrored.trans (.same rfl rfl)
    · exact hmirrored
  split
  · have hadmitted := hmirrored.trans (@tryAdmit_confirms _ F mirrored
      (fun m => m = c.sender ∧ n.nodeId = g.myNode) c.nowMs c.sender n.nodeId direct)
    dsimp only
    split
    · exact hadmitted.trans (.same rfl rfl)
    · exact hadmitted.trans (.same rfl rfl)
  split
  · unfold recordMergeAsymmetricSkip
    split
    · exact hmirrored.trans (.same rfl rfl)
    · exact hmirrored
  · exact hmirrored

theorem admitSender_confirms : Confirms P g (g.admitSender F c) := by
  unfold admitSender
  extract_lets namesL1 namesL2 cls published
  split
  · split
    · exact Confirms.of_noNewFlags rfl (noNewFlags_ensurePublisher F)
    · exact .refl g
  · exact .refl g

/-- What a list proves: that its sender hears us, if it names us. -/
def ListProof (me : UInt32) (c : Call) (n : UInt32) : Prop :=
  n = c.sender ∧ ∃ listed ∈ c.neighbors, listed.nodeId = me

theorem mergeNeighbors_confirms {direct : Bool} {ns : List PackedNeighbor} (hsender : c.sender ≠ g.myNode)
    (hns : ∀ n ∈ ns, n ∈ c.neighbors) :
    Confirms (ListProof g.myNode c) g
      (ns.foldl (fun (g : NeighborGraph) n => g.mergeNeighbor F c direct n) g) := by
  induction ns generalizing g with
  | nil => exact .refl g
  | cons n ns ih =>
    have hone := @mergeNeighbor_confirms _ F g c direct n hsender
    have hrest := @ih (g.mergeNeighbor F c direct n) (by rw [hone.me]; exact hsender)
      fun n hn => hns n (List.mem_cons_of_mem _ hn)
    rw [hone.me] at hrest
    exact (hone.mono fun m hm => ⟨hm.1, n, hns n List.mem_cons_self, hm.2⟩).trans hrest

theorem mergeListed_confirms (hsender : c.sender ≠ g.myNode) :
    Confirms (ListProof g.myNode c) g (g.mergeListed F c) := by
  unfold mergeListed
  extract_lets senderIsDirect admitted cleared merged
  have hadmitted : Confirms (ListProof g.myNode c) g admitted := by
    unfold admitted
    split
    · exact .refl g
    · exact admitSender_confirms F
  have hcleared : Confirms (ListProof g.myNode c) g cleared := hadmitted.trans (.same rfl rfl)
  have hmerged : Confirms (ListProof g.myNode c) cleared merged := by
    rw [← hcleared.me]
    exact mergeNeighbors_confirms F (by rw [hcleared.me]; exact hsender) fun n hn => hn
  exact (hcleared.trans hmerged).trans (Confirms.of_noNewFlags rfl (sameEdges_flush F _ _ _).noNewFlags)

theorem sweepUnlisted_confirms {sender : UInt32} {listed : List UInt32} :
    Confirms P g (g.sweepUnlisted F sender listed nowMs) := by
  have hswept : NoNewFlags g.edges (g.edges.clearHearsUsToUnlisted sender listed) := by
    intro a b ⟨e, he, hflag⟩
    rw [edge_clearHearsUs] at he
    obtain ⟨e', he', rfl⟩ := Option.map_eq_some_iff.mp he
    refine ⟨e', he', ?_⟩
    split at hflag
    · cases hflag
    · exact hflag
  refine Confirms.of_noNewFlags ?_ ?_
  · unfold sweepUnlisted
    dsimp only
    split <;> rfl
  · intro a b ⟨e, he, hflag⟩
    exact hswept a b ⟨e, (edge_retainListed.mp (sweep_edge F he)).1, hflag⟩

theorem completeList_confirms : Confirms P g (g.completeList F c) := by
  unfold completeList
  dsimp only
  have hgathered : Confirms P g { g with pendingListed := (reassemble g.pendingListed c).1 } := .same rfl rfl
  split
  · exact hgathered
  split
  · exact hgathered
  · exact hgathered.trans (sweepUnlisted_confirms F)

theorem mergeTopology_confirms (hsender : c.sender ≠ g.myNode) :
    Confirms (ListProof g.myNode c) g (g.mergeTopology F c).1 := by
  unfold mergeTopology
  split
  · exact .refl g
  split
  · exact .same rfl rfl
  split
  · exact .same rfl rfl
  have hnoted : Confirms (ListProof g.myNode c) g (g.noteAccepted F c) :=
    Confirms.of_noNewFlags rfl (loses_ensureLocalNode F).noNewFlags
  dsimp only
  split
  · exact hnoted
  · have hmerged := @mergeListed_confirms _ F (g.noteAccepted F c) c hsender
    exact (hnoted.trans hmerged).trans (completeList_confirms F)

theorem getRoute_confirms {destination : UInt32} : Confirms P g (g.getRoute destination nowMs).1 := by
  unfold getRoute
  split
  · exact .refl g
  · dsimp only
    split
    · exact .same rfl rfl
    · exact .refl g

theorem updateNodeActivity_confirms {nodeId : UInt32} :
    Confirms P g { g with edges := g.edges.updateNodeActivity nodeId nowMs g.myNode } := by
  refine Confirms.of_noNewFlags rfl ?_
  unfold EdgeStore.updateNodeActivity
  split
  · exact .refl _
  · exact (sameEdges_touchNode nodeId nowMs).noNewFlags

theorem applyTopologyHearsUs_confirms {sender ourNode : UInt32} {neighbors : List PackedNeighbor}
    (hsender : sender ≠ g.myNode) : Confirms P g (g.applyTopologyHearsUs sender ourNode neighbors) := by
  unfold applyTopologyHearsUs
  split
  · refine ⟨rfl, fun n hflag => .inl ?_⟩
    rw [edgeHearsUs_iff] at hflag ⊢
    exact (flagged_setEdgeHearsUs hflag).resolve_right fun h => hsender h.1.symm
  · exact .refl g

/-! ## Placeholders and maintenance -/

/-- What a resolution carries over: the proof that the placeholder hears us. -/
def RenamingProof (g : NeighborGraph) (placeholderId realNodeId n : UInt32) : Prop :=
  n = realNodeId ∧ g.resolves placeholderId realNodeId = true ∧ g.edgeHearsUs placeholderId = true

theorem copyEdge_confirms {placeholderId realNodeId : UInt32} :
    Confirms (fun n => n = realNodeId ∧ g.edgeHearsUs placeholderId = true) g
      (g.copyEdge F placeholderId realNodeId nowMs) := by
  unfold copyEdge
  split
  · exact .refl g
  · rename_i e he
    dsimp only
    split
    · rename_i hflagged
      refine ⟨rfl, fun n hflag => ?_⟩
      rcases flagged_setEdgeHearsUs (edgeHearsUs_iff.mp hflag) with hflag | ⟨-, hn, -⟩
      · exact .inl (edgeHearsUs_iff.mpr (noNewFlags_updateEdge F _ _ hflag))
      · exact .inr ⟨hn, edgeHearsUs_iff.mpr ⟨e, he, hflagged⟩⟩
    · exact Confirms.of_noNewFlags rfl (noNewFlags_updateEdge F)

theorem resolvePlaceholder_confirms {placeholderId realNodeId : UInt32} :
    Confirms (g.RenamingProof placeholderId realNodeId) g
      (g.resolvePlaceholder F placeholderId realNodeId nowMs).1 := by
  unfold resolvePlaceholder
  split
  · exact .refl g
  rename_i hresolves
  have hlocal : Confirms (fun _ => False) g (g.withLocalNode F nowMs) := withLocalNode_confirms F
  have hcopied : Confirms (g.RenamingProof placeholderId realNodeId) (g.withLocalNode F nowMs)
      ((g.withLocalNode F nowMs).copyEdge F placeholderId realNodeId nowMs) := by
    refine (copyEdge_confirms F).mono fun n h => ⟨h.1, by simpa using hresolves, ?_⟩
    exact (hlocal.flags _ h.2).resolve_right id
  refine ((hlocal.mono fun _ h => h.elim).trans hcopied).trans ?_
  generalize (g.withLocalNode F nowMs).copyEdge F placeholderId realNodeId nowMs = copied
  obtain ⟨hedges, hme⟩ := @replaceGatewayNode_edges copied placeholderId realNodeId nowMs
  refine Confirms.trans (.same hme hedges) ?_
  exact Confirms.of_noNewFlags rfl ((loses_filterEdges _).trans (loses_removeNode _)).noNewFlags

theorem clearHearsUs_confirms (expired : List UInt32) : Confirms P g (g.clearHearsUs expired) := by
  refine Confirms.of_noNewFlags rfl ?_
  unfold clearHearsUs
  dsimp only
  generalize g.edges = edges
  induction expired generalizing edges with
  | nil => exact .refl edges
  | cons n expired ih =>
    refine NoNewFlags.trans ?_ (ih (edges.setEdgeHearsUs g.myNode n false))
    exact fun a b hflag => (flagged_setEdgeHearsUs hflag).resolve_right fun h => Bool.noConfusion h.2.2

theorem pruneSilentPublishers_confirms : Confirms P g (g.pruneSilentPublishers F nowMs).1 := by
  unfold pruneSilentPublishers
  dsimp only
  generalize g.silentPublishers nowMs = gone
  induction gone generalizing g with
  | nil => exact .refl g
  | cons n gone ih =>
    rw [List.foldl_cons]
    refine Confirms.trans ?_ ih
    exact (retractDirectLinkInner_confirms F).trans (.same rfl rfl)

theorem forgetSilent_confirms {before : Nat} {edgesAged : Bool} :
    Confirms P g (g.forgetSilent F nowMs before edgesAged) := by
  have hpruned : Confirms P g (g.pruneSilentPublishers F nowMs).1 := pruneSilentPublishers_confirms F
  unfold forgetSilent
  dsimp only
  generalize g.pruneSilentPublishers F nowMs = pruned at hpruned ⊢
  have hlast : ∀ downstream capability expired, Confirms P g
      ({ pruned.1.pruneDirectSignals nowMs with
        downstream := downstream, capability := capability }.clearHearsUs expired) := by
    intro downstream capability expired
    refine hpruned.trans (Confirms.trans ?_ (clearHearsUs_confirms expired))
    exact .same rfl rfl
  split
  · exact (hlast _ _ _).trans (.same rfl rfl)
  · exact hlast _ _ _

theorem runMaintenance_confirms : Confirms P g (g.runMaintenance F nowMs) := by
  have hlocal : Confirms P g (g.withLocalNode F nowMs) := withLocalNode_confirms F
  unfold runMaintenance
  dsimp only
  generalize g.withLocalNode F nowMs = stored at hlocal ⊢
  have hloses := @loses_ageEdges stored.edges _ F stored.myNode nowMs NEIGHBOR_TTL_MS stored.downstream
  generalize stored.edges.ageEdges F stored.myNode nowMs NEIGHBOR_TTL_MS stored.downstream = aged
    at hloses ⊢
  refine hlocal.trans (Confirms.trans ?_ (forgetSilent_confirms F))
  exact Confirms.of_noNewFlags rfl hloses.noNewFlags

end

end NeighborGraph

/-! ## Relay bytes -/

theorem lowByte_placeholderNodeId (relayByte : UInt8) :
    lowByte (placeholderNodeId relayByte) = relayByte := by
  unfold lowByte placeholderNodeId
  rw [UInt32.toUInt8_or, UInt8.toUInt8_toUInt32, show PLACEHOLDER_NODE_PREFIX.toUInt8 = 0 from rfl,
    UInt8.zero_or]

/-- The nodes of a bucket end in its byte. -/
def RelayIdentityCache.Named (c : RelayIdentityCache) : Prop :=
  ∀ b ∈ c.buckets.rows, ∀ e ∈ b.entries.rows, lowByte e.nodeId = b.relayId

namespace RelayIdentityCache

variable {c : RelayIdentityCache} {nodeId nowMs : UInt32} {relayByte : UInt8}

theorem named_new : Named new := fun _ hb => absurd hb List.not_mem_nil

theorem Named.noted {b : RelayIdentityBucket} (h : Accepted nodeId b.relayId)
    (hb : ∀ e ∈ b.entries.rows, lowByte e.nodeId = b.relayId) :
    ∀ e ∈ ((b.pruneBucketEntries nowMs).note nodeId nowMs).entries.rows,
      lowByte e.nodeId = b.relayId := by
  intro e he
  rcases RelayIdentityBucket.mem_note he with he | rfl
  · exact hb e (RelayIdentityBucket.mem_pruneBucketEntries.mp he).1
  · exact h.2.2

theorem Named.remember (h : c.Named) : (c.rememberRelayIdentity nodeId relayByte nowMs).Named := by
  by_cases haccepted : Accepted nodeId relayByte
  · obtain ⟨i, b, -, hrow, hbucket, hrows⟩ | ⟨-, -, hrows⟩ | ⟨-, -, hsame⟩ :=
      @remember_cases c nodeId nowMs relayByte haccepted
    · obtain rfl := lookup_key RelayIdentityBucket.relayId hbucket
      intro b' hb'
      rw [hrows] at hb'
      rcases List.mem_or_eq_of_mem_set hb' with hb' | rfl
      · exact h b' hb'
      · rw [RelayIdentityBucket.note_relayId, RelayIdentityBucket.pruneBucketEntries_relayId]
        exact Named.noted haccepted (h b (List.mem_of_getElem? hrow))
    · intro b' hb'
      rw [hrows] at hb'
      rcases List.mem_append.mp hb' with hb' | hb'
      · exact h b' hb'
      · rw [List.mem_singleton.mp hb', RelayIdentityBucket.note_relayId,
          RelayIdentityBucket.pruneBucketEntries_relayId]
        exact Named.noted haccepted fun e he => absurd he List.not_mem_nil
    · rw [hsame]
      exact h
  · rw [remember_refused haccepted]
    exact h

theorem Named.prune (h : c.Named) : (c.pruneRelayIdentityCache nowMs).Named := by
  intro b hb e he
  obtain ⟨b', hb', rfl⟩ := List.mem_map.mp (List.mem_filter.mp (prune_perm.mem_iff.mp hb)).1
  exact h b' hb' e (RelayIdentityBucket.mem_pruneBucketEntries.mp he).1

end RelayIdentityCache

/-- mirrors crates/mesh-routing/src/neighbor_graph.rs:315-324 -/
def NeighborGraph.matchRelayPlaceholderOnOutgoingEdges (g : NeighborGraph) (relayByte : UInt8) :
    Option UInt32 :=
  (g.edges.findNode g.myNode).bind fun me =>
    (me.edges.rows.find? fun e => lowByte e.toNode == relayByte && isPlaceholderNode e.toNode).map
      (·.toNode)

section

variable {Etx : Type} (F : F32 Etx) (packetEtxFixed : Etx → UInt16)

/-- mirrors crates/mesh-routing/src/relay_identity.rs:183-213 -/
def RelayIdentityCache.resolveHeardFrom (c : RelayIdentityCache) (relayNode : UInt8) (source : UInt32)
    (rssi : Int16) (snr : Int8) (g : NeighborGraph) (nowMs : UInt32) : UInt32 :=
  if relayNode == 0 then source
  else
    match c.resolveRelayIdentity F packetEtxFixed relayNode rssi snr g.edges g.myNode nowMs
      g.modemPreset with
    | some resolved => resolved
    | none => (g.matchRelayPlaceholderOnOutgoingEdges relayNode).getD (placeholderNodeId relayNode)

end

section

variable {Etx : Type} {F : F32 Etx} {packetEtxFixed : Etx → UInt16} {c : RelayIdentityCache}
  {rssi : Int16} {snr : Int8}

theorem pickBest_mem {direct : List Edge} {modemPreset : UInt8}
    (h : pickBestDirectCandidate F packetEtxFixed direct rssi snr modemPreset ≠ 0) :
    ∃ e ∈ direct, e.toNode = pickBestDirectCandidate F packetEtxFixed direct rssi snr modemPreset := by
  have hscan : ∀ (f : UInt32 × UInt16 × Bool → Edge → UInt32 × UInt16 × Bool),
      (∀ best e, (f best e).1 = e.toNode ∨ (f best e).1 = best.1) → ∀ (es : List Edge) best,
        (∃ e ∈ direct, e.toNode = best.1) → (∀ e ∈ es, e ∈ direct) →
          ∃ e ∈ direct, e.toNode = (es.foldl f best).1 := by
    intro f hf es
    induction es with
    | nil => exact fun best hbest _ => hbest
    | cons e es ih =>
      intro best hbest hes
      refine ih (f best e) ?_ fun e' he' => hes e' (List.mem_cons_of_mem _ he')
      rcases hf best e with heq | heq
      · exact ⟨e, hes e List.mem_cons_self, heq.symm⟩
      · rw [heq]
        exact hbest
  unfold pickBestDirectCandidate at h ⊢
  split at h
  · exact absurd rfl h
  · exact ⟨_, List.mem_cons_self, rfl⟩
  · rename_i first rest hrest
    split at h
    · exact absurd rfl h
    · dsimp only at h ⊢
      split at h
      · exact absurd rfl h
      · rename_i htie
        rw [if_neg htie]
        refine hscan _ (fun best e => ?_) _ _ ⟨first, List.mem_cons_self, rfl⟩ fun e he => he
        generalize (ite (_ ≤ e.etxFixed) _ _ : UInt16) = diff
        split
        · exact .inl rfl
        · split
          · exact .inr rfl
          · exact .inr rfl

theorem resolveRelayIdentity_byte {edges : EdgeStore} {myNode nowMs n : UInt32}
    {relayByte modemPreset : UInt8} (hnamed : c.Named)
    (h : c.resolveRelayIdentity F packetEtxFixed relayByte rssi snr edges myNode nowMs modemPreset = some n) :
    lowByte n = relayByte := by
  unfold RelayIdentityCache.resolveRelayIdentity at h
  split at h
  · cases h
  dsimp only at h
  split at h
  · cases h
  split at h
  · cases h
  split at h
  · split at h
    · rename_i hbest
      obtain ⟨e, he, hto⟩ := pickBest_mem (by simpa using hbest)
      obtain rfl := Option.some.inj h
      rw [← hto]
      unfold directCandidates at he
      split at he
      · cases he
      · have hlow := (List.mem_filter.mp he).2
        simp only [Bool.and_eq_true, beq_iff_eq] at hlow
        exact hlow.1.1
    · cases h
  · obtain ⟨b, hb, honly⟩ := Option.bind_eq_some_iff.mp h
    obtain ⟨hfound, -, -⟩ := RelayIdentityBucket.onlyFresh_some honly
    obtain ⟨e, he, rfl, -⟩ := hfound.resolve_left (by simp)
    rw [hnamed b (List.mem_of_find?_eq_some hb) e he]
    exact lookup_key RelayIdentityBucket.relayId hb

/-- A relay byte stands for a node that ends in it. -/
theorem resolveHeardFrom_byte {relayNode : UInt8} {source nowMs : UInt32} {g : NeighborGraph}
    (hnamed : c.Named) (hrelay : relayNode ≠ 0) :
    lowByte (c.resolveHeardFrom F packetEtxFixed relayNode source rssi snr g nowMs) = relayNode := by
  unfold RelayIdentityCache.resolveHeardFrom
  rw [if_neg (by simpa using hrelay)]
  split
  · rename_i resolved hresolved
    exact resolveRelayIdentity_byte hnamed hresolved
  · cases hmatch : g.matchRelayPlaceholderOnOutgoingEdges relayNode with
    | none => exact lowByte_placeholderNodeId relayNode
    | some placeholder =>
      obtain ⟨me, -, hfound⟩ := Option.bind_eq_some_iff.mp hmatch
      obtain ⟨e, he, rfl⟩ := Option.map_eq_some_iff.mp hfound
      have hbyte := List.find?_some he
      rw [Bool.and_eq_true] at hbyte
      exact beq_iff_eq.mp hbyte.1

/-- So does the relay of an observed frame, which names one. -/
theorem observedGateway_byte {g : NeighborGraph} {p : Observation} {n : UInt32} {signal : Int16 × Int8}
    (h : g.observedGateway p = some (n, signal)) : p.relayNode ≠ 0 ∧ lowByte n = p.relayNode := by
  have hbyte : lowByte (g.relayGatewayForObservation p.fromNode p.relayNode p.knownRelay) =
      p.relayNode := by
    unfold NeighborGraph.relayGatewayForObservation
    extract_lets placeholder
    have hplaceholder : lowByte placeholder = p.relayNode := lowByte_placeholderNodeId p.relayNode
    split
    · exact hplaceholder
    split
    · exact hplaceholder
    · split
      · rename_i hreal
        simp only [Bool.and_eq_true, beq_iff_eq] at hreal
        exact hreal.2
      · exact hplaceholder
  unfold NeighborGraph.observedGateway at h
  split at h
  · cases h
  split at h
  · cases h
  split at h
  · cases h
  split at h
  · cases h
  rename_i hrelay
  extract_lets gateway at h
  split at h
  · cases h
  split at h
  · cases h
  · rw [Option.some.injEq, Prod.mk.injEq] at h
    refine ⟨fun hzero => hrelay (by simp [hzero]), ?_⟩
    rw [← h.1]
    exact hbyte

end

/-! ## The calls -/

/-- mirrors crates/mesh-routing/src/router.rs:4548-4554 -/
def duplicateIsRebroadcast (parsed : ParsedPacket) (ourNode : UInt32) : Bool :=
  parsed.hopLimit < parsed.hopStart ||
    (parsed.relayNode != 0 && parsed.relayNode != lowByte ourNode &&
      parsed.relayNode != lowByte parsed.fromNode)

/-- The graph with the ledgers it keeps, the nodes known by their byte, and what the past
has of both. -/
structure HearState where
  graph : NeighborGraph
  ledger : RelayLedger
  identities : RelayIdentityCache
  /-- ghost: the packets whose transmission our radio has completed -/
  sent : List PacketKey
  /-- ghost: who has proved to hear us since our edge to it was made -/
  proven : UInt32 → Bool

inductive HearCall where
  /-- a frame, or a copy of one, as the graph is told of it -/
  | observe (id : UInt32) (p : Observation)
  /-- a frame of a neighbour, as the router looks at its next hop -/
  | nextHop (parsed : ParsedPacket)
  /-- a copy, as the router looks at its relay -/
  | duplicate (parsed : ParsedPacket) (rssi : Int16) (snr : Int8) (nowMs : UInt32)
  | topology (c : Call)
  | resolvePlaceholder (placeholderId realNodeId nowMs : UInt32)
  | commitRelay (fromNode id : UInt32) (radioId : UInt8) (snr : Int) (heardFrom nowMs delay : UInt32)
  | cancelRelay (fromNode id : UInt32)
  | clearRelays
  | noteTxDone (fromNode packetId nowMs : UInt32)
  | remember (nodeId : UInt32) (relayByte : UInt8) (nowMs : UInt32)
  | pruneIdentities (nowMs : UInt32)
  | clearIdentities
  | runMaintenance (nowMs : UInt32)
  | setModemPreset (modemPreset : UInt8) (recordWindowMs : UInt32)
  | setDeviceRole (role : UInt32)
  | purgeForPresetChange
  /-- a call that tells the graph nothing about who hears us -/
  | other (op : GraphOp)

/-- The graph's calls that are none of the above. -/
def GraphOp.tellsNothing : GraphOp → Bool
  | .getRoute _ _ | .observeDirectNeighbor _ _ _ _ _ | .replaceGatewayNode _ _ _
  | .transferDownstream _ _ _ | .updateNodeActivity _ _ | .trackNodeRole _ _ _ => true
  | _ => false

def HearCall.allowed : HearCall → Bool
  | .other op => op.tellsNothing
  | _ => true

namespace NeighborGraph

/-- mirrors crates/mesh-routing/src/router.rs:1121-1132 -/
def confirmFromNextHop (g : NeighborGraph) (parsed : ParsedPacket) : NeighborGraph :=
  if isDirectPacket parsed.fromNode parsed.hopStart parsed.hopLimit parsed.relayNode &&
      parsed.toNode != RateLimit.NODENUM_BROADCAST && parsed.fromNode != g.myNode &&
      parsed.nextHop != 0 && parsed.nextHop == lowByte g.myNode then
    (g.confirmDirectNeighborHearsUs parsed.fromNode).1
  else g

/-- A list that the router takes.
mirrors crates/mesh-routing/src/router.rs:1749-1779 -/
def processTopologyRx {Etx : Type} (F : F32 Etx) (g : NeighborGraph) (c : Call) : NeighborGraph :=
  if c.sender == 0 || c.sender == g.myNode || isPlaceholderNode c.sender then g
  else
    match g.mergeTopology F c with
    | (merged, .applied _ _) => merged.applyTopologyHearsUs c.sender g.myNode c.neighbors
    | (merged, _) => merged

end NeighborGraph

namespace HearState

variable (s : HearState)

/-- What the ledgers say of a frame is filled in. -/
def told (id : UInt32) (p : Observation) : Observation :=
  { p with
    ourTransmission := s.ledger.hasOurTransmission p.fromNode id p.nowMs
    committed := s.ledger.isCommittedRelay p.fromNode id }

/-- The packet is our own, or has left our radio. -/
def ours (fromNode id : UInt32) : Bool := fromNode == s.graph.myNode || s.sent.contains (fromNode, id)

/-- What a call proves: a list of the node names us; a direct unicast frame of the node names
our byte as its next hop; a node that ends in the relay byte carries a packet that is our own
or that we have sent; or a placeholder that has proved it turns out to be the node. -/
def evidence (n : UInt32) : HearCall → Bool
  | .topology c => c.sender == n && c.neighbors.any fun l => l.nodeId == s.graph.myNode
  | .nextHop parsed => parsed.fromNode == n &&
      isDirectPacket parsed.fromNode parsed.hopStart parsed.hopLimit parsed.relayNode &&
      parsed.toNode != RateLimit.NODENUM_BROADCAST && parsed.nextHop == lowByte s.graph.myNode
  | .observe id p => !isDirectPacket p.fromNode p.hopStart p.hopLimit p.relayNode &&
      p.relayNode != 0 && lowByte n == p.relayNode && s.ours p.fromNode id
  | .duplicate parsed _ _ _ =>
    parsed.relayNode != 0 && lowByte n == parsed.relayNode && s.ours parsed.fromNode parsed.id
  | .resolvePlaceholder placeholderId realNodeId _ =>
      realNodeId == n && s.graph.resolves placeholderId realNodeId && s.proven placeholderId
  | _ => false

section

variable {Etx : Type} (F : F32 Etx) (packetEtxFixed : Etx → UInt16)

/-- What a copy tells of its relay.
mirrors crates/mesh-routing/src/router.rs:4562-4588 -/
def confirmFromDuplicate (parsed : ParsedPacket) (rssi : Int16) (snr : Int8) (nowMs : UInt32) :
    NeighborGraph :=
  if duplicateIsRebroadcast parsed s.graph.myNode then
    let heardFrom := s.identities.resolveHeardFrom F packetEtxFixed parsed.relayNode parsed.fromNode
      rssi snr s.graph nowMs
    (s.graph.maybeConfirmHearsUsFromRelay heardFrom parsed.fromNode
      (s.ledger.isCommittedRelay parsed.fromNode parsed.id)).1
  else s.graph

/-- The graph after a call. -/
def graphAfter : HearCall → NeighborGraph
  | .observe id p => (s.graph.observePacket F (s.told id p)).1
  | .nextHop parsed => s.graph.confirmFromNextHop parsed
  | .duplicate parsed rssi snr nowMs => s.confirmFromDuplicate F packetEtxFixed parsed rssi snr nowMs
  | .topology c => s.graph.processTopologyRx F c
  | .resolvePlaceholder placeholderId realNodeId nowMs =>
    (s.graph.resolvePlaceholder F placeholderId realNodeId nowMs).1
  | .runMaintenance nowMs => s.graph.runMaintenance F nowMs
  | .setModemPreset modemPreset _ => { s.graph with modemPreset := modemPreset }
  | .setDeviceRole role => s.graph.setDeviceRole role
  | .purgeForPresetChange => s.graph.purgeForPresetChange
  | .other op => s.graph.next F op
  | _ => s.graph

/-- The commits and the records of our transmissions after a call. A frame that has left the
air is recorded, and its commit ends (`router.rs:4246-4251`). -/
def ledgerAfter : HearCall → RelayLedger
  | .commitRelay fromNode id radioId snr heardFrom nowMs delay =>
    (s.ledger.commitRelay fromNode id radioId snr heardFrom nowMs delay).1
  | .cancelRelay fromNode id => s.ledger.cancelRelay fromNode id
  | .clearRelays => s.ledger.clearRelays
  | .noteTxDone fromNode packetId nowMs =>
    if packetId == 0 then s.ledger
    else (s.ledger.recordOurTransmission fromNode packetId nowMs).cancelRelay fromNode packetId
  | .runMaintenance nowMs => s.ledger.clearExpiredCommits nowMs
  | .setModemPreset _ recordWindowMs => { s.ledger with recordWindowMs := recordWindowMs }
  | .setDeviceRole role => { s.ledger with deviceRole := role }
  | .purgeForPresetChange => { s.ledger.clearRelays with ourTx := .empty }
  | _ => s.ledger

def identitiesAfter : HearCall → RelayIdentityCache
  | .remember nodeId relayByte nowMs => s.identities.rememberRelayIdentity nodeId relayByte nowMs
  | .pruneIdentities nowMs => s.identities.pruneRelayIdentityCache nowMs
  | .clearIdentities => .new
  | _ => s.identities

def sentAfter : HearCall → List PacketKey
  | .noteTxDone fromNode packetId _ => (fromNode, packetId) :: s.sent
  | _ => s.sent

def next (call : HearCall) : HearState :=
  let graph := s.graphAfter F packetEtxFixed call
  { graph := graph
    ledger := s.ledgerAfter call
    identities := s.identitiesAfter call
    sent := s.sentAfter call
    -- a proof is worth nothing once the edge is gone
    proven := fun n => (graph.edges.edge graph.myNode n).isSome && (s.proven n || s.evidence n call) }

end

/-- No copy of another node's packet counts for its relay because of a commit alone, and none
counts that names no relay. -/
def careful : HearCall → Bool
  | .observe id p =>
    isDirectPacket p.fromNode p.hopStart p.hopLimit p.relayNode ||
      (s.graph.observedGateway (s.told id p)).isNone ||
      !s.ledger.isCommittedRelay p.fromNode id || s.ours p.fromNode id
  | .duplicate parsed _ _ _ =>
    !duplicateIsRebroadcast parsed s.graph.myNode ||
      !s.ledger.isCommittedRelay parsed.fromNode parsed.id || parsed.fromNode == s.graph.myNode ||
      (parsed.relayNode != 0 && s.ours parsed.fromNode parsed.id)
  | _ => true

def start (me recordWindowMs : UInt32) : HearState where
  graph := .new me
  ledger := ⟨me, Admin.DEVICE_ROLE_CLIENT, recordWindowMs, .all .inactive, .empty⟩
  identities := .new
  sent := []
  proven _ := false

end HearState

/-- The calls the graph of node `me` gets, in any order. -/
def hearCalls {Etx : Type} (F : F32 Etx) (packetEtxFixed : Etx → UInt16) (me recordWindowMs : UInt32) :
    LTS HearState HearCall where
  init s := s = .start me recordWindowMs
  step s call t := call.allowed = true ∧ t = s.next F packetEtxFixed call

/-! ## Evidence -/

/-- Every flag of our own edges is proven. -/
structure HearState.Sound (s : HearState) : Prop where
  named : s.identities.Named
  proven : ∀ n, s.graph.edgeHearsUs n = true → s.proven n = true

section

variable {Etx : Type} {F : F32 Etx} {packetEtxFixed : Etx → UInt16} {s : HearState}

namespace HearState

theorem observe_confirms {id : UInt32} {p : Observation} (h : s.careful (.observe id p) = true) :
    s.graph.Confirms (fun n => s.evidence n (.observe id p) = true)
      (s.graph.observePacket F (s.told id p)).1 := by
  refine (NeighborGraph.observePacket_confirms F).mono fun n hproof => ?_
  obtain ⟨hrelayed, ⟨signal, hgateway⟩, hours⟩ := hproof
  obtain ⟨hrelay, hbyte⟩ : p.relayNode ≠ 0 ∧ lowByte n = p.relayNode :=
    observedGateway_byte (p := s.told id p) hgateway
  have hdirect : isDirectPacket p.fromNode p.hopStart p.hopLimit p.relayNode = false := hrelayed
  have hmine : s.ours p.fromNode id = true := by
    rcases hours with hfrom | hcommitted
    · unfold ours
      rw [beq_iff_eq.mpr (show p.fromNode = s.graph.myNode from hfrom), Bool.true_or]
    · have hcommitted : s.ledger.isCommittedRelay p.fromNode id = true := hcommitted
      simpa only [careful, hdirect, hgateway, Option.isNone_some, hcommitted, Bool.not_true,
        Bool.false_or] using h
  simp only [evidence, hdirect, bne_iff_ne.mpr hrelay, hbyte, hmine, Bool.not_false, beq_self_eq_true,
    Bool.and_self]

theorem nextHop_confirms {parsed : ParsedPacket} :
    s.graph.Confirms (fun n => s.evidence n (.nextHop parsed) = true)
      (s.graph.confirmFromNextHop parsed) := by
  unfold NeighborGraph.confirmFromNextHop
  split
  · rename_i hnamed
    refine (NeighborGraph.confirm_confirms parsed.fromNode).mono fun n hn => ?_
    subst hn
    unfold evidence
    simp only [Bool.and_eq_true] at hnamed ⊢
    exact ⟨⟨⟨beq_self_eq_true _, hnamed.1.1.1.1⟩, hnamed.1.1.1.2⟩, hnamed.2⟩
  · exact .refl _

theorem duplicate_confirms {parsed : ParsedPacket} {rssi : Int16} {snr : Int8} {nowMs : UInt32}
    (hnamed : s.identities.Named) (h : s.careful (.duplicate parsed rssi snr nowMs) = true) :
    s.graph.Confirms (fun n => s.evidence n (.duplicate parsed rssi snr nowMs) = true)
      (s.confirmFromDuplicate F packetEtxFixed parsed rssi snr nowMs) := by
  unfold confirmFromDuplicate
  split
  · rename_i hrebroadcast
    dsimp only
    refine NeighborGraph.maybeConfirm_confirms.mono fun n hproof => ?_
    obtain ⟨hn, hme, hours⟩ := hproof
    by_cases hrelay : parsed.relayNode = 0
    · -- the copy names no relay, and counts for its originator
      have hn : n = parsed.fromNode := by
        rw [hn, RelayIdentityCache.resolveHeardFrom, if_pos (by simpa using hrelay)]
      have hfrom : parsed.fromNode ≠ s.graph.myNode := fun hfrom => hme (hn.trans hfrom)
      simp [careful, hrebroadcast, hrelay, hours.resolve_left hfrom, hfrom] at h
    · have hbyte : lowByte n = parsed.relayNode := by
        rw [hn]
        exact resolveHeardFrom_byte hnamed hrelay
      have hmine : s.ours parsed.fromNode parsed.id = true := by
        rcases hours with hfrom | hcommitted
        · rw [ours, beq_iff_eq.mpr hfrom, Bool.true_or]
        · by_cases hfrom : parsed.fromNode = s.graph.myNode
          · rw [ours, beq_iff_eq.mpr hfrom, Bool.true_or]
          · simpa [careful, hrebroadcast, hcommitted, hfrom, hrelay] using h
      simp only [evidence, bne_iff_ne.mpr hrelay, hbyte, hmine, beq_self_eq_true, Bool.and_self]
  · exact .refl _

theorem topology_confirms {c : Call} :
    s.graph.Confirms (fun n => s.evidence n (.topology c) = true) (s.graph.processTopologyRx F c) := by
  unfold NeighborGraph.processTopologyRx
  split
  · exact .refl _
  · rename_i hsender
    have hother : c.sender ≠ s.graph.myNode := fun h => hsender (by simp [h])
    have hmerged : s.graph.Confirms (fun n => s.evidence n (.topology c) = true)
        (s.graph.mergeTopology F c).1 := by
      refine (NeighborGraph.mergeTopology_confirms F hother).mono fun n h => ?_
      obtain ⟨hn, listed, hlisted, hme⟩ := h
      rw [evidence, Bool.and_eq_true, List.any_eq_true]
      exact ⟨beq_iff_eq.mpr hn.symm, listed, hlisted, beq_iff_eq.mpr hme⟩
    split
    · rename_i merged _ _ heq
      rw [heq] at hmerged
      refine hmerged.trans (NeighborGraph.applyTopologyHearsUs_confirms ?_)
      rw [hmerged.me]
      exact hother
    · rename_i merged _ _ heq
      rw [heq] at hmerged
      exact hmerged

theorem resolvePlaceholder_confirms {placeholderId realNodeId nowMs : UInt32} (h : s.Sound) :
    s.graph.Confirms (fun n => s.evidence n (.resolvePlaceholder placeholderId realNodeId nowMs) = true)
      (s.graph.resolvePlaceholder F placeholderId realNodeId nowMs).1 := by
  refine (NeighborGraph.resolvePlaceholder_confirms F).mono fun n hproof => ?_
  obtain ⟨rfl, hresolves, hflag⟩ := hproof
  simp only [evidence, hresolves, h.proven _ hflag, beq_self_eq_true, Bool.and_self]

theorem other_confirms {P : UInt32 → Prop} {op : GraphOp} (h : op.tellsNothing = true) :
    s.graph.Confirms P (s.graph.next F op) := by
  cases op with
  | getRoute destination nowMs => exact NeighborGraph.getRoute_confirms
  | observeDirectNeighbor nodeId rssi snr nowMs heardOn =>
    exact NeighborGraph.observeDirectNeighbor_confirms F
  | replaceGatewayNode oldNode newNode nowMs =>
    obtain ⟨hedges, hme⟩ := @NeighborGraph.replaceGatewayNode_edges s.graph oldNode newNode nowMs
    exact .same hme hedges
  | transferDownstream oldRelay newRelay nowMs => exact .same rfl rfl
  | updateNodeActivity nodeId nowMs => exact NeighborGraph.updateNodeActivity_confirms
  | trackNodeRole nodeId role nowMs => exact .same rfl rfl
  | _ => cases h

/-- A call sets no flag of ours without a proof. -/
theorem graphAfter_confirms {call : HearCall} (hs : s.Sound) (hcareful : s.careful call = true)
    (hallowed : call.allowed = true) :
    s.graph.Confirms (fun n => s.evidence n call = true) (s.graphAfter F packetEtxFixed call) := by
  cases call with
  | observe id p => exact observe_confirms hcareful
  | nextHop parsed => exact nextHop_confirms
  | duplicate parsed rssi snr nowMs => exact duplicate_confirms hs.named hcareful
  | topology c => exact topology_confirms
  | resolvePlaceholder placeholderId realNodeId nowMs => exact resolvePlaceholder_confirms hs
  | runMaintenance nowMs => exact NeighborGraph.runMaintenance_confirms F
  | purgeForPresetChange =>
    exact NeighborGraph.Confirms.of_noNewFlags rfl fun a b hflag => absurd hflag EdgeStore.not_flagged_empty
  | other op => exact other_confirms hallowed
  | _ => exact .same rfl rfl

theorem Sound.next {call : HearCall} (hs : s.Sound) (hcareful : s.careful call = true)
    (hallowed : call.allowed = true) : (s.next F packetEtxFixed call).Sound := by
  constructor
  · cases call with
    | remember nodeId relayByte nowMs => exact hs.named.remember
    | pruneIdentities nowMs => exact hs.named.prune
    | clearIdentities => exact RelayIdentityCache.named_new
    | _ => exact hs.named
  · intro n hflag
    have hkept : s.proven n = true ∨ s.evidence n call = true :=
      ((graphAfter_confirms hs hcareful hallowed).flags n hflag).imp_left (hs.proven n)
    obtain ⟨e, he, -⟩ := NeighborGraph.edgeHearsUs_iff.mp hflag
    have hedge : ((s.next F packetEtxFixed call).graph.edges.edge
        (s.next F packetEtxFixed call).graph.myNode n).isSome = true := by
      rw [he, Option.isSome_some]
    exact Bool.and_eq_true_iff.mpr ⟨hedge, Bool.or_eq_true_iff.mpr hkept⟩

end HearState

/-- In every run whose copies are taken with care, our own edge to a node has its flag only
since the node has proved to hear us. -/
theorem hears_us_on_evidence {me recordWindowMs : UInt32}
    (hs : ((hearCalls F packetEtxFixed me recordWindowMs).restrict
      fun s call => s.careful call = true).Reachable s)
    {n : UInt32} (h : s.graph.edgeHearsUs n = true) : s.proven n = true := by
  have hsound : ((hearCalls F packetEtxFixed me recordWindowMs).restrict
      fun s call => s.careful call = true).Inductive HearState.Sound := by
    constructor
    · rintro s rfl
      refine ⟨RelayIdentityCache.named_new, fun n hflag => ?_⟩
      exact absurd (NeighborGraph.edgeHearsUs_iff.mp hflag) EdgeStore.not_flagged_empty
    · rintro s call t hs ⟨hcareful, hallowed, rfl⟩
      exact hs.next hcareful hallowed
  exact (hsound.reachable hs).proven n h

end

/-! ## A copy of a commit -/

namespace HearState

/-- We are node 1 and hear node 187. -/
def heardNeighbor : HearCall := .other (.observeDirectNeighbor 187 (-60) 10 1000 0)

/-- A broadcast that node 187 has passed on. -/
def relayedBroadcast (fromNode id : UInt32) : ParsedPacket :=
  ⟨RateLimit.NODENUM_BROADCAST, fromNode, id, 8, 2, 3, false, false, 0, 187⟩

/-- What `handle_duplicate_rx` does with it (`router.rs:4454-4546`). -/
def copyFromNeighbor (fromNode id : UInt32) : List HearCall :=
  [.observe id {
    fromNode := fromNode
    hopStart := 3
    hopLimit := 2
    relayNode := 187
    rssi := -60
    snr := 10
    nowMs := 2000
    heardOn := 0
    knownRelay := some 187
    ourTransmission := false
    heardDirect := false
    committed := false },
  .duplicate (relayedBroadcast fromNode id) (-60) 10 2000]

/-- Our own broadcast leaves the radio, and comes back from the neighbour. -/
def ownBroadcastReturns : List HearCall :=
  [heardNeighbor, .noteTxDone 1 7 1500] ++ copyFromNeighbor 1 7

/-- We are to relay a broadcast of node 204; before we do, the neighbour has. -/
def neighborIsFaster : List HearCall :=
  [heardNeighbor, .commitRelay 204 99 0 10 204 1500 800] ++ copyFromNeighbor 204 99

def hear (calls : List HearCall) : HearState :=
  calls.foldl (fun s call => s.next hundredths id call) (start 1 60000)

end HearState

open HearState in
theorem hears_us_on_evidence_returned :
    (hear ownBroadcastReturns).graph.edgeHearsUs 187 = true ∧
      (hear ownBroadcastReturns).proven 187 = true := by
  have hcareful : LTS.Along (fun s call => s.next hundredths id call)
      (fun s call => s.careful call = true ∧ call.allowed = true) (start 1 60000) ownBroadcastReturns := by
    decide +kernel
  have hstep : ∀ (s : HearState) call, s.careful call = true ∧ call.allowed = true →
      ((hearCalls hundredths id 1 60000).restrict fun s call => s.careful call = true).step s call
        (s.next hundredths id call) := fun s call h => ⟨h.1, h.2, rfl⟩
  have hrun : ((hearCalls hundredths id 1 60000).restrict fun s call => s.careful call = true).Reachable
      (hear ownBroadcastReturns) :=
    ⟨start 1 60000, ownBroadcastReturns, rfl, LTS.run_foldl hstep hcareful⟩
  have hflag : (hear ownBroadcastReturns).graph.edgeHearsUs 187 = true := by decide +kernel
  exact ⟨hflag, hears_us_on_evidence hrun hflag⟩

open HearState in
/-- The neighbour that relays a packet before us counts as one that hears us. It has not, for
we have sent nothing. -/
theorem commit_confirms_hears_us :
    (hearCalls hundredths id 1 60000).Reachable (hear neighborIsFaster) ∧
      (hear neighborIsFaster).graph.edgeHearsUs 187 = true ∧
      (hear neighborIsFaster).proven 187 = false ∧ (hear neighborIsFaster).sent = [] := by
  have hallowed : LTS.Along (fun s call => s.next hundredths id call)
      (fun _ call => call.allowed = true) (start 1 60000) neighborIsFaster := by
    decide +kernel
  have hstep : ∀ (s : HearState) (call : HearCall), call.allowed = true →
      (hearCalls hundredths id 1 60000).step s call (s.next hundredths id call) :=
    fun s call h => ⟨h, rfl⟩
  have hrun : (hearCalls hundredths id 1 60000).Reachable (hear neighborIsFaster) :=
    ⟨start 1 60000, neighborIsFaster, rfl, LTS.run_foldl hstep hallowed⟩
  exact ⟨hrun, by decide +kernel⟩

end Meshrustic.Topology
