import Meshrustic.Topology.Losses
import Meshrustic.Topology.Observe

/-!
# Cached routes and our links

A route that was just calculated leads to one of our links. A cached one does so
only if every loss of a link clears the cache, and two losses do not: the edge
that a relay crowds out of our full list, and the node that gives way to a new
neighbour while our list stays as it is.

Results:
* `next_hop_linked`: in a run without such losses, every next hop is a link;
* `relay_crowds_out_next_hop`: a run with one.
-/
namespace Meshrustic.Topology

open Meshrustic.Graph EdgeStore

instance decidableLinked {edges : EdgeStore} {me n : UInt32} : Decidable (Linked edges me n) :=
  inferInstanceAs (Decidable (_ ∨ _))

theorem Linked.keeps {edges edges' : EdgeStore} {me n : UInt32} (h : Linked edges me n)
    (hkeeps : Keeps edges edges') : Linked edges' me n :=
  h.imp (hkeeps me n) (hkeeps n me)

namespace NeighborGraph

/-! ## Stages -/

/-- Our own node stays, and so do the cached routes. -/
structure Writes (g g' : NeighborGraph) : Prop where
  me : g'.myNode = g.myNode
  holds : (g.edges.findNode g.myNode).isSome = true → (g'.edges.findNode g.myNode).isSome = true
  cache : g'.routeCache = g.routeCache

/-- Our own node stays, and the cache is cleared or no edge is lost. -/
structure Moves (g g' : NeighborGraph) : Prop where
  me : g'.myNode = g.myNode
  holds : (g.edges.findNode g.myNode).isSome = true → (g'.edges.findNode g.myNode).isSome = true
  cache : g'.routeCache = .empty ∨ g'.routeCache = g.routeCache ∧ Keeps g.edges g'.edges

section

variable {g g' g'' : NeighborGraph}

theorem Writes.refl (g : NeighborGraph) : Writes g g := ⟨rfl, id, rfl⟩

theorem Writes.trans (h : Writes g g') (h' : Writes g' g'') : Writes g g'' where
  me := h'.me.trans h.me
  holds hme := h.me ▸ h'.holds (h.me.symm ▸ h.holds hme)
  cache := h'.cache.trans h.cache

theorem Moves.refl (g : NeighborGraph) : Moves g g := ⟨rfl, id, .inr ⟨rfl, .refl g.edges⟩⟩

theorem Moves.trans (h : Moves g g') (h' : Moves g' g'') : Moves g g'' where
  me := h'.me.trans h.me
  holds hme := h.me ▸ h'.holds (h.me.symm ▸ h.holds hme)
  cache := by
    rcases h'.cache with h' | ⟨hcache, hkeeps⟩
    · exact .inl h'
    · rcases h.cache with h | ⟨hcache', hkeeps'⟩
      · exact .inl (hcache.trans h)
      · exact .inr ⟨hcache.trans hcache', hkeeps'.trans hkeeps⟩

/-- With nothing cached, any edge may go. -/
theorem Writes.moves (h : Writes g g') (hempty : g.routeCache = .empty) : Moves g g' :=
  ⟨h.me, h.holds, .inl (h.cache.trans hempty)⟩

theorem Moves.empty (h : Moves g g') (hempty : g.routeCache = .empty) : g'.routeCache = .empty := by
  rcases h.cache with h | ⟨h, -⟩
  · exact h
  · exact h.trans hempty

end

/-! ## Soundness -/

/-- Our own node is stored or there is room for it, and every cached next hop is one of
our links. -/
structure CacheSound (g : NeighborGraph) : Prop where
  rooted : g.edges.Rooted g.myNode
  linked : ∀ r ∈ g.routeCache.rows, Linked g.edges g.myNode r.nextHop

section

variable {g g' : NeighborGraph}

theorem linked_of_empty (h : g.routeCache = .empty) :
    ∀ r ∈ g.routeCache.rows, Linked g.edges g.myNode r.nextHop := by
  rw [h]
  exact fun r hr => absurd hr List.not_mem_nil

theorem CacheSound.moves (h : CacheSound g) (hme : (g.edges.findNode g.myNode).isSome = true)
    (hm : Moves g g') : CacheSound g' where
  rooted := .inl (hm.me.symm ▸ hm.holds hme)
  linked := by
    rcases hm.cache with hcache | ⟨hcache, hkeeps⟩
    · exact linked_of_empty hcache
    · rw [hcache, hm.me]
      exact fun r hr => (h.linked r hr).keeps hkeeps

/-- A change that leaves the store alone and caches nothing. -/
theorem CacheSound.same (h : CacheSound g) (hme : g'.myNode = g.myNode) (hedges : g'.edges = g.edges)
    (hcache : g'.routeCache = .empty ∨ g'.routeCache = g.routeCache) : CacheSound g' where
  rooted := by
    rw [hedges, hme]
    exact h.rooted
  linked := by
    rcases hcache with hcache | hcache
    · exact linked_of_empty hcache
    · rw [hcache, hedges, hme]
      exact h.linked

end

/-! ## Our own node -/

section

variable {Etx : Type} (F : F32 Etx) {g : NeighborGraph} (nowMs : UInt32)

theorem CacheSound.withLocalNode (h : CacheSound g) :
    CacheSound (g.withLocalNode F nowMs) ∧
      ((g.withLocalNode F nowMs).edges.findNode (g.withLocalNode F nowMs).myNode).isSome = true := by
  obtain ⟨hsame, hstored⟩ := @Rooted.ensureLocalNode g.edges g.myNode nowMs _ F h.rooted
  exact ⟨⟨.inl hstored, fun r hr => (h.linked r hr).keeps hsame.keeps⟩, hstored⟩

end

/-! ## Merges -/

section

variable {Etx : Type} {F : F32 Etx} {g : NeighborGraph} {c : Call}

theorem mirrorNeighbor_holds {direct : Bool} {n : PackedNeighbor} {etx : Etx}
    (h : (g.edges.findNode g.myNode).isSome = true) :
    ((g.mirrorNeighbor F c direct n etx).findNode g.myNode).isSome = true := by
  unfold mirrorNeighbor setEdgeHearsUs
  dsimp only
  split
  · split
    · exact holds_modifyNode (holds_modifyNode (holds_updateEdge h))
    · exact holds_modifyNode (holds_modifyNode (holds_updateEdge h))
  · exact h

theorem tryAdmitListedPublisher_writes {sender listed nowMs : UInt32} {direct : Bool} :
    Writes g (g.tryAdmitListedPublisher F sender listed direct nowMs).1 := by
  unfold tryAdmitListedPublisher
  split
  · exact .refl g
  split
  · exact .refl g
  extract_lets cls
  clear_value cls
  cases cls with
  | none => exact .refl g
  | some cls =>
    dsimp only
    split
    · exact .refl g
    · exact ⟨rfl, holds_ensurePublisher, rfl⟩

theorem recordMergeAsymmetricSkip_writes {sender destination : UInt32} :
    Writes g (g.recordMergeAsymmetricSkip sender destination) := by
  unfold recordMergeAsymmetricSkip
  split
  · exact ⟨rfl, id, rfl⟩
  · exact .refl g

theorem mergeNeighbor_writes {direct : Bool} {n : PackedNeighbor} :
    Writes g (g.mergeNeighbor F c direct n) := by
  unfold mergeNeighbor
  split
  · exact .refl g
  split
  · exact .refl g
  extract_lets etx relayHasEdge g1
  have hmirror : Writes g g1 := ⟨rfl, mirrorNeighbor_holds, rfl⟩
  clear_value g1
  split
  · split
    · exact hmirror.trans ⟨rfl, id, rfl⟩
    · exact hmirror
  split
  · have hpublished := hmirror.trans (@tryAdmitListedPublisher_writes _ F g1 c.sender n.nodeId c.nowMs direct)
    dsimp only
    split
    · exact hpublished.trans ⟨rfl, id, rfl⟩
    · exact hpublished.trans ⟨rfl, id, rfl⟩
  split
  · exact hmirror.trans recordMergeAsymmetricSkip_writes
  · exact hmirror

theorem mergeNeighbors_writes {direct : Bool} (ns : List PackedNeighbor) :
    Writes g (ns.foldl (fun (g : NeighborGraph) n => g.mergeNeighbor F c direct n) g) := by
  induction ns generalizing g with
  | nil => exact .refl g
  | cons n ns ih => exact mergeNeighbor_writes.trans ih

theorem admitSender_writes : Writes g (g.admitSender F c) := by
  unfold admitSender
  extract_lets namesL1 namesL2 cls published
  split
  · split
    · exact ⟨rfl, holds_ensurePublisher, rfl⟩
    · exact .refl g
  · exact .refl g

/-- The listed neighbours are merged with nothing cached. -/
theorem mergeListed_moves : Moves g (g.mergeListed F c) ∧ (g.mergeListed F c).routeCache = .empty := by
  unfold mergeListed
  extract_lets direct g1 g2 g3
  have h1 : Writes g g1 := by
    simp only [g1]
    split
    · exact .refl g
    · exact admitSender_writes
  have h2 : Writes g2 g3 := mergeNeighbors_writes c.neighbors
  have h3 : Writes g3 { g3 with
      edges := (g3.edges.flushPendingDemotion F g3.myNode c.nowMs g3.downstream).1
      downstream := (g3.edges.flushPendingDemotion F g3.myNode c.nowMs g3.downstream).2 } := by
    refine ⟨rfl, fun h => ?_, rfl⟩
    dsimp only
    unfold flushPendingDemotion
    cases g3.edges.pendingDemotion with
    | none => exact h
    | some d => exact h
  have hempty := (h2.trans h3).cache
  have hme : g2.myNode = g.myNode := h1.me
  refine ⟨⟨(h2.trans h3).me.trans hme, fun h => ?_, .inl hempty⟩, hempty⟩
  have hholds := (h2.trans h3).holds (hme.symm ▸ h1.holds h)
  rw [hme] at hholds
  exact hholds

theorem sweepUnlisted_moves {sender nowMs : UInt32} {listed : List UInt32}
    (hempty : g.routeCache = .empty) : Moves g (g.sweepUnlisted F sender listed nowMs) := by
  unfold sweepUnlisted clearHearsUsToUnlisted
  dsimp only
  generalize hcleared : g.edges.mapNodes _ _ = cleared
  have hclear : (g.edges.findNode g.myNode).isSome = true →
      (cleared.findNode g.myNode).isSome = true := by
    intro h
    rw [← hcleared, findNode_mapNodes, Option.isSome_map]
    exact h
  generalize hretained : cleared.retainListedEdges sender listed = retained
  have hretain : (g.edges.findNode g.myNode).isSome = true →
      (retained.1.findNode g.myNode).isSome = true := by
    intro h
    rw [← hretained]
    unfold retainListedEdges
    split
    · exact hclear h
    · dsimp only
      exact holds_modifyNode (hclear h)
  obtain ⟨edges, removed⟩ := retained
  cases removed with
  | false => exact ⟨rfl, hretain, .inl hempty⟩
  | true => exact ⟨rfl, fun h => holds_prune (hretain h), .inl rfl⟩

theorem completeList_moves (hempty : g.routeCache = .empty) : Moves g (g.completeList F c) := by
  have hgather : Moves g { g with pendingListed := (reassemble g.pendingListed c).1 } :=
    ⟨rfl, id, .inl hempty⟩
  unfold completeList
  dsimp only
  split
  · exact hgather
  · split
    · exact hgather
    · exact hgather.trans (sweepUnlisted_moves hempty)

theorem CacheSound.mergeTopology (h : CacheSound g) : CacheSound (g.mergeTopology F c).1 := by
  cases haccepts : g.accepts c with
  | false =>
    obtain ⟨capability, topoVersions, heq⟩ := mergeTopology_rejected g F haccepts
    rw [heq]
    exact h.same rfl rfl (.inr rfl)
  | true =>
    obtain ⟨hsound, hstored⟩ := h.withLocalNode F c.nowMs
    have hnoted : CacheSound (g.noteAccepted F c) := hsound.same rfl rfl (.inr rfl)
    rw [mergeTopology_accepted g F haccepts]
    split
    · exact hnoted
    · obtain ⟨hmoves, hempty⟩ := @mergeListed_moves _ F (g.noteAccepted F c) c
      exact hnoted.moves hstored (hmoves.trans (completeList_moves hempty))

end

/-! ## What an observation may take from the cache -/

section

variable {Etx : Type} (F : F32 Etx) (g : NeighborGraph)

/-- An edge of ours to `b` would be new, or change by more than it usually does. -/
def changesOurList (b : UInt32) (etx : Etx) (nowMs : UInt32) (source : EdgeSource) : Bool :=
  match g.edges.findNode g.myNode with
  | none => true
  | some me => changesList F me b etx nowMs source

/-- The neighbour whose edge gives way in our list, where there is none to `b` yet. -/
def crowdedOutOfOurs (b : UInt32) (etx : Etx) (nowMs : UInt32) : Option UInt32 :=
  match g.edges.findNode g.myNode with
  | none => none
  | some me => if (me.findEdge b).isSome then none else crowdedOut F me etx nowMs .reported

/-- Every cached next hop keeps a link if the list of `evicted` goes, and our edge to
`crowded`. -/
def outlives (evicted crowded : Option UInt32) : Bool :=
  g.routeCache.rows.all fun r =>
    ((g.edges.edge g.myNode r.nextHop).isSome && crowded != some r.nextHop) ||
      ((g.edges.edge r.nextHop g.myNode).isSome && evicted != some r.nextHop)

instance decidableWritable {a b : UInt32} {etx : Etx} : Decidable (Writable F a b etx) :=
  inferInstanceAs (Decidable (_ ∧ _ ∧ _ ∧ _))

/-- The graph as a neighbour's measurement finds it. -/
def readyFor (nodeId nowMs : UInt32) : NeighborGraph :=
  (g.withLocalNode F nowMs).noteSilence F nodeId nowMs

/-- A direct neighbour is heard: our list changes, and the cache is cleared, or no cached
next hop depends on the node that gives way. -/
def carefulDirect (nodeId : UInt32) (rssi : Int16) (snr : Int8) (nowMs : UInt32) : Bool :=
  match normalizeRxSignal rssi snr with
  | none => true
  | some (rssi, snr) =>
    let etx := F.calculateEtx rssi.toInt32 snr g.modemPreset
    let g := g.readyFor F nodeId nowMs
    !decide (Writable F g.myNode nodeId etx) || g.changesOurList F nodeId etx nowMs .reported ||
      g.outlives (g.edges.pushedOut nodeId g.myNode nowMs) none

/-- A relay is heard: no cached next hop depends on the node that gives way to it, or on the
edge that it crowds out. A relay known by its byte alone is written twice, and the cache is
cleared if either changes a list. -/
def carefulGateway (gateway : UInt32) (rssi : Int16) (snr : Int8) (nowMs : UInt32) : Bool :=
  let etx := F.calculateEtx rssi.toInt32 snr g.modemPreset
  !decide (Writable F g.myNode gateway etx) ||
    if isPlaceholderNode gateway then
      (g.isActiveRoutingRole && F.positive (g.nominalHop F)) ||
        g.changesOurList F gateway etx nowMs .mirrored ||
        g.outlives (g.edges.pushedOut gateway g.myNode nowMs) none
    else
      let g := g.noteSilence F gateway nowMs
      g.outlives (g.edges.pushedOut gateway g.myNode nowMs) (g.crowdedOutOfOurs F gateway etx nowMs)

/-- The same of a frame, unless its originator has moved away: then nothing stays cached. -/
def carefulRelayed (p : Observation) : Bool :=
  match g.observedGateway p with
  | none => true
  | some (gateway, rssi, snr) =>
    g.travelling p || (g.withLocalNode F p.nowMs).carefulGateway F gateway rssi snr p.nowMs

end

/-- No list has an edge to its own node. -/
theorem edge_self (edges : EdgeStore) (a : UInt32) : edges.edge a a = none := by
  cases h : edges.edge a a with
  | none => rfl
  | some e =>
    obtain ⟨n, hn, he⟩ := edge_eq_some_iff.mp h
    obtain ⟨hmem, hid⟩ := NodeEdges.findEdge_eq_some_iff.mp he
    exact absurd (hid.trans (findNode_eq_some_iff.mp hn).2.symm) (n.ids e hmem).2.2

/-- What an observation of `b` loses: the list of a node that gives way, an edge of ours that
is crowded out, and edges of `b` to others. -/
def LostTo (b me : UInt32) (evicted crowded : Option UInt32) (x y : UInt32) : Prop :=
  evicted = some x ∨ x = me ∧ crowded = some y ∨ x = b ∧ y ≠ me

section

variable {g : NeighborGraph}

/-- The cached next hops that outlive the losses are still links. -/
theorem linked_of_outlives {edges' : EdgeStore} {b : UInt32} {evicted crowded : Option UInt32}
    (hne : b ≠ g.myNode) (hme : evicted ≠ some g.myNode) (h : g.outlives evicted crowded = true)
    (hspares : Spares (LostTo b g.myNode evicted crowded) g.edges edges') :
    ∀ r ∈ g.routeCache.rows, Linked edges' g.myNode r.nextHop := by
  intro r hr
  have hkept := List.all_eq_true.mp h r hr
  simp only [Bool.or_eq_true, Bool.and_eq_true, bne_iff_ne, ne_eq] at hkept
  rcases hkept with ⟨he, hcrowded⟩ | ⟨he, hevicted⟩
  · rcases hspares _ _ he with (hlost | ⟨-, hlost⟩ | ⟨hlost, -⟩) | hedge
    · exact absurd hlost hme
    · exact absurd hlost hcrowded
    · exact absurd hlost.symm hne
    · exact .inl hedge
  · rcases hspares _ _ he with (hlost | ⟨hlost, -⟩ | ⟨-, hlost⟩) | hedge
    · exact absurd hlost hevicted
    · rw [hlost, edge_self] at he
      cases he
    · exact absurd rfl hlost
    · exact .inr hedge

end

/-! ## Neighbours -/

section

variable {Etx : Type} {F : F32 Etx} {g : NeighborGraph} {b nowMs : UInt32} {rssi : Int16} {snr : Int8}
  {heardOn : UInt8}

theorem noteSilence_moves : Moves g (g.noteSilence F b nowMs) := by
  unfold noteSilence
  extract_lets prevHeard gap silence
  split
  · refine ⟨rfl, fun h => ?_, .inr ⟨rfl, keeps_modifyEdge _ _ _⟩⟩
    dsimp only
    unfold modifyEdge
    exact holds_modifyNode h
  · exact .refl g

theorem noteSilence_preset : (g.noteSilence F b nowMs).modemPreset = g.modemPreset := by
  unfold noteSilence
  extract_lets prevHeard gap silence
  split <;> rfl

theorem upsertDirectSignal_graph : ∃ directSignals,
    g.upsertDirectSignal b rssi snr nowMs = { g with directSignals := directSignals } := by
  unfold upsertDirectSignal
  split
  · exact ⟨_, rfl⟩
  · extract_lets new
    split
    · exact ⟨_, rfl⟩
    · split
      · exact ⟨_, rfl⟩
      · exact ⟨_, rfl⟩

/-- What becomes of the graph when our edge to `b` is measured: it is as before but for the
store, which loses no more than `LostTo` tells; the change is told; and afterwards nobody
gives way to `b` any more. -/
structure Measured (F : F32 Etx) (g : NeighborGraph) (b : UInt32) (etx : Etx) (nowMs : UInt32)
    (r : NeighborGraph × EdgeChange) : Prop where
  me : r.1.myNode = g.myNode
  preset : r.1.modemPreset = g.modemPreset
  holds : (r.1.edges.findNode g.myNode).isSome = true
  cache : r.1.routeCache = g.routeCache
  spares : Spares (LostTo b g.myNode (g.edges.pushedOut b g.myNode nowMs)
    (if r.2 = .new then g.crowdedOutOfOurs F b etx nowMs else none)) g.edges r.1.edges
  keeps : ¬Writable F g.myNode b etx → Keeps g.edges r.1.edges
  changes : Writable F g.myNode b etx → g.changesOurList F b etx nowMs .reported = true →
    r.2 ≠ .noChange
  settled : Writable F g.myNode b etx → r.1.edges.Settled b g.myNode

theorem measureNeighbor_measured (hstored : (g.edges.findNode g.myNode).isSome = true)
    (hne : b ≠ g.myNode) :
    Measured F g b (F.calculateEtx rssi.toInt32 snr g.modemPreset) nowMs
      (g.measureNeighbor F b rssi snr nowMs heardOn) := by
  obtain ⟨n, hn⟩ := Option.isSome_iff_exists.mp hstored
  unfold measureNeighbor
  dsimp only
  generalize F.calculateEtx rssi.toInt32 snr g.modemPreset = etx
  generalize hfirst : g.edges.updateEdge F g.myNode g.myNode b etx nowMs .reported true heardOn = first
  generalize hsecond : first.1.updateEdge F g.myNode b g.myNode etx nowMs .inferred true heardOn = second
  have hkeeps : Keeps second.1 (second.1.modifyEdge g.myNode b fun e => { e with lastHeardMs := nowMs }) :=
    keeps_modifyEdge _ _ _
  refine ⟨rfl, rfl, ?_, rfl, ?_, fun hw => ?_, fun hw hchanges => ?_, fun hw => ?_⟩
  · dsimp only
    unfold modifyEdge
    refine holds_modifyNode ?_
    rw [← hsecond, ← hfirst]
    exact holds_updateEdge (holds_updateEdge hstored)
  · dsimp only
    have hours : Spares (LostTo b g.myNode (g.edges.pushedOut b g.myNode nowMs)
        (if first.2 = .new then g.crowdedOutOfOurs F b etx nowMs else none)) g.edges first.1 := by
      rw [← hfirst]
      refine (spares_updateEdge_mine hn).mono fun x y h => ?_
      obtain ⟨-, h | ⟨hx, hnew, hb, hcrowded⟩⟩ := h
      · exact .inl h
      · refine .inr (.inl ⟨hx, ?_⟩)
        rw [if_pos hnew]
        unfold crowdedOutOfOurs
        rw [hn]
        dsimp only
        rw [hb]
        exact hcrowded
    have htheirs : Spares (LostTo b g.myNode (g.edges.pushedOut b g.myNode nowMs)
        (if first.2 = .new then g.crowdedOutOfOurs F b etx nowMs else none)) first.1 second.1 := by
      rw [← hsecond]
      by_cases hw : Writable F g.myNode b etx
      · have hsettled : first.1.Settled b g.myNode := hfirst ▸ settled_updateEdge_mine hn hw
        refine (spares_updateEdge_other hne).mono fun x y h => ?_
        rw [hsettled.pushedOut] at h
        rcases h with h | h
        · cases h
        · exact .inr (.inr h)
      · rw [updateEdge_unwritable fun h => hw h.symm]
        exact (Keeps.refl _).spares
    exact hours.trans (htheirs.trans hkeeps.spares)
  · dsimp only
    rw [updateEdge_unwritable hw] at hfirst
    rw [← hfirst, updateEdge_unwritable fun h => hw h.symm] at hsecond
    rw [← hsecond] at hkeeps ⊢
    exact hkeeps
  · dsimp only
    rw [← hfirst]
    refine updateEdge_mine_changes hn hw ?_
    unfold changesOurList at hchanges
    rw [hn] at hchanges
    exact hchanges
  · dsimp only
    unfold modifyEdge
    refine Settled.modifyNode ?_ fun n hn => hn
    have hsettled : first.1.Settled b g.myNode := hfirst ▸ settled_updateEdge_mine hn hw
    rw [← hsecond]
    exact settled_updateEdge_other hne (.inl hsettled)

theorem CacheSound.readyFor (h : CacheSound g) :
    CacheSound (g.readyFor F b nowMs) ∧ (g.readyFor F b nowMs).myNode = g.myNode ∧
      ((g.readyFor F b nowMs).edges.findNode g.myNode).isSome = true := by
  obtain ⟨hsound, hstored⟩ := h.withLocalNode F nowMs
  have hmoves := @noteSilence_moves _ F (g.withLocalNode F nowMs) b nowMs
  exact ⟨hsound.moves hstored hmoves, hmoves.me, hmoves.holds hstored⟩

/-- The same of a neighbour that is heard. -/
theorem refresh_measured (h : CacheSound g) (hne : b ≠ g.myNode) :
    Measured F (g.readyFor F b nowMs) b (F.calculateEtx rssi.toInt32 snr g.modemPreset) nowMs
      (g.refreshReportedDirectNeighbor F b rssi snr nowMs heardOn) := by
  obtain ⟨-, hme, hstored⟩ := @CacheSound.readyFor _ F g b nowMs h
  have hpreset : (g.readyFor F b nowMs).modemPreset = g.modemPreset := noteSilence_preset
  have hmeasured := @measureNeighbor_measured _ F (g.readyFor F b nowMs) b nowMs rssi snr heardOn
    (by rw [hme]; exact hstored) (by rw [hme]; exact hne)
  rw [hpreset] at hmeasured
  unfold refreshReportedDirectNeighbor
  rw [show (g.withLocalNode F nowMs).noteSilence F b nowMs = g.readyFor F b nowMs from rfl]
  dsimp only
  generalize (g.readyFor F b nowMs).measureNeighbor F b rssi snr nowMs heardOn = r at hmeasured ⊢
  obtain ⟨directSignals, heq⟩ := @upsertDirectSignal_graph r.1 b nowMs rssi snr
  rw [heq]
  exact ⟨hmeasured.me, hmeasured.preset, hmeasured.holds, hmeasured.cache, hmeasured.spares,
    hmeasured.keeps, hmeasured.changes, hmeasured.settled⟩

theorem CacheSound.observeDirectNeighbor (h : CacheSound g)
    (hcareful : g.carefulDirect F b rssi snr nowMs = true) :
    CacheSound (g.observeDirectNeighbor F b rssi snr nowMs heardOn).1 := by
  unfold NeighborGraph.observeDirectNeighbor
  split
  · exact h
  rename_i hends
  have hne : b ≠ g.myNode := fun heq => hends (by simp [heq])
  unfold carefulDirect at hcareful
  split
  · exact h
  rename_i rssi snr hsignal
  rw [hsignal] at hcareful
  dsimp only at hcareful ⊢
  obtain ⟨hready, hme, -⟩ := @CacheSound.readyFor _ F g b nowMs h
  have hmeasured := @refresh_measured _ F g b nowMs rssi snr heardOn h hne
  generalize hr : g.refreshReportedDirectNeighbor F b rssi snr nowMs heardOn = r at hmeasured ⊢
  have hrooted : r.1.edges.Rooted r.1.myNode := .inl (by rw [hmeasured.me]; exact hmeasured.holds)
  by_cases hchanged : (r.2 == .new || r.2 == .significantChange) = true
  · rw [if_pos hchanged]
    exact ⟨hrooted, linked_of_empty rfl⟩
  rw [if_neg hchanged]
  have hno : r.2 = .noChange := by
    cases hchange : r.2 <;> rw [hchange] at hchanged <;> first | rfl | exact absurd rfl hchanged
  refine ⟨hrooted, ?_⟩
  change ∀ x ∈ r.1.routeCache.rows, Linked r.1.edges r.1.myNode x.nextHop
  rw [hmeasured.cache, hmeasured.me]
  simp only [Bool.or_eq_true, Bool.not_eq_true', decide_eq_false_iff_not] at hcareful
  by_cases hw : Writable F (g.readyFor F b nowMs).myNode b (F.calculateEtx rssi.toInt32 snr g.modemPreset)
  · rcases hcareful with (hrefused | hchanges) | houtlives
    · exact absurd hw hrefused
    · exact absurd hno (hmeasured.changes hw hchanges)
    · have hspares := hmeasured.spares
      rw [hno, if_neg EdgeChange.noConfusion] at hspares
      exact linked_of_outlives (by rw [hme]; exact hne) pushedOut_ne_me houtlives hspares
  · exact fun x hx => (hready.linked x hx).keeps (hmeasured.keeps hw)

end

/-! ## Relays -/

section

variable {Etx : Type} {F : F32 Etx} {g : NeighborGraph} {gateway nowMs : UInt32} {rssi : Int16}
  {snr : Int8} {p : Observation}

theorem observedGateway_spec (h : g.observedGateway p = some (gateway, rssi, snr)) :
    p.fromNode ≠ 0 ∧ gateway ≠ p.fromNode ∧ gateway ≠ g.myNode := by
  unfold observedGateway at h
  split at h
  · cases h
  split at h
  · cases h
  rename_i hfrom
  split at h
  · cases h
  split at h
  · cases h
  extract_lets observed at h
  split at h
  · cases h
  rename_i hends
  split at h
  · cases h
  rw [Option.some.injEq, Prod.mk.injEq] at h
  simp only [Bool.or_eq_true, beq_iff_eq, not_or] at hfrom hends
  rw [← h.1]
  exact ⟨hfrom, hends⟩

theorem clearOn_moves {edges : EdgeStore} {change : EdgeChange}
    (hholds : (g.edges.findNode g.myNode).isSome = true → (edges.findNode g.myNode).isSome = true)
    (hkeeps : change = .noChange → Keeps g.edges edges) :
    Moves g ({ g with edges := edges }.clearOn change) := by
  unfold clearOn
  cases change with
  | noChange => exact ⟨rfl, hholds, .inr ⟨rfl, hkeeps rfl⟩⟩
  | new => exact ⟨rfl, hholds, .inl rfl⟩
  | significantChange => exact ⟨rfl, hholds, .inl rfl⟩

theorem clearOn_edges (change : EdgeChange) : (g.clearOn change).edges = g.edges := by
  unfold clearOn
  split <;> rfl

theorem inferRelayEdge_moves (hne : gateway ≠ g.myNode) : Moves g (g.inferRelayEdge F gateway p) := by
  unfold inferRelayEdge
  dsimp only
  split
  · refine clearOn_moves holds_updateEdge fun hno => keeps_updateEdge_other hne ?_
    rw [hno]
    exact EdgeChange.noConfusion
  · exact .refl g

/-- The relay's edge does not make anybody give way to the relay. -/
theorem inferRelayEdge_settled (hne : gateway ≠ g.myNode) (h : g.edges.Settled gateway g.myNode) :
    (g.inferRelayEdge F gateway p).edges.Settled gateway g.myNode := by
  unfold inferRelayEdge
  dsimp only
  split
  · rw [clearOn_edges]
    exact settled_updateEdge_other hne (.inl h)
  · exact h

/-- A relay known by its byte alone is stored with its edge, if it is priced. -/
theorem inferRelayEdge_settles (hne : gateway ≠ g.myNode) (hplace : isPlaceholderNode gateway = true)
    (hactive : g.isActiveRoutingRole = true) (hw : Writable F gateway p.fromNode (g.nominalHop F)) :
    (g.inferRelayEdge F gateway p).edges.Settled gateway g.myNode := by
  unfold inferRelayEdge
  rw [hplace, hactive, Bool.or_true]
  change ((NeighborGraph.clearOn _ _).edges).Settled gateway g.myNode
  rw [clearOn_edges]
  exact settled_updateEdge_other hne (.inr ⟨hw, hplace⟩)

/-- An edge that is not written, for the role or for the price. -/
theorem inferRelayEdge_refused (h : (g.isActiveRoutingRole && F.positive (g.nominalHop F)) = false) :
    g.inferRelayEdge F gateway p = g := by
  unfold inferRelayEdge
  dsimp only
  split
  · rename_i hactive
    have hpos : F.positive (g.nominalHop F) = false := by
      rw [(Bool.and_eq_true_iff.mp hactive).1] at h
      exact h
    rw [updateEdge_unwritable fun hw => by
      rw [hw.2.2.2] at hpos
      cases hpos]
    rfl
  · rfl

theorem confirm_moves {neighbor : UInt32} : Moves g (g.confirmDirectNeighborHearsUs neighbor).1 := by
  unfold confirmDirectNeighborHearsUs
  split
  · exact .refl g
  · split
    · exact .refl g
    · split
      · exact .refl g
      · refine ⟨rfl, fun h => ?_, .inl rfl⟩
        dsimp only
        unfold setEdgeHearsUs
        exact holds_modifyNode h

theorem maybeConfirm_moves {packetFrom : UInt32} {committed : Bool} :
    Moves g (g.maybeConfirmHearsUsFromRelay gateway packetFrom committed).1 := by
  unfold maybeConfirmHearsUsFromRelay
  split
  · exact .refl g
  · split
    · exact .refl g
    · exact confirm_moves

theorem inferDownstream_moves {travelling sourcePublishes : Bool} :
    Moves g (g.inferDownstream F gateway p travelling sourcePublishes) := by
  have hsame : ∀ downstream, Moves g { g with downstream := downstream, routeCache := .empty } :=
    fun downstream => ⟨rfl, id, .inl rfl⟩
  unfold inferDownstream
  extract_lets relayHearsUs listsRelay canInfer infers destInBall listParked stealOk pathEtx existing
  split
  · split
    · exact hsame _
    · split
      · split
        · exact .refl g
        · exact hsame _
      · exact .refl g
  · exact .refl g

theorem inferRelayEdge_preset : (g.inferRelayEdge F gateway p).modemPreset = g.modemPreset := by
  unfold inferRelayEdge clearOn
  dsimp only
  split
  · split <;> rfl
  · rfl

theorem withLocalNode_stored (h : (g.edges.findNode g.myNode).isSome = true) :
    g.withLocalNode F nowMs = g := by
  unfold withLocalNode ensureLocalNode
  rw [if_neg (by rw [← Option.not_isSome, h]; decide)]

theorem outlives_none {evicted crowded : Option UInt32} (h : g.outlives evicted crowded = true) :
    g.outlives evicted none = true := by
  unfold outlives at *
  rw [List.all_eq_true] at *
  intro r hr
  have hr := h r hr
  simp only [Bool.or_eq_true, Bool.and_eq_true] at hr ⊢
  exact hr.imp_left fun h => ⟨h.1, rfl⟩

/-- A travelling neighbour is unlinked, and nothing stays cached. -/
theorem retractTravelling_clears (hfrom : p.fromNode ≠ 0) (htravelling : g.travelling p = true) :
    (g.edges.findNode g.myNode).isSome = true ∧ Moves g (g.retractTravelling F p) ∧
      (g.retractTravelling F p).routeCache = .empty := by
  have hedge : (g.edges.edge g.myNode p.fromNode).isSome = true := by
    unfold travelling Topology.EdgeStore.hasDirectReportedEdgeTo at htravelling
    cases he : g.edges.edge g.myNode p.fromNode with
    | none =>
      rw [he] at htravelling
      cases htravelling
    | some e => rfl
  have hne : p.fromNode ≠ g.myNode := by
    intro heq
    rw [heq, edge_self] at hedge
    cases hedge
  obtain ⟨e, he⟩ := Option.isSome_iff_exists.mp hedge
  obtain ⟨n, hn, hfound⟩ := edge_eq_some_iff.mp he
  obtain ⟨hmem, hto⟩ := NodeEdges.findEdge_eq_some_iff.mp hfound
  have hremoved : (g.edges.removeEdge g.myNode p.fromNode).2 = true := by
    unfold removeEdge
    rw [hn]
    exact List.any_eq_true.mpr ⟨e, hmem, by simpa using hto⟩
  have hremoveHolds : ∀ (edges : EdgeStore) (a b : UInt32), (edges.findNode g.myNode).isSome = true →
      ((edges.removeEdge a b).1.findNode g.myNode).isSome = true := by
    intro edges a b h
    unfold removeEdge
    split
    · exact h
    · dsimp only
      exact holds_modifyNode h
  refine ⟨by rw [hn]; rfl, ?_⟩
  unfold retractTravelling retractDirectLinkInner
  rw [if_pos htravelling, if_neg (by simp [hfrom, hne])]
  dsimp only
  rw [hremoved]
  exact ⟨⟨rfl, fun h => holds_prune (hremoveHolds _ _ _ (hremoveHolds _ _ _ h)), .inl rfl⟩, rfl⟩

/-- Our own node is stored, too. -/
structure Present (g : NeighborGraph) : Prop extends CacheSound g where
  stored : (g.edges.findNode g.myNode).isSome = true

theorem Present.moves {g' : NeighborGraph} (h : Present g) (hm : Moves g g') : Present g' where
  toCacheSound := h.toCacheSound.moves h.stored hm
  stored := by
    rw [hm.me]
    exact hm.holds h.stored

theorem Present.cleared {g' : NeighborGraph} (hstored : (g'.edges.findNode g'.myNode).isSome = true)
    (hempty : g'.routeCache = .empty) : Present g' :=
  ⟨⟨.inl hstored, linked_of_empty hempty⟩, hstored⟩

/-- A relay that is measured takes no more than `LostTo` tells, and the cache is left alone. -/
theorem observeRelayGatewaySignal_present {heardOn : UInt8} (h : Present g)
    (hne : gateway ≠ g.myNode) (hreal : isPlaceholderNode gateway = false)
    (hcareful : g.carefulGateway F gateway rssi snr nowMs = true) :
    let g' := (g.observeRelayGatewaySignal F gateway rssi snr nowMs heardOn).1
    Present g' ∧ Writes g g' ∧ g'.modemPreset = g.modemPreset ∧
      (Writable F g.myNode gateway (F.calculateEtx rssi.toInt32 snr g.modemPreset) →
        g'.edges.Settled gateway g.myNode) := by
  have hready : g.readyFor F gateway nowMs = g.noteSilence F gateway nowMs := by
    unfold readyFor
    rw [withLocalNode_stored h.stored]
  obtain ⟨hsound, hme, -⟩ := @CacheSound.readyFor _ F g gateway nowMs h.toCacheSound
  have hmeasured := @refresh_measured _ F g gateway nowMs rssi snr heardOn h.toCacheSound hne
  rw [hready] at hsound hme hmeasured
  unfold carefulGateway at hcareful
  unfold observeRelayGatewaySignal
  rw [hreal] at hcareful ⊢
  dsimp only at hcareful ⊢
  rw [if_neg Bool.false_ne_true] at hcareful
  simp only [Bool.or_eq_true, Bool.not_eq_true', decide_eq_false_iff_not] at hcareful
  generalize F.calculateEtx rssi.toInt32 snr g.modemPreset = etx at hcareful hmeasured ⊢
  generalize g.refreshReportedDirectNeighbor F gateway rssi snr nowMs heardOn = r at hmeasured ⊢
  -- only the downstream rows are changed after the measurement
  obtain ⟨downstream, heq⟩ : ∃ downstream, (if false = true then (g, false)
      else if (r.2 == .new) = true then
        ({ r.1 with downstream := r.1.downstream.clearForDestination gateway }, true)
      else (r.1, false)).1 = { r.1 with downstream := downstream } := by
    rw [if_neg Bool.false_ne_true]
    split
    · exact ⟨_, rfl⟩
    · exact ⟨_, rfl⟩
  rw [heq]
  have hstored : (r.1.edges.findNode r.1.myNode).isSome = true := by
    rw [hmeasured.me]
    exact hmeasured.holds
  have hlinked : ∀ x ∈ r.1.routeCache.rows, Linked r.1.edges r.1.myNode x.nextHop := by
    rw [hmeasured.cache, hmeasured.me]
    by_cases hw : Writable F g.myNode gateway etx
    · have houtlives := hcareful.resolve_left fun h => h hw
      have hspares := hmeasured.spares
      split at hspares
      · exact linked_of_outlives (by rw [hme]; exact hne) pushedOut_ne_me houtlives hspares
      · exact linked_of_outlives (by rw [hme]; exact hne) pushedOut_ne_me (outlives_none houtlives)
          hspares
    · exact fun x hx => (hsound.linked x hx).keeps (hmeasured.keeps (by rw [hme]; exact hw))
  refine ⟨⟨⟨.inl hstored, hlinked⟩, hstored⟩, ⟨hmeasured.me.trans hme, fun _ => ?_, ?_⟩,
    hmeasured.preset.trans noteSilence_preset, fun hw => ?_⟩
  · rw [← hme]
    exact hmeasured.holds
  · refine hmeasured.cache.trans ?_
    unfold noteSilence
    extract_lets prevHeard gap silence
    split <;> rfl
  · rw [← hme]
    exact hmeasured.settled (by rw [hme]; exact hw)

theorem mirrorRelayEdge_present (h : Present g) (hne : gateway ≠ g.myNode)
    (hcareful : Writable F g.myNode gateway (F.calculateEtx rssi.toInt32 snr g.modemPreset) →
      g.changesOurList F gateway (F.calculateEtx rssi.toInt32 snr g.modemPreset) p.nowMs .mirrored =
        true ∨ g.outlives (g.edges.pushedOut gateway g.myNode p.nowMs) none = true) :
    Present (g.mirrorRelayEdge F gateway rssi snr p) := by
  obtain ⟨n, hn⟩ := Option.isSome_iff_exists.mp h.stored
  unfold mirrorRelayEdge
  dsimp only
  generalize F.calculateEtx rssi.toInt32 snr g.modemPreset = etx at hcareful ⊢
  by_cases hno : (g.edges.updateEdge F g.myNode g.myNode gateway etx p.nowMs .mirrored true p.heardOn).2 =
      .noChange
  · have hspares := @spares_updateEdge_mine _ F g.edges g.myNode gateway p.nowMs etx .mirrored true
      p.heardOn n hn
    have hholds := @holds_updateEdge g.edges g.myNode g.myNode gateway p.nowMs _ F etx .mirrored true
      p.heardOn h.stored
    rw [hno]
    refine ⟨⟨.inl hholds, ?_⟩, hholds⟩
    change ∀ r ∈ g.routeCache.rows, Linked _ g.myNode r.nextHop
    by_cases hw : Writable F g.myNode gateway etx
    · rcases hcareful hw with hchanges | houtlives
      · unfold changesOurList at hchanges
        rw [hn] at hchanges
        exact absurd hno (updateEdge_mine_changes hn hw hchanges)
      · refine linked_of_outlives hne pushedOut_ne_me houtlives (hspares.mono fun x y hlost => ?_)
        obtain ⟨-, hlost | ⟨-, hnew, -⟩⟩ := hlost
        · exact .inl hlost
        · exact EdgeChange.noConfusion (hno.symm.trans hnew)
    · exact fun r hr => (h.linked r hr).keeps (hspares.keeps fun x y hlost => hw hlost.1)
  · exact h.moves (clearOn_moves holds_updateEdge fun h => absurd h hno)

theorem outlives_empty {evicted crowded : Option UInt32} (h : g.routeCache = .empty) :
    g.outlives evicted crowded = true := by
  unfold outlives
  rw [h]
  rfl

theorem outlives_nobody (h : CacheSound g) : g.outlives none none = true := by
  unfold outlives
  rw [List.all_eq_true]
  intro r hr
  simp only [Bool.or_eq_true, Bool.and_eq_true]
  exact (h.linked r hr).imp (fun h => ⟨h, rfl⟩) fun h => ⟨h, rfl⟩

theorem noteSilence_cache : (g.noteSilence F gateway nowMs).routeCache = g.routeCache := by
  unfold noteSilence
  extract_lets prevHeard gap silence
  split <;> rfl

theorem carefulGateway_empty (h : g.routeCache = .empty) :
    g.carefulGateway F gateway rssi snr nowMs = true := by
  unfold carefulGateway
  dsimp only
  rw [outlives_empty h, outlives_empty (noteSilence_cache.trans h), Bool.or_true, ite_self, Bool.or_true]

/-- The relay is written, our own node being stored. -/
theorem Present.hearRelay {travelling : Bool} (h : Present g) (hfrom : p.fromNode ≠ 0)
    (hother : gateway ≠ p.fromNode) (hne : gateway ≠ g.myNode)
    (hcareful : g.carefulGateway F gateway rssi snr p.nowMs = true) :
    Present (g.hearRelay F gateway rssi snr p travelling).1 := by
  unfold NeighborGraph.hearRelay
  dsimp only
  have hmirrored : Present (((g.observeRelayGatewaySignal F gateway rssi snr p.nowMs
      p.heardOn).1.inferRelayEdge F gateway p).mirrorRelayEdge F gateway rssi snr p) := by
    generalize hg1 : (g.observeRelayGatewaySignal F gateway rssi snr p.nowMs p.heardOn).1 = g1
    cases hplace : isPlaceholderNode gateway with
    | false =>
      obtain ⟨hpresent, hwrites, hpreset, hsettled⟩ :=
        @observeRelayGatewaySignal_present _ F g gateway p.nowMs rssi snr p.heardOn h hne hplace hcareful
      rw [hg1] at hpresent hwrites hpreset hsettled
      have hinfer := @inferRelayEdge_moves _ F g1 gateway p (hwrites.me.symm ▸ hne)
      have hme : (g1.inferRelayEdge F gateway p).myNode = g.myNode := hinfer.me.trans hwrites.me
      refine mirrorRelayEdge_present (hpresent.moves hinfer) (by rw [hme]; exact hne) fun hw => ?_
      -- the relay was measured a moment ago, so nobody gives way to it now
      rw [inferRelayEdge_preset, hme] at hw
      have hsettled' := hsettled (by rw [← hpreset]; exact hw)
      rw [← hwrites.me] at hsettled'
      have hout := @inferRelayEdge_settled _ F g1 gateway p (hwrites.me.symm ▸ hne) hsettled'
      rw [← hinfer.me] at hout
      right
      rw [hout.pushedOut]
      exact outlives_nobody (hpresent.moves hinfer).toCacheSound
    | true =>
      unfold observeRelayGatewaySignal at hg1
      rw [if_pos hplace] at hg1
      rw [← hg1]
      dsimp only
      cases hpriced : g.isActiveRoutingRole && F.positive (g.nominalHop F) with
      | true =>
        obtain ⟨hactive, hpos⟩ := Bool.and_eq_true_iff.mp hpriced
        have h0 : gateway ≠ 0 := by
          rintro rfl
          revert hplace
          decide
        have hinfer := @inferRelayEdge_moves _ F g gateway p hne
        have hsettled := @inferRelayEdge_settles _ F g gateway p hne hplace hactive
          ⟨hfrom, h0, hother, hpos⟩
        rw [← hinfer.me] at hsettled
        refine mirrorRelayEdge_present (h.moves hinfer) (by rw [hinfer.me]; exact hne) fun hw => .inr ?_
        rw [hsettled.pushedOut]
        exact outlives_nobody (h.moves hinfer).toCacheSound
      | false =>
        rw [inferRelayEdge_refused hpriced]
        unfold carefulGateway at hcareful
        rw [hplace, hpriced] at hcareful
        simp only [Bool.or_eq_true, Bool.not_eq_true', decide_eq_false_iff_not, if_true,
          Bool.false_or] at hcareful
        exact mirrorRelayEdge_present h hne fun hw => hcareful.resolve_left fun hrefused => hrefused hw
  exact (hmirrored.moves maybeConfirm_moves).moves inferDownstream_moves

theorem CacheSound.observeRelayedPacket (h : CacheSound g) (hcareful : g.carefulRelayed F p = true) :
    CacheSound (g.observeRelayedPacket F p).1 := by
  unfold NeighborGraph.observeRelayedPacket
  unfold carefulRelayed at hcareful
  split
  · exact h
  rename_i gateway rssi snr hgateway
  obtain ⟨hfrom, hother, hne⟩ := observedGateway_spec hgateway
  rw [hgateway] at hcareful
  dsimp only at hcareful ⊢
  -- whether the originator has moved away or not, the relay is looked at with care
  obtain ⟨hretracted, hme, hgate⟩ : CacheSound (g.retractTravelling F p) ∧
      (g.retractTravelling F p).myNode = g.myNode ∧
      ((g.retractTravelling F p).withLocalNode F p.nowMs).carefulGateway F gateway rssi snr p.nowMs =
        true := by
    by_cases htravelling : g.travelling p = true
    · obtain ⟨hstored, hmoves, hempty⟩ := @retractTravelling_clears _ F g p hfrom htravelling
      exact ⟨h.moves hstored hmoves, hmoves.me, carefulGateway_empty hempty⟩
    · have hretract : g.retractTravelling F p = g := by
        unfold retractTravelling
        rw [if_neg htravelling]
      rw [Bool.not_eq_true] at htravelling
      rw [htravelling, Bool.false_or] at hcareful
      rw [hretract]
      exact ⟨h, rfl, hcareful⟩
  obtain ⟨hsound, hstored⟩ := hretracted.withLocalNode F p.nowMs
  exact (Present.hearRelay ⟨hsound, hstored⟩ hfrom hother (hme.symm ▸ hne) hgate).toCacheSound

end

/-! ## The other calls -/

section

variable {Etx : Type} {F : F32 Etx} {g : NeighborGraph}

theorem CacheSound.modifyNode (h : CacheSound g) {nodeId : UInt32} {f : NodeEdges → NodeEdges} {hf}
    (hkeeps : Keeps g.edges (g.edges.modifyNode nodeId f hf)) :
    CacheSound { g with edges := g.edges.modifyNode nodeId f hf } where
  rooted := by
    rcases h.rooted with h | h
    · have hholds : ((g.edges.modifyNode nodeId f hf).findNode g.myNode).isSome = true :=
        holds_modifyNode h
      exact .inl hholds
    · right
      change (g.edges.nodes.rows.map _).length < _
      rw [List.length_map]
      exact h
  linked r hr := (h.linked r hr).keeps hkeeps

theorem CacheSound.getRoute (h : CacheSound g) (destination nowMs : UInt32) :
    CacheSound (g.getRoute destination nowMs).1 ∧
      ((g.getRoute destination nowMs).2.nextHop ≠ 0 →
        Linked (g.getRoute destination nowMs).1.edges (g.getRoute destination nowMs).1.myNode
          (g.getRoute destination nowMs).2.nextHop) := by
  unfold NeighborGraph.getRoute
  split
  · rename_i cached hcached
    exact ⟨h, fun _ => h.linked cached (List.mem_of_find?_eq_some hcached)⟩
  · extract_lets filter route
    split
    · rename_i hhop
      have hlinked : Linked g.edges g.myNode route.nextHop :=
        calculateRoute_link (by simpa using hhop)
      refine ⟨⟨h.rooted, fun r hr => ?_⟩, fun _ => hlinked⟩
      rcases mem_cacheInsert g.routeCache hr with hr | ⟨rfl, -⟩
      · exact h.linked r hr
      · exact hlinked
    · rename_i hhop
      refine ⟨h, fun hne => absurd ?_ hhop⟩
      simpa using hne

theorem CacheSound.confirm (h : CacheSound g) (neighbor : UInt32) :
    CacheSound (g.confirmDirectNeighborHearsUs neighbor).1 := by
  unfold confirmDirectNeighborHearsUs
  split
  · exact h
  · split
    · exact h
    · split
      · exact h
      · have hset := h.modifyNode (keeps_setEdgeHearsUs g.myNode neighbor true)
        exact ⟨hset.rooted, linked_of_empty rfl⟩

theorem CacheSound.applyTopologyHearsUs (h : CacheSound g) (sender ourNode : UInt32)
    (neighbors : List PackedNeighbor) : CacheSound (g.applyTopologyHearsUs sender ourNode neighbors) := by
  unfold NeighborGraph.applyTopologyHearsUs
  split
  · exact h.modifyNode (keeps_setEdgeHearsUs sender ourNode true)
  · exact h

theorem CacheSound.updateNodeActivity (h : CacheSound g) (nodeId nowMs : UInt32) :
    CacheSound { g with edges := g.edges.updateNodeActivity nodeId nowMs g.myNode } := by
  unfold EdgeStore.updateNodeActivity
  split
  · exact h
  · exact h.modifyNode (sameEdges_touchNode nodeId nowMs).keeps

theorem CacheSound.replaceGatewayNode (h : CacheSound g) (oldNode newNode nowMs : UInt32) :
    CacheSound (g.replaceGatewayNode oldNode newNode nowMs) := by
  unfold NeighborGraph.replaceGatewayNode
  split
  · exact h
  · exact h.same rfl rfl (.inl rfl)

theorem copyEdge_holds {placeholderId realNodeId nowMs : UInt32} :
    (g.copyEdge F placeholderId realNodeId nowMs).myNode = g.myNode ∧
      ((g.edges.findNode g.myNode).isSome = true →
        ((g.copyEdge F placeholderId realNodeId nowMs).edges.findNode g.myNode).isSome = true) := by
  unfold copyEdge
  split
  · exact ⟨rfl, id⟩
  · refine ⟨rfl, fun h => ?_⟩
    dsimp only
    split
    · unfold setEdgeHearsUs
      exact holds_modifyNode (holds_updateEdge h)
    · exact holds_updateEdge h

theorem replaceGatewayNode_edges (oldNode newNode nowMs : UInt32) :
    (g.replaceGatewayNode oldNode newNode nowMs).edges = g.edges ∧
      (g.replaceGatewayNode oldNode newNode nowMs).myNode = g.myNode := by
  unfold replaceGatewayNode
  split <;> exact ⟨rfl, rfl⟩

/-- A resolved placeholder leaves nothing cached. -/
theorem CacheSound.resolvePlaceholder (h : CacheSound g) (placeholderId realNodeId nowMs : UInt32) :
    CacheSound (g.resolvePlaceholder F placeholderId realNodeId nowMs).1 := by
  unfold NeighborGraph.resolvePlaceholder
  split
  · exact h
  · obtain ⟨-, hstored⟩ := h.withLocalNode F nowMs
    obtain ⟨hme, hcopied⟩ :=
      @copyEdge_holds _ F (g.withLocalNode F nowMs) placeholderId realNodeId nowMs
    obtain ⟨hedges, hme'⟩ := @replaceGatewayNode_edges
      ((g.withLocalNode F nowMs).copyEdge F placeholderId realNodeId nowMs) placeholderId realNodeId nowMs
    refine ⟨Rooted.removeNode ?_, linked_of_empty rfl⟩
    left
    change ((EdgeStore.removeEdgesTo (NeighborGraph.replaceGatewayNode ((g.withLocalNode F nowMs).copyEdge F
      placeholderId realNodeId nowMs) placeholderId realNodeId nowMs).edges placeholderId).findNode
        (NeighborGraph.replaceGatewayNode ((g.withLocalNode F nowMs).copyEdge F placeholderId realNodeId
          nowMs) placeholderId realNodeId nowMs).myNode).isSome = true
    unfold removeEdgesTo
    rw [findNode_mapNodes, Option.isSome_map, hedges, hme', hme]
    exact hcopied hstored

/-! ## Maintenance -/

theorem removeEdge_holds {edges : EdgeStore} {me a b : UInt32} (h : (edges.findNode me).isSome = true) :
    ((edges.removeEdge a b).1.findNode me).isSome = true := by
  unfold removeEdge
  split
  · exact h
  · dsimp only
    exact holds_modifyNode h

theorem retractDirectLinkInner_holds {neighbor : UInt32} {cascade : Bool} :
    (g.retractDirectLinkInner F neighbor cascade).1.myNode = g.myNode ∧
      ((g.edges.findNode g.myNode).isSome = true →
        ((g.retractDirectLinkInner F neighbor cascade).1.edges.findNode g.myNode).isSome = true) := by
  unfold retractDirectLinkInner
  split
  · exact ⟨rfl, id⟩
  · dsimp only
    split
    · cases cascade with
      | true => exact ⟨rfl, fun h => holds_prune (removeEdge_holds (removeEdge_holds h))⟩
      | false => exact ⟨rfl, fun h => removeEdge_holds (removeEdge_holds h)⟩
    · exact ⟨rfl, fun h => removeEdge_holds (removeEdge_holds h)⟩

/-- Links to silent publishers go; without one, nothing does. -/
theorem pruneSilentPublishers_spec (nowMs : UInt32) :
    (g.pruneSilentPublishers F nowMs).1.myNode = g.myNode ∧
      ((g.edges.findNode g.myNode).isSome = true →
        ((g.pruneSilentPublishers F nowMs).1.edges.findNode g.myNode).isSome = true) ∧
      ((g.pruneSilentPublishers F nowMs).2 = false → (g.pruneSilentPublishers F nowMs).1 = g) := by
  unfold pruneSilentPublishers
  dsimp only
  generalize g.silentPublishers nowMs = gone
  have hfold : ∀ (gone : List UInt32) (g' : NeighborGraph), g'.myNode = g.myNode →
      ((g.edges.findNode g.myNode).isSome = true → (g'.edges.findNode g.myNode).isSome = true) →
      let last := gone.foldl
        (fun (g : NeighborGraph) nodeId =>
          let g := (g.retractDirectLinkInner F nodeId false).1
          { g with downstream := g.downstream.clearForDestination nodeId }) g'
      last.myNode = g.myNode ∧
        ((g.edges.findNode g.myNode).isSome = true → (last.edges.findNode g.myNode).isSome = true) := by
    intro gone
    induction gone with
    | nil => exact fun g' hme hholds => ⟨hme, hholds⟩
    | cons n gone ih =>
      intro g' hme hholds
      obtain ⟨hme', hholds'⟩ := @retractDirectLinkInner_holds _ F g' n false
      exact ih _ (hme'.trans hme) fun h => hme ▸ hholds' (hme.symm ▸ hholds h)
  obtain ⟨hme, hholds⟩ := hfold gone g rfl id
  refine ⟨hme, hholds, fun hnone => ?_⟩
  cases gone with
  | nil => rfl
  | cons n gone => cases hnone

/-- Flags are cleared, edges stay. -/
theorem clearHearsUs_moves (expired : List UInt32) : Moves g (g.clearHearsUs expired) := by
  have hfold : ∀ edges : EdgeStore,
      ((edges.findNode g.myNode).isSome = true →
        ((expired.foldl (fun (edges : EdgeStore) n => edges.setEdgeHearsUs g.myNode n false)
          edges).findNode g.myNode).isSome = true) ∧
        Keeps edges
          (expired.foldl (fun (edges : EdgeStore) n => edges.setEdgeHearsUs g.myNode n false) edges) := by
    induction expired with
    | nil => exact fun edges => ⟨id, .refl edges⟩
    | cons n expired ih =>
      intro edges
      rw [List.foldl_cons]
      obtain ⟨hholds, hkeeps⟩ := ih (edges.setEdgeHearsUs g.myNode n false)
      refine ⟨fun h => hholds ?_, (keeps_setEdgeHearsUs g.myNode n false).trans hkeeps⟩
      unfold setEdgeHearsUs
      exact holds_modifyNode h
  obtain ⟨hholds, hkeeps⟩ := hfold g.edges
  exact ⟨rfl, hholds, .inr ⟨rfl, hkeeps⟩⟩

/-- After the ageing, what loses an edge clears the cache, and so does the ageing itself. -/
theorem forgetSilent_moves (nowMs : UInt32) (before : Nat) (edgesAged : Bool) :
    Moves g (g.forgetSilent F nowMs before edgesAged) ∧
      (edgesAged = true → (g.forgetSilent F nowMs before edgesAged).routeCache = .empty) := by
  obtain ⟨hme, hholds, hsame⟩ := @pruneSilentPublishers_spec _ F g nowMs
  unfold forgetSilent
  dsimp only
  generalize g.pruneSilentPublishers F nowMs = pruned at hme hholds hsame ⊢
  -- signals, rows, records and flags
  have hlast : ∀ downstream capability expired,
      let last := { pruned.1.pruneDirectSignals nowMs with
        downstream := downstream, capability := capability }.clearHearsUs expired
      Moves pruned.1 last := by
    intro downstream capability expired
    have hsame : Moves pruned.1
        { pruned.1.pruneDirectSignals nowMs with downstream := downstream, capability := capability } :=
      ⟨rfl, id, .inr ⟨rfl, .refl _⟩⟩
    exact hsame.trans (clearHearsUs_moves expired)
  generalize hage : (NeighborGraph.pruneDirectSignals pruned.1 nowMs).downstream.age _ _ _ = aged
  generalize hprune : (NeighborGraph.pruneDirectSignals pruned.1 nowMs).capability.prune _ _ = records
  have hmoves := hlast aged.1 records.1 records.2
  dsimp only at hmoves
  split
  · refine ⟨⟨hmoves.me.trans hme, fun h => ?_, .inl rfl⟩, fun _ => rfl⟩
    rw [← hme]
    exact hmoves.holds (hme.symm ▸ hholds h)
  · rename_i hquiet
    simp only [Bool.or_eq_true, not_or, Bool.not_eq_true] at hquiet
    have hunpruned : pruned.1 = g := hsame hquiet.1.2
    rw [hunpruned] at hmoves
    refine ⟨by rw [hunpruned]; exact hmoves, fun haged => ?_⟩
    rw [hquiet.1.1.1.2] at haged
    cases haged

theorem Present.aged (h : Present g) {edges : EdgeStore} {downstream : DownstreamTable}
    {edgesAged : Bool} (hholds : (edges.findNode g.myNode).isSome = true)
    (hkeeps : edgesAged = false → Keeps g.edges edges) (nowMs : UInt32) (before : Nat) :
    CacheSound ({ g with edges := edges, downstream := downstream }.forgetSilent F nowMs before
      edgesAged) := by
  obtain ⟨hmoves, hcleared⟩ := @forgetSilent_moves _ F
    { g with edges := edges, downstream := downstream } nowMs before edgesAged
  cases edgesAged with
  | true =>
    refine ⟨.inl ?_, linked_of_empty (hcleared rfl)⟩
    rw [hmoves.me]
    exact hmoves.holds hholds
  | false =>
    have hage : Moves g { g with edges := edges, downstream := downstream } :=
      ⟨rfl, fun _ => hholds, .inr ⟨rfl, hkeeps rfl⟩⟩
    exact h.toCacheSound.moves h.stored (hage.trans hmoves)

/-- Maintenance clears the cache if it removes an edge. -/
theorem CacheSound.runMaintenance (h : CacheSound g) (nowMs : UInt32) :
    CacheSound (g.runMaintenance F nowMs) := by
  obtain ⟨hsound, hstored⟩ := h.withLocalNode F nowMs
  exact Present.aged ⟨hsound, hstored⟩ (holds_ageEdges hstored) keeps_ageEdges nowMs _

end

end NeighborGraph

/-! ## Runs -/

/-- The calls that write the graph, and the question for a route. -/
inductive GraphOp where
  | getRoute (destination nowMs : UInt32)
  | observePacket (p : Observation)
  | observeDirectNeighbor (nodeId : UInt32) (rssi : Int16) (snr : Int8) (nowMs : UInt32) (heardOn : UInt8)
  | mergeTopology (c : Call)
  | applyTopologyHearsUs (sender ourNode : UInt32) (neighbors : List PackedNeighbor)
  | confirmDirectNeighborHearsUs (neighbor : UInt32)
  | resolvePlaceholder (placeholderId realNodeId nowMs : UInt32)
  | replaceGatewayNode (oldNode newNode nowMs : UInt32)
  | transferDownstream (oldRelay newRelay nowMs : UInt32)
  | updateNodeActivity (nodeId nowMs : UInt32)
  | trackNodeRole (nodeId role nowMs : UInt32)
  | setDeviceRole (role : UInt32)
  | setModemPreset (modemPreset : UInt8)
  | purgeForPresetChange
  | runMaintenance (nowMs : UInt32)

namespace NeighborGraph

section

variable {Etx : Type} (F : F32 Etx) (g : NeighborGraph)

def next : GraphOp → NeighborGraph
  | .getRoute destination nowMs => (g.getRoute destination nowMs).1
  | .observePacket p => (g.observePacket F p).1
  | .observeDirectNeighbor nodeId rssi snr nowMs heardOn =>
    (g.observeDirectNeighbor F nodeId rssi snr nowMs heardOn).1
  | .mergeTopology c => (g.mergeTopology F c).1
  | .applyTopologyHearsUs sender ourNode neighbors => g.applyTopologyHearsUs sender ourNode neighbors
  | .confirmDirectNeighborHearsUs neighbor => (g.confirmDirectNeighborHearsUs neighbor).1
  | .resolvePlaceholder placeholderId realNodeId nowMs =>
    (g.resolvePlaceholder F placeholderId realNodeId nowMs).1
  | .replaceGatewayNode oldNode newNode nowMs => g.replaceGatewayNode oldNode newNode nowMs
  | .transferDownstream oldRelay newRelay nowMs =>
    { g with downstream := g.downstream.transferDownstream oldRelay newRelay nowMs }
  | .updateNodeActivity nodeId nowMs =>
    { g with edges := g.edges.updateNodeActivity nodeId nowMs g.myNode }
  | .trackNodeRole nodeId role nowMs => g.trackNodeRole nodeId role nowMs
  | .setDeviceRole role => g.setDeviceRole role
  | .setModemPreset modemPreset => { g with modemPreset := modemPreset }
  | .purgeForPresetChange => g.purgeForPresetChange
  | .runMaintenance nowMs => g.runMaintenance F nowMs

/-- No observation takes the last link of a cached next hop without a word. -/
def careful : GraphOp → Bool
  | .observeDirectNeighbor nodeId rssi snr nowMs _ => g.carefulDirect F nodeId rssi snr nowMs
  | .observePacket p =>
    if Routing.isDirectPacket p.fromNode p.hopStart p.hopLimit p.relayNode then
      g.carefulDirect F p.fromNode p.rssi p.snr p.nowMs
    else g.carefulRelayed F p
  | _ => true

def Careful (op : GraphOp) : Prop := g.careful F op = true

instance decidableCareful (op : GraphOp) : Decidable (g.Careful F op) :=
  inferInstanceAs (Decidable (_ = true))

end

section

variable {Etx : Type} (F : F32 Etx) {me : UInt32} {g : NeighborGraph}

/-- The graph of node `me` under any sequence of calls. -/
def graphRuns (me : UInt32) : LTS NeighborGraph GraphOp where
  init g := g = new me
  step g op g' := g' = g.next F op

theorem cacheSound_new : CacheSound (new me) where
  rooted := .inr (Nat.zero_lt_succ 31)
  linked _ hr := absurd hr List.not_mem_nil

variable {F}

theorem CacheSound.next {op : GraphOp} (h : CacheSound g) (hcareful : g.Careful F op) :
    CacheSound (g.next F op) := by
  cases op with
  | getRoute destination nowMs => exact (h.getRoute destination nowMs).1
  | observePacket p =>
    change CacheSound (g.observePacket F p).1
    unfold Careful careful at hcareful
    unfold observePacket
    dsimp only at hcareful
    split
    · rename_i hdirect
      rw [if_pos hdirect] at hcareful
      exact h.observeDirectNeighbor hcareful
    · rename_i hrelayed
      rw [if_neg hrelayed] at hcareful
      exact h.observeRelayedPacket hcareful
  | observeDirectNeighbor nodeId rssi snr nowMs heardOn => exact h.observeDirectNeighbor hcareful
  | mergeTopology c => exact h.mergeTopology
  | applyTopologyHearsUs sender ourNode neighbors => exact h.applyTopologyHearsUs sender ourNode neighbors
  | confirmDirectNeighborHearsUs neighbor => exact h.confirm neighbor
  | resolvePlaceholder placeholderId realNodeId nowMs =>
    exact h.resolvePlaceholder placeholderId realNodeId nowMs
  | replaceGatewayNode oldNode newNode nowMs => exact h.replaceGatewayNode oldNode newNode nowMs
  | transferDownstream => exact h.same rfl rfl (.inr rfl)
  | updateNodeActivity nodeId nowMs => exact h.updateNodeActivity nodeId nowMs
  | trackNodeRole => exact h.same rfl rfl (.inl rfl)
  | setDeviceRole => exact h.same rfl rfl (.inr rfl)
  | setModemPreset => exact h.same rfl rfl (.inr rfl)
  | purgeForPresetChange => exact ⟨.inr (Nat.zero_lt_succ 31), linked_of_empty rfl⟩
  | runMaintenance nowMs => exact h.runMaintenance nowMs

/-- In every run without such losses, every next hop that a route names is one of our
links when it is asked for, whether the route was cached or not. -/
theorem next_hop_linked (hrun : ((graphRuns F me).restrict (Careful F)).Reachable g)
    (destination nowMs : UInt32) (hhop : (g.getRoute destination nowMs).2.nextHop ≠ 0) :
    Linked (g.getRoute destination nowMs).1.edges (g.getRoute destination nowMs).1.myNode
      (g.getRoute destination nowMs).2.nextHop := by
  have hsound : ((graphRuns F me).restrict (Careful F)).Inductive CacheSound := by
    refine ⟨fun g hnew => ?_, fun g op g' h hstep => ?_⟩
    · rw [show g = new me from hnew]
      exact cacheSound_new
    · obtain ⟨hcareful, hnext⟩ := hstep
      rw [show g' = g.next F op from hnext]
      exact h.next hcareful
  exact ((hsound.reachable hrun).getRoute destination nowMs).2 hhop

end

/-! ## A full list -/

/-- Prices in whole hundredths: 1.05 for a link as strong as the table of delivery
probabilities knows, 8.88 for one at -120 dBm and -17 dB. -/
def strongAndWeak : F32 UInt16 := { hundredths with
  calculateEtx := fun rssi _ _ => if rssi.toInt ≤ -120 then 888 else 105 }

def heardStrong (nodeId : UInt32) : GraphOp := .observeDirectNeighbor nodeId (-60) 10 1000 0

def heardWeak (nodeId : UInt32) : GraphOp := .observeDirectNeighbor nodeId (-120) (-17) 1000 0

/-- A frame of node 256 that node 42 passed on. -/
def passedOn : GraphOp := .observePacket {
  fromNode := 256
  hopStart := 3
  hopLimit := 2
  relayNode := 42
  rssi := -60
  snr := 10
  nowMs := 1000
  heardOn := 0
  knownRelay := some 42
  ourTransmission := false
  heardDirect := false
  committed := false }

/-- We are node 1 and hear forty neighbours, of which node 33 is weak, and ask for it. -/
def fullList : List GraphOp :=
  (List.range 31).map (fun i => heardStrong (UInt32.ofNat (2 + i))) ++ [heardWeak 33] ++
    (List.range 8).map (fun i => heardStrong (UInt32.ofNat (34 + i))) ++ [.getRoute 33 1000]

def graphAfter (ops : List GraphOp) : NeighborGraph :=
  ops.foldl (fun g op => g.next strongAndWeak op) (new 1)

/-- The weak neighbour is cached as its own next hop, and is linked. -/
theorem weak_neighbor_linked :
    ((graphAfter fullList).getRoute 33 1000).2.nextHop = 33 ∧
      Linked ((graphAfter fullList).getRoute 33 1000).1.edges
        ((graphAfter fullList).getRoute 33 1000).1.myNode
        ((graphAfter fullList).getRoute 33 1000).2.nextHop := by
  have hcareful : LTS.Along (fun g op => g.next strongAndWeak op) (Careful strongAndWeak) (new 1)
      fullList := by decide +kernel
  have hstep : ∀ g op, Careful strongAndWeak g op →
      ((graphRuns strongAndWeak 1).restrict (Careful strongAndWeak)).step g op
        (g.next strongAndWeak op) := fun g op hop => ⟨hop, rfl⟩
  have hrun : ((graphRuns strongAndWeak 1).restrict (Careful strongAndWeak)).Reachable
      (graphAfter fullList) := ⟨new 1, fullList, rfl, LTS.run_foldl hstep hcareful⟩
  have hhop : ((graphAfter fullList).getRoute 33 1000).2.nextHop = 33 := by decide +kernel
  have hne : ((graphAfter fullList).getRoute 33 1000).2.nextHop ≠ 0 :=
    fun h0 => absurd (hhop.symm.trans h0) (by decide)
  exact ⟨hhop, next_hop_linked hrun 33 1000 hne⟩

/-- A relay that is heard crowds the weak neighbour out of our list. The route to it stays
cached, and names it as the next hop with no edge between us. -/
theorem relay_crowds_out_next_hop :
    let g := graphAfter (fullList ++ [passedOn])
    (graphRuns strongAndWeak 1).Reachable g ∧ (g.getRoute 33 1000).2.nextHop = 33 ∧
      ¬Linked (g.getRoute 33 1000).1.edges (g.getRoute 33 1000).1.myNode 33 := by
  have hall : LTS.Along (fun g op => g.next strongAndWeak op) (fun _ _ => True) (new 1)
      (fullList ++ [passedOn]) := by decide +kernel
  have hrun : (graphRuns strongAndWeak 1).Reachable (graphAfter (fullList ++ [passedOn])) :=
    ⟨new 1, fullList ++ [passedOn], rfl, LTS.run_foldl (fun _ _ _ => rfl) hall⟩
  exact ⟨hrun, by decide +kernel⟩

end NeighborGraph

end Meshrustic.Topology
