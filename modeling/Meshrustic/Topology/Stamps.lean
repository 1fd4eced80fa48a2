import Meshrustic.Topology.Renaming

/-!
# The time of a row (`mesh-routing/src/neighbor_graph.rs`)

A row is live while it is younger than `NEIGHBOR_TTL_MS`. Whoever writes one passes the
time of the event along, through pruning, demotion and transfer, and so every row that
a call writes is of that moment. One call does not: the retraction of a direct link
prunes at time 0, and whom it hands over is as old as the clock.

Results:
* `calls_stamp_rows`: the calls that write rows of their own time, and when;
* `retraction_stamps_zero`: a row that no lookup finds.
-/
namespace Meshrustic.Topology

open Meshrustic.Graph Meshrustic.Relay

/-! ## Rows of one time -/

/-- Every row of `ds'` is one of `ds` or was written at `nowMs`. -/
def Stamped (nowMs : UInt32) (ds ds' : DownstreamTable) : Prop :=
  ∀ row ∈ ds'.entries.rows, row ∈ ds.entries.rows ∨ row.lastUpdateMs = nowMs

namespace Stamped

variable {nowMs : UInt32} {ds ds' ds'' : DownstreamTable}

theorem refl (ds : DownstreamTable) : Stamped nowMs ds ds := fun _ h => .inl h

theorem trans (h : Stamped nowMs ds ds') (h' : Stamped nowMs ds' ds'') : Stamped nowMs ds ds'' := by
  intro row hrow
  rcases h' row hrow with hold | hnew
  · exact h row hold
  · exact .inr hnew

theorem upsertEntry {row : DownstreamRow} (hms : row.lastUpdateMs = nowMs) :
    Stamped nowMs ds (ds.upsertEntry row) := by
  unfold DownstreamTable.upsertEntry
  intro r hr
  split at hr
  · split at hr
    · exact .inl hr
    · rcases List.mem_or_eq_of_mem_set hr with hr | rfl
      · exact .inl hr
      · exact .inr hms
  · split at hr
    · rename_i entries hpush
      rw [show (⟨entries⟩ : DownstreamTable).entries.rows = entries.rows from rfl,
        Table.push_rows hpush] at hr
      rcases List.mem_append.mp hr with hr | hr
      · exact .inl hr
      · rw [List.mem_singleton.mp hr]
        exact .inr hms
    · rcases List.mem_or_eq_of_mem_set hr with hr | rfl
      · exact .inl hr
      · exact .inr hms

theorem swapOut (p : DownstreamRow → Bool) :
    Stamped nowMs ds ⟨ds.entries.swapOut p ds.entries.rows.length 0⟩ :=
  fun _ hr => .inl ((Table.mem_swapOut _).mp hr).1

theorem clearForRelay (relay : UInt32) : Stamped nowMs ds (ds.clearForRelay relay) := swapOut _

theorem clearForDestination (destination : UInt32) :
    Stamped nowMs ds (ds.clearForDestination destination) := swapOut _

theorem foldl {α : Type} {f : DownstreamTable → α → DownstreamTable}
    (h : ∀ ds x, Stamped nowMs ds (f ds x)) (xs : List α) (ds : DownstreamTable) :
    Stamped nowMs ds (xs.foldl f ds) := by
  induction xs generalizing ds with
  | nil => exact refl ds
  | cons x xs ih => exact (h ds x).trans (ih _)

theorem transferDownstream (oldRelay newRelay : UInt32) :
    Stamped nowMs ds (ds.transferDownstream oldRelay newRelay nowMs) := by
  unfold DownstreamTable.transferDownstream
  split
  · exact refl ds
  · refine trans (foldl (fun ds i => ?_) _ ds) (clearForRelay oldRelay)
    split
    · exact refl ds
    · split
      · exact refl ds
      · exact upsertEntry rfl

variable {Etx : Type} (F : F32 Etx)

theorem updateInner (myNode destination relay : UInt32) (totalCost : Etx) (direct : Bool)
    (viaRadio : UInt8) (listLearned : Bool) : Stamped nowMs ds
      (ds.updateInner F myNode destination relay totalCost nowMs direct viaRadio listLearned) := by
  unfold DownstreamTable.updateInner
  split
  · exact refl ds
  split
  · exact refl ds
  · exact upsertEntry rfl

end Stamped

/-! ## Handing over -/

namespace EdgeStore

section

variable {Etx : Type} (F : F32 Etx) {edges : EdgeStore} {me nowMs : UInt32} {ds : DownstreamTable}

theorem stamped_applyDemotion (d : PendingDemotion) :
    Stamped nowMs ds (edges.applyDemotion F me d nowMs ds).2 :=
  (Stamped.updateInner F _ _ _ _ _ _ _).trans (Stamped.transferDownstream _ _)

theorem stamped_flush : Stamped nowMs ds (edges.flushPendingDemotion F me nowMs ds).2 := by
  unfold flushPendingDemotion
  split
  · exact .refl ds
  · exact stamped_applyDemotion F _

theorem stamped_evict {edges' : EdgeStore} {ds' : Option DownstreamTable}
    (h : edges.evictForCapacity F nowMs me (some ds) = some (edges', ds')) :
    ∃ ds₁, ds' = some ds₁ ∧ Stamped nowMs ds ds₁ := by
  unfold evictForCapacity at h
  split at h
  · cases h
  split at h
  · cases h
  split at h
  · rename_i hds
    cases hds
    cases h
    exact ⟨_, rfl, stamped_applyDemotion F _⟩
  · rename_i hds
    cases hds
  · cases h
  · rename_i hds
    cases hds

theorem stamped_ensurePublisher (nodeId : UInt32) (cls : NodeClass) (parentHint : UInt32) :
    Stamped nowMs ds (edges.ensurePublisher F nodeId cls parentHint nowMs me ds).2.1 := by
  unfold ensurePublisher
  split
  · exact .refl ds
  split
  · exact .refl ds
  split
  · exact .refl ds
  · extract_lets room
    have hroom : ∀ r, room = some r → Stamped nowMs ds r.2 := by
      intro r hr
      simp only [room] at hr
      split at hr
      · cases hr
        exact .refl ds
      · split at hr
        · rename_i hevict
          cases hr
          obtain ⟨ds₁, hds, hstamped⟩ := stamped_evict F hevict
          cases hds
          exact hstamped
        · cases hr
    clear_value room
    cases room with
    | none => exact .refl ds
    | some r => exact hroom r rfl

/-- A victim is handed over now, or its rows are forgotten. -/
theorem stamped_dropVictim (st : EdgeStore × DownstreamTable × Bool) (victim : UInt32) :
    Stamped nowMs st.2.1 (dropVictim F me nowMs st victim).2.1 := by
  unfold dropVictim
  cases st.1.pickL1Parent victim me with
  | none => exact (Stamped.clearForRelay _).trans (Stamped.clearForDestination _)
  | some p => exact stamped_applyDemotion F _

theorem stamped_dropVictims (victims : List UInt32) (st : EdgeStore × DownstreamTable × Bool) :
    Stamped nowMs st.2.1 (victims.foldl (dropVictim F me nowMs) st).2.1 := by
  induction victims generalizing st with
  | nil => exact .refl _
  | cons v victims ih => exact (stamped_dropVictim F st v).trans (ih _)

theorem stamped_prune : Stamped nowMs ds (edges.pruneUnreachableFromRoot F me nowMs ds).2.1 := by
  unfold pruneUnreachableFromRoot
  split
  · exact .refl ds
  · exact stamped_dropVictims F _ (edges, ds, false)

theorem stamped_ageEdges (ttlMs : UInt32) :
    Stamped nowMs ds (edges.ageEdges F me nowMs ttlMs ds).2.1 := by
  unfold ageEdges
  dsimp only
  split
  · exact (stamped_dropVictims F _ (_, ds, _)).trans (stamped_prune F)
  · exact stamped_dropVictims F _ (_, ds, _)

end

/-! ## Victims whom nobody takes over -/

section

variable {edges : EdgeStore} {me nodeId victim : UInt32}

/-- The parent that a node was given, 0 for none. -/
def parentHint (edges : EdgeStore) (nodeId : UInt32) : UInt32 :=
  ((edges.findNode nodeId).map (·.parentHint)).getD 0

/-- A measured neighbour of ours takes the node over: it lists the node, or the node lists it
and is heard by it, or it is the parent. -/
def takesOver (edges : EdgeStore) (l1 victim : UInt32) : Bool :=
  (edges.edge l1 victim).isSome || ((edges.edge victim l1).any fun e => e.hearsUs) ||
    edges.parentHint victim == l1

/-- Nobody takes a node over whose parent is no neighbour of ours, and whom no measured
neighbour of ours knows. -/
theorem pickL1Parent_none_iff :
    edges.pickL1Parent victim me = none ↔
      (edges.parentHint victim ≠ 0 → edges.isOurDirectNeighbor (edges.parentHint victim) me = false) ∧
        ∀ l1 ∈ edges.reportedTo me, edges.takesOver l1.toNode victim = false := by
  unfold pickL1Parent
  extract_lets hint
  have hhint : hint = edges.parentHint victim := by
    simp only [hint]
    unfold parentHint
    cases edges.findNode victim <;> rfl
  clear_value hint
  subst hhint
  split
  · rename_i hdirect
    simp only [Bool.and_eq_true, bne_iff_ne] at hdirect
    have hno : ¬ (edges.parentHint victim ≠ 0 →
        edges.isOurDirectNeighbor (edges.parentHint victim) me = false) := by
      intro hno
      rw [hno hdirect.1] at hdirect
      cases hdirect.2
    -- the parent is taken, at the price of the link to it or at the price of an unknown one
    cases edges.edge me (edges.parentHint victim) with
    | none => exact ⟨nofun, fun h => absurd h.1 hno⟩
    | some e => exact ⟨nofun, fun h => absurd h.1 hno⟩
  · rename_i hdirect
    simp only [Bool.and_eq_true, bne_iff_ne, not_and, Bool.not_eq_true] at hdirect
    rw [and_iff_right hdirect]
    constructor
    · intro h
      refine (scan_none (P := fun l1 : Edge => edges.takesOver l1.toNode victim = false)
        (fun best l1 _ hnone => ?_) h).2
      unfold takesOver
      dsimp only at hnone
      split at hnone
      · rename_i hskip
        refine ⟨hnone, ?_⟩
        simp only [Bool.and_eq_true, Bool.not_eq_true', bne_iff_ne] at hskip
        simp [hskip.1.1, hskip.1.2, hskip.2]
      · split at hnone
        · cases hnone
        · rename_i hbest
          subst hnone
          exact absurd rfl hbest
    · intro h
      refine scan_skips fun best l1 hl1 => ?_
      have hno := h l1 hl1
      unfold takesOver at hno
      simp only [Bool.or_eq_false_iff, beq_eq_false_iff_ne] at hno
      rw [if_pos (by simp [hno.1.1, hno.1.2, hno.2])]

theorem mem_reportedTo {e : Edge} :
    e ∈ edges.reportedTo me ↔ edges.edge me e.toNode = some e ∧ e.toNode ≠ 0 ∧ e.source = .reported := by
  unfold reportedTo edge
  cases edges.findNode me with
  | none => simp
  | some n =>
    rw [Option.bind_some, NodeEdges.findEdge_eq_some_iff, and_iff_left rfl]
    simp [List.mem_filter]

/-- Removing a node brings nobody to take the victim over. -/
theorem pickL1Parent_removeNode (h : edges.pickL1Parent victim me = none) :
    (edges.removeNode nodeId).1.pickL1Parent victim me = none := by
  obtain ⟨hdirect, hl1⟩ := pickL1Parent_none_iff.mp h
  have hless : ∀ a b e, (edges.removeNode nodeId).1.edge a b = some e → edges.edge a b = some e :=
    loses_removeNode nodeId
  have hlessSome : ∀ a b, edges.edge a b = none → (edges.removeNode nodeId).1.edge a b = none := by
    intro a b hnone
    refine Option.eq_none_iff_forall_ne_some.mpr fun e he => ?_
    rw [hless a b e he] at hnone
    cases hnone
  have hhint : (edges.removeNode nodeId).1.parentHint victim = edges.parentHint victim ∨
      (edges.removeNode nodeId).1.parentHint victim = 0 := by
    unfold parentHint
    by_cases h0 : nodeId = 0
    · subst h0
      exact .inl rfl
    · rw [findNode_removeNode h0]
      split
      · exact .inr rfl
      · rw [Option.map_map]
        exact .inl rfl
  refine pickL1Parent_none_iff.mpr ⟨fun hne => ?_, fun l1 hmem => ?_⟩
  · rcases hhint with hhint | hhint
    · rw [hhint] at hne ⊢
      have hnone := hdirect hne
      unfold isOurDirectNeighbor at hnone ⊢
      rw [hlessSome _ _ (by simpa using hnone)]
      rfl
    · exact absurd hhint hne
  · obtain ⟨hedge, hne, hsource⟩ := mem_reportedTo.mp hmem
    have hno := hl1 l1 (mem_reportedTo.mpr ⟨hless _ _ _ hedge, hne, hsource⟩)
    unfold takesOver at hno ⊢
    simp only [Bool.or_eq_false_iff, beq_eq_false_iff_ne, Option.isSome_eq_false_iff,
      Option.isNone_iff_eq_none] at hno ⊢
    obtain ⟨⟨hlists, hlisted⟩, hparent⟩ := hno
    refine ⟨⟨hlessSome _ _ hlists, ?_⟩, ?_⟩
    · rw [Option.any_eq_false] at hlisted ⊢
      exact fun e he => hlisted e (hless _ _ _ he)
    · rcases hhint with hhint | hhint
      · rw [hhint]
        exact hparent
      · rw [hhint]
        exact Ne.symm hne

/-- The nodes that no chain of edges joins to us. -/
def unreachable (edges : EdgeStore) (me : UInt32) : List UInt32 :=
  (edges.nodes.rows.map (·.nodeId)).filter fun id =>
    !(edges.reachableFrom edges.nodes.rows.length ([me], [me])).contains id && id != me

variable {Etx : Type} (F : F32 Etx) {nowMs : UInt32} {ds : DownstreamTable}

/-- Rows are only removed if nobody takes a victim over. -/
theorem forget_dropVictims (pruneMs : UInt32) {victims : List UInt32}
    {st : EdgeStore × DownstreamTable × Bool} (h : ∀ v ∈ victims, st.1.pickL1Parent v me = none) :
    Stamped nowMs st.2.1 (victims.foldl (dropVictim F me pruneMs) st).2.1 := by
  induction victims generalizing st with
  | nil => exact .refl _
  | cons v victims ih =>
    rw [List.foldl_cons]
    have hdrop : dropVictim F me pruneMs st v = ((st.1.removeNode v).1,
        (st.2.1.clearForRelay v).clearForDestination v, (st.1.removeNode v).2 || st.2.2) := by
      unfold dropVictim
      rw [h v List.mem_cons_self]
    have hforget : Stamped nowMs st.2.1 (dropVictim F me pruneMs st v).2.1 := by
      rw [hdrop]
      exact (Stamped.clearForRelay _).trans (Stamped.clearForDestination _)
    refine hforget.trans (ih fun w hw => ?_)
    rw [hdrop]
    exact pickL1Parent_removeNode (h w (List.mem_cons_of_mem _ hw))

theorem forget_prune (pruneMs : UInt32) (h : ∀ v ∈ edges.unreachable me, edges.pickL1Parent v me = none) :
    Stamped nowMs ds (edges.pruneUnreachableFromRoot F me pruneMs ds).2.1 := by
  unfold pruneUnreachableFromRoot
  split
  · exact .refl ds
  · exact @forget_dropVictims me _ F nowMs pruneMs _ (edges, ds, false) h

end

end EdgeStore

/-! ## Calls -/

namespace NeighborGraph

section

variable {Etx : Type} (F : F32 Etx) (g : NeighborGraph)

/-- Retracting the direct link cuts a node off that somebody takes over. -/
def retractionDemotes (neighbor : UInt32) : Bool :=
  let edges := ((g.edges.removeEdge g.myNode neighbor).1.removeEdge neighbor g.myNode).1
  (edges.unreachable g.myNode).any fun v => (edges.pickL1Parent v g.myNode).isSome

/-- The packet is direct or does not count, its sender was no neighbour of ours or has been heard
directly, or the retraction demotes nobody; or the clock stands at 0. -/
def Punctual (p : Observation) : Prop :=
  p.nowMs = 0 ∨ Routing.isDirectPacket p.fromNode p.hopStart p.hopLimit p.relayNode = true ∨
    g.observedGateway p = none ∨ g.travelling p = false ∨ g.retractionDemotes p.fromNode = false

variable {g} {nowMs : UInt32}

theorem downstream_refresh {nodeId : UInt32} {rssi : Int16} {snr : Int8} {heardOn : UInt8} :
    (g.refreshReportedDirectNeighbor F nodeId rssi snr nowMs heardOn).1.downstream = g.downstream := by
  have hsilence : ∀ g : NeighborGraph, (g.noteSilence F nodeId nowMs).downstream = g.downstream := by
    intro g
    unfold noteSilence
    extract_lets prevHeard gap silence
    split <;> rfl
  have hsignal : ∀ g : NeighborGraph,
      (g.upsertDirectSignal nodeId rssi snr nowMs).downstream = g.downstream := by
    intro g
    unfold upsertDirectSignal
    dsimp only
    split
    · rfl
    · split
      · rfl
      · split <;> rfl
  unfold refreshReportedDirectNeighbor
  dsimp only
  rw [hsignal]
  exact hsilence (g.withLocalNode F nowMs)

theorem stamped_observeDirect (nodeId : UInt32) (rssi : Int16) (snr : Int8) (heardOn : UInt8) :
    Stamped nowMs g.downstream
      (g.observeDirectNeighbor F nodeId rssi snr nowMs heardOn).1.downstream := by
  unfold observeDirectNeighbor
  split
  · exact .refl _
  split
  · exact .refl _
  · dsimp only
    have hrefreshed := @downstream_refresh _ F g nowMs nodeId
    split
    · dsimp only
      rw [hrefreshed]
      exact .clearForDestination nodeId
    · rw [hrefreshed]
      exact .clearForDestination nodeId

theorem stamped_hearRelay (gateway : UInt32) (rssi : Int16) (snr : Int8) (p : Observation)
    (travelling : Bool) :
    Stamped p.nowMs g.downstream (g.hearRelay F gateway rssi snr p travelling).1.downstream := by
  have hsignal : Stamped p.nowMs g.downstream
      (g.observeRelayGatewaySignal F gateway rssi snr p.nowMs p.heardOn).1.downstream := by
    unfold observeRelayGatewaySignal
    split
    · exact .refl _
    · have hrefreshed := @downstream_refresh _ F g p.nowMs gateway rssi snr p.heardOn
      dsimp only
      split
      · dsimp only
        rw [hrefreshed]
        exact .clearForDestination gateway
      · rw [hrefreshed]
        exact .refl _
  have hclear : ∀ (g : NeighborGraph) change, (g.clearOn change).downstream = g.downstream := by
    intro g change
    unfold clearOn
    split <;> rfl
  have hinfer : ∀ g : NeighborGraph, (g.inferRelayEdge F gateway p).downstream = g.downstream := by
    intro g
    unfold inferRelayEdge
    dsimp only
    split
    · exact hclear _ _
    · rfl
  have hmirror : ∀ g : NeighborGraph, (g.mirrorRelayEdge F gateway rssi snr p).downstream =
      g.downstream := fun g => hclear _ _
  have hconfirm : ∀ g : NeighborGraph,
      (g.maybeConfirmHearsUsFromRelay gateway p.fromNode p.committed).1.downstream = g.downstream := by
    intro g
    unfold maybeConfirmHearsUsFromRelay confirmDirectNeighborHearsUs
    repeat' split
    all_goals rfl
  have hserved : ∀ (g : NeighborGraph) publishes, Stamped p.nowMs g.downstream
      (g.inferDownstream F gateway p travelling publishes).downstream := by
    intro g publishes
    unfold inferDownstream
    dsimp only
    split
    · split
      · exact (Stamped.clearForDestination _).trans (Stamped.updateInner F _ _ _ _ _ _ _)
      · split
        · split
          · exact .refl _
          · exact .updateInner F _ _ _ _ _ _ _
        · exact .refl _
    · exact .refl _
  unfold hearRelay
  dsimp only
  refine hsignal.trans ?_
  refine Stamped.trans ?_ (hserved _ _)
  rw [hconfirm, hmirror, hinfer]
  exact .refl _

/-- The retraction prunes at time 0, which shows only where it demotes somebody. -/
theorem stamped_retractTravelling {p : Observation}
    (h : p.nowMs = 0 ∨ g.travelling p = false ∨ g.retractionDemotes p.fromNode = false) :
    Stamped p.nowMs g.downstream (g.retractTravelling F p).downstream := by
  unfold retractTravelling
  split
  · rename_i htravelling
    have hretract : Stamped p.nowMs g.downstream
        (g.retractDirectLinkInner F p.fromNode true).1.downstream := by
      unfold retractDirectLinkInner
      split
      · exact .refl _
      · dsimp only
        split
        · dsimp only
          rcases h with h0 | hstays | hnobody
          · rw [h0]
            exact EdgeStore.stamped_prune F
          · rw [htravelling] at hstays
            cases hstays
          · refine EdgeStore.forget_prune F 0 fun v hv => ?_
            unfold retractionDemotes at hnobody
            simpa using List.any_eq_false.mp hnobody v hv
        · exact .refl _
    dsimp only
    split
    · exact hretract
    · exact hretract
  · exact .refl _

theorem stamped_observePacket {p : Observation} (h : g.Punctual p) :
    Stamped p.nowMs g.downstream (g.observePacket F p).1.downstream := by
  unfold observePacket
  split
  · exact stamped_observeDirect F _ _ _ _
  · rename_i hrelayed
    unfold observeRelayedPacket
    cases hobserved : g.observedGateway p with
    | none => exact .refl _
    | some r =>
      obtain ⟨gateway, rssi, snr⟩ := r
      have hretract : p.nowMs = 0 ∨ g.travelling p = false ∨ g.retractionDemotes p.fromNode = false := by
        rcases h with h | h | h | h
        · exact .inl h
        · exact absurd h hrelayed
        · rw [hobserved] at h
          cases h
        · exact .inr h
      have hheard := @stamped_hearRelay _ F ((g.retractTravelling F p).withLocalNode F p.nowMs) gateway rssi
        snr p (g.travelling p)
      dsimp only
      exact (stamped_retractTravelling F hretract).trans hheard

/-! ### Lists -/

theorem stamped_tryAdmit (sender listed : UInt32) (direct : Bool) :
    Stamped nowMs g.downstream (g.tryAdmitListedPublisher F sender listed direct nowMs).1.downstream := by
  unfold tryAdmitListedPublisher
  split
  · exact .refl _
  split
  · exact .refl _
  dsimp only
  split
  · exact .refl _
  · split
    · exact .refl _
    · exact EdgeStore.stamped_ensurePublisher F _ _ _

theorem stamped_mergeNeighbor (c : Call) (direct : Bool) (n : PackedNeighbor) :
    Stamped c.nowMs g.downstream (g.mergeNeighbor F c direct n).downstream := by
  have hskip : ∀ (g : NeighborGraph) a b, (g.recordMergeAsymmetricSkip a b).downstream = g.downstream := by
    intro g a b
    unfold recordMergeAsymmetricSkip
    split <;> rfl
  unfold mergeNeighbor
  split
  · exact .refl _
  split
  · exact .refl _
  extract_lets etx relayHasEdge mirrored
  have hsame : mirrored.downstream = g.downstream := rfl
  clear_value mirrored
  rw [← hsame]
  split
  · split
    · exact .clearForDestination _
    · exact .refl _
  split
  · have hadmitted := @stamped_tryAdmit _ F mirrored c.nowMs c.sender n.nodeId direct
    dsimp only
    split
    · exact hadmitted.trans (.clearForDestination _)
    · exact hadmitted.trans (.updateInner F _ _ _ _ _ _ _)
  · split
    · rw [hskip]
      exact .refl _
    · exact .refl _

theorem stamped_mergeListed (c : Call) :
    Stamped c.nowMs g.downstream (g.mergeListed F c).downstream := by
  have hneighbors : ∀ (ns : List PackedNeighbor) (direct : Bool) (g : NeighborGraph),
      Stamped c.nowMs g.downstream (ns.foldl (fun g n => g.mergeNeighbor F c direct n) g).downstream := by
    intro ns direct
    induction ns with
    | nil => exact fun g => .refl _
    | cons n ns ih => exact fun g => (stamped_mergeNeighbor F c direct n).trans (ih _)
  have hsender : Stamped c.nowMs g.downstream (g.admitSender F c).downstream := by
    unfold admitSender
    extract_lets namesL1 namesL2 found cls
    split
    · split
      · exact EdgeStore.stamped_ensurePublisher F _ _ _
      · exact .refl _
    · exact .refl _
  unfold mergeListed
  dsimp only
  refine Stamped.trans ?_ (EdgeStore.stamped_flush F)
  refine Stamped.trans ?_ (hneighbors _ _ _)
  split
  · exact .refl _
  · exact hsender

theorem stamped_completeList (c : Call) :
    Stamped c.nowMs g.downstream (g.completeList F c).downstream := by
  unfold completeList
  dsimp only
  split
  · exact .refl _
  split
  · exact .refl _
  · unfold sweepUnlisted
    dsimp only
    split
    · exact .refl _
    · exact EdgeStore.stamped_prune F

theorem stamped_mergeTopology (c : Call) :
    Stamped c.nowMs g.downstream (g.mergeTopology F c).1.downstream := by
  unfold mergeTopology
  split
  · exact .refl _
  split
  · exact .refl _
  split
  · exact .refl _
  dsimp only
  split
  · exact .refl _
  · exact (@stamped_mergeListed _ F (g.noteAccepted F c) c).trans (stamped_completeList F c)

/-! ### Maintenance -/

theorem stamped_runMaintenance : Stamped nowMs g.downstream (g.runMaintenance F nowMs).downstream := by
  have hretract : ∀ (g : NeighborGraph) a,
      (g.retractDirectLinkInner F a false).1.downstream = g.downstream := by
    intro g a
    unfold retractDirectLinkInner
    split
    · rfl
    · dsimp only
      split <;> rfl
  have hpublishers : ∀ g : NeighborGraph,
      Stamped nowMs g.downstream (g.pruneSilentPublishers F nowMs).1.downstream := by
    intro g
    unfold pruneSilentPublishers
    dsimp only
    generalize g.silentPublishers nowMs = gone
    induction gone generalizing g with
    | nil => exact .refl _
    | cons a gone ih =>
      rw [List.foldl_cons]
      refine Stamped.trans ?_ (ih _)
      dsimp only
      rw [hretract]
      exact .clearForDestination a
  have haged := @EdgeStore.stamped_ageEdges _ F (g.withLocalNode F nowMs).edges g.myNode nowMs
    g.downstream NEIGHBOR_TTL_MS
  unfold runMaintenance
  refine haged.trans ?_
  unfold forgetSilent
  dsimp only
  have hpruned := hpublishers { g.withLocalNode F nowMs with
    edges := ((g.withLocalNode F nowMs).edges.ageEdges F g.myNode nowMs NEIGHBOR_TTL_MS g.downstream).1
    downstream :=
      ((g.withLocalNode F nowMs).edges.ageEdges F g.myNode nowMs NEIGHBOR_TTL_MS g.downstream).2.1 }
  split
  · exact hpruned.trans (.swapOut _)
  · exact hpruned.trans (.swapOut _)

/-! ### All calls -/

theorem stamped_resolvePlaceholder (p r : UInt32) :
    Stamped nowMs g.downstream (g.resolvePlaceholder F p r nowMs).1.downstream := by
  by_cases h : g.resolves p r = true
  · rw [(resolvePlaceholder_eq h).2]
    exact (Stamped.transferDownstream p r).trans (.clearForDestination p)
  · unfold resolvePlaceholder
    rw [if_pos (by simpa using h)]
    exact .refl _

end

/-- The rows that a list, maintenance or the resolution of a placeholder writes are of its own
time. Those that a packet writes are, if no direct link is retracted in a way that hands
somebody over. Rows of its own time are live for it. -/
theorem calls_stamp_rows {Etx : Type} (F : F32 Etx) (g : NeighborGraph) :
    (∀ p : Observation, g.Punctual p →
        Stamped p.nowMs g.downstream (g.observePacket F p).1.downstream) ∧
      (∀ c : Call, Stamped c.nowMs g.downstream (g.mergeTopology F c).1.downstream) ∧
      (∀ nowMs, Stamped nowMs g.downstream (g.runMaintenance F nowMs).downstream) ∧
      (∀ p r nowMs, Stamped nowMs g.downstream (g.resolvePlaceholder F p r nowMs).1.downstream) ∧
      ∀ nowMs ds', Stamped nowMs g.downstream ds' → ∀ row ∈ ds'.entries.rows,
        row ∉ g.downstream.entries.rows →
          ds'.isRelayFor row.relay row.destination nowMs NEIGHBOR_TTL_MS = true := by
  refine ⟨fun p => stamped_observePacket F, stamped_mergeTopology F, fun nowMs => stamped_runMaintenance F,
    fun p r nowMs => stamped_resolvePlaceholder F p r, fun nowMs ds' hstamped row hrow hnew => ?_⟩
  have hms := (hstamped row hrow).resolve_left hnew
  refine isRelayFor_iff.mpr ⟨row, hrow, rfl, rfl, ?_⟩
  rw [hms, UInt32.sub_self]
  decide

/-! ### A relay that takes over -/

/-- Node 1 measures nodes 2 and 3; node 4 and node 2 list each other, and 3 is its parent. -/
def parentThree : NeighborGraph :=
  let edges := (EdgeStore.empty.updateEdge hundredths 1 1 2 100 1000 .reported true 0).1
  let edges := (edges.updateEdge hundredths 1 1 3 100 1000 .reported true 0).1
  let edges := (edges.updateEdge hundredths 1 2 4 120 1000 .mirrored true 0).1
  let edges := (edges.updateEdge hundredths 1 4 2 120 1000 .mirrored true 0).1
  { NeighborGraph.new 1 with edges := edges.setNodeClass 4 .l2 3 }

/-- A frame of node 2 that came through node 3. -/
def heardThroughThree (nowMs : UInt32) (heardDirect : Bool) : Observation where
  fromNode := 2
  hopStart := 3
  hopLimit := 2
  relayNode := 3
  rssi := -60
  snr := 10
  nowMs := nowMs
  heardOn := 0
  knownRelay := some 3
  ourTransmission := false
  heardDirect := heardDirect
  committed := false

/-- Heard directly as well, node 2 stays where it is. -/
theorem calls_stamp_rows_sample :
    Stamped 100000000 parentThree.downstream
      (parentThree.observePacket hundredths (heardThroughThree 100000000 true)).1.downstream :=
  (calls_stamp_rows hundredths parentThree).1 (heardThroughThree 100000000 true)
    (.inr (.inr (.inr (.inl (by decide +kernel)))))

/-- Node 2 has moved away, and node 4 is handed to node 3 at time 0: no lookup finds it. -/
theorem retraction_stamps_zero :
    let ds' := (parentThree.observePacket hundredths (heardThroughThree 100000000 false)).1.downstream
    ds'.entries.rows.map (fun r => (r.destination, r.relay, r.lastUpdateMs)) = [(4, 3, 0)] ∧
      ds'.getRelay 4 100000000 NEIGHBOR_TTL_MS = none ∧
      ¬Stamped 100000000 parentThree.downstream ds' := by
  intro ds'
  have hrows : ds'.entries.rows.map (fun r => (r.destination, r.relay, r.lastUpdateMs)) = [(4, 3, 0)] := by
    decide +kernel
  refine ⟨hrows, by decide +kernel, fun hstamped => ?_⟩
  have hmem : (4, 3, 0) ∈ ds'.entries.rows.map fun r => (r.destination, r.relay, r.lastUpdateMs) := by
    rw [hrows]
    exact List.mem_cons_self
  obtain ⟨row, hrow, heq⟩ := List.mem_map.mp hmem
  have hms : row.lastUpdateMs = 0 := (Prod.mk.inj (Prod.mk.inj heq).2).2
  rcases hstamped row hrow with hold | hnow
  · cases hold
  · rw [hms] at hnow
    exact absurd hnow (by decide)

end NeighborGraph

end Meshrustic.Topology
