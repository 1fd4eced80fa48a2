import Meshrustic.Relay.Plan

/-!
# Ranking and cancelling on the same coverage

The ranking gives us a turn when we would newly cover somebody; the cancel
path drops a planned relay when nobody is left whom only we serve. Both read
the same graph, each with its own loop.

Results:
* `planBroadcastRelay_ranked_iff`: without transmissions on record beside the
  source's and the one heard, we are ranked exactly when some neighbour on
  our list is a `RankTarget`.
* `ranked_unique_coverage_iff`: then `has_unique_coverage([heard_from])` holds
  exactly when the two loops agree on some neighbour (`Agreement`).
* `unconfirmed_target_is_cancelled`: they need not.
-/
namespace Meshrustic.Relay

open Meshrustic.Graph

variable {ctx : BroadcastRelayContext} {r : PlanRequest}

/-- Nothing is on record but the source's own transmission and the one we
heard; our own never is when a relay is planned. -/
def Quiet (ctx : BroadcastRelayContext) (r : PlanRequest) : Prop :=
  ∀ n, r.hasTransmitted n = true → n ≠ ctx.myNode ∧ (n = r.source ∨ n = r.heardFrom)

/-! ## Choosing -/

/-- A candidate that may be chosen: it has not transmitted and adds coverage. -/
def Usable (ctx : BroadcastRelayContext) (r : PlanRequest) (covered : NodeSet MAX_COVERED)
    (n : UInt32) : Prop :=
  r.hasTransmitted n = false ∧ uniqueTargets ctx covered n r.nowMs ≠ []

theorem priceCandidate_cases (covered : NodeSet MAX_COVERED) (source nowMs c : UInt32) :
    (priceCandidate ctx covered source nowMs c = none ∧ uniqueTargets ctx covered c nowMs = []) ∨
      ∃ p, priceCandidate ctx covered source nowMs c = some p ∧ p.nodeId = c ∧
        uniqueTargets ctx covered c nowMs ≠ [] := by
  unfold priceCandidate
  cases hu : uniqueTargets ctx covered c nowMs with
  | nil => exact .inl ⟨rfl, rfl⟩
  | cons first rest => exact .inr ⟨_, rfl, rfl, List.cons_ne_nil _ _⟩

theorem considerCandidate_cases (covered : NodeSet MAX_COVERED) (best : RelayCandidate)
    (c : UInt32) :
    considerCandidate ctx r covered best c = best ∧ (Usable ctx r covered c → best.nodeId ≠ 0) ∨
      (considerCandidate ctx r covered best c).nodeId = c ∧ Usable ctx r covered c := by
  unfold considerCandidate
  by_cases ht : r.hasTransmitted c = true
  · rw [if_pos ht]
    refine .inl ⟨rfl, fun hu => ?_⟩
    rw [hu.1] at ht
    cases ht
  · rw [if_neg ht]
    rw [Bool.not_eq_true] at ht
    rcases @priceCandidate_cases ctx covered r.source r.nowMs c with
      ⟨hp, hu⟩ | ⟨p, hp, hid, hu⟩
    · simp only [hp]
      exact .inl ⟨trivial, fun h => absurd hu h.2⟩
    · rw [hp]
      by_cases hb : isBetter r.preferHigh p best = true
      · simp only [if_pos hb]
        exact .inr ⟨hid, ht, hu⟩
      · simp only [if_neg hb]
        refine .inl ⟨trivial, fun _ h0 => hb ?_⟩
        simp [isBetter, h0]

/-- The scan returns what it came with or somebody usable; it comes back with
somebody if anybody on the list is. -/
theorem scan_cases (covered : NodeSet MAX_COVERED) (rows : List UInt32) (best : RelayCandidate) :
    (rows.foldl (considerCandidate ctx r covered) best = best ∧
        ((∃ c ∈ rows, Usable ctx r covered c) → best.nodeId ≠ 0)) ∨
      ((rows.foldl (considerCandidate ctx r covered) best).nodeId ∈ rows ∧
        Usable ctx r covered (rows.foldl (considerCandidate ctx r covered) best).nodeId) := by
  induction rows generalizing best with
  | nil =>
    refine .inl ⟨rfl, ?_⟩
    rintro ⟨c, hc, -⟩
    exact absurd hc List.not_mem_nil
  | cons c rows ih =>
    rw [List.foldl_cons]
    rcases ih (considerCandidate ctx r covered best c) with ⟨heq, hnone⟩ | ⟨hmem, husable⟩
    · rw [heq]
      rcases considerCandidate_cases covered best c with ⟨hkeep, hc⟩ | ⟨hid, husable⟩
      · rw [hkeep] at hnone ⊢
        refine .inl ⟨rfl, ?_⟩
        rintro ⟨d, hd, hu⟩
        rcases List.mem_cons.mp hd with rfl | hd
        · exact hc hu
        · exact hnone ⟨d, hd, hu⟩
      · rw [hid]
        exact .inr ⟨List.mem_cons_self, husable⟩
    · exact .inr ⟨List.mem_cons_of_mem _ hmem, husable⟩

/-- Somebody is chosen exactly when somebody in the pool is usable. -/
theorem findBest_cases (pool : NodeSet MAX_CANDIDATES) (covered : NodeSet MAX_COVERED) :
    ((findBestRelayCandidate ctx r pool covered).nodeId = 0 ∧
        ∀ c ∈ pool, ¬ Usable ctx r covered c) ∨
      ((findBestRelayCandidate ctx r pool covered).nodeId ≠ 0 ∧
        (findBestRelayCandidate ctx r pool covered).nodeId ∈ pool ∧
        Usable ctx r covered (findBestRelayCandidate ctx r pool covered).nodeId) := by
  unfold findBestRelayCandidate
  rcases scan_cases covered pool.ids.rows {} with ⟨heq, hnone⟩ | ⟨hmem, husable⟩
  · rw [heq]
    refine .inl ⟨rfl, ?_⟩
    intro c hc hu
    exact hnone ⟨c, hc, hu⟩ rfl
  · exact .inr ⟨pool.nonzero _ hmem, hmem, husable⟩

/-! ## Ranking -/

/-- The planner has not decided yet. -/
def Open (st : PlanState) : Prop := st.shouldRelay = false ∧ st.reason = .none

/-- It is our turn. -/
def Ours (st : PlanState) : Prop := st.shouldRelay = true ∧ st.reason = .ranked

/-- Ranking a pool gives us a turn exactly when we are in it and usable;
otherwise the question stays open, over the same coverage. -/
theorem rankPool_cases (early : Bool) {fuel : Nat} {st : PlanState} {pool : NodeSet MAX_CANDIDATES}
    (hfuel : pool.length ≤ fuel) (hopen : Open st) :
    (ctx.myNode ∈ pool ∧ Usable ctx r st.covered ctx.myNode ∧
        Ours (rankPool ctx r early fuel st pool)) ∨
      (¬ (ctx.myNode ∈ pool ∧ Usable ctx r st.covered ctx.myNode) ∧
        Open (rankPool ctx r early fuel st pool) ∧
        (rankPool ctx r early fuel st pool).covered = st.covered) := by
  induction fuel generalizing st pool with
  | zero =>
    right
    refine ⟨?_, hopen, rfl⟩
    rintro ⟨hmem, -⟩
    have : 0 < pool.length := List.length_pos_of_mem hmem
    omega
  | succ fuel ih =>
    rw [rankPool]
    by_cases hempty : pool.length = 0
    · rw [if_pos (by simpa using hempty)]
      right
      refine ⟨?_, hopen, rfl⟩
      rintro ⟨hmem, -⟩
      have : 0 < pool.length := List.length_pos_of_mem hmem
      omega
    · rw [if_neg (by simpa using hempty)]
      rcases @findBest_cases ctx r pool st.covered with
        ⟨hzero, hnone⟩ | ⟨hne, hmem, husable⟩
      · rw [if_pos (by simpa using hzero)]
        right
        refine ⟨?_, hopen, rfl⟩
        rintro ⟨hmem, hu⟩
        exact hnone _ hmem hu
      · rw [if_neg (by simpa using hne), if_neg (by rw [husable.1]; exact Bool.false_ne_true)]
        have hlen := NodeSet.length_erase hmem
        by_cases hmine : (findBestRelayCandidate ctx r pool st.covered).nodeId = ctx.myNode
        · rw [if_pos (by simpa using hmine)]
          rw [hmine] at hmem husable
          exact .inl ⟨hmem, husable, rfl, rfl⟩
        · rw [if_neg (by simpa using hmine)]
          -- the pool without the chosen one holds us exactly when this one does
          have hpool : ctx.myNode ∈ pool.erase (findBestRelayCandidate ctx r pool st.covered).nodeId ↔
              ctx.myNode ∈ pool := by
            rw [NodeSet.mem_erase]
            exact ⟨And.right, fun h => ⟨Ne.symm hmine, h⟩⟩
          have hnext : ∀ st' : PlanState, st'.covered = st.covered → Open st' →
              (ctx.myNode ∈ pool ∧ Usable ctx r st.covered ctx.myNode ∧
                  Ours (rankPool ctx r early fuel st'
                    (pool.erase (findBestRelayCandidate ctx r pool st.covered).nodeId))) ∨
                (¬ (ctx.myNode ∈ pool ∧ Usable ctx r st.covered ctx.myNode) ∧
                  Open (rankPool ctx r early fuel st'
                    (pool.erase (findBestRelayCandidate ctx r pool st.covered).nodeId)) ∧
                  (rankPool ctx r early fuel st'
                    (pool.erase (findBestRelayCandidate ctx r pool st.covered).nodeId)).covered =
                    st.covered) := by
            intro st' hcov hopen'
            have hih := @ih st'
              (pool.erase (findBestRelayCandidate ctx r pool st.covered).nodeId) (by omega) hopen'
            rw [hcov, hpool] at hih
            exact hih
          exact hnext _ rfl hopen

/-- The two pools hold every candidate. -/
theorem splitLate_mem {x : UInt32} {fuel i : Nat} {candidates late : NodeSet MAX_CANDIDATES}
    (hroom : candidates.length + late.length ≤ MAX_CANDIDATES)
    (h : x ∈ candidates ∨ x ∈ late) :
    x ∈ (splitLate ctx fuel i candidates late).1 ∨ x ∈ (splitLate ctx fuel i candidates late).2 := by
  induction fuel generalizing i candidates late with
  | zero => exact h
  | succ fuel ih =>
    rw [splitLate]
    cases hid : candidates.ids.rows[i]? with
    | none => exact h
    | some id =>
      have hmem : id ∈ candidates := List.mem_of_getElem? hid
      dsimp only
      by_cases hearly : mayTakeEarlyWindow ctx id = true
      · rw [if_pos hearly]
        exact ih hroom h
      · rw [if_neg hearly]
        have hlen := NodeSet.length_erase hmem
        have hlate := NodeSet.length_insert_le late id
        refine ih (by omega) ?_
        rcases h with hx | hx
        · by_cases hxid : x = id
          · subst hxid
            exact .inr ((NodeSet.mem_insert (by omega)).mpr
              (.inr ⟨rfl, candidates.nonzero x hmem⟩))
          · exact .inl (NodeSet.mem_erase.mpr ⟨hxid, hx⟩)
        · exact .inr (NodeSet.mem_insert_of_mem hx)

/-- The ranking gives us a turn exactly when we are usable. -/
theorem rank_cases {st : PlanState} (hopen : Open st)
    (hmem : Usable ctx r st.covered ctx.myNode → ctx.myNode ∈ st.candidates) :
    (Usable ctx r st.covered ctx.myNode ∧ Ours (rank ctx r st)) ∨
      (¬ Usable ctx r st.covered ctx.myNode ∧ Open (rank ctx r st)) := by
  unfold rank
  have hsize : st.candidates.length + (NodeSet.new : NodeSet MAX_CANDIDATES).length ≤
      MAX_CANDIDATES := st.candidates.ids.le
  have hpools := fun h => @splitLate_mem ctx ctx.myNode st.candidates.length 0 st.candidates .new
    hsize (.inl (hmem h))
  generalize splitLate ctx st.candidates.length 0 st.candidates .new = pools at hpools
  dsimp only
  rcases @rankPool_cases ctx r true pools.1.length st pools.1 (Nat.le_refl _) hopen with
    ⟨-, husable, hours⟩ | ⟨hnot, hopen', hcov⟩
  · rw [if_pos hours.1]
    exact .inl ⟨husable, hours⟩
  · rw [if_neg (by rw [hopen'.1]; exact Bool.false_ne_true)]
    rcases @rankPool_cases ctx r false pools.2.length _ pools.2 (Nat.le_refl _) hopen' with
      ⟨-, husable, hours⟩ | ⟨hnot', hopen'', -⟩
    · rw [hcov] at husable
      exact .inl ⟨husable, hours⟩
    · refine .inr ⟨fun husable => ?_, hopen''⟩
      rcases hpools husable with hmem | hmem
      · exact hnot ⟨hmem, husable⟩
      · rw [hcov] at hnot'
        exact hnot' ⟨hmem, husable⟩

/-- A reservation changes neither the coverage nor our candidacy. -/
theorem reserve_keeps (hquiet : Quiet ctx r) {st : PlanState} {n : UInt32} (hn : n ≠ ctx.myNode)
    (hopen : Open st) :
    Open (reserve ctx r st n) ∧
      (ctx.myNode ∈ st.candidates → ctx.myNode ∈ (reserve ctx r st n).candidates) ∧
      (reserve ctx r st n).covered = st.covered := by
  have herase : ctx.myNode ∈ st.candidates → ctx.myNode ∈ st.candidates.erase n :=
    fun hmem => NodeSet.mem_erase.mpr ⟨Ne.symm hn, hmem⟩
  unfold reserve
  by_cases hends : (n == 0 || n == r.heardFrom || n == r.source) = true
  · rw [if_pos hends]
    exact ⟨hopen, id, rfl⟩
  rw [if_neg hends]
  have hsilent : r.hasTransmitted n = false := by
    rw [← Bool.not_eq_true]
    intro ht
    simp only [Bool.or_eq_true, beq_iff_eq, not_or] at hends
    rcases (hquiet n ht).2 with h | h
    · exact hends.2 h
    · exact hends.1.2 h
  by_cases hrouter : (!ctx.capability.isImmediateRelayRouter n) = true
  · rw [if_pos hrouter]
    exact ⟨hopen, id, rfl⟩
  rw [if_neg hrouter]
  by_cases hdeaf : (!stockCanHearTransmitter ctx.edges n r.heardFrom) = true
  · rw [if_pos hdeaf]
    exact ⟨hopen, herase, rfl⟩
  · rw [if_neg hdeaf]
    simp only [hsilent, Bool.false_eq_true, if_false]
    exact ⟨hopen, herase, trivial⟩

theorem reserves_keep (hquiet : Quiet ctx r) {ns : List UInt32} (hns : ctx.myNode ∉ ns)
    {st : PlanState} (hopen : Open st) :
    Open (ns.foldl (reserve ctx r) st) ∧
      (ctx.myNode ∈ st.candidates → ctx.myNode ∈ (ns.foldl (reserve ctx r) st).candidates) ∧
      (ns.foldl (reserve ctx r) st).covered = st.covered := by
  induction ns generalizing st with
  | nil => exact ⟨hopen, id, rfl⟩
  | cons n ns ih =>
    rw [List.mem_cons, not_or] at hns
    obtain ⟨hopen', hmem', hcov⟩ := reserve_keeps hquiet (Ne.symm hns.1) hopen
    obtain ⟨h1, h2, h3⟩ := ih hns.2 hopen'
    exact ⟨h1, fun h => h2 (hmem' h), h3.trans hcov⟩

/-- The fallbacks leave a decision alone. -/
theorem decided_keeps (initial half : Nat) {st : PlanState} (h : st.shouldRelay = true) :
    relayAcknowledgement ctx r half (relaySparse initial st) = st := by
  have hsparse : relaySparse initial st = st := if_neg (by simp [h])
  have hack : relayAcknowledgement ctx r half st = st := if_neg (by simp [h])
  rw [hsparse, hack]

theorem fallbacks_keep (initial half : Nat) {st : PlanState} (h : st.shouldRelay = true) :
    relayAcknowledgement ctx r half (relaySparse initial (relayDownstream ctx r st)) = st := by
  have hdown : relayDownstream ctx r st = st := if_neg (by simp [h])
  rw [hdown, decided_keeps initial half h]

/-- They never make a relay a ranked one. -/
theorem fallbacks_ours_iff (initial half : Nat) (st : PlanState) (h : Ours st ∨ Open st) :
    Ours (relayAcknowledgement ctx r half (relaySparse initial (relayDownstream ctx r st))) ↔
      Ours st := by
  have hdown : st.reason ≠ .ranked → (relayDownstream ctx r st).reason ≠ .ranked := by
    unfold relayDownstream
    intro hne
    split
    · exact RelayReason.noConfusion
    · exact hne
  have hsparse : ∀ st : PlanState,
      st.reason ≠ .ranked → (relaySparse initial st).reason ≠ .ranked := by
    intro st hne
    unfold relaySparse
    split
    · exact RelayReason.noConfusion
    · exact hne
  have hack : ∀ st : PlanState,
      st.reason ≠ .ranked → (relayAcknowledgement ctx r half st).reason ≠ .ranked := by
    intro st hne
    unfold relayAcknowledgement
    split
    · split
      · exact hne
      · exact RelayReason.noConfusion
    · exact hne
  rcases h with hours | hopen
  · rw [fallbacks_keep initial half hours.1]
  · have hne : st.reason ≠ .ranked := by
      rw [hopen.2]
      exact RelayReason.noConfusion
    exact ⟨fun h => absurd h.2 (hack _ (hsparse _ (hdown hne))), fun h => absurd h.2 hne⟩

/-! ## Targets -/

/-- A neighbour the ranking counts for us: admitted, and not covered by what
the transmitter lists. -/
structure RankTarget (ctx : BroadcastRelayContext) (r : PlanRequest) (e : Edge) : Prop where
  named : isPlaceholderNode e.toNode = false
  reported : e.source = .reported
  admitted : admitsCoverage ctx ctx.myNode e.toNode r.nowMs = true
  notSource : e.toNode ≠ r.source
  notHeard : e.toNode ≠ r.heardFrom
  uncovered : ¬ ((ctx.edges.edge r.heardFrom e.toNode).isSome = true ∧
    ctx.covers r.heardFrom e.toNode = true)

theorem mem_buildAlreadyCovered {source heardFrom x : UInt32} (hx : x ≠ 0) :
    x ∈ buildAlreadyCovered ctx source heardFrom ↔
      x = source ∨ x = heardFrom ∨
        ((ctx.edges.edge heardFrom x).isSome = true ∧ ctx.covers heardFrom x = true) := by
  have hsize : ((ctx.edges.listed heardFrom).map (·.toNode)).length ≤ MAX_EDGES_PER_NODE := by
    rw [List.length_map]
    exact EdgeStore.listed_length
  have hfilter := Nat.le_trans (List.length_filter_le (fun target => target != 0 &&
    ctx.covers heardFrom target) ((ctx.edges.listed heardFrom).map (·.toNode))) hsize
  unfold buildAlreadyCovered
  rw [NodeSet.mem_inserts (by
    show 0 + _ ≤ _
    simp only [List.length_cons, MAX_COVERED]
    omega)]
  have hempty : x ∉ (NodeSet.new : NodeSet MAX_COVERED) := List.not_mem_nil
  have hlisted : x ∈ (ctx.edges.listed heardFrom).map (·.toNode) ↔
      (ctx.edges.edge heardFrom x).isSome = true := by
    rw [List.mem_map, Option.isSome_iff_exists]
    constructor
    · rintro ⟨e, he, rfl⟩
      exact ⟨e, EdgeStore.edge_of_mem he⟩
    · rintro ⟨e, he⟩
      exact ⟨e, EdgeStore.edge_mem he⟩
  simp only [hempty, false_or, List.mem_cons, List.mem_filter, hlisted, Bool.and_eq_true,
    bne_iff_ne, ne_eq, hx, not_false_eq_true, true_and, and_true]

theorem coveredTarget_iff {nowMs t : UInt32} {e : Edge} (h0 : e.toNode ≠ 0) :
    coveredTarget ctx ctx.myNode nowMs e = some t ↔
      t = e.toNode ∧ isPlaceholderNode e.toNode = false ∧ e.source = .reported ∧
        admitsCoverage ctx ctx.myNode e.toNode nowMs = true := by
  unfold coveredTarget
  cases hp : isPlaceholderNode e.toNode with
  | true => simp [hp]
  | false =>
    by_cases hs : e.source = .reported
    · cases ha : admitsCoverage ctx ctx.myNode e.toNode nowMs with
      | false => simp [h0, hp, hs, ha]
      | true =>
        simp only [hp, hs, beq_false_of_ne h0, Bool.or_false, Bool.false_eq_true, if_false,
          bne_self_eq_false, Bool.and_false, EdgeSource.isMeasured_reported, ha, Bool.not_true,
          Option.some.injEq, and_true]
        exact eq_comm
    · simp [h0, hs]

/-- We are usable exactly when some neighbour on our list is a target. -/
theorem usable_iff (hquiet : Quiet ctx r) :
    Usable ctx r (buildAlreadyCovered ctx r.source r.heardFrom) ctx.myNode ↔
      ∃ e ∈ ctx.edges.listed ctx.myNode, RankTarget ctx r e := by
  have hsilent : r.hasTransmitted ctx.myNode = false := by
    rw [← Bool.not_eq_true]
    exact fun h => (hquiet _ h).1 rfl
  have hnot : ∀ x, (!(buildAlreadyCovered ctx r.source r.heardFrom).contains x) = true ↔
      x ∉ buildAlreadyCovered ctx r.source r.heardFrom := by
    intro x
    rw [Bool.not_eq_true', ← Bool.not_eq_true]
    exact not_congr List.contains_iff_mem
  unfold Usable uniqueTargets getCoverageIfRelays
  constructor
  · rintro ⟨-, hne⟩
    obtain ⟨t, ht⟩ := List.exists_mem_of_ne_nil _ hne
    rw [List.mem_filter, List.mem_filterMap] at ht
    obtain ⟨⟨e, he, hcov⟩, hun⟩ := ht
    have hids := EdgeStore.listed_ids he
    obtain ⟨rfl, hp, hs, ha⟩ := (coveredTarget_iff hids.2.1).mp hcov
    rw [hnot, mem_buildAlreadyCovered hids.2.1, not_or, not_or] at hun
    exact ⟨e, he, hp, hs, ha, hun.1, hun.2.1, hun.2.2⟩
  · rintro ⟨e, he, htarget⟩
    have hids := EdgeStore.listed_ids he
    refine ⟨hsilent, List.ne_nil_of_mem (a := e.toNode) ?_⟩
    rw [List.mem_filter, List.mem_filterMap]
    refine ⟨⟨e, he, (coveredTarget_iff hids.2.1).mpr
      ⟨rfl, htarget.named, htarget.reported, htarget.admitted⟩⟩, ?_⟩
    rw [hnot, mem_buildAlreadyCovered hids.2.1, not_or, not_or]
    exact ⟨htarget.notSource, htarget.notHeard, htarget.uncovered⟩

/-- We are a candidate of our own plan, unless we are node 0. -/
theorem mem_buildCandidates (source heardFrom : UInt32) (h0 : ctx.myNode ≠ 0) :
    ctx.myNode ∈ buildCandidates ctx source heardFrom := by
  unfold buildCandidates
  have hsize := @EdgeStore.listed_length ctx.edges ctx.myNode
  rw [NodeSet.mem_inserts]
  · exact .inr ⟨List.mem_cons_self, h0⟩
  · have := List.length_filter_le (fun edge : Edge =>
      !(edge.toNode == 0 || edge.toNode == heardFrom || edge.toNode == source || !edge.hearsUs) &&
        (ctx.capability.status edge.toNode == .srActive ||
          ctx.capability.isImmediateRelayRouter edge.toNode)) (ctx.edges.listed ctx.myNode)
    show 0 + _ ≤ _
    simp only [List.length_cons, List.length_map, MAX_CANDIDATES]
    omega

/-- We are ranked exactly when some neighbour on our list is a target. -/
theorem planBroadcastRelay_ranked_iff (hquiet : Quiet ctx r) :
    ((planBroadcastRelay ctx r).shouldRelay = true ∧ (planBroadcastRelay ctx r).reason = .ranked) ↔
      ∃ e ∈ ctx.edges.listed ctx.myNode, RankTarget ctx r e := by
  let half := max r.halfAirtimeMs MIN_RUNG_SPACING_MS
  change Ours (relayAcknowledgement ctx r half (relaySparse (planStart ctx r half).candidates.length
    (relayDownstream ctx r (planRanked ctx r half)))) ↔ _
  have hself : ctx.myNode ∉ (ctx.edges.listed ctx.myNode).map (·.toNode) := by
    intro hmem
    obtain ⟨e, he, heq⟩ := List.mem_map.mp hmem
    exact (EdgeStore.listed_ids he).2.2 heq
  obtain ⟨hopen, hmem, hcov⟩ :=
    @reserves_keep ctx r hquiet _ hself (planStart ctx r half) ⟨rfl, rfl⟩
  have husable := usable_iff hquiet
  have hstart : (planStart ctx r half).covered = buildAlreadyCovered ctx r.source r.heardFrom := rfl
  have hranked := @rank_cases ctx r _ hopen (by
    rw [hcov, hstart, husable]
    rintro ⟨e, he, -⟩
    exact hmem (mem_buildCandidates r.source r.heardFrom (EdgeStore.listed_ids he).1))
  rw [hcov, hstart, husable] at hranked
  rw [fallbacks_ours_iff _ _ (planRanked ctx r half) (hranked.imp And.right And.right)]
  rcases hranked with ⟨h, hours⟩ | ⟨h, hopen'⟩
  · exact ⟨fun _ => h, fun _ => hours⟩
  · refine ⟨fun hours => ?_, fun h' => absurd h' h⟩
    exact absurd (hopen'.1.symm.trans hours.1) Bool.false_ne_true

/-! ## Agreement of the two loops -/

/-- A neighbour that keeps the relay: confirmed or ours by ownership, within
our reach, and not within the transmitter's. -/
structure CancelTarget (ctx : BroadcastRelayContext) (r : PlanRequest) (e : Edge) : Prop where
  named : isPlaceholderNode e.toNode = false
  heard : ctx.silent e.toNode r.nowMs = false
  grown : ctx.droppedCoverage.blocks e.toNode = false
  confirmed : e.hearsUs = true ∨ ctx.owner e.toNode = ctx.myNode
  reached : ctx.covers ctx.myNode e.toNode = true
  notHeard : e.toNode ≠ r.heardFrom
  alone : ctx.covers r.heardFrom e.toNode = false

theorem servesAlone_iff {e : Edge} :
    ctx.servesAlone [r.heardFrom] r.nowMs e = true ↔ CancelTarget ctx r e := by
  unfold CoverageContext.servesAlone
  constructor
  · intro h
    simp only [Bool.if_false_left, Bool.and_eq_true, Bool.not_eq_true', decide_eq_false_iff_not,
      Bool.not_eq_true, List.contains_cons, List.contains_nil, Bool.or_false, List.any_cons,
      List.any_nil, beq_eq_false_iff_ne, bne_iff_ne, not_and, Bool.not_eq_false] at h
    obtain ⟨h1, h2, h3, h4, h5, h6, h7⟩ := h
    refine ⟨h1, h2, h3, ?_, h5, h6, h7⟩
    cases hh : e.hearsUs with
    | true => exact .inl rfl
    | false => exact .inr (by simpa using h4 hh)
  · intro h
    have hconf : (!e.hearsUs && ctx.owner e.toNode != ctx.myNode) = false := by
      rcases h.confirmed with hc | hc
      · simp [hc]
      · simp [hc]
    simp [h.named, h.heard, h.grown, hconf, h.reached, h.notHeard, h.alone]

/-- How a target of the ranking can be none of the cancel path: we have no
confirmation and do not own it; we own it, but what it measured of us is
hopeless; the transmitter covers it by what it lists of the transmitter. -/
def Mismatch (ctx : BroadcastRelayContext) (r : PlanRequest) (e : Edge) : Prop :=
  (e.hearsUs = false ∧ ctx.owner e.toNode ≠ ctx.myNode) ∨
    ctx.covers ctx.myNode e.toNode = false ∨ ctx.covers r.heardFrom e.toNode = true

/-- A neighbour that keeps the relay although the ranking does not count it:
one we did not measure ourselves, or the source. -/
def Spare (ctx : BroadcastRelayContext) (r : PlanRequest) (e : Edge) : Prop :=
  CancelTarget ctx r e ∧ (e.source ≠ .reported ∨ e.toNode = r.source)

theorem cancelTarget_of_rankTarget {e : Edge} (h : RankTarget ctx r e) (hm : ¬ Mismatch ctx r e) :
    CancelTarget ctx r e := by
  obtain ⟨hsilent, hgrown, -⟩ := admitsCoverage_iff.mp h.admitted
  simp only [Mismatch, not_or, not_and, ne_eq, Decidable.not_not, Bool.not_eq_false,
    Bool.not_eq_true] at hm
  refine ⟨h.named, hsilent, hgrown, ?_, hm.2.1, h.notHeard, hm.2.2⟩
  cases hh : e.hearsUs with
  | true => exact .inl rfl
  | false => exact .inr (hm.1 hh)

theorem rankTarget_or_spare {e : Edge} (h : CancelTarget ctx r e) :
    RankTarget ctx r e ∧ ¬ Mismatch ctx r e ∨ Spare ctx r e := by
  by_cases hspare : e.source ≠ .reported ∨ e.toNode = r.source
  · exact .inr ⟨h, hspare⟩
  · rw [not_or, Decidable.not_not] at hspare
    have halone : ¬ ctx.covers r.heardFrom e.toNode = true := by
      rw [h.alone]
      exact Bool.false_ne_true
    refine .inl ⟨⟨h.named, hspare.1, ?_, hspare.2, h.notHeard, fun hc => halone hc.2⟩, ?_⟩
    · exact admitsCoverage_iff.mpr ⟨h.heard, h.grown, .inl h.reached⟩
    · rintro (⟨hh, howner⟩ | hcov | hcov)
      · rcases h.confirmed with hc | hc
        · exact Bool.false_ne_true (hh.symm.trans hc)
        · exact howner hc
      · exact Bool.false_ne_true (hcov.symm.trans h.reached)
      · exact halone hcov

/-- The two loops agree on some neighbour, or the ranking counts nobody. -/
def Agreement (ctx : BroadcastRelayContext) (r : PlanRequest) : Prop :=
  (∃ e ∈ ctx.edges.listed ctx.myNode, RankTarget ctx r e ∧ ¬ Mismatch ctx r e) ∨
    (∃ e ∈ ctx.edges.listed ctx.myNode, Spare ctx r e) ∨
    ∀ e ∈ ctx.edges.listed ctx.myNode, ¬ RankTarget ctx r e

/-- A ranked relay stands against a repeated copy from the transmitter it was
ranked against exactly when the two loops agree on some neighbour. -/
theorem ranked_unique_coverage_iff (ctx : BroadcastRelayContext) (r : PlanRequest)
    (hquiet : Quiet ctx r) :
    ((planBroadcastRelay ctx r).shouldRelay = true ∧ (planBroadcastRelay ctx r).reason = .ranked →
        ctx.hasUniqueCoverage [r.heardFrom] r.nowMs = true) ↔ Agreement ctx r := by
  rw [planBroadcastRelay_ranked_iff hquiet, CoverageContext.hasUniqueCoverage_iff]
  simp only [servesAlone_iff]
  constructor
  · intro h
    by_cases hrank : ∃ e ∈ ctx.edges.listed ctx.myNode, RankTarget ctx r e
    · obtain ⟨e, he, hcancel⟩ := h hrank
      rcases rankTarget_or_spare hcancel with hboth | hspare
      · exact .inl ⟨e, he, hboth⟩
      · exact .inr (.inl ⟨e, he, hspare⟩)
    · exact .inr (.inr fun e he ht => hrank ⟨e, he, ht⟩)
  · rintro (⟨e, he, ht, hm⟩ | ⟨e, he, hspare⟩ | hnone) hrank
    · exact ⟨e, he, cancelTarget_of_rankTarget ht hm⟩
    · exact ⟨e, he, hspare.1⟩
    · obtain ⟨e, he, ht⟩ := hrank
      exact absurd ht (hnone e he)

/-! ## A stock neighbour with a better placed peer

Nodes 2 and 4 publish their lists, node 3 is a stock node: it publishes
nothing, and has not been heard carrying anything of ours. Node 4 hears it
better than we do and owns it; the transmitter, node 2, does not list it. -/

/-- Our edge to node 3, with or without confirmation. -/
def stockEdge (hears : Bool) : Edge :=
  { toNode := 3, etxFixed := 200, source := .reported, hearsUs := hears }

def peerEdge (n : UInt32) (hears : Bool) : Edge :=
  { toNode := n, etxFixed := 100, source := .reported, hearsUs := hears }

/-- Our own list. -/
def ourList (hears : Bool) : NodeEdges where
  nodeId := 1
  lastFullUpdateMs := 1000
  edges := ⟨[peerEdge 2 true, stockEdge hears, peerEdge 4 true], Nat.le_add_right 3 37⟩
  ids := by cases hears <;> decide
  nodup := by cases hears <;> decide

def stockContext (hears : Bool) : BroadcastRelayContext where
  myNode := 1
  myNodeRelays := true
  edges := {
    nodes := ⟨[ourList hears,
      ⟨2, 1000, ⟨[peerEdge 1 true, peerEdge 4 true], by decide⟩, by decide, by decide⟩,
      ⟨4, 1000, ⟨[peerEdge 1 true, peerEdge 2 false, peerEdge 3 false], by decide⟩, by decide,
        by decide⟩], Nat.le_add_right 3 29⟩
    nodup := by cases hears <;> decide }
  capability := ⟨⟨[⟨2, .srActive, 0, 1000⟩, ⟨4, .srActive, 0, 1000⟩], by decide⟩⟩
  droppedCoverage := .empty
  downstream := .empty

/-- A broadcast of node 2, heard from node 2. -/
def stockRequest : PlanRequest where
  packetId := 7
  source := 2
  heardFrom := 2
  broadcastDest := 0xFFFFFFFF
  nowMs := 1000
  halfAirtimeMs := 91
  slotTimeMs := 10
  hasTransmitted := fun n => n == 2
  ackEligible := false

theorem stockRequest_quiet (hears : Bool) : Quiet (stockContext hears) stockRequest := by
  intro n h
  have hn : n = 2 := beq_iff_eq.mp h
  subst hn
  exact ⟨(by decide : (2 : UInt32) ≠ 1), .inl rfl⟩

/-- With a confirmation the two loops agree on node 3. -/
theorem confirmed_target_is_kept :
    Quiet (stockContext true) stockRequest ∧
      (planBroadcastRelay (stockContext true) stockRequest).reason = .ranked ∧
      (stockContext true).hasUniqueCoverage [2] 1000 = true := by
  have hrank : (planBroadcastRelay (stockContext true) stockRequest).shouldRelay = true ∧
      (planBroadcastRelay (stockContext true) stockRequest).reason = .ranked := by decide +kernel
  refine ⟨stockRequest_quiet true, hrank.2, ?_⟩
  refine (ranked_unique_coverage_iff (stockContext true) stockRequest
    (stockRequest_quiet true)).mpr (.inl ⟨stockEdge true, by decide +kernel, ?_, ?_⟩) hrank
  · exact ⟨by decide +kernel, rfl, by decide +kernel, by decide, by decide, by decide +kernel⟩
  · unfold Mismatch
    decide +kernel

/-- Without one we rank for node 3, and the next copy from node 2 cancels us. -/
theorem unconfirmed_target_is_cancelled :
    Quiet (stockContext false) stockRequest ∧
      ¬ ((planBroadcastRelay (stockContext false) stockRequest).shouldRelay = true ∧
          (planBroadcastRelay (stockContext false) stockRequest).reason = .ranked →
        (stockContext false).hasUniqueCoverage [stockRequest.heardFrom] stockRequest.nowMs =
          true) := by
  refine ⟨stockRequest_quiet false, ?_⟩
  decide +kernel

end Meshrustic.Relay
