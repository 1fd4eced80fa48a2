import Meshrustic.Relay.Rungs

/-!
# Copies on the air (`broadcast_relay.rs:210-231, 612-709`)

A relay that has transmitted already serves what it reaches, so nobody should
be ranked for it again. The walk over our neighbours credits the routers that
hear the transmitter; the turn of a candidate would credit the others, but the
search before it passes over whoever has transmitted.

Results:
* `mem_heardCover`: with room left, the coverage behind the walk is what the
  transmitter serves and what the heard routers list.
* `copies_absorbed_iff`: a ranked relay never counts a neighbour that a copy
  on the air serves exactly when each of our targets so served is on a heard
  router's list or already covered (`AbsorbReaches`).
* `heard_candidate_is_not_absorbed`: a heard candidate's targets are not.
-/
namespace Meshrustic.Relay

open Meshrustic.Graph

variable {ctx : BroadcastRelayContext} {r : PlanRequest}

/-- What a heard relay credits: itself and the measured targets on its list
that it is admitted for. -/
def absorbed (ctx : BroadcastRelayContext) (nowMs relay : UInt32) : List UInt32 :=
  relay :: ((ctx.edges.listed relay).filter fun e =>
    e.source.isMeasured && admitsCoverage ctx relay e.toNode nowMs).map (·.toNode)

theorem absorbRelayCoverage_eq (covered : NodeSet MAX_COVERED) (relay nowMs : UInt32) :
    absorbRelayCoverage ctx covered relay nowMs =
      (absorbed ctx nowMs relay).foldl NodeSet.insert covered := by
  unfold absorbRelayCoverage absorbed
  rw [List.foldl_cons]
  generalize covered.insert relay = start
  induction ctx.edges.listed relay generalizing start with
  | nil => rfl
  | cons e es ih =>
    rw [List.foldl_cons, ih]
    cases hm : e.source.isMeasured with
    | false =>
      rw [List.filter_cons_of_neg (by simp [hm])]
      rfl
    | true =>
      cases ha : admitsCoverage ctx relay e.toNode nowMs with
      | false =>
        rw [List.filter_cons_of_neg (by simp [ha])]
        rfl
      | true =>
        rw [List.filter_cons_of_pos (by simp [hm, ha])]
        rfl

/-- The routers among our neighbours whose copy is on the air. -/
def heardRouters (ctx : BroadcastRelayContext) (r : PlanRequest) : List UInt32 :=
  ((ctx.edges.listed ctx.myNode).map (·.toNode)).filter fun n =>
    isReserved ctx r n && r.hasTransmitted n

/-- The coverage at the ranking, which does not change it. -/
def heardCover (ctx : BroadcastRelayContext) (r : PlanRequest) : NodeSet MAX_COVERED :=
  (heardRouters ctx r).foldl (fun covered n => absorbRelayCoverage ctx covered n r.nowMs)
    (buildAlreadyCovered ctx r.source r.heardFrom)

theorem planReserved_covered {half : Nat} :
    (planReserved ctx r half).covered = heardCover ctx r := reserves_covered

theorem heardCover_eq : heardCover ctx r =
    ((heardRouters ctx r).flatMap (absorbed ctx r.nowMs)).foldl NodeSet.insert
      (buildAlreadyCovered ctx r.source r.heardFrom) := by
  unfold heardCover
  rw [List.foldl_flatMap]
  congr 1
  funext covered n
  exact absorbRelayCoverage_eq covered n r.nowMs

/-- Covered before the ranking: by the transmitter, or by a heard router. -/
def Credited (ctx : BroadcastRelayContext) (r : PlanRequest) (t : UInt32) : Prop :=
  t ∈ buildAlreadyCovered ctx r.source r.heardFrom ∨
    ∃ n ∈ heardRouters ctx r, t ∈ absorbed ctx r.nowMs n

theorem mem_heardCover {t : UInt32} (ht : t ≠ 0) (hroom : (heardCover ctx r).length < MAX_COVERED) :
    t ∈ heardCover ctx r ↔ Credited ctx r t := by
  rw [heardCover_eq] at hroom ⊢
  rw [NodeSet.mem_inserts_unfilled hroom, List.mem_flatMap]
  unfold Credited
  exact or_congr_right ⟨And.left, fun h => ⟨h, ht⟩⟩

/-- A reserved router or a candidate of this plan that has transmitted. -/
structure OnAir (ctx : BroadcastRelayContext) (r : PlanRequest) (c : UInt32) : Prop where
  heard : r.hasTransmitted c = true
  built : (c ∈ (ctx.edges.listed ctx.myNode).map (·.toNode) ∧ isReserved ctx r c = true) ∨
    PoolMember ctx r c

/-- If we relay by rank, nobody we are ranked for is served by a copy on the
air. -/
def CopiesAbsorbed (ctx : BroadcastRelayContext) (r : PlanRequest) : Prop :=
  (planBroadcastRelay ctx r).shouldRelay = true ∧ (planBroadcastRelay ctx r).reason = .ranked →
    ∀ t, t = (planBroadcastRelay ctx r).coverageFor ∨
        t ∈ uniqueTargets ctx (heardCover ctx r) ctx.myNode r.nowMs →
      ∀ c, OnAir ctx r c → admitsCoverage ctx c t r.nowMs = false

/-- We have transmitted ourselves, or each of our targets that a copy on the
air serves is credited. -/
def AbsorbReaches (ctx : BroadcastRelayContext) (r : PlanRequest) : Prop :=
  r.hasTransmitted ctx.myNode = true ∨
    ∀ t ∈ getCoverageIfRelays ctx ctx.myNode r.nowMs, ∀ c, OnAir ctx r c →
      admitsCoverage ctx c t r.nowMs = true → Credited ctx r t

/-! ## The ranking -/

/-- We are ranked exactly when we add something to the coverage behind the
walk. -/
theorem ranked_iff_usable :
    (planBroadcastRelay ctx r).shouldRelay = true ∧ (planBroadcastRelay ctx r).reason = .ranked ↔
      Usable ctx r (heardCover ctx r) ctx.myNode := by
  have hcases := @planRanked_cases ctx r (rungHalf r)
  rw [planReserved_covered] at hcases
  refine (fallbacks_ours_iff (planStart ctx r (rungHalf r)).candidates.length (rungHalf r)
    (planRanked ctx r (rungHalf r)) (hcases.imp And.right And.right)).trans ?_
  rcases hcases with ⟨husable, hours⟩ | ⟨hnot, hopen⟩
  · exact ⟨fun _ => husable, fun _ => hours⟩
  · refine ⟨fun hours => ?_, fun husable => absurd husable hnot⟩
    exact absurd (hopen.1.symm.trans hours.1) Bool.false_ne_true

/-- The target noted for us is one of those we add. -/
theorem ranked_coverageFor (h : Usable ctx r (heardCover ctx r) ctx.myNode) :
    (planBroadcastRelay ctx r).coverageFor ∈
      uniqueTargets ctx (heardCover ctx r) ctx.myNode r.nowMs := by
  rcases (@planRanked_spec ctx r (rungHalf r)).outcome with ⟨hours, -, hfor⟩ | ⟨hopen, -, -⟩
  · have hplan : (planBroadcastRelay ctx r).coverageFor =
        (planRanked ctx r (rungHalf r)).coverageFor :=
      congrArg PlanState.coverageFor (fallbacks_keep _ _ hours.1)
    rw [hplan]
    rwa [planReserved_covered] at hfor
  · rcases @planRanked_cases ctx r (rungHalf r) with ⟨-, hours⟩ | ⟨hnot, -⟩
    · exact absurd (hopen.1.symm.trans hours.1) Bool.false_ne_true
    · rw [planReserved_covered] at hnot
      exact absurd h hnot

theorem mem_uniqueTargets {covered : NodeSet MAX_COVERED} {c nowMs t : UInt32} :
    t ∈ uniqueTargets ctx covered c nowMs ↔
      t ∈ getCoverageIfRelays ctx c nowMs ∧ t ∉ covered := by
  unfold uniqueTargets
  rw [List.mem_filter, Bool.not_eq_true', ← Bool.not_eq_true]
  exact and_congr_right fun _ => not_congr List.contains_iff_mem

theorem coverage_ne_zero {c nowMs t : UInt32} (h : t ∈ getCoverageIfRelays ctx c nowMs) :
    t ≠ 0 := by
  unfold getCoverageIfRelays at h
  obtain ⟨e, he, hcovered⟩ := List.mem_filterMap.mp h
  unfold coveredTarget at hcovered
  dsimp only at hcovered
  split at hcovered
  · cases hcovered
  rename_i hnamed
  rw [Bool.or_eq_true, not_or] at hnamed
  split at hcovered
  · cases hcovered
  split at hcovered
  · cases hcovered
  split at hcovered
  · cases hcovered
  · obtain rfl := Option.some.inj hcovered
    simpa using hnamed.1

/-- With room left in the covered set, a ranked relay counts nobody whom a copy
on the air serves exactly when every such target of ours is credited. -/
theorem copies_absorbed_iff (ctx : BroadcastRelayContext) (r : PlanRequest)
    (hroom : (heardCover ctx r).length < MAX_COVERED) :
    CopiesAbsorbed ctx r ↔ AbsorbReaches ctx r := by
  constructor
  · intro h
    by_cases htx : r.hasTransmitted ctx.myNode = true
    · exact .inl htx
    · refine .inr fun t ht c hc hadmits => ?_
      by_contra hnot
      have hopen : t ∉ heardCover ctx r := fun hin =>
        hnot ((mem_heardCover (coverage_ne_zero ht) hroom).mp hin)
      have hunique : t ∈ uniqueTargets ctx (heardCover ctx r) ctx.myNode r.nowMs :=
        mem_uniqueTargets.mpr ⟨ht, hopen⟩
      have husable : Usable ctx r (heardCover ctx r) ctx.myNode :=
        ⟨by simpa using htx, List.ne_nil_of_mem hunique⟩
      have hclosed := h (ranked_iff_usable.mpr husable) t (.inr hunique) c hc
      rw [hadmits] at hclosed
      cases hclosed
  · intro h hranked t ht c hc
    have husable := ranked_iff_usable.mp hranked
    have hunique : t ∈ uniqueTargets ctx (heardCover ctx r) ctx.myNode r.nowMs := by
      rcases ht with rfl | ht
      · exact ranked_coverageFor husable
      · exact ht
    obtain ⟨hours, hopen⟩ := mem_uniqueTargets.mp hunique
    rw [← Bool.not_eq_true]
    intro hadmits
    rcases h with htx | hreach
    · rw [husable.1] at htx
      cases htx
    · exact hopen ((mem_heardCover (coverage_ne_zero hours) hroom).mpr
        (hreach t hours c hc hadmits))

/-- The same broadcast when node 4 has relayed it before we plan. -/
def heardRequest : PlanRequest := { stockRequest with hasTransmitted := fun n => n == 2 || n == 4 }

/-- Node 4 is a stock router here, which hears node 2, and only we serve node 6. -/
def routerContext : BroadcastRelayContext := { stockContext true with
  edges := {
    nodes := ⟨⟨1, 1000, ⟨[peerEdge 2 true, stockEdge true, peerEdge 4 true, peerEdge 6 true],
      by decide⟩, by decide, by decide⟩ :: (stockContext true).edges.nodes.rows.tail, by decide⟩
    nodup := by decide }
  capability := ⟨⟨[⟨2, .srActive, 0, 1000⟩, ⟨4, .legacy, Admin.DEVICE_ROLE_ROUTER, 1000⟩],
    by decide⟩⟩ }

/-- The router's copy is on the air, which serves node 3: we are ranked for node 6. -/
theorem copies_absorbed_sample :
    (heardCover routerContext heardRequest).length < MAX_COVERED ∧
      OnAir routerContext heardRequest 4 ∧
      admitsCoverage routerContext 4 3 1000 = true ∧
      (planBroadcastRelay routerContext heardRequest).reason = .ranked ∧
      CopiesAbsorbed routerContext heardRequest := by
  have hroom : (heardCover routerContext heardRequest).length < MAX_COVERED := by
    decide +kernel
  have hair : OnAir routerContext heardRequest 4 :=
    ⟨rfl, .inl ⟨by decide +kernel, by decide +kernel⟩⟩
  refine ⟨hroom, hair, by decide +kernel, by decide +kernel,
    (copies_absorbed_iff routerContext heardRequest hroom).mpr (.inr fun t ht c hc hadmits => ?_)⟩
  have hwhich : c = 2 ∨ c = 4 := by simpa [heardRequest] using hc.heard
  by_cases hsix : t = 6
  · have hnobody : admitsCoverage routerContext 2 6 1000 = false ∧
        admitsCoverage routerContext 4 6 1000 = false := by decide +kernel
    subst hsix
    rcases hwhich with rfl | rfl
    · exact absurd (hnobody.1.symm.trans hadmits) Bool.false_ne_true
    · exact absurd (hnobody.2.symm.trans hadmits) Bool.false_ne_true
  · -- not as a statement about all ids: there are too many of them to decide it
    have hcredited : (getCoverageIfRelays routerContext 1 1000).all (fun t => t == 6 ||
        decide (t ∈ (buildAlreadyCovered routerContext 2 2).ids.rows ∨
          t ∈ absorbed routerContext 1000 4)) = true := by
      decide +kernel
    have hin := List.all_eq_true.mp hcredited t ht
    rw [beq_false_of_ne hsix, Bool.false_or, decide_eq_true_eq] at hin
    exact hin.imp_right fun h => ⟨4, by decide +kernel, h⟩

/-- Node 4 serves node 3 and its copy is on the air; we are ranked for node 3
all the same. -/
theorem heard_candidate_is_not_absorbed :
    (heardCover (stockContext true) heardRequest).length < MAX_COVERED ∧
      ¬ CopiesAbsorbed (stockContext true) heardRequest := by
  refine ⟨by decide +kernel, fun h => ?_⟩
  have hranked : (planBroadcastRelay (stockContext true) heardRequest).shouldRelay = true ∧
      (planBroadcastRelay (stockContext true) heardRequest).reason = .ranked := by
    decide +kernel
  have hcandidate : (4 : UInt32) ∈ (buildCandidates (stockContext true) 2 2).ids.rows := by
    decide +kernel
  have hair : OnAir (stockContext true) heardRequest 4 := by
    refine ⟨rfl, .inr ⟨hcandidate, fun hrouter => ?_⟩⟩
    have hno : isRouterPeer (stockContext true) heardRequest 4 = false := by decide +kernel
    rw [hno] at hrouter
    exact Bool.false_ne_true hrouter.2
  have hfor : (planBroadcastRelay (stockContext true) heardRequest).coverageFor = 3 := by
    decide +kernel
  have hserved := h hranked 3 (.inl hfor.symm) 4 hair
  revert hserved
  decide +kernel

end Meshrustic.Relay
