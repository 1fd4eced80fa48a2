import Meshrustic.Graph.Reorder
import Meshrustic.Relay.Absorb
import Meshrustic.Relay.Sorting

/-!
# Elections and the order of the tables
(`broadcast_relay.rs:261-505, 641-709`, `graph/route.rs:364-425`)

Three elections read tables whose order is chance. The ranking of a pool picks the best
candidate again and again, the acknowledgement fallback sorts in place, and the ownership
of a target is a running minimum. Each comes to the ranking of its candidates in a strict
order, which is the same however they are given.

What the ranking of a pool can depend on the order for is the set of covered nodes: it has
`MAX_COVERED` places, and what finds them taken is dropped.

Results:
* `poolRungs_order`: a pool hands out its usable candidates in rank, up to us.
* `sortEntries_ranked`, `coverageOwner_scan`: the same for the other two.
* `elections_by_rank`: all three, and that they do not depend on the order of lists and
  nodes while the covered nodes fit.
* `elections_depend_on_order`: they do when those do not fit, and who has transmitted is
  not ranked.
-/
namespace Meshrustic.Relay

open Meshrustic.Graph
open Meshrustic.Admin (DEVICE_ROLE_ROUTER)

variable {ctx : BroadcastRelayContext} {r : PlanRequest}

/-! ## Ranking a pool -/

/-- Role, tier, new coverage, price, and the id by the parity of the packet.
mirrors crates/mesh-routing/src/broadcast_relay.rs:471-491 -/
def rankAhead (preferHigh : Bool) (a b : RelayCandidate) : Bool :=
  b.roleRank < a.roleRank || (a.roleRank == b.roleRank && (b.tier < a.tier ||
    (a.tier == b.tier && (b.coverageCount < a.coverageCount ||
      (a.coverageCount == b.coverageCount && (a.avgCostFixed < b.avgCostFixed ||
        (a.avgCostFixed == b.avgCostFixed &&
          if preferHigh then b.nodeId < a.nodeId else a.nodeId < b.nodeId)))))))

theorem rankAhead_strict (preferHigh : Bool) : StrictRank (rankAhead preferHigh) where
  irrefl a := by
    unfold rankAhead
    simp
  trans a b c := by
    unfold rankAhead
    simp only [Bool.or_eq_true, Bool.and_eq_true, decide_eq_true_eq, beq_iff_eq]
    cases preferHigh with
    | true =>
      simp only [if_true, decide_eq_true_eq, UInt32.lt_iff_toNat_lt]
      omega
    | false =>
      simp only [Bool.false_eq_true, if_false, decide_eq_true_eq, UInt32.lt_iff_toNat_lt]
      omega

/-- Two different nodes never tie. -/
theorem rankAhead_total {preferHigh : Bool} {a b : RelayCandidate} (h : a.nodeId ≠ b.nodeId) :
    rankAhead preferHigh a b = true ∨ rankAhead preferHigh b a = true := by
  have hne : a.nodeId.toNat ≠ b.nodeId.toNat := fun heq => h (UInt32.toNat_inj.mp heq)
  unfold rankAhead
  simp only [Bool.or_eq_true, Bool.and_eq_true, decide_eq_true_eq, beq_iff_eq]
  cases preferHigh with
  | true =>
    simp only [if_true, decide_eq_true_eq, UInt32.lt_iff_toNat_lt]
    omega
  | false =>
    simp only [Bool.false_eq_true, if_false, decide_eq_true_eq, UInt32.lt_iff_toNat_lt]
    omega

theorem isBetter_eq (preferHigh : Bool) (c best : RelayCandidate) (h : best.nodeId ≠ 0) :
    isBetter preferHigh c best = rankAhead preferHigh c best := by
  rw [Bool.eq_iff_iff]
  unfold isBetter rankAhead
  simp only [Bool.or_eq_true, Bool.and_eq_true, decide_eq_true_eq, beq_iff_eq]
  constructor
  · rintro (((((hzero | h) | h) | h) | h) | h)
    · exact absurd hzero h
    all_goals tauto
  · tauto

/-- The usable candidates of a pool, as the ranking sees them. -/
def pricedPool (ctx : BroadcastRelayContext) (r : PlanRequest) (covered : NodeSet MAX_COVERED)
    (pool : List UInt32) : List RelayCandidate :=
  pool.filterMap fun c =>
    if r.hasTransmitted c then none else priceCandidate ctx covered r.source r.nowMs c

/-- A list up to the first `x` in it. -/
def cutAfter (x : UInt32) : List UInt32 → List UInt32
  | [] => []
  | y :: ys => y :: if y == x then [] else cutAfter x ys

theorem mem_pricedPool {covered : NodeSet MAX_COVERED} {pool : List UInt32} {p : RelayCandidate} :
    p ∈ pricedPool ctx r covered pool ↔ p.nodeId ∈ pool ∧ r.hasTransmitted p.nodeId = false ∧
      priceCandidate ctx covered r.source r.nowMs p.nodeId = some p := by
  unfold pricedPool
  rw [List.mem_filterMap]
  constructor
  · rintro ⟨c, hc, hp⟩
    split at hp
    · cases hp
    · rename_i htx
      obtain rfl := (priceCandidate_some hp).1
      exact ⟨hc, by simpa using htx, hp⟩
  · rintro ⟨hc, htx, hp⟩
    exact ⟨p.nodeId, hc, by rw [htx]; exact hp⟩

/-- A node has one entry. -/
theorem pricedPool_decides (covered : NodeSet MAX_COVERED) (pool : List UInt32)
    (preferHigh : Bool) : Decides (rankAhead preferHigh) (pricedPool ctx r covered pool) := by
  intro a ha b hb hne
  refine rankAhead_total fun hid => hne ?_
  have hpa := (mem_pricedPool.mp ha).2.2
  have hpb := (mem_pricedPool.mp hb).2.2
  rw [hid, hpb] at hpa
  exact (Option.some.inj hpa).symm

theorem findBest_eq (pool : NodeSet MAX_CANDIDATES) (covered : NodeSet MAX_COVERED) :
    findBestRelayCandidate ctx r pool covered =
      (scanBest (rankAhead r.preferHigh) (pricedPool ctx r covered pool.ids.rows)).getD {} := by
  have hfold := @scan_form RelayCandidate (rankAhead r.preferHigh)
    (pricedPool ctx r covered pool.ids.rows) RelayCandidate (·.getD {})
    (fun best p => if isBetter r.preferHigh p best then p else best) (fun p => p.nodeId ≠ 0) ?_ ?_
  · rw [← hfold]
    unfold findBestRelayCandidate pricedPool
    rw [List.foldl_filterMap]
    congr 1
    funext best c
    unfold considerCandidate
    cases r.hasTransmitted c with
    | true => rfl
    | false =>
      rw [if_neg Bool.false_ne_true, if_neg Bool.false_ne_true]
      cases priceCandidate ctx covered r.source r.nowMs c with
      | none => rfl
      | some p => rfl
  · intro best hbest p hp
    cases best with
    | none => rfl
    | some best =>
      change (if isBetter r.preferHigh p best = true then p else best) =
        (if rankAhead r.preferHigh p best = true then some p else some best).getD {}
      rw [isBetter_eq _ _ _ (hbest best rfl)]
      split <;> rfl
  · exact fun p hp => pool.nonzero _ (mem_pricedPool.mp hp).1

/-- Taking the best one out again and again ranks the pool, and stops at us. -/
theorem poolRungs_order {covered : NodeSet MAX_COVERED} {early : Bool} {fuel : Nat}
    {p : PositionAllocator} {pool : NodeSet MAX_CANDIDATES} (hfuel : pool.length ≤ fuel) :
    ∃ order, order.Perm (pricedPool ctx r covered pool.ids.rows) ∧
      Ranked (rankAhead r.preferHigh) order ∧
        (poolRungs ctx r covered early fuel p pool).map (·.1) =
          cutAfter ctx.myNode (order.map (·.nodeId)) := by
  induction fuel generalizing p pool with
  | zero =>
    have hnil : pool.ids.rows = [] := List.length_eq_zero_iff.mp (Nat.le_zero.mp hfuel)
    exact ⟨[], by rw [hnil]; exact .nil, List.Pairwise.nil, rfl⟩
  | succ fuel ih =>
    rw [poolRungs, findBest_eq]
    rcases scanBest_spec (rankAhead_strict r.preferHigh)
      (pricedPool_decides covered pool.ids.rows r.preferHigh) with ⟨hnil, hscan⟩ |
        ⟨best, hscan, hmem, hahead⟩
    · rw [hscan, hnil]
      exact ⟨[], .nil, List.Pairwise.nil, rfl⟩
    · obtain ⟨hin, hsilent, hprice⟩ := mem_pricedPool.mp hmem
      have hne : best.nodeId ≠ 0 := pool.nonzero _ hin
      have hlen := NodeSet.length_erase (s := pool) hin
      obtain ⟨order, hperm, hranked, hrungs⟩ := @ih
        ((rungTake early).on p).2 (pool.erase best.nodeId) (by omega)
      have hrows : pool.ids.rows.Perm (best.nodeId :: (pool.erase best.nodeId).ids.rows) :=
        (List.perm_cons_erase hin).trans ((pool.eraseRows_perm best.nodeId).symm.cons _)
      have hpriced : (pricedPool ctx r covered pool.ids.rows).Perm
          (best :: pricedPool ctx r covered (pool.erase best.nodeId).ids.rows) := by
        have hhead : pricedPool ctx r covered (best.nodeId :: (pool.erase best.nodeId).ids.rows) =
            best :: pricedPool ctx r covered (pool.erase best.nodeId).ids.rows :=
          List.filterMap_cons_some (by rw [if_neg (by simpa using hsilent)]; exact hprice)
        exact hhead ▸ hrows.filterMap _
      refine ⟨best :: order, (hperm.cons best).trans hpriced.symm, ?_, ?_⟩
      · refine List.pairwise_cons.mpr ⟨fun q hq => ?_, hranked⟩
        have hrest := hperm.mem_iff.mp hq
        refine hahead q (hpriced.mem_iff.mpr (List.mem_cons_of_mem _ hrest)) ?_
        rintro rfl
        exact (NodeSet.mem_erase.mp (mem_pricedPool.mp hrest).1).1 rfl
      · rw [hscan, Option.getD_some, if_neg (by simpa using hne), List.map_cons, List.map_cons,
          cutAfter]
        congr 1
        by_cases hmine : best.nodeId = ctx.myNode
        · rw [if_pos (by simpa using hmine), if_pos (by simpa using hmine)]
          rfl
        · rw [if_neg (by simpa using hmine), if_neg (by simpa using hmine)]
          exact hrungs

/-- The entries of a pool, one for each usable member. -/
theorem pricedPool_ids (covered : NodeSet MAX_COVERED) (pool : List UInt32) :
    (pricedPool ctx r covered pool).map (·.nodeId) =
      pool.filter fun c => !r.hasTransmitted c && !(uniqueTargets ctx covered c r.nowMs).isEmpty := by
  unfold pricedPool
  induction pool with
  | nil => rfl
  | cons c pool ih =>
    cases htx : r.hasTransmitted c with
    | true =>
      rw [List.filterMap_cons_none (by rw [htx]; rfl), List.filter_cons_of_neg (by simp [htx]), ih]
    | false =>
      cases hu : uniqueTargets ctx covered c r.nowMs with
      | nil =>
        have hprice : priceCandidate ctx covered r.source r.nowMs c = none := by
          unfold priceCandidate
          rw [hu]
        rw [List.filterMap_cons_none (by rw [htx]; exact hprice),
          List.filter_cons_of_neg (by simp [hu]), ih]
      | cons t ts =>
        obtain ⟨p, hprice⟩ : ∃ p, priceCandidate ctx covered r.source r.nowMs c = some p := by
          unfold priceCandidate
          rw [hu]
          exact ⟨_, rfl⟩
        rw [List.filterMap_cons_some (by rw [htx]; exact hprice), List.map_cons, ih,
          List.filter_cons_of_pos (by simp [htx, hu]), (priceCandidate_some hprice).1]

/-- What electing the early or the late pool comes to: its usable members, each
once and at the code's price, in rank. -/
structure Elected (ctx : BroadcastRelayContext) (r : PlanRequest) (early : Bool)
    (order : List RelayCandidate) : Prop where
  ranked : Ranked (rankAhead r.preferHigh) order
  distinct : (order.map (·.nodeId)).Nodup
  members : ∀ c, c ∈ order.map (·.nodeId) ↔
    PoolMember ctx r c ∧ mayTakeEarlyWindow ctx c = early ∧ Usable ctx r (heardCover ctx r) c
  priced : ∀ p ∈ order, priceCandidate ctx (heardCover ctx r) r.source r.nowMs p.nodeId = some p

theorem elected_of_perm {early : Bool} {pool : NodeSet MAX_CANDIDATES} {order : List RelayCandidate}
    (hpool : ∀ c, c ∈ pool ↔ PoolMember ctx r c ∧ mayTakeEarlyWindow ctx c = early)
    (hperm : order.Perm (pricedPool ctx r (heardCover ctx r) pool.ids.rows))
    (hranked : Ranked (rankAhead r.preferHigh) order) : Elected ctx r early order := by
  have hids := hperm.map (·.nodeId)
  rw [pricedPool_ids] at hids
  refine ⟨hranked, hids.nodup_iff.mpr (pool.nodup.filter _), fun c => ?_, fun p hp =>
    (mem_pricedPool.mp (hperm.mem_iff.mp hp)).2.2⟩
  rw [hids.mem_iff, List.mem_filter, Bool.and_eq_true, Bool.not_eq_true', Bool.not_eq_true',
    List.isEmpty_eq_false_iff]
  exact (and_congr_left' (hpool c)).trans and_assoc

theorem mem_cutAfter {x : UInt32} {xs : List UInt32} : x ∈ cutAfter x xs ↔ x ∈ xs := by
  induction xs with
  | nil => exact Iff.rfl
  | cons y ys ih =>
    rw [cutAfter, List.mem_cons, List.mem_cons]
    by_cases hy : y = x
    · subst hy
      simp
    · rw [if_neg (by simpa using hy), ih]

/-- Both pools of a plan. The late one is not ranked when we had our turn. -/
theorem pools_elected (ctx : BroadcastRelayContext) (r : PlanRequest) (half : Nat) :
    ∃ early late, Elected ctx r true early ∧ Elected ctx r false late ∧
      (earlyRungs ctx r half).map (·.1) = cutAfter ctx.myNode (early.map (·.nodeId)) ∧
      (lateRungs ctx r half).map (·.1) =
        if ctx.myNode ∈ early.map (·.nodeId) then []
        else cutAfter ctx.myNode (late.map (·.nodeId)) := by
  obtain ⟨early, hperm, hranked, hrungs⟩ := @poolRungs_order ctx r (planReserved ctx r half).covered
    true (planPools ctx r half).1.length (planReserved ctx r half).positions
    (planPools ctx r half).1 (Nat.le_refl _)
  obtain ⟨late, hperm', hranked', hrungs'⟩ := @poolRungs_order ctx r
    (planReserved ctx r half).covered false (planPools ctx r half).2.length
    (planEarly ctx r half).positions (planPools ctx r half).2 (Nat.le_refl _)
  rw [planReserved_covered] at hperm hperm'
  refine ⟨early, late, elected_of_perm (fun c => mem_planPools.1) hperm hranked,
    elected_of_perm (fun c => mem_planPools.2) hperm' hranked', hrungs, ?_⟩
  -- we had our turn exactly when our rung is the last one of the early pool
  have hturn : (planEarly ctx r half).shouldRelay = true ↔
      ctx.myNode ∈ early.map (·.nodeId) := by
    rw [← mem_cutAfter, ← hrungs]
    rcases (@planEarly_ranks ctx r half).outcome with ⟨hours, ⟨ahead, hlast⟩, -⟩ | ⟨hopen, hnot, -⟩
    · refine ⟨fun _ => ?_, fun _ => hours.1⟩
      change ctx.myNode ∈ (earlyRungs ctx r half).map (·.1)
      rw [hlast, List.map_append]
      exact List.mem_append_right _ List.mem_cons_self
    · exact ⟨fun h => absurd (hopen.1.symm.trans h) Bool.false_ne_true, fun h => absurd h hnot⟩
  unfold lateRungs
  by_cases h : (planEarly ctx r half).shouldRelay = true
  · rw [if_pos h, if_pos (hturn.mp h)]
    rfl
  · rw [if_neg h, if_neg (hturn.not.mp h)]
    exact hrungs'

/-! ## The acknowledgement fallback -/

/-- Cost bucket, then the id by the parity of the packet.
mirrors crates/mesh-routing/src/broadcast_relay.rs:313-325 -/
def ackAhead (preferHigh : Bool) (a b : UInt32 × Nat) : Bool :=
  if a.2 / COST_BUCKET_FIXED != b.2 / COST_BUCKET_FIXED then
    a.2 / COST_BUCKET_FIXED < b.2 / COST_BUCKET_FIXED
  else if preferHigh then b.1 < a.1 else a.1 < b.1

theorem ackAhead_iff {preferHigh : Bool} {a b : UInt32 × Nat} :
    ackAhead preferHigh a b = true ↔
      a.2 / COST_BUCKET_FIXED < b.2 / COST_BUCKET_FIXED ∨
        a.2 / COST_BUCKET_FIXED = b.2 / COST_BUCKET_FIXED ∧
          if preferHigh then b.1.toNat < a.1.toNat else a.1.toNat < b.1.toNat := by
  unfold ackAhead
  by_cases hb : a.2 / COST_BUCKET_FIXED = b.2 / COST_BUCKET_FIXED
  · rw [if_neg (by simpa using hb), hb]
    cases preferHigh with
    | true => simp [UInt32.lt_iff_toNat_lt]
    | false => simp [UInt32.lt_iff_toNat_lt]
  · rw [if_pos (by simpa using hb)]
    simp [hb]

theorem ackAhead_strict (preferHigh : Bool) : StrictRank (ackAhead preferHigh) where
  irrefl a := by
    unfold ackAhead
    simp
  trans a b c := by
    rw [ackAhead_iff, ackAhead_iff, ackAhead_iff]
    cases preferHigh with
    | true =>
      simp only [if_true]
      omega
    | false =>
      simp only [Bool.false_eq_true, if_false]
      omega

theorem ackAhead_total {preferHigh : Bool} {a b : UInt32 × Nat} (h : a.1 ≠ b.1) :
    ackAhead preferHigh a b = true ∨ ackAhead preferHigh b a = true := by
  have hne : a.1.toNat ≠ b.1.toNat := fun heq => h (UInt32.toNat_inj.mp heq)
  rw [ackAhead_iff, ackAhead_iff]
  cases preferHigh with
  | true =>
    simp only [if_true]
    omega
  | false =>
    simp only [Bool.false_eq_true, if_false]
    omega

/-- Who can confirm to the source, each with its price.
mirrors crates/mesh-routing/src/broadcast_relay.rs:285-311 -/
def ackEntries (ctx : BroadcastRelayContext) (source : UInt32) : List (UInt32 × Nat) :=
  (ctx.myNode :: (ctx.edges.listed ctx.myNode).map (·.toNode)).filterMap
    (acknowledgementEntry ctx source)

theorem acknowledgementEntry_some {source n : UInt32} {a : UInt32 × Nat}
    (h : acknowledgementEntry ctx source n = some a) : a.1 = n := by
  unfold acknowledgementEntry at h
  split at h
  · cases h
  split at h
  · cases h
  obtain ⟨price, -, rfl⟩ := Option.map_eq_some_iff.mp h
  rfl

/-- Our list has fewer entries than the array has places. -/
theorem ackEntries_fit (source : UInt32) :
    (ackEntries ctx source).take MAX_CANDIDATES = ackEntries ctx source := by
  refine List.take_of_length_le (Nat.le_trans (List.length_filterMap_le _ _) ?_)
  have hlen := @EdgeStore.listed_length ctx.edges ctx.myNode
  rw [List.length_cons, List.length_map]
  unfold MAX_CANDIDATES
  omega

theorem ackEntries_ids (source : UInt32) : ((ackEntries ctx source).map (·.1)).Nodup := by
  have hnodes : (ctx.myNode :: (ctx.edges.listed ctx.myNode).map (·.toNode)).Nodup := by
    refine List.nodup_cons.mpr ⟨fun hmem => ?_, EdgeStore.listed_nodup⟩
    obtain ⟨e, he, heq⟩ := List.mem_map.mp hmem
    exact (EdgeStore.listed_ids he).2.2 heq
  unfold ackEntries
  generalize ctx.myNode :: (ctx.edges.listed ctx.myNode).map (·.toNode) = nodes at hnodes
  refine List.Pairwise.map _ (fun _ _ h => h) (List.Pairwise.filterMap _ ?_ hnodes)
  intro n m hne a ha b hb
  rwa [acknowledgementEntry_some ha, acknowledgementEntry_some hb]

/-- The sort in place is the ranking of all entries. -/
theorem sortEntries_ranked (ctx : BroadcastRelayContext) (r : PlanRequest) :
    Ranked (ackAhead r.preferHigh) (sortEntries r.preferHigh (ackEntries ctx r.source)) ∧
      (sortEntries r.preferHigh (ackEntries ctx r.source)).Perm (ackEntries ctx r.source) := by
  refine insertion_ranked (ackAhead_strict r.preferHigh) (.of_map _ (ackEntries_ids r.source))
    fun a ha b hb hne => ackAhead_total fun hid => hne ?_
  exact List.inj_on_of_nodup_map (ackEntries_ids r.source) ha hb hid

/-! ## The order of the tables -/

/-- All that counts as covered when the ranking starts has a place. -/
def CoverFits (ctx : BroadcastRelayContext) (r : PlanRequest) : Prop :=
  ∃ nodes : List UInt32, nodes.length ≤ MAX_COVERED ∧ ∀ n, n ≠ 0 → Credited ctx r n → n ∈ nodes

theorem mem_heardCover_of_fits (hfits : CoverFits ctx r) {n : UInt32} (hn : n ≠ 0) :
    n ∈ heardCover ctx r ↔ Credited ctx r n := by
  obtain ⟨nodes, hlen, hin⟩ := hfits
  rw [heardCover_eq, NodeSet.mem_inserts_within hlen (fun y hy => hin y (NodeSet.nonzero _ y hy)
    (.inl hy)) fun y hy hy0 => hin y hy0 (.inr (List.mem_flatMap.mp hy)), List.mem_flatMap]
  unfold Credited
  exact or_congr_right ⟨And.left, fun h => ⟨h, hn⟩⟩

section

variable {edges' : EdgeStore}

/-- The same context over another table of edges. -/
def BroadcastRelayContext.withEdges (ctx : BroadcastRelayContext) (edges' : EdgeStore) :
    BroadcastRelayContext := { ctx with edges := edges' }

theorem owner_withEdges (h : Reordered ctx.edges edges') :
    (ctx.withEdges edges').owner = ctx.owner := by
  funext target
  unfold CoverageContext.owner
  rw [h.coverageOwner]
  rfl

theorem covers_withEdges (h : Reordered ctx.edges edges') :
    (ctx.withEdges edges').covers = ctx.covers := by
  funext a b
  unfold CoverageContext.covers
  rw [h.covers]
  rfl

theorem silent_withEdges (h : Reordered ctx.edges edges') :
    (ctx.withEdges edges').silent = ctx.silent := by
  funext target nowMs
  unfold CoverageContext.silent
  rw [h.isSilentPublisher]
  rfl

theorem admitsCoverage_withEdges (h : Reordered ctx.edges edges') :
    admitsCoverage (ctx.withEdges edges') = admitsCoverage ctx := by
  funext relay target nowMs
  unfold admitsCoverage
  rw [silent_withEdges h, covers_withEdges h, owner_withEdges h]
  rfl

theorem coverage_withEdges (h : Reordered ctx.edges edges') (relay nowMs : UInt32) :
    (getCoverageIfRelays ctx relay nowMs).Perm
      (getCoverageIfRelays (ctx.withEdges edges') relay nowMs) := by
  have htarget : coveredTarget (ctx.withEdges edges') = coveredTarget ctx := by
    funext relay nowMs edge
    unfold coveredTarget
    rw [admitsCoverage_withEdges h]
    rfl
  unfold getCoverageIfRelays
  rw [htarget]
  exact (h.listed relay).filterMap _

/-- Our neighbours. -/
theorem neighbors_withEdges (h : Reordered ctx.edges edges') :
    ((ctx.edges.listed ctx.myNode).map (·.toNode)).Perm
      (((ctx.withEdges edges').edges.listed (ctx.withEdges edges').myNode).map (·.toNode)) :=
  (h.listed ctx.myNode).map _

theorem stockCanHearTransmitter_withEdges (h : Reordered ctx.edges edges') :
    stockCanHearTransmitter edges' = stockCanHearTransmitter ctx.edges := by
  funext stock heardFrom
  unfold stockCanHearTransmitter
  rw [h.edge]

theorem credited_withEdges (h : Reordered ctx.edges edges') {n : UInt32} (hn : n ≠ 0) :
    Credited (ctx.withEdges edges') r n ↔ Credited ctx r n := by
  have hreserved : isReserved (ctx.withEdges edges') r = isReserved ctx r := by
    funext m
    unfold isReserved
    change (_ && stockCanHearTransmitter edges' m r.heardFrom) = _
    rw [stockCanHearTransmitter_withEdges h]
    rfl
  have hheard : ∀ m, m ∈ heardRouters (ctx.withEdges edges') r ↔ m ∈ heardRouters ctx r := by
    intro m
    unfold heardRouters
    rw [List.mem_filter, List.mem_filter, ← (neighbors_withEdges h).mem_iff, hreserved]
  have habsorbed : ∀ m, n ∈ absorbed (ctx.withEdges edges') r.nowMs m ↔
      n ∈ absorbed ctx r.nowMs m := by
    intro m
    unfold absorbed
    rw [admitsCoverage_withEdges h]
    exact ((((h.listed m).filter _).map _).cons m).symm.mem_iff
  unfold Credited
  rw [mem_buildAlreadyCovered hn, mem_buildAlreadyCovered hn, covers_withEdges h]
  refine or_congr ?_ (exists_congr fun m => and_congr (hheard m) (habsorbed m))
  change _ ∨ _ ∨ ((edges'.edge _ _).isSome = true ∧ _) ↔ _
  rw [h.edge]

theorem coverFits_withEdges (h : Reordered ctx.edges edges') (hfits : CoverFits ctx r) :
    CoverFits (ctx.withEdges edges') r := by
  obtain ⟨nodes, hlen, hin⟩ := hfits
  exact ⟨nodes, hlen, fun n hn hcredited => hin n hn ((credited_withEdges h hn).mp hcredited)⟩

theorem uniqueTargets_withEdges (h : Reordered ctx.edges edges') (hfits : CoverFits ctx r)
    (c : UInt32) : (uniqueTargets ctx (heardCover ctx r) c r.nowMs).Perm
      (uniqueTargets (ctx.withEdges edges') (heardCover (ctx.withEdges edges') r) c r.nowMs) := by
  unfold uniqueTargets
  refine ((coverage_withEdges h c r.nowMs).filter _).trans
    (.of_eq (List.filter_congr fun n hn => ?_))
  have hne : n ≠ 0 := coverage_ne_zero hn
  have hiff : n ∈ heardCover ctx r ↔ n ∈ heardCover (ctx.withEdges edges') r := by
    rw [mem_heardCover_of_fits hfits hne, mem_heardCover_of_fits (coverFits_withEdges h hfits) hne,
      credited_withEdges h hne]
  rw [Bool.eq_iff_iff, Bool.not_eq_true', Bool.not_eq_true', ← Bool.not_eq_true,
    ← Bool.not_eq_true]
  exact not_congr ((List.contains_iff_mem).trans (hiff.trans List.contains_iff_mem.symm))

theorem mem_buildCandidates_withEdges (h : Reordered ctx.edges edges') {c : UInt32} :
    c ∈ buildCandidates (ctx.withEdges edges') r.source r.heardFrom ↔
      c ∈ buildCandidates ctx r.source r.heardFrom := by
  have hroom : ∀ (ctx : BroadcastRelayContext) (p : Edge → Bool),
      (NodeSet.new : NodeSet MAX_CANDIDATES).length +
        (ctx.myNode :: ((ctx.edges.listed ctx.myNode).filter p).map (·.toNode)).length ≤
          MAX_CANDIDATES := by
    intro ctx p
    have hle := List.length_filter_le p (ctx.edges.listed ctx.myNode)
    have hlen := @EdgeStore.listed_length ctx.edges ctx.myNode
    rw [List.length_cons, List.length_map]
    change 0 + _ ≤ _
    unfold MAX_CANDIDATES
    omega
  unfold buildCandidates
  rw [NodeSet.mem_inserts (hroom (ctx.withEdges edges') _), NodeSet.mem_inserts (hroom ctx _)]
  have hperm := (((h.listed ctx.myNode).filter fun edge =>
    !(edge.toNode == 0 || edge.toNode == r.heardFrom || edge.toNode == r.source ||
      !edge.hearsUs) && (ctx.capability.status edge.toNode == .srActive ||
        ctx.capability.isImmediateRelayRouter edge.toNode)).map (·.toNode)).cons ctx.myNode
  exact or_congr_right (and_congr_left' hperm.symm.mem_iff)

theorem poolMember_withEdges (h : Reordered ctx.edges edges') {c : UInt32} :
    PoolMember (ctx.withEdges edges') r c ↔ PoolMember ctx r c := by
  unfold PoolMember
  rw [mem_buildCandidates_withEdges h, ← (neighbors_withEdges h).mem_iff]
  exact Iff.rfl

/-- Each candidate's mean price, a sum of floats in the order of its list, is the
same over both tables. -/
def SameCosts (ctx ctx' : BroadcastRelayContext) (r : PlanRequest) : Prop :=
  ∀ c p p', priceCandidate ctx (heardCover ctx r) r.source r.nowMs c = some p →
    priceCandidate ctx' (heardCover ctx' r) r.source r.nowMs c = some p' →
      p'.avgCostFixed = p.avgCostFixed

/-- What a candidate is ranked by: all but the target noted for it. -/
def RelayCandidate.standing (p : RelayCandidate) : RelayCandidate := { p with coverageFor := 0 }

theorem standing_withEdges (h : Reordered ctx.edges edges') (hfits : CoverFits ctx r)
    (hcosts : SameCosts ctx (ctx.withEdges edges') r) (c : UInt32) :
    (priceCandidate (ctx.withEdges edges') (heardCover (ctx.withEdges edges') r) r.source
        r.nowMs c).map RelayCandidate.standing =
      (priceCandidate ctx (heardCover ctx r) r.source r.nowMs c).map RelayCandidate.standing := by
  have hperm := uniqueTargets_withEdges h hfits c
  cases hs : uniqueTargets ctx (heardCover ctx r) c r.nowMs with
  | nil =>
    rw [hs] at hperm
    unfold priceCandidate
    rw [hs, hperm.nil_eq.symm]
  | cons first rest =>
    obtain ⟨p, hp⟩ : ∃ p, priceCandidate ctx (heardCover ctx r) r.source r.nowMs c = some p := by
      unfold priceCandidate
      rw [hs]
      exact ⟨_, rfl⟩
    cases ht : uniqueTargets (ctx.withEdges edges') (heardCover (ctx.withEdges edges') r) c
        r.nowMs with
    | nil => exact absurd (hs ▸ ht ▸ hperm).eq_nil (List.cons_ne_nil _ _)
    | cons first' rest' =>
      obtain ⟨p', hp'⟩ : ∃ p', priceCandidate (ctx.withEdges edges')
          (heardCover (ctx.withEdges edges') r) r.source r.nowMs c = some p' := by
        unfold priceCandidate
        rw [ht]
        exact ⟨_, rfl⟩
      have hcost := hcosts c p p' hp hp'
      have hlen := hperm.length_eq
      rw [hs, ht, List.length_cons, List.length_cons] at hlen
      rw [hp, hp']
      unfold priceCandidate at hp hp'
      rw [hs] at hp
      rw [ht] at hp'
      obtain rfl := Option.some.inj hp
      obtain rfl := Option.some.inj hp'
      dsimp only at hcost
      have hedge : (ctx.withEdges edges').edges.edge = ctx.edges.edge := h.edge.symm
      unfold RelayCandidate.standing
      dsimp only [Option.map_some]
      rw [hcost, hlen, hedge]
      rfl

/-- The two tables give one ranking. -/
theorem Elected.same_withEdges {early : Bool} {order order' : List RelayCandidate}
    (h : Reordered ctx.edges edges') (hfits : CoverFits ctx r)
    (hcosts : SameCosts ctx (ctx.withEdges edges') r) (he : Elected ctx r early order)
    (he' : Elected (ctx.withEdges edges') r early order') :
    order'.map (·.nodeId) = order.map (·.nodeId) := by
  have hstand : ∀ {xs : List RelayCandidate}, Ranked (rankAhead r.preferHigh) xs →
      Ranked (rankAhead r.preferHigh) (xs.map RelayCandidate.standing) := fun hx =>
    List.Pairwise.map _ (fun _ _ hab => hab) hx
  have hids : ∀ c, c ∈ order'.map (·.nodeId) ↔ c ∈ order.map (·.nodeId) := by
    intro c
    rw [he.members, he'.members, poolMember_withEdges h]
    refine and_congr_right fun _ => and_congr Iff.rfl (and_congr Iff.rfl (not_congr ?_))
    have hperm := uniqueTargets_withEdges h hfits c
    exact ⟨fun hnil => (hnil ▸ hperm).eq_nil, fun hnil => (hnil ▸ hperm).nil_eq.symm⟩
  -- an entry is what its node is priced at
  have hentry : ∀ {e : Bool} {ctx' : BroadcastRelayContext} {xs : List RelayCandidate},
      Elected ctx' r e xs → ∀ q, q ∈ xs.map RelayCandidate.standing ↔
        ∃ c ∈ xs.map (·.nodeId), (priceCandidate ctx' (heardCover ctx' r) r.source r.nowMs c).map
          RelayCandidate.standing = some q := by
    intro e ctx' xs hx q
    constructor
    · intro hq
      obtain ⟨p, hp, rfl⟩ := List.mem_map.mp hq
      exact ⟨p.nodeId, List.mem_map_of_mem hp, by rw [hx.priced p hp]; rfl⟩
    · rintro ⟨c, hc, hprice⟩
      obtain ⟨p, hp, rfl⟩ := List.mem_map.mp hc
      rw [hx.priced p hp] at hprice
      obtain rfl := Option.some.inj hprice
      exact List.mem_map_of_mem hp
  have hsame : order'.map RelayCandidate.standing = order.map RelayCandidate.standing := by
    refine (hstand he'.ranked).unique (rankAhead_strict r.preferHigh) (hstand he.ranked) ?_
    rw [List.perm_ext_iff_of_nodup ((hstand he'.ranked).nodup (rankAhead_strict _))
      ((hstand he.ranked).nodup (rankAhead_strict _))]
    intro q
    rw [hentry he, hentry he']
    refine exists_congr fun c => and_congr (hids c) ?_
    rw [standing_withEdges h hfits hcosts]
  have hmap := congrArg (List.map fun p : RelayCandidate => p.nodeId) hsame
  rw [List.map_map, List.map_map] at hmap
  exact hmap

theorem rungs_withEdges {half : Nat} (h : Reordered ctx.edges edges') (hfits : CoverFits ctx r)
    (hcosts : SameCosts ctx (ctx.withEdges edges') r) :
    (earlyRungs (ctx.withEdges edges') r half).map (·.1) = (earlyRungs ctx r half).map (·.1) ∧
      (lateRungs (ctx.withEdges edges') r half).map (·.1) = (lateRungs ctx r half).map (·.1) := by
  obtain ⟨early, late, hearly, hlate, hrungs, hrungs'⟩ := pools_elected ctx r half
  obtain ⟨early', late', hearly', hlate', htaken, htaken'⟩ :=
    pools_elected (ctx.withEdges edges') r half
  rw [hrungs, hrungs', htaken, htaken', Elected.same_withEdges h hfits hcosts hearly hearly',
    Elected.same_withEdges h hfits hcosts hlate hlate']
  exact ⟨rfl, rfl⟩

theorem sortEntries_withEdges (h : Reordered ctx.edges edges') :
    sortEntries r.preferHigh (ackEntries (ctx.withEdges edges') r.source) =
      sortEntries r.preferHigh (ackEntries ctx r.source) := by
  have hentry : acknowledgementEntry (ctx.withEdges edges') = acknowledgementEntry ctx := by
    funext source node
    unfold acknowledgementEntry
    change (if _ then _ else if _ then _ else
      (acknowledgementPriceFixed edges' node source).map _) = _
    rw [h.acknowledgementPriceFixed]
    rfl
  have hperm : (ackEntries (ctx.withEdges edges') r.source).Perm (ackEntries ctx r.source) := by
    unfold ackEntries
    rw [hentry]
    exact ((neighbors_withEdges h).symm.cons ctx.myNode).filterMap _
  obtain ⟨hranked, hsorted⟩ := sortEntries_ranked ctx r
  obtain ⟨hranked', hsorted'⟩ := sortEntries_ranked (ctx.withEdges edges') r
  exact hranked'.unique (ackAhead_strict r.preferHigh) hranked
    (hsorted'.trans (hperm.trans hsorted.symm))

theorem planAcknowledgement_withEdges {half : Nat} (h : Reordered ctx.edges edges') :
    planAcknowledgement (ctx.withEdges edges') r half = planAcknowledgement ctx r half := by
  have hsort := @sortEntries_withEdges ctx r edges' h
  rw [← ackEntries_fit, ← @ackEntries_fit ctx] at hsort
  have hlisted : ((ctx.withEdges edges').edges.findNode (ctx.withEdges edges').myNode).isNone =
      (ctx.edges.findNode ctx.myNode).isNone := by
    rcases h.findNode ctx.myNode with ⟨hs, ht⟩ | ⟨m, n, hs, ht, -⟩
    · rw [hs]
      exact congrArg Option.isNone ht
    · rw [hs]
      exact (congrArg Option.isNone ht).trans rfl
  have hloud : (((ctx.withEdges edges').edges.listed
      (ctx.withEdges edges').myNode).map (·.toNode)).any (fun n => n != 0 && n != r.source && ctx.capability.willNotCancelForUs n &&
        stockCanHearTransmitter edges' n r.heardFrom) =
      ((ctx.edges.listed ctx.myNode).map (·.toNode)).any
        (fun n => n != 0 && n != r.source && ctx.capability.willNotCancelForUs n &&
          stockCanHearTransmitter ctx.edges n r.heardFrom) := by
    rw [stockCanHearTransmitter_withEdges h]
    exact (neighbors_withEdges h).symm.any_eq
  unfold planAcknowledgement
  unfold ackEntries at hsort
  dsimp only
  rw [hsort, hlisted]
  change (if _ then _ else if _ then _ else if (((ctx.withEdges edges').edges.listed
    (ctx.withEdges edges').myNode).map (fun e : Edge => e.toNode)).any (fun n => n != 0 &&
      n != r.source && ctx.capability.willNotCancelForUs n &&
        stockCanHearTransmitter edges' n r.heardFrom) then _ else _) = _
  rw [hloud]
  rfl

end

/-! ## The elections -/

/-- The plan's log behind the ranking: the reserved routers and then the rungs. -/
theorem planRanked_log {half : Nat} : (planRanked ctx r half).ranked =
    ((handedOut ctx r half).map (·.1)).foldl pushLog (planReserved ctx r half).ranked := by
  have hrank : planRanked ctx r half =
      if (planEarly ctx r half).shouldRelay then planEarly ctx r half
      else rankPool ctx r false (planPools ctx r half).2.length (planEarly ctx r half)
        (planPools ctx r half).2 := rfl
  have hearly := @planEarly_ranks ctx r half
  unfold handedOut
  rw [List.map_append, List.foldl_append, ← hearly.ranked, hrank]
  rcases hearly.outcome with ⟨hours, -, -⟩ | ⟨hopen, -, -⟩
  · have hlate : lateRungs ctx r half = [] := if_pos hours.1
    rw [if_pos hours.1, hlate]
    rfl
  · have hclosed : ¬ (planEarly ctx r half).shouldRelay = true := by
      rw [hopen.1]
      exact Bool.false_ne_true
    have hlate := @rankPool_spec ctx r false (planPools ctx r half).2.length
      (planEarly ctx r half) (planPools ctx r half).2 hopen
    rw [if_neg hclosed, hlate.ranked]
    unfold lateRungs
    rw [if_neg hclosed, hearly.covered]

/-- The walk to our entry logs the order up to us. -/
theorem acknowledgementSlot_order {me : UInt32} {half delay : Nat} {entries : List (UInt32 × Nat)}
    {plan plan' : AcknowledgementPlan}
    (h : acknowledgementSlot me half entries delay plan = some plan') :
    plan'.ranked = (cutAfter me (entries.map (·.1))).foldl pushLog plan.ranked ∧
      plan'.slotsGiven + 1 = plan.slotsGiven + (cutAfter me (entries.map (·.1))).length := by
  induction entries generalizing delay plan with
  | nil => cases h
  | cons a entries ih =>
    rw [acknowledgementSlot] at h
    dsimp only at h
    rw [List.map_cons, cutAfter, List.foldl_cons, List.length_cons]
    split at h
    · rename_i hmine
      obtain rfl := Option.some.inj h
      rw [if_pos hmine]
      exact ⟨rfl, rfl⟩
    · rename_i hmine
      rw [if_neg hmine]
      obtain ⟨hranked, hslots⟩ := ih h
      refine ⟨hranked, hslots.trans ?_⟩
      dsimp only
      omega

/-- The acknowledgement plan follows the sort. -/
theorem planAcknowledgement_order {half : Nat} {plan : AcknowledgementPlan}
    (h : planAcknowledgement ctx r half = some plan) :
    plan.ranked = (cutAfter ctx.myNode
        ((sortEntries r.preferHigh (ackEntries ctx r.source)).map (·.1))).foldl pushLog [] ∧
      plan.slotsGiven + 1 = (cutAfter ctx.myNode
        ((sortEntries r.preferHigh (ackEntries ctx r.source)).map (·.1))).length := by
  unfold planAcknowledgement at h
  split at h
  · cases h
  split at h
  · cases h
  dsimp only at h
  split at h
  · cases h
  · have hfit := @ackEntries_fit ctx r.source
    unfold ackEntries at hfit ⊢
    rw [hfit] at h
    obtain ⟨hranked, hslots⟩ := acknowledgementSlot_order h
    exact ⟨hranked, hslots.trans (Nat.zero_add _)⟩

/-- Each pool hands out its usable candidates in rank up to us, the
acknowledgement plan follows its entries in rank up to us, and the owner of a
target is the candidate of least key. The owner and the acknowledgement plan do
not depend on the order of nodes and lists; the pools do not as long as what
counts as covered has a place each, where the candidates' costs are the same. -/
theorem elections_by_rank (ctx : BroadcastRelayContext) (r : PlanRequest) (half : Nat) :
    (∃ early late, Elected ctx r true early ∧ Elected ctx r false late ∧
      (earlyRungs ctx r half).map (·.1) = cutAfter ctx.myNode (early.map (·.nodeId)) ∧
      (lateRungs ctx r half).map (·.1) =
        if ctx.myNode ∈ early.map (·.nodeId) then []
        else cutAfter ctx.myNode (late.map (·.nodeId))) ∧
      (planRanked ctx r half).ranked = ((handedOut ctx r half).map (·.1)).foldl pushLog
        (planReserved ctx r half).ranked ∧
      (∃ order, Ranked (ackAhead r.preferHigh) order ∧ order.Perm (ackEntries ctx r.source) ∧
        ∀ plan, planAcknowledgement ctx r half = some plan →
          plan.ranked = (cutAfter ctx.myNode (order.map (·.1))).foldl pushLog [] ∧
            plan.slotsGiven + 1 = (cutAfter ctx.myNode (order.map (·.1))).length) ∧
      (∀ target, target ≠ 0 → isPlaceholderNode target = false →
        publishesTopology (some ctx.capability) target = false →
          (ctx.owner target = 0 ∧ ownerCandidates ctx.edges ctx.capability ctx.myNode
            ctx.myNodeRelays target = []) ∨
          ∃ key, (key, ctx.owner target) ∈ ownerCandidates ctx.edges ctx.capability ctx.myNode
              ctx.myNodeRelays target ∧
            ∀ a ∈ ownerCandidates ctx.edges ctx.capability ctx.myNode ctx.myNodeRelays target,
              a.2 ≠ ctx.owner target → ownerAhead (key, ctx.owner target) a = true) ∧
      ∀ edges', Reordered ctx.edges edges' →
        (∀ target, (ctx.withEdges edges').owner target = ctx.owner target) ∧
          planAcknowledgement (ctx.withEdges edges') r half = planAcknowledgement ctx r half ∧
          (CoverFits ctx r → SameCosts ctx (ctx.withEdges edges') r →
            (earlyRungs (ctx.withEdges edges') r half).map (·.1) =
                (earlyRungs ctx r half).map (·.1) ∧
              (lateRungs (ctx.withEdges edges') r half).map (·.1) =
                (lateRungs ctx r half).map (·.1)) := by
  obtain ⟨hranked, hperm⟩ := sortEntries_ranked ctx r
  refine ⟨pools_elected ctx r half, planRanked_log,
    ⟨_, hranked, hperm, fun plan h => planAcknowledgement_order h⟩,
    fun target hzero hnamed hlist => coverageOwner_least hzero hnamed hlist, ?_⟩
  intro edges' h
  exact ⟨fun target => congrFun (owner_withEdges h) target, planAcknowledgement_withEdges h,
    fun hfits hcosts => rungs_withEdges h hfits hcosts⟩

/-! ### Two tables -/

theorem coverFits_of_room (hroom : (heardCover ctx r).length < MAX_COVERED) : CoverFits ctx r :=
  ⟨(heardCover ctx r).ids.rows, Nat.le_of_lt hroom, fun _ hn hcredited =>
    (mem_heardCover hn hroom).mpr hcredited⟩

/-- Who lists nobody has no target. -/
theorem uniqueTargets_unlisted {covered : NodeSet MAX_COVERED} {c nowMs : UInt32}
    (h : c ∉ ctx.edges.nodeIds) : uniqueTargets ctx covered c nowMs = [] := by
  have hnone : ctx.edges.findNode c = none := by
    refine List.find?_eq_none.mpr fun n hn hid => h ?_
    exact List.mem_map.mpr ⟨n, hn, beq_iff_eq.mp hid⟩
  unfold uniqueTargets getCoverageIfRelays EdgeStore.listed
  rw [hnone]
  rfl

theorem no_price {covered : NodeSet MAX_COVERED} {source nowMs c : UInt32}
    (h : (uniqueTargets ctx covered c nowMs).isEmpty = true) :
    priceCandidate ctx covered source nowMs c = none := by
  unfold priceCandidate
  rw [List.isEmpty_iff.mp h]

theorem priceCandidate_listed {covered : NodeSet MAX_COVERED} {source nowMs c : UInt32}
    {p : RelayCandidate} (h : priceCandidate ctx covered source nowMs c = some p) :
    c ∈ ctx.edges.nodeIds := by
  by_contra hno
  unfold priceCandidate at h
  rw [uniqueTargets_unlisted hno] at h
  cases h

/-- A mean of one price does not depend on an order. -/
theorem sameCosts_of_single {edges' : EdgeStore} (h : Reordered ctx.edges edges')
    (hfits : CoverFits ctx r)
    (hone : ∀ c, (uniqueTargets ctx (heardCover ctx r) c r.nowMs).length ≤ 1) :
    SameCosts ctx (ctx.withEdges edges') r := by
  intro c p p' hp hp'
  have hperm := uniqueTargets_withEdges h hfits c
  have hlen := hone c
  unfold priceCandidate at hp hp'
  cases hs : uniqueTargets ctx (heardCover ctx r) c r.nowMs with
  | nil =>
    rw [hs] at hp
    cases hp
  | cons t ts =>
    rw [hs] at hp hperm hlen
    obtain rfl : ts = [] := List.length_eq_zero_iff.mp (by rw [List.length_cons] at hlen; omega)
    rw [List.perm_singleton.mp hperm.symm] at hp'
    obtain rfl := Option.some.inj hp
    obtain rfl := Option.some.inj hp'
    dsimp only
    change avgCostFixed ([t].filterMap fun target => deliveryHopCostFixed edges'
      (some ctx.capability) c target r.nowMs ctx.myNode) = _
    rw [h.deliveryHopCostFixed]

/-- The nodes of `stockContext` in another order, with our list turned round. -/
def turnedEdges : EdgeStore where
  nodes := ⟨⟨1, 1000, ⟨[peerEdge 4 true, stockEdge true, peerEdge 2 true], by decide⟩, by decide,
    by decide⟩ :: (stockContext true).edges.nodes.rows.tail.reverse, by decide⟩
  nodup := by decide

theorem turnedEdges_reordered : Reordered (stockContext true).edges turnedEdges where
  nodes := by decide
  lists := by
    intro m hm
    change m ∈ [_, _, _] at hm
    rw [List.mem_cons, List.mem_cons, List.mem_singleton] at hm
    rcases hm with rfl | rfl | rfl
    · exact ⟨_, List.mem_cons_self, rfl, rfl, (List.reverse_perm _).symm⟩
    · exact ⟨_, List.mem_cons_of_mem _ (List.mem_cons_of_mem _ List.mem_cons_self), rfl, rfl, .refl _⟩
    · exact ⟨_, List.mem_cons_of_mem _ List.mem_cons_self, rfl, rfl, .refl _⟩

/-- We are ranked for node 3 from either table. -/
theorem elections_by_rank_turned :
    (lateRungs (stockContext true) stockRequest 91).map (·.1) = [1] ∧
      (lateRungs ((stockContext true).withEdges turnedEdges) stockRequest 91).map (·.1) = [1] := by
  have hfits : CoverFits (stockContext true) stockRequest :=
    coverFits_of_room (by decide +kernel)
  have hone : ∀ c, (uniqueTargets (stockContext true)
      (heardCover (stockContext true) stockRequest) c stockRequest.nowMs).length ≤ 1 := by
    intro c
    by_cases hc : c ∈ (stockContext true).edges.nodeIds
    · change c ∈ [1, 2, 4] at hc
      simp only [List.mem_cons, List.not_mem_nil, or_false] at hc
      rcases hc with rfl | rfl | rfl
      · decide +kernel
      · decide +kernel
      · decide +kernel
    · rw [uniqueTargets_unlisted hc]
      exact Nat.zero_le 1
  obtain ⟨-, -, -, -, hsame⟩ := elections_by_rank (stockContext true) stockRequest 91
  obtain ⟨-, -, hrungs⟩ := hsame turnedEdges turnedEdges_reordered
  have hours : (lateRungs (stockContext true) stockRequest 91).map (·.1) = [1] := by
    decide +kernel
  exact ⟨hours, (hrungs hfits (sameCosts_of_single turnedEdges_reordered hfits hone)).2.trans hours⟩

/-- Node 4 is an active router, and its copy is on the air. -/
def activeRouterContext : BroadcastRelayContext :=
  { stockContext true with
    capability := ⟨⟨[⟨2, .srActive, 0, 1000⟩, ⟨4, .srActive, DEVICE_ROLE_ROUTER, 1000⟩],
      by decide⟩⟩ }

def activeRouterRequest : PlanRequest :=
  { stockRequest with hasTransmitted := fun n => n == 2 || n == 4 }

/-- Two stock routers that hear node 2, 10 and 20; the list of the second ends
with node 3. -/
def crowdedEdges (ours : Table MAX_EDGES_PER_NODE Edge)
    (hids : ∀ e ∈ ours.rows, (1 : UInt32) ≠ 0 ∧ e.toNode ≠ 0 ∧ e.toNode ≠ 1)
    (hours : (ours.rows.map (·.toNode)).Nodup) : EdgeStore where
  nodes := ⟨[⟨1, 1000, ours, hids, hours⟩,
    ⟨10, 1000, ⟨peerEdge 2 true :: (List.range 39).map fun i => peerEdge (101 + .ofNat i) true,
      by decide +kernel⟩, by decide +kernel, by decide +kernel⟩,
    ⟨20, 1000, ⟨peerEdge 2 true :: ((List.range 38).map fun i =>
      peerEdge (201 + .ofNat i) true) ++ [peerEdge 3 true], by decide +kernel⟩, by decide +kernel,
      by decide +kernel⟩], (by decide : 3 ≤ MAX_GRAPH_NODES)⟩
  nodup := (by decide : ([1, 10, 20] : List UInt32).Nodup)

def crowdedContext : BroadcastRelayContext where
  myNode := 1
  myNodeRelays := true
  edges := crowdedEdges ⟨[peerEdge 10 true, peerEdge 20 true, peerEdge 3 true], by decide⟩
    (by decide) (by decide)
  capability := ⟨⟨[⟨2, .srActive, 0, 1000⟩, ⟨10, .legacy, DEVICE_ROLE_ROUTER, 1000⟩,
    ⟨20, .legacy, DEVICE_ROLE_ROUTER, 1000⟩], by decide⟩⟩
  droppedCoverage := .empty
  downstream := .empty

/-- The same with our first two neighbours exchanged. -/
def exchangedEdges : EdgeStore :=
  crowdedEdges ⟨[peerEdge 20 true, peerEdge 10 true, peerEdge 3 true], by decide⟩ (by decide)
    (by decide)

/-- The broadcast of node 2 when both routers have relayed it. -/
def crowdedRequest : PlanRequest :=
  { stockRequest with hasTransmitted := fun n => n == 2 || n == 10 || n == 20 }

theorem exchangedEdges_reordered : Reordered crowdedContext.edges exchangedEdges where
  nodes := .refl _
  lists := by
    intro m hm
    change m ∈ [_, _, _] at hm
    rw [List.mem_cons, List.mem_cons, List.mem_singleton] at hm
    rcases hm with rfl | rfl | rfl
    · exact ⟨_, List.mem_cons_self, rfl, rfl, .swap _ _ _⟩
    · exact ⟨_, List.mem_cons_of_mem _ List.mem_cons_self, rfl, rfl, .refl _⟩
    · exact ⟨_, List.mem_cons_of_mem _ (List.mem_cons_of_mem _ List.mem_cons_self), rfl, rfl,
        .refl _⟩

/-- Nobody has a price from both tables. -/
theorem exchangedEdges_costs :
    SameCosts crowdedContext (crowdedContext.withEdges exchangedEdges) crowdedRequest := by
  intro c p p' hp hp'
  have hc := priceCandidate_listed hp
  change c ∈ [1, 10, 20] at hc
  simp only [List.mem_cons, List.not_mem_nil, or_false] at hc
  rcases hc with rfl | rfl | rfl
  · rw [no_price (by decide +kernel)] at hp'
    cases hp'
  · rw [no_price (by decide +kernel)] at hp
    cases hp
  · rw [no_price (by decide +kernel)] at hp'
    cases hp'

/-- A candidate that has transmitted is not ranked, whatever it covers; and where
the covered nodes do not fit, the order of our list decides who is. -/
theorem elections_depend_on_order :
    (PoolMember activeRouterContext activeRouterRequest 4 ∧
      mayTakeEarlyWindow activeRouterContext 4 = true ∧
      uniqueTargets activeRouterContext (heardCover activeRouterContext activeRouterRequest) 4 1000 =
        [3] ∧
      (earlyRungs activeRouterContext activeRouterRequest 91).map (·.1) = []) ∧
    Reordered crowdedContext.edges exchangedEdges ∧
      SameCosts crowdedContext (crowdedContext.withEdges exchangedEdges) crowdedRequest ∧
      (lateRungs crowdedContext crowdedRequest 91).map (·.1) = [1] ∧
      (lateRungs (crowdedContext.withEdges exchangedEdges) crowdedRequest 91).map (·.1) = [] := by
  refine ⟨⟨⟨?_, ?_⟩, by decide +kernel, by decide +kernel, by decide +kernel⟩,
    exchangedEdges_reordered, exchangedEdges_costs, by decide +kernel, by decide +kernel⟩
  · exact List.contains_iff_mem.mp (by decide +kernel)
  · rintro ⟨-, hpeer⟩
    revert hpeer
    decide +kernel

end Meshrustic.Relay
