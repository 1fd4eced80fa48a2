import Meshrustic.Relay.Agreement
import Meshrustic.Relay.Ladder

/-!
# What a plan hands out (`broadcast_relay.rs:612-709`)

The planner walks our neighbours and reserves a position for each router that
hears the transmitter, then hands a rung to the best candidate of the early
pool until that is empty or we had ours, and then to those of the late pool.
`poolRungs` keeps what `rankPool` forgets: the node and the position of each
rung.

Results:
* `mem_splitLate`: the pools are the candidates by `may_take_early_window`.
* `reserves_covered`, `reserves_positions`, `mem_reserves_candidates`: what
  the walk over the neighbours leaves.
* `planRanked_spec`, `planRanked_cases`: the whole ranking; we have a turn
  exactly when we are usable.
* `rankPool_spec`: a pool's ranking hands out `poolRungs`, and ends at us
  exactly when our own is among them.
-/
namespace Meshrustic.Relay

open Meshrustic.Graph

variable {ctx : BroadcastRelayContext} {r : PlanRequest}

/-! ## The pools -/

/-- Two members of a set of at most one are one. -/
theorem NodeSet.eq_of_length_le_one {cap : Nat} {s : NodeSet cap} {x y : UInt32}
    (h : s.length ≤ 1) (hx : x ∈ s) (hy : y ∈ s) : x = y := by
  obtain ⟨i, hi, rfl⟩ := List.mem_iff_getElem.mp hx
  obtain ⟨j, hj, rfl⟩ := List.mem_iff_getElem.mp hy
  have hij : i = j := by
    change s.ids.rows.length ≤ 1 at h
    omega
  subst hij
  rfl

/-- The entries before a removed one stay. -/
theorem NodeSet.erase_getElem? {cap i j : Nat} {s : NodeSet cap} {x : UInt32}
    (hi : s.ids.rows[i]? = some x) (hj : j < i) : (s.erase x).ids.rows[j]? = s.ids.rows[j]? := by
  obtain ⟨hlt, hx⟩ := List.getElem?_eq_some_iff.mp hi
  have hidx : s.ids.rows.idxOf? x = some i := by
    rw [List.idxOf?, List.findIdx?_eq_some_iff_getElem]
    refine ⟨hlt, by simpa using hx, fun k hk => ?_⟩
    have hne : s.ids.rows[k] ≠ s.ids.rows[i] := fun heq =>
      absurd ((List.Nodup.getElem_inj_iff s.nodup).mp heq) (Nat.ne_of_lt hk)
    rw [hx] at hne
    simpa using hne
  show (s.eraseRows x).rows[j]? = _
  unfold NodeSet.eraseRows
  rw [hidx]
  exact s.ids.swapRemove_getElem? hlt hj

/-- The early pool is the candidates that may take the early window, the late
one the others. -/
theorem splitLate_sides {fuel i : Nat} {candidates late : NodeSet MAX_CANDIDATES}
    (hfuel : candidates.length ≤ fuel + i)
    (hpassed : ∀ j < i, ∀ x, candidates.ids.rows[j]? = some x → mayTakeEarlyWindow ctx x = true)
    (hlate : ∀ x ∈ late, mayTakeEarlyWindow ctx x = false) :
    (∀ x ∈ (splitLate ctx fuel i candidates late).1,
        x ∈ candidates ∧ mayTakeEarlyWindow ctx x = true) ∧
      ∀ x ∈ (splitLate ctx fuel i candidates late).2,
        (x ∈ candidates ∨ x ∈ late) ∧ mayTakeEarlyWindow ctx x = false := by
  induction fuel generalizing i candidates late with
  | zero =>
    refine ⟨fun x hx => ⟨hx, ?_⟩, fun x hx => ⟨.inr hx, hlate x hx⟩⟩
    change x ∈ candidates at hx
    obtain ⟨j, hj⟩ := List.mem_iff_getElem?.mp hx
    have hlt := (List.getElem?_eq_some_iff.mp hj).1
    exact hpassed j (by unfold NodeSet.length at hfuel; omega) x hj
  | succ fuel ih =>
    rw [splitLate]
    cases hid : candidates.ids.rows[i]? with
    | none =>
      refine ⟨fun x hx => ⟨hx, ?_⟩, fun x hx => ⟨.inr hx, hlate x hx⟩⟩
      change x ∈ candidates at hx
      obtain ⟨j, hj⟩ := List.mem_iff_getElem?.mp hx
      have hlt := (List.getElem?_eq_some_iff.mp hj).1
      have hend := List.getElem?_eq_none_iff.mp hid
      exact hpassed j (by omega) x hj
    | some id =>
      have hmem : id ∈ candidates := List.mem_of_getElem? hid
      dsimp only
      by_cases hearly : mayTakeEarlyWindow ctx id = true
      · rw [if_pos hearly]
        refine ih (by omega) (fun j hj x hx => ?_) hlate
        by_cases hji : j = i
        · subst hji
          rw [hid, Option.some.injEq] at hx
          exact hx ▸ hearly
        · exact hpassed j (by omega) x hx
      · rw [if_neg hearly]
        rw [Bool.not_eq_true] at hearly
        have hlen := NodeSet.length_erase hmem
        have hins : ∀ x ∈ late.insert id, x = id ∨ x ∈ late := fun x hx =>
          NodeSet.mem_insert_cases hx
        obtain ⟨hfirst, hsecond⟩ := @ih i (candidates.erase id) (late.insert id) (by omega)
          (fun j hj x hx => hpassed j hj x (NodeSet.erase_getElem? hid hj ▸ hx))
          (fun x hx => (hins x hx).elim (fun h => h ▸ hearly) (hlate x))
        refine ⟨fun x hx => ?_, fun x hx => ?_⟩
        · obtain ⟨hx', he⟩ := hfirst x hx
          exact ⟨(NodeSet.mem_erase.mp hx').2, he⟩
        · obtain ⟨hx', he⟩ := hsecond x hx
          refine ⟨?_, he⟩
          rcases hx' with hx' | hx'
          · exact .inl (NodeSet.mem_erase.mp hx').2
          · rcases hins x hx' with rfl | hx'
            · exact .inl hmem
            · exact .inr hx'

/-- The candidates by pool. -/
theorem mem_splitLate {x : UInt32} (candidates : NodeSet MAX_CANDIDATES) :
    (x ∈ (splitLate ctx candidates.length 0 candidates .new).1 ↔
        x ∈ candidates ∧ mayTakeEarlyWindow ctx x = true) ∧
      (x ∈ (splitLate ctx candidates.length 0 candidates .new).2 ↔
        x ∈ candidates ∧ mayTakeEarlyWindow ctx x = false) := by
  have hnew : ∀ y, y ∉ (NodeSet.new : NodeSet MAX_CANDIDATES) := fun _ => List.not_mem_nil
  obtain ⟨hfirst, hsecond⟩ := @splitLate_sides ctx candidates.length 0 candidates .new
    (Nat.le_refl _) (fun _ h => absurd h (Nat.not_lt_zero _)) fun y hy => absurd hy (hnew y)
  have hboth := fun h => @splitLate_mem ctx x candidates.length 0 candidates .new
    candidates.ids.le (.inl h)
  have hsecond' : x ∈ (splitLate ctx candidates.length 0 candidates .new).2 →
      x ∈ candidates ∧ mayTakeEarlyWindow ctx x = false := fun hx =>
    ⟨(hsecond x hx).1.resolve_right (hnew x), (hsecond x hx).2⟩
  refine ⟨⟨hfirst x, fun ⟨hx, he⟩ => ?_⟩, ⟨hsecond', fun ⟨hx, he⟩ => ?_⟩⟩
  · refine (hboth hx).resolve_right fun h => ?_
    rw [(hsecond' h).2] at he
    cases he
  · refine (hboth hx).resolve_left fun h => ?_
    rw [(hfirst x h).2] at he
    cases he

/-! ## The walk over the neighbours -/

/-- A neighbour that the walk takes off the candidates. -/
def isRouterPeer (ctx : BroadcastRelayContext) (r : PlanRequest) (n : UInt32) : Bool :=
  !(n == 0 || n == r.heardFrom || n == r.source) && ctx.capability.isImmediateRelayRouter n

/-- A neighbour that the walk gives a reserved position. -/
def isReserved (ctx : BroadcastRelayContext) (r : PlanRequest) (n : UInt32) : Bool :=
  isRouterPeer ctx r n && stockCanHearTransmitter ctx.edges n r.heardFrom

/-- The three ways a neighbour is walked over. -/
theorem reserve_cases (st : PlanState) (n : UInt32) :
    (isRouterPeer ctx r n = false ∧ reserve ctx r st n = st) ∨
      (isRouterPeer ctx r n = true ∧ isReserved ctx r n = false ∧
        reserve ctx r st n = { st with candidates := st.candidates.erase n }) ∨
      (isRouterPeer ctx r n = true ∧ isReserved ctx r n = true ∧
        (reserve ctx r st n).candidates = st.candidates.erase n ∧
        (reserve ctx r st n).covered = (if r.hasTransmitted n then
          absorbRelayCoverage ctx st.covered n r.nowMs else st.covered) ∧
        (reserve ctx r st n).positions = st.positions.takeReserved.2 ∧
        ((reserve ctx r st n).shouldRelay, (reserve ctx r st n).reason) =
          (st.shouldRelay, st.reason)) := by
  unfold reserve isReserved isRouterPeer
  by_cases hends : (n == 0 || n == r.heardFrom || n == r.source) = true
  · rw [if_pos hends, hends]
    exact .inl ⟨rfl, rfl⟩
  rw [if_neg hends]
  rw [Bool.not_eq_true] at hends
  rw [hends]
  cases hrouter : ctx.capability.isImmediateRelayRouter n with
  | false => exact .inl ⟨rfl, rfl⟩
  | true =>
    right
    cases hhear : stockCanHearTransmitter ctx.edges n r.heardFrom with
    | false => exact .inl ⟨rfl, rfl, rfl⟩
    | true =>
      right
      cases htx : r.hasTransmitted n with
      | false => exact ⟨rfl, rfl, rfl, rfl, rfl, rfl⟩
      | true => exact ⟨rfl, rfl, rfl, rfl, rfl, rfl⟩

variable {ns : List UInt32}

theorem reserves_open {st : PlanState} (hopen : Open st) : Open (ns.foldl (reserve ctx r) st) := by
  induction ns generalizing st with
  | nil => exact hopen
  | cons n ns ih =>
    refine ih ?_
    rcases @reserve_cases ctx r st n with ⟨-, h⟩ | ⟨-, -, h⟩ | ⟨-, -, -, -, -, h⟩
    · rw [h]
      exact hopen
    · rw [h]
      exact hopen
    · obtain ⟨hshould, hreason⟩ := Prod.mk.inj h
      exact ⟨hshould.trans hopen.1, hreason.trans hopen.2⟩

/-- No router among our neighbours is left a candidate. -/
theorem mem_reserves_candidates {st : PlanState} {x : UInt32} :
    x ∈ (ns.foldl (reserve ctx r) st).candidates ↔
      x ∈ st.candidates ∧ ¬ (x ∈ ns ∧ isRouterPeer ctx r x = true) := by
  induction ns generalizing st with
  | nil => simp
  | cons n ns ih =>
    have hstep : x ∈ (reserve ctx r st n).candidates ↔
        x ∈ st.candidates ∧ ¬ (x = n ∧ isRouterPeer ctx r x = true) := by
      rcases @reserve_cases ctx r st n with ⟨hn, h⟩ | ⟨hn, -, h⟩ | ⟨hn, -, h, -⟩
      · rw [h]
        refine ⟨fun hx => ⟨hx, ?_⟩, And.left⟩
        rintro ⟨rfl, hr⟩
        rw [hn] at hr
        cases hr
      all_goals
        rw [h, NodeSet.mem_erase]
        refine ⟨fun hx => ⟨hx.2, fun h => hx.1 h.1⟩, fun hx => ⟨?_, hx.1⟩⟩
        rintro rfl
        exact hx.2 ⟨rfl, hn⟩
    rw [List.foldl_cons, ih, hstep, List.mem_cons]
    constructor
    · rintro ⟨⟨hx, hhead⟩, htail⟩
      refine ⟨hx, fun h => ?_⟩
      rcases h.1 with heq | hin
      · exact hhead ⟨heq, h.2⟩
      · exact htail ⟨hin, h.2⟩
    · rintro ⟨hx, hall⟩
      exact ⟨⟨hx, fun h => hall ⟨.inl h.1, h.2⟩⟩, fun h => hall ⟨.inr h.1, h.2⟩⟩

/-- What is covered behind the walk: the copies of reserved routers on the air
are credited. -/
theorem reserves_covered {st : PlanState} :
    (ns.foldl (reserve ctx r) st).covered =
      (ns.filter fun n => isReserved ctx r n && r.hasTransmitted n).foldl
        (fun covered n => absorbRelayCoverage ctx covered n r.nowMs) st.covered := by
  induction ns generalizing st with
  | nil => rfl
  | cons n ns ih =>
    rw [List.foldl_cons, ih]
    rcases @reserve_cases ctx r st n with ⟨hn, h⟩ | ⟨-, hn, h⟩ | ⟨-, hn, -, h, -⟩
    · have hnot : isReserved ctx r n = false := by
        unfold isReserved
        rw [hn, Bool.false_and]
      rw [List.filter_cons_of_neg (by simp [hnot]), h]
    · rw [List.filter_cons_of_neg (by simp [hn]), h]
    · rw [h]
      cases htx : r.hasTransmitted n with
      | false => rw [List.filter_cons_of_neg (by simp [htx]), if_neg Bool.false_ne_true]
      | true => rw [List.filter_cons_of_pos (by simp [hn, htx]), if_pos rfl, List.foldl_cons]

/-- The allocator behind a row of calls. -/
def allotted (ts : List Take) (p : PositionAllocator) : PositionAllocator :=
  ts.foldl (fun p t => (t.on p).2) p

/-- Each reserved router takes a position, heard or not. -/
theorem reserves_positions {st : PlanState} :
    (ns.foldl (reserve ctx r) st).positions =
      allotted (List.replicate (ns.countP (isReserved ctx r)) .reserved) st.positions := by
  induction ns generalizing st with
  | nil => rfl
  | cons n ns ih =>
    rw [List.foldl_cons, ih]
    rcases @reserve_cases ctx r st n with ⟨hn, h⟩ | ⟨-, hn, h⟩ | ⟨-, hn, -, -, h, -⟩
    · have hnot : isReserved ctx r n = false := by
        unfold isReserved
        rw [hn, Bool.false_and]
      rw [List.countP_cons_of_neg (by simp [hnot]), h]
    · rw [List.countP_cons_of_neg (by simp [hn]), h]
    · rw [List.countP_cons_of_pos hn, List.replicate_succ, h]
      rfl

/-! ## The rungs -/

/-- The call a pool makes for each of its rungs. -/
def rungTake (early : Bool) : Take := if early then .rung else .lateRung

/-- The rungs that ranking a pool hands out, each with its node: the turns of
`rankPool` that take a position. Nobody on record is chosen, so the coverage
stays. -/
def poolRungs (ctx : BroadcastRelayContext) (r : PlanRequest) (covered : NodeSet MAX_COVERED)
    (early : Bool) : Nat → PositionAllocator → NodeSet MAX_CANDIDATES → List (UInt32 × Nat)
  | 0, _, _ => []
  | fuel + 1, positions, pool =>
    let best := findBestRelayCandidate ctx r pool covered
    if best.nodeId == 0 then []
    else
      let taken := (rungTake early).on positions
      (best.nodeId, taken.1) ::
        if best.nodeId == ctx.myNode then []
        else poolRungs ctx r covered early fuel taken.2 (pool.erase best.nodeId)

theorem assigned_append (as bs : List Take) (p : PositionAllocator) :
    assigned (as ++ bs) p = assigned as p ++ assigned bs (allotted as p) := by
  induction as generalizing p with
  | nil => rfl
  | cons t ts ih => exact congrArg ((t, (t.on p).1) :: ·) (ih _)

theorem allotted_append (as bs : List Take) (p : PositionAllocator) :
    allotted (as ++ bs) p = allotted bs (allotted as p) := List.foldl_append

/-- What the ranking of a pool from `st` has done at `st'`, having handed out
`rungs`. -/
structure Ranks (ctx : BroadcastRelayContext) (r : PlanRequest) (early : Bool)
    (rungs : List (UInt32 × Nat)) (st st' : PlanState) : Prop where
  positions : st'.positions = allotted (List.replicate rungs.length (rungTake early)) st.positions
  covered : st'.covered = st.covered
  ranked : st'.ranked = (rungs.map (·.1)).foldl pushLog st.ranked
  outcome :
    (Ours st' ∧ (∃ ahead, rungs = ahead ++ [(ctx.myNode, st'.myDelay)]) ∧
        st'.coverageFor ∈ uniqueTargets ctx st.covered ctx.myNode r.nowMs) ∨
      (Open st' ∧ ctx.myNode ∉ rungs.map (·.1) ∧ st'.slotsGiven = st.slotsGiven + rungs.length)

/-- A turn that hands a rung to somebody else, and then the rest. -/
theorem Ranks.cons {early : Bool} {rungs : List (UInt32 × Nat)} {st st₁ st' : PlanState} {n : UInt32}
    (h : Ranks ctx r early rungs st₁ st')
    (hpositions : st₁.positions = ((rungTake early).on st.positions).2)
    (hcovered : st₁.covered = st.covered) (hranked : st₁.ranked = pushLog st.ranked n)
    (hslots : st₁.slotsGiven = st.slotsGiven + 1) (hn : n ≠ ctx.myNode) :
    Ranks ctx r early ((n, ((rungTake early).on st.positions).1) :: rungs) st st' where
  positions := by
    rw [h.positions, hpositions]
    rfl
  covered := h.covered.trans hcovered
  ranked := by
    rw [h.ranked, hranked]
    rfl
  outcome := by
    rcases h.outcome with ⟨hours, ⟨ahead, hlast⟩, hfor⟩ | ⟨hopen, hnot, hgiven⟩
    · refine .inl ⟨hours, ⟨(n, ((rungTake early).on st.positions).1) :: ahead, ?_⟩,
        hcovered ▸ hfor⟩
      rw [hlast]
      rfl
    · refine .inr ⟨hopen, ?_, ?_⟩
      · rw [List.map_cons, List.mem_cons, not_or]
        exact ⟨Ne.symm hn, hnot⟩
      · rw [hgiven, hslots, List.length_cons]
        omega

theorem priceCandidate_some {covered : NodeSet MAX_COVERED} {c : UInt32} {p : RelayCandidate}
    (h : priceCandidate ctx covered r.source r.nowMs c = some p) :
    p.nodeId = c ∧ p.coverageFor ∈ uniqueTargets ctx covered c r.nowMs := by
  unfold priceCandidate at h
  cases hu : uniqueTargets ctx covered c r.nowMs with
  | nil =>
    rw [hu] at h
    cases h
  | cons first rest =>
    rw [hu] at h
    cases h
    exact ⟨rfl, List.mem_cons_self⟩

theorem considerCandidate_coverageFor {covered : NodeSet MAX_COVERED} {best : RelayCandidate}
    {c : UInt32} (h : best.nodeId ≠ 0 →
      best.coverageFor ∈ uniqueTargets ctx covered best.nodeId r.nowMs)
    (hne : (considerCandidate ctx r covered best c).nodeId ≠ 0) :
    (considerCandidate ctx r covered best c).coverageFor ∈
      uniqueTargets ctx covered (considerCandidate ctx r covered best c).nodeId r.nowMs := by
  have hkept : considerCandidate ctx r covered best c = best ∨
      ∃ p, priceCandidate ctx covered r.source r.nowMs c = some p ∧
        considerCandidate ctx r covered best c = p := by
    unfold considerCandidate
    split
    · exact .inl rfl
    · split
      · exact .inl rfl
      · rename_i p hp
        split
        · exact .inr ⟨p, hp, rfl⟩
        · exact .inl rfl
  rcases hkept with hkeep | ⟨p, hp, hkeep⟩
  · rw [hkeep] at hne ⊢
    exact h hne
  · obtain ⟨hid, hfor⟩ := priceCandidate_some hp
    rw [hkeep, hid]
    exact hfor

/-- The target noted for the best candidate is one it adds. -/
theorem findBest_coverageFor {pool : NodeSet MAX_CANDIDATES} {covered : NodeSet MAX_COVERED}
    (hne : (findBestRelayCandidate ctx r pool covered).nodeId ≠ 0) :
    (findBestRelayCandidate ctx r pool covered).coverageFor ∈ uniqueTargets ctx covered
      (findBestRelayCandidate ctx r pool covered).nodeId r.nowMs := by
  unfold findBestRelayCandidate at hne ⊢
  have hscan : ∀ (rows : List UInt32) (best : RelayCandidate),
      (best.nodeId ≠ 0 → best.coverageFor ∈ uniqueTargets ctx covered best.nodeId r.nowMs) →
      (rows.foldl (considerCandidate ctx r covered) best).nodeId ≠ 0 →
      (rows.foldl (considerCandidate ctx r covered) best).coverageFor ∈
        uniqueTargets ctx covered (rows.foldl (considerCandidate ctx r covered) best).nodeId
          r.nowMs := by
    intro rows
    induction rows with
    | nil => exact fun best h => h
    | cons c rows ih => exact fun best h => ih _ (considerCandidate_coverageFor h)
  exact hscan _ _ (fun h => absurd rfl h) hne

theorem rankPool_spec {early : Bool} {fuel : Nat} {st : PlanState} {pool : NodeSet MAX_CANDIDATES}
    (hopen : Open st) :
    Ranks ctx r early (poolRungs ctx r st.covered early fuel st.positions pool) st
      (rankPool ctx r early fuel st pool) := by
  induction fuel generalizing st pool with
  | zero => exact ⟨rfl, rfl, rfl, .inr ⟨hopen, List.not_mem_nil, rfl⟩⟩
  | succ fuel ih =>
    rw [rankPool, poolRungs]
    rcases @findBest_cases ctx r pool st.covered with ⟨hzero, -⟩ | ⟨hne, hmem, husable⟩
    · simp only [hzero, beq_self_eq_true, if_true]
      split
      · exact ⟨rfl, rfl, rfl, .inr ⟨hopen, List.not_mem_nil, rfl⟩⟩
      · exact ⟨rfl, rfl, rfl, .inr ⟨hopen, List.not_mem_nil, rfl⟩⟩
    · have hsome : pool.length ≠ 0 := Nat.ne_of_gt (List.length_pos_of_mem hmem)
      have hnext := fun st' hopen' => @ih st'
        (pool.erase (findBestRelayCandidate ctx r pool st.covered).nodeId) hopen'
      rw [if_neg (by simpa using hne), if_neg (by simpa using hsome), if_neg (by simpa using hne),
        if_neg (by rw [husable.1]; exact Bool.false_ne_true)]
      dsimp only
      have htake : (if early = true then st.positions.takeRung else st.positions.takeLateRung) =
          (rungTake early).on st.positions := by
        cases early with
        | true => rfl
        | false => rfl
      rw [htake]
      by_cases hmine : (findBestRelayCandidate ctx r pool st.covered).nodeId = ctx.myNode
      · rw [if_pos (by simpa using hmine), if_pos (by simpa using hmine), hmine]
        have hfor := findBest_coverageFor hne
        rw [hmine] at hfor
        exact ⟨rfl, rfl, rfl, .inl ⟨⟨rfl, rfl⟩, ⟨[], rfl⟩, hfor⟩⟩
      · rw [if_neg (by simpa using hmine), if_neg (by simpa using hmine)]
        let st₁ : PlanState := { st with
          evaluated := if st.firstPick then evaluatedOf ctx r pool st.covered else st.evaluated
          firstPick := false
          ranked := pushLog st.ranked (findBestRelayCandidate ctx r pool st.covered).nodeId
          positions := ((rungTake early).on st.positions).2
          slotsGiven := st.slotsGiven + 1 }
        exact Ranks.cons (hnext st₁ hopen) rfl rfl rfl rfl hmine

theorem mem_poolRungs {covered : NodeSet MAX_COVERED} {early : Bool} {fuel : Nat}
    {p : PositionAllocator} {pool : NodeSet MAX_CANDIDATES} {a : UInt32 × Nat}
    (h : a ∈ poolRungs ctx r covered early fuel p pool) : a.1 ∈ pool ∧ Usable ctx r covered a.1 := by
  induction fuel generalizing p pool with
  | zero => exact absurd h List.not_mem_nil
  | succ fuel ih =>
    rw [poolRungs] at h
    rcases @findBest_cases ctx r pool covered with ⟨hzero, -⟩ | ⟨hne, hmem, husable⟩
    · rw [if_pos (by simpa using hzero)] at h
      exact absurd h List.not_mem_nil
    · rw [if_neg (by simpa using hne)] at h
      rcases List.mem_cons.mp h with rfl | h
      · exact ⟨hmem, husable⟩
      · split at h
        · exact absurd h List.not_mem_nil
        · obtain ⟨hin, hu⟩ := ih h
          exact ⟨(NodeSet.mem_erase.mp hin).2, hu⟩

/-- A pool hands out no rung exactly when nobody in it is usable. -/
theorem poolRungs_eq_nil_iff {covered : NodeSet MAX_COVERED} {early : Bool} {fuel : Nat}
    {p : PositionAllocator} {pool : NodeSet MAX_CANDIDATES} (hfuel : pool.length ≤ fuel) :
    poolRungs ctx r covered early fuel p pool = [] ↔ ∀ c ∈ pool, ¬ Usable ctx r covered c := by
  cases fuel with
  | zero =>
    refine ⟨fun _ c hc => ?_, fun _ => rfl⟩
    have : 0 < pool.length := List.length_pos_of_mem hc
    omega
  | succ fuel =>
    rw [poolRungs]
    rcases @findBest_cases ctx r pool covered with ⟨hzero, hnone⟩ | ⟨hne, hmem, husable⟩
    · rw [if_pos (by simpa using hzero)]
      exact ⟨fun _ => hnone, fun _ => rfl⟩
    · rw [if_neg (by simpa using hne)]
      refine ⟨fun h => ?_, fun h => absurd husable (h _ hmem)⟩
      cases h

theorem poolRungs_length (covered : NodeSet MAX_COVERED) (early : Bool) (fuel : Nat)
    (p : PositionAllocator) (pool : NodeSet MAX_CANDIDATES) :
    (poolRungs ctx r covered early fuel p pool).length ≤ fuel := by
  induction fuel generalizing p pool with
  | zero => exact Nat.le_refl _
  | succ fuel ih =>
    rw [poolRungs]
    split
    · exact Nat.zero_le _
    · refine Nat.succ_le_succ ?_
      split
      · exact Nat.zero_le _
      · exact ih _ _

/-- The positions are those of as many calls. -/
theorem poolRungs_assigned (covered : NodeSet MAX_COVERED) (early : Bool) (fuel : Nat)
    (p : PositionAllocator) (pool : NodeSet MAX_CANDIDATES) :
    assigned (List.replicate (poolRungs ctx r covered early fuel p pool).length (rungTake early)) p =
      (poolRungs ctx r covered early fuel p pool).map fun a => (rungTake early, a.2) := by
  induction fuel generalizing p pool with
  | zero => rfl
  | succ fuel ih =>
    rw [poolRungs]
    split
    · rfl
    · dsimp only
      rw [List.length_cons, List.replicate_succ, List.map_cons, assigned]
      split
      · rfl
      · rw [ih]

/-! ## The whole plan -/

/-- The planner's variables behind the walk over the neighbours. -/
def planReserved (ctx : BroadcastRelayContext) (r : PlanRequest) (half : Nat) : PlanState :=
  ((ctx.edges.listed ctx.myNode).map (·.toNode)).foldl (reserve ctx r) (planStart ctx r half)

/-- The early pool and the late one. -/
def planPools (ctx : BroadcastRelayContext) (r : PlanRequest) (half : Nat) :
    NodeSet MAX_CANDIDATES × NodeSet MAX_CANDIDATES :=
  splitLate ctx (planReserved ctx r half).candidates.length 0 (planReserved ctx r half).candidates
    .new

def earlyRungs (ctx : BroadcastRelayContext) (r : PlanRequest) (half : Nat) : List (UInt32 × Nat) :=
  poolRungs ctx r (planReserved ctx r half).covered true (planPools ctx r half).1.length
    (planReserved ctx r half).positions (planPools ctx r half).1

/-- The planner's variables behind the early pool. -/
def planEarly (ctx : BroadcastRelayContext) (r : PlanRequest) (half : Nat) : PlanState :=
  rankPool ctx r true (planPools ctx r half).1.length (planReserved ctx r half)
    (planPools ctx r half).1

/-- The late pool has its turn unless ours came in the early one. -/
def lateRungs (ctx : BroadcastRelayContext) (r : PlanRequest) (half : Nat) : List (UInt32 × Nat) :=
  if (planEarly ctx r half).shouldRelay then []
  else
    poolRungs ctx r (planReserved ctx r half).covered false (planPools ctx r half).2.length
      (planEarly ctx r half).positions (planPools ctx r half).2

/-- Every rung of a plan: a ranked node with its position. -/
def handedOut (ctx : BroadcastRelayContext) (r : PlanRequest) (half : Nat) : List (UInt32 × Nat) :=
  earlyRungs ctx r half ++ lateRungs ctx r half

/-- The calls of a plan to its allocator. -/
def planTakes (ctx : BroadcastRelayContext) (r : PlanRequest) (half : Nat) : List Take :=
  List.replicate (((ctx.edges.listed ctx.myNode).map (·.toNode)).countP (isReserved ctx r))
      .reserved ++
    (List.replicate (earlyRungs ctx r half).length .rung ++
      List.replicate (lateRungs ctx r half).length .lateRung)

variable {half : Nat}

theorem planReserved_open : Open (planReserved ctx r half) := reserves_open ⟨rfl, rfl⟩

theorem planReserved_positions : (planReserved ctx r half).positions =
    allotted (List.replicate
      (((ctx.edges.listed ctx.myNode).map (·.toNode)).countP (isReserved ctx r)) .reserved)
      (.new r.slotTimeMs half) := reserves_positions

theorem planEarly_ranks :
    Ranks ctx r true (earlyRungs ctx r half) (planReserved ctx r half) (planEarly ctx r half) :=
  rankPool_spec planReserved_open

/-- The ranking ends with our own rung as the last one or without a decision. -/
structure Planned (ctx : BroadcastRelayContext) (r : PlanRequest) (half : Nat) (st : PlanState) :
    Prop where
  positions : st.positions = allotted (planTakes ctx r half) (.new r.slotTimeMs half)
  covered : st.covered = (planReserved ctx r half).covered
  outcome :
    (Ours st ∧ (∃ ahead, handedOut ctx r half = ahead ++ [(ctx.myNode, st.myDelay)]) ∧
        st.coverageFor ∈ uniqueTargets ctx (planReserved ctx r half).covered ctx.myNode r.nowMs) ∨
      (Open st ∧ ctx.myNode ∉ (handedOut ctx r half).map (·.1) ∧
        (handedOut ctx r half).length ≤ st.slotsGiven)

theorem planRanked_spec : Planned ctx r half (planRanked ctx r half) := by
  have hrank : planRanked ctx r half =
      if (planEarly ctx r half).shouldRelay then planEarly ctx r half
      else rankPool ctx r false (planPools ctx r half).2.length (planEarly ctx r half)
        (planPools ctx r half).2 := rfl
  have hearly := @planEarly_ranks ctx r half
  have hpositions : (planEarly ctx r half).positions = allotted
      (List.replicate (((ctx.edges.listed ctx.myNode).map (·.toNode)).countP (isReserved ctx r))
        .reserved ++ List.replicate (earlyRungs ctx r half).length .rung)
      (.new r.slotTimeMs half) := by
    rw [hearly.positions, planReserved_positions, allotted_append]
    rfl
  rcases hearly.outcome with ⟨hours, hlast, hfor⟩ | ⟨hopen, hnot, hgiven⟩
  · have hlate : lateRungs ctx r half = [] := if_pos hours.1
    have hall : handedOut ctx r half = earlyRungs ctx r half := by
      unfold handedOut
      rw [hlate, List.append_nil]
    rw [hrank, if_pos hours.1]
    refine ⟨?_, hearly.covered, .inl ⟨hours, hall ▸ hlast, hfor⟩⟩
    rw [hpositions]
    unfold planTakes
    rw [hlate, List.length_nil, List.replicate_zero, List.append_nil]
  · have hclosed : ¬ (planEarly ctx r half).shouldRelay = true := by
      rw [hopen.1]
      exact Bool.false_ne_true
    have hlate : Ranks ctx r false (lateRungs ctx r half) (planEarly ctx r half)
        (planRanked ctx r half) := by
      rw [hrank, if_neg hclosed]
      unfold lateRungs
      rw [if_neg hclosed, ← hearly.covered]
      exact rankPool_spec hopen
    refine ⟨?_, hlate.covered.trans hearly.covered, ?_⟩
    · rw [hlate.positions, hpositions, ← allotted_append]
      unfold planTakes
      rw [List.append_assoc]
      rfl
    · rcases hlate.outcome with ⟨hours, ⟨ahead, hlast⟩, hfor⟩ | ⟨hopen', hnot', hgiven'⟩
      · refine .inl ⟨hours, ⟨earlyRungs ctx r half ++ ahead, ?_⟩, hearly.covered ▸ hfor⟩
        unfold handedOut
        rw [hlast, List.append_assoc]
      · refine .inr ⟨hopen', ?_, ?_⟩
        · unfold handedOut
          rw [List.map_append, List.mem_append, not_or]
          exact ⟨hnot, hnot'⟩
        · unfold handedOut
          rw [List.length_append]
          omega

/-- The positions of the rungs, behind those of the reservations. -/
theorem assigned_planTakes : assigned (planTakes ctx r half) (.new r.slotTimeMs half) =
    assigned (List.replicate
        (((ctx.edges.listed ctx.myNode).map (·.toNode)).countP (isReserved ctx r)) .reserved)
        (.new r.slotTimeMs half) ++
      ((earlyRungs ctx r half).map (fun a => (.rung, a.2)) ++
        (lateRungs ctx r half).map fun a => (.lateRung, a.2)) := by
  unfold planTakes
  rw [assigned_append, assigned_append, ← planReserved_positions]
  congr 1
  congr 1
  · exact poolRungs_assigned _ true _ _ _
  · have hpositions := (@planEarly_ranks ctx r half).positions
    change _ = allotted (List.replicate (earlyRungs ctx r half).length .rung) _ at hpositions
    rw [← hpositions]
    unfold lateRungs
    split
    · rfl
    · exact poolRungs_assigned _ false _ _ _

/-- The spacing of a plan's rungs. -/
def rungHalf (r : PlanRequest) : Nat := max r.halfAirtimeMs MIN_RUNG_SPACING_MS

/-- A candidate that no pool loses to the walk over the routers. -/
def PoolMember (ctx : BroadcastRelayContext) (r : PlanRequest) (c : UInt32) : Prop :=
  c ∈ buildCandidates ctx r.source r.heardFrom ∧
    ¬ (c ∈ (ctx.edges.listed ctx.myNode).map (·.toNode) ∧ isRouterPeer ctx r c = true)

theorem mem_planPools {half : Nat} {c : UInt32} :
    (c ∈ (planPools ctx r half).1 ↔ PoolMember ctx r c ∧ mayTakeEarlyWindow ctx c = true) ∧
      (c ∈ (planPools ctx r half).2 ↔ PoolMember ctx r c ∧ mayTakeEarlyWindow ctx c = false) := by
  have hmem : c ∈ (planReserved ctx r half).candidates ↔ PoolMember ctx r c :=
    mem_reserves_candidates
  rw [← hmem]
  exact mem_splitLate _

/-- Every candidate but us is one of our neighbours. -/
theorem candidate_listed {source heardFrom c : UInt32}
    (h : c ∈ buildCandidates ctx source heardFrom) :
    c = ctx.myNode ∨ c ∈ (ctx.edges.listed ctx.myNode).map (·.toNode) := by
  have hfold : ∀ (xs : List UInt32) (s : NodeSet MAX_CANDIDATES), c ∈ xs.foldl NodeSet.insert s →
      c ∈ s ∨ c ∈ xs := by
    intro xs
    induction xs with
    | nil => exact fun s hc => .inl hc
    | cons x xs ih =>
      intro s hc
      rcases ih _ hc with hc | hc
      · rcases NodeSet.mem_insert_cases hc with rfl | hc
        · exact .inr List.mem_cons_self
        · exact .inl hc
      · exact .inr (List.mem_cons_of_mem _ hc)
  rcases hfold _ _ h with hc | hc
  · exact absurd hc List.not_mem_nil
  · rcases List.mem_cons.mp hc with hc | hc
    · exact .inl hc
    · obtain ⟨e, he, rfl⟩ := List.mem_map.mp hc
      exact .inr (List.mem_map.mpr ⟨e, (List.mem_filter.mp he).1, rfl⟩)

/-- Somebody usable publishes a list, so has a number. -/
theorem usable_ne_zero {covered : NodeSet MAX_COVERED} {n : UInt32}
    (h : Usable ctx r covered n) : n ≠ 0 := by
  obtain ⟨t, ht⟩ := List.exists_mem_of_ne_nil _ h.2
  unfold uniqueTargets getCoverageIfRelays at ht
  obtain ⟨e, he, -⟩ := List.mem_filterMap.mp (List.mem_filter.mp ht).1
  exact (EdgeStore.listed_ids he).1

/-- We have a turn exactly when we are usable. -/
theorem planRanked_cases {half : Nat} :
    (Usable ctx r (planReserved ctx r half).covered ctx.myNode ∧ Ours (planRanked ctx r half)) ∨
      (¬ Usable ctx r (planReserved ctx r half).covered ctx.myNode ∧
        Open (planRanked ctx r half)) := by
  refine @rank_cases ctx r (planReserved ctx r half) planReserved_open fun husable => ?_
  refine mem_reserves_candidates.mpr ⟨mem_buildCandidates _ _ (usable_ne_zero husable), ?_⟩
  rintro ⟨hmem, -⟩
  obtain ⟨e, he, heq⟩ := List.mem_map.mp hmem
  exact (EdgeStore.listed_ids he).2.2 heq

end Meshrustic.Relay
