import Meshrustic.Relay.Rungs

/-!
# Our own position against the rungs handed out

Ranked, our position is the last rung of the ladder. In the downstream and the
sparse fallback it is `first_free_ms`, which asks the window alone whether
anything has been handed out: with nothing placed in the window it answers
with the ladder's origin, late rungs or not.

Results:
* `unsaturated_of_low`: nothing saturates in the calls of a plan.
* `allotted_atLeast`: the allocator is a gap behind all it has handed out.
* `own_slot_clear_iff`: our position keeps half an airtime off every rung of
  another node unless we are the recorded gateway, nobody is placed in the
  window and a late rung is out (`FallbackBlind`).
* `gateway_on_first_late_rung`: then it is that rung.
-/
namespace Meshrustic.Relay

open Meshrustic.Graph

/-! ## Nothing saturates -/

/-- How far the allocator is after `n` calls. -/
structure Low (slot half n : Nat) (p : PositionAllocator) : Prop where
  cursor : p.window.cursorMs ≤ n * (slot + half)
  last : ∀ last ∈ p.window.lastPlacedEndMs, last ≤ n * (slot + half)
  start : ∀ start ∈ p.ladderStartMs, start ≤ (n + 17) * (slot + half)
  index : p.nextIndex ≤ n

namespace Low

variable {slot half n : Nat} {p : PositionAllocator}

theorem origin (h : Low slot half n p) (hinv : p.Inv slot half) :
    p.ladderStartMs.getD p.window.firstRungMs ≤ (n + 17) * (slot + half) := by
  cases hstart : p.ladderStartMs with
  | some start => exact h.start start hstart
  | none =>
    have hfloor : relayFloorMs slot ≤ 16 * slot := Nat.mod_le _ _
    have hslots : 16 * slot ≤ 16 * (slot + half) := Nat.mul_le_mul_left _ (Nat.le_add_right _ _)
    have hsum : (n + 17) * (slot + half) = n * (slot + half) + 16 * (slot + half) + (slot + half) := by
      rw [Nat.add_mul, Nat.succ_mul 16, Nat.add_assoc]
    rw [Option.getD_none]
    unfold WindowLayout.firstRungMs
    rw [hinv.slotTime, hinv.windowHalf]
    cases hlast : p.window.lastPlacedEndMs with
    | none =>
      dsimp only
      omega
    | some last =>
      have := h.last last hlast
      dsimp only
      omega

theorem spillExact (h : Low slot half n p) (hinv : p.Inv slot half)
    (hfit : (2 * n + 17) * (slot + half) ≤ U32_MAX) : p.SpillExact := by
  have horigin := h.origin hinv
  have hrungs : (p.nextIndex - p.window.placed) * p.halfAirtimeMs ≤ n * (slot + half) := by
    rw [hinv.halfAirtime]
    exact Nat.mul_le_mul (Nat.le_trans (Nat.sub_le _ _) h.index) (Nat.le_add_left _ _)
  have hsum : (2 * n + 17) * (slot + half) = n * (slot + half) + (n + 17) * (slot + half) := by
    rw [← Nat.add_mul]
    congr 1
    omega
  have hone : (n + 17) * (slot + half) = n * (slot + half) + 17 * (slot + half) := Nat.add_mul _ _ _
  refine ⟨fun _ last hlast => ?_, by omega⟩
  have := h.last last hlast
  rw [hinv.windowHalf]
  omega

theorem placeExact (h : Low slot half n p) (hinv : p.Inv slot half)
    (hfit : (2 * n + 17) * (slot + half) ≤ U32_MAX) {widthMs : Nat} (hwide : widthMs ≤ slot + half) :
    p.PlaceExact widthMs := by
  unfold PositionAllocator.PlaceExact
  rcases hplace : p.window.place widthMs with ⟨_ | pos, w⟩
  · exact h.spillExact hinv hfit
  · have hpos := (WindowLayout.place_some hplace).1
    have hcursor := h.cursor
    have hsum : (2 * n + 17) * (slot + half) = 2 * (n * (slot + half)) + 17 * (slot + half) := by
      rw [Nat.add_mul, Nat.mul_assoc]
    dsimp only
    omega

theorem exact (h : Low slot half n p) (hinv : p.Inv slot half)
    (hfit : (2 * n + 17) * (slot + half) ≤ U32_MAX) (t : Take) : t.Exact p := by
  cases t with
  | reserved => exact h.placeExact hinv hfit (hinv.slotTime ▸ Nat.le_add_right _ _)
  | rung => exact h.placeExact hinv hfit (hinv.windowHalf ▸ Nat.le_add_left _ _)
  | lateRung => exact h.spillExact hinv hfit

theorem onLadder (h : Low slot half n p) (hinv : p.Inv slot half) :
    Low slot half (n + 1) p.onLadder.2 := by
  have hgrow : n * (slot + half) ≤ (n + 1) * (slot + half) :=
    Nat.mul_le_mul_right _ (Nat.le_succ n)
  refine ⟨Nat.le_trans h.cursor hgrow, fun last hlast => Nat.le_trans (h.last last hlast) hgrow,
    fun start hstart => ?_, Nat.succ_le_succ h.index⟩
  have horigin := h.origin hinv
  rw [Option.mem_def] at hstart
  obtain rfl := Option.some.inj hstart
  exact Nat.le_trans horigin (Nat.mul_le_mul_right _ (by omega))

theorem place (h : Low slot half n p) (hinv : p.Inv slot half) {t : Take} {widthMs : Nat}
    (hwide : widthMs ≤ slot + half) (hon : t.on p = p.take (p.window.place widthMs)) :
    Low slot half (n + 1) (t.on p).2 := by
  rw [hon]
  rcases hplace : p.window.place widthMs with ⟨_ | pos, w⟩
  · exact h.onLadder hinv
  · obtain ⟨hpos, -, hw⟩ := WindowLayout.place_some hplace
    have hcursor := h.cursor
    have hsum : (n + 1) * (slot + half) = n * (slot + half) + (slot + half) := Nat.succ_mul _ _
    refine ⟨?_, fun last hlast => ?_, fun start hstart => ?_, Nat.succ_le_succ h.index⟩
    · change w.cursorMs ≤ _
      rw [hw]
      dsimp only
      omega
    · change last ∈ w.lastPlacedEndMs at hlast
      rw [hw] at hlast
      obtain rfl := Option.some.inj hlast
      omega
    · exact Nat.le_trans (h.start start hstart) (Nat.mul_le_mul_right _ (by omega))

theorem step (h : Low slot half n p) (hinv : p.Inv slot half) (t : Take) :
    Low slot half (n + 1) (t.on p).2 := by
  cases t with
  | reserved => exact h.place hinv (hinv.slotTime ▸ Nat.le_add_right _ _) rfl
  | rung => exact h.place hinv (hinv.windowHalf ▸ Nat.le_add_left _ _) rfl
  | lateRung => exact h.onLadder hinv

theorem new (slot half : Nat) : Low slot half 0 (.new slot half) where
  cursor := Nat.zero_le _
  last _ h := by cases h
  start _ h := by cases h
  index := Nat.le_refl _

end Low

/-! ## Rows of calls -/

theorem PositionAllocator.AtLeast.mono {p : PositionAllocator} {x y : Nat} (h : p.AtLeast y)
    (hxy : x ≤ y) : p.AtLeast x :=
  ⟨Nat.le_trans hxy h.ladder, fun hopen => Nat.le_trans hxy (h.window hopen)⟩

/-- What a row of calls leaves: an allocator behind everything it came with and
everything it has handed out. -/
structure Row (slot half n : Nat) (ts : List Take) (p : PositionAllocator) : Prop where
  exact : Unsaturated ts p
  inv : (allotted ts p).Inv slot half
  low : Low slot half (n + ts.length) (allotted ts p)
  keeps : ∀ x, p.AtLeast x → (allotted ts p).AtLeast x
  behind : ∀ a ∈ assigned ts p, (allotted ts p).AtLeast (a.2 + a.1.gap half)

theorem row_spec {slot half n : Nat} (hhalf : 0 < half) {ts : List Take} {p : PositionAllocator}
    (h : p.Inv slot half) (hlow : Low slot half n p)
    (hshut : ∀ t ∈ ts, t ≠ .lateRung → p.Shut)
    (hlast : ts.Pairwise fun a b => a = .lateRung → b = .lateRung)
    (hfit : (2 * (n + ts.length) + 17) * (slot + half) ≤ U32_MAX) : Row slot half n ts p := by
  induction ts generalizing n p with
  | nil => exact ⟨trivial, h, hlow, fun _ hx => hx, fun a ha => absurd ha List.not_mem_nil⟩
  | cons t ts ih =>
    obtain ⟨hlater, hrest⟩ := List.pairwise_cons.mp hlast
    rw [List.length_cons] at hfit
    have hexact : t.Exact p := hlow.exact h
      (Nat.le_trans (Nat.mul_le_mul_right _ (by omega)) hfit) t
    have hstep := PositionAllocator.take_steps hhalf h (hshut t List.mem_cons_self) hexact
    have hshut' : ∀ u ∈ ts, u ≠ .lateRung → (t.on p).2.Shut := fun u hu hne =>
      hstep.shut fun ht => hne (hlater u hu ht)
    have hrow := ih hstep.inv (hlow.step h t) hshut' hrest
      (Nat.le_trans (Nat.mul_le_mul_right _ (by omega)) hfit)
    refine ⟨⟨hexact, hrow.exact⟩, hrow.inv, ?_, fun x hx => ?_, fun a ha => ?_⟩
    · rw [List.length_cons, Nat.add_comm ts.length, ← Nat.add_assoc]
      exact hrow.low
    · refine hrow.keeps x (hstep.keepsOff.mono ?_)
      have := hstep.behind x hx
      omega
    · rcases List.mem_cons.mp ha with rfl | ha
      · exact hrow.keeps _ hstep.keepsOff
      · exact hrow.behind a ha

/-- `first_free_ms` behind a row of calls that placed something in the window:
a gap behind all of them. -/
theorem Row.firstFree {slot half n : Nat} {ts : List Take} {p : PositionAllocator}
    (h : Row slot half n ts p) (hfit : (2 * (n + ts.length) + 17) * (slot + half) ≤ U32_MAX)
    (hplaced : (allotted ts p).window.lastPlacedEndMs.isSome = true) :
    ∀ a ∈ assigned ts p, a.2 + a.1.gap half ≤ (allotted ts p).firstFreeMs := by
  intro a ha
  have hfree : (allotted ts p).firstFreeMs = (allotted ts p).onLadder.1 := by
    unfold PositionAllocator.firstFreeMs
    rw [if_neg (by simpa using Option.isSome_iff_ne_none.mp hplaced)]
    rfl
  rw [hfree, PositionAllocator.onLadder_pos (h.low.spillExact h.inv hfit)]
  exact (h.behind a ha).ladder

/-- Something placed in the window stays. -/
theorem placed_stays {p : PositionAllocator} (h : p.window.lastPlacedEndMs.isSome = true)
    (t : Take) : (t.on p).2.window.lastPlacedEndMs.isSome = true := by
  have hplace : ∀ widthMs,
      (p.take (p.window.place widthMs)).2.window.lastPlacedEndMs.isSome = true := by
    intro widthMs
    rcases hw : p.window.place widthMs with ⟨_ | pos, w⟩
    · exact h
    · change w.lastPlacedEndMs.isSome = true
      rw [(WindowLayout.place_some hw).2.2]
      rfl
  cases t with
  | reserved => exact hplace _
  | rung => exact hplace _
  | lateRung => exact h

/-- A new window takes the first reservation or rung. -/
theorem first_placed {slot half : Nat} (hslot : 0 < slot) {t : Take} (ht : t ≠ .lateRung) :
    (t.on (.new slot half)).2.window.lastPlacedEndMs.isSome = true := by
  have hwide : ¬ (WindowLayout.new slot half).widthMs ≤ (WindowLayout.new slot half).cursorMs := by
    change ¬ min (slot * WINDOW_POSITIONS) U32_MAX ≤ 0
    have : 0 < slot * WINDOW_POSITIONS := Nat.mul_pos hslot (by decide)
    have : 0 < U32_MAX := by decide
    omega
  have hroom : ¬ WINDOW_POSITIONS ≤ (WindowLayout.new slot half).placed := by
    change ¬ WINDOW_POSITIONS ≤ 0
    decide
  have hplace : ∀ widthMs, ((PositionAllocator.new slot half).take
      ((WindowLayout.new slot half).place widthMs)).2.window.lastPlacedEndMs.isSome = true := by
    intro widthMs
    unfold WindowLayout.place
    rw [if_neg hroom, if_neg hwide]
    rfl
  cases t with
  | reserved => exact hplace _
  | rung => exact hplace _
  | lateRung => exact absurd rfl ht

theorem allotted_placed {slot half : Nat} (hslot : 0 < slot) {ts : List Take}
    (h : ∃ t ts', ts = t :: ts' ∧ t ≠ .lateRung) :
    (allotted ts (.new slot half)).window.lastPlacedEndMs.isSome = true := by
  obtain ⟨t, ts', rfl, ht⟩ := h
  have hrun : ∀ (ts : List Take) (p : PositionAllocator),
      p.window.lastPlacedEndMs.isSome = true →
      (allotted ts p).window.lastPlacedEndMs.isSome = true := by
    intro ts
    induction ts with
    | nil => exact fun p hp => hp
    | cons t ts ih => exact fun p hp => ih _ (placed_stays hp t)
  exact hrun ts' _ (first_placed hslot ht)

/-- Late rungs alone leave the window as it was: `first_free_ms` is the origin
of the ladder, which is also the first late rung. -/
theorem allotted_late (slot half l : Nat) :
    (allotted (List.replicate l .lateRung) (.new slot half)).window = .new slot half := by
  have hrun : ∀ p : PositionAllocator,
      (allotted (List.replicate l .lateRung) p).window = p.window := by
    induction l with
    | zero => exact fun _ => rfl
    | succ l ih => exact fun p => ih _
  exact hrun _

theorem late_overlap (slot half l : Nat) :
    (allotted (List.replicate l .lateRung) (.new slot half)).firstFreeMs = relayFloorMs slot ∧
      (Take.lateRung.on (.new slot half)).1 = relayFloorMs slot := by
  constructor
  · unfold PositionAllocator.firstFreeMs
    rw [allotted_late]
    rfl
  · change min (relayFloorMs slot + min (0 * half) U32_MAX) U32_MAX = _
    have hlt : relayFloorMs slot < UInt32.size := Nat.mod_lt _ (by decide)
    unfold U32_MAX
    unfold UInt32.size at hlt
    omega

/-! ## Our own position -/

variable {ctx : BroadcastRelayContext} {r : PlanRequest}

/-- The times as the callers have them: a slot takes time, and slots and frames
are no longer than hours.
mirrors crates/mesh-routing/src/coordinated_relay.rs:18-24 -/
structure Timely (r : PlanRequest) : Prop where
  slot : 0 < r.slotTimeMs
  short : 512 * (r.slotTimeMs + rungHalf r) ≤ U32_MAX

/-- If we relay, half an airtime lies between our position and any rung handed
to another node. -/
def OwnSlotClear (ctx : BroadcastRelayContext) (r : PlanRequest) : Prop :=
  (planBroadcastRelay ctx r).shouldRelay = true →
    ∀ a ∈ handedOut ctx r (rungHalf r), a.1 ≠ ctx.myNode →
      a.2 + rungHalf r ≤ (planBroadcastRelay ctx r).slotDelayMs ∨
        (planBroadcastRelay ctx r).slotDelayMs + rungHalf r ≤ a.2

/-- We are the recorded gateway and add no coverage; no router is reserved and
nobody ranks in the early window, but somebody does behind it. -/
structure FallbackBlind (ctx : BroadcastRelayContext) (r : PlanRequest) : Prop where
  gateway : getRelay ctx.downstream r.source r.nowMs DOWNSTREAM_TTL_MS = some ctx.myNode ∨
    getRelay ctx.downstream r.broadcastDest r.nowMs DOWNSTREAM_TTL_MS = some ctx.myNode
  unserved : ¬ Usable ctx r (buildAlreadyCovered ctx r.source r.heardFrom) ctx.myNode
  unreserved : ∀ e ∈ ctx.edges.listed ctx.myNode, isReserved ctx r e.toNode = false
  noEarly : ∀ c, PoolMember ctx r c → mayTakeEarlyWindow ctx c = true →
    ¬ Usable ctx r (buildAlreadyCovered ctx r.source r.heardFrom) c
  late : ∃ c, PoolMember ctx r c ∧ mayTakeEarlyWindow ctx c = false ∧
    Usable ctx r (buildAlreadyCovered ctx r.source r.heardFrom) c

/-- A recorded gateway without a turn takes `first_free_ms`. -/
theorem relayDownstream_gateway {st : PlanState} (hopen : Open st)
    (hgate : getRelay ctx.downstream r.source r.nowMs DOWNSTREAM_TTL_MS = some ctx.myNode ∨
      getRelay ctx.downstream r.broadcastDest r.nowMs DOWNSTREAM_TTL_MS = some ctx.myNode) :
    relayDownstream ctx r st = { st with
      shouldRelay := true
      reason := .downstream
      mySlotIndex := st.positions.nextIndex
      myDelay := st.positions.firstFreeMs } := by
  unfold relayDownstream
  rw [if_pos (by simpa [hopen.1] using hgate)]

/-- The planner's variables after the fallbacks that look at the ladder. -/
theorem ladder_fallback {initial half : Nat} {st : PlanState} (hopen : Open st)
    (hslots : 0 < st.slotsGiven)
    (hrelay : (relayAcknowledgement ctx r half
      (relaySparse initial (relayDownstream ctx r st))).shouldRelay = true) :
    (relayAcknowledgement ctx r half (relaySparse initial (relayDownstream ctx r st))).myDelay =
        st.positions.firstFreeMs ∧
      (getRelay ctx.downstream r.source r.nowMs DOWNSTREAM_TTL_MS = some ctx.myNode ∨
        getRelay ctx.downstream r.broadcastDest r.nowMs DOWNSTREAM_TTL_MS = some ctx.myNode ∨
        initial ≤ 1) := by
  by_cases hgate : getRelay ctx.downstream r.source r.nowMs DOWNSTREAM_TTL_MS = some ctx.myNode ∨
      getRelay ctx.downstream r.broadcastDest r.nowMs DOWNSTREAM_TTL_MS = some ctx.myNode
  · rw [relayDownstream_gateway hopen hgate, decided_keeps _ _ rfl]
    exact ⟨rfl, hgate.imp_right .inl⟩
  · have hdown : relayDownstream ctx r st = st := by
      unfold relayDownstream
      rw [if_neg (by simp [hgate])]
    rw [hdown] at hrelay ⊢
    by_cases hfew : initial ≤ 1
    · have hsparse : relaySparse initial st = { st with
          shouldRelay := true
          reason := .sparse
          mySlotIndex := st.positions.nextIndex
          myDelay := st.positions.firstFreeMs } := by
        unfold relaySparse
        rw [if_pos (by simp [hopen.1, hfew])]
      rw [hsparse]
      exact ⟨rfl, .inr (.inr hfew)⟩
    · have hsparse : relaySparse initial st = st := by
        unfold relaySparse
        rw [if_neg (by simp [hfew])]
      have hack : relayAcknowledgement ctx r half st = st := by
        unfold relayAcknowledgement
        rw [if_neg (by simp [Nat.ne_of_gt hslots])]
      rw [hsparse, hack, hopen.1] at hrelay
      cases hrelay

/-! ## The condition -/

theorem planTakes_late {half : Nat} :
    (planTakes ctx r half).Pairwise fun a b => a = .lateRung → b = .lateRung := by
  unfold planTakes
  rw [← List.append_assoc]
  refine pairwise_staged (fun t ht => ?_) fun t ht => List.eq_of_mem_replicate ht
  rcases List.mem_append.mp ht with ht | ht
  · rw [List.eq_of_mem_replicate ht]
    decide
  · rw [List.eq_of_mem_replicate ht]
    decide

/-- The row of calls behind a plan. -/
theorem plan_row (htime : Timely r) :
    (2 * (0 + (planTakes ctx r (rungHalf r)).length) + 17) * (r.slotTimeMs + rungHalf r) ≤ U32_MAX ∧
      Row r.slotTimeMs (rungHalf r) 0 (planTakes ctx r (rungHalf r))
        (.new r.slotTimeMs (rungHalf r)) := by
  have hcount : ((ctx.edges.listed ctx.myNode).map (·.toNode)).countP (isReserved ctx r) ≤ 40 := by
    refine Nat.le_trans List.countP_le_length ?_
    rw [List.length_map]
    exact EdgeStore.listed_length
  have hearly : (earlyRungs ctx r (rungHalf r)).length ≤ MAX_CANDIDATES :=
    Nat.le_trans (poolRungs_length _ _ _ _ _) (planPools ctx r (rungHalf r)).1.ids.le
  have hlate : (lateRungs ctx r (rungHalf r)).length ≤ MAX_CANDIDATES := by
    unfold lateRungs
    split
    · exact Nat.zero_le _
    · exact Nat.le_trans (poolRungs_length _ _ _ _ _) (planPools ctx r (rungHalf r)).2.ids.le
  have hlen : (planTakes ctx r (rungHalf r)).length ≤ 128 := by
    unfold planTakes
    rw [List.length_append, List.length_append, List.length_replicate, List.length_replicate,
      List.length_replicate]
    change _ ≤ 44 at hearly hlate
    omega
  have hfit := Nat.le_trans (Nat.mul_le_mul_right (r.slotTimeMs + rungHalf r)
    (show 2 * (0 + (planTakes ctx r (rungHalf r)).length) + 17 ≤ 512 by omega)) htime.short
  have hhalf : 0 < rungHalf r := Nat.lt_of_lt_of_le (by decide) (Nat.le_max_right _ _)
  refine ⟨hfit, row_spec hhalf (PositionAllocator.new_inv _ _) (Low.new _ _)
    (fun _ _ _ => PositionAllocator.new_shut _ _) planTakes_late hfit⟩

/-- The position of a rung among those of all calls. -/
theorem handedOut_assigned {half : Nat} {a : UInt32 × Nat} (h : a ∈ handedOut ctx r half) :
    ∃ t : Take, t.isRanked = true ∧
      (t, a.2) ∈ assigned (planTakes ctx r half) (.new r.slotTimeMs half) := by
  rw [assigned_planTakes]
  rcases List.mem_append.mp h with h | h
  · exact ⟨.rung, rfl, List.mem_append_right _ (List.mem_append_left _
      (List.mem_map.mpr ⟨a, h, rfl⟩))⟩
  · exact ⟨.lateRung, rfl, List.mem_append_right _ (List.mem_append_right _
      (List.mem_map.mpr ⟨a, h, rfl⟩))⟩

/-- The rungs of a plan are half an airtime apart, in the order they are
handed out. -/
theorem handedOut_spaced (htime : Timely r) :
    (handedOut ctx r (rungHalf r)).Pairwise fun a b => a.2 + rungHalf r ≤ b.2 := by
  have hhalf : 0 < rungHalf r := Nat.lt_of_lt_of_le (by decide) (Nat.le_max_right _ _)
  obtain ⟨-, hrow⟩ := @plan_row ctx r htime
  have hspaced := (assigned_spaced hhalf (PositionAllocator.new_inv _ _)
    (fun _ _ _ => PositionAllocator.new_shut _ _) planTakes_late hrow.exact).2.1
  rw [assigned_planTakes] at hspaced
  obtain ⟨hearly, hlate, hcross⟩ := List.pairwise_append.mp (List.pairwise_append.mp hspaced).2.1
  unfold handedOut
  rw [List.pairwise_append]
  refine ⟨List.pairwise_map.mp hearly, List.pairwise_map.mp hlate, fun a ha b hb => ?_⟩
  exact hcross _ (List.mem_map.mpr ⟨a, ha, rfl⟩) _ (List.mem_map.mpr ⟨b, hb, rfl⟩)

/-- Without a reserved router the walk changes neither the coverage nor the
allocator. -/
theorem unreserved_walk {half : Nat}
    (h : ∀ e ∈ ctx.edges.listed ctx.myNode, isReserved ctx r e.toNode = false) :
    (planReserved ctx r half).covered = buildAlreadyCovered ctx r.source r.heardFrom ∧
      ((ctx.edges.listed ctx.myNode).map (·.toNode)).countP (isReserved ctx r) = 0 := by
  have hnone : ∀ n ∈ (ctx.edges.listed ctx.myNode).map (·.toNode),
      ¬ isReserved ctx r n = true := by
    intro n hn
    obtain ⟨e, he, rfl⟩ := List.mem_map.mp hn
    rw [h e he]
    exact Bool.false_ne_true
  refine ⟨?_, List.countP_eq_zero.mpr hnone⟩
  unfold planReserved
  rw [reserves_covered, List.filter_eq_nil_iff.mpr]
  · rfl
  · intro n hn
    rw [Bool.and_eq_true, not_and]
    exact fun hres => absurd hres (hnone n hn)

/-- The window is empty behind a plan's calls only if no router is reserved and
nobody ranks early. -/
theorem nothing_placed {half : Nat} (hslot : 0 < r.slotTimeMs)
    (h : ¬ (allotted (planTakes ctx r half)
      (.new r.slotTimeMs half)).window.lastPlacedEndMs.isSome = true) :
    (∀ e ∈ ctx.edges.listed ctx.myNode, isReserved ctx r e.toNode = false) ∧
      earlyRungs ctx r half = [] := by
  have hcount : ((ctx.edges.listed ctx.myNode).map (·.toNode)).countP (isReserved ctx r) = 0 := by
    by_contra hne
    obtain ⟨k, hk⟩ := Nat.exists_eq_succ_of_ne_zero hne
    have htakes : planTakes ctx r half = .reserved :: (List.replicate k .reserved ++
        (List.replicate (earlyRungs ctx r half).length .rung ++
          List.replicate (lateRungs ctx r half).length .lateRung)) := by
      unfold planTakes
      rw [hk, List.replicate_succ, List.cons_append]
    exact h (allotted_placed hslot ⟨.reserved, _, htakes, by decide⟩)
  refine ⟨fun e he => ?_, ?_⟩
  · rw [List.countP_eq_zero] at hcount
    have := hcount e.toNode (List.mem_map.mpr ⟨e, he, rfl⟩)
    simpa using this
  · by_contra hne
    obtain ⟨k, hk⟩ := Nat.exists_eq_succ_of_ne_zero (mt List.length_eq_zero_iff.mp hne)
    have htakes : planTakes ctx r half = .rung :: (List.replicate k .rung ++
        List.replicate (lateRungs ctx r half).length .lateRung) := by
      unfold planTakes
      rw [hcount, hk, List.replicate_succ, List.replicate_zero, List.nil_append, List.cons_append]
    exact h (allotted_placed hslot ⟨.rung, _, htakes, by decide⟩)

/-- A plan that is not `FallbackBlind` keeps our position clear. -/
theorem clear_of_not_blind (htime : Timely r) (h : ¬ FallbackBlind ctx r) : OwnSlotClear ctx r := by
  intro hrelay a ha hne
  obtain ⟨hfit, hrow⟩ := @plan_row ctx r htime
  have hspec := @planRanked_spec ctx r (rungHalf r)
  rcases hspec.outcome with ⟨hours, ⟨ahead, hlast⟩, -⟩ | ⟨hopen, -, hgiven⟩
  · have hplan : (planBroadcastRelay ctx r).slotDelayMs = (planRanked ctx r (rungHalf r)).myDelay :=
      congrArg PlanState.myDelay (fallbacks_keep _ _ hours.1)
    have hspaced := @handedOut_spaced ctx r htime
    rw [hlast] at ha hspaced
    rcases List.mem_append.mp ha with ha | ha
    · left
      rw [hplan]
      exact (List.pairwise_append.mp hspaced).2.2 a ha _ List.mem_cons_self
    · rw [List.mem_singleton] at ha
      exact absurd (congrArg Prod.fst ha) hne
  · have hsome : 0 < (handedOut ctx r (rungHalf r)).length := List.length_pos_of_mem ha
    obtain ⟨hdelay, hreason⟩ := ladder_fallback hopen (Nat.lt_of_lt_of_le hsome hgiven) hrelay
    have hplan : (planBroadcastRelay ctx r).slotDelayMs =
        (planRanked ctx r (rungHalf r)).positions.firstFreeMs := hdelay
    left
    rw [hplan, hspec.positions]
    obtain ⟨t, hranked, hassigned⟩ := handedOut_assigned ha
    by_cases hplaced : (allotted (planTakes ctx r (rungHalf r))
        (.new r.slotTimeMs (rungHalf r))).window.lastPlacedEndMs.isSome = true
    · have := hrow.firstFree hfit hplaced _ hassigned
      rwa [Take.gap_of_isRanked hranked] at this
    · refine absurd ?_ h
      obtain ⟨hunreserved, hearly⟩ := nothing_placed htime.slot hplaced
      obtain ⟨hcovered, -⟩ := @unreserved_walk ctx r (rungHalf r) hunreserved
      unfold handedOut lateRungs at ha
      rw [hearly, List.nil_append] at ha
      split at ha
      · exact absurd ha List.not_mem_nil
      obtain ⟨hpool, husable⟩ := mem_poolRungs ha
      obtain ⟨hmember, hlate⟩ := mem_planPools.2.mp hpool
      refine ⟨?_, ?_, hunreserved, fun c hc hwindow => ?_, ⟨a.1, hmember, hlate, hcovered ▸ husable⟩⟩
      · rcases hreason with hreason | hreason | hfew
        · exact .inl hreason
        · exact .inr hreason
        · have hlisted := (candidate_listed hmember.1).resolve_left hne
          obtain ⟨e, he, -⟩ := List.mem_map.mp hlisted
          have hme := mem_buildCandidates r.source r.heardFrom (EdgeStore.listed_ids he).1
          exact absurd (NodeSet.eq_of_length_le_one hfew hmember.1 hme) hne
      · rcases @planRanked_cases ctx r (rungHalf r) with ⟨-, hours⟩ | ⟨hnot, -⟩
        · exact absurd (hopen.1.symm.trans hours.1) Bool.false_ne_true
        · exact hcovered ▸ hnot
      · have hnone := (poolRungs_eq_nil_iff (Nat.le_refl _)).mp hearly c
          (mem_planPools.1.mpr ⟨hc, hwindow⟩)
        exact hcovered ▸ hnone

/-- A blind fallback's ladder: nothing before the first late rung, which lies at
its origin. -/
theorem blind_ladder (h : FallbackBlind ctx r) :
    (∃ a ∈ handedOut ctx r (rungHalf r), a.2 = relayFloorMs r.slotTimeMs) ∧
      (planRanked ctx r (rungHalf r)).positions.firstFreeMs = relayFloorMs r.slotTimeMs := by
  obtain ⟨hcovered, hcount⟩ := @unreserved_walk ctx r (rungHalf r) h.unreserved
  have hearly : earlyRungs ctx r (rungHalf r) = [] := by
    refine (poolRungs_eq_nil_iff (Nat.le_refl _)).mpr fun c hc => ?_
    obtain ⟨hmember, hwindow⟩ := mem_planPools.1.mp hc
    rw [hcovered]
    exact h.noEarly c hmember hwindow
  have hranks := @planEarly_ranks ctx r (rungHalf r)
  rw [hearly] at hranks
  have hpositions : (planEarly ctx r (rungHalf r)).positions =
      .new r.slotTimeMs (rungHalf r) := by
    rw [hranks.positions, planReserved_positions, hcount]
    rfl
  have hturn : ¬ (planEarly ctx r (rungHalf r)).shouldRelay = true := by
    rcases hranks.outcome with ⟨-, ⟨ahead, hlast⟩, -⟩ | ⟨hopen', -, -⟩
    · simp at hlast
    · rw [hopen'.1]
      exact Bool.false_ne_true
  have hlate : lateRungs ctx r (rungHalf r) =
      poolRungs ctx r (planReserved ctx r (rungHalf r)).covered false
        (planPools ctx r (rungHalf r)).2.length (.new r.slotTimeMs (rungHalf r))
        (planPools ctx r (rungHalf r)).2 := by
    unfold lateRungs
    rw [if_neg hturn, hpositions]
  cases hrungs : lateRungs ctx r (rungHalf r) with
  | nil =>
    rw [hlate] at hrungs
    obtain ⟨c, hc, hwindow, husable⟩ := h.late
    have hnone := (poolRungs_eq_nil_iff (Nat.le_refl _)).mp hrungs c
      (mem_planPools.2.mpr ⟨hc, hwindow⟩)
    exact absurd (hcovered ▸ husable) hnone
  | cons a rest =>
    obtain ⟨horigin, hfirst⟩ := late_overlap r.slotTimeMs (rungHalf r) (rest.length + 1)
    refine ⟨⟨a, ?_, ?_⟩, ?_⟩
    · unfold handedOut
      rw [hrungs]
      exact List.mem_append_right _ List.mem_cons_self
    · have hassigned := @poolRungs_assigned ctx r (planReserved ctx r (rungHalf r)).covered false
        (planPools ctx r (rungHalf r)).2.length (.new r.slotTimeMs (rungHalf r))
        (planPools ctx r (rungHalf r)).2
      rw [← hlate, hrungs, List.length_cons, List.replicate_succ, assigned, List.map_cons]
        at hassigned
      rw [← hfirst]
      exact (congrArg Prod.snd (List.cons.inj hassigned).1).symm
    · rw [planRanked_spec.positions]
      unfold planTakes
      rw [hcount, hearly, hrungs]
      exact horigin

/-- The recorded gateway answers with the first late rung. -/
theorem gateway_on_first_late_rung (h : FallbackBlind ctx r) :
    (planBroadcastRelay ctx r).shouldRelay = true ∧
      ∃ a ∈ handedOut ctx r (rungHalf r), a.1 ≠ ctx.myNode ∧
        (planBroadcastRelay ctx r).slotDelayMs = a.2 := by
  obtain ⟨hcovered, -⟩ := @unreserved_walk ctx r (rungHalf r) h.unreserved
  obtain ⟨⟨a, ha, hat⟩, hfree⟩ := blind_ladder h
  have hopen : Open (planRanked ctx r (rungHalf r)) := by
    rcases @planRanked_cases ctx r (rungHalf r) with ⟨husable, -⟩ | ⟨-, hopen⟩
    · exact absurd (hcovered ▸ husable) h.unserved
    · exact hopen
  have hplan := @decided_keeps ctx r (planStart ctx r (rungHalf r)).candidates.length (rungHalf r)
    (relayDownstream ctx r (planRanked ctx r (rungHalf r)))
  rw [relayDownstream_gateway hopen h.gateway] at hplan
  have hnot : ctx.myNode ∉ (handedOut ctx r (rungHalf r)).map (·.1) := by
    rcases planRanked_spec.outcome with ⟨hours, -⟩ | ⟨-, hnot, -⟩
    · exact absurd (hopen.1.symm.trans hours.1) Bool.false_ne_true
    · exact hnot
  have hstate : ∀ st : PlanState, relayAcknowledgement ctx r (rungHalf r) (relaySparse
      (planStart ctx r (rungHalf r)).candidates.length
      (relayDownstream ctx r (planRanked ctx r (rungHalf r)))) = st →
      (planBroadcastRelay ctx r).shouldRelay = st.shouldRelay ∧
        (planBroadcastRelay ctx r).slotDelayMs = st.myDelay := by
    rintro st rfl
    exact ⟨rfl, rfl⟩
  rw [relayDownstream_gateway hopen h.gateway] at hstate
  obtain ⟨hshould, hdelay⟩ := hstate _ (hplan rfl)
  refine ⟨hshould, a, ha, fun heq => hnot ?_, ?_⟩
  · exact heq ▸ List.mem_map_of_mem ha
  · rw [hdelay, hat]
    exact hfree

/-- Our position keeps half an airtime off every rung of another node exactly
when the fallback is not blind. -/
theorem own_slot_clear_iff (ctx : BroadcastRelayContext) (r : PlanRequest) (htime : Timely r) :
    OwnSlotClear ctx r ↔ ¬ FallbackBlind ctx r := by
  refine ⟨fun hclear h => ?_, clear_of_not_blind htime⟩
  obtain ⟨hrelay, a, ha, hne, hat⟩ := gateway_on_first_late_rung h
  have hhalf : 0 < rungHalf r := Nat.lt_of_lt_of_le (by decide) (Nat.le_max_right _ _)
  have := hclear hrelay a ha hne
  omega

theorem stockRequest_timely : Timely stockRequest := ⟨by decide, by decide⟩

/-- We are the gateway of node 2, whose broadcast we heard, and list nobody it
does not; node 4 publishes its list and adds node 3. -/
def gatewayContext : BroadcastRelayContext := { stockContext true with
  edges := {
    nodes := ⟨⟨1, 1000, ⟨[peerEdge 2 true, peerEdge 4 true], by decide⟩, by decide, by decide⟩ ::
      (stockContext true).edges.nodes.rows.tail, by decide⟩
    nodup := by decide }
  downstream := ⟨[⟨2, 1, 100, 1000⟩], by decide⟩ }

/-- Node 4 lists the nodes 3 and 5, and we are the only one that serves node 6. -/
def servingContext : BroadcastRelayContext := { gatewayContext with
  edges := {
    nodes := ⟨[
      ⟨1, 1000, ⟨[peerEdge 2 true, peerEdge 4 true, peerEdge 6 true], by decide⟩, by decide,
        by decide⟩,
      ⟨2, 1000, ⟨[peerEdge 4 true, peerEdge 1 true], by decide⟩, by decide, by decide⟩,
      ⟨4, 1000, ⟨[peerEdge 1 true, peerEdge 2 true, peerEdge 3 false, peerEdge 5 false],
        by decide⟩, by decide, by decide⟩], by decide⟩
    nodup := by decide } }

/-- Node 4 has the first late rung and we have the next one. -/
theorem own_slot_clear_sample :
    Timely stockRequest ∧
      handedOut servingContext stockRequest (rungHalf stockRequest) = [(4, 160), (1, 251)] ∧
      (planBroadcastRelay servingContext stockRequest).shouldRelay = true ∧
      OwnSlotClear servingContext stockRequest := by
  refine ⟨stockRequest_timely, by decide +kernel, by decide +kernel,
    (own_slot_clear_iff servingContext stockRequest stockRequest_timely).mpr fun h => ?_⟩
  have hadds : uniqueTargets servingContext (buildAlreadyCovered servingContext 2 2) 1 1000 ≠ [] := by
    decide +kernel
  exact h.unserved ⟨rfl, hadds⟩

/-- Node 4 has the first late rung, and so have we. -/
theorem gateway_overlaps :
    Timely stockRequest ∧ ¬ OwnSlotClear gatewayContext stockRequest := by
  refine ⟨stockRequest_timely, fun h => ?_⟩
  have hrelay : (planBroadcastRelay gatewayContext stockRequest).shouldRelay = true := by
    decide +kernel
  have hdelay : (planBroadcastRelay gatewayContext stockRequest).slotDelayMs = 160 := by
    decide +kernel
  have hrung : handedOut gatewayContext stockRequest (rungHalf stockRequest) = [(4, 160)] := by
    decide +kernel
  have hclear := h hrelay (4, 160) (hrung ▸ List.mem_cons_self) (by decide)
  rw [hdelay] at hclear
  revert hclear
  decide

end Meshrustic.Relay
