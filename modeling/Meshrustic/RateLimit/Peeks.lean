import Meshrustic.RateLimit.Charges

/-!
# Peeks against charges (`mesh-routing/src/rate_limit.rs`)

`wouldDrop` asks the tables that `shouldDrop` charges. A bucket keeps the clear
threshold it was last charged with, and a peek reads that one; a charge brings
its own. For destinations, originators and the young bucket the two are the
same number. The budgets of a relay depend on the airtime of the packet and on
the channel, so there a charge may lift a ban that the peek still sees: one
window after the trip, with a budget above the count of that window.

Results:
* `wouldDrop_charged`: in every reachable state a packet that the peek drops is
  dropped by the charge, unless only the peek's relay bucket speaks against it
  and the packet raises that budget.
* `raised_budget_lifts_ban`: a run with a packet that is such an exception.
-/
namespace Meshrustic.RateLimit

namespace BucketState

/-- The bucket is cleared at `clear`, or was never charged. -/
def Clears (b : BucketState) (clear : UInt32) : Prop := b.clearThreshold = 0 ∨ b.clearThreshold = clear

section

variable {b : BucketState} {trip clear charge nowMs nodeId : UInt32} {kind : RateLimitKind}

theorem roll_clearThreshold : (b.roll nowMs clear).1.clearThreshold = b.clearThreshold := by
  unfold roll
  dsimp only
  split <;> rfl

theorem checkAndUpdateBucket_clears :
    (b.checkAndUpdateBucket trip clear charge nowMs nodeId kind).1.clearThreshold = clear := by
  unfold checkAndUpdateBucket
  dsimp only
  split
  · exact roll_clearThreshold
  · exact roll_clearThreshold

/-- A peek reads the threshold of the next charge. -/
theorem limitedAt_clears (h : b.Clears clear) :
    ({ b with clearThreshold := clear } : BucketState).limitedAt nowMs clear =
      b.limitedAt nowMs clear := by
  unfold limitedAt windows
  rcases h with h | h <;> simp [h]

/-- A ban that is on stays on. -/
theorem charge_banned
    (h : ({ b with clearThreshold := clear } : BucketState).limitedAt nowMs clear = true) :
    (b.checkAndUpdateBucket trip clear charge nowMs nodeId kind).1.limited = true ∧
      (b.checkAndUpdateBucket trip clear charge nowMs nodeId kind).2.1 = true := by
  have hl : b.limited = true := by
    unfold limitedAt at h
    rw [Bool.and_eq_true] at h
    exact h.1
  unfold checkAndUpdateBucket roll
  dsimp only
  rw [h]
  split <;> simp [hl]

theorem saturatingAdd_zero (n : UInt32) : saturatingAdd 0 n = n := by
  unfold saturatingAdd
  have hn := n.toNat_lt
  rw [if_pos (by rw [UInt32.toNat_zero]; omega), UInt32.zero_add]

/-- A ban that a peek sees outlives the charge, unless the charge clears it: the
ended window counted less than its threshold, and the charge alone does not
trip the bucket again. -/
theorem charge_peeked {floor : UInt32} (h : b.limitedAt nowMs floor = true)
    (hkeep : ¬ (b.windows nowMs = 1 ∧ b.count < clear ∧ charge < trip)) :
    (b.checkAndUpdateBucket trip clear charge nowMs nodeId kind).2.1 = true := by
  unfold limitedAt at h
  simp only [Bool.and_eq_true, Bool.or_eq_true, beq_iff_eq, decide_eq_true_eq] at h
  obtain ⟨hl, hwin⟩ := h
  by_cases hban : ({ b with clearThreshold := clear } : BucketState).limitedAt nowMs clear = true
  · exact (charge_banned hban).2
  · -- the charge clears the ban, so it has to trip the bucket itself
    have hone : b.windows nowMs = 1 ∧ b.count < clear := by
      unfold limitedAt at hban
      simp only [hl, Bool.true_and, Bool.or_eq_true, beq_iff_eq, Bool.and_eq_true,
        decide_eq_true_eq, not_or, ite_self] at hban
      obtain ⟨hzero, hclear⟩ := hban
      have hwin1 : b.windows nowMs = 1 := by
        rcases hwin with h0 | ⟨h1, -⟩
        · exact absurd h0 hzero
        · exact h1
      refine ⟨hwin1, ?_⟩
      rw [← UInt32.not_le]
      exact fun hle => hclear ⟨hwin1, hle⟩
    have htrip : trip ≤ charge := by
      rw [← UInt32.not_lt]
      exact fun hlt => hkeep ⟨hone.1, hone.2, hlt⟩
    rw [Bool.not_eq_true] at hban
    have hwin1 : ({ b with clearThreshold := clear } : BucketState).windows nowMs = 1 := hone.1
    unfold checkAndUpdateBucket roll
    dsimp only
    rw [hban, hwin1]
    simp [hl, saturatingAdd_zero, htrip]

end

end BucketState

/-! ## The thresholds in the tables -/

namespace NodeRateLimiter

/-- Every bucket but those of the relays is cleared at its own threshold. -/
structure Thresholds (l : NodeRateLimiter) : Prop where
  originators : ∀ e ∈ l.originators.rows, ∀ k, (e.bucket k).Clears (originatorClear k.trip)
  dests : ∀ e ∈ l.dests.rows, e.dest.Clears DEST_CLEAR
  young : l.youngBucket.Clears YOUNG_CLEAR

/-- The rows of a table that got a slot: the old ones and the new one. -/
theorem slotFor_mem {cap : Nat} {α : Type} {t : Table cap α} {row : α} {victim : Option Nat}
    {r : Table cap α × Nat} (h : slotFor t row victim = some r) :
    ∀ e ∈ r.1.rows, e ∈ t.rows ∨ e = row := by
  intro e he
  unfold slotFor at h
  cases hpush : t.push row with
  | some t' =>
    simp only [hpush, Option.some.injEq] at h
    subst h
    rw [Table.push_rows hpush] at he
    simpa using he
  | none =>
    simp only [hpush, Option.map_eq_some_iff] at h
    obtain ⟨i, -, rfl⟩ := h
    exact List.mem_or_eq_of_mem_set he

section

variable (l : NodeRateLimiter) (pkt : RateLimitPacket) (proximity : UInt32 → GraphProximity)

theorem chargedRow_clears {e : OriginatorEntry}
    (h : ∀ k, (e.bucket k).Clears (originatorClear k.trip)) (k : RateLimitBucket) :
    ((chargedRow e pkt).bucket k).Clears (originatorClear k.trip) := by
  rw [bucket_chargedRow]
  split
  · rename_i hk
    subst hk
    exact .inr BucketState.checkAndUpdateBucket_clears
  · exact h k

theorem newRow_clears (nodeId nowMs : UInt32) (k : RateLimitBucket) :
    ((OriginatorEntry.new nodeId nowMs).bucket k).Clears (originatorClear k.trip) := by
  cases k <;> exact .inl rfl

theorem chargeOriginator_clears
    (h : ∀ e ∈ l.originators.rows, ∀ k, (e.bucket k).Clears (originatorClear k.trip)) :
    ∀ e ∈ (l.chargeOriginator pkt proximity).1.originators.rows,
      ∀ k, (e.bucket k).Clears (originatorClear k.trip) := by
  have hnew := chargedRow_clears pkt (newRow_clears pkt.fromNode pkt.nowMs)
  intro e he
  cases hfind : l.findOriginator pkt.fromNode with
  | some i =>
    obtain ⟨hi, -⟩ := List.findIdx?_eq_some_iff_getElem.mp hfind
    obtain ⟨hrows, -⟩ := @chargeOriginator_found l pkt proximity i _ hfind
      (List.getElem?_eq_getElem hi)
    rw [hrows] at he
    rcases List.mem_or_eq_of_mem_set he with he | rfl
    · exact h e he
    · exact chargedRow_clears pkt (h _ (List.getElem_mem hi))
  | none =>
    rcases @chargeOriginator_new l pkt proximity hfind with
      hsame | ⟨happend | ⟨i, -, hset⟩, -⟩
    · rw [hsame] at he
      exact h e he
    · rw [happend] at he
      rcases List.mem_append.mp he with he | he
      · exact h e he
      · rw [List.mem_singleton.mp he]
        exact hnew
    · rw [hset] at he
      rcases List.mem_or_eq_of_mem_set he with he | rfl
      · exact h e he
      · exact hnew

theorem checkDest_clears {l : NodeRateLimiter} {i : Nat} {e : DestEntry} {charge nowMs : UInt32}
    (h : ∀ e ∈ l.dests.rows, e.dest.Clears DEST_CLEAR) :
    ∀ d ∈ (l.checkDest i e charge nowMs).1.dests.rows, d.dest.Clears DEST_CLEAR := by
  intro d hd
  unfold checkDest at hd
  rcases List.mem_or_eq_of_mem_set hd with hd | rfl
  · exact h d hd
  · exact .inr BucketState.checkAndUpdateBucket_clears

theorem getOrCreateDest_clears {nodeId nowMs : UInt32} {r : NodeRateLimiter × Nat}
    (hget : l.getOrCreateDest nodeId nowMs proximity = some r)
    (h : ∀ e ∈ l.dests.rows, e.dest.Clears DEST_CLEAR) :
    ∀ e ∈ r.1.dests.rows, e.dest.Clears DEST_CLEAR := by
  intro e he
  unfold getOrCreateDest at hget
  split at hget
  · cases hget
    exact h e he
  · obtain ⟨q, hq, rfl⟩ := Option.map_eq_some_iff.mp hget
    rcases slotFor_mem hq e he with he | rfl
    · exact h e he
    · exact .inl rfl

theorem chargeDestVolume_clears (h : ∀ e ∈ l.dests.rows, e.dest.Clears DEST_CLEAR) :
    ∀ e ∈ (l.chargeDestVolume pkt proximity).1.dests.rows, e.dest.Clears DEST_CLEAR := by
  unfold chargeDestVolume
  split
  · exact h
  · split
    · split
      · exact h
      · rename_i hget
        have hrows := l.getOrCreateDest_clears proximity hget h
        split
        · exact hrows
        · exact checkDest_clears hrows
    · split
      · exact h
      · split
        · exact h
        · exact checkDest_clears h

end

/-- A packet keeps the thresholds. -/
theorem Thresholds.shouldDrop {l : NodeRateLimiter} (h : l.Thresholds) (pkt : RateLimitPacket)
    (proximity : UInt32 → GraphProximity) : (l.shouldDrop pkt proximity).1.Thresholds where
  originators := by
    obtain ⟨m, hm, horig⟩ := l.shouldDrop_originators pkt proximity
    rw [horig]
    split
    · exact m.chargeOriginator_clears pkt proximity (hm ▸ h.originators)
    · exact h.originators
  dests := by
    rw [l.shouldDrop_dests pkt proximity]
    split
    · exact h.dests
    · refine chargeDestVolume_clears _ pkt proximity ?_
      have hboot : (({ l with lastEvent := none } : NodeRateLimiter).noteBoot pkt.nowMs).dests =
          l.dests := dests_of_ledgers (noteBoot_ledgers _ _)
      rw [hboot]
      exact h.dests
  young := by
    rw [l.shouldDrop_youngBucket pkt proximity]
    split
    · exact .inr BucketState.checkAndUpdateBucket_clears
    · exact h.young

theorem Thresholds.same {l m : NodeRateLimiter} (h : l.Thresholds) (hm : m.ledgers = l.ledgers) :
    m.Thresholds where
  originators := by
    have horig : m.originators = l.originators := congrArg Ledgers.originators hm
    rw [horig]
    exact h.originators
  dests := by
    rw [dests_of_ledgers hm]
    exact h.dests
  young := by
    have hyoung : m.youngBucket = l.youngBucket := congrArg Ledgers.youngBucket hm
    rw [hyoung]
    exact h.young

/-! ## What a peek sees, a charge sees -/

section

variable {l m : NodeRateLimiter} {pkt : RateLimitPacket} (proximity : UInt32 → GraphProximity)

theorem originatorBucketLimitedAt_of (h : m.originators = l.originators) (nodeId : UInt32)
    (bucket : RateLimitBucket) (nowMs : UInt32) :
    m.originatorBucketLimitedAt nodeId bucket nowMs = l.originatorBucketLimitedAt nodeId bucket nowMs := by
  unfold originatorBucketLimitedAt
  rw [h]

/-- A destination whose ban is on. -/
theorem chargeDestVolume_banned (h : ∀ e ∈ l.dests.rows, e.dest.Clears DEST_CLEAR)
    (hchannel : pkt.onDefaultChannel = true) (hdest : isUnicastDest pkt.toNode = true)
    (hban : l.destVolumeLimitedAt pkt.toNode pkt.nowMs = true) :
    (l.chargeDestVolume pkt proximity).2 = true := by
  unfold destVolumeLimitedAt at hban
  cases hrow : l.dests.rows.find? (·.nodeId == pkt.toNode) with
  | none => simp [hrow] at hban
  | some e =>
    simp only [hrow] at hban
    obtain ⟨i, hfind, he⟩ := findIdx_of_lookup DestEntry.nodeId hrow
    have hindex : l.findDest pkt.toNode = some i := hfind
    rw [← BucketState.limitedAt_clears (h e (List.mem_of_getElem? he))] at hban
    unfold chargeDestVolume
    rw [hdest, hchannel]
    simp only [Bool.not_true, Bool.or_self, Bool.false_eq_true, if_false]
    split
    · unfold getOrCreateDest
      simp only [hindex, he]
      unfold checkDest
      dsimp only
      rw [noteDestSender_dest, rollDestSenders_dest]
      exact (BucketState.charge_banned hban).2
    · simp only [hindex, he]
      have hkey : (rollDestSenders e pkt.nowMs).nodeId = pkt.toNode :=
        (rollDestSenders_nodeId e pkt.nowMs).trans (lookup_key DestEntry.nodeId hrow)
      unfold destVolumeLimited checkDest
      dsimp only [Table.set_rows]
      have hset := lookup_set_found DestEntry.nodeId hfind
        (show DestEntry.nodeId { rollDestSenders e pkt.nowMs with
          dest := ((rollDestSenders e pkt.nowMs).dest.checkAndUpdateBucket
            (if (rollDestSenders e pkt.nowMs).dest.limited ||
                DEST_MIN_SENDERS ≤ (rollDestSenders e pkt.nowMs).senders.rows.length then DEST_TRIP
              else 0xFFFFFFFF) DEST_CLEAR 0 pkt.nowMs (rollDestSenders e pkt.nowMs).nodeId .dest).1 } =
          pkt.toNode from hkey)
      unfold lookup at hset
      rw [hset]
      dsimp only
      rw [rollDestSenders_dest]
      exact (BucketState.charge_banned hban).1

theorem chargeOriginator_banned
    (h : ∀ e ∈ l.originators.rows, ∀ k, (e.bucket k).Clears (originatorClear k.trip))
    (hban : l.originatorBucketLimitedAt pkt.fromNode (rateLimitBucket pkt.decodedPortnum) pkt.nowMs =
      true) :
    (l.chargeOriginator pkt proximity).2 = true := by
  unfold originatorBucketLimitedAt at hban
  cases hrow : l.originators.rows.find? (·.nodeId == pkt.fromNode) with
  | none => simp [hrow] at hban
  | some e =>
    simp only [hrow] at hban
    obtain ⟨i, hfind, he⟩ := findIdx_of_lookup OriginatorEntry.nodeId hrow
    obtain ⟨-, hdrop⟩ := @chargeOriginator_found l pkt proximity i e hfind he
    rw [hdrop]
    have hclears := h e (List.mem_of_getElem? he) (rateLimitBucket pkt.decodedPortnum)
    rw [← BucketState.limitedAt_clears hclears] at hban
    exact (BucketState.charge_banned hban).2

/-- A row that is young when it is looked at is not changed by the look. -/
theorem youngAgeActive_active {y : YoungSighting} {nowMs : UInt32}
    (h : (youngAgeActive y nowMs).2 = true) : (youngAgeActive y nowMs).1 = y := by
  unfold youngAgeActive at h ⊢
  dsimp only at h ⊢
  rw [Bool.not_eq_true'] at h
  have hold : y.graduated = false := (Bool.or_eq_false_iff.mp h).1
  rw [h, ← hold]

theorem agedPosition_none {nowMs : UInt32} :
    ∀ {rows : List YoungSighting}, (∀ y ∈ rows, (youngAgeActive y nowMs).2 = true) →
      agedPosition nowMs rows = none
  | [], _ => rfl
  | y :: rows, h => by
    rw [agedPosition, h y List.mem_cons_self,
      agedPosition_none fun z hz => h z (List.mem_cons_of_mem _ hz)]
    rfl

/-- A packet of a node that is young already changes nothing in the tables. -/
theorem noteOriginator_young {nodeId nowMs : UInt32} (hwarm : (l.warmedUp nowMs).2 = true)
    (hyoung : (l.isYoung nodeId nowMs).2 = true) :
    l.noteOriginator nodeId nowMs = l ∨ l.noteOriginator nodeId nowMs = (l.warmedUp nowMs).1 := by
  unfold isYoung at hyoung
  unfold noteOriginator expireIfOld
  cases hfind : l.findYoung nodeId with
  | some i =>
    obtain ⟨y, hy, -⟩ := l.findYoung_row nodeId hfind
    simp only [hfind, hy] at hyoung ⊢
    left
    obtain ⟨hi, hrow⟩ := List.getElem?_eq_some_iff.mp hy
    have hset : l.young.set i y = l.young := by
      unfold Table.set
      congr 1
      rw [← hrow]
      exact List.set_getElem_self hi
    simp only [hyoung, if_true, youngAgeActive_active hyoung, hset, hfind, Option.isSome_some,
      Bool.true_or]
  | none =>
    simp only [hfind] at hyoung ⊢
    cases hin : l.inAlumni nodeId with
    | true => simp [hin] at hyoung
    | false =>
      right
      simp only [hin, Bool.false_eq_true, if_false] at hyoung
      have hfull : (l.youngTableFull nowMs).2 = true := hyoung
      have hall := l.full_active nowMs hfull
      have hcount : MAX_YOUNG ≤ (l.young.rows.filter fun y => (youngAgeActive y nowMs).2).length :=
        of_decide_eq_true hfull
      rw [List.filter_eq_self.mpr hall] at hcount
      have hroom : ¬ (l.warmedUp nowMs).1.young.rows.length < MAX_YOUNG := Nat.not_lt.mpr hcount
      have hlook : (l.warmedUp nowMs).1.findAgedYoung nowMs = ((l.warmedUp nowMs).1, none) := by
        have hrows : (l.warmedUp nowMs).1.young.rows = l.young.rows := rfl
        unfold findAgedYoung
        simp only [hrows, agedPosition_none hall]
        have hsame : (l.young.rows.mapIdx fun i y =>
            if i ≤ (none : Option Nat).getD l.young.rows.length then (youngAgeActive y nowMs).1
            else y) = l.young.rows := by
          apply List.ext_getElem?
          intro j
          rw [List.getElem?_mapIdx]
          cases hj : l.young.rows[j]? with
          | none => rfl
          | some y =>
            simp only [Option.map_some, youngAgeActive_active (hall y (List.mem_of_getElem? hj)),
              ite_self]
        simp only [hsame]
        rfl
      simp only [Option.isSome_none, Bool.or_self, Bool.false_eq_true, if_false, hwarm,
        Bool.not_true, hroom, hlook]

/-- A charge of the young bucket while it is limited. -/
theorem chargeYoung_banned (hclears : l.youngBucket.Clears YOUNG_CLEAR)
    (hcounts : (l.countsAsYoung pkt).2 = true)
    (hban : l.youngBucket.limitedAt pkt.nowMs YOUNG_CLEAR = true) :
    (l.chargeYoung pkt).2 = true := by
  have hbucket : (l.countsAsYoung pkt).1.youngBucket = l.youngBucket :=
    congrArg Ledgers.youngBucket (l.countsAsYoung_ledgers pkt)
  rw [← BucketState.limitedAt_clears hclears] at hban
  unfold chargeYoung
  dsimp only
  rw [hcounts, hbucket]
  simp only [Bool.not_true, Bool.false_eq_true, if_false]
  split
  · exact (BucketState.charge_banned hban).2
  · exact (BucketState.charge_banned hban).2

/-- The young packet that a peek drops is charged to the young bucket. -/
theorem countsAsYoung_noted (hyouth : m.youth = (l.noteBoot pkt.nowMs).youth)
    (hdecoded : (rateLimitBucket pkt.decodedPortnum == .unknown) = false)
    (hcounts : (l.countsAsYoung pkt).2 = true) {n : NodeRateLimiter}
    (hn : n.youth = (m.noteOriginator pkt.fromNode pkt.nowMs).youth) :
    (n.countsAsYoung pkt).2 = true := by
  have hyoungOf : ∀ {k k' : NodeRateLimiter}, k'.youth = k.youth →
      (k'.isYoung pkt.fromNode pkt.nowMs).2 = (k.isYoung pkt.fromNode pkt.nowMs).2 :=
    fun h => isYoung_of (congrArg Youth.young h) (alumni_of_youth h) _ _
  unfold countsAsYoung at hcounts ⊢
  simp only [hdecoded, Bool.false_eq_true, if_false] at hcounts ⊢
  cases hwarm : (l.warmedUp pkt.nowMs).2 with
  | false => simp [hwarm] at hcounts
  | true =>
    rw [hwarm, if_pos rfl, isYoung_warmedUp] at hcounts
    have hbootYoung : ((l.noteBoot pkt.nowMs).isYoung pkt.fromNode pkt.nowMs).2 = true := by
      rw [← hcounts]
      unfold noteBoot
      split
      · exact @isYoung_of l { l with bootMs := pkt.nowMs, bootKnown := true } rfl rfl _ _
      · rfl
    have hmwarm : (m.warmedUp pkt.nowMs).2 = true :=
      (warmedUp_of_youth hyouth _).trans ((l.warmedUp_noteBoot _).trans hwarm)
    have hmyoung := (hyoungOf hyouth).trans hbootYoung
    have hnwarm : (n.warmedUp pkt.nowMs).2 = true ∧
        (n.isYoung pkt.fromNode pkt.nowMs).2 = true := by
      rw [warmedUp_of_youth hn, hyoungOf hn]
      rcases noteOriginator_young hmwarm hmyoung with hnote | hnote
      · rw [hnote]
        exact ⟨hmwarm, hmyoung⟩
      · rw [hnote, warmedUp_again, isYoung_warmedUp]
        exact ⟨hmwarm, hmyoung⟩
    rw [hnwarm.1, if_pos rfl, isYoung_warmedUp]
    exact hnwarm.2

/-- The bucket that a packet is charged to for its relay. -/
def relayBucket (l : NodeRateLimiter) (pkt : RateLimitPacket) : Option BucketState :=
  match l.knownRelay pkt with
  | some id => (l.relays.rows.find? (·.nodeId == id)).map RelayEntry.relay
  | none => if pkt.graphEstablished then some l.unresolvedRelay else none

/-- The airtime that a packet is charged for. -/
def airtime (pkt : RateLimitPacket) : UInt32 :=
  if pkt.airtimeMs == 0 then RELAY_REF_AIRTIME_MS else pkt.airtimeMs

/-- The packet raises the budget of its relay above what the ended window
counted, and does not use it up. -/
def BudgetRaised (l : NodeRateLimiter) (pkt : RateLimitPacket) : Prop :=
  ∃ b, l.relayBucket pkt = some b ∧ b.windows pkt.nowMs = 1 ∧
    b.count < (relayBudgets (airtime pkt) pkt.channelUtilPct).2 ∧
    airtime pkt < (relayBudgets (airtime pkt) pkt.channelUtilPct).1

/-- A charge of a relay whose ban a peek sees. -/
theorem chargeRelay_banned (hban : l.relayLimitedAt pkt = true) (hkeep : ¬ l.BudgetRaised pkt) :
    (l.chargeRelay pkt proximity).2 = true := by
  unfold relayLimitedAt at hban
  unfold BudgetRaised relayBucket at hkeep
  unfold chargeRelay
  dsimp only
  generalize hinit : (if l.unresolvedRelay.windowStartMs == 0 && l.unresolvedRelay.count == 0 &&
      !l.unresolvedRelay.limited then
        { l with unresolvedRelay := { l.unresolvedRelay with windowStartMs := pkt.nowMs } }
      else l) = k
  have hrelays : k.relays = l.relays := by
    rw [← hinit]
    split <;> rfl
  have hknown : k.knownRelay pkt = l.knownRelay pkt := by
    rw [← hinit]
    split <;> rfl
  rw [hknown]
  cases hname : l.knownRelay pkt with
  | some id =>
    simp only [hname] at hban hkeep
    cases hrow : l.relays.rows.find? (·.nodeId == id) with
    | none => simp [hrow] at hban
    | some e =>
      simp only [hrow] at hban hkeep
      obtain ⟨i, hfind, he⟩ := findIdx_of_lookup RelayEntry.nodeId hrow
      have hindex : k.findRelay id = some i := by
        unfold findRelay
        rw [hrelays]
        exact hfind
      unfold getOrCreateRelay
      simp only [hindex, hrelays, he]
      exact BucketState.charge_peeked hban fun hraised => hkeep ⟨_, rfl, hraised⟩
  | none =>
    simp only [hname, Bool.and_eq_true] at hban hkeep
    obtain ⟨hgraph, hban⟩ := hban
    have hlimited : l.unresolvedRelay.limited = true := by
      unfold BucketState.limitedAt at hban
      rw [Bool.and_eq_true] at hban
      exact hban.1
    have hbucket : k.unresolvedRelay = l.unresolvedRelay := by
      rw [← hinit, hlimited]
      simp
    simp only [hgraph, if_true, hbucket] at hkeep ⊢
    exact BucketState.charge_peeked hban fun hraised => hkeep ⟨_, rfl, hraised⟩

/-- What `should_drop` answers for a packet that no destination ban drops. -/
theorem chargeSource_drop (l : NodeRateLimiter) (pkt : RateLimitPacket) :
    let m := if rateLimitBucket pkt.decodedPortnum != .unknown then
      l.noteOriginator pkt.fromNode pkt.nowMs else l
    let o := m.chargeOriginator pkt proximity
    let y := o.1.chargeYoung pkt
    (l.chargeSource pkt proximity).2 =
      (o.2 || y.2 || (pkt.rebroadcastCandidate && (y.1.chargeRelay pkt proximity).2)) := by
  unfold chargeSource
  dsimp only
  generalize (if rateLimitBucket pkt.decodedPortnum != .unknown then
    l.noteOriginator pkt.fromNode pkt.nowMs else l) = m
  cases (m.chargeOriginator pkt proximity).2 <;>
    cases ((m.chargeOriginator pkt proximity).1.chargeYoung pkt).2 <;>
      cases pkt.rebroadcastCandidate <;> rfl

/-- The relay of a packet, as the tables of relays name it. -/
theorem relay_of_relayPart (h : m.relayPart = l.relayPart) :
    m.relayLimitedAt pkt = l.relayLimitedAt pkt ∧ m.relayBucket pkt = l.relayBucket pkt := by
  have hrelays : m.relays = l.relays := congrArg RelayPart.relays h
  have hunresolved : m.unresolvedRelay = l.unresolvedRelay := congrArg RelayPart.unresolvedRelay h
  have hnode : m.nodeNum = l.nodeNum := congrArg RelayPart.nodeNum h
  unfold relayLimitedAt relayBucket knownRelay
  rw [hrelays, hunresolved, hnode]
  exact ⟨rfl, rfl⟩

/-- The answer of `would_drop`: the four peeks, one after the other. -/
theorem wouldDrop_answer (l : NodeRateLimiter) (pkt : RateLimitPacket) :
    (l.wouldDrop pkt).2 =
      (!l.ignores pkt && (l.shouldDropToLimitedDest pkt ||
        l.originatorBucketLimitedAt pkt.fromNode (rateLimitBucket pkt.decodedPortnum) pkt.nowMs ||
        ((l.countsAsYoung pkt).2 && l.youngBucket.limitedAt pkt.nowMs YOUNG_CLEAR) ||
        (pkt.rebroadcastCandidate && l.relayLimitedAt pkt))) := by
  have hledgers := l.countsAsYoung_ledgers pkt
  have hbucket : (l.countsAsYoung pkt).1.youngBucket = l.youngBucket :=
    congrArg Ledgers.youngBucket hledgers
  have hrelay : (l.countsAsYoung pkt).1.relayLimitedAt pkt = l.relayLimitedAt pkt :=
    (relay_of_relayPart (relayPart_of_ledgers hledgers)).1
  unfold wouldDrop
  dsimp only
  rw [hbucket]
  cases l.ignores pkt with
  | true => rfl
  | false =>
    cases l.shouldDropToLimitedDest pkt with
    | true => rfl
    | false =>
      cases l.originatorBucketLimitedAt pkt.fromNode (rateLimitBucket pkt.decodedPortnum)
          pkt.nowMs with
      | true => rfl
      | false =>
        cases (l.countsAsYoung pkt).2 && l.youngBucket.limitedAt pkt.nowMs YOUNG_CLEAR with
        | true => rfl
        | false =>
          cases pkt.rebroadcastCandidate with
          | false => rfl
          | true => simpa using hrelay

/-- A destination ban that the peek sees drops the packet. -/
theorem chargedDest_banned (h : l.Thresholds) (hban : l.shouldDropToLimitedDest pkt = true) :
    ((l.chargedDest pkt proximity).2 ||
      (l.chargedDest pkt proximity).1.shouldDropToLimitedDest pkt) = true := by
  have horig : (l.chargedDest pkt proximity).1.originators = l.originators := by
    unfold chargedDest
    rw [chargeDestVolume_originators, noteBoot_originators]
  unfold shouldDropToLimitedDest at hban
  split at hban
  · cases hban
  · rename_i hopen
    rw [Bool.or_eq_true, Bool.not_eq_true', Bool.not_eq_true', not_or, Bool.not_eq_false,
      Bool.not_eq_false] at hopen
    rcases Bool.or_eq_true_iff.mp hban with hoban | hdban
    · rw [Bool.or_eq_true]
      right
      unfold shouldDropToLimitedDest
      rw [hopen.1, hopen.2]
      unfold originatorLimitedAt at hoban ⊢
      simp only [originatorBucketLimitedAt_of horig, hoban, Bool.not_true, Bool.or_self,
        Bool.false_eq_true, if_false, Bool.true_or]
    · rw [Bool.or_eq_true]
      left
      have hboot : (({ l with lastEvent := none } : NodeRateLimiter).noteBoot pkt.nowMs).dests =
          l.dests := dests_of_ledgers (noteBoot_ledgers _ _)
      refine chargeDestVolume_banned proximity ?_ hopen.1 hopen.2 ?_
      · rw [hboot]
        exact h.dests
      · unfold destVolumeLimitedAt at hdban ⊢
        rw [hboot]
        exact hdban

/-- In a limiter that keeps its thresholds. -/
theorem wouldDrop_charged_of (h : l.Thresholds) (hwould : (l.wouldDrop pkt).2 = true) :
    (l.shouldDrop pkt proximity).2 = true ∨
      l.BudgetRaised pkt ∧ (l.wouldDrop { pkt with rebroadcastCandidate := false }).2 = false := by
  rw [wouldDrop_answer, Bool.and_eq_true, Bool.not_eq_true'] at hwould
  obtain ⟨hign, hpeeks⟩ := hwould
  have horig : (l.chargedDest pkt proximity).1.originators = l.originators := by
    unfold chargedDest
    rw [chargeDestVolume_originators, noteBoot_originators]
  have hyouth := l.chargedDest_youth pkt proximity
  have hyoung : (l.chargedDest pkt proximity).1.youngBucket = l.youngBucket :=
    (congrArg Youth.youngBucket hyouth).trans
      (congrArg Ledgers.youngBucket (l.noteBoot_ledgers pkt.nowMs))
  have hrelay := l.chargedDest_relayPart pkt proximity
  have hdest := @chargedDest_banned l pkt proximity h
  unfold shouldDrop
  rw [hign]
  simp only [Bool.false_eq_true, if_false]
  generalize l.chargedDest pkt proximity = r at horig hyouth hyoung hrelay hdest ⊢
  by_cases hdrop : (r.2 || r.1.shouldDropToLimitedDest pkt) = true
  · rw [if_pos hdrop]
    left
    split <;> rfl
  · -- no destination ban: the originator, the young bucket or the relay drops it
    rw [if_neg hdrop, chargeSource_drop]
    have hnodest : l.shouldDropToLimitedDest pkt = false := by
      cases hban : l.shouldDropToLimitedDest pkt with
      | false => rfl
      | true => exact absurd (hdest hban) hdrop
    rw [hnodest, Bool.false_or] at hpeeks
    generalize hm : (if rateLimitBucket pkt.decodedPortnum != .unknown then
      r.1.noteOriginator pkt.fromNode pkt.nowMs else r.1) = m
    have hmledgers : m.ledgers = r.1.ledgers := by
      rw [← hm]
      split
      · exact noteOriginator_ledgers _ _ _
      · rfl
    have hmorig : m.originators = l.originators :=
      (congrArg Ledgers.originators hmledgers).trans horig
    have hoyouth := m.chargeOriginator_youth pkt proximity
    have hoyoung : (m.chargeOriginator pkt proximity).1.youngBucket = l.youngBucket :=
      (congrArg Youth.youngBucket hoyouth).trans
        ((congrArg Ledgers.youngBucket hmledgers).trans hyoung)
    by_cases hA : l.originatorBucketLimitedAt pkt.fromNode (rateLimitBucket pkt.decodedPortnum)
        pkt.nowMs = true
    · left
      rw [chargeOriginator_banned proximity (hmorig ▸ h.originators)
        ((originatorBucketLimitedAt_of hmorig _ _ _).trans hA), Bool.true_or, Bool.true_or]
    · by_cases hB : ((l.countsAsYoung pkt).2 && l.youngBucket.limitedAt pkt.nowMs YOUNG_CLEAR) = true
      · left
        obtain ⟨hcounts, hlimited⟩ := Bool.and_eq_true_iff.mp hB
        have hdecoded : (rateLimitBucket pkt.decodedPortnum == .unknown) = false := by
          cases hd : rateLimitBucket pkt.decodedPortnum == .unknown with
          | false => rfl
          | true => simp [countsAsYoung, hd] at hcounts
        rw [bne, hdecoded, Bool.not_false, if_pos rfl] at hm
        have hnoted : ((m.chargeOriginator pkt proximity).1.countsAsYoung pkt).2 = true :=
          countsAsYoung_noted hyouth hdecoded hcounts (by rw [hm]; exact hoyouth)
        have hbanned := chargeYoung_banned (by rw [hoyoung]; exact h.young) hnoted
          (by rw [hoyoung]; exact hlimited)
        rw [hbanned, Bool.or_true, Bool.true_or]
      · rw [Bool.not_eq_true] at hA hB
        rw [hA, hB, Bool.false_or, Bool.false_or, Bool.and_eq_true] at hpeeks
        obtain ⟨hcandidate, hpeek⟩ := hpeeks
        by_cases hraised : l.BudgetRaised pkt
        · right
          refine ⟨hraised, ?_⟩
          have hanswer := l.wouldDrop_answer { pkt with rebroadcastCandidate := false }
          rw [hanswer, Bool.false_and, Bool.or_false]
          have hothers : (l.shouldDropToLimitedDest pkt ||
              l.originatorBucketLimitedAt pkt.fromNode (rateLimitBucket pkt.decodedPortnum)
                pkt.nowMs ||
              ((l.countsAsYoung pkt).2 && l.youngBucket.limitedAt pkt.nowMs YOUNG_CLEAR)) = false := by
            rw [hnodest, hA, hB]
            rfl
          rw [Bool.and_eq_false_iff]
          exact .inr hothers
        · left
          have hoparts : (m.chargeOriginator pkt proximity).1.relayPart = l.relayPart :=
            (congrArg Ledgers.relayPart (m.chargeOriginator_ledgers pkt proximity .empty)).trans
                ((relayPart_of_ledgers hmledgers).trans hrelay)
          have hyparts : ((m.chargeOriginator pkt proximity).1.chargeYoung pkt).1.relayPart =
              l.relayPart := by
            refine Eq.trans ?_ hoparts
            refine (congrArg Ledgers.relayPart (chargeYoung_ledgers _ pkt)).trans ?_
            split <;> rfl
          obtain ⟨hlimited, hbucket⟩ := @relay_of_relayPart _ _ pkt hyparts
          rw [hcandidate, Bool.true_and, chargeRelay_banned proximity (hlimited.trans hpeek),
            Bool.or_true]
          unfold BudgetRaised at hraised ⊢
          rw [hbucket]
          exact hraised

end

end NodeRateLimiter

/-! ## Over whole runs -/

open NodeRateLimiter in
theorem Call.thresholds (c : Call) {l : NodeRateLimiter} (h : l.Thresholds) :
    (c.run l).Thresholds := by
  cases c with
  | op o =>
    cases o with
    | shouldDrop pkt proximity => exact h.shouldDrop pkt proximity
    | wouldDrop pkt => exact h.same (l.wouldDrop_ledgers pkt)
    | setEnabled enabled => exact ⟨h.originators, h.dests, h.young⟩
    | setNodeNum nodeNum => exact ⟨h.originators, h.dests, h.young⟩
    | setBootMs bootMs => exact ⟨h.originators, h.dests, h.young⟩
  | warmedUp nowMs => exact ⟨h.originators, h.dests, h.young⟩
  | youngTableFull nowMs => exact ⟨h.originators, h.dests, h.young⟩
  | coverageGate nowMs => exact h.same (l.coverageGate_ledgers nowMs)
  | takeEvent => exact ⟨h.originators, h.dests, h.young⟩
  | takeAnnounce => exact ⟨h.originators, h.dests, h.young⟩
  | setAnnounceBroadcast enabled => exact ⟨h.originators, h.dests, h.young⟩

theorem thresholds_inductive : calls.Inductive fun s => s.lim.Thresholds where
  init := by
    rintro s ⟨nodeNum, hl⟩
    rw [hl]
    exact ⟨fun e he => absurd he List.not_mem_nil, fun e he => absurd he List.not_mem_nil, .inl rfl⟩
  step := by
    rintro s c s' h ⟨-, -, rfl⟩
    exact c.1.thresholds h

/-- In every run, for every packet: what the peek drops the charge drops, or
the packet raises the budget of its relay, and nothing but that relay speaks
against it. -/
theorem wouldDrop_charged {s : Timed} (hr : calls.Reachable s) (pkt : RateLimitPacket)
    (hwould : (s.lim.wouldDrop pkt).2 = true) (proximity : UInt32 → GraphProximity) :
    (s.lim.shouldDrop pkt proximity).2 = true ∨
      s.lim.BudgetRaised pkt ∧
        (s.lim.wouldDrop { pkt with rebroadcastCandidate := false }).2 = false :=
  NodeRateLimiter.wouldDrop_charged_of proximity (thresholds_inductive.reachable hr) hwould

/-! ## A budget that is raised -/

/-- Telemetry of node `id` relayed by node 9, with an airtime. -/
def relayedPacket (id : UInt32) (t : Nat) (airtimeMs : UInt32) : RateLimitPacket :=
  { samplePacket t with
    fromNode := id, rebroadcastCandidate := true, resolvedRelay := some 9, airtimeMs }

/-- One packet trips the bucket of the relay; a window later two short ones
leave a count of 630 and a clear threshold of 500. -/
def relayRun : List (Call × Nat) :=
  [(relayedPacket 5 0 12000, 0), (relayedPacket 6 90000 600, 90000),
    (relayedPacket 7 90001 30, 90001)].map fun p => (.op (.shouldDrop p.1 noGraph), p.2)

def relaySys : Timed := relayRun.foldl (fun s c => ⟨c.1.run s.lim, c.2⟩) ⟨.withNodeNum 1, 0⟩

theorem relaySys_reachable : calls.Reachable relaySys := by
  refine ⟨⟨.withNodeNum 1, 0⟩, relayRun, ⟨1, rfl⟩, ?_⟩
  have hstep : ∀ (s : Timed) (c : Call × Nat), s.now ≤ c.2 ∧ c.1.At c.2 →
      calls.step s c ⟨c.1.run s.lim, c.2⟩ := fun s c h => ⟨h.1, h.2, rfl⟩
  have hrun : LTS.Along (fun (s : Timed) (c : Call × Nat) => (⟨c.1.run s.lim, c.2⟩ : Timed))
      (fun s c => s.now ≤ c.2 ∧ c.1.At c.2) ⟨.withNodeNum 1, 0⟩ relayRun :=
    ⟨⟨Nat.le_refl 0, rfl⟩, ⟨Nat.zero_le _, rfl⟩, ⟨Nat.le_succ _, rfl⟩, trivial⟩
  exact LTS.run_foldl hstep hrun

/-- While the first ban is on, the peek and the charge agree. -/
theorem wouldDrop_charged_sample :
    (relaySys.lim.shouldDrop (relayedPacket 8 90002 0) noGraph).2 = true ∨
      relaySys.lim.BudgetRaised (relayedPacket 8 90002 0) ∧
        (relaySys.lim.wouldDrop
          { relayedPacket 8 90002 0 with rebroadcastCandidate := false }).2 = false :=
  wouldDrop_charged relaySys_reachable (relayedPacket 8 90002 0) (by decide +kernel) noGraph

/-- A packet of the reference airtime a window later: its budget is cleared at
1500, so the charge lifts the ban that the peek still sees. -/
theorem raised_budget_lifts_ban :
    calls.Reachable relaySys ∧
      (relaySys.lim.wouldDrop (relayedPacket 8 180000 0)).2 = true ∧
      (relaySys.lim.shouldDrop (relayedPacket 8 180000 0) noGraph).2 = false :=
  ⟨relaySys_reachable, by decide +kernel, by decide +kernel⟩

end Meshrustic.RateLimit
