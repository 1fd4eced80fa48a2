import Meshrustic.Graph.Reorder
import Meshrustic.Relay.Sorting
import Meshrustic.Relay.Unicast

/-!
# Slots of a unicast (`unicast_relay.rs:163-313`)

The plan sorts its candidates, drops direct hops behind the first one or two
and numbers the rest, passing over those that have transmitted. What comes out
does not need the sort: our slot is the number of candidates with a place that
are ahead of us.

Results:
* `capDirects_eq`: the cap keeps a candidate exactly when fewer than
  `max_directs` direct ones are ahead of it (`keepsPlace`).
* `plan_spec`: our slot counts the candidates ahead.
* `unicast_cost_ladder`: who is counted, what the flags mean, that the order
  of the edges does not matter, and that nodes with the same costs take
  different slots.
-/
namespace Meshrustic.Relay

open Meshrustic.Graph

theorem rankedAhead_strict (packetId : UInt32) : StrictRank (rankedAhead packetId) where
  irrefl a := by
    unfold rankedAhead
    simp
  trans a b c := by
    unfold rankedAhead
    simp only [Bool.or_eq_true, Bool.and_eq_true, decide_eq_true_eq, beq_iff_eq]
    cases packetId &&& 1 != 0 with
    | true =>
      simp only [if_true, decide_eq_true_eq, UInt32.lt_iff_toNat_lt]
      omega
    | false =>
      simp only [Bool.false_eq_true, if_false, decide_eq_true_eq, UInt32.lt_iff_toNat_lt]
      omega

/-- Two different nodes never tie. -/
theorem rankedAhead_total {packetId : UInt32} {a b : UnicastCandidate} (h : a.nodeId ≠ b.nodeId) :
    rankedAhead packetId a b = true ∨ rankedAhead packetId b a = true := by
  have hne : a.nodeId.toNat ≠ b.nodeId.toNat := fun heq => h (UInt32.toNat_inj.mp heq)
  unfold rankedAhead
  simp only [Bool.or_eq_true, Bool.and_eq_true, decide_eq_true_eq, beq_iff_eq]
  cases packetId &&& 1 != 0 with
  | true =>
    simp only [if_true, decide_eq_true_eq, UInt32.lt_iff_toNat_lt]
    omega
  | false =>
    simp only [Bool.false_eq_true, if_false, decide_eq_true_eq, UInt32.lt_iff_toNat_lt]
    omega

theorem rankedAhead_cost {packetId : UInt32} {a b : UnicastCandidate}
    (h : rankedAhead packetId a b = true) : a.cost ≤ b.cost := by
  unfold rankedAhead at h
  simp only [Bool.or_eq_true, Bool.and_eq_true, decide_eq_true_eq, beq_iff_eq] at h
  omega

/-- Whoever is ahead of a direct hop is one. -/
theorem direct_of_ahead {packetId : UInt32} {a b : UnicastCandidate}
    (h : rankedAhead packetId a b = true) (hb : b.direct = true) : a.direct = true := by
  have hcost := rankedAhead_cost h
  unfold UnicastCandidate.direct at hb ⊢
  rw [decide_eq_true_eq] at hb ⊢
  omega

/-! ## Who is a candidate -/

variable {ctx : UnicastRelayContext} {r : UnicastRequest}

/-- Our own entry. -/
def mine (ctx : UnicastRelayContext) (r : UnicastRequest) : UnicastCandidate :=
  ⟨ctx.myNode, myCost ctx r⟩

theorem mem_myCandidate {c : UnicastCandidate} (h : c ∈ myCandidate ctx r) : c = mine ctx r := by
  unfold myCandidate at h
  split at h
  · cases h
  · exact List.mem_singleton.mp h

/-- A neighbour that may relay: it publishes its list, is no end of this hop and
holds the copy, as far as we know its sender. -/
structure Eligible (ctx : UnicastRelayContext) (r : UnicastRequest) (n : UInt32) : Prop where
  neighbour : ∃ e ∈ ctx.edges.listed ctx.myNode, e.toNode = n
  active : ctx.capability.status n = .srActive
  notSource : n ≠ r.source
  notHeard : n ≠ r.heardFrom
  holds : r.heardFrom ≠ 0 → knownToHear ctx.edges r.heardFrom n = true

theorem neighborCandidate_some {e : Edge} {c : UnicastCandidate}
    (he : e ∈ ctx.edges.listed ctx.myNode) (h : neighborCandidate ctx r e = some c) :
    c.nodeId = e.toNode ∧ Eligible ctx r c.nodeId := by
  unfold neighborCandidate at h
  dsimp only at h
  split at h
  · cases h
  rename_i hends
  split at h
  · cases h
  rename_i hstatus
  split at h
  · cases h
  rename_i hheard
  split at h
  · cases h
  cases h
  simp only [Bool.or_eq_true, beq_iff_eq, not_or] at hends
  simp only [Bool.or_eq_true, bne_iff_ne, not_or, ne_eq, Decidable.not_not] at hstatus
  refine ⟨rfl, ⟨e, he, rfl⟩, hstatus.2, hends.1.1.2, hends.1.1.1, fun hknown => ?_⟩
  rw [Bool.not_eq_true, Bool.not_eq_false'] at hheard
  unfold UnicastRelayContext.heardThisCopy at hheard
  simpa [hknown, hends.1.2] using hheard

theorem unicastCandidates_eq : unicastCandidates ctx r =
    myCandidate ctx r ++ (ctx.edges.listed ctx.myNode).filterMap (neighborCandidate ctx r) := by
  refine List.take_of_length_le ?_
  have hmine : (myCandidate ctx r).length ≤ 1 := by
    unfold myCandidate
    split
    · exact Nat.zero_le _
    · exact Nat.le_refl _
  have hothers := List.length_filterMap_le (neighborCandidate ctx r) (ctx.edges.listed ctx.myNode)
  have hlisted := @EdgeStore.listed_length ctx.edges ctx.myNode
  rw [List.length_append]
  unfold MAX_UNICAST_CANDIDATES
  omega

theorem mem_unicastCandidates {c : UnicastCandidate} (h : c ∈ unicastCandidates ctx r) :
    c = mine ctx r ∨ (c.nodeId ≠ ctx.myNode ∧ Eligible ctx r c.nodeId) := by
  rw [unicastCandidates_eq] at h
  rcases List.mem_append.mp h with h | h
  · exact .inl (mem_myCandidate h)
  · obtain ⟨e, he, hc⟩ := List.mem_filterMap.mp h
    obtain ⟨hid, hel⟩ := neighborCandidate_some he hc
    exact .inr ⟨hid ▸ (EdgeStore.listed_ids he).2.2, hel⟩

/-- No node is a candidate twice. -/
theorem unicastCandidates_ids : ((unicastCandidates ctx r).map (·.nodeId)).Nodup := by
  rw [unicastCandidates_eq, List.map_append, List.nodup_append]
  refine ⟨?_, ?_, ?_⟩
  · unfold myCandidate
    split
    · exact List.nodup_nil
    · exact List.nodup_singleton _
  · have hsub := filterMap_keys (·.toNode) (·.nodeId) (neighborCandidate ctx r)
      (ctx.edges.listed ctx.myNode) fun e he c hc => (neighborCandidate_some he hc).1
    exact hsub.nodup EdgeStore.listed_nodup
  · intro a ha b hb
    obtain ⟨c, hc, rfl⟩ := List.mem_map.mp ha
    obtain ⟨d, hd, rfl⟩ := List.mem_map.mp hb
    rw [mem_myCandidate hc]
    obtain ⟨e, he, hde⟩ := List.mem_filterMap.mp hd
    rw [(neighborCandidate_some he hde).1]
    exact Ne.symm (EdgeStore.listed_ids he).2.2

/-! ## The order -/

theorem ids_inj {cs : List UnicastCandidate} (h : (cs.map (·.nodeId)).Nodup) {a b : UnicastCandidate}
    (ha : a ∈ cs) (hb : b ∈ cs) (hne : a ≠ b) : a.nodeId ≠ b.nodeId := fun heq =>
  hne (List.inj_on_of_nodup_map h ha hb heq)

theorem unicastCandidates_decided (packetId : UInt32) :
    Decides (rankedAhead packetId) (unicastCandidates ctx r) := fun _ ha _ hb hne =>
  rankedAhead_total (ids_inj unicastCandidates_ids ha hb hne)

theorem sortedCandidates_ranked :
    Ranked (rankedAhead r.packetId) (sortedCandidates ctx r) ∧
      (sortedCandidates ctx r).Perm (unicastCandidates ctx r) :=
  insertion_ranked (rankedAhead_strict r.packetId) unicastCandidates_ids.of_map
    (unicastCandidates_decided r.packetId)

/-- Fewer than `maxDirects` direct hops are ahead of it, if it is one. -/
def withinCap (maxDirects : Nat) (packetId : UInt32) (cs : List UnicastCandidate)
    (c : UnicastCandidate) : Bool :=
  !c.direct || decide (cs.countP (fun d => d.direct && rankedAhead packetId d c) < maxDirects)

/-- The counter of the loop is the number of direct hops passed, up to the cap. -/
theorem keepDirects_eq {packetId : UInt32} {maxDirects : Nat} {pre cs : List UnicastCandidate}
    (h : Ranked (rankedAhead packetId) (pre ++ cs)) :
    keepDirects maxDirects (min maxDirects (pre.countP (·.direct))) cs =
      cs.filter (withinCap maxDirects packetId (pre ++ cs)) := by
  induction cs generalizing pre with
  | nil => rfl
  | cons c cs ih =>
    have hsplit : pre ++ c :: cs = (pre ++ [c]) ++ cs := by simp
    have hcount : (pre ++ c :: cs).countP (fun d => d.direct && rankedAhead packetId d c) =
        pre.countP (·.direct) := h.countP_ahead (rankedAhead_strict packetId) (·.direct)
    have hrest := @ih (pre ++ [c]) (hsplit ▸ h)
    rw [← hsplit, List.countP_append] at hrest
    unfold keepDirects
    cases hc : c.direct with
    | false =>
      have hone : [c].countP (·.direct) = 0 := by simp [hc]
      rw [hone, Nat.add_zero] at hrest
      rw [if_neg Bool.false_ne_true, hrest, List.filter_cons_of_pos (by simp [withinCap, hc])]
    | true =>
      have hone : [c].countP (·.direct) = 1 := by simp [hc]
      rw [hone] at hrest
      rw [if_pos rfl]
      by_cases hfull : maxDirects ≤ pre.countP (·.direct)
      · rw [if_pos (by omega), List.filter_cons_of_neg (by simp [withinCap, hc, hcount, hfull]),
          ← hrest]
        congr 1
        omega
      · rw [if_neg (by omega), List.filter_cons_of_pos (by simp [withinCap, hc, hcount]; omega),
          ← hrest]
        congr 2
        omega

/-- The cap keeps whoever is within it. -/
theorem capDirects_eq {packetId : UInt32} {maxDirects : Nat} {cs : List UnicastCandidate}
    (h : Ranked (rankedAhead packetId) cs) :
    capDirects maxDirects cs = cs.filter (withinCap maxDirects packetId cs) := by
  cases cs with
  | nil => rfl
  | cons c cs =>
    have hcap : capDirects maxDirects (c :: cs) =
        if c.direct then keepDirects maxDirects 0 (c :: cs) else c :: cs := rfl
    rw [hcap]
    cases hc : c.direct with
    | true =>
      have hkeep := @keepDirects_eq packetId maxDirects [] (c :: cs) h
      rw [List.countP_nil, Nat.min_zero] at hkeep
      rw [if_pos rfl]
      exact hkeep
    | false =>
      -- without a direct hop in front there is none
      rw [if_neg Bool.false_ne_true, List.filter_eq_self.mpr]
      intro d hd
      have hnone : d.direct = false := by
        rcases List.mem_cons.mp hd with rfl | hd
        · exact hc
        · rw [← Bool.not_eq_true]
          intro hdirect
          rw [direct_of_ahead ((List.pairwise_cons.mp h).1 d hd) hdirect] at hc
          cases hc
      simp [withinCap, hnone]

/-- A candidate with a place: whoever the cap keeps. -/
def keepsPlace (ctx : UnicastRelayContext) (r : UnicastRequest) (c : UnicastCandidate) : Bool :=
  withinCap (maxDirects ctx r) r.packetId (unicastCandidates ctx r) c

theorem withinCap_perm {maxDirects : Nat} {packetId : UInt32} {cs ds : List UnicastCandidate}
    (h : cs.Perm ds) (c : UnicastCandidate) :
    withinCap maxDirects packetId cs c = withinCap maxDirects packetId ds c := by
  unfold withinCap
  rw [h.countP_eq]

theorem keptCandidates_eq :
    keptCandidates ctx r = (sortedCandidates ctx r).filter (keepsPlace ctx r) := by
  obtain ⟨hranked, hperm⟩ := @sortedCandidates_ranked ctx r
  unfold keptCandidates
  rw [capDirects_eq hranked]
  exact List.filter_congr fun c _ => withinCap_perm hperm c

/-! ## The slots -/

/-- Candidates of others are numbered and leave our variables alone. -/
theorem scan_others {myNode : UInt32} {hasTransmitted : UInt32 → Bool} {cs : List UnicastCandidate}
    (h : ∀ c ∈ cs, hasTransmitted c.nodeId = true ∨ c.nodeId ≠ myNode) (s : SlotScan) :
    (cs.foldl (SlotScan.step myNode hasTransmitted) s).mySlot = s.mySlot ∧
      (cs.foldl (SlotScan.step myNode hasTransmitted) s).myDirect = s.myDirect ∧
      (cs.foldl (SlotScan.step myNode hasTransmitted) s).slot =
        s.slot + cs.countP fun c => !hasTransmitted c.nodeId := by
  induction cs generalizing s with
  | nil => exact ⟨rfl, rfl, rfl⟩
  | cons c cs ih =>
    obtain ⟨hslot, hdirect, hnext⟩ := ih (fun d hd => h d (List.mem_cons_of_mem _ hd))
      (SlotScan.step myNode hasTransmitted s c)
    rw [List.foldl_cons, hslot, hdirect, hnext]
    unfold SlotScan.step
    cases htx : hasTransmitted c.nodeId with
    | true =>
      rw [if_pos rfl, List.countP_cons_of_neg (by simp [htx])]
      exact ⟨rfl, rfl, rfl⟩
    | false =>
      have hne : c.nodeId ≠ myNode := by
        rcases h c List.mem_cons_self with hc | hc
        · rw [htx] at hc
          cases hc
        · exact hc
      rw [if_neg Bool.false_ne_true, List.countP_cons_of_pos (by simp [htx])]
      simp only [beq_false_of_ne hne, Bool.false_eq_true, if_false]
      exact ⟨trivial, trivial, by omega⟩

section

variable {myNode : UInt32} {hasTransmitted : UInt32 → Bool} {s : SlotScan} {c : UnicastCandidate}

theorem step_slot (hid : c.nodeId = myNode) :
    (SlotScan.step myNode hasTransmitted s c).mySlot =
      if hasTransmitted c.nodeId then s.mySlot else some s.slot := by
  unfold SlotScan.step
  split
  · rfl
  · simp [hid]

theorem step_direct (hid : c.nodeId = myNode) :
    (SlotScan.step myNode hasTransmitted s c).myDirect =
      if hasTransmitted c.nodeId then s.myDirect else c.direct := by
  unfold SlotScan.step
  split
  · rfl
  · simp [hid]

end

/-- Our slot is the number of counted candidates before us. -/
theorem scan_ours {myNode : UInt32} {hasTransmitted : UInt32 → Bool} {cs : List UnicastCandidate}
    {k : Nat} (hids : (cs.map (·.nodeId)).Nodup)
    (h : (cs.foldl (SlotScan.step myNode hasTransmitted) {}).mySlot = some k) :
    ∃ pre c post, cs = pre ++ c :: post ∧ c.nodeId = myNode ∧ hasTransmitted myNode = false ∧
      k = pre.countP (fun c => !hasTransmitted c.nodeId) ∧
      (cs.foldl (SlotScan.step myNode hasTransmitted) {}).myDirect = c.direct := by
  by_cases hours : ∃ c ∈ cs, c.nodeId = myNode
  · obtain ⟨c, hc, hid⟩ := hours
    obtain ⟨pre, post, rfl⟩ := List.append_of_mem hc
    rw [List.map_append, List.nodup_append, List.map_cons, List.nodup_cons] at hids
    obtain ⟨-, ⟨hafter, -⟩, hbefore⟩ := hids
    have hpre : ∀ d ∈ pre, hasTransmitted d.nodeId = true ∨ d.nodeId ≠ myNode := fun d hd =>
      .inr fun heq => hbefore d.nodeId (List.mem_map_of_mem hd) c.nodeId List.mem_cons_self
        (heq.trans hid.symm)
    have hpost : ∀ d ∈ post, hasTransmitted d.nodeId = true ∨ d.nodeId ≠ myNode := fun d hd =>
      .inr fun heq => hafter (hid ▸ heq ▸ List.mem_map_of_mem hd)
    obtain ⟨hslot, -, hnext⟩ := scan_others hpre {}
    rw [List.foldl_append, List.foldl_cons] at h ⊢
    obtain ⟨hslot', hdirect', -⟩ := scan_others hpost
      (SlotScan.step myNode hasTransmitted (pre.foldl (SlotScan.step myNode hasTransmitted) {}) c)
    rw [hslot', step_slot hid] at h
    rw [step_direct hid] at hdirect'
    cases htx : hasTransmitted c.nodeId with
    | true =>
      rw [htx, if_pos rfl, hslot] at h
      cases h
    | false =>
      rw [htx, if_neg Bool.false_ne_true] at h hdirect'
      refine ⟨pre, c, post, rfl, hid, hid ▸ htx, ?_, hdirect'⟩
      obtain rfl := Option.some.inj h
      rw [hnext]
      exact Nat.zero_add _
  · have hall : ∀ c ∈ cs, hasTransmitted c.nodeId = true ∨ c.nodeId ≠ myNode := fun c hc =>
      .inr fun heq => hours ⟨c, hc, heq⟩
    rw [(scan_others hall {}).1] at h
    cases h

/-- A candidate with a place that has not transmitted. -/
def takesSlot (ctx : UnicastRelayContext) (r : UnicastRequest) (c : UnicastCandidate) : Bool :=
  keepsPlace ctx r c && !r.hasTransmitted c.nodeId

/-- The slots given to candidates ahead of us. -/
def slotsAhead (ctx : UnicastRelayContext) (r : UnicastRequest) : Nat :=
  (unicastCandidates ctx r).countP fun c =>
    takesSlot ctx r c && rankedAhead r.packetId c (mine ctx r)

/-- What a plan says of us. -/
structure Placed (ctx : UnicastRelayContext) (r : UnicastRequest) (plan : UnicastRelayPlan) :
    Prop where
  candidate : mine ctx r ∈ unicastCandidates ctx r
  takes : takesSlot ctx r (mine ctx r) = true
  slot : plan.slotIndex = slotsAhead ctx r
  backup : plan.lastHopBackup = ((mine ctx r).direct && destSr ctx r && plan.slotIndex == 1)
  flood : plan.nonfinalFlood = true → (mine ctx r).direct = false

theorem plan_spec {plan : UnicastRelayPlan} (h : planUnicastRelay ctx r = .ok plan) :
    Placed ctx r plan := by
  unfold planUnicastRelay at h
  split at h
  · cases h
  split at h
  · cases h
  dsimp only at h
  split at h
  · cases h
  rename_i k hk
  cases h
  obtain ⟨hranked, hperm⟩ := @sortedCandidates_ranked ctx r
  have hids : ((keptCandidates ctx r).map (·.nodeId)).Nodup := by
    rw [keptCandidates_eq]
    exact ((hperm.map _).nodup_iff.mpr unicastCandidates_ids).sublist (List.filter_sublist.map _)
  obtain ⟨pre, c, post, hkept, hid, hsilent, hcount, hdirect⟩ := scan_ours hids hk
  have hmem : c ∈ keptCandidates ctx r := hkept ▸ List.mem_append_right _ List.mem_cons_self
  rw [keptCandidates_eq, List.mem_filter] at hmem
  have hcandidate := hperm.mem_iff.mp hmem.1
  have hmine : c = mine ctx r := (mem_unicastCandidates hcandidate).resolve_right fun h => h.1 hid
  subst hmine
  have hkeptRanked : Ranked (rankedAhead r.packetId) (keptCandidates ctx r) := by
    rw [keptCandidates_eq]
    exact hranked.filter _
  have htakes : takesSlot ctx r (mine ctx r) = true := by
    unfold takesSlot
    rw [hmem.2, Bool.true_and]
    exact Bool.not_eq_true' _ ▸ hsilent
  refine ⟨hcandidate, htakes, ?_, ?_, ?_⟩
  · have hplace := (hkept ▸ hkeptRanked).countP_ahead (rankedAhead_strict r.packetId)
      fun c => !r.hasTransmitted c.nodeId
    rw [← hkept, keptCandidates_eq, List.countP_filter, hperm.countP_eq] at hplace
    change k = _
    rw [hcount, ← hplace]
    refine List.countP_congr fun d _ => ?_
    unfold takesSlot
    simp only [Bool.and_eq_true]
    constructor
    · rintro ⟨⟨hnot, hahead⟩, hkeeps⟩
      exact ⟨⟨hkeeps, hnot⟩, hahead⟩
    · rintro ⟨⟨hkeeps, hnot⟩, hahead⟩
      exact ⟨⟨hnot, hahead⟩, hkeeps⟩
  · change (_ && destSr ctx r && k == 1) = _
    rw [hdirect]
  · intro hflood
    change (!_ && _ && _) = true at hflood
    rw [hdirect] at hflood
    simp only [Bool.and_eq_true, Bool.not_eq_true'] at hflood
    exact hflood.1.1

/-! ## The order of the tables -/

section

variable {edges' : EdgeStore}

/-- The same context over another table of edges. -/
def UnicastRelayContext.over (ctx : UnicastRelayContext) (edges' : EdgeStore) :
    UnicastRelayContext := { ctx with edges := edges' }

theorem canFinish_over (h : Reordered ctx.edges edges') :
    (ctx.over edges').canFinish = ctx.canFinish := by
  funext node destination nowMs
  unfold UnicastRelayContext.canFinish
  rw [h.deliveryHopCostFixed]
  rfl

theorem candidateCost_over (h : Reordered ctx.edges edges') :
    (ctx.over edges').candidateCost = ctx.candidateCost := by
  funext node destination myNextHop nowMs
  unfold UnicastRelayContext.candidateCost UnicastRelayContext.indirectCost
    UnicastRelayContext.chainEgress
  rw [h.deliveryHopCostFixed, h.canDeliver, h.hopCostFixed, h.edge]
  rfl

theorem betterPositioned_over (h : Reordered ctx.edges edges') :
    (ctx.over edges').betterPositionedNeighbor = ctx.betterPositionedNeighbor := by
  funext heardFrom destination nowMs hasTransmitted
  unfold UnicastRelayContext.betterPositionedNeighbor UnicastRelayContext.reaches
  rw [canFinish_over h, h.canDeliver]
  exact ((h.listed ctx.myNode).any_eq).symm

theorem unicastCovered_over (h : Reordered ctx.edges edges') :
    unicastCovered (ctx.over edges') r = unicastCovered ctx r := by
  unfold unicastCovered UnicastRelayContext.reaches
  rw [canFinish_over h, betterPositioned_over h]
  rfl

theorem myCost_over (h : Reordered ctx.edges edges') : myCost (ctx.over edges') r = myCost ctx r := by
  unfold myCost
  rw [candidateCost_over h]
  rfl

theorem neighborCandidate_over (h : Reordered ctx.edges edges') :
    neighborCandidate (ctx.over edges') r = neighborCandidate ctx r := by
  funext e
  unfold neighborCandidate UnicastRelayContext.heardThisCopy
  rw [candidateCost_over h, h.knownToHear]
  rfl

theorem unicastCandidates_over (h : Reordered ctx.edges edges') :
    (unicastCandidates ctx r).Perm (unicastCandidates (ctx.over edges') r) := by
  have hmine : myCandidate (ctx.over edges') r = myCandidate ctx r := by
    unfold myCandidate
    rw [myCost_over h]
    rfl
  rw [unicastCandidates_eq, unicastCandidates_eq, hmine, neighborCandidate_over h]
  exact ((h.listed ctx.myNode).filterMap _).append_left _

theorem sortedCandidates_over (h : Reordered ctx.edges edges') :
    sortedCandidates (ctx.over edges') r = sortedCandidates ctx r := by
  obtain ⟨hranked, hperm⟩ := @sortedCandidates_ranked ctx r
  obtain ⟨hranked', hperm'⟩ := @sortedCandidates_ranked (ctx.over edges') r
  exact hranked'.unique (rankedAhead_strict r.packetId) hranked
    (hperm'.trans ((unicastCandidates_over h).symm.trans hperm.symm))

theorem planUnicastRelay_over (h : Reordered ctx.edges edges') :
    planUnicastRelay (ctx.over edges') r = planUnicastRelay ctx r := by
  have hkept : keptCandidates (ctx.over edges') r = keptCandidates ctx r := by
    unfold keptCandidates
    rw [sortedCandidates_over h]
    rfl
  unfold planUnicastRelay lastHopReserved
  rw [unicastCovered_over h, sortedCandidates_over h, hkept]
  rfl

end

/-! ## Two nodes -/

theorem takesSlot_congr {ctx' : UnicastRelayContext} {r' : UnicastRequest}
    (hid : r'.packetId = r.packetId) (hsr : destSr ctx' r' = destSr ctx r)
    (hcs : (unicastCandidates ctx' r').Perm (unicastCandidates ctx r)) {c : UnicastCandidate}
    (htx : r'.hasTransmitted c.nodeId = r.hasTransmitted c.nodeId) :
    takesSlot ctx' r' c = takesSlot ctx r c := by
  unfold takesSlot keepsPlace maxDirects
  rw [hid, hsr, htx, withinCap_perm hcs]

/-- A unicast plan gives us the place its ranking says, whatever order the edges
are stored in. Whoever is counted publishes its list and heard the transmitter,
where there is one. Two nodes with the same costs that agree on the destination
and on who has transmitted take different slots. -/
theorem unicast_cost_ladder (ctx : UnicastRelayContext) (r : UnicastRequest)
    (plan : UnicastRelayPlan) (h : planUnicastRelay ctx r = .ok plan) :
    plan.slotIndex = slotsAhead ctx r ∧
      (∀ c ∈ unicastCandidates ctx r, c.nodeId ≠ ctx.myNode → Eligible ctx r c.nodeId) ∧
      (plan.lastHopBackup = true → (mine ctx r).direct = true ∧
        (unicastCandidates ctx r).countP (rankedAhead r.packetId · (mine ctx r)) = 1) ∧
      ¬(plan.lastHopBackup = true ∧ plan.nonfinalFlood = true) ∧
      (∀ edges', Reordered ctx.edges edges' →
        planUnicastRelay { ctx with edges := edges' } r = .ok plan) ∧
      ∀ ctx' r' plan', planUnicastRelay ctx' r' = .ok plan' → ctx'.myNode ≠ ctx.myNode →
        r'.packetId = r.packetId → destSr ctx' r' = destSr ctx r →
        (unicastCandidates ctx' r').Perm (unicastCandidates ctx r) →
        (∀ c ∈ unicastCandidates ctx r,
          r'.hasTransmitted c.nodeId = r.hasTransmitted c.nodeId) →
        plan'.slotIndex ≠ plan.slotIndex := by
  have hplan := plan_spec h
  refine ⟨hplan.slot, fun c hc hne => ?_, fun hbackup => ?_, ?_, fun edges' hre => ?_, ?_⟩
  · rcases mem_unicastCandidates hc with rfl | ⟨-, hel⟩
    · exact absurd rfl hne
    · exact hel
  · rw [hplan.backup, Bool.and_eq_true, Bool.and_eq_true, beq_iff_eq] at hbackup
    obtain ⟨⟨hdirect, hsr⟩, hslot⟩ := hbackup
    refine ⟨hdirect, ?_⟩
    -- those ahead are direct hops, and the cap leaves room for one of them
    have hahead : (unicastCandidates ctx r).countP (rankedAhead r.packetId · (mine ctx r)) =
        (unicastCandidates ctx r).countP fun d =>
          d.direct && rankedAhead r.packetId d (mine ctx r) := by
      refine List.countP_congr fun d _ => ?_
      rw [Bool.and_eq_true]
      exact ⟨fun hd => ⟨direct_of_ahead hd hdirect, hd⟩, And.right⟩
    have hcap : (unicastCandidates ctx r).countP (fun d =>
        d.direct && rankedAhead r.packetId d (mine ctx r)) < 2 := by
      have hkeeps := (Bool.and_eq_true _ _ ▸ hplan.takes).1
      unfold keepsPlace withinCap maxDirects at hkeeps
      simpa [hdirect, hsr] using hkeeps
    have hcounted : slotsAhead ctx r ≤
        (unicastCandidates ctx r).countP (rankedAhead r.packetId · (mine ctx r)) :=
      List.countP_mono_left fun d _ hd => (Bool.and_eq_true _ _ ▸ hd).2
    rw [← hplan.slot] at hcounted
    omega
  · rintro ⟨hbackup, hflood⟩
    rw [hplan.backup, hplan.flood hflood, Bool.false_and, Bool.false_and] at hbackup
    cases hbackup
  · exact (planUnicastRelay_over hre).trans h
  · intro ctx' r' plan' h' hnode hid hsr hcs htx hsame
    have hplan' := plan_spec h'
    have hmem' := hcs.mem_iff.mp hplan'.candidate
    have htakes' := hplan'.takes
    rw [takesSlot_congr hid hsr hcs (htx _ hmem')] at htakes'
    have hslot' : slotsAhead ctx' r' = (unicastCandidates ctx r).countP fun c =>
        takesSlot ctx r c && rankedAhead r.packetId c (mine ctx' r') := by
      unfold slotsAhead
      rw [hcs.countP_eq]
      refine List.countP_congr fun c hc => ?_
      rw [takesSlot_congr hid hsr hcs (htx c hc), hid]
    rw [hplan.slot, hplan'.slot, hslot'] at hsame
    unfold slotsAhead at hsame
    rcases @rankedAhead_total r.packetId (mine ctx r) (mine ctx' r') (Ne.symm hnode) with hlt | hlt
    · have := (rankedAhead_strict r.packetId).countP_lt hplan.candidate hplan.takes hlt
      omega
    · have := (rankedAhead_strict r.packetId).countP_lt hmem' htakes' hlt
      omega

/-! ## Three nodes with the same copy

Nodes 1, 2 and 3 publish their lists and have heard node 5. Nodes 1 and 2 reach
node 9 at the same price, node 3 reaches it over node 1. -/

/-- An edge to a node that hears us. -/
def heardEdge (n : UInt32) : Edge :=
  { toNode := n, etxFixed := 100, source := .reported, hearsUs := true }

/-- What one of them plans with; it may not know yet that node 9 publishes. -/
def trioContext (myNode : UInt32) (publishes : Bool) : UnicastRelayContext where
  myNode := myNode
  edges := {
    nodes := ⟨[⟨1, 1000, ⟨[heardEdge 2, heardEdge 3, heardEdge 5], by decide⟩, by decide, by decide⟩,
      ⟨2, 1000, ⟨[heardEdge 1, heardEdge 3, heardEdge 5], by decide⟩, by decide, by decide⟩,
      ⟨3, 1000, ⟨[heardEdge 1, heardEdge 2, heardEdge 5], by decide⟩, by decide, by decide⟩,
      ⟨9, 1000, ⟨[heardEdge 1, heardEdge 2], by decide⟩, by decide, by decide⟩], by decide⟩
    nodup := by decide }
  capability := ⟨⟨[⟨1, .srActive, 0, 1000⟩, ⟨2, .srActive, 0, 1000⟩, ⟨3, .srActive, 0, 1000⟩,
    ⟨9, if publishes then .srActive else .unknown, 0, 1000⟩], by cases publishes <;> decide⟩⟩
  downstream := ⟨.empty⟩
  downstreamTtlMs := 600000

/-- A packet of node 5 to node 9. -/
def trioRequest (heardFrom : UInt32) (hasTransmitted : UInt32 → Bool) : UnicastRequest where
  packetId := 6
  source := 5
  heardFrom := heardFrom
  destination := 9
  myNextHop := 1
  nowMs := 2000
  hasTransmitted := hasTransmitted

/-- The slot a plan gives us. -/
def slotOf (plan : Except SrSkipReason UnicastRelayPlan) : Option Nat :=
  plan.toOption.map (·.slotIndex)

theorem slotOf_some {plan : Except SrSkipReason UnicastRelayPlan} {k : Nat}
    (h : slotOf plan = some k) : ∃ p, plan = .ok p ∧ p.slotIndex = k := by
  cases plan with
  | error e => cases h
  | ok p => exact ⟨p, rfl, Option.some.inj h⟩

/-- Node 2 is behind node 1. -/
theorem unicast_ladder_sample :
    ∃ plan, planUnicastRelay (trioContext 2 true) (trioRequest 5 fun _ => false) = .ok plan ∧
      plan.slotIndex = slotsAhead (trioContext 2 true) (trioRequest 5 fun _ => false) ∧
      plan.slotIndex = 1 := by
  have hslot : slotOf (planUnicastRelay (trioContext 2 true) (trioRequest 5 fun _ => false)) =
      some 1 := by
    decide +kernel
  obtain ⟨plan, hplan, hone⟩ := slotOf_some hslot
  exact ⟨plan, hplan, (unicast_cost_ladder _ _ plan hplan).1, hone⟩

/-- Two nodes with the same candidates at the same costs take one slot. -/
def SlotShared (ctx ctx' : UnicastRelayContext) (r r' : UnicastRequest) : Prop :=
  (unicastCandidates ctx' r').Perm (unicastCandidates ctx r) ∧ ctx'.myNode ≠ ctx.myNode ∧
    ∃ k, slotOf (planUnicastRelay ctx r) = some k ∧ slotOf (planUnicastRelay ctx' r') = some k

/-- Without a known transmitter a candidate is counted that heard none. Nodes
with the same costs share a slot once one of them has heard a copy that the
other has not, or while one of them does not know that the destination
publishes. -/
theorem unicast_ladder_gaps :
    ((∃ plan, planUnicastRelay (trioContext 2 true) (trioRequest 0 fun _ => false) = .ok plan) ∧
        ⟨1, 100⟩ ∈ unicastCandidates (trioContext 2 true) (trioRequest 0 fun _ => false) ∧
        knownToHear (trioContext 2 true).edges 0 1 = false) ∧
      SlotShared (trioContext 2 true) (trioContext 3 true) (trioRequest 5 fun _ => false)
        (trioRequest 5 fun n => n == 1) ∧
      SlotShared (trioContext 2 true) (trioContext 3 false) (trioRequest 5 fun _ => false)
        (trioRequest 5 fun _ => false) := by
  refine ⟨⟨?_, by decide +kernel, by decide +kernel⟩, ⟨by decide +kernel, by decide, 1, ?_, ?_⟩,
    ⟨by decide +kernel, by decide, 1, ?_, ?_⟩⟩
  · have hslot : slotOf (planUnicastRelay (trioContext 2 true) (trioRequest 0 fun _ => false)) =
        some 1 := by
      decide +kernel
    obtain ⟨plan, hplan, -⟩ := slotOf_some hslot
    exact ⟨plan, hplan⟩
  all_goals decide +kernel

end Meshrustic.Relay
