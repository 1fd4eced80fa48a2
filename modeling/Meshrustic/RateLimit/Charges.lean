import Meshrustic.RateLimit.Gate

/-!
# What each charge touches (`mesh-routing/src/rate_limit.rs`)

`shouldDrop` charges its tables one after the other, and each charge leaves the
tables of the others alone: the destinations are charged first, then the
originators, the young bucket and the relays. The lemmas here say so, so that
the invariants of one table look at its own charge only.
-/
namespace Meshrustic.RateLimit

/-- The tables with buckets, and who the node is. -/
structure Ledgers where
  originators : Table MAX_ORIGINATORS OriginatorEntry
  relays : Table MAX_RELAYS RelayEntry
  unresolvedRelay : BucketState
  dests : Table MAX_DESTS DestEntry
  youngBucket : BucketState
  nodeNum : UInt32
  enabled : Bool

/-- The buckets of relays, and who the node is. -/
structure RelayPart where
  relays : Table MAX_RELAYS RelayEntry
  unresolvedRelay : BucketState
  nodeNum : UInt32
  enabled : Bool

def Ledgers.relayPart (s : Ledgers) : RelayPart :=
  ⟨s.relays, s.unresolvedRelay, s.nodeNum, s.enabled⟩

namespace NodeRateLimiter

def ledgers (l : NodeRateLimiter) : Ledgers where
  originators := l.originators
  relays := l.relays
  unresolvedRelay := l.unresolvedRelay
  dests := l.dests
  youngBucket := l.youngBucket
  nodeNum := l.nodeNum
  enabled := l.enabled

def relayPart (l : NodeRateLimiter) : RelayPart where
  relays := l.relays
  unresolvedRelay := l.unresolvedRelay
  nodeNum := l.nodeNum
  enabled := l.enabled

theorem relayPart_of_ledgers {l m : NodeRateLimiter} (h : l.ledgers = m.ledgers) :
    l.relayPart = m.relayPart :=
  congrArg Ledgers.relayPart h

theorem dests_of_ledgers {l m : NodeRateLimiter} (h : l.ledgers = m.ledgers) : l.dests = m.dests :=
  congrArg Ledgers.dests h

/-! ## The senders of a destination are no bucket -/

theorem rollDestSenders_dest (e : DestEntry) (nowMs : UInt32) :
    (rollDestSenders e nowMs).dest = e.dest := by
  unfold rollDestSenders
  split <;> rfl

theorem rollDestSenders_nodeId (e : DestEntry) (nowMs : UInt32) :
    (rollDestSenders e nowMs).nodeId = e.nodeId := by
  unfold rollDestSenders
  split <;> rfl

theorem noteDestSender_dest (e : DestEntry) (sender : UInt32) :
    (noteDestSender e sender).dest = e.dest := by
  unfold noteDestSender
  split
  · rfl
  · split <;> rfl

theorem noteDestSender_nodeId (e : DestEntry) (sender : UInt32) :
    (noteDestSender e sender).nodeId = e.nodeId := by
  unfold noteDestSender
  split
  · rfl
  · split <;> rfl

section

variable (l : NodeRateLimiter) (nodeId nowMs : UInt32) (pkt : RateLimitPacket)
  (proximity : UInt32 → GraphProximity)

/-! ## The young tables have no buckets -/

theorem noteBoot_ledgers : (l.noteBoot nowMs).ledgers = l.ledgers := by
  unfold noteBoot
  split <;> rfl

theorem addAlumni_ledgers : (l.addAlumni nodeId).1.ledgers = l.ledgers := by
  unfold addAlumni
  split
  · rfl
  · split <;> rfl

theorem insertYoung_ledgers : (l.insertYoung nodeId nowMs).ledgers = l.ledgers := by
  unfold insertYoung
  split <;> rfl

theorem expireIfOld_ledgers : (l.expireIfOld nodeId nowMs).ledgers = l.ledgers := by
  unfold expireIfOld
  split
  · rfl
  · split
    · rfl
    · dsimp only
      split
      · rfl
      · split
        · exact addAlumni_ledgers _ _
        · exact addAlumni_ledgers _ _

theorem noteOriginator_ledgers : (l.noteOriginator nodeId nowMs).ledgers = l.ledgers := by
  rw [← expireIfOld_ledgers l nodeId nowMs]
  unfold noteOriginator
  dsimp only
  split
  · rfl
  · split
    · exact addAlumni_ledgers _ _
    · split
      · exact insertYoung_ledgers _ _ _
      · split
        · rfl
        · split
          · rfl
          · rw [insertYoung_ledgers]
            exact addAlumni_ledgers _ _

theorem isYoung_ledgers : (l.isYoung nodeId nowMs).1.ledgers = l.ledgers := by
  unfold isYoung
  split
  · split <;> rfl
  · split <;> rfl

theorem maybeAnnounce_ledgers (util : Float32) : (l.maybeAnnounce nowMs util).ledgers = l.ledgers := by
  unfold maybeAnnounce
  split
  · rfl
  · split <;> rfl

theorem countsAsYoung_ledgers : (l.countsAsYoung pkt).1.ledgers = l.ledgers := by
  unfold countsAsYoung
  dsimp only
  split
  · rfl
  · split
    · exact isYoung_ledgers _ _ _
    · rfl

theorem coverageGate_ledgers : (l.coverageGate nowMs).1.ledgers = l.ledgers := by
  unfold coverageGate
  dsimp only
  split
  · rfl
  · split <;> rfl

theorem wouldDrop_ledgers : (l.wouldDrop pkt).1.ledgers = l.ledgers := by
  unfold wouldDrop
  dsimp only
  split
  · rfl
  · split
    · rfl
    · split
      · rfl
      · split
        · exact l.countsAsYoung_ledgers pkt
        · split <;> exact l.countsAsYoung_ledgers pkt

/-- The young bucket is charged when the packet counts as one of a young
node. -/
theorem chargeYoung_ledgers :
    (l.chargeYoung pkt).1.ledgers =
      if (l.countsAsYoung pkt).2 then
        { l.ledgers with
          youngBucket := (l.youngBucket.checkAndUpdateBucket YOUNG_TRIP YOUNG_CLEAR 1 pkt.nowMs 0
            .young).1 }
      else l.ledgers := by
  have hcounts := l.countsAsYoung_ledgers pkt
  have hbucket : (l.countsAsYoung pkt).1.youngBucket = l.youngBucket :=
    congrArg Ledgers.youngBucket hcounts
  unfold chargeYoung
  dsimp only
  generalize l.countsAsYoung pkt = r at hcounts hbucket ⊢
  cases r.2 with
  | false => exact hcounts
  | true =>
    simp only [Bool.not_true, Bool.false_eq_true, if_false, if_true]
    rw [← hcounts, ← hbucket]
    split
    · exact maybeAnnounce_ledgers _ _ _
    · rfl

/-! ## One table for each charge -/

theorem getOrCreateDest_relayPart {r : NodeRateLimiter × Nat}
    (h : l.getOrCreateDest nodeId nowMs proximity = some r) : r.1.relayPart = l.relayPart := by
  unfold getOrCreateDest at h
  split at h
  · cases h
    rfl
  · obtain ⟨q, -, rfl⟩ := Option.map_eq_some_iff.mp h
    rfl

theorem chargeDestVolume_relayPart :
    (l.chargeDestVolume pkt proximity).1.relayPart = l.relayPart := by
  unfold chargeDestVolume
  split
  · rfl
  · split
    · split
      · rfl
      · rename_i h
        rw [← getOrCreateDest_relayPart _ _ _ _ h]
        split <;> rfl
    · split
      · rfl
      · split <;> rfl

theorem getOrCreateOriginator_ledgers {r : NodeRateLimiter × Nat}
    (h : l.getOrCreateOriginator nodeId nowMs proximity = some r)
    (t : Table MAX_ORIGINATORS OriginatorEntry) :
    { r.1.ledgers with originators := t } = { l.ledgers with originators := t } := by
  unfold getOrCreateOriginator at h
  split at h
  · obtain ⟨e, -, rfl⟩ := Option.map_eq_some_iff.mp h
    rfl
  · obtain ⟨q, -, rfl⟩ := Option.map_eq_some_iff.mp h
    rfl

/-- Whatever the originators are, the other tables stay. -/
theorem chargeOriginator_ledgers (t : Table MAX_ORIGINATORS OriginatorEntry) :
    { (l.chargeOriginator pkt proximity).1.ledgers with originators := t } =
      { l.ledgers with originators := t } := by
  unfold chargeOriginator
  dsimp only
  split
  · rfl
  · rename_i h
    have hledgers := getOrCreateOriginator_ledgers _ _ _ _ h t
    split
    · exact hledgers
    · exact hledgers

theorem getOrCreateRelay_dests {r : NodeRateLimiter × Nat}
    (h : l.getOrCreateRelay nodeId nowMs proximity = some r) : r.1.dests = l.dests := by
  unfold getOrCreateRelay at h
  split at h
  · cases h
    rfl
  · obtain ⟨q, -, rfl⟩ := Option.map_eq_some_iff.mp h
    rfl

theorem chargeRelay_dests : (l.chargeRelay pkt proximity).1.dests = l.dests := by
  have hinit : (if l.unresolvedRelay.windowStartMs == 0 && l.unresolvedRelay.count == 0 &&
      !l.unresolvedRelay.limited then
        { l with unresolvedRelay := { l.unresolvedRelay with windowStartMs := pkt.nowMs } }
      else l).dests = l.dests := by
    split <;> rfl
  rw [← hinit]
  unfold chargeRelay
  dsimp only
  split
  · split
    · rfl
    · rename_i h
      rw [← getOrCreateRelay_dests _ _ _ _ h]
      split <;> rfl
  · split <;> rfl

/-! ## A whole packet -/

theorem chargedDest_relayPart : (l.chargedDest pkt proximity).1.relayPart = l.relayPart := by
  unfold chargedDest
  rw [chargeDestVolume_relayPart]
  unfold noteBoot
  split <;> rfl

/-- The part of `should_drop` behind the destination: every table but its own
is out of reach of a charge. -/
theorem chargeSource_dests : (l.chargeSource pkt proximity).1.dests = l.dests := by
  have hnote : (if rateLimitBucket pkt.decodedPortnum != .unknown then
      l.noteOriginator pkt.fromNode pkt.nowMs else l).dests = l.dests := by
    split
    · exact dests_of_ledgers (noteOriginator_ledgers _ _ _)
    · rfl
  rw [← hnote]
  unfold chargeSource
  dsimp only
  generalize (if rateLimitBucket pkt.decodedPortnum != .unknown then
    l.noteOriginator pkt.fromNode pkt.nowMs else l) = m
  have horig : (m.chargeOriginator pkt proximity).1.dests = m.dests :=
    congrArg Ledgers.dests (m.chargeOriginator_ledgers pkt proximity .empty)
  have hyoung : ((m.chargeOriginator pkt proximity).1.chargeYoung pkt).1.dests = m.dests := by
    rw [← horig]
    have h := congrArg Ledgers.dests ((m.chargeOriginator pkt proximity).1.chargeYoung_ledgers pkt)
    exact h.trans (by split <;> rfl)
  split
  · rw [chargeRelay_dests]
    exact hyoung
  · exact hyoung

/-- What a packet does to the destinations. -/
theorem shouldDrop_dests :
    (l.shouldDrop pkt proximity).1.dests =
      if l.ignores pkt then l.dests else (l.chargedDest pkt proximity).1.dests := by
  unfold shouldDrop
  split
  · rfl
  · dsimp only
    split
    · split <;> rfl
    · exact chargeSource_dests _ _ _

theorem chargeSource_relayPart :
    (l.chargeSource pkt proximity).1.relayPart = l.relayPart ∨
      ∃ m : NodeRateLimiter, m.relayPart = l.relayPart ∧
        (l.chargeSource pkt proximity).1.relayPart = (m.chargeRelay pkt proximity).1.relayPart := by
  have hnote : (if rateLimitBucket pkt.decodedPortnum != .unknown then
      l.noteOriginator pkt.fromNode pkt.nowMs else l).relayPart = l.relayPart := by
    split
    · exact relayPart_of_ledgers (noteOriginator_ledgers _ _ _)
    · rfl
  rw [← hnote]
  unfold chargeSource
  dsimp only
  generalize (if rateLimitBucket pkt.decodedPortnum != .unknown then
    l.noteOriginator pkt.fromNode pkt.nowMs else l) = m
  have horig : (m.chargeOriginator pkt proximity).1.relayPart = m.relayPart :=
    congrArg Ledgers.relayPart (m.chargeOriginator_ledgers pkt proximity .empty)
  have hyoung : ((m.chargeOriginator pkt proximity).1.chargeYoung pkt).1.relayPart = m.relayPart := by
    rw [← horig]
    have h := congrArg Ledgers.relayPart
      ((m.chargeOriginator pkt proximity).1.chargeYoung_ledgers pkt)
    exact h.trans (by split <;> rfl)
  split
  · exact .inr ⟨_, hyoung, rfl⟩
  · exact .inl hyoung

/-- What a packet does to the relays: nothing, or a charge. -/
theorem shouldDrop_relayPart :
    (l.shouldDrop pkt proximity).1.relayPart = l.relayPart ∨
      ∃ m : NodeRateLimiter, m.relayPart = l.relayPart ∧
        (l.shouldDrop pkt proximity).1.relayPart = (m.chargeRelay pkt proximity).1.relayPart := by
  unfold shouldDrop
  split
  · exact .inl rfl
  · have hdest := l.chargedDest_relayPart pkt proximity
    dsimp only
    split
    · left
      split <;> exact hdest
    · rcases (l.chargedDest pkt proximity).1.chargeSource_relayPart pkt proximity with
        hsame | ⟨m, hm, hcharge⟩
      · exact .inl (hsame.trans hdest)
      · exact .inr ⟨m, hm.trans hdest, hcharge⟩

theorem getOrCreateRelay_who {r : NodeRateLimiter × Nat}
    (h : l.getOrCreateRelay nodeId nowMs proximity = some r) :
    r.1.nodeNum = l.nodeNum ∧ r.1.enabled = l.enabled := by
  unfold getOrCreateRelay at h
  split at h
  · cases h
    exact ⟨rfl, rfl⟩
  · obtain ⟨q, -, rfl⟩ := Option.map_eq_some_iff.mp h
    exact ⟨rfl, rfl⟩

theorem chargeRelay_who :
    (l.chargeRelay pkt proximity).1.nodeNum = l.nodeNum ∧
      (l.chargeRelay pkt proximity).1.enabled = l.enabled := by
  generalize hk : (if l.unresolvedRelay.windowStartMs == 0 && l.unresolvedRelay.count == 0 &&
      !l.unresolvedRelay.limited then
        { l with unresolvedRelay := { l.unresolvedRelay with windowStartMs := pkt.nowMs } }
      else l) = k
  have hwho : k.nodeNum = l.nodeNum ∧ k.enabled = l.enabled := by
    rw [← hk]
    split <;> exact ⟨rfl, rfl⟩
  rw [← hwho.1, ← hwho.2]
  unfold chargeRelay
  dsimp only
  rw [hk]
  split
  · split
    · exact ⟨rfl, rfl⟩
    · rename_i h
      rw [← (getOrCreateRelay_who _ _ _ _ h).1, ← (getOrCreateRelay_who _ _ _ _ h).2]
      split <;> exact ⟨rfl, rfl⟩
  · split <;> exact ⟨rfl, rfl⟩

/-- A packet changes neither who the node is nor whether it limits. -/
theorem shouldDrop_who :
    (l.shouldDrop pkt proximity).1.nodeNum = l.nodeNum ∧
      (l.shouldDrop pkt proximity).1.enabled = l.enabled := by
  rcases l.shouldDrop_relayPart pkt proximity with hsame | ⟨m, hm, hcharge⟩
  · exact ⟨congrArg RelayPart.nodeNum hsame, congrArg RelayPart.enabled hsame⟩
  · obtain ⟨hnode, henabled⟩ := m.chargeRelay_who pkt proximity
    exact ⟨(congrArg RelayPart.nodeNum hcharge).trans (hnode.trans (congrArg RelayPart.nodeNum hm)),
      (congrArg RelayPart.enabled hcharge).trans
        (henabled.trans (congrArg RelayPart.enabled hm))⟩

theorem sourceNoted_youngBucket : (l.sourceNoted pkt proximity).youngBucket = l.youngBucket := by
  have hdest : (l.chargedDest pkt proximity).1.youngBucket = l.youngBucket := by
    refine (congrArg Youth.youngBucket (l.chargedDest_youth pkt proximity)).trans ?_
    exact congrArg Ledgers.youngBucket (l.noteBoot_ledgers pkt.nowMs)
  rw [← hdest]
  unfold sourceNoted
  refine (congrArg Youth.youngBucket (chargeOriginator_youth _ pkt proximity)).trans ?_
  split
  · exact congrArg Ledgers.youngBucket (noteOriginator_ledgers _ _ _)
  · rfl

/-- What a packet does to the young bucket. -/
theorem shouldDrop_youngBucket :
    (l.shouldDrop pkt proximity).1.youngBucket =
      if l.chargesYoung pkt proximity then
        (l.youngBucket.checkAndUpdateBucket YOUNG_TRIP YOUNG_CLEAR 1 pkt.nowMs 0 .young).1
      else l.youngBucket := by
  have hyouth := congrArg Youth.youngBucket (l.shouldDrop_youth pkt proximity)
  have hnoted := l.sourceNoted_youngBucket pkt proximity
  have hcharge := congrArg Ledgers.youngBucket ((l.sourceNoted pkt proximity).chargeYoung_ledgers pkt)
  refine hyouth.trans ?_
  unfold chargesYoung
  cases hreach : l.reachesSource pkt proximity with
  | false =>
    simp only [Bool.false_and, Bool.false_eq_true, if_false]
    split
    · rfl
    · exact congrArg Ledgers.youngBucket (l.noteBoot_ledgers pkt.nowMs)
  | true =>
    have hign : l.ignores pkt = false := by
      unfold reachesSource at hreach
      simp only [Bool.and_eq_true, Bool.not_eq_true'] at hreach
      exact hreach.1
    simp only [hign, Bool.true_and, Bool.false_eq_true, if_false, if_true]
    refine hcharge.trans ?_
    rw [← hnoted]
    split <;> rfl

end

end NodeRateLimiter

end Meshrustic.RateLimit
