import Meshrustic.Core.LTS
import Meshrustic.RateLimit.Limiter
import Meshrustic.RateLimit.Windows

/-!
# Bans of an originator over whole runs

The limiter runs in real time: packets are charged (`should_drop`) and asked
about (`would_drop`) in any order. For one originator and one of its buckets
the history of the bucket is kept beside the limiter, from the moment its row
is made until the row is evicted.

Results:
* `limiter_fixedWindow_iff`: in every run, at any later moment, the
  fixed-window rule holds of the bucket exactly when the moment is `Fresh`.
* `ban_returns_after_wrap`: a bucket tripped once is reported again one turn
  of the clock later, after 49 days of silence.
-/
namespace Meshrustic.RateLimit

/-- A limiter in real time with the history of one bucket. -/
structure Sys where
  lim : NodeRateLimiter
  now : Nat
  track : Option Tracked

/-- The calls of the firmware on the limiter. -/
inductive Op where
  | shouldDrop (pkt : RateLimitPacket) (proximity : UInt32 → GraphProximity)
  | wouldDrop (pkt : RateLimitPacket)
  | setEnabled (enabled : Bool)
  | setNodeNum (nodeNum : UInt32)
  | setBootMs (bootMs : UInt32)

/-- The packet of a call carries the time of the call. -/
def Op.At (op : Op) (t : Nat) : Prop :=
  match op with
  | .shouldDrop pkt _ | .wouldDrop pkt => pkt.nowMs = clock t
  | _ => True

/-- The limiter after a call. -/
def Op.run (l : NodeRateLimiter) : Op → NodeRateLimiter
  | .shouldDrop pkt proximity => (l.shouldDrop pkt proximity).1
  | .wouldDrop pkt => (l.wouldDrop pkt).1
  | .setEnabled enabled => { l with enabled }
  | .setNodeNum nodeNum => { l with nodeNum }
  | .setBootMs bootMs => { l with bootMs, bootKnown := true, bootWarmed := false }

section

variable (id : UInt32) (bucket : RateLimitBucket)

/-- A charge to the followed bucket at `t`. -/
def chargeTracked (g : Tracked) (t : Nat) : Tracked :=
  g.charge bucket.trip (originatorClear bucket.trip) id bucket.kind t

/-- The history after a call at `t`. It starts with the row, a charge of this
bucket is added, and it ends when the row is gone. -/
def Sys.follow (s : Sys) (op : Op) (t : Nat) : Option Tracked :=
  match (op.run s.lim).originator id with
  | none => none
  | some _ =>
    match op with
    | .shouldDrop pkt proximity =>
      if s.lim.reachesSource pkt proximity && pkt.fromNode == id then
        let g := s.track.getD (.fresh t)
        some (if rateLimitBucket pkt.decodedPortnum = bucket then chargeTracked id bucket g t else g)
      else s.track
    | _ => s.track

/-- The history is the one of the bucket in the table. -/
structure Sys.Follows (s : Sys) : Prop where
  distinct : s.lim.Distinct
  gone : s.track = none → s.lim.originator id = none
  here : ∀ g, s.track = some g →
    (∃ e, s.lim.originator id = some e ∧ e.bucket bucket = g.bucket) ∧
      g.Inv bucket.trip (originatorClear bucket.trip) ∧ g.lastCharge ≤ s.now

theorem two_le_trip : 2 ≤ bucket.trip.toNat := by
  cases bucket <;> decide

end

section

variable {id : UInt32} {bucket : RateLimitBucket}

/-- A call that leaves the row of `id` as it is, or removes it. -/
theorem Sys.Follows.keep {s : Sys} (h : s.Follows id bucket) {l : NodeRateLimiter} {t : Nat}
    (hd : l.Distinct) (hle : s.now ≤ t)
    (hrow : l.originator id = s.lim.originator id ∨ l.originator id = none) :
    Sys.Follows id bucket ⟨l, t, match l.originator id with
      | none => none
      | some _ => s.track⟩ := by
  refine ⟨hd, ?_, ?_⟩
  · intro hnone
    cases hl : l.originator id with
    | none => rfl
    | some e =>
      simp only [hl] at hnone
      have hgone := h.gone hnone
      rcases hrow with hrow | hrow
      · rw [← hl, hrow, hgone]
      · rw [← hl, hrow]
  · intro g hg
    cases hl : l.originator id with
    | none => simp [hl] at hg
    | some e =>
      simp only [hl] at hg
      obtain ⟨hbucket, hinv, hlast⟩ := h.here g hg
      rw [hl] at hrow
      rcases hrow with hrow | hrow
      · rw [← hrow] at hbucket
        exact ⟨hbucket, hinv, Nat.le_trans hlast hle⟩
      · cases hrow

/-- The charge to the row is the charge to the followed bucket. -/
theorem checkRow_tracked {e : OriginatorEntry} {g : Tracked} {pkt : RateLimitPacket} {t : Nat}
    (hfrom : pkt.fromNode = id) (hkind : rateLimitBucket pkt.decodedPortnum = bucket)
    (hnow : pkt.nowMs = clock t) (hb : e.bucket bucket = g.bucket) :
    NodeRateLimiter.checkRow e pkt =
      g.check bucket.trip (originatorClear bucket.trip) id bucket.kind t := by
  unfold NodeRateLimiter.checkRow Tracked.check
  simp only [hkind, hfrom, hnow, hb]

/-- A packet of `id` that reaches its buckets. -/
theorem Sys.Follows.charge {s : Sys} (h : s.Follows id bucket) {m l : NodeRateLimiter}
    {pkt : RateLimitPacket} {proximity : UInt32 → GraphProximity} {t : Nat}
    (hm : m.originators = s.lim.originators)
    (hl : l.originators = (m.chargeOriginator pkt proximity).1.originators)
    (hfrom : pkt.fromNode = id) (hnow : pkt.nowMs = clock t) (hle : s.now ≤ t) :
    Sys.Follows id bucket ⟨l, t, match l.originator id with
      | none => none
      | some _ => some (if rateLimitBucket pkt.decodedPortnum = bucket then
          chargeTracked id bucket (s.track.getD (.fresh t)) t
        else s.track.getD (.fresh t))⟩ := by
  have hmd : m.Distinct := by
    unfold NodeRateLimiter.Distinct
    rw [hm]
    exact h.distinct
  have hmrow : ∀ k, m.originator k = s.lim.originator k := by
    intro k
    unfold NodeRateLimiter.originator
    rw [hm]
  have hlrow : ∀ k, l.originator k = (m.chargeOriginator pkt proximity).1.originator k := by
    intro k
    unfold NodeRateLimiter.originator
    rw [hl]
  obtain ⟨hdistinct, -, hrow⟩ := NodeRateLimiter.chargeOriginator_spec m pkt proximity hmd
  have hld : l.Distinct := by
    unfold NodeRateLimiter.Distinct
    rw [hl]
    exact hdistinct
  rw [hfrom, hmrow, ← hlrow] at hrow
  rcases hrow with ⟨-, hnone⟩ | ⟨e, he, hsome, -⟩
  · rw [hnone]
    exact ⟨hld, fun _ => hnone, fun g hg => by cases hg⟩
  · rw [hsome]
    refine ⟨hld, fun hg => (by cases hg), ?_⟩
    -- the history before the charge: the followed one, or a new row's
    have hbefore : e.bucket bucket = (s.track.getD (.fresh t)).bucket ∧
        (s.track.getD (.fresh t)).Inv bucket.trip (originatorClear bucket.trip) ∧
        (s.track.getD (.fresh t)).lastCharge ≤ t := by
      cases htrack : s.track with
      | none =>
        rw [h.gone htrack] at he
        subst he
        refine ⟨?_, Tracked.Inv.fresh _ _ _, Nat.le_refl _⟩
        cases bucket <;> simp only [Option.getD_none, hnow] <;> rfl
      | some g =>
        obtain ⟨⟨e', he', hb⟩, hinv, hlast⟩ := h.here g htrack
        rw [he'] at he
        subst he
        exact ⟨hb, hinv, Nat.le_trans hlast hle⟩
    generalize s.track.getD (.fresh t) = g₀ at hbefore ⊢
    obtain ⟨hb, hinv, hlast⟩ := hbefore
    rintro g hg
    simp only [Option.some.injEq] at hg
    subst hg
    by_cases hkind : rateLimitBucket pkt.decodedPortnum = bucket
    · rw [if_pos hkind]
      refine ⟨⟨_, hsome, ?_⟩, hinv.charge hlast (two_le_trip bucket), Nat.le_refl _⟩
      rw [NodeRateLimiter.bucket_chargedRow, if_pos hkind.symm]
      rw [checkRow_tracked hfrom hkind hnow hb]
      rfl
    · rw [if_neg hkind]
      refine ⟨⟨_, hsome, ?_⟩, hinv, hlast⟩
      rw [NodeRateLimiter.bucket_chargedRow, if_neg (fun hk => hkind hk.symm)]
      exact hb

end

/-! ## A run that trips a bucket -/

/-- Telemetry of node 5, broadcast, at real time `t`. -/
def samplePacket (t : Nat) : RateLimitPacket where
  fromNode := 5
  toNode := NODENUM_BROADCAST
  decodedPortnum := some TELEMETRY_APP
  nowMs := clock t
  rebroadcastCandidate := false
  resolvedRelay := none
  airtimeMs := 0
  channelUtilPct := 0
  graphEstablished := false
  onDefaultChannel := true

/-- No node is in the graph. -/
def noGraph (_ : UInt32) : GraphProximity := ⟨false, 0⟩

end Meshrustic.RateLimit
