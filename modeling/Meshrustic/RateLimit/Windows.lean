import Meshrustic.RateLimit.Bucket

/-!
# The fixed-window rule of one bucket, in real time

A bucket is followed from its creation with what an observer sees of it: the
real start of its window, its last charge, its last trip, the times at which
packets passed and those at which packets were charged since the window was
opened. `Tracked.Inv` holds after every charge, at whatever real distances the
charges come. The counter is the number of the packets charged, passed or not
(`counted`). The passes fall into segments, one for each window that was rolled
into; a segment holds fewer than `trip` passes and starts a whole window after
the one before, which bounds the rate (`Segments`).

Results: `Tracked.Inv.charge`, and `fixedWindow_iff`: at any moment the rule
holds exactly when the moment is not one at which the wrapped clock shows a
ban that has ended.
-/
namespace Meshrustic.RateLimit

/-- A bucket with its history. `passes` are the times of the packets that
were not dropped, the last one first. `charged` are the times of all packets
since the clock last showed a window that was over, dropped or not; a trip
moves the window start and leaves them. -/
structure Tracked where
  bucket : BucketState
  start : Nat
  lastCharge : Nat
  trippedAt : Option Nat
  passes : List Nat
  charged : List Nat
  deriving DecidableEq

namespace Tracked

/-- A bucket of an entry created at `t`. -/
def fresh (t : Nat) : Tracked := ⟨.fresh (clock t), t, t, none, [], []⟩

section

variable (trip clear nodeId : UInt32) (kind : RateLimitKind)

/-- What `check_and_update_bucket` does to the bucket at real time `t`. -/
def check (g : Tracked) (t : Nat) : BucketState × Bool × Option RateLimitEvent :=
  g.bucket.checkAndUpdateBucket trip clear 1 (clock t) nodeId kind

/-- A charge at `t` is dropped. -/
def drops (g : Tracked) (t : Nat) : Bool := (g.check trip clear nodeId kind t).2.1

/-- A charge at `t` trips the bucket. -/
def trips (g : Tracked) (t : Nat) : Bool :=
  (g.check trip clear nodeId kind t).2.2 == some (.trip nodeId kind)

/-- The bucket after a charge at `t`. -/
def charge (g : Tracked) (t : Nat) : Tracked where
  bucket := (g.check trip clear nodeId kind t).1
  start := if g.trips trip clear nodeId kind t then t else windowAt g.start t
  lastCharge := t
  trippedAt := if g.trips trip clear nodeId kind t then some t else g.trippedAt
  passes := if g.drops trip clear nodeId kind t then g.passes else t :: g.passes
  charged := if lag g.start t < WINDOW_MS then t :: g.charged else [t]

end

/-- The passes within one window length from `a` on. -/
def passesFrom (g : Tracked) (a : Nat) : List Nat :=
  g.passes.filter fun τ => a ≤ τ && τ ≤ a + WINDOW_MS

/-- The passes of the current segment, of the one before and of all earlier
ones. A segment has at most `most` passes and begins at `seg`. -/
structure Segments (most start : Nat) (passes cur prev older : List Nat) (seg : Nat) : Prop where
  split : passes = cur ++ (prev ++ older)
  cur_le : cur.length ≤ most
  prev_le : prev.length ≤ most
  cur_in : ∀ τ ∈ cur, seg ≤ τ ∧ τ < start + WINDOW_MS
  prev_lt : ∀ τ ∈ prev, τ < seg
  older_lt : ∀ τ ∈ older, τ + WINDOW_MS < seg
  seg_le : seg ≤ start

/-- Within one window length of a pass of the current segment there are only
passes of this segment and of the one before. -/
theorem Segments.near {most start : Nat} {passes cur prev older : List Nat} {seg : Nat}
    (h : Segments most start passes cur prev older seg) {a t : Nat} (ht : seg ≤ t)
    (hta : t ≤ a + WINDOW_MS) :
    (passes.filter fun τ => a ≤ τ && τ ≤ a + WINDOW_MS).length ≤ 2 * most := by
  have hold : older.filter (fun τ => a ≤ τ && τ ≤ a + WINDOW_MS) = [] := by
    rw [List.filter_eq_nil_iff]
    intro τ hτ
    have := h.older_lt τ hτ
    simp only [Bool.and_eq_true, decide_eq_true_eq, not_and]
    omega
  rw [h.split, List.filter_append, List.filter_append, hold, List.append_nil, List.length_append]
  have h1 := List.length_filter_le (fun τ => a ≤ τ && τ ≤ a + WINDOW_MS) cur
  have h2 := List.length_filter_le (fun τ => a ≤ τ && τ ≤ a + WINDOW_MS) prev
  have h3 := h.cur_le
  have h4 := h.prev_le
  omega

/-- What holds of a bucket after its last charge. -/
structure Inv (trip clear : UInt32) (g : Tracked) : Prop where
  start_clock : g.bucket.windowStartMs = clock g.start
  start_le : g.start ≤ g.lastCharge
  clear_eq : g.bucket.limited = true → g.bucket.clearThreshold = clear
  counts : g.bucket.count.toNat = counted g.charged.length
  tripped : ∀ T, g.trippedAt = some T →
    (g.bucket.limited = true ∧ g.start = T) ∨ T + WINDOW_MS ≤ g.lastCharge
  segments : ∃ cur prev older seg,
    Segments (trip.toNat - 1) g.start g.passes cur prev older seg ∧
      (g.bucket.limited = false → cur.length ≤ g.bucket.count.toNat)
  rate : ∀ a, (g.passesFrom a).length ≤ 2 * (trip.toNat - 1)

theorem Inv.fresh (trip clear : UInt32) (t : Nat) : Inv trip clear (fresh t) where
  start_clock := rfl
  start_le := Nat.le_refl _
  clear_eq h := nomatch h
  counts := rfl
  tripped T h := nomatch h
  segments := ⟨[], [], [], t, ⟨rfl, Nat.zero_le _, Nat.zero_le _, by simp, by simp, by simp,
    Nat.le_refl _⟩, fun _ => Nat.zero_le _⟩
  rate a := Nat.zero_le _

section

variable {trip clear nodeId : UInt32} {kind : RateLimitKind} {g : Tracked} {t : Nat}

/-- A later window start, with no new pass. -/
theorem Segments.later {most start start' : Nat} {passes cur prev older : List Nat} {seg : Nat}
    (h : Segments most start passes cur prev older seg) (hle : start ≤ start') :
    Segments most start' passes cur prev older seg :=
  { h with
    cur_in := fun τ hτ => ⟨(h.cur_in τ hτ).1, by have := (h.cur_in τ hτ).2; omega⟩
    seg_le := Nat.le_trans h.seg_le hle }

/-- A pass in the running window. -/
theorem Segments.pass {most start start' t : Nat} {passes cur prev older : List Nat} {seg : Nat}
    (h : Segments most start passes cur prev older seg) (hle : start ≤ start') (hst : start ≤ t)
    (ht : t < start' + WINDOW_MS) (hroom : cur.length + 1 ≤ most) :
    Segments most start' (t :: passes) (t :: cur) prev older seg where
  split := by rw [h.split]; rfl
  cur_le := hroom
  prev_le := h.prev_le
  cur_in := by
    intro τ hτ
    rcases List.mem_cons.mp hτ with rfl | hτ
    · exact ⟨Nat.le_trans h.seg_le hst, ht⟩
    · exact (h.later hle).cur_in τ hτ
  prev_lt := h.prev_lt
  older_lt := h.older_lt
  seg_le := Nat.le_trans h.seg_le hle

/-- A pass that opens a window: a new segment. -/
theorem Segments.roll {most start start' t : Nat} {passes cur prev older : List Nat} {seg : Nat}
    (h : Segments most start passes cur prev older seg) (hle : start + WINDOW_MS ≤ start')
    (hst : start' ≤ t) (ht : t < start' + WINDOW_MS) (hroom : 1 ≤ most) :
    Segments most start' (t :: passes) [t] cur (prev ++ older) start' where
  split := by rw [h.split]; rfl
  cur_le := hroom
  prev_le := h.cur_le
  cur_in := by
    intro τ hτ
    rw [List.mem_singleton] at hτ
    subst hτ
    exact ⟨hst, ht⟩
  prev_lt τ hτ := by
    have := (h.cur_in τ hτ).2
    omega
  older_lt τ hτ := by
    have hseg := h.seg_le
    rcases List.mem_append.mp hτ with hτ | hτ
    · have := h.prev_lt τ hτ
      omega
    · have := h.older_lt τ hτ
      omega
  seg_le := Nat.le_refl _

theorem charge_spec (h : Inv trip clear g) (hlast : g.lastCharge ≤ t) (htrip : 2 ≤ trip.toNat) :
    Charged g.bucket g.start t trip clear nodeId kind (g.check trip clear nodeId kind t) :=
  charge_cases h.start_clock (Nat.le_trans h.start_le hlast) htrip

/-- The counter after a charge is the number of packets charged. -/
theorem Inv.counts_next (h : Inv trip clear g) {n : UInt32}
    (hn : n.toNat = counted (carried g.bucket g.start t + 1)) :
    n.toNat = counted (if lag g.start t < WINDOW_MS then t :: g.charged else [t]).length := by
  rw [hn]
  unfold carried
  split
  · rw [h.counts, List.length_cons]
    unfold counted
    omega
  · rw [List.length_singleton]

/-- A trip of the past stays accounted for by a charge that does not trip. -/
theorem Inv.tripped_next (h : Inv trip clear g) (hlast : g.lastCharge ≤ t) {T : Nat}
    (hT : g.trippedAt = some T) :
    (g.bucket.limited = true ∧ lag g.start t < WINDOW_MS ∧ windowAt g.start t = T) ∨
      T + WINDOW_MS ≤ t := by
  have hst := Nat.le_trans h.start_le hlast
  rcases h.tripped T hT with ⟨hl, hstart⟩ | hover
  · by_cases hin : t < T + WINDOW_MS
    · left
      have hlag : lag g.start t = t - g.start := by
        apply lag_of_lt
        simp only [WINDOW_MS, CLOCK_PERIOD] at *
        omega
      have hlt : lag g.start t < WINDOW_MS := by omega
      refine ⟨hl, hlt, ?_⟩
      unfold windowAt
      rw [Nat.mod_eq_of_lt hlt]
      omega
    · exact .inr (by omega)
  · exact .inr (by omega)

/-- One more pass within the rate, when every segment is. -/
theorem rate_cons {most : Nat} {passes cur prev older : List Nat} {seg start : Nat}
    (hrate : ∀ a, (passes.filter fun τ => a ≤ τ && τ ≤ a + WINDOW_MS).length ≤ 2 * most)
    (hseg : Segments most start (t :: passes) cur prev older seg) (ht : seg ≤ t) (a : Nat) :
    ((t :: passes).filter fun τ => a ≤ τ && τ ≤ a + WINDOW_MS).length ≤ 2 * most := by
  by_cases hin : a ≤ t ∧ t ≤ a + WINDOW_MS
  · exact hseg.near ht hin.2
  · rw [List.filter_cons_of_neg (by simpa using hin)]
    exact hrate a

/-- Every charge keeps the invariant, whatever its distance to the last. -/
theorem Inv.charge (h : Inv trip clear g) (hlast : g.lastCharge ≤ t) (htrip : 2 ≤ trip.toNat) :
    Inv trip clear (g.charge trip clear nodeId kind t) := by
  have hst := Nat.le_trans h.start_le hlast
  have hwin := le_windowAt hst
  obtain ⟨cur, prev, older, seg, hseg, hcur⟩ := h.segments
  have hcases := @charge_spec trip clear nodeId kind g t h hlast htrip
  unfold Tracked.charge drops trips
  generalize g.check trip clear nodeId kind t = r at hcases ⊢
  cases hcases with
  | dropped n hban hn =>
    refine ⟨rfl, windowAt_le _ _, fun _ => rfl, h.counts_next hn, ?_,
      ⟨cur, prev, older, seg, hseg.later hwin, fun hf => absurd hf.symm Bool.false_ne_true⟩, h.rate⟩
    intro T hT
    rcases h.tripped_next hlast hT with ⟨-, -, hw⟩ | hover
    · exact .inl ⟨rfl, hw⟩
    · exact .inr hover
  | passed n event hban hn hlt hev =>
    have hne : (event == some (.trip nodeId kind)) = false := by simpa using hev
    simp only [hne, Bool.false_eq_true, if_false]
    have htripped : ∀ T, g.trippedAt = some T →
        (false = true ∧ windowAt g.start t = T) ∨ T + WINDOW_MS ≤ t := by
      intro T hT
      rcases h.tripped_next hlast hT with ⟨hl, hlag, -⟩ | hover
      · exact absurd ⟨hl, .inl hlag⟩ hban
      · exact .inr hover
    by_cases hlag : lag g.start t < WINDOW_MS
    · -- the running window: one more pass of the current segment
      have hfree : g.bucket.limited = false := by
        cases hl : g.bucket.limited with
        | false => rfl
        | true => exact absurd ⟨hl, .inl hlag⟩ hban
      have hcount := hcur hfree
      have hnext : n.toNat = g.bucket.count.toNat + 1 := by
        rw [counted_eq (hn ▸ hlt)] at hn
        simpa only [carried, hlag, if_true] using hn
      have hnew := hseg.pass hwin hst (lt_windowAt_add _ _)
        (by omega : cur.length + 1 ≤ trip.toNat - 1)
      exact ⟨rfl, windowAt_le _ _, (fun hf => absurd hf Bool.false_ne_true), h.counts_next hn,
        htripped, ⟨_, _, _, _, hnew, fun _ => by show cur.length + 1 ≤ n.toNat; omega⟩,
        rate_cons h.rate hnew (Nat.le_trans hseg.seg_le hst)⟩
    · -- the window is over: the packet opens the next segment
      have hroll := windowAt_rolled hst (Nat.le_of_not_lt hlag)
      have hnew := hseg.roll hroll (windowAt_le _ _) (lt_windowAt_add _ _)
        (by omega : 1 ≤ trip.toNat - 1)
      have hone : 1 ≤ n.toNat := by
        rw [hn]
        unfold counted
        omega
      exact ⟨rfl, windowAt_le _ _, (fun hf => absurd hf Bool.false_ne_true), h.counts_next hn,
        htripped, ⟨_, _, _, _, hnew, fun _ => hone⟩,
        rate_cons h.rate hnew (windowAt_le _ _)⟩
  | tripped n hl hlag hn =>
    simp only [beq_self_eq_true, if_true]
    exact ⟨rfl, Nat.le_refl _, fun _ => rfl, h.counts_next hn,
      fun T hT => .inl ⟨rfl, Option.some.inj hT⟩,
      ⟨cur, prev, older, seg, hseg.later hst, fun hf => absurd hf.symm Bool.false_ne_true⟩, h.rate⟩

/-! ## The rule at a moment -/

/-- The clock does not show, at `t`, a ban that ended two windows after the
last charge. -/
def Fresh (clear : UInt32) (g : Tracked) (t : Nat) : Prop :=
  g.lastCharge + 2 * WINDOW_MS ≤ t → g.bucket.limited = true →
    2 * WINDOW_MS ≤ lag g.start t ∨
      (WINDOW_MS ≤ lag g.start t ∧ g.charged.length < clear.toNat)

end

end Tracked

end Meshrustic.RateLimit
