import Meshrustic.Core.Clock

/-!
# Fixed-window buckets (`mesh-routing/src/rate_limit.rs`)

A bucket counts packets in windows of `WINDOW_MS`. The window is rolled
lazily, by the packet that finds it over; a bucket that reaches its trip
threshold is limited and restarts its window; the ban is read by peeks
(`limitedAt`) and by charges (`checkAndUpdateBucket`), each with its own
wrapping subtraction.

`charge_cases` says in real time what one charge does: with `m` the distance
to the window start as the clock shows it, the packet is dropped under a ban
that is still on, or it passes, or it trips the bucket.
-/
namespace Meshrustic.RateLimit

def WINDOW_MS : Nat := 90000

/-- mirrors crates/mesh-routing/src/rate_limit.rs:56-62 -/
structure BucketState where
  windowStartMs : UInt32
  count : UInt32
  limited : Bool
  clearThreshold : UInt32
  deriving DecidableEq, Repr

/-- A bucket of a new entry. -/
def BucketState.fresh (nowMs : UInt32) : BucketState := ⟨nowMs, 0, false, 0⟩

/-- mirrors crates/mesh-routing/src/rate_limit.rs:202-212 -/
inductive RateLimitKind where
  | text | routing | other | unknown | relay | relayUnresolved | young | dest
  deriving DecidableEq, Repr

/-- mirrors crates/mesh-routing/src/rate_limit.rs:220-225 -/
inductive RateLimitEvent where
  | trip (nodeId : UInt32) (kind : RateLimitKind)
  | clear (nodeId : UInt32) (kind : RateLimitKind)
  | destDrop (nodeId : UInt32)
  deriving DecidableEq, Repr

namespace BucketState

/-- Full windows since the window start, as the clock shows them. -/
def windows (b : BucketState) (nowMs : UInt32) : Nat := (nowMs - b.windowStartMs).toNat / WINDOW_MS

/-- mirrors crates/mesh-routing/src/rate_limit.rs:258-267 -/
def limitedAt (b : BucketState) (nowMs clear : UInt32) : Bool :=
  let clear := if b.clearThreshold != 0 then b.clearThreshold else clear
  let windows := b.windows nowMs
  b.limited && (windows == 0 || (windows == 1 && clear ≤ b.count))

/-- mirrors crates/mesh-routing/src/rate_limit.rs:269-282 -/
def roll (b : BucketState) (nowMs clear : UInt32) : BucketState × Bool :=
  let windows := b.windows nowMs
  if windows = 0 then (b, false)
  else
    let cleared := b.limited && !b.limitedAt nowMs clear
    ({ b with
        limited := if cleared then false else b.limited
        count := 0
        windowStartMs := b.windowStartMs + UInt32.ofNat (windows * WINDOW_MS) }, cleared)

/-- `saturating_add` -/
def saturatingAdd (a b : UInt32) : UInt32 :=
  if a.toNat + b.toNat < 4294967296 then a + b else 4294967295

/-- mirrors crates/mesh-routing/src/rate_limit.rs:988-1013 -/
def checkAndUpdateBucket (b : BucketState) (trip clear charge nowMs nodeId : UInt32)
    (kind : RateLimitKind) : BucketState × Bool × Option RateLimitEvent :=
  let r := { b with clearThreshold := clear }.roll nowMs clear
  let event := if r.2 then some (.clear nodeId kind) else none
  let b := { r.1 with count := saturatingAdd r.1.count charge }
  if !b.limited && trip ≤ b.count then
    ({ b with limited := true, windowStartMs := nowMs }, true, some (.trip nodeId kind))
  else (b, b.limited, event)

end BucketState

/-! ## One charge in real time -/

open BucketState

section

variable {b : BucketState} {start t : Nat} {trip clear nodeId : UInt32} {kind : RateLimitKind}

/-- The distance from `start` to `t` as the clock shows it. -/
def lag (start t : Nat) : Nat := (t - start) % CLOCK_PERIOD

theorem lag_le (start t : Nat) : lag start t ≤ t - start := Nat.mod_le _ _

theorem lag_of_lt {start t : Nat} (h : t - start < CLOCK_PERIOD) : lag start t = t - start :=
  Nat.mod_eq_of_lt h

/-- The start of the window at `t`: the latest moment that is a whole number
of windows after `start` on the clock. -/
def windowAt (start t : Nat) : Nat := t - lag start t % WINDOW_MS

theorem windows_real (hb : b.windowStartMs = clock start) (hst : start ≤ t) :
    b.windows (clock t) = lag start t / WINDOW_MS := by
  rw [windows, hb, clock_sub hst]
  rfl

/-- The clear threshold that a peek uses. -/
def BucketState.clearOf (b : BucketState) (clear : UInt32) : UInt32 :=
  if b.clearThreshold != 0 then b.clearThreshold else clear

/-- A ban as a peek at `t` reads it. -/
theorem limitedAt_real (hb : b.windowStartMs = clock start) (hst : start ≤ t) :
    b.limitedAt (clock t) clear = true ↔
      b.limited = true ∧ (lag start t < WINDOW_MS ∨
        (lag start t < 2 * WINDOW_MS ∧ (b.clearOf clear).toNat ≤ b.count.toNat)) := by
  unfold limitedAt
  rw [windows_real hb hst]
  simp only [Bool.and_eq_true, Bool.or_eq_true, beq_iff_eq, decide_eq_true_eq,
    UInt32.le_iff_toNat_le, WINDOW_MS, clearOf]
  generalize lag start t = m
  generalize (if b.clearThreshold != 0 then b.clearThreshold else clear).toNat = c
  constructor
  · rintro ⟨hl, h | ⟨h1, h2⟩⟩
    · exact ⟨hl, .inl (by omega)⟩
    · exact ⟨hl, .inr ⟨by omega, h2⟩⟩
  · rintro ⟨hl, h | ⟨h1, h2⟩⟩
    · exact ⟨hl, .inl (by omega)⟩
    · rcases Nat.lt_or_ge m 90000 with h | h
      · exact ⟨hl, .inl (by omega)⟩
      · exact ⟨hl, .inr ⟨by omega, h2⟩⟩

/-- A roll moves the window start on by whole windows. -/
theorem windowAt_clock (hst : start ≤ t) :
    clock start + UInt32.ofNat (lag start t / WINDOW_MS * WINDOW_MS) =
      clock (windowAt start t) := by
  rw [clock_add]
  apply UInt32.toNat_inj.mp
  rw [toNat_clock, toNat_clock]
  have h1 := Nat.div_add_mod (t - start) CLOCK_PERIOD
  simp only [windowAt, lag, CLOCK_PERIOD, WINDOW_MS] at *
  omega

theorem windowAt_le (start t : Nat) : windowAt start t ≤ t := Nat.sub_le _ _

theorem le_windowAt (hst : start ≤ t) : start ≤ windowAt start t := by
  have h1 := lag_le start t
  have h2 := Nat.mod_le (lag start t) WINDOW_MS
  unfold windowAt
  omega

theorem lt_windowAt_add (start t : Nat) : t < windowAt start t + WINDOW_MS := by
  have h := Nat.mod_lt (lag start t) (show 0 < WINDOW_MS by decide)
  unfold windowAt
  omega

/-- A window that is over is followed by one a whole window later. -/
theorem windowAt_rolled (hst : start ≤ t) (h : WINDOW_MS ≤ lag start t) :
    start + WINDOW_MS ≤ windowAt start t := by
  have h1 := lag_le start t
  have h2 := Nat.div_add_mod (lag start t) WINDOW_MS
  have h3 : 1 ≤ lag start t / WINDOW_MS := by
    rw [Nat.le_div_iff_mul_le (by decide)]; omega
  unfold windowAt
  simp only [WINDOW_MS] at *
  omega

/-- The ban is on at `t`: the window is still the limited one, or it is the
next one and the limited one counted `clear`. -/
def Banned (b : BucketState) (start t : Nat) (clear : UInt32) : Prop :=
  b.limited = true ∧ (lag start t < WINDOW_MS ∨
    (lag start t < 2 * WINDOW_MS ∧ clear.toNat ≤ b.count.toNat))

/-- What the window counted when the packet arrives: nothing, if it is over. -/
def carried (b : BucketState) (start t : Nat) : Nat :=
  if lag start t < WINDOW_MS then b.count.toNat else 0

/-- What the counter shows of `n` packets: it stops at its greatest value. -/
def counted (n : Nat) : Nat := min n 4294967295

theorem counted_eq {n : Nat} {trip : UInt32} (h : counted n < trip.toNat) : counted n = n := by
  have hlt := trip.toNat_lt
  unfold counted at h ⊢
  omega

/-- The three things a charge can do. Every one of them counts the packet. -/
inductive Charged (b : BucketState) (start t : Nat) (trip clear nodeId : UInt32)
    (kind : RateLimitKind) : BucketState × Bool × Option RateLimitEvent → Prop where
  | dropped (n : UInt32) (hban : Banned b start t clear)
      (hn : n.toNat = counted (carried b start t + 1)) :
      Charged b start t trip clear nodeId kind
        (⟨clock (windowAt start t), n, true, clear⟩, true, none)
  | passed (n : UInt32) (event : Option RateLimitEvent) (hban : ¬ Banned b start t clear)
      (hn : n.toNat = counted (carried b start t + 1)) (hlt : n.toNat < trip.toNat)
      (hev : event ≠ some (.trip nodeId kind)) :
      Charged b start t trip clear nodeId kind
        (⟨clock (windowAt start t), n, false, clear⟩, false, event)
  | tripped (n : UInt32) (hl : b.limited = false) (hlag : lag start t < WINDOW_MS)
      (hn : n.toNat = counted (carried b start t + 1)) :
      Charged b start t trip clear nodeId kind
        (⟨clock t, n, true, clear⟩, true, some (.trip nodeId kind))

theorem roll_real (hb : b.windowStartMs = clock start) (hst : start ≤ t)
    (hc : b.clearThreshold = clear) :
    ∃ limited cleared, (limited = true ↔ Banned b start t clear) ∧ (limited = true → cleared = false) ∧
      b.roll (clock t) clear =
        (⟨clock (windowAt start t), UInt32.ofNat (carried b start t), limited, clear⟩, cleared) := by
  have hclear : b.clearOf clear = clear := by
    unfold clearOf
    split
    · exact hc
    · rfl
  have hban : b.limitedAt (clock t) clear = true ↔ Banned b start t clear := by
    rw [limitedAt_real hb hst, hclear]
    rfl
  unfold roll
  dsimp only
  rw [windows_real hb hst]
  have hwin : clock start + UInt32.ofNat (lag start t / WINDOW_MS * WINDOW_MS) =
      clock (windowAt start t) := windowAt_clock hst
  by_cases hlag : lag start t < WINDOW_MS
  · have hzero : lag start t / WINDOW_MS = 0 := Nat.div_eq_of_lt hlag
    rw [if_pos hzero]
    rw [hzero, Nat.zero_mul] at hwin
    refine ⟨b.limited, false, ⟨fun h => ⟨h, .inl hlag⟩, fun h => h.1⟩, fun _ => rfl, ?_⟩
    cases b
    simp only [carried, hlag, if_true, UInt32.ofNat_toNat] at hwin hb hc ⊢
    rw [← hwin, hb, hc]
    simp
  · have hpos : lag start t / WINDOW_MS ≠ 0 := by
      intro h0
      rcases Nat.div_eq_zero_iff.mp h0 with h | h
      · cases h
      · exact hlag h
    rw [if_neg hpos, hb, hwin]
    refine ⟨b.limited && b.limitedAt (clock t) clear, b.limited && !b.limitedAt (clock t) clear,
      ?_, ?_, ?_⟩
    · rw [← hban, Bool.and_eq_true]
      exact ⟨fun h => h.2, fun h => ⟨(hban.mp h).1, h⟩⟩
    · intro h
      simp only [Bool.and_eq_true] at h
      simp [h.2]
    · simp only [carried, hlag, if_false, hc]
      congr 2
      cases b.limited <;> cases b.limitedAt (clock t) clear <;> rfl

theorem saturatingAdd_one (n : UInt32) : (saturatingAdd n 1).toNat = counted (n.toNat + 1) := by
  have hn := n.toNat_lt
  unfold saturatingAdd counted
  rw [UInt32.toNat_one]
  split
  · rw [UInt32.toNat_add, UInt32.toNat_one]
    omega
  · change 4294967295 = _
    omega

theorem carried_lt (b : BucketState) (start t : Nat) : carried b start t < 4294967296 := by
  have := b.count.toNat_lt
  unfold carried
  split <;> omega

/-- A charge of one packet. -/
theorem charge_cases (hb : b.windowStartMs = clock start) (hst : start ≤ t) (htrip : 2 ≤ trip.toNat) :
    Charged b start t trip clear nodeId kind
      (b.checkAndUpdateBucket trip clear 1 (clock t) nodeId kind) := by
  obtain ⟨limited, cleared, hlim, hclr, hroll⟩ :=
    @roll_real { b with clearThreshold := clear } start t clear hb hst rfl
  unfold checkAndUpdateBucket
  simp only [hroll]
  have hban : limited = true ↔ Banned b start t clear := hlim
  have hcar : carried { b with clearThreshold := clear } start t = carried b start t := rfl
  rw [hcar]
  have hn := saturatingAdd_one (UInt32.ofNat (carried b start t))
  rw [show (UInt32.ofNat (carried b start t)).toNat = carried b start t from
    Nat.mod_eq_of_lt (carried_lt b start t)] at hn
  generalize saturatingAdd (UInt32.ofNat (carried b start t)) 1 = n at hn ⊢
  cases hl : limited with
  | true =>
    simp only [Bool.not_true, Bool.false_and, Bool.false_eq_true, if_false, hclr hl]
    exact .dropped n (hban.mp hl) hn
  | false =>
    have hnot : ¬ Banned b start t clear := fun h => by rw [hban.mpr h] at hl; cases hl
    simp only [Bool.not_false, Bool.true_and, decide_eq_true_eq]
    split
    · rename_i hge
      -- a window that is over counts from 0 and cannot trip
      rw [UInt32.le_iff_toNat_le, hn] at hge
      have hlag : lag start t < WINDOW_MS := by
        by_contra hover
        simp only [counted, carried, hover, if_false] at hge
        omega
      have hfalse : b.limited = false := by
        cases hb' : b.limited with
        | false => rfl
        | true => exact absurd ⟨hb', .inl hlag⟩ hnot
      exact .tripped n hfalse hlag hn
    · rename_i hlt
      rw [UInt32.le_iff_toNat_le, Nat.not_le] at hlt
      refine .passed n _ hnot hn hlt ?_
      split
      · simp
      · simp

end

end Meshrustic.RateLimit
