import Mathlib.Tactic.Common

/-!
# A 32-bit millisecond clock

Real time is an unbounded count of milliseconds; code sees its low 32 bits
and measures distances by wrapping subtraction. The lemmas here are the only
place where the wrap is unfolded: a distance read off the clock is the real
distance modulo 2^32, and a moment that lies ahead reads as the complement.
`clock_half`: a distance below half a turn tells the past from what is ahead.
-/
namespace Meshrustic

/-- One turn of the clock. -/
def CLOCK_PERIOD : Nat := 4294967296

/-- The clock at real time `t`. -/
def clock (t : Nat) : UInt32 := UInt32.ofNat t

theorem clock_add (t k : Nat) : clock t + UInt32.ofNat k = clock (t + k) := by
  simp [clock]

@[simp] theorem toNat_clock (t : Nat) : (clock t).toNat = t % CLOCK_PERIOD := rfl

/-- A distance into the past, as the clock measures it. -/
theorem clock_sub {t u : Nat} (h : u ≤ t) :
    (clock t - clock u).toNat = (t - u) % CLOCK_PERIOD := by
  rw [UInt32.toNat_sub, toNat_clock, toNat_clock]
  simp only [CLOCK_PERIOD]
  omega

/-- A distance to a moment ahead, as the clock measures it. -/
theorem clock_sub_ahead {t u : Nat} (h : t < u) (hu : u - t ≤ CLOCK_PERIOD) :
    (clock t - clock u).toNat = CLOCK_PERIOD - (u - t) := by
  rw [UInt32.toNat_sub, toNat_clock, toNat_clock]
  simp only [CLOCK_PERIOD] at hu ⊢
  omega

/-- Two moments less than a turn apart read differently. -/
theorem clock_ne {t u : Nat} (h : u < t) (ht : t < u + CLOCK_PERIOD) : clock t ≠ clock u := by
  intro heq
  have hdistance := clock_sub (Nat.le_of_lt h)
  rw [heq, UInt32.sub_self, UInt32.toNat_zero, Nat.mod_eq_of_lt (by omega)] at hdistance
  omega

/-- Two moments no more than half a turn apart compare as the half-range test says. -/
theorem clock_half {t u : Nat} (ht : t < u + 2147483648) (hu : u ≤ t + 2147483648) :
    clock t - clock u < 0x80000000 ↔ u ≤ t := by
  rw [UInt32.lt_iff_toNat_lt]
  constructor
  · intro hlt
    by_cases h : u ≤ t
    · exact h
    · have hahead := clock_sub_ahead (Nat.lt_of_not_le h) (by simp only [CLOCK_PERIOD]; omega)
      simp only [CLOCK_PERIOD, UInt32.toNat_ofNat] at hahead hlt
      omega
  · intro hle
    rw [clock_sub hle, Nat.mod_eq_of_lt (by simp only [CLOCK_PERIOD]; omega)]
    simp only [UInt32.toNat_ofNat]
    omega

end Meshrustic
