import Mathlib.Tactic.Linarith
import Mathlib.Tactic.NormNum
import Meshrustic.Core.Buckets
import Meshrustic.Radio.Timing

/-!
# Airtime accounting (`mesh-radio/src/airtime.rs`)

Sixty buckets hold what was sent in each minute of the last hour; the bucket of
a minute is cleared when that minute begins. Counts and the seconds since boot
saturate at 32 bits. The percentages, `f32` in the code, are exact rationals here.

Results:
* `Tallied`: the sixty buckets have the charges of their minutes; ticks and charges keep it.
* `Tallied.utilization`: the buckets add up to all charges of the last sixty
  minutes, the one that runs included.
-/
namespace Meshrustic.Radio

def CHANNEL_UTILIZATION_PERIODS : Nat := 6
def MINUTES_IN_HOUR : Nat := 60
def MS_IN_HOUR : Nat := 3600000
def MAX_FRAME_AIRTIME_MS : Nat := 20000
def U32_MAX : Nat := 4294967295

inductive AirtimeLog where
  | tx | rx | rxAll
  deriving DecidableEq

/-- mirrors crates/mesh-radio/src/airtime.rs:24-35 -/
structure AirTime where
  region : RegionInfo
  secondsSinceBoot : Nat
  channelUtilization : Slots CHANNEL_UTILIZATION_PERIODS Nat
  utilizationTx : Slots MINUTES_IN_HOUR Nat
  lastUtilPeriod : Nat
  lastUtilPeriodTx : Nat
  politeDutyCyclePercent : Nat

/-- `bucket[i].saturating_add(ms)` -/
def addTo {n : Nat} (buckets : Slots n Nat) (i ms : Nat) : Slots n Nat :=
  buckets.set i (min (buckets.cells.getD i 0 + ms) U32_MAX)

namespace AirTime

variable (air : AirTime)

/-- mirrors crates/mesh-radio/src/airtime.rs:38-50 -/
def new (region : RegionInfo) : AirTime := ⟨region, 0, .all 0, .all 0, 0, 0, 50⟩

def periodUtilMinute : Nat := air.secondsSinceBoot / 10 % CHANNEL_UTILIZATION_PERIODS

def periodUtilHour : Nat := air.secondsSinceBoot / 60 % MINUTES_IN_HOUR

/-- mirrors crates/mesh-radio/src/airtime.rs:52-66 -/
def tickSecond : AirTime :=
  let air := { air with secondsSinceBoot := min (air.secondsSinceBoot + 1) U32_MAX }
  let utilPeriod := air.periodUtilMinute
  let utilPeriodTx := air.periodUtilHour
  let air :=
    if air.lastUtilPeriod != utilPeriod then
      { air with
        lastUtilPeriod := utilPeriod
        channelUtilization := air.channelUtilization.set utilPeriod 0 }
    else air
  if air.lastUtilPeriodTx != utilPeriodTx then
    { air with
      lastUtilPeriodTx := utilPeriodTx
      utilizationTx := air.utilizationTx.set utilPeriodTx 0 }
  else air

/-- mirrors crates/mesh-radio/src/airtime.rs:68-77 -/
def logAirtime (kind : AirtimeLog) (airtimeMs : Nat) : AirTime :=
  let airtimeMs := min airtimeMs MAX_FRAME_AIRTIME_MS
  let air := { air with
    channelUtilization := addTo air.channelUtilization air.periodUtilMinute airtimeMs }
  if kind == .tx then
    { air with utilizationTx := addTo air.utilizationTx air.periodUtilHour airtimeMs }
  else air

/-- mirrors crates/mesh-radio/src/airtime.rs:79-82 -/
def logTxPacket (config : RadioConfig) (payloadLen : Nat) : AirTime :=
  air.logAirtime .tx (packetTimeMs config payloadLen)

def utilizationTxMs : Nat := air.utilizationTx.cells.sum

/-- mirrors crates/mesh-radio/src/airtime.rs:93-96 -/
def utilizationTxPercent : ℚ := air.utilizationTxMs / MS_IN_HOUR * 100

/-- mirrors crates/mesh-radio/src/airtime.rs:98-103 -/
def dutyCycleLimitPercent : ℚ :=
  if 100 ≤ air.region.dutyCyclePercent then 100
  else air.region.dutyCyclePercent.toNat * air.politeDutyCyclePercent / 100

/-- mirrors crates/mesh-radio/src/airtime.rs:105-110 -/
def isTxAllowedDutyCycle : Bool :=
  if 100 ≤ air.region.dutyCyclePercent then true
  else air.utilizationTxPercent < air.dutyCycleLimitPercent

/-- In this region half of a tenth of the hour may be used. -/
theorem isTxAllowedDutyCycle_iff (hregion : air.region = EU_868)
    (hpolite : air.politeDutyCyclePercent = 50) :
    air.isTxAllowedDutyCycle = true ↔ air.utilizationTxMs < 180000 := by
  have hduty : air.region.dutyCyclePercent = 10 := by rw [hregion]; rfl
  rw [isTxAllowedDutyCycle, dutyCycleLimitPercent, hduty, hpolite, if_neg (by decide),
    if_neg (by decide), decide_eq_true_iff, utilizationTxPercent]
  have hten : (10 : UInt8).toNat = 10 := rfl
  rw [hten, MS_IN_HOUR]
  constructor <;> intro h
  · have hlt : (air.utilizationTxMs : ℚ) < 180000 := by
      push_cast at h
      linarith
    exact_mod_cast hlt
  · have hlt : (air.utilizationTxMs : ℚ) < 180000 := by exact_mod_cast h
    push_cast
    linarith

end AirTime

/-! ## What the buckets hold -/

/-- A frame the radio took, and the time it is on air. -/
structure Taken where
  startMs : Nat
  airtimeMs : Nat
  deriving DecidableEq

/-- The minute of the clock, which stands still once the seconds are saturated. -/
def bootMinute (ms : Nat) : Nat := min (ms / 1000) U32_MAX / 60

def charge (f : Taken) : Nat := min f.airtimeMs MAX_FRAME_AIRTIME_MS

def charged (taken : List Taken) : Nat := (taken.map charge).sum

theorem charged_cons (f : Taken) (taken : List Taken) :
    charged (f :: taken) = charge f + charged taken := by
  rw [charged, List.map_cons, List.sum_cons, charged]

/-- The minute of the frame is among the sixty up to `minute`. -/
def lately (minute : Nat) (f : Taken) : Bool := lateIn MINUTES_IN_HOUR minute (bootMinute f.startMs)

/-- The ring has the charges of the late frames. -/
structure Tallied (air : AirTime) (taken : List Taken) : Prop where
  clock : air.secondsSinceBoot ≤ U32_MAX
  period : air.lastUtilPeriodTx = air.periodUtilHour
  ring : Bucketed U32_MAX (fun f => bootMinute f.startMs) charge air.utilizationTx
    (air.secondsSinceBoot / 60) taken

section Tally

variable {air : AirTime} {taken : List Taken}

theorem Tallied.new (region : RegionInfo) : Tallied (.new region) [] where
  clock := Nat.zero_le _
  period := by simp [AirTime.new, AirTime.periodUtilHour]
  ring := .new

theorem tickSecond_seconds (air : AirTime) :
    air.tickSecond.secondsSinceBoot = min (air.secondsSinceBoot + 1) U32_MAX := by
  unfold AirTime.tickSecond
  dsimp only
  split <;> split <;> rfl

theorem tickSecond_period (air : AirTime) :
    air.tickSecond.lastUtilPeriodTx = air.tickSecond.periodUtilHour := by
  rw [AirTime.periodUtilHour, tickSecond_seconds]
  unfold AirTime.tickSecond
  dsimp only
  split <;> split <;> first | rfl | simp_all [AirTime.periodUtilHour]

theorem tickSecond_tx (air : AirTime) :
    air.tickSecond.utilizationTx =
      if air.lastUtilPeriodTx = air.tickSecond.periodUtilHour then air.utilizationTx
      else air.utilizationTx.set air.tickSecond.periodUtilHour 0 := by
  rw [AirTime.periodUtilHour, tickSecond_seconds]
  unfold AirTime.tickSecond
  dsimp only
  split <;> split <;> simp_all [AirTime.periodUtilHour]

/-- A new minute takes the bucket of the minute an hour ago, which is no longer late. -/
theorem Tallied.tickSecond (h : Tallied air taken) : Tallied air.tickSecond taken := by
  have hclock := h.clock
  have hminute : air.tickSecond.secondsSinceBoot / 60 = air.secondsSinceBoot / 60 ∨
      air.tickSecond.secondsSinceBoot / 60 = air.secondsSinceBoot / 60 + 1 := by
    rw [tickSecond_seconds]
    omega
  refine ⟨by rw [tickSecond_seconds]; omega, tickSecond_period air, ?_⟩
  rw [tickSecond_tx, h.period]
  exact h.ring.tick (by decide) hminute

theorem Tallied.logRx (h : Tallied air taken) (ms : Nat) :
    Tallied (air.logAirtime .rxAll ms) taken := ⟨h.clock, h.period, h.ring⟩

theorem Tallied.logTx (h : Tallied air taken) {f : Taken}
    (hnow : air.secondsSinceBoot = min (f.startMs / 1000) U32_MAX) :
    Tallied (air.logAirtime .tx f.airtimeMs) (f :: taken) where
  clock := h.clock
  period := h.period
  ring := h.ring.add (by decide) (by rw [bootMinute, hnow])

theorem Tallied.utilization (h : Tallied air taken) (hlt : air.utilizationTxMs < U32_MAX) :
    charged (taken.filter (lately (air.secondsSinceBoot / 60))) = air.utilizationTxMs :=
  (h.ring.sum_of_lt (by decide) hlt).symm

end Tally

end Meshrustic.Radio
