import Meshrustic.Core.LTS
import Meshrustic.Radio.DutyCycle

/-!
# The airtime ledger (`mesh-radio/src/airtime.rs:52-77`)

Two rings of buckets, six of ten seconds and sixty of a minute. A ring is cleared bucket
by bucket, when the period of the bucket begins, and charged through an index that is
computed from the seconds since boot.

Both are `Bucketed`; as long as no bucket outgrows 32 bits they add up to what was logged.
A charge is cut at `MAX_FRAME_AIRTIME_MS`, which the longest frames of the slowest preset
exceed.

Results:
* `Ringed.log`, `Ringed.sum`: a ring of the account, its buckets of any length.
* `airtime_charged_iff`: the frames that are charged in full.
* `ledger_exact`: the rings add up to what was logged in their windows.
* `longest_frame_undercharged`: they do not after one frame of 255 bytes.
-/
namespace Meshrustic.Radio

/-- A frame that was logged, and the second that had begun. -/
structure Logged where
  kind : AirtimeLog
  second : Nat
  airtimeMs : Nat
  deriving DecidableEq

def airtime (logged : List Logged) : Nat := (logged.map (·.airtimeMs)).sum

@[simp] theorem airtime_nil : airtime [] = 0 := rfl

@[simp] theorem airtime_cons (f : Logged) (logged : List Logged) :
    airtime (f :: logged) = f.airtimeMs + airtime logged := by simp [airtime]

/-! ## The ledger -/

/-- The configuration of a preset, narrow or wide. -/
def configForPreset (preset : UInt8) (wideLora : Bool) : RadioConfig :=
  let params := modemPresetParams preset wideLora
  { eu868ConfigForPreset preset with
    bandwidthKhz := params.bandwidthKhz
    spreadingFactor := params.spreadingFactor
    codingRate := params.codingRate }

/-- The account, the seconds that have begun, and the frames that were logged, the last
one first. -/
structure AirLedger where
  air : AirTime
  seconds : Nat
  logged : List Logged

inductive AirLedgerCall where
  | tickSecond
  | logAirtime (kind : AirtimeLog) (preset : UInt8) (wideLora : Bool) (payloadLen : Nat)
  deriving DecidableEq

namespace AirLedger

def new (region : RegionInfo) : AirLedger := ⟨.new region, 0, []⟩

variable (l : AirLedger)

/-- The frame of a call. -/
def frame (kind : AirtimeLog) (preset : UInt8) (wideLora : Bool) (payloadLen : Nat) : Logged :=
  ⟨kind, l.seconds, packetTimeMs (configForPreset preset wideLora) payloadLen⟩

def next : AirLedgerCall → AirLedger
  | .tickSecond => { l with air := l.air.tickSecond, seconds := l.seconds + 1 }
  | .logAirtime kind preset wideLora payloadLen =>
    let f := l.frame kind preset wideLora payloadLen
    { l with air := l.air.logAirtime kind f.airtimeMs, logged := f :: l.logged }

/-- A frame of at most 255 bytes, under a legal preset. -/
def Legal : AirLedgerCall → Prop
  | .tickSecond => True
  | .logAirtime _ preset _ payloadLen => isValidModemPreset preset = true ∧ payloadLen ≤ 255

/-- The frames that were sent. -/
def sent : List Logged := l.logged.filter (·.kind == .tx)

/-- The rings add up to what was logged in their windows. -/
def Exact : Prop :=
  l.air.utilizationTx.cells.sum =
      airtime (l.sent.filter fun f => 60 * (l.seconds / 60 - 59) ≤ f.second) ∧
    l.air.channelUtilization.cells.sum =
      airtime (l.logged.filter fun f => 10 * (l.seconds / 10 - 5) ≤ f.second)

/-- The frame is not one of the longest of the slowest preset. -/
def Bounded (preset : UInt8) (wideLora : Bool) (payloadLen : Nat) : Prop :=
  preset ≠ MODEM_VERY_LONG_SLOW ∨ wideLora = true ∨ payloadLen ≤ 204

/-- The bounded frames, while nothing outgrows 32 bits: the seconds, what was logged in the ten
seconds that run, and what was sent in the minute that runs. -/
def InRange : AirLedgerCall → Prop
  | .tickSecond => l.seconds < U32_MAX
  | .logAirtime kind preset wideLora payloadLen =>
    let f := l.frame kind preset wideLora payloadLen
    Bounded preset wideLora payloadLen ∧
      airtime (l.logged.filter fun g => g.second / 10 == l.seconds / 10) + f.airtimeMs ≤ U32_MAX ∧
      (kind = .tx →
        airtime (l.sent.filter fun g => g.second / 60 == l.seconds / 60) + f.airtimeMs ≤ U32_MAX)

instance : (c : AirLedgerCall) → Decidable (Legal c)
  | .tickSecond => isTrue trivial
  | .logAirtime .. => inferInstanceAs (Decidable (_ ∧ _))

instance (preset : UInt8) (wideLora : Bool) (payloadLen : Nat) :
    Decidable (Bounded preset wideLora payloadLen) := inferInstanceAs (Decidable (_ ∨ _ ∨ _))

instance : (c : AirLedgerCall) → Decidable (l.InRange c)
  | .tickSecond => inferInstanceAs (Decidable (_ < _))
  | .logAirtime .. => inferInstanceAs (Decidable (_ ∧ _ ∧ (_ → _)))

instance : Decidable l.Exact := inferInstanceAs (Decidable (_ ∧ _))

end AirLedger

/-- The ledger of a node from its start on. -/
def airLedgerLTS (region : RegionInfo) : LTS AirLedger AirLedgerCall where
  init l := l = .new region
  step l c l' := AirLedger.Legal c ∧ l' = l.next c

/-! ## Charges -/

/-- The longest frame of any other configuration. -/
theorem longest_airtime {preset : UInt8} (h : isValidModemPreset preset = true) {wideLora : Bool}
    (hfast : preset ≠ MODEM_VERY_LONG_SLOW ∨ wideLora = true) :
    packetTimeMs (configForPreset preset wideLora) 255 ≤ MAX_FRAME_AIRTIME_MS := by
  simp only [isValidModemPreset, Bool.or_eq_true, beq_iff_eq] at h
  revert hfast
  cases wideLora <;>
    rcases h with ((((((((rfl | rfl) | rfl) | rfl) | rfl) | rfl) | rfl) | rfl) | rfl) | rfl <;>
    decide +kernel

/-- The frames that are charged in full are the bounded ones. -/
theorem airtime_charged_iff {preset : UInt8} (h : isValidModemPreset preset = true)
    (wideLora : Bool) {payloadLen : Nat} (hlen : payloadLen ≤ 255) :
    packetTimeMs (configForPreset preset wideLora) payloadLen ≤ MAX_FRAME_AIRTIME_MS ↔
      AirLedger.Bounded preset wideLora payloadLen := by
  have hmono : ∀ {m n}, m ≤ n → n ≤ 255 → packetTimeMs (configForPreset preset wideLora) m ≤
      packetTimeMs (configForPreset preset wideLora) n := packetTimeMs_mono _
  by_cases hfast : preset ≠ MODEM_VERY_LONG_SLOW ∨ wideLora = true
  · exact iff_of_true ((hmono hlen le_rfl).trans (longest_airtime h hfast))
      (hfast.elim .inl fun hwide => .inr (.inl hwide))
  · obtain ⟨rfl, rfl⟩ : preset = MODEM_VERY_LONG_SLOW ∧ wideLora = false := by simpa using hfast
    have hlast : packetTimeMs (configForPreset MODEM_VERY_LONG_SLOW false) 204 ≤
        MAX_FRAME_AIRTIME_MS := by decide +kernel
    have hfirst : MAX_FRAME_AIRTIME_MS <
        packetTimeMs (configForPreset MODEM_VERY_LONG_SLOW false) 205 := by decide +kernel
    have hbounded : AirLedger.Bounded MODEM_VERY_LONG_SLOW false payloadLen ↔ payloadLen ≤ 204 := by
      simp [AirLedger.Bounded]
    rw [hbounded]
    constructor
    · intro hcharged
      by_contra hlong
      have := hmono (m := 205) (by omega) hlen
      omega
    · exact fun hshort => (hmono hshort (by omega)).trans hlast

/-! ## Ticks and charges of the two rings -/

/-- A ring whose buckets last so many seconds has what was logged, and none outgrows 32 bits. -/
structure Ringed (lasts : Nat) {count : Nat} (buckets : Slots count Nat) (now : Nat)
    (logged : List Logged) : Prop where
  ring : Bucketed U32_MAX (fun f => f.second / lasts) (·.airtimeMs) buckets (now / lasts) logged
  fits : ∀ p, airtime (logged.filter fun f => f.second / lasts == p) ≤ U32_MAX

namespace Ringed

variable {lasts count now : Nat} {buckets : Slots count Nat} {logged : List Logged}

theorem new : Ringed lasts (.all 0 : Slots count Nat) now [] := ⟨.new, fun _ => Nat.zero_le _⟩

theorem tick (h : Ringed lasts buckets now logged) (hcount : 1 < count) (hlasts : 0 < lasts) :
    Ringed lasts
      (if now / lasts % count = (now + 1) / lasts % count then buckets
        else buckets.set ((now + 1) / lasts % count) 0) (now + 1) logged where
  ring := by
    refine h.ring.tick hcount ?_
    have hle : now / lasts ≤ (now + 1) / lasts := Nat.div_le_div_right (Nat.le_succ now)
    have hge : (now + 1) / lasts ≤ (now + lasts) / lasts := Nat.div_le_div_right (by omega)
    rw [Nat.add_div_right _ hlasts] at hge
    omega
  fits := h.fits

/-- A bucket with room is charged in full. -/
theorem log (h : Ringed lasts buckets now logged) (hcount : 0 < count) {f : Logged}
    (hnow : f.second = now)
    (hroom : airtime (logged.filter fun g => g.second / lasts == now / lasts) + f.airtimeMs ≤
      U32_MAX) :
    Ringed lasts (addTo buckets (now / lasts % count) f.airtimeMs) now (f :: logged) where
  ring := h.ring.add hcount (by rw [hnow])
  fits p := by
    have hp := h.fits p
    rw [List.filter_cons, hnow]
    split
    · rename_i hrunning
      rw [beq_iff_eq] at hrunning
      rw [airtime_cons, ← hrunning]
      omega
    · exact hp

/-- The buckets add up to what was logged from the first late period on. -/
theorem sum (h : Ringed lasts buckets now logged) (hcount : 0 < count) (hlasts : 0 < lasts) :
    buckets.cells.sum =
      airtime (logged.filter fun f => lasts * (now / lasts - (count - 1)) ≤ f.second) := by
  rw [h.ring.sum hcount fun i _ => h.ring.bucketOf_le h.fits i]
  refine congrArg airtime (List.filter_congr fun f _ => ?_)
  have hle := Nat.le_div_iff_mul_le hlasts (x := now / lasts - (count - 1)) (y := f.second)
  rw [Nat.mul_comm] at hle
  rw [lateIn, decide_eq_decide, ← hle]
  generalize now / lasts = current, f.second / lasts = past
  omega

end Ringed

section Rings

variable (air : AirTime)

theorem tickSecond_minute :
    air.tickSecond.lastUtilPeriod = air.tickSecond.periodUtilMinute := by
  rw [AirTime.periodUtilMinute, tickSecond_seconds]
  unfold AirTime.tickSecond
  dsimp only
  split <;> split <;> simp_all [AirTime.periodUtilMinute]

theorem tickSecond_channel :
    air.tickSecond.channelUtilization =
      if air.lastUtilPeriod = air.tickSecond.periodUtilMinute then air.channelUtilization
      else air.channelUtilization.set air.tickSecond.periodUtilMinute 0 := by
  rw [AirTime.periodUtilMinute, tickSecond_seconds]
  unfold AirTime.tickSecond
  dsimp only
  split <;> split <;> simp_all [AirTime.periodUtilMinute]

variable {air} {kind : AirtimeLog} {ms : Nat}

theorem logAirtime_channel (hms : ms ≤ MAX_FRAME_AIRTIME_MS) :
    (air.logAirtime kind ms).channelUtilization =
      addTo air.channelUtilization air.periodUtilMinute ms := by
  cases kind <;> simp [AirTime.logAirtime, Nat.min_eq_left hms]

theorem logAirtime_tx (hms : ms ≤ MAX_FRAME_AIRTIME_MS) :
    (air.logAirtime kind ms).utilizationTx =
      if kind = .tx then addTo air.utilizationTx air.periodUtilHour ms else air.utilizationTx := by
  cases kind <;> simp [AirTime.logAirtime, Nat.min_eq_left hms, AirTime.periodUtilHour]

end Rings

namespace AirLedger

/-- The account keeps the time of the ledger, and its rings what was logged. -/
structure Kept (l : AirLedger) : Prop where
  seconds : l.air.secondsSinceBoot = l.seconds
  minute : l.air.lastUtilPeriod = l.seconds / 10 % CHANNEL_UTILIZATION_PERIODS
  hour : l.air.lastUtilPeriodTx = l.seconds / 60 % MINUTES_IN_HOUR
  channel : Ringed 10 l.air.channelUtilization l.seconds l.logged
  tx : Ringed 60 l.air.utilizationTx l.seconds l.sent

variable {l : AirLedger}

theorem Kept.init (region : RegionInfo) : Kept (.new region) :=
  ⟨rfl, by simp [new, AirTime.new], by simp [new, AirTime.new], .new, .new⟩

theorem Kept.tick (h : Kept l) (hrange : l.seconds < U32_MAX) : Kept (l.next .tickSecond) := by
  have hseconds : l.air.tickSecond.secondsSinceBoot = l.seconds + 1 := by
    rw [tickSecond_seconds, h.seconds]
    omega
  have hminute : l.air.tickSecond.periodUtilMinute =
      (l.seconds + 1) / 10 % CHANNEL_UTILIZATION_PERIODS := by rw [AirTime.periodUtilMinute, hseconds]
  have hhour : l.air.tickSecond.periodUtilHour = (l.seconds + 1) / 60 % MINUTES_IN_HOUR := by
    rw [AirTime.periodUtilHour, hseconds]
  refine ⟨hseconds, (tickSecond_minute _).trans hminute, (tickSecond_period _).trans hhour, ?_, ?_⟩
  · simp only [next]
    rw [tickSecond_channel, h.minute, hminute]
    exact h.channel.tick (by decide) (by decide)
  · simp only [next]
    rw [tickSecond_tx, h.hour, hhour]
    exact h.tx.tick (by decide) (by decide)

theorem sent_log (kind : AirtimeLog) (preset : UInt8) (wideLora : Bool) (payloadLen : Nat) :
    (l.next (.logAirtime kind preset wideLora payloadLen)).sent =
      if kind = .tx then l.frame kind preset wideLora payloadLen :: l.sent else l.sent := by
  cases kind <;> rfl

theorem Kept.log (h : Kept l) {kind : AirtimeLog} {preset : UInt8} {wideLora : Bool}
    {payloadLen : Nat} (hlegal : Legal (.logAirtime kind preset wideLora payloadLen))
    (hrange : l.InRange (.logAirtime kind preset wideLora payloadLen)) :
    Kept (l.next (.logAirtime kind preset wideLora payloadLen)) := by
  obtain ⟨hpreset, hlen⟩ := hlegal
  obtain ⟨hbounded, hroom, htxRoom⟩ := hrange
  have hcharge : (l.frame kind preset wideLora payloadLen).airtimeMs ≤ MAX_FRAME_AIRTIME_MS :=
    (airtime_charged_iff hpreset wideLora hlen).mpr hbounded
  have hminute : l.air.periodUtilMinute = l.seconds / 10 % CHANNEL_UTILIZATION_PERIODS := by
    rw [AirTime.periodUtilMinute, h.seconds]
  have hhour : l.air.periodUtilHour = l.seconds / 60 % MINUTES_IN_HOUR := by
    rw [AirTime.periodUtilHour, h.seconds]
  refine ⟨?_, ?_, ?_, ?_, ?_⟩
  · cases kind <;> exact h.seconds
  · cases kind <;> exact h.minute
  · cases kind <;> exact h.hour
  · simp only [next]
    rw [logAirtime_channel hcharge, hminute]
    exact h.channel.log (by decide) rfl hroom
  · rw [sent_log]
    simp only [next]
    rw [logAirtime_tx hcharge, hhour]
    split
    · rename_i htx
      exact h.tx.log (by decide) rfl (htxRoom htx)
    · exact h.tx

theorem kept_inductive (region : RegionInfo) :
    ((airLedgerLTS region).restrict InRange).Inductive Kept where
  init l hl := hl ▸ .init region
  step l c l' h hstep := by
    obtain ⟨hrange, hlegal, rfl⟩ := hstep
    cases c with
    | tickSecond => exact h.tick hrange
    | logAirtime kind preset wideLora payloadLen => exact h.log hlegal hrange

theorem Kept.exact (h : Kept l) : l.Exact :=
  ⟨h.tx.sum (by decide) (by decide), h.channel.sum (by decide) (by decide)⟩

end AirLedger

/-- In every run whose frames are bounded and in which nothing outgrows 32 bits, the rings
add up to what was logged in their windows. -/
theorem ledger_exact {region : RegionInfo} {l : AirLedger}
    (h : ((airLedgerLTS region).restrict AirLedger.InRange).Reachable l) : l.Exact :=
  ((AirLedger.kept_inductive region).reachable h).exact

/-- A frame is sent in the first second and has left the ten seconds a minute later. -/
def minuteOfLongFast : List AirLedgerCall :=
  .logAirtime .tx MODEM_LONG_FAST false 255 :: List.replicate 60 .tickSecond

theorem minuteOfLongFast_reachable :
    ((airLedgerLTS EU_868).restrict AirLedger.InRange).Reachable
      (minuteOfLongFast.foldl AirLedger.next (.new EU_868)) := by
  have hlegal : LTS.Along AirLedger.next (fun l c => l.InRange c ∧ AirLedger.Legal c)
      (.new EU_868) minuteOfLongFast := by
    decide +kernel
  have hstep (l : AirLedger) (c : AirLedgerCall) (h : l.InRange c ∧ AirLedger.Legal c) :
      ((airLedgerLTS EU_868).restrict AirLedger.InRange).step l c (l.next c) :=
    ⟨h.1, h.2, rfl⟩
  exact ⟨_, _, rfl, LTS.run_foldl hstep hlegal⟩

theorem ledger_exact_minute :
    (minuteOfLongFast.foldl AirLedger.next (.new EU_868)).Exact :=
  ledger_exact minuteOfLongFast_reachable

/-- 255 bytes under VERY_LONG_SLOW take 24396 ms and are charged 20000. -/
theorem longest_frame_undercharged :
    (airLedgerLTS EU_868).Reachable
        ((AirLedger.new EU_868).next (.logAirtime .tx MODEM_VERY_LONG_SLOW false 255)) ∧
      ¬ ((AirLedger.new EU_868).next (.logAirtime .tx MODEM_VERY_LONG_SLOW false 255)).Exact := by
  refine ⟨⟨_, [_], rfl, .cons ⟨?_, rfl⟩ (.nil _)⟩, ?_⟩
  · decide
  · decide +kernel

end Meshrustic.Radio
