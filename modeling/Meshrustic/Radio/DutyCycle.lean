import Meshrustic.Radio.AirTime
import Meshrustic.Radio.Listening

/-!
# The regional duty cycle (`mesh-radio/src/slot.rs:160-208`, `airtime.rs`)

A radio with its airtime account and a clock: the account is ticked once for each
second that begins, the preset may change at any time, and the driver answers as it
likes, but takes no frame before the one before it is over.

The gate looks at the minutes that the account still has, before the next frame is
charged. What it does not see is the part of the hour that lies in the minute before
those, a minute's worth at most, and the frame that it lets pass.

Results:
* `packetTimeMs_mono`, `legal_airtime`: how long a frame of a legal preset can take.
* `spaced_sum`: frames that do not overlap and begin in an interval.
* `hourly_airtime`: no hour has more than a tenth of it on air.
-/
namespace Meshrustic.Radio

/-- A radio and its account. -/
structure OnAir (RX TX : Nat) where
  slot : RadioSlot RX TX
  air : AirTime
  config : RadioConfig
  nowMs : Nat
  /-- ghost: the frames that the radio took, the last one first -/
  taken : List Taken

inductive AirCall where
  | enqueueTx (frame : TxFrame)
  | removeTx (fromNode id : UInt32)
  | service (a : DriverAnswers)
  | elapse (ms : Nat)
  | configure (modemPreset : UInt8)

/-- The frame is on air, or may be: the radio neither left it alone nor refused it. -/
def accepted : Option (TxFrame × Except RadioError Unit) → Option TxFrame
  | none => none
  | some (_, .error .txNotStarted) => none
  | some (_, .error .invalidLength) => none
  | some (tx, _) => some tx

namespace OnAir

variable {RX TX : Nat} (o : OnAir RX TX)

/-- What a call is told and returns: the gate is the account's, which receptions do not move.
mirrors crates/mesh-radio/src/slot.rs:177-179 -/
def serviced (a : DriverAnswers) : Serviced RX TX :=
  o.slot.service { a with isTxAllowedDutyCycle := o.air.isTxAllowedDutyCycle }

/-- What a call charges: what it received, then what it sent.
mirrors crates/mesh-radio/src/slot.rs:151-154, 183, 200 -/
def account (out : Serviced RX TX) : AirTime :=
  let air := out.rxCharges.foldl
    (fun air len => air.logAirtime .rxAll (packetTimeMs o.config len.toNat)) o.air
  match out.txCharge with
  | some len => air.logTxPacket o.config len.toNat
  | none => air

def next : AirCall → OnAir RX TX
  | .enqueueTx frame => { o with slot := (o.slot.enqueueTx frame).getD o.slot }
  | .removeTx fromNode id => { o with slot := (o.slot.removeTx fromNode id).1 }
  | .service a =>
    let out := o.serviced a
    { o with
      slot := out.slot
      air := o.account out
      taken := ((accepted out.sent).map fun tx =>
        ⟨o.nowMs, packetTimeMs o.config tx.payload.length⟩).toList ++ o.taken }
  | .elapse ms =>
    { o with
      nowMs := o.nowMs + ms
      air := AirTime.tickSecond^[(o.nowMs + ms) / 1000 - o.nowMs / 1000] o.air }
  | .configure modemPreset => { o with config := eu868ConfigForPreset modemPreset }

/-- Presets are legal, and a frame is taken once the one before it is over. -/
def Possible : AirCall → Prop
  | .configure modemPreset => isValidModemPreset modemPreset = true
  | .service a => accepted (o.serviced a).sent ≠ none →
      ∀ f ∈ o.taken.head?, f.startMs + f.airtimeMs ≤ o.nowMs
  | _ => True

end OnAir

def onAirLTS (RX TX : Nat) : LTS (OnAir RX TX) AirCall where
  init o := ∃ preset, isValidModemPreset preset = true ∧
    o = ⟨.new, .new EU_868, eu868ConfigForPreset preset, 0, []⟩
  step o c o' := o.Possible c ∧ o' = o.next c

/-- The time on air of the frames that begin from `lo` on and before `hi`. -/
def airtimeIn (lo hi : Nat) (taken : List Taken) : Nat :=
  ((taken.filter fun f => lo ≤ f.startMs && f.startMs < hi).map (·.airtimeMs)).sum

/-- 255 bytes under VERY_LONG_SLOW. -/
def LONGEST_AIRTIME_MS : Nat := 24396

/-- A tenth of the hour. -/
def HOURLY_AIRTIME_MS : Nat := 360000

/-! ## Airtimes -/

theorem divCeil_mono {m n : Nat} (h : m ≤ n) (d : Nat) : divCeil m d ≤ divCeil n d :=
  Nat.div_le_div_right (by omega)

/-- A longer frame takes no less time. -/
theorem packetTimeMs_mono (config : RadioConfig) {m n : Nat} (h : m ≤ n) (hn : n ≤ 255) :
    packetTimeMs config m ≤ packetTimeMs config n := by
  unfold packetTimeMs
  split
  · exact Nat.zero_le _
  rename_i hm
  split
  · rename_i hbad
    simp only [Bool.or_eq_true, decide_eq_true_eq] at hm hbad
    exact absurd (hbad.resolve_right (by omega)) fun h => hm (.inl h)
  · have hpayload : ∀ sf : Nat, (8 * m + 44 - 4 * sf + 4 * sf - 1) / (4 * sf) ≤
        (8 * n + 44 - 4 * sf + 4 * sf - 1) / (4 * sf) := fun sf => Nat.div_le_div_right (by omega)
    have hsymbols := Nat.mul_le_mul_right (config.codingRate.toNat - 4 + 4)
      (hpayload config.spreadingFactor.toNat)
    refine min_le_min_right _ (divCeil_mono (divCeil_mono (Nat.mul_le_mul_right _ ?_) _) _)
    rw [Nat.shiftLeft_eq, Nat.shiftLeft_eq]
    exact Nat.mul_le_mul_right _ (by omega)

theorem legal_airtime {preset : UInt8} (h : isValidModemPreset preset = true) {len : Nat}
    (hlen : len ≤ 255) : packetTimeMs (eu868ConfigForPreset preset) len ≤ LONGEST_AIRTIME_MS := by
  refine (packetTimeMs_mono _ hlen le_rfl).trans ?_
  simp only [isValidModemPreset, Bool.or_eq_true, beq_iff_eq] at h
  rcases h with ((((((((rfl | rfl) | rfl) | rfl) | rfl) | rfl) | rfl) | rfl) | rfl) | rfl <;>
    decide +kernel

section Sums

variable {taken : List Taken}

/-- Frames one after the other, all of which end by `hi`. -/
theorem ended_sum {lo hi : Nat} (hlo : ∀ f ∈ taken, lo ≤ f.startMs)
    (hspaced : taken.Pairwise fun f g => g.startMs + g.airtimeMs ≤ f.startMs)
    (hhi : ∀ f ∈ taken, f.startMs + f.airtimeMs ≤ hi) (hle : lo ≤ hi) :
    (taken.map (·.airtimeMs)).sum ≤ hi - lo := by
  induction taken generalizing hi with
  | nil => exact Nat.zero_le _
  | cons f rest ih =>
    rw [List.pairwise_cons] at hspaced
    rw [List.forall_mem_cons] at hlo hhi
    have hrest := ih hlo.2 hspaced.2 hspaced.1 hlo.1
    rw [List.map_cons, List.sum_cons]
    omega

/-- Frames one after the other that begin in an interval: the last may reach out of it. -/
theorem spaced_sum {lo hi longest : Nat} (hspaced : taken.Pairwise fun f g =>
      g.startMs + g.airtimeMs ≤ f.startMs)
    (hin : ∀ f ∈ taken, lo ≤ f.startMs ∧ f.startMs ≤ hi)
    (hshort : ∀ f ∈ taken, f.airtimeMs ≤ longest) :
    (taken.map (·.airtimeMs)).sum ≤ hi - lo + longest := by
  cases taken with
  | nil => exact Nat.zero_le _
  | cons f rest =>
    rw [List.pairwise_cons] at hspaced
    rw [List.forall_mem_cons] at hin hshort
    have hrest := ended_sum (fun g hg => (hin.2 g hg).1) hspaced.2 hspaced.1 hin.1.1
    rw [List.map_cons, List.sum_cons]
    omega

/-- The cap on charges hides less than a fifth of a frame. -/
theorem airtime_le_charged (hshort : ∀ f ∈ taken, f.airtimeMs ≤ LONGEST_AIRTIME_MS) :
    MAX_FRAME_AIRTIME_MS * (taken.map (·.airtimeMs)).sum ≤ LONGEST_AIRTIME_MS * charged taken := by
  induction taken with
  | nil => exact Nat.le_refl _
  | cons f rest ih =>
    rw [List.forall_mem_cons] at hshort
    have hrest := ih hshort.2
    have hf : MAX_FRAME_AIRTIME_MS * f.airtimeMs ≤ LONGEST_AIRTIME_MS * charge f := by
      have := hshort.1
      unfold charge MAX_FRAME_AIRTIME_MS LONGEST_AIRTIME_MS at *
      omega
    rw [List.map_cons, List.sum_cons, charged_cons, Nat.mul_add, Nat.mul_add]
    omega

theorem airtimeIn_cons (lo hi : Nat) (f : Taken) (taken : List Taken) :
    airtimeIn lo hi (f :: taken) =
      (if lo ≤ f.startMs ∧ f.startMs < hi then f.airtimeMs else 0) + airtimeIn lo hi taken := by
  unfold airtimeIn
  rw [List.filter_cons]
  by_cases hin : lo ≤ f.startMs ∧ f.startMs < hi
  · rw [if_pos (by simpa using hin), if_pos hin, List.map_cons, List.sum_cons]
  · rw [if_neg (by simpa using hin), if_neg hin, Nat.zero_add]

/-- What is said of the frames that begin in an interval, said of two parts of them. -/
theorem airtimeIn_split (lo hi : Nat) (p : Taken → Bool) (taken : List Taken) :
    airtimeIn lo hi taken =
      airtimeIn lo hi (taken.filter p) + airtimeIn lo hi (taken.filter fun f => !p f) := by
  induction taken with
  | nil => rfl
  | cons f rest ih =>
    rw [airtimeIn_cons, ih]
    cases hp : p f with
    | true =>
      rw [List.filter_cons_of_pos hp, List.filter_cons_of_neg (by simp [hp]), airtimeIn_cons]
      omega
    | false =>
      rw [List.filter_cons_of_neg (by simp [hp]), List.filter_cons_of_pos (by simp [hp]),
        airtimeIn_cons]
      omega

theorem airtimeIn_le (lo hi : Nat) (taken : List Taken) :
    airtimeIn lo hi taken ≤ (taken.map (·.airtimeMs)).sum := by
  induction taken with
  | nil => exact Nat.le_refl _
  | cons f rest ih =>
    rw [airtimeIn_cons, List.map_cons, List.sum_cons]
    split <;> omega

end Sums

/-! ## Runs -/

section Runs

variable {RX TX : Nat}

structure OnAir.Inv (o : OnAir RX TX) : Prop where
  region : o.air.region = EU_868
  polite : o.air.politeDutyCyclePercent = 50
  preset : ∃ preset, isValidModemPreset preset = true ∧ o.config = eu868ConfigForPreset preset
  clock : o.air.secondsSinceBoot = min (o.nowMs / 1000) U32_MAX
  tallied : Tallied o.air o.taken
  started : ∀ f ∈ o.taken, f.startMs ≤ o.nowMs
  short : ∀ f ∈ o.taken, f.airtimeMs ≤ LONGEST_AIRTIME_MS
  spaced : o.taken.Pairwise fun f g => g.startMs + g.airtimeMs ≤ f.startMs
  hours : ∀ lo, airtimeIn lo (lo + MS_IN_HOUR) o.taken ≤ HOURLY_AIRTIME_MS

/-- Where the gate is open, there is room for one more frame in each hour up to now. -/
theorem OnAir.Inv.room {o : OnAir RX TX} (h : o.Inv) (hgate : o.air.isTxAllowedDutyCycle = true)
    {lo : Nat} (hlo : o.nowMs < lo + MS_IN_HOUR) :
    airtimeIn lo (lo + MS_IN_HOUR) o.taken + LONGEST_AIRTIME_MS ≤ HOURLY_AIRTIME_MS := by
  have hused := (o.air.isTxAllowedDutyCycle_iff h.region h.polite).mp hgate
  let late := lately (o.air.secondsSinceBoot / 60)
  -- the minutes that the account has
  have hlate : airtimeIn lo (lo + MS_IN_HOUR) (o.taken.filter late) ≤ 219563 := by
    have hcharged : charged (o.taken.filter late) = o.air.utilizationTxMs :=
      h.tallied.utilization (by unfold U32_MAX; omega)
    have hsum := @airtime_le_charged (o.taken.filter late) fun f hf =>
      h.short f (List.mem_of_mem_filter hf)
    have hle := airtimeIn_le lo (lo + MS_IN_HOUR) (o.taken.filter late)
    unfold MAX_FRAME_AIRTIME_MS LONGEST_AIRTIME_MS at hsum
    omega
  -- the part of the minute before them that is still in the hour
  have hearly : airtimeIn lo (lo + MS_IN_HOUR) (o.taken.filter fun f => !late f) ≤
      60000 + LONGEST_AIRTIME_MS := by
    have hspan := @spaced_sum
      ((o.taken.filter fun f => !late f).filter fun f =>
        lo ≤ f.startMs && f.startMs < lo + MS_IN_HOUR) lo (lo + 60000) LONGEST_AIRTIME_MS
      ((h.spaced.filter _).filter _) (fun f hf => ?_) fun f hf =>
        h.short f (List.mem_of_mem_filter (List.mem_of_mem_filter hf))
    · rw [airtimeIn]
      omega
    · obtain ⟨hf, hin⟩ := List.mem_filter.mp hf
      obtain ⟨-, hold⟩ := List.mem_filter.mp hf
      have hclock := h.clock
      simp only [Bool.and_eq_true, decide_eq_true_eq] at hin
      have hbefore : ¬ o.air.secondsSinceBoot / 60 < bootMinute f.startMs + MINUTES_IN_HOUR := by
        simpa [late, lately, lateIn] using hold
      unfold bootMinute MINUTES_IN_HOUR at hbefore
      unfold MS_IN_HOUR at hlo
      omega
  rw [airtimeIn_split lo _ late]
  unfold LONGEST_AIRTIME_MS HOURLY_AIRTIME_MS at *
  omega

theorem accepted_some {sent : Option (TxFrame × Except RadioError Unit)} {tx : TxFrame}
    (h : accepted sent = some tx) : ∃ answer, sent = some (tx, answer) := by
  unfold accepted at h
  split at h <;> cases h
  exact ⟨_, rfl⟩

theorem accepted_taken {tx : TxFrame} {answer : Except RadioError Unit}
    (hstarted : answer ≠ .error .txNotStarted) (hlength : answer ≠ .error .invalidLength) :
    accepted (some (tx, answer)) = some tx := by
  unfold accepted
  split
  · rename_i h
    cases h
  · rename_i h
    cases h
    exact absurd rfl hstarted
  · rename_i h
    cases h
    exact absurd rfl hlength
  · rename_i h
    cases h
    rfl

/-- What the gate let through was charged. -/
theorem serviced_charge (o : OnAir RX TX) (a : DriverAnswers) :
    (o.serviced a).txCharge = (accepted (o.serviced a).sent).map (·.len) ∧
      (accepted (o.serviced a).sent ≠ none → o.air.isTxAllowedDutyCycle = true) := by
  constructor
  · have heffect := service_effect o.slot
      { a with isTxAllowedDutyCycle := o.air.isTxAllowedDutyCycle }
    change Effect o.slot _ (o.serviced a) at heffect
    cases heffect with
    | started tx answer _ _ _ sent charge taken =>
      rw [charge, sent, accepted_taken taken.1 taken.2]
      rfl
    | notStarted tx _ _ _ _ sent charge _ => rw [charge, sent]; rfl
    | refused tx _ _ _ sent charge _ => rw [charge, sent]; rfl
    | kept _ _ sent charge _ _ => rw [charge, sent]; rfl
    | failed tx _ _ _ sent charge _ => rw [charge, sent]; rfl
    | completed tx report _ _ _ sent charge _ _ => rw [charge, sent]; rfl
    | lost tx _ _ _ sent charge _ => rw [charge, sent]; rfl
  · intro htaken
    obtain ⟨tx, htx⟩ := Option.ne_none_iff_exists'.mp htaken
    obtain ⟨answer, hsent⟩ := accepted_some htx
    exact (service_gates hsent).dutyCycle

theorem account_rx (air : AirTime) (config : RadioConfig) (lens : List UInt8) :
    let charged := lens.foldl
      (fun air len => air.logAirtime .rxAll (packetTimeMs config len.toNat)) air
    charged.region = air.region ∧ charged.politeDutyCyclePercent = air.politeDutyCyclePercent ∧
      charged.secondsSinceBoot = air.secondsSinceBoot ∧
        ∀ taken, Tallied air taken → Tallied charged taken := by
  induction lens generalizing air with
  | nil => exact ⟨rfl, rfl, rfl, fun _ h => h⟩
  | cons len lens ih =>
    obtain ⟨hregion, hpolite, hseconds, htallied⟩ :=
      ih (air.logAirtime .rxAll (packetTimeMs config len.toNat))
    exact ⟨hregion, hpolite, hseconds, fun taken h => htallied taken (h.logRx _)⟩

theorem tickSecond_const (air : AirTime) : air.tickSecond.region = air.region ∧
    air.tickSecond.politeDutyCyclePercent = air.politeDutyCyclePercent := by
  unfold AirTime.tickSecond
  dsimp only
  split <;> split <;> exact ⟨rfl, rfl⟩

theorem tickSecond_times (n : Nat) (air : AirTime) (taken : List Taken) (h : Tallied air taken) :
    let ticked := AirTime.tickSecond^[n] air
    ticked.region = air.region ∧ ticked.politeDutyCyclePercent = air.politeDutyCyclePercent ∧
      ticked.secondsSinceBoot = min (air.secondsSinceBoot + n) U32_MAX ∧ Tallied ticked taken := by
  induction n generalizing air with
  | zero => exact ⟨rfl, rfl, (min_eq_left h.clock).symm, h⟩
  | succ n ih =>
    obtain ⟨hregion, hpolite, hseconds, htallied⟩ := ih air.tickSecond h.tickSecond
    obtain ⟨hregion', hpolite'⟩ := tickSecond_const air
    rw [Function.iterate_succ_apply]
    refine ⟨hregion.trans hregion', hpolite.trans hpolite', ?_, htallied⟩
    rw [hseconds, tickSecond_seconds]
    generalize U32_MAX = saturated
    omega

/-- The frame that the gate let pass. -/
theorem OnAir.Inv.take {o : OnAir RX TX} (h : o.Inv) {air : AirTime} {slot : RadioSlot RX TX}
    {f : Taken} (hgate : o.air.isTxAllowedDutyCycle = true)
    (hidle : ∀ g ∈ o.taken.head?, g.startMs + g.airtimeMs ≤ o.nowMs) (hnow : f.startMs = o.nowMs)
    (hshort : f.airtimeMs ≤ LONGEST_AIRTIME_MS) (hregion : air.region = o.air.region)
    (hpolite : air.politeDutyCyclePercent = o.air.politeDutyCyclePercent)
    (hseconds : air.secondsSinceBoot = o.air.secondsSinceBoot) (htallied : Tallied air o.taken) :
    ({ o with slot, air := air.logAirtime .tx f.airtimeMs, taken := f :: o.taken } :
      OnAir RX TX).Inv where
  region := hregion.trans h.region
  polite := hpolite.trans h.polite
  preset := h.preset
  clock := hseconds.trans h.clock
  tallied := htallied.logTx (by rw [hseconds, h.clock, hnow])
  started := List.forall_mem_cons.mpr ⟨hnow.le, h.started⟩
  short := List.forall_mem_cons.mpr ⟨hshort, h.short⟩
  spaced := by
    refine List.pairwise_cons.mpr ⟨fun g hg => ?_, h.spaced⟩
    rw [hnow]
    have hspaced := h.spaced
    cases htaken : o.taken with
    | nil => rw [htaken] at hg; cases hg
    | cons last rest =>
      rw [htaken] at hg hidle hspaced
      have hlast := hidle last rfl
      rcases List.mem_cons.mp hg with rfl | hg
      · exact hlast
      · have := (List.pairwise_cons.mp hspaced).1 g hg
        omega
  hours lo := by
    rw [airtimeIn_cons]
    split
    · rename_i hin
      have hroom := h.room hgate (hnow ▸ hin.2)
      omega
    · rw [Nat.zero_add]
      exact h.hours lo

theorem OnAir.Inv.next {o : OnAir RX TX} (h : o.Inv) {c : AirCall} (hc : o.Possible c) :
    (o.next c).Inv := by
  cases c with
  | enqueueTx frame => exact { h with }
  | removeTx fromNode id => exact { h with }
  | configure modemPreset => exact { h with preset := ⟨modemPreset, hc, rfl⟩ }
  | elapse ms =>
    obtain ⟨hregion, hpolite, hseconds, htallied⟩ :=
      tickSecond_times ((o.nowMs + ms) / 1000 - o.nowMs / 1000) o.air o.taken h.tallied
    have hclock := h.clock
    exact { h with
      region := hregion.trans h.region
      polite := hpolite.trans h.polite
      clock := by
        refine hseconds.trans ?_
        change _ = min ((o.nowMs + ms) / 1000) U32_MAX
        omega
      tallied := htallied
      started := fun f hf => (h.started f hf).trans (Nat.le_add_right _ _) }
  | service a =>
    obtain ⟨hcharge, hgate⟩ := serviced_charge o a
    obtain ⟨hregion, hpolite, hseconds, htallied⟩ :=
      account_rx o.air o.config (o.serviced a).rxCharges
    unfold OnAir.next OnAir.account
    dsimp only
    rw [hcharge]
    cases htx : accepted (o.serviced a).sent with
    | none =>
      exact { h with
        region := hregion.trans h.region
        polite := hpolite.trans h.polite
        clock := hseconds.trans h.clock
        tallied := htallied _ h.tallied }
    | some tx =>
      have hsome : accepted (o.serviced a).sent ≠ none := by rw [htx]; simp
      obtain ⟨preset, hlegal, hconfig⟩ := h.preset
      have hlen : tx.len.toNat = tx.payload.length := by
        have := tx.fits
        rw [TxFrame.len, UInt8.toNat_ofNat']
        unfold MAX_LORA_PAYLOAD at this
        omega
      have hshort : packetTimeMs o.config tx.payload.length ≤ LONGEST_AIRTIME_MS := by
        rw [hconfig]
        exact legal_airtime hlegal tx.fits
      have hinv := @OnAir.Inv.take _ _ o h _ (o.serviced a).slot
        ⟨o.nowMs, packetTimeMs o.config tx.payload.length⟩ (hgate hsome) (hc hsome) rfl hshort
        hregion hpolite hseconds (htallied _ h.tallied)
      simp only [Option.map_some, AirTime.logTxPacket, hlen]
      exact hinv

end Runs

/-- In no hour, wherever it begins, are the frames that the radio took longer than a tenth of
it. -/
theorem hourly_airtime {RX TX : Nat} {o : OnAir RX TX} (h : (onAirLTS RX TX).Reachable o)
    (lo : Nat) : airtimeIn lo (lo + MS_IN_HOUR) o.taken ≤ HOURLY_AIRTIME_MS := by
  have hinv : (onAirLTS RX TX).Inductive OnAir.Inv := by
    constructor
    · rintro _ ⟨preset, hlegal, rfl⟩
      exact ⟨rfl, rfl, ⟨preset, hlegal, rfl⟩, by simp [AirTime.new], .new EU_868,
        fun f hf => absurd hf List.not_mem_nil, fun f hf => absurd hf List.not_mem_nil, .nil,
        fun _ => Nat.zero_le _⟩
    · rintro o c _ h ⟨hc, rfl⟩
      exact h.next hc
  exact (hinv.reachable h).hours lo

/-- The frame in flight is out. -/
def sentBefore : DriverAnswers := { clearChannel with pollTx := .ok (some .complete) }

instance {RX TX : Nat} (o : OnAir RX TX) : (c : AirCall) → Decidable (o.Possible c)
  | .configure _ => inferInstanceAs (Decidable (_ = true))
  | .service _ => inferInstanceAs (Decidable (_ → ∀ f ∈ _, _))
  | .enqueueTx _ => isTrue trivial
  | .removeTx _ _ => isTrue trivial
  | .elapse _ => isTrue trivial

/-- Three frames are queued. The second goes out at the end of the first minute, the third
once it is over, in the next minute; between them a call reports each as sent. -/
def overMinute : List AirCall :=
  [.enqueueTx queuedFrame, .enqueueTx queuedFrame, .enqueueTx queuedFrame, .service clearChannel,
    .elapse 59900, .service sentBefore, .service clearChannel,
    .elapse 300, .service sentBefore, .service clearChannel]

def overMinuteOut : OnAir 4 4 :=
  overMinute.foldl OnAir.next ⟨.new, .new EU_868, eu868ConfigForPreset MODEM_LONG_FAST, 0, []⟩

theorem hourly_airtime_overMinute :
    overMinuteOut.taken.map (·.startMs) = [60200, 59900, 0] ∧
      overMinuteOut.air.utilizationTx.cells.take 2 = [546, 273] ∧
      airtimeIn 0 (0 + MS_IN_HOUR) overMinuteOut.taken ≤ HOURLY_AIRTIME_MS := by
  refine ⟨by decide +kernel, by decide +kernel, hourly_airtime ?_ 0⟩
  have hpossible : LTS.Along OnAir.next OnAir.Possible
      (⟨.new, .new EU_868, eu868ConfigForPreset MODEM_LONG_FAST, 0, []⟩ : OnAir 4 4)
      overMinute := by decide +kernel
  have hstep (o : OnAir 4 4) (c : AirCall) (h : o.Possible c) :
      (onAirLTS 4 4).step o c (o.next c) := ⟨h, rfl⟩
  exact ⟨_, _, ⟨MODEM_LONG_FAST, by decide, rfl⟩, LTS.run_foldl hstep hpossible⟩

end Meshrustic.Radio
