import Mathlib.Tactic.Common

/-!
# Region and modem presets (`mesh-radio/src/config.rs`)

The store and the admin handler share this table: a stored or requested
preset is normalised against it, and the bandwidth of a stored record is
always the one of its preset.

`f32` values are kept as their IEEE-754 bit patterns. No modelled function
does arithmetic on them: they are copied, compared and classified.
-/
namespace Meshrustic.Radio

/-- A `f32` by its bit pattern. -/
structure F32 where
  bits : UInt32
  deriving DecidableEq, Repr

/-- `f32::is_finite`: the exponent is not all ones. -/
def F32.isFinite (x : F32) : Bool := x.bits &&& 0x7F800000 != 0x7F800000

/-- `x <= 0.0` for a finite `x`: negative, or a zero of either sign. -/
def F32.nonpos (x : F32) : Bool := x.bits &&& 0x80000000 != 0 || x.bits == 0

/-- mirrors crates/mesh-radio/src/config.rs:1-16 -/
def REGION_EU_868 : UInt8 := 3
def DEFAULT_HOP_LIMIT : UInt8 := 7
def MAX_HOP_LIMIT : UInt8 := 7
def MODEM_LONG_FAST : UInt8 := 0
def MODEM_LONG_SLOW : UInt8 := 1
def MODEM_VERY_LONG_SLOW : UInt8 := 2
def MODEM_MEDIUM_SLOW : UInt8 := 3
def MODEM_MEDIUM_FAST : UInt8 := 4
def MODEM_SHORT_SLOW : UInt8 := 5
def MODEM_SHORT_FAST : UInt8 := 6
def MODEM_LONG_MODERATE : UInt8 := 7
def MODEM_SHORT_TURBO : UInt8 := 8
def MODEM_LONG_TURBO : UInt8 := 9
def MODEM_DEFAULT_PRESET : UInt8 := MODEM_LONG_FAST
def MAX_TX_POWER_DBM : UInt8 := 22
def SYNC_WORD : UInt8 := 0x2B

/-- mirrors crates/mesh-radio/src/config.rs:18-32 -/
def isValidModemPreset (preset : UInt8) : Bool :=
  preset == MODEM_LONG_FAST || preset == MODEM_LONG_SLOW || preset == MODEM_VERY_LONG_SLOW ||
  preset == MODEM_MEDIUM_SLOW || preset == MODEM_MEDIUM_FAST || preset == MODEM_SHORT_SLOW ||
  preset == MODEM_SHORT_FAST || preset == MODEM_LONG_MODERATE || preset == MODEM_SHORT_TURBO ||
  preset == MODEM_LONG_TURBO

/-- mirrors crates/mesh-radio/src/config.rs:34-40 -/
def normalizeModemPreset (preset : UInt8) : UInt8 :=
  if isValidModemPreset preset then preset else MODEM_DEFAULT_PRESET

/-- mirrors crates/mesh-radio/src/config.rs:42-50 -/
structure RegionInfo where
  code : UInt8
  name : String
  freqStartMhz : F32
  freqEndMhz : F32
  dutyCyclePercent : UInt8
  powerLimitDbm : UInt8
  deriving DecidableEq, Repr

/-- mirrors crates/mesh-radio/src/config.rs:52-61 -/
def EU_868 : RegionInfo where
  code := REGION_EU_868
  name := "EU_868"
  freqStartMhz := ⟨0x4459599A⟩  -- 869.4
  freqEndMhz := ⟨0x4459699A⟩    -- 869.65
  dutyCyclePercent := 10
  powerLimitDbm := 27

/-- 869.525 -/
def EU_868_DEFAULT_FREQ_MHZ : F32 := ⟨0x4459619A⟩

structure ModemParams where
  bandwidthKhz : F32
  spreadingFactor : UInt8
  codingRate : UInt8
  deriving DecidableEq, Repr

/-- The bandwidth of a preset, narrow or wide, as `f32` bits:
62.5, 125, 250, 500 and 406.25, 812.5, 1625. -/
def bw (wideLora : Bool) (wide narrow : UInt32) : F32 := ⟨if wideLora then wide else narrow⟩

/-- mirrors crates/mesh-radio/src/config.rs:71-129 -/
def modemPresetParams (preset : UInt8) (wideLora : Bool) : ModemParams :=
  if preset == MODEM_SHORT_TURBO then ⟨bw wideLora 0x44CB2000 0x43FA0000, 7, 5⟩
  else if preset == MODEM_SHORT_FAST then ⟨bw wideLora 0x444B2000 0x437A0000, 7, 5⟩
  else if preset == MODEM_SHORT_SLOW then ⟨bw wideLora 0x444B2000 0x437A0000, 8, 5⟩
  else if preset == MODEM_MEDIUM_FAST then ⟨bw wideLora 0x444B2000 0x437A0000, 9, 5⟩
  else if preset == MODEM_MEDIUM_SLOW then ⟨bw wideLora 0x444B2000 0x437A0000, 10, 5⟩
  else if preset == MODEM_LONG_TURBO then ⟨bw wideLora 0x44CB2000 0x43FA0000, 11, 8⟩
  else if preset == MODEM_LONG_MODERATE then ⟨bw wideLora 0x43CB2000 0x42FA0000, 11, 8⟩
  else if preset == MODEM_LONG_FAST then ⟨bw wideLora 0x444B2000 0x437A0000, 11, 5⟩
  else if preset == MODEM_LONG_SLOW then ⟨bw wideLora 0x43CB2000 0x42FA0000, 12, 8⟩
  else if preset == MODEM_VERY_LONG_SLOW then ⟨bw wideLora 0x43CB2000 0x427A0000, 12, 8⟩
  else ⟨⟨0⟩, 0, 0⟩

/-- Normalising a preset always lands in the table, so it is idempotent. -/
theorem isValid_normalize (p : UInt8) : isValidModemPreset (normalizeModemPreset p) = true := by
  unfold normalizeModemPreset
  split
  · assumption
  · decide

theorem normalize_of_valid {p : UInt8} (h : isValidModemPreset p = true) :
    normalizeModemPreset p = p := by
  simp [normalizeModemPreset, h]

end Meshrustic.Radio
