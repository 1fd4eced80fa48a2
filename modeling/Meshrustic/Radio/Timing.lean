import Meshrustic.Radio.Config

/-!
# Airtime of a packet (`mesh-radio/src/packet_time.rs`, `timing.rs`)

The airtime is computed in integers; the only `f32` step is the bandwidth in
Hz, `(bandwidth_khz * 1000.0) as u32`, which is exact for every bandwidth of
the preset table.
-/
namespace Meshrustic.Radio

/-- `(x * 1000.0) as u32` for a finite positive `x` whose product is exact:
mantissa times a power of two, truncated. -/
def F32.timesThousand (x : F32) : Nat :=
  let exponent := (x.bits >>> 23 &&& 0xFF).toNat
  let mantissa := 8388608 + (x.bits &&& 0x7FFFFF).toNat
  if 150 ≤ exponent then mantissa * 1000 <<< (exponent - 150)
  else (mantissa * 1000) >>> (150 - exponent)

/-- `x < 1.0` for a finite `x`. -/
def F32.ltOne (x : F32) : Bool := x.bits &&& 0x80000000 != 0 || x.bits < 0x3F800000

def PREAMBLE_LENGTH : Nat := 16

/-- The part of `RadioConfig` that the airtime is computed from. -/
structure RadioConfig where
  region : RegionInfo
  modemPreset : UInt8
  bandwidthKhz : F32
  spreadingFactor : UInt8
  codingRate : UInt8
  preambleLength : Nat
  deriving DecidableEq, Repr

/-- mirrors crates/mesh-radio/src/timing.rs:15-29 -/
def eu868ConfigForPreset (modemPreset : UInt8) : RadioConfig :=
  let params := modemPresetParams modemPreset false
  { region := EU_868, modemPreset, bandwidthKhz := params.bandwidthKhz,
    spreadingFactor := params.spreadingFactor, codingRate := params.codingRate,
    preambleLength := PREAMBLE_LENGTH }

/-- `n.div_ceil(d)` -/
def divCeil (n d : Nat) : Nat := (n + d - 1) / d

/-- mirrors crates/mesh-radio/src/packet_time.rs:10-44 -/
def packetTimeMs (config : RadioConfig) (payloadLen : Nat) : Nat :=
  if config.spreadingFactor < 5 || 12 < config.spreadingFactor || config.codingRate < 5 ||
      8 < config.codingRate || !config.bandwidthKhz.isFinite || config.bandwidthKhz.ltOne ||
      255 < payloadLen then 0
  else
    let sf := config.spreadingFactor.toNat
    let bwHz := config.bandwidthKhz.timesThousand
    let cr := config.codingRate.toNat - 4
    -- the numerator is clamped at 0, as natural subtraction is
    let numerator := 8 * payloadLen + 44 - 4 * sf
    let denom := 4 * sf
    let payloadSymbols := (numerator + denom - 1) / denom * (cr + 4)
    let quarterSymbols := 4 * (config.preambleLength + 12 + payloadSymbols) + 1
    let timeUs := divCeil ((quarterSymbols <<< sf) * 1000000) (4 * bwHz)
    min (divCeil timeUs 1000) 4294967295

/-- The longest frame under LONG_FAST. -/
example : packetTimeMs (eu868ConfigForPreset MODEM_LONG_FAST) 255 = 2157 := by decide +kernel

end Meshrustic.Radio
