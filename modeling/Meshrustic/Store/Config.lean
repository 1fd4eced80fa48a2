import Meshrustic.Core.Bytes
import Meshrustic.Radio.Config

/-!
# The persisted node configuration (`mesh-store/src/config.rs`)

`NodeConfig` is what the store keeps across reboots and what the admin
handler edits. Byte arrays of fixed length are `Vector UInt8 n`, so a
value of the wrong length cannot be built; the length of a channel key is
0, 16 or 32 because `CryptoKey` has no other constructor
(`mesh-crypto/src/key.rs`), and the structure carries that as a field.
-/
namespace Meshrustic.Store

open Meshrustic.Radio

/-- mirrors crates/mesh-crypto/src/key.rs:2-36 -/
structure CryptoKey where
  bytes : Vector UInt8 32
  length : Nat
  length_ok : length = 0 ∨ length = 16 ∨ length = 32
  deriving DecidableEq, Repr

/-- `n` zero bytes with the first ones replaced by `bs`. -/
def padded (n : Nat) (bs : Bytes) : Vector UInt8 n :=
  Vector.ofFn fun i => bs.getD i.val 0

theorem getD_toList_padded (n : Nat) (bs : Bytes) (i : Nat) (h : i < n) :
    (padded n bs).toList.getD i 0 = bs.getD i 0 := by
  simp [padded, List.getD_eq_getElem?_getD, h]

/-- A zero-padded value is determined by the bytes before its padding. -/
theorem padded_eq_self {n : Nat} {v : Vector UInt8 n} {k : Nat}
    (hz : ∀ i, k ≤ i → i < n → v.toList.getD i 0 = 0) : padded n (v.toList.take k) = v := by
  apply Vector.ext
  intro i hi
  have hv : v.toList.getD i 0 = v[i] := by simp [List.getD_eq_getElem?_getD, hi]
  simp only [padded, Vector.getElem_ofFn]
  by_cases h : i < k
  · rw [← hv]; simp [List.getD_eq_getElem?_getD, h]
  · rw [← hv, hz i (by omega) hi]
    rw [List.getD_eq_getElem?_getD, List.getElem?_eq_none (by rw [List.length_take]; omega)]
    rfl

theorem padded_toList {n : Nat} (v : Vector UInt8 n) : padded n v.toList = v := by
  have h := padded_eq_self (v := v) (k := n) (fun i h1 h2 => by omega)
  rwa [List.take_of_length_le (by simp)] at h

def CryptoKey.none : CryptoKey := ⟨padded 32 [], 0, by simp⟩

/-- mirrors crates/mesh-crypto/src/key.rs:15-23 -/
def CryptoKey.fromBytes (bs : Bytes) : CryptoKey :=
  if h : bs.length = 16 ∨ bs.length = 32 then ⟨padded 32 bs, bs.length, .inr h⟩ else .none

def OWNER_SHORT_NAME_MAX : Nat := 4
def OWNER_LONG_NAME_MAX : Nat := 39
def ADMIN_KEY_SLOTS : Nat := 3

/-- mirrors crates/mesh-store/src/config.rs:16-29 -/
structure LoRaConfig where
  region : RegionInfo
  modemPreset : UInt8
  frequencyMhz : F32
  bandwidthKhz : F32
  spreadingFactor : UInt8
  codingRate : UInt8
  syncWord : UInt8
  hopLimit : UInt8
  txPowerDbm : UInt8
  usePreset : Bool
  okToMqtt : Bool
  deriving DecidableEq, Repr

/-- mirrors crates/mesh-store/src/config.rs:31-33 -/
def LoRaConfig.effectiveHopLimit (c : LoRaConfig) : UInt8 := min c.hopLimit MAX_HOP_LIMIT

/-- mirrors crates/mesh-store/src/config.rs:70-82 -/
def LoRaConfig.applyModemPreset (c : LoRaConfig) (modemPreset : UInt8) : LoRaConfig :=
  let modemPreset := normalizeModemPreset modemPreset
  let params := modemPresetParams modemPreset false
  { c with
    modemPreset, usePreset := true, region := EU_868, frequencyMhz := EU_868_DEFAULT_FREQ_MHZ,
    bandwidthKhz := params.bandwidthKhz, spreadingFactor := params.spreadingFactor,
    codingRate := params.codingRate, syncWord := SYNC_WORD }

/-- mirrors crates/mesh-store/src/config.rs:35-51 -/
def LoRaConfig.eu868Default : LoRaConfig :=
  LoRaConfig.applyModemPreset
    { region := EU_868, modemPreset := MODEM_DEFAULT_PRESET,
      frequencyMhz := EU_868_DEFAULT_FREQ_MHZ, bandwidthKhz := ⟨0x437A0000⟩, spreadingFactor := 11,
      codingRate := 5, syncWord := SYNC_WORD, hopLimit := DEFAULT_HOP_LIMIT,
      txPowerDbm := MAX_TX_POWER_DBM, usePreset := true, okToMqtt := true }
    MODEM_DEFAULT_PRESET

/-- mirrors crates/mesh-store/src/config.rs:85-104 -/
structure NodeConfig where
  nodeNum : UInt32
  privateKey : Vector UInt8 32
  publicKey : Vector UInt8 32
  channelKey : CryptoKey
  lora : LoRaConfig
  adminPublicKeys : Vector (Vector UInt8 32) ADMIN_KEY_SLOTS
  deviceUpdateIntervalSecs : UInt32
  deviceRole : UInt8
  positionBroadcastSecs : UInt32
  fixedPosition : Bool
  latitudeI : Int32
  longitudeI : Int32
  hasFixedCoords : Bool
  shortName : Vector UInt8 OWNER_SHORT_NAME_MAX
  shortNameLen : UInt8
  longName : Vector UInt8 OWNER_LONG_NAME_MAX
  longNameLen : UInt8
  deriving DecidableEq, Repr

/-- mirrors crates/mesh-store/src/config.rs:5-7 -/
def DEFAULT_PSK : Bytes :=
  [0xd4, 0xf1, 0xbb, 0x3a, 0x20, 0x29, 0x07, 0x59, 0xf0, 0xbc, 0xff, 0xab, 0xcf, 0x4e, 0x69, 0x01]

/-- mirrors crates/mesh-store/src/config.rs:107-127,140-142 -/
def NodeConfig.firstBoot (nodeNum : UInt32) (privateKey publicKey : Vector UInt8 32) :
    NodeConfig where
  nodeNum
  privateKey
  publicKey
  channelKey := CryptoKey.fromBytes DEFAULT_PSK
  lora := LoRaConfig.eu868Default
  adminPublicKeys := Vector.replicate _ (padded 32 [])
  deviceUpdateIntervalSecs := 0
  deviceRole := 0
  positionBroadcastSecs := 0
  fixedPosition := false
  latitudeI := 0
  longitudeI := 0
  hasFixedCoords := false
  shortName := padded _ []
  shortNameLen := 0
  longName := padded _ []
  longNameLen := 0

end Meshrustic.Store
