import Meshrustic.Store.Config

/-!
# The stored record (`mesh-store/src/layout.rs`)

`encode` writes a version 5 record of 304 bytes; `decode` accepts versions 1
to 5 and migrates the older ones. Both are closed by a CRC-32 over
everything before it.

Results:
* `decode_encode`: whatever `encode` accepts, `decode` reads back as
  `normalized c`: the configuration with its region, preset, bandwidth and
  paddings in canonical form. `normalized_of_canonical`: a canonical
  configuration comes back as it is.
* `decode_append`: a record is decided by its own bytes; what follows it in
  the buffer does not matter. This is what lets the journal read a short
  legacy record through a longer window.
* `decode_short_v5`: a buffer cut before the version 5 checksum never
  decodes when its version byte is that of version 5 or erased flash.
-/
namespace Meshrustic.Store

open Meshrustic.Radio

def STORE_MAGIC : UInt32 := 0x4D525354
def STORE_VERSION : UInt32 := 5
def STORE_VERSION_V1 : UInt32 := 1
def STORE_VERSION_V2 : UInt32 := 2
def STORE_VERSION_V3 : UInt32 := 3
def STORE_VERSION_V4 : UInt32 := 4
def STORE_RECORD_LEN : Nat := 304
def STORE_RECORD_LEN_V4 : Nat := 256
def STORE_RECORD_LEN_V1 : Nat := 128
def STORE_CRC_OFFSET : Nat := 300
def STORE_CRC_OFFSET_V4 : Nat := 252

/-- mirrors crates/mesh-store/src/layout.rs:27-34 -/
inductive StoreError where
  | tooShort | badMagic | badVersion | badCrc | badConfig
  deriving DecidableEq, Repr

/-! ## CRC-32 -/

/-- One bit of the reflected polynomial division. -/
def crcBit (crc : UInt32) : UInt32 :=
  if crc &&& 1 != 0 then (crc >>> 1) ^^^ 0xEDB88320 else crc >>> 1

def crcByte (crc : UInt32) (byte : UInt8) : UInt32 :=
  crcBit (crcBit (crcBit (crcBit (crcBit (crcBit (crcBit (crcBit (crc ^^^ byte.toUInt32))))))))

/-- `k x`, with `x` brought to a numeral first: the checksum of a whole
record then evaluates byte by byte and not as one nested term. -/
def withNumeral (x : UInt32) (k : UInt32 → UInt32) : UInt32 :=
  match x.toNat with
  | 0 => k 0
  | n + 1 => k (UInt32.ofNat (n + 1))

def crcLoop (crc : UInt32) : Bytes → UInt32
  | [] => crc
  | byte :: data => withNumeral (crcByte crc byte) fun crc => crcLoop crc data

theorem withNumeral_eq (x : UInt32) (k : UInt32 → UInt32) : withNumeral x k = k x := by
  unfold withNumeral
  split
  · next h =>
    have hx : x = 0 := UInt32.toNat_inj.mp (by simpa using h)
    rw [hx]
  · next n h => rw [← Nat.succ_eq_add_one, ← h, UInt32.ofNat_toNat]

/-- The loop is the plain fold over the bytes. -/
theorem crcLoop_eq_foldl (crc : UInt32) (data : Bytes) : crcLoop crc data = data.foldl crcByte crc := by
  induction data generalizing crc with
  | nil => rfl
  | cons byte data ih => rw [crcLoop, withNumeral_eq, ih, List.foldl_cons]

/-- mirrors crates/mesh-store/src/layout.rs:325-338 -/
@[irreducible] def crc32 (data : Bytes) : UInt32 := ~~~(crcLoop 0xFFFFFFFF data)

/-- The check value of this CRC: its value on the digits 1 to 9. -/
example : crc32 [0x31, 0x32, 0x33, 0x34, 0x35, 0x36, 0x37, 0x38, 0x39] = 0xCBF43926 := by
  decide +kernel

/-! ## Encoding -/

def boolByte (b : Bool) : UInt8 := if b then 1 else 0

/-- `i32::to_le_bytes` / `from_le_bytes` go through the same bits as `u32`. -/
def leI32 (x : Int32) : Bytes := le32 x.toUInt32
def ofLeI32 (b : Bytes) : Int32 := (ofLe32 b).toInt32

/-- The fields `encode` copies before the checksum, in the order of the
source, which is also their order in the record.
mirrors crates/mesh-store/src/layout.rs:45-96 -/
def recordFields (config : NodeConfig) : List (Nat × Bytes) :=
  let lora := config.lora
  let shortLen := min config.shortNameLen.toNat OWNER_SHORT_NAME_MAX
  let longLen := min config.longNameLen.toNat OWNER_LONG_NAME_MAX
  [(0, le32 STORE_MAGIC),
   (4, le32 STORE_VERSION),
   (8, le32 config.nodeNum),
   (12, config.privateKey.toList),
   (44, config.publicKey.toList),
   (76, [UInt8.ofNat config.channelKey.length]),
   (77, config.channelKey.bytes.toList.take config.channelKey.length),
   (109, [lora.region.code]),
   (110, [lora.modemPreset]),
   (111, le32 lora.frequencyMhz.bits),
   (115, [lora.spreadingFactor]),
   (116, [lora.codingRate]),
   (117, [lora.syncWord]),
   (118, [lora.hopLimit]),
   (119, [lora.txPowerDbm]),
   (120, [boolByte lora.usePreset]),
   (121, [boolByte lora.okToMqtt]),
   (122, [config.deviceRole]),
   (124, config.adminPublicKeys[0].toList),
   (156, config.adminPublicKeys[1].toList),
   (188, config.adminPublicKeys[2].toList),
   (220, le32 config.deviceUpdateIntervalSecs),
   (224, le32 config.positionBroadcastSecs),
   (228, [boolByte config.fixedPosition]),
   (229, [boolByte config.hasFixedCoords]),
   (230, leI32 config.latitudeI),
   (234, leI32 config.longitudeI),
   (238, [UInt8.ofNat shortLen]),
   (239, config.shortName.toList.take shortLen),
   (243, [UInt8.ofNat longLen]),
   (244, config.longName.toList.take longLen)]

/-- `frequency_mhz.is_finite() && frequency_mhz > 0.0` -/
def frequencyOk (f : F32) : Bool := f.isFinite && !f.nonpos

/-- The zeroed output with every field copied in. -/
def recordBody (config : NodeConfig) (len : Nat) : Bytes :=
  writeAll (List.replicate len 0) (recordFields config)

/-- The checksum of a record body, copied in behind it. -/
def withCrc (body : Bytes) : Bytes :=
  putAt body STORE_CRC_OFFSET (le32 (crc32 (body.take STORE_CRC_OFFSET)))

/-- mirrors crates/mesh-store/src/layout.rs:36-83 -/
def encode (config : NodeConfig) (out : Bytes) : Except StoreError Bytes :=
  if out.length < STORE_RECORD_LEN then .error .tooShort
  else if !frequencyOk config.lora.frequencyMhz then .error .badConfig
  else .ok (withCrc (recordBody config out.length))

/-! ## Decoding -/

/-- mirrors crates/mesh-store/src/layout.rs:311-319 -/
def decodeChannelKey (keyLen : UInt8) (bytes : Bytes) : Except StoreError CryptoKey :=
  if keyLen == 0 then .ok .none
  else if (keyLen == 16 || keyLen == 32) && keyLen.toNat ≤ bytes.length then
    .ok (.fromBytes (bytes.take keyLen.toNat))
  else .error .badConfig

/-- mirrors crates/mesh-store/src/layout.rs:321-323 -/
def bandwidthForPreset (modemPreset : UInt8) : F32 :=
  (modemPresetParams modemPreset false).bandwidthKhz

/-- `buf[off..off + 32]` as a key. -/
def keyAt (buf : Bytes) (off : Nat) : Vector UInt8 32 := padded 32 (slice buf off 32)

/-- mirrors crates/mesh-store/src/layout.rs:181-244 -/
def parseV2Body (buf : Bytes) (version : UInt32) : Except StoreError NodeConfig :=
  match decodeChannelKey (byteAt buf 76) (slice buf 77 32) with
  | .error e => .error e
  | .ok channelKey =>
    let frequencyMhz : F32 := ⟨ofLe32 (slice buf 111 4)⟩
    let modemPreset := normalizeModemPreset (byteAt buf 110)
    if !frequencyOk frequencyMhz then .error .badConfig
    else .ok {
      nodeNum := ofLe32 (slice buf 8 4)
      privateKey := keyAt buf 12
      publicKey := keyAt buf 44
      channelKey
      lora := {
        region := EU_868
        modemPreset
        frequencyMhz
        bandwidthKhz := bandwidthForPreset modemPreset
        spreadingFactor := byteAt buf 115
        codingRate := byteAt buf 116
        syncWord := byteAt buf 117
        hopLimit := byteAt buf 118
        txPowerDbm := byteAt buf 119
        usePreset := byteAt buf 120 != 0
        okToMqtt := if STORE_VERSION_V4 ≤ version then byteAt buf 121 != 0 else true }
      adminPublicKeys := #v[keyAt buf 124, keyAt buf 156, keyAt buf 188]
      deviceUpdateIntervalSecs := ofLe32 (slice buf 220 4)
      deviceRole := byteAt buf 122
      positionBroadcastSecs := ofLe32 (slice buf 224 4)
      fixedPosition := byteAt buf 228 != 0
      latitudeI := ofLeI32 (slice buf 230 4)
      longitudeI := ofLeI32 (slice buf 234 4)
      hasFixedCoords := byteAt buf 229 != 0
      shortName := padded _ []
      shortNameLen := 0
      longName := padded _ []
      longNameLen := 0 }

/-- The stored length of a name; one beyond the maximum reads as no name. -/
def nameLen (buf : Bytes) (off max : Nat) : Nat :=
  if (byteAt buf off).toNat ≤ max then (byteAt buf off).toNat else 0

/-- A name of at most `max` bytes behind its length byte at `off`. -/
def nameAt (buf : Bytes) (off max : Nat) : Vector UInt8 max × UInt8 :=
  (padded max (slice buf (off + 1) (nameLen buf off max)), UInt8.ofNat (nameLen buf off max))

/-- mirrors crates/mesh-store/src/layout.rs:98-124 -/
def decodeOwnerNames (buf : Bytes) :
    (Vector UInt8 OWNER_SHORT_NAME_MAX × UInt8) × (Vector UInt8 OWNER_LONG_NAME_MAX × UInt8) :=
  (nameAt buf 238 OWNER_SHORT_NAME_MAX, nameAt buf 243 OWNER_LONG_NAME_MAX)

/-- mirrors crates/mesh-store/src/layout.rs:160-178 -/
def decodeV5 (buf : Bytes) : Except StoreError NodeConfig :=
  if buf.length < STORE_RECORD_LEN then .error .tooShort
  else if ofLe32 (slice buf STORE_CRC_OFFSET 4) != crc32 (buf.take STORE_CRC_OFFSET) then
    .error .badCrc
  else match parseV2Body buf STORE_VERSION_V4 with
    | .error e => .error e
    | .ok cfg =>
      let names := decodeOwnerNames buf
      .ok { cfg with
        shortName := names.1.1, shortNameLen := names.1.2
        longName := names.2.1, longNameLen := names.2.2 }

/-- mirrors crates/mesh-store/src/layout.rs:145-158 -/
def decodeV2ToV4 (buf : Bytes) (version : UInt32) : Except StoreError NodeConfig :=
  if buf.length < STORE_RECORD_LEN_V4 then .error .tooShort
  else if ofLe32 (slice buf STORE_CRC_OFFSET_V4 4) != crc32 (buf.take STORE_CRC_OFFSET_V4) then
    .error .badCrc
  else parseV2Body buf version

/-- The 32-byte key of a version 1 record overlapped the radio bytes, so it
is refused.
mirrors crates/mesh-store/src/layout.rs:246-309 -/
def decodeV1 (buf : Bytes) : Except StoreError NodeConfig :=
  if buf.length < STORE_RECORD_LEN_V1 then .error .tooShort
  else if ofLe32 (slice buf 124 4) != crc32 (buf.take 124) then .error .badCrc
  else if byteAt buf 76 == 32 then .error .badConfig
  else match decodeChannelKey (byteAt buf 76) (slice buf 77 19) with
    | .error e => .error e
    | .ok channelKey =>
      let frequencyMhz : F32 := ⟨ofLe32 (slice buf 98 4)⟩
      let modemPreset := normalizeModemPreset (byteAt buf 97)
      if !frequencyOk frequencyMhz then .error .badConfig
      else .ok {
        nodeNum := ofLe32 (slice buf 8 4)
        privateKey := keyAt buf 12
        publicKey := keyAt buf 44
        channelKey
        lora := {
          region := EU_868
          modemPreset
          frequencyMhz
          bandwidthKhz := bandwidthForPreset modemPreset
          spreadingFactor := byteAt buf 102
          codingRate := byteAt buf 103
          syncWord := byteAt buf 104
          hopLimit := byteAt buf 105
          txPowerDbm := byteAt buf 106
          usePreset := true
          okToMqtt := true }
        adminPublicKeys := Vector.replicate _ (padded 32 [])
        deviceUpdateIntervalSecs := 0
        deviceRole := 0
        positionBroadcastSecs := 0
        fixedPosition := false
        latitudeI := 0
        longitudeI := 0
        hasFixedCoords := false
        shortName := padded _ []
        shortNameLen := 0
        longName := padded _ []
        longNameLen := 0 }

/-- mirrors crates/mesh-store/src/layout.rs:126-143 -/
def decode (buf : Bytes) : Except StoreError NodeConfig :=
  if buf.length < STORE_RECORD_LEN_V1 then .error .tooShort
  else if ofLe32 (slice buf 0 4) != STORE_MAGIC then .error .badMagic
  else
    let version := ofLe32 (slice buf 4 4)
    if version == STORE_VERSION_V1 then decodeV1 buf
    else if version == STORE_VERSION_V2 || version == STORE_VERSION_V3 ||
        version == STORE_VERSION_V4 then decodeV2ToV4 buf version
    else if version == STORE_VERSION then decodeV5 buf
    else .error .badVersion

/-! ## What an encoded record decodes to -/

/-- The key with the bytes behind its length cleared. -/
def CryptoKey.normalized (k : CryptoKey) : CryptoKey :=
  if k.length = 0 then .none else { k with bytes := padded 32 (k.bytes.toList.take k.length) }

/-- The form in which a configuration comes back from the store. -/
def NodeConfig.normalized (c : NodeConfig) : NodeConfig :=
  let preset := normalizeModemPreset c.lora.modemPreset
  let shortLen := min c.shortNameLen.toNat OWNER_SHORT_NAME_MAX
  let longLen := min c.longNameLen.toNat OWNER_LONG_NAME_MAX
  { c with
    channelKey := c.channelKey.normalized
    lora := { c.lora with
      region := EU_868, modemPreset := preset, bandwidthKhz := bandwidthForPreset preset }
    shortName := padded _ (c.shortName.toList.take shortLen)
    shortNameLen := UInt8.ofNat shortLen
    longName := padded _ (c.longName.toList.take longLen)
    longNameLen := UInt8.ofNat longLen }

theorem ordered_recordFields (c : NodeConfig) {n : Nat} (hn : 283 ≤ n) :
    Ordered 0 n (recordFields c) := by
  have hk : c.channelKey.length ≤ 32 := by rcases c.channelKey.length_ok with h | h | h <;> omega
  simp only [recordFields, Ordered, leI32, length_le32, List.length_cons, List.length_nil,
    List.length_take, Vector.length_toList, OWNER_SHORT_NAME_MAX, OWNER_LONG_NAME_MAX]
  omega

theorem length_recordBody (c : NodeConfig) {n : Nat} (hn : STORE_RECORD_LEN ≤ n) :
    (recordBody c n).length = n := by
  have hn' : 283 ≤ n := Nat.le_trans (by decide) hn
  have ho := ordered_recordFields c hn'
  have ho' : Ordered 0 (List.replicate n (0 : UInt8)).length (recordFields c) := by simpa using ho
  rw [recordBody, length_writeAll ho', List.length_replicate]

/-- The checksum closes a body of any length that has room for it. -/
theorem withCrc_spec {body : Bytes} (hb : STORE_RECORD_LEN ≤ body.length) :
    (withCrc body).length = body.length ∧
      (withCrc body).take STORE_CRC_OFFSET = body.take STORE_CRC_OFFSET ∧
      ofLe32 (slice (withCrc body) STORE_CRC_OFFSET 4) = crc32 (body.take STORE_CRC_OFFSET) := by
  have hc : STORE_CRC_OFFSET ≤ body.length := Nat.le_trans (by decide) hb
  unfold withCrc
  generalize crc32 (body.take STORE_CRC_OFFSET) = k
  refine ⟨length_putAt hb, ?_, ?_⟩
  · have hpre : slice (putAt body STORE_CRC_OFFSET (le32 k)) 0 STORE_CRC_OFFSET =
        slice body 0 STORE_CRC_OFFSET := slice_putAt_before (Nat.le_of_eq (Nat.zero_add _)) hc
    simpa [slice] using hpre
  · have hcrc : slice (putAt body STORE_CRC_OFFSET (le32 k)) STORE_CRC_OFFSET (le32 k).length =
        le32 k := slice_putAt_same hc
    rw [length_le32] at hcrc
    rw [hcrc, ofLe32_le32]

section Encoded
variable {c : NodeConfig} {out r : Bytes} (h : encode c out = .ok r)
include h

theorem encode_ok : STORE_RECORD_LEN ≤ out.length ∧ frequencyOk c.lora.frequencyMhz = true ∧
    r = withCrc (recordBody c out.length) := by
  unfold encode at h
  split at h
  · cases h
  · split at h
    · cases h
    · rename_i h1 h2
      exact ⟨by omega, by simpa using h2, (Except.ok.inj h).symm⟩

theorem length_encoded : r.length = out.length := by
  obtain ⟨hl, -, hr⟩ := encode_ok h
  have hb := length_recordBody c hl
  rw [hr, (withCrc_spec (hb.symm ▸ hl)).1, hb]

/-- Every field of an encoded record reads back. -/
theorem slice_encoded (off : Nat) (bs : Bytes) (hm : (off, bs) ∈ recordFields c)
    (hb : off + bs.length ≤ STORE_CRC_OFFSET) : slice r off bs.length = bs := by
  obtain ⟨hl, -, hr⟩ := encode_ok h
  have hlen := length_recordBody c hl
  have ht := (withCrc_spec (hlen.symm ▸ hl)).2.1
  have hn : 283 ≤ out.length := Nat.le_trans (by decide) hl
  rw [hr, ← slice_take hb, ht, slice_take hb, recordBody]
  have ho : Ordered 0 (List.replicate out.length (0 : UInt8)).length (recordFields c) := by
    simpa using ordered_recordFields c hn
  exact slice_writeAll ho hm

theorem byteAt_encoded (off : Nat) (b : UInt8) (hm : (off, [b]) ∈ recordFields c)
    (hb : off < STORE_CRC_OFFSET) : byteAt r off = b :=
  byteAt_eq_slice (slice_encoded h off [b] hm hb)

theorem crc_encoded : ofLe32 (slice r STORE_CRC_OFFSET 4) = crc32 (r.take STORE_CRC_OFFSET) := by
  obtain ⟨hl, -, hr⟩ := encode_ok h
  have hlen := length_recordBody c hl
  obtain ⟨-, ht, hc⟩ := withCrc_spec (hlen.symm ▸ hl)
  rw [hr, hc, ht]

theorem key_encoded (off : Nat) (v : Vector UInt8 32) (hm : (off, v.toList) ∈ recordFields c)
    (hb : off + 32 ≤ STORE_CRC_OFFSET) : keyAt r off = v := by
  have hs := slice_encoded h off _ hm (by simpa using hb)
  rw [Vector.length_toList] at hs
  rw [keyAt, hs, padded_toList]

theorem word_encoded (off : Nat) (x : UInt32) (hm : (off, le32 x) ∈ recordFields c)
    (hb : off + 4 ≤ STORE_CRC_OFFSET) : ofLe32 (slice r off 4) = x := by
  have hs := slice_encoded h off _ hm (by simpa using hb)
  rw [length_le32] at hs
  rw [hs, ofLe32_le32]

theorem decodeChannelKey_encoded :
    decodeChannelKey (byteAt r 76) (slice r 77 32) = .ok c.channelKey.normalized := by
  have hlen : byteAt r 76 = UInt8.ofNat c.channelKey.length :=
    byteAt_encoded h 76 _ (by simp [recordFields]) (by decide)
  have hr : STORE_RECORD_LEN ≤ r.length := by rw [length_encoded h]; exact (encode_ok h).1
  have h32 : (slice r 77 32).length = 32 := length_slice (Nat.le_trans (by decide) hr)
  have hle : c.channelKey.length ≤ 32 := by rcases c.channelKey.length_ok with h | h | h <;> omega
  have hs : (slice r 77 32).take c.channelKey.length =
      c.channelKey.bytes.toList.take c.channelKey.length := by
    have hs := slice_encoded h 77 (c.channelKey.bytes.toList.take c.channelKey.length)
      (by simp [recordFields])
      (by simp only [List.length_take, Vector.length_toList, STORE_CRC_OFFSET]; omega)
    rw [List.length_take, Vector.length_toList, Nat.min_eq_left hle] at hs
    rw [take_slice hle, hs]
  rw [hlen]
  unfold decodeChannelKey CryptoKey.normalized
  -- the three lengths a key can have: no key, and the two accepted sizes
  rcases c.channelKey.length_ok with hk | hk | hk <;> simp only [hk] at hs ⊢
  · rfl
  · simp [h32, hs, CryptoKey.fromBytes]
  · simp [h32, hs, CryptoKey.fromBytes]

theorem name_encoded {max : Nat} (off : Nat) (len : UInt8) (v : Vector UInt8 max)
    (hm : (off, [UInt8.ofNat (min len.toNat max)]) ∈ recordFields c)
    (hm' : (off + 1, v.toList.take (min len.toNat max)) ∈ recordFields c)
    (hb : off + 1 + max ≤ STORE_CRC_OFFSET) :
    nameAt r off max =
      (padded max (v.toList.take (min len.toNat max)), UInt8.ofNat (min len.toNat max)) := by
  have hl := len.toNat_lt
  have hlen : nameLen r off max = min len.toNat max := by
    rw [nameLen, byteAt_encoded h off _ hm (by omega), UInt8.toNat_ofNat', Nat.mod_eq_of_lt (by omega),
      if_pos (Nat.min_le_right _ _)]
  have hs := slice_encoded h (off + 1) _ hm' (by rw [List.length_take, Vector.length_toList]; omega)
  rw [List.length_take, Vector.length_toList, Nat.min_eq_left (Nat.min_le_right _ _)] at hs
  rw [nameAt, hlen, hs]

theorem boolByte_encoded (off : Nat) (b : Bool) (hm : (off, [boolByte b]) ∈ recordFields c)
    (hb : off < STORE_CRC_OFFSET) : (byteAt r off != 0) = b := by
  rw [byteAt_encoded h off _ hm hb]
  cases b <;> rfl

theorem parseV2Body_encoded : parseV2Body r STORE_VERSION_V4 =
    .ok { c.normalized with
      shortName := padded _ [], shortNameLen := 0, longName := padded _ [], longNameLen := 0 } := by
  have hf : ofLe32 (slice r 111 4) = c.lora.frequencyMhz.bits :=
    word_encoded h 111 _ (by simp [recordFields]) (by decide)
  have hadmin : #v[keyAt r 124, keyAt r 156, keyAt r 188] = c.adminPublicKeys := by
    rw [key_encoded h 124 c.adminPublicKeys[0] (by simp [recordFields]) (by decide),
      key_encoded h 156 c.adminPublicKeys[1] (by simp [recordFields]) (by decide),
      key_encoded h 188 c.adminPublicKeys[2] (by simp [recordFields]) (by decide)]
    apply Vector.ext
    intro i hi
    match i, hi with
    | 0, _ => rfl
    | 1, _ => rfl
    | 2, _ => rfl
  have hfreq := (encode_ok h).2.1
  unfold parseV2Body
  rw [decodeChannelKey_encoded h, hf, hadmin,
    key_encoded h 12 c.privateKey (by simp [recordFields]) (by decide),
    key_encoded h 44 c.publicKey (by simp [recordFields]) (by decide),
    word_encoded h 8 c.nodeNum (by simp [recordFields]) (by decide),
    byteAt_encoded h 110 c.lora.modemPreset (by simp [recordFields]) (by decide),
    byteAt_encoded h 115 c.lora.spreadingFactor (by simp [recordFields]) (by decide),
    byteAt_encoded h 116 c.lora.codingRate (by simp [recordFields]) (by decide),
    byteAt_encoded h 117 c.lora.syncWord (by simp [recordFields]) (by decide),
    byteAt_encoded h 118 c.lora.hopLimit (by simp [recordFields]) (by decide),
    byteAt_encoded h 119 c.lora.txPowerDbm (by simp [recordFields]) (by decide),
    byteAt_encoded h 122 c.deviceRole (by simp [recordFields]) (by decide),
    boolByte_encoded h 120 c.lora.usePreset (by simp [recordFields]) (by decide),
    boolByte_encoded h 121 c.lora.okToMqtt (by simp [recordFields]) (by decide),
    boolByte_encoded h 228 c.fixedPosition (by simp [recordFields]) (by decide),
    boolByte_encoded h 229 c.hasFixedCoords (by simp [recordFields]) (by decide),
    word_encoded h 220 c.deviceUpdateIntervalSecs (by simp [recordFields])
      (by decide),
    word_encoded h 224 c.positionBroadcastSecs (by simp [recordFields]) (by decide),
    ofLeI32, ofLeI32,
    word_encoded h 230 c.latitudeI.toUInt32 (by simp [recordFields, leI32])
      (by decide),
    word_encoded h 234 c.longitudeI.toUInt32 (by simp [recordFields, leI32])
      (by decide)]
  simp only [hfreq, Bool.not_true, Bool.false_eq_true, if_false, UInt32.le_refl, if_true]
  rfl

theorem decode_encode : decode r = .ok c.normalized := by
  have hr : STORE_RECORD_LEN ≤ r.length := by rw [length_encoded h]; exact (encode_ok h).1
  have hmagic : ofLe32 (slice r 0 4) = STORE_MAGIC :=
    word_encoded h 0 _ (by simp [recordFields]) (by decide)
  have hver : ofLe32 (slice r 4 4) = STORE_VERSION :=
    word_encoded h 4 _ (by simp [recordFields]) (by decide)
  have hshort := name_encoded h 238 c.shortNameLen c.shortName
    (by simp [recordFields]) (by simp [recordFields]) (by decide)
  have hlong := name_encoded h 243 c.longNameLen c.longName
    (by simp [recordFields]) (by simp [recordFields]) (by decide)
  unfold decode
  rw [if_neg (Nat.not_lt.mpr (Nat.le_trans (by decide) hr)), hmagic, hver, if_neg (by decide)]
  simp only [show (STORE_VERSION == STORE_VERSION_V1) = false from by decide,
    show (STORE_VERSION == STORE_VERSION_V2) = false from by decide,
    show (STORE_VERSION == STORE_VERSION_V3) = false from by decide,
    show (STORE_VERSION == STORE_VERSION_V4) = false from by decide, beq_self_eq_true,
    Bool.or_self, Bool.false_eq_true, if_false, if_true]
  unfold decodeV5
  rw [if_neg (Nat.not_lt.mpr hr), crc_encoded h, parseV2Body_encoded h, decodeOwnerNames, hshort,
    hlong]
  simp only [bne_self_eq_false, Bool.false_eq_true, if_false]
  rfl

end Encoded

/-- The paddings, the preset and the region are already in the form the
store gives back. -/
structure Canonical (c : NodeConfig) : Prop where
  region : c.lora.region = EU_868
  preset : isValidModemPreset c.lora.modemPreset = true
  bandwidth : c.lora.bandwidthKhz = bandwidthForPreset c.lora.modemPreset
  key : ∀ i, c.channelKey.length ≤ i → i < 32 → c.channelKey.bytes.toList.getD i 0 = 0
  shortLen : c.shortNameLen.toNat ≤ OWNER_SHORT_NAME_MAX
  shortPad : ∀ i, c.shortNameLen.toNat ≤ i → i < OWNER_SHORT_NAME_MAX →
    c.shortName.toList.getD i 0 = 0
  longLen : c.longNameLen.toNat ≤ OWNER_LONG_NAME_MAX
  longPad : ∀ i, c.longNameLen.toNat ≤ i → i < OWNER_LONG_NAME_MAX →
    c.longName.toList.getD i 0 = 0

theorem CryptoKey.normalized_of_zero {k : CryptoKey}
    (hz : ∀ i, k.length ≤ i → i < 32 → k.bytes.toList.getD i 0 = 0) : k.normalized = k := by
  unfold CryptoKey.normalized
  split
  · rename_i h0
    obtain ⟨bytes, length, hl⟩ := k
    simp only at h0; subst h0
    have := padded_eq_self (v := bytes) (k := 0) (fun i h1 h2 => hz i h1 h2)
    simp only [List.take_zero] at this
    simp [CryptoKey.none, this]
  · rw [padded_eq_self hz]

theorem normalized_of_canonical {c : NodeConfig} (hc : Canonical c) : c.normalized = c := by
  have hs : min c.shortNameLen.toNat OWNER_SHORT_NAME_MAX = c.shortNameLen.toNat :=
    Nat.min_eq_left hc.shortLen
  have hl : min c.longNameLen.toNat OWNER_LONG_NAME_MAX = c.longNameLen.toNat :=
    Nat.min_eq_left hc.longLen
  unfold NodeConfig.normalized
  simp only [hs, hl, normalize_of_valid hc.preset, ← hc.bandwidth, ← hc.region,
    CryptoKey.normalized_of_zero hc.key, padded_eq_self hc.shortPad, padded_eq_self hc.longPad,
    UInt8.ofNat_toNat]

/-! ## A record is decided by its own bytes -/

theorem parseV2Body_take {buf : Bytes} {n : Nat} (hn : STORE_RECORD_LEN_V4 ≤ n) (v : UInt32) :
    parseV2Body (buf.take n) v = parseV2Body buf v := by
  unfold STORE_RECORD_LEN_V4 at hn
  unfold parseV2Body keyAt
  simp (disch := omega) only [slice_take, byteAt_take]

theorem length_take_lt {buf : Bytes} {k n : Nat} (h : k ≤ n) :
    (buf.take n).length < k ↔ buf.length < k := by
  rw [List.length_take]; omega

theorem take_take_le {buf : Bytes} {k n : Nat} (h : k ≤ n) : (buf.take n).take k = buf.take k := by
  rw [List.take_take, Nat.min_eq_left h]

theorem decodeV1_take {buf : Bytes} {n : Nat} (hn : STORE_RECORD_LEN_V1 ≤ n) :
    decodeV1 (buf.take n) = decodeV1 buf := by
  have hn' : 128 ≤ n := hn
  unfold decodeV1 keyAt
  simp (disch := omega) only [slice_take, byteAt_take, length_take_lt hn, take_take_le]

theorem decodeV2ToV4_take {buf : Bytes} {n : Nat} (hn : STORE_RECORD_LEN_V4 ≤ n) (v : UInt32) :
    decodeV2ToV4 (buf.take n) v = decodeV2ToV4 buf v := by
  unfold decodeV2ToV4
  rw [slice_take hn, parseV2Body_take hn, take_take_le (Nat.le_trans (by decide) hn)]
  simp only [length_take_lt hn]

theorem nameAt_take {buf : Bytes} {off max n : Nat} (h : off + 1 + max ≤ n) :
    nameAt (buf.take n) off max = nameAt buf off max := by
  have hl : nameLen (buf.take n) off max = nameLen buf off max := by
    unfold nameLen; rw [byteAt_take (by omega)]
  have hle : nameLen buf off max ≤ max := by unfold nameLen; split <;> omega
  rw [nameAt, hl, slice_take (by omega), nameAt]

theorem decodeV5_take {buf : Bytes} {n : Nat} (hn : STORE_RECORD_LEN ≤ n) :
    decodeV5 (buf.take n) = decodeV5 buf := by
  unfold decodeV5 decodeOwnerNames
  rw [slice_take hn, parseV2Body_take (Nat.le_trans (by decide) hn),
    take_take_le (Nat.le_trans (by decide) hn), nameAt_take (Nat.le_trans (by decide) hn),
    nameAt_take (Nat.le_trans (by decide) hn)]
  simp only [length_take_lt hn]

/-- The version of a record that decodes, and the decoder it went through. -/
theorem decode_ok_cases {b : Bytes} {c : NodeConfig} (h : decode b = .ok c) :
    STORE_RECORD_LEN_V1 ≤ b.length ∧ ofLe32 (slice b 0 4) = STORE_MAGIC ∧
      (ofLe32 (slice b 4 4) = STORE_VERSION_V1 ∧ decodeV1 b = .ok c ∨
        (ofLe32 (slice b 4 4) = STORE_VERSION_V2 ∨ ofLe32 (slice b 4 4) = STORE_VERSION_V3 ∨
          ofLe32 (slice b 4 4) = STORE_VERSION_V4) ∧
          decodeV2ToV4 b (ofLe32 (slice b 4 4)) = .ok c ∨
        ofLe32 (slice b 4 4) = STORE_VERSION ∧ decodeV5 b = .ok c) := by
  unfold decode at h
  split at h
  · cases h
  · split at h
    · cases h
    · rename_i h1 h2
      refine ⟨Nat.not_lt.mp h1, by simpa using h2, ?_⟩
      simp only at h
      split at h
      · rename_i hv; exact .inl ⟨by simpa using hv, h⟩
      · split at h
        · rename_i hv
          exact .inr (.inl ⟨by simpa [or_assoc] using hv, h⟩)
        · split at h
          · rename_i hv; exact .inr (.inr ⟨by simpa using hv, h⟩)
          · cases h

/-- A window of at least a whole record decides like the buffer itself. -/
theorem decode_take {buf : Bytes} {n : Nat} (hn : STORE_RECORD_LEN ≤ n) :
    decode (buf.take n) = decode buf := by
  have hn' : 304 ≤ n := hn
  unfold decode
  rw [decodeV1_take (Nat.le_trans (by decide) hn), decodeV5_take hn, slice_take (by omega),
    slice_take (by omega)]
  simp only [length_take_lt (Nat.le_trans (show STORE_RECORD_LEN_V1 ≤ STORE_RECORD_LEN by decide) hn),
    decodeV2ToV4_take (Nat.le_trans (show STORE_RECORD_LEN_V4 ≤ STORE_RECORD_LEN by decide) hn)]

theorem decodeV2ToV4_length {b : Bytes} {v : UInt32} {c : NodeConfig}
    (h : decodeV2ToV4 b v = .ok c) : STORE_RECORD_LEN_V4 ≤ b.length := by
  unfold decodeV2ToV4 at h
  split at h
  · cases h
  · exact Nat.not_lt.mp ‹_›

theorem decodeV5_length {b : Bytes} {c : NodeConfig} (h : decodeV5 b = .ok c) :
    STORE_RECORD_LEN ≤ b.length := by
  unfold decodeV5 at h
  split at h
  · cases h
  · exact Nat.not_lt.mp ‹_›

theorem decode_append {b : Bytes} {c : NodeConfig} (h : decode b = .ok c) (rest : Bytes) :
    decode (b ++ rest) = .ok c := by
  obtain ⟨hl, hm, hv⟩ := decode_ok_cases h
  have hl' : 128 ≤ b.length := hl
  have hpre : b = (b ++ rest).take b.length := by simp
  have hs0 : slice (b ++ rest) 0 4 = slice b 0 4 := slice_append_left (by omega)
  have hs4 : slice (b ++ rest) 4 4 = slice b 4 4 := slice_append_left (by omega)
  have hlen : ¬ (b ++ rest).length < STORE_RECORD_LEN_V1 := by
    rw [List.length_append]; exact Nat.not_lt.mpr (Nat.le_trans hl (Nat.le_add_right _ _))
  unfold decode
  rw [if_neg hlen, hs0, hm, if_neg (by decide)]
  simp only [hs4]
  -- each version's decoder reads only its own record, which `b` holds whole
  rcases hv with ⟨hv, hd⟩ | ⟨hv, hd⟩ | ⟨hv, hd⟩
  · rw [hpre, decodeV1_take hl] at hd
    rw [hv, hd]; rfl
  · have hlen := decodeV2ToV4_length hd
    rw [hpre, decodeV2ToV4_take hlen, slice_take (by omega), hs4] at hd
    rcases hv with hv | hv | hv <;> rw [hv] at hd ⊢ <;> rw [hd] <;> rfl
  · have hlen := decodeV5_length hd
    rw [hpre, decodeV5_take hlen] at hd
    rw [hv, hd]; rfl

/-- A buffer shorter than a version 5 record does not decode when its
version starts with the byte of version 5 or with an erased byte. -/
theorem decode_short_v5 {b : Bytes} (hl : b.length < STORE_RECORD_LEN)
    (hv : byteAt b 4 = 5 ∨ byteAt b 4 = 0xff) (c : NodeConfig) : decode b ≠ .ok c := by
  intro h
  obtain ⟨hlen, -, hcase⟩ := decode_ok_cases h
  have hb : byteAt (slice b 4 4) 0 = byteAt b 4 := byteAt_slice (by omega)
  have hmod := ofLe32_mod (slice b 4 4)
  rw [hb] at hmod
  have hlow : (ofLe32 (slice b 4 4)).toNat % 256 = 5 ∨
      (ofLe32 (slice b 4 4)).toNat % 256 = 255 := by
    rw [hmod]; rcases hv with hv | hv <;> rw [hv] <;> decide
  rcases hcase with ⟨hv', -⟩ | ⟨hv' | hv' | hv', -⟩ | ⟨-, hd⟩
  · rw [hv'] at hlow; revert hlow; decide
  · rw [hv'] at hlow; revert hlow; decide
  · rw [hv'] at hlow; revert hlow; decide
  · rw [hv'] at hlow; revert hlow; decide
  · exact absurd (decodeV5_length hd) (Nat.not_le.mpr hl)

/-- A buffer whose fourth byte is erased flash has no store magic. -/
theorem decode_erased_magic {b : Bytes} (hb : byteAt b 3 = 0xff) (c : NodeConfig) :
    decode b ≠ .ok c := by
  intro h
  obtain ⟨-, hm, -⟩ := decode_ok_cases h
  have h3 : byteAt (slice b 0 4) 3 = byteAt b 3 := by
    rw [byteAt_slice (by omega), Nat.zero_add]
  have hdiv := ofLe32_div (slice b 0 4)
  rw [h3, hb, hm] at hdiv
  revert hdiv; decide

end Meshrustic.Store
