import Meshrustic.Store.Layout

/-!
# Migrated records (`mesh-store/src/layout.rs`)

Whatever the version of a record, what is read from it is in the form that the
store writes: an invalid preset or name length is repaired on the way in, an
invalid key length is refused. So a configuration that was read once can be
written, and reads back as it is, with the defaults that its first version
lacked.

Results:
* `decode_read`: what any record that decodes says of its configuration;
* `record_survives`: the round trips of both directions.
-/
namespace Meshrustic.Store

open Meshrustic.Radio

/-! ## What is read -/

/-- What has been read from a record `b` of some version. -/
structure Read (b : Bytes) (c : NodeConfig) : Prop where
  canonical : Canonical c
  frequency : frequencyOk c.lora.frequencyMhz = true
  key : c.channelKey.length = 0 → byteAt b 76 = 0

/-- Only version 5 has names. -/
def NodeConfig.Nameless (c : NodeConfig) : Prop :=
  c.shortName = padded _ [] ∧ c.shortNameLen = 0 ∧ c.longName = padded _ [] ∧ c.longNameLen = 0

/-- The defaults for what version 1 lacks beside the names. -/
structure NodeConfig.Legacy (c : NodeConfig) : Prop where
  adminPublicKeys : c.adminPublicKeys = Vector.replicate _ (padded 32 [])
  usePreset : c.lora.usePreset = true
  deviceUpdateIntervalSecs : c.deviceUpdateIntervalSecs = 0
  deviceRole : c.deviceRole = 0
  positionBroadcastSecs : c.positionBroadcastSecs = 0
  fixedPosition : c.fixedPosition = false
  hasFixedCoords : c.hasFixedCoords = false
  latitudeI : c.latitudeI = 0
  longitudeI : c.longitudeI = 0

/-- The defaults a record of version `version` is read with. -/
structure Migrated (version : UInt32) (c : NodeConfig) : Prop where
  names : version < STORE_VERSION → c.Nameless
  okToMqtt : version < STORE_VERSION_V4 → c.lora.okToMqtt = true
  legacy : version = STORE_VERSION_V1 → c.Legacy

theorem padded_zero {n : Nat} {bs : Bytes} {i : Nat} (h : bs.length ≤ i) (hi : i < n) :
    (padded n bs).toList.getD i 0 = 0 := by
  rw [getD_toList_padded n bs i hi, List.getD_eq_getElem?_getD, List.getElem?_eq_none h]
  rfl

theorem decodeChannelKey_ok {keyLen : UInt8} {bytes : Bytes} {k : CryptoKey}
    (h : decodeChannelKey keyLen bytes = .ok k) :
    (∀ i, k.length ≤ i → i < 32 → k.bytes.toList.getD i 0 = 0) ∧ (k.length = 0 → keyLen = 0) := by
  unfold decodeChannelKey at h
  split at h
  · rename_i hzero
    cases h
    exact ⟨fun i _ hi => padded_zero (Nat.zero_le i) hi, fun _ => by simpa using hzero⟩
  · split at h
    · rename_i hlen
      cases h
      simp only [Bool.and_eq_true, Bool.or_eq_true, beq_iff_eq, decide_eq_true_eq] at hlen
      have htake : (bytes.take keyLen.toNat).length = keyLen.toNat := by
        rw [List.length_take]
        exact Nat.min_eq_left hlen.2
      have hsize : keyLen.toNat = 16 ∨ keyLen.toNat = 32 :=
        hlen.1.imp (fun h => by rw [h]; rfl) (fun h => by rw [h]; rfl)
      unfold CryptoKey.fromBytes
      rw [dif_pos (by rw [htake]; exact hsize)]
      refine ⟨fun i hk hi => padded_zero hk hi, fun hzero => ?_⟩
      dsimp only at hzero
      omega
    · cases h

theorem canonical_of_nameless {c : NodeConfig} (hnames : c.Nameless) (hregion : c.lora.region = EU_868)
    (hpreset : isValidModemPreset c.lora.modemPreset = true)
    (hbandwidth : c.lora.bandwidthKhz = bandwidthForPreset c.lora.modemPreset)
    (hkey : ∀ i, c.channelKey.length ≤ i → i < 32 → c.channelKey.bytes.toList.getD i 0 = 0) :
    Canonical c := by
  obtain ⟨hshort, hshortLen, hlong, hlongLen⟩ := hnames
  exact
    { region := hregion
      preset := hpreset
      bandwidth := hbandwidth
      key := hkey
      shortLen := by rw [hshortLen]; decide
      shortPad := fun i _ hi => by rw [hshort]; exact padded_zero (Nat.zero_le i) hi
      longLen := by rw [hlongLen]; decide
      longPad := fun i _ hi => by rw [hlong]; exact padded_zero (Nat.zero_le i) hi }

theorem parseV2Body_ok {b : Bytes} {v : UInt32} {c : NodeConfig} (h : parseV2Body b v = .ok c) :
    Read b c ∧ c.Nameless ∧ (v < STORE_VERSION_V4 → c.lora.okToMqtt = true) := by
  unfold parseV2Body at h
  cases hk : decodeChannelKey (byteAt b 76) (slice b 77 32) with
  | error e => rw [hk] at h; cases h
  | ok k =>
    obtain ⟨hpad, hnone⟩ := decodeChannelKey_ok hk
    rw [hk] at h
    dsimp only at h
    split at h
    · cases h
    · rename_i hfreq
      cases h
      refine ⟨⟨canonical_of_nameless ⟨rfl, rfl, rfl, rfl⟩ rfl (isValid_normalize _) rfl hpad,
        by simpa using hfreq, hnone⟩, ⟨rfl, rfl, rfl, rfl⟩, fun hv => ?_⟩
      dsimp only
      rw [if_neg (UInt32.not_le.mpr hv)]

theorem decodeV1_ok {b : Bytes} {c : NodeConfig} (h : decodeV1 b = .ok c) :
    Read b c ∧ Migrated STORE_VERSION_V1 c := by
  unfold decodeV1 at h
  split at h
  · cases h
  split at h
  · cases h
  split at h
  · cases h
  cases hk : decodeChannelKey (byteAt b 76) (slice b 77 19) with
  | error e => rw [hk] at h; cases h
  | ok k =>
    obtain ⟨hpad, hnone⟩ := decodeChannelKey_ok hk
    rw [hk] at h
    dsimp only at h
    split at h
    · cases h
    · rename_i hfreq
      cases h
      refine ⟨⟨canonical_of_nameless ⟨rfl, rfl, rfl, rfl⟩ rfl (isValid_normalize _) rfl hpad,
        by simpa using hfreq, hnone⟩, fun _ => ⟨rfl, rfl, rfl, rfl⟩, fun _ => rfl, fun _ => ?_⟩
      exact ⟨rfl, rfl, rfl, rfl, rfl, rfl, rfl, rfl, rfl⟩

theorem decodeV2ToV4_ok {b : Bytes} {v : UInt32} {c : NodeConfig} (hv : v ≠ STORE_VERSION_V1)
    (h : decodeV2ToV4 b v = .ok c) : Read b c ∧ Migrated v c := by
  unfold decodeV2ToV4 at h
  split at h
  · cases h
  split at h
  · cases h
  obtain ⟨hread, hnames, hmqtt⟩ := parseV2Body_ok h
  exact ⟨hread, fun _ => hnames, hmqtt, fun heq => absurd heq hv⟩

theorem nameLen_le (b : Bytes) (off max : Nat) : nameLen b off max ≤ max := by
  unfold nameLen
  split <;> omega

/-- A name that was read is padded behind its length. -/
theorem nameAt_ok (b : Bytes) (off : Nat) {max : Nat} (hmax : max < 256) :
    (nameAt b off max).2.toNat ≤ max ∧
      ∀ i, (nameAt b off max).2.toNat ≤ i → i < max → (nameAt b off max).1.toList.getD i 0 = 0 := by
  have hle := nameLen_le b off max
  have hlen : (nameAt b off max).2.toNat = nameLen b off max := by
    unfold nameAt
    rw [UInt8.toNat_ofNat', Nat.mod_eq_of_lt (by omega)]
  rw [hlen]
  refine ⟨hle, fun i hi him => padded_zero ?_ him⟩
  exact Nat.le_trans (by unfold slice; rw [List.length_take]; exact Nat.min_le_left _ _) hi

theorem decodeV5_ok {b : Bytes} {c : NodeConfig} (h : decodeV5 b = .ok c) : Read b c := by
  unfold decodeV5 at h
  split at h
  · cases h
  split at h
  · cases h
  cases hp : parseV2Body b STORE_VERSION_V4 with
  | error e => rw [hp] at h; cases h
  | ok cfg =>
    obtain ⟨hread, -, -⟩ := parseV2Body_ok hp
    have hshort := nameAt_ok b 238 (show OWNER_SHORT_NAME_MAX < 256 by decide)
    have hlong := nameAt_ok b 243 (show OWNER_LONG_NAME_MAX < 256 by decide)
    have hcanonical := hread.canonical
    rw [hp] at h
    cases h
    exact
      { canonical :=
          { region := hcanonical.region
            preset := hcanonical.preset
            bandwidth := hcanonical.bandwidth
            key := hcanonical.key
            shortLen := hshort.1
            shortPad := hshort.2
            longLen := hlong.1
            longPad := hlong.2 }
        frequency := hread.frequency
        key := hread.key }

/-- Every record that decodes is read into canonical form, with the defaults of
its version. -/
theorem decode_read {b : Bytes} {c : NodeConfig} (h : decode b = .ok c) :
    Read b c ∧ Migrated (ofLe32 (slice b 4 4)) c := by
  obtain ⟨-, -, hcase⟩ := decode_ok_cases h
  rcases hcase with ⟨hv, hd⟩ | ⟨hv, hd⟩ | ⟨hv, hd⟩
  · rw [hv]
    exact decodeV1_ok hd
  · refine decodeV2ToV4_ok ?_ hd
    rcases hv with hv | hv | hv <;> rw [hv] <;> decide
  · rw [hv]
    exact ⟨decodeV5_ok hd, fun hlt => absurd hlt (by decide), fun hlt => absurd hlt (by decide),
      fun heq => absurd heq (by decide)⟩

/-! ## Round trips -/

/-- `c` can be written into any buffer with room for a record, and is read from it. -/
def NodeConfig.ReadsBack (c : NodeConfig) : Prop :=
  ∀ out : Bytes, STORE_RECORD_LEN ≤ out.length → ∃ r, encode c out = .ok r ∧ decode r = .ok c

theorem readsBack {c : NodeConfig} (hc : Canonical c) (hf : frequencyOk c.lora.frequencyMhz = true) :
    c.ReadsBack := by
  intro out hout
  have henc : encode c out = .ok (withCrc (recordBody c out.length)) := by
    unfold encode
    rw [if_neg (Nat.not_lt.mpr hout), hf]
    rfl
  have hback := decode_encode henc
  rw [normalized_of_canonical hc] at hback
  exact ⟨_, henc, hback⟩

/-- A configuration that was read from a record of any accepted version is
written and read back as it is, with the defaults of that version, and has no
channel key only where the record says so; a canonical one reads back as well. -/
theorem record_survives :
    (∀ (b : Bytes) (c : NodeConfig), decode b = .ok c →
      c.ReadsBack ∧ Migrated (ofLe32 (slice b 4 4)) c ∧
        (c.channelKey.length = 0 → byteAt b 76 = 0)) ∧
    ∀ c : NodeConfig, Canonical c → frequencyOk c.lora.frequencyMhz = true → c.ReadsBack := by
  refine ⟨fun b c h => ?_, fun c hc hf => readsBack hc hf⟩
  obtain ⟨hread, hmigrated⟩ := decode_read h
  exact ⟨readsBack hread.canonical hread.frequency, hmigrated, hread.key⟩

/-- A version 1 record with a key of sixteen bytes. -/
def legacyBody : Bytes :=
  writeAll (List.replicate 124 0)
    [(0, le32 STORE_MAGIC), (4, le32 STORE_VERSION_V1), (8, le32 0xAABB), (76, [16]),
      (77, DEFAULT_PSK), (96, [REGION_EU_868, MODEM_SHORT_SLOW]),
      (98, le32 EU_868_DEFAULT_FREQ_MHZ.bits), (102, [8, 5, SYNC_WORD, 7, 22])]

def legacyRecord : Bytes := legacyBody ++ le32 (crc32 legacyBody)

theorem legacyRecord_decodes : (decode legacyRecord).toBool = true := by decide +kernel

theorem legacyRecord_survives :
    ∃ c, decode legacyRecord = .ok c ∧ c.ReadsBack ∧ c.Legacy := by
  cases h : decode legacyRecord with
  | error e =>
    have hdecodes := legacyRecord_decodes
    rw [h] at hdecodes
    cases hdecodes
  | ok c =>
    have hsurvives := record_survives.1 legacyRecord c h
    exact ⟨c, rfl, hsurvives.1, hsurvives.2.1.legacy (by decide +kernel)⟩

end Meshrustic.Store
