import Meshrustic.Admin.Encode

/-!
# Admin messages read back (`mesh-routing/src/admin_codec.rs`)

A message in canonical form has zeros wherever it has nothing to say: behind the
bytes in use of an array, in the value of a field that is absent, and in the
passkey of a message without one. Such a message reads back as it was: a field
that is left out reads as its default, and the decoders start from the defaults
that the encoders leave out.

Results:
* `decode..._encode`: for each nested message, and the whole one in
  `admin_round_trip`.
-/
namespace Meshrustic.Admin

open Meshrustic.Protobuf Meshrustic.Store

/-! ## Canonical form -/

/-- Nothing is left in `v` behind its first `n` bytes. -/
def Padded {m : Nat} (v : Vector UInt8 m) (n : Nat) : Prop := n ≤ m ∧ v = padded m (v.toList.take n)

/-- No preset is named when none is in use. -/
def WireLoRaConfig.Canonical (lora : WireLoRaConfig) : Prop :=
  lora.usePreset = false → lora.modemPreset = 0

structure WireSecurityConfig.Canonical (sec : WireSecurityConfig) : Prop where
  publicKey : sec.hasPublicKey = false → sec.publicKey = EMPTY_ADMIN_KEY
  privateKey : sec.hasPrivateKey = false → sec.privateKey = EMPTY_ADMIN_KEY
  count : sec.adminKeyCount ≤ MAX_ADMIN_KEYS
  unused : ∀ i, sec.adminKeyCount ≤ i → ∀ h : i < MAX_ADMIN_KEYS,
    sec.adminKeys.get ⟨i, h⟩ = EMPTY_ADMIN_KEY

structure WireChannelSettings.Canonical (settings : WireChannelSettings) : Prop where
  psk : Padded settings.psk settings.pskLen
  name : Padded settings.name settings.nameLen
  id : settings.hasId = false → settings.id = 0

structure WireChannel.Canonical (ch : WireChannel) : Prop where
  settings : ch.settings.Canonical
  absent : ch.hasSettings = false → ch.settings = .default

structure WireFixedPosition.Canonical (pos : WireFixedPosition) : Prop where
  latitudeI : pos.hasLatitudeI = false → pos.latitudeI = 0
  longitudeI : pos.hasLongitudeI = false → pos.longitudeI = 0

def DeviceMetadata.Canonical (metadata : DeviceMetadata) : Prop :=
  Padded metadata.firmwareVersion metadata.firmwareVersionLen

structure NodeInfoIdentity.Canonical (identity : NodeInfoIdentity) : Prop where
  longName : Padded identity.advert.longName identity.advert.longNameLen
  shortName : Padded identity.advert.shortName identity.advert.shortNameLen

def ConfigPayload.Canonical : ConfigPayload → Prop
  | .lora l => l.Canonical
  | .security s => s.Canonical
  | _ => True

def AdminPayload.Canonical : AdminPayload → Prop
  | .getChannelResponse ch => ch.Canonical
  | .getOwnerResponse identity | .setOwner identity => identity.Canonical
  | .getConfigResponse config | .setConfig config => config.Canonical
  | .getDeviceMetadataResponse metadata => metadata.Canonical
  | .setFixedPosition pos => pos.Canonical
  | _ => True

structure AdminMessage.Canonical (msg : AdminMessage) : Prop where
  payload : msg.payload.Canonical
  passkey : msg.hasSessionPasskey = false → msg.sessionPasskey = padded _ []

/-! ## Bytes of arrays -/

section Arrays

variable {m n : Nat} {v : Vector UInt8 m}

theorem length_take_toList (h : n ≤ m) : (v.toList.take n).length = n := by
  rw [List.length_take, Vector.length_toList, Nat.min_eq_left h]

theorem patched_padded (bs : Bytes) : patched (padded m []) bs = padded m bs := by
  apply Vector.ext
  intro i hi
  simp only [patched, padded, Vector.getElem_ofFn]
  split
  · rfl
  · rename_i h
    simp [List.getD_eq_getElem?_getD, h]

/-- An array that is patched with its bytes in use is that array. -/
theorem Padded.patched (h : Padded v n) : patched (padded m []) ((v.toList.take n).take m) = v := by
  have htake : (v.toList.take n).take m = v.toList.take n :=
    List.take_of_length_le (by rw [List.length_take, Vector.length_toList]; exact Nat.min_le_right _ _)
  rw [htake, patched_padded]
  exact h.2.symm

theorem Padded.empty (h : Padded v 0) : v = padded m [] := h.2

end Arrays

/-! ## Configurations -/

theorem decodePositionConfig_encode (pos : WirePositionConfig) :
    decodePositionConfig (encodePositionConfig unbounded pos) = some pos := by
  obtain ⟨secs, fixed⟩ := pos
  unfold decodePositionConfig encodePositionConfig
  rw [decodeWith_unbounded (positionConfig_fits _), positionConfigFields,
    visit_present_append (t := ⟨secs, false⟩) (by simp [u32Field]) (by simp),
    visit_present (t := ⟨secs, fixed⟩) (by simp +contextual [u32Field]) (by simp +contextual)]

theorem decodeFixedPositionAdmin_encode {pos : WireFixedPosition} (h : pos.Canonical) :
    decodeFixedPositionAdmin (encodeFixedPositionAdmin unbounded pos) = some pos := by
  obtain ⟨lat, lon, hasLat, hasLon⟩ := pos
  have hword : ∀ x : Int32, ofLeI32 (leI32 x) = x := fun x => by
    unfold ofLeI32 leI32
    rw [ofLe32_le32]
    rfl
  have hlat : hasLat = false → lat = 0 := h.latitudeI
  have hlon : hasLon = false → lon = 0 := h.longitudeI
  unfold decodeFixedPositionAdmin encodeFixedPositionAdmin
  rw [decodeWith_unbounded (fixedPosition_fits _), fixedPositionFields,
    visit_present_append (t := ⟨lat, 0, hasLat, false⟩) (by simp +contextual [fixed32Field, hword])
      (by simp +contextual [hlat]),
    visit_present (t := ⟨lat, lon, hasLat, hasLon⟩) (by simp +contextual [fixed32Field, hword])
      (by simp +contextual [hlon])]

theorem decodeDeviceConfig_encode (dev : WireDeviceConfig) :
    decodeDeviceConfig (encodeDeviceConfig unbounded dev) = some dev := by
  obtain ⟨role⟩ := dev
  unfold decodeDeviceConfig encodeDeviceConfig
  rw [decodeWith_unbounded (deviceConfig_fits _), deviceConfigFields,
    visit_present (t := ⟨role⟩) (by simp [u32Field]) (by simp [DEVICE_ROLE_CLIENT])]

theorem decodeTelemetryConfig_encode (tel : WireTelemetryConfig) :
    decodeTelemetryConfig (encodeTelemetryConfig unbounded tel) = some tel := by
  obtain ⟨secs⟩ := tel
  unfold decodeTelemetryConfig encodeTelemetryConfig
  rw [decodeWith_unbounded (telemetryConfig_fits _), telemetryConfigFields,
    visit_present (t := ⟨secs⟩) (by simp [u32Field]) (by simp)]

theorem decodeLoraConfig_encode {lora : WireLoRaConfig} (h : lora.Canonical) :
    decodeLoraConfig (encodeLoraConfig unbounded lora) = some lora := by
  obtain ⟨use, preset, region, hops, power, mqtt⟩ := lora
  have hpreset : use = false → preset = 0 := h
  unfold decodeLoraConfig encodeLoraConfig
  rw [decodeWith_unbounded (loraConfig_fits _), loraConfigFields,
    visit_present_append (t := ⟨use, 0, 0, 7, 0, false⟩) (by simp +contextual [u32Field])
      (by simp +contextual),
    visit_present_append (t := ⟨use, preset, 0, 7, 0, false⟩) (by simp [u32Field])
      (by simp +contextual [hpreset]),
    visit_present_append (t := ⟨use, preset, region, 7, 0, false⟩) (by simp [u32Field])
      (by simp),
    visit_append_of (t := ⟨use, preset, region, hops, 0, false⟩) (by simp [u32Field]),
    visit_present_append (t := ⟨use, preset, region, hops, power, false⟩) (by simp [int32Field])
      (by simp),
    visit_present (t := ⟨use, preset, region, hops, power, mqtt⟩) (by simp +contextual [u32Field])
      (by simp +contextual)]

/-! ## Admin keys -/

/-- The slots from `i` on, taken by `keys`. -/
def setKeys (slots : Vector Key MAX_ADMIN_KEYS) (i : Nat) : List Key → Vector Key MAX_ADMIN_KEYS
  | [] => slots
  | key :: keys => setKeys (slots.setIfInBounds i key) (i + 1) keys

theorem getElem_setKeys {slots : Vector Key MAX_ADMIN_KEYS} {keys : List Key} {i j : Nat}
    (hj : j < MAX_ADMIN_KEYS) :
    (setKeys slots i keys)[j] = if j < i then slots[j] else keys.getD (j - i) slots[j] := by
  induction keys generalizing slots i with
  | nil => simp [setKeys]
  | cons key keys ih =>
    rw [setKeys, ih, Vector.getElem_setIfInBounds hj]
    by_cases hlt : j < i
    · rw [if_pos (by omega), if_pos hlt, if_neg (by omega)]
    · rw [if_neg hlt]
      by_cases heq : j = i
      · subst heq
        rw [if_pos (by omega), if_pos rfl, Nat.sub_self, List.getD_cons_zero]
      · rw [if_neg (by omega), if_neg (by omega)]
        have hsub : j - i = j - (i + 1) + 1 := by omega
        rw [hsub, List.getD_cons_succ]

/-- Each key takes the next slot, as long as there is one. -/
theorem visit_keys {step : WireSecurityConfig → Nat → Value → Option WireSecurityConfig}
    (hstep : ∀ s (key : Key), s.adminKeyCount < MAX_ADMIN_KEYS → step s 3 (.len key.toList) =
      some { s with
        adminKeys := s.adminKeys.setIfInBounds s.adminKeyCount key
        adminKeyCount := s.adminKeyCount + 1 })
    {keys : List Key} {s : WireSecurityConfig} (h : s.adminKeyCount + keys.length ≤ MAX_ADMIN_KEYS) :
    Protobuf.visit step s (keys.map fun key => bytesField 3 key.toList) =
      some { s with
        adminKeys := setKeys s.adminKeys s.adminKeyCount keys
        adminKeyCount := s.adminKeyCount + keys.length } := by
  induction keys generalizing s with
  | nil => rfl
  | cons key keys ih =>
    rw [List.length_cons] at h
    have hnext := hstep s key (by omega)
    rw [List.map_cons, visit_cons, show step s (bytesField 3 key.toList).1 (bytesField 3 key.toList).2
      = _ from hnext, Option.bind_some, ih (by dsimp only; omega), setKeys, List.length_cons]
    dsimp only
    rw [Nat.add_assoc, Nat.add_comm 1]

theorem setKeys_sentKeys {sec : WireSecurityConfig} (h : sec.Canonical) :
    setKeys (Vector.replicate _ EMPTY_ADMIN_KEY) 0 sec.sentKeys = sec.adminKeys := by
  apply Vector.ext
  intro j hj
  have hcount := h.count
  rw [getElem_setKeys hj, if_neg (Nat.not_lt_zero j), Nat.sub_zero, Vector.getElem_replicate]
  unfold WireSecurityConfig.sentKeys
  rw [Nat.min_eq_left hcount, List.getD_eq_getElem?_getD, List.getElem?_take]
  split
  · simp [hj]
  · rename_i hge
    exact (h.unused j (Nat.le_of_not_lt hge) hj).symm

theorem length_sentKeys {sec : WireSecurityConfig} (h : sec.Canonical) :
    sec.sentKeys.length = sec.adminKeyCount := by
  have hcount := h.count
  unfold WireSecurityConfig.sentKeys
  rw [List.length_take, Vector.length_toList]
  omega

theorem decodeSecurityConfig_encode {sec : WireSecurityConfig} (h : sec.Canonical) :
    decodeSecurityConfig (encodeSecurityConfig unbounded sec) = some sec := by
  have hkeys := setKeys_sentKeys h
  have hlen := length_sentKeys h
  have hcount := h.count
  have hpub := h.publicKey
  have hpriv := h.privateKey
  unfold decodeSecurityConfig encodeSecurityConfig
  rw [decodeWith_unbounded (securityConfig_fits _), securityConfigFields,
    visit_present_append
      (t := { WireSecurityConfig.default with
        publicKey := sec.publicKey, hasPublicKey := sec.hasPublicKey })
      (by simp +contextual [bytesField, padded_toList])
      (by simp +contextual [hpub, WireSecurityConfig.default]),
    visit_present_append
      (t := { WireSecurityConfig.default with
        publicKey := sec.publicKey, hasPublicKey := sec.hasPublicKey
        privateKey := sec.privateKey, hasPrivateKey := sec.hasPrivateKey })
      (by simp +contextual [bytesField, padded_toList])
      (by simp +contextual [hpriv, WireSecurityConfig.default]),
    visit_append_of (visit_keys (fun s key hs => by simp [hs, padded_toList]) (by
      change 0 + _ ≤ _
      omega))]
  dsimp only [WireSecurityConfig.default]
  rw [hkeys, hlen, Nat.zero_add]
  obtain ⟨pub, hasPub, priv, hasPriv, keys, count, managed, channel⟩ := sec
  rw [visit_present_append (t := ⟨pub, hasPub, priv, hasPriv, keys, count, managed, false⟩)
      (by simp +contextual [u32Field]) (by simp +contextual),
    visit_present (t := ⟨pub, hasPub, priv, hasPriv, keys, count, managed, channel⟩)
      (by simp +contextual [u32Field]) (by simp +contextual)]

/-! ## Nested messages -/

theorem decodeModuleConfig_encode (config : ModuleConfigPayload) :
    decodeModuleConfig (encodeModuleConfig unbounded config) = some config := by
  unfold decodeModuleConfig encodeModuleConfig
  rw [decodeWith_unbounded (moduleConfig_fits _)]
  cases config with
  | empty => rfl
  | telemetry tel => simp [moduleConfigFields, bytesField, decodeTelemetryConfig_encode]

theorem decodeConfig_encode {config : ConfigPayload} (h : config.Canonical) :
    decodeConfig (encodeConfig unbounded config) = some config := by
  unfold decodeConfig encodeConfig
  rw [decodeWith_unbounded (config_fits _)]
  cases config with
  | empty => rfl
  | device dev => simp [configFields, bytesField, decodeDeviceConfig_encode]
  | position pos => simp [configFields, bytesField, decodePositionConfig_encode]
  | lora l => simp [configFields, bytesField, decodeLoraConfig_encode h]
  | security s => simp [configFields, bytesField, decodeSecurityConfig_encode h]
  | sessionkey => rfl

theorem decodeChannelSettings_encode {settings : WireChannelSettings} (h : settings.Canonical) :
    decodeChannelSettings (encodeChannelSettings unbounded settings) = some settings := by
  obtain ⟨psk, pskLen, name, nameLen, id, hasId⟩ := settings
  have hpsk : Padded psk pskLen := h.psk
  have hname : Padded name nameLen := h.name
  have hid : hasId = false → id = 0 := h.id
  have hlens : pskLen ≤ 32 ∧ nameLen ≤ CHANNEL_NAME_MAX := ⟨hpsk.1, hname.1⟩
  unfold decodeChannelSettings encodeChannelSettings
  rw [decodeWith_unbounded (channelSettings_fits _), channelSettingsFields]
  dsimp only
  rw [Nat.min_eq_left hlens.1, Nat.min_eq_left hlens.2,
    visit_present_append (t := { WireChannelSettings.default with psk, pskLen })
      (by
        intro _
        simp only [bytesField, WireChannelSettings.default]
        rw [show EMPTY_ADMIN_KEY = padded 32 [] from rfl, hpsk.patched, length_take_toList hlens.1,
          Nat.min_eq_left hlens.1])
      (by
        intro hnone
        have hzero : pskLen = 0 := by simpa using hnone
        subst hzero
        rw [hpsk.empty]
        rfl),
    visit_present_append (t := { WireChannelSettings.default with psk, pskLen, name, nameLen })
      (by
        intro _
        simp only [bytesField, WireChannelSettings.default]
        rw [hname.patched, length_take_toList hlens.2, Nat.min_eq_left hlens.2])
      (by
        intro hnone
        have hzero : nameLen = 0 := by simpa using hnone
        subst hzero
        rw [hname.empty]
        rfl),
    visit_present (t := ⟨psk, pskLen, name, nameLen, id, hasId⟩)
      (by simp +contextual [fixed32Field, ofLe32_le32])
      (by simp +contextual [hid, WireChannelSettings.default])]

theorem decodeChannel_encode {ch : WireChannel} (h : ch.Canonical) :
    decodeChannel (encodeChannel unbounded ch) = some ch := by
  obtain ⟨index, role, settings, hasSettings⟩ := ch
  have hsettings := decodeChannelSettings_encode h.settings
  have habsent : hasSettings = false → settings = .default := h.absent
  unfold decodeChannel encodeChannel
  rw [decodeWith_unbounded (channel_fits _), channelFields,
    visit_present_append (t := { WireChannel.default with index })
      (by simp [int32Field]) (by simp +contextual [WireChannel.default]),
    visit_present_append (t := { WireChannel.default with index, settings, hasSettings })
      (by simp +contextual [bytesField, hsettings]) (by simp +contextual [habsent, WireChannel.default]),
    visit_present (t := ⟨index, role, settings, hasSettings⟩)
      (by simp [u32Field])
      (by simp +contextual [WireChannel.default, CHANNEL_ROLE_DISABLED])]

theorem decodeDeviceMetadata_encode {metadata : DeviceMetadata} (h : metadata.Canonical) :
    decodeDeviceMetadata (encodeDeviceMetadata unbounded metadata) = some metadata := by
  obtain ⟨version, len, hwModel⟩ := metadata
  have hversion : Padded version len := h
  unfold decodeDeviceMetadata encodeDeviceMetadata
  rw [decodeWith_unbounded (deviceMetadata_fits _), deviceMetadataFields]
  dsimp only
  rw [Nat.min_eq_left hversion.1,
    visit_present_append (t := ⟨version, len, 0⟩)
      (by
        intro _
        simp only [bytesField]
        rw [hversion.patched, length_take_toList hversion.1, Nat.min_eq_left hversion.1])
      (by
        intro hnone
        have hlen := length_take_toList (v := version) hversion.1
        have hzero : len = 0 := by
          rw [Bool.not_eq_eq_eq_not, Bool.not_false, List.isEmpty_iff] at hnone
          rw [← hlen, hnone]
          rfl
        subst hzero
        rw [hversion.empty]),
    visit_present (t := ⟨version, len, hwModel⟩) (by simp [u32Field]) (by simp +contextual)]

/-- A public key of zeros is not sent. -/
theorem eq_zeros {key : Key} (h : key.toList.any (· != 0) = false) : key = padded 32 [] := by
  apply Vector.ext
  intro i hi
  have hmem : key[i] ∈ key.toList := by simp
  have hzero := List.any_eq_false.mp h _ hmem
  simpa [padded] using hzero

theorem decodeUser_encode {identity : NodeInfoIdentity} (h : identity.Canonical) (nodeNum : UInt32) :
    decodeUser (encodeUser unbounded nodeNum identity) = some identity := by
  obtain ⟨⟨long, longLen, hlong, short, shortLen, hshort, hwModel, role, licensed⟩, key⟩ := identity
  have hlongName : Padded long longLen := h.longName
  have hshortName : Padded short shortLen := h.shortName
  unfold decodeUser encodeUser
  rw [decodeWith_unbounded (user_fits _ _), userFields]
  dsimp only
  rw [visit_append_of (t := (⟨.empty, padded 32 []⟩, false)) rfl,
    visit_append_of (t := (⟨⟨long, longLen, hlong, padded _ [], 0, Nat.zero_le _,
      HW_MODEL_NRF52_PROMICRO_DIY, DEVICE_ROLE_CLIENT, false⟩, padded 32 []⟩, false)) (by
        simp only [visit_cons, visit_nil, bytesField, userField, NodeInfoAdvert.empty, hlongName.patched,
          length_take_toList hlong, Nat.min_eq_left hlong, Option.bind_some]),
    visit_append_of (t := (⟨⟨long, longLen, hlong, short, shortLen, hshort,
      HW_MODEL_NRF52_PROMICRO_DIY, DEVICE_ROLE_CLIENT, false⟩, padded 32 []⟩, true)) (by
        simp only [visit_cons, visit_nil, bytesField, userField, hshortName.patched,
          length_take_toList hshort, Nat.min_eq_left hshort, Option.bind_some]),
    visit_append_of (t := (⟨⟨long, longLen, hlong, short, shortLen, hshort, hwModel,
      DEVICE_ROLE_CLIENT, false⟩, padded 32 []⟩, true)) (by simp [u32Field, userField]),
    visit_present_append (t := (⟨⟨long, longLen, hlong, short, shortLen, hshort, hwModel,
      DEVICE_ROLE_CLIENT, licensed⟩, padded 32 []⟩, true)) (by simp +contextual [u32Field, userField])
      (by simp +contextual),
    visit_present_append (t := (⟨⟨long, longLen, hlong, short, shortLen, hshort, hwModel,
      role, licensed⟩, padded 32 []⟩, true)) (by simp [u32Field, userField])
      (by simp +contextual),
    visit_present (t := (⟨⟨long, longLen, hlong, short, shortLen, hshort, hwModel,
      role, licensed⟩, key⟩, true)) (by
        intro _
        simp only [bytesField, userField, patched_padded, padded_toList,
          List.take_of_length_le (Nat.le_of_eq key.length_toList)])
      (fun hnone => by rw [eq_zeros hnone])]
  rfl

/-! ## The message -/

theorem visit_payload {payload : AdminPayload} (h : payload.Canonical) :
    Protobuf.visit adminField .default (payloadFields unbounded payload) =
      some { AdminMessage.default with payload } := by
  cases payload with
  | none => rfl
  | getChannelRequest v => simp [payloadFields, u32Field, adminField]
  | getChannelResponse ch => simp [payloadFields, bytesField, adminField, decodeChannel_encode h]
  | getOwnerRequest => rfl
  | getOwnerResponse identity =>
    simp [payloadFields, bytesField, adminField, userPayload, decodeUser_encode h]
  | setOwner identity =>
    simp [payloadFields, bytesField, adminField, userPayload, decodeUser_encode h]
  | getConfigRequest v => simp [payloadFields, u32Field, adminField]
  | getConfigResponse config => simp [payloadFields, bytesField, adminField, decodeConfig_encode h]
  | getModuleConfigRequest v => simp [payloadFields, u32Field, adminField]
  | getModuleConfigResponse config =>
    simp [payloadFields, bytesField, adminField, decodeModuleConfig_encode]
  | getDeviceMetadataRequest => rfl
  | getDeviceMetadataResponse metadata =>
    simp [payloadFields, bytesField, adminField, decodeDeviceMetadata_encode h]
  | setConfig config => simp [payloadFields, bytesField, adminField, decodeConfig_encode h]
  | setModuleConfig config =>
    simp [payloadFields, bytesField, adminField, decodeModuleConfig_encode]
  | setFixedPosition pos =>
    simp [payloadFields, bytesField, adminField, decodeFixedPositionAdmin_encode h]
  | removeFixedPosition => rfl
  | beginEditSettings => rfl
  | commitEditSettings => rfl
  | rebootSeconds secs => simp [payloadFields, int32Field, adminField]

theorem decodeAdminMessage_encode {msg : AdminMessage} (h : msg.Canonical) :
    decodeAdminMessage (encodeAdminMessage unbounded msg) = some msg := by
  obtain ⟨passkey, hasPasskey, payload⟩ := msg
  have hpasskey : hasPasskey = false → passkey = padded _ [] := h.passkey
  have hread : padded SESSION_PASSKEY_LEN passkey.toList = passkey := padded_toList passkey
  unfold decodeAdminMessage encodeAdminMessage
  rw [decodeWith_unbounded (admin_fits _), adminFields, visit_append_of (visit_payload h.payload),
    visit_present (t := ⟨passkey, hasPasskey, payload⟩)
      (by simp +contextual [bytesField, adminField, hread, passkey.length_toList])
      (by simp +contextual [hpasskey, AdminMessage.default])]

/-- A message in canonical form is not cut by any of its buffers, and it reads
back as it was. -/
theorem admin_round_trip (msg : AdminMessage) (h : msg.Canonical) :
    encodeAdminMessage heapless msg = encodeAdminMessage unbounded msg ∧
      decodeAdminMessage (encodeAdminMessage heapless msg) = some msg := by
  have huncut := encodeAdminMessage_uncut msg
  exact ⟨huncut, by rw [huncut]; exact decodeAdminMessage_encode h⟩

/-- A channel with a key of one byte and a negative index. -/
def oneByteChannel : WireChannel where
  index := -1
  role := 4294967295
  settings :=
    { psk := padded 32 [1], pskLen := 1, name := padded _ [0x4C], nameLen := 1, id := 7, hasId := true }
  hasSettings := true

def channelAnswer : AdminMessage where
  sessionPasskey := padded _ []
  hasSessionPasskey := false
  payload := .getChannelResponse oneByteChannel

theorem channelAnswer_canonical : channelAnswer.Canonical where
  payload :=
    { settings := { psk := ⟨by decide, by decide +kernel⟩, name := ⟨by decide, by decide +kernel⟩, id := by decide }
      absent := by decide }
  passkey := fun _ => rfl

theorem channelAnswer_round_trip :
    encodeAdminMessage heapless channelAnswer = encodeAdminMessage unbounded channelAnswer ∧
      decodeAdminMessage (encodeAdminMessage heapless channelAnswer) = some channelAnswer :=
  admin_round_trip channelAnswer channelAnswer_canonical

end Meshrustic.Admin
