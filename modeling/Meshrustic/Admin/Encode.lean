import Meshrustic.Admin.Codec
import Meshrustic.Core.ProtobufWriter

/-!
# Encoding admin messages (`mesh-routing/src/admin_codec.rs`, `nodeinfo.rs:192-224`)

Each encoder pushes its fields into a buffer of its own, and the buffers nest up
to three levels deep. A push that finds no room does nothing, so an encoder is
only right if its message fits. The encoders are written over a sink
(`Protobuf.Sink`): the code is the one over `heapless`, and over `unbounded`
nothing is ever cut.

Results:
* `..._fits`: a bound on the size of each message, for all its field values;
* `encodeAdminMessage_uncut`: no buffer of a message is cut.
-/
namespace Meshrustic.Admin

open Meshrustic.Protobuf Meshrustic.Store

/-! ## Encoders -/

section Encoders

variable (S : Sink)

/-- mirrors crates/mesh-routing/src/admin_codec.rs:251-260 -/
def positionConfigFields (pos : WirePositionConfig) : List Field :=
  present (pos.positionBroadcastSecs != 0) (u32Field 1 pos.positionBroadcastSecs) ++
    present pos.fixedPosition (u32Field 3 1)

def encodePositionConfig (pos : WirePositionConfig) : Bytes := S 16 (positionConfigFields pos)

/-- mirrors crates/mesh-routing/src/admin_codec.rs:322-333 -/
def fixedPositionFields (pos : WireFixedPosition) : List Field :=
  present pos.hasLatitudeI (fixed32Field 1 (leI32 pos.latitudeI)) ++
    present pos.hasLongitudeI (fixed32Field 2 (leI32 pos.longitudeI))

def encodeFixedPositionAdmin (pos : WireFixedPosition) : Bytes := S 16 (fixedPositionFields pos)

/-- mirrors crates/mesh-routing/src/admin_codec.rs:335-341 -/
def deviceConfigFields (dev : WireDeviceConfig) : List Field :=
  present (dev.role != 0) (u32Field 1 dev.role)

def encodeDeviceConfig (dev : WireDeviceConfig) : Bytes := S 16 (deviceConfigFields dev)

/-- mirrors crates/mesh-routing/src/admin_codec.rs:343-363 -/
def loraConfigFields (lora : WireLoRaConfig) : List Field :=
  present lora.usePreset (u32Field 1 1) ++ (present lora.usePreset (u32Field 2 lora.modemPreset) ++
    (present (lora.region != 0) (u32Field 7 lora.region) ++ ([u32Field 8 lora.hopLimit] ++
      (present (lora.txPower != 0) (int32Field 10 lora.txPower) ++
        present lora.configOkToMqtt (u32Field 105 1)))))

def encodeLoraConfig (lora : WireLoRaConfig) : Bytes := S 64 (loraConfigFields lora)

/-- The keys that are sent. -/
def WireSecurityConfig.sentKeys (sec : WireSecurityConfig) : List Key :=
  sec.adminKeys.toList.take (min sec.adminKeyCount MAX_ADMIN_KEYS)

/-- mirrors crates/mesh-routing/src/admin_codec.rs:365-384 -/
def securityConfigFields (sec : WireSecurityConfig) : List Field :=
  present sec.hasPublicKey (bytesField 1 sec.publicKey.toList) ++
    (present sec.hasPrivateKey (bytesField 2 sec.privateKey.toList) ++
      (sec.sentKeys.map (fun key => bytesField 3 key.toList) ++
        (present sec.isManaged (u32Field 4 1) ++ present sec.adminChannelEnabled (u32Field 8 1))))

def encodeSecurityConfig (sec : WireSecurityConfig) : Bytes := S 200 (securityConfigFields sec)

/-- mirrors crates/mesh-routing/src/admin_codec.rs:386-392 -/
def telemetryConfigFields (tel : WireTelemetryConfig) : List Field :=
  present (tel.deviceUpdateInterval != 0) (u32Field 1 tel.deviceUpdateInterval)

def encodeTelemetryConfig (tel : WireTelemetryConfig) : Bytes := S 16 (telemetryConfigFields tel)

/-- mirrors crates/mesh-routing/src/admin_codec.rs:394-404 -/
def moduleConfigFields : ModuleConfigPayload → List Field
  | .empty => []
  | .telemetry tel => [bytesField 6 (encodeTelemetryConfig S tel)]

def encodeModuleConfig (config : ModuleConfigPayload) : Bytes := S 64 (moduleConfigFields S config)

/-- mirrors crates/mesh-routing/src/admin_codec.rs:224-249 -/
def configFields : ConfigPayload → List Field
  | .empty => []
  | .device dev => [bytesField 1 (encodeDeviceConfig S dev)]
  | .position pos => [bytesField 2 (encodePositionConfig S pos)]
  | .lora lora => [bytesField 6 (encodeLoraConfig S lora)]
  | .security sec => [bytesField 8 (encodeSecurityConfig S sec)]
  | .sessionkey => [bytesField 9 []]

def encodeConfig (config : ConfigPayload) : Bytes := S 240 (configFields S config)

/-- mirrors crates/mesh-routing/src/admin_codec.rs:476-491 -/
def channelSettingsFields (settings : WireChannelSettings) : List Field :=
  present (0 < settings.pskLen) (bytesField 2 (settings.psk.toList.take (min settings.pskLen 32))) ++
    (present (0 < settings.nameLen)
      (bytesField 3 (settings.name.toList.take (min settings.nameLen CHANNEL_NAME_MAX))) ++
        present settings.hasId (fixed32Field 4 (le32 settings.id)))

def encodeChannelSettings (settings : WireChannelSettings) : Bytes :=
  S 80 (channelSettingsFields settings)

/-- mirrors crates/mesh-routing/src/admin_codec.rs:461-474 -/
def channelFields (ch : WireChannel) : List Field :=
  present (ch.index != 0) (int32Field 1 ch.index) ++
    (present ch.hasSettings (bytesField 2 (encodeChannelSettings S ch.settings)) ++
      present (ch.role != 0) (u32Field 3 ch.role))

def encodeChannel (ch : WireChannel) : Bytes := S 96 (channelFields S ch)

/-- mirrors crates/mesh-routing/src/nodeinfo.rs:516-522 -/
def hexDigit (nibble : UInt32) : UInt8 :=
  if nibble < 10 then 0x30 + nibble.toUInt8 else 0x61 + (nibble - 10).toUInt8

/-- mirrors crates/mesh-routing/src/nodeinfo.rs:186-190 -/
def formatNodeId (nodeNum : UInt32) : Bytes :=
  0x21 :: [28, 24, 20, 16, 12, 8, 4, 0].map fun (shift : UInt32) => hexDigit ((nodeNum >>> shift) &&& 0xF)

/-- mirrors crates/mesh-routing/src/nodeinfo.rs:192-224 -/
def userFields (nodeNum : UInt32) (identity : NodeInfoIdentity) : List Field :=
  let advert := identity.advert
  [bytesField 1 (formatNodeId nodeNum)] ++
    ([bytesField 2 (advert.longName.toList.take advert.longNameLen)] ++
      ([bytesField 3 (advert.shortName.toList.take advert.shortNameLen)] ++
        ([u32Field 5 advert.hwModel] ++
          (present advert.isLicensed (u32Field 6 1) ++
            (present (advert.role != DEVICE_ROLE_CLIENT) (u32Field 7 advert.role) ++
              present (identity.publicKey.toList.any (· != 0))
                (bytesField 8 identity.publicKey.toList))))))

def encodeUser (nodeNum : UInt32) (identity : NodeInfoIdentity) : Bytes :=
  S 240 (userFields nodeNum identity)

/-- mirrors crates/mesh-routing/src/admin_codec.rs:1063-1075 -/
def deviceMetadataFields (metadata : DeviceMetadata) : List Field :=
  let version := metadata.firmwareVersion.toList.take (min metadata.firmwareVersionLen 32)
  present (!version.isEmpty) (bytesField 1 version) ++
    present (metadata.hwModel != 0) (u32Field 3 metadata.hwModel)

def encodeDeviceMetadata (metadata : DeviceMetadata) : Bytes := S 64 (deviceMetadataFields metadata)

/-- mirrors crates/mesh-routing/src/admin_codec.rs:809-875 -/
def payloadFields : AdminPayload → List Field
  | .none => []
  | .getChannelRequest indexPlusOne => [u32Field 1 indexPlusOne]
  | .getChannelResponse ch => [bytesField 2 (encodeChannel S ch)]
  | .getOwnerRequest => [u32Field 3 1]
  | .getOwnerResponse identity => [bytesField 4 (encodeUser S 0 identity)]
  | .setOwner identity => [bytesField 32 (encodeUser S 0 identity)]
  | .getConfigRequest configType => [u32Field 5 configType]
  | .getConfigResponse config => [bytesField 6 (encodeConfig S config)]
  | .getModuleConfigRequest configType => [u32Field 7 configType]
  | .getModuleConfigResponse config => [bytesField 8 (encodeModuleConfig S config)]
  | .getDeviceMetadataRequest => [u32Field 12 1]
  | .getDeviceMetadataResponse metadata => [bytesField 13 (encodeDeviceMetadata S metadata)]
  | .setConfig config => [bytesField 34 (encodeConfig S config)]
  | .setModuleConfig config => [bytesField 35 (encodeModuleConfig S config)]
  | .setFixedPosition pos => [bytesField 41 (encodeFixedPositionAdmin S pos)]
  | .removeFixedPosition => [u32Field 42 1]
  | .beginEditSettings => [u32Field 64 1]
  | .commitEditSettings => [u32Field 65 1]
  | .rebootSeconds secs => [int32Field 97 secs]

/-- mirrors crates/mesh-routing/src/admin_codec.rs:807-879 -/
def adminFields (msg : AdminMessage) : List Field :=
  payloadFields S msg.payload ++
    present msg.hasSessionPasskey (bytesField 101 msg.sessionPasskey.toList)

def encodeAdminMessage (msg : AdminMessage) : Bytes := S 240 (adminFields S msg)

end Encoders

/-! ## Sizes -/

theorem positionConfig_fits (pos : WirePositionConfig) : Fits 8 (positionConfigFields pos) :=
  ((fits_u32 1 (by decide) _).present _).append ((fits_flag 3 (by decide)).present _)

theorem fixedPosition_fits (pos : WireFixedPosition) : Fits 10 (fixedPositionFields pos) :=
  ((fits_fixed32 1 (by decide) rfl).present _).append ((fits_fixed32 2 (by decide) rfl).present _)

theorem deviceConfig_fits (dev : WireDeviceConfig) : Fits 6 (deviceConfigFields dev) :=
  (fits_u32 1 (by decide) _).present _

theorem loraConfig_fits (lora : WireLoRaConfig) : Fits 34 (loraConfigFields lora) :=
  ((fits_flag 1 (by decide)).present _).append <| ((fits_u32 2 (by decide) _).present _).append <|
    ((fits_u32 7 (by decide) _).present _).append <| (fits_u32 8 (by decide) _).append <|
    ((fits_int32 10 (by decide) _).present _).append <| (fits_flag 105 (by decide)).present _

theorem telemetryConfig_fits (tel : WireTelemetryConfig) : Fits 6 (telemetryConfigFields tel) :=
  (fits_u32 1 (by decide) _).present _

theorem fits_key (field : Nat) (h : field < 16 ∧ 0 < field) (key : Key) :
    Fits 34 [bytesField field key.toList] := by
  have hkey := fits_bytes (n := 32) field ⟨h.2, by omega⟩ (Nat.le_of_eq key.length_toList) (by decide)
  have htag : tagSize field = 1 := if_pos h.1
  rw [htag] at hkey
  exact hkey

theorem sentKeys_fits (keys : List Key) :
    Fits (keys.length * 34) (keys.map fun key => bytesField 3 key.toList) := by
  induction keys with
  | nil => exact fits_nil
  | cons key keys ih =>
    refine ((fits_key 3 (by decide) key).append ih).mono ?_
    rw [List.length_cons]
    omega

/-- Both keys and three admin keys. -/
theorem securityConfig_fits (sec : WireSecurityConfig) : Fits 174 (securityConfigFields sec) := by
  have hkeys : sec.sentKeys.length ≤ 3 := by
    unfold WireSecurityConfig.sentKeys
    rw [List.length_take]
    exact Nat.le_trans (Nat.min_le_left _ _) (Nat.min_le_right _ _)
  refine (((fits_key 1 (by decide) _).present _).append <| ((fits_key 2 (by decide) _).present _).append <|
    (sentKeys_fits sec.sentKeys).append <| ((fits_flag 4 (by decide)).present _).append <|
    (fits_flag 8 (by decide)).present _).mono ?_
  have htag : tagSize 4 = 1 ∧ tagSize 8 = 1 := by decide
  omega

theorem moduleConfig_fits (config : ModuleConfigPayload) :
    Fits 8 (moduleConfigFields unbounded config) := by
  cases config with
  | empty => exact fits_nil.mono (by decide)
  | telemetry tel => exact (telemetryConfig_fits tel).nested 6 (by decide) (by decide)

theorem config_fits (config : ConfigPayload) : Fits 177 (configFields unbounded config) := by
  cases config with
  | empty => exact fits_nil.mono (by decide)
  | device dev => exact ((deviceConfig_fits dev).nested 1 (by decide) (by decide)).mono (by decide)
  | position pos => exact ((positionConfig_fits pos).nested 2 (by decide) (by decide)).mono (by decide)
  | lora lora => exact ((loraConfig_fits lora).nested 6 (by decide) (by decide)).mono (by decide)
  | security sec => exact (securityConfig_fits sec).nested 8 (by decide) (by decide)
  | sessionkey => exact (fits_nil.nested 9 (by decide) (by decide)).mono (by decide)

theorem channelSettings_fits (settings : WireChannelSettings) :
    Fits 57 (channelSettingsFields settings) := by
  have hpsk : (settings.psk.toList.take (min settings.pskLen 32)).length ≤ 32 := by
    rw [List.length_take]
    omega
  have hname : (settings.name.toList.take (min settings.nameLen CHANNEL_NAME_MAX)).length ≤ 16 := by
    rw [List.length_take]
    exact Nat.le_trans (Nat.min_le_left _ _) (Nat.min_le_right _ _)
  exact ((fits_bytes 2 (by decide) hpsk (by decide)).present _).append <|
    ((fits_bytes 3 (by decide) hname (by decide)).present _).append <|
    (fits_fixed32 4 (by decide) rfl).present _

theorem channel_fits (ch : WireChannel) : Fits 76 (channelFields unbounded ch) :=
  ((fits_int32 1 (by decide) _).present _).append <|
    (((channelSettings_fits ch.settings).nested 2 (by decide) (by decide)).present _).append <|
    (fits_u32 3 (by decide) _).present _

theorem user_fits (nodeNum : UInt32) (identity : NodeInfoIdentity) :
    Fits 108 (userFields nodeNum identity) := by
  have hlong : (identity.advert.longName.toList.take identity.advert.longNameLen).length ≤ 40 := by
    rw [List.length_take, Vector.length_toList]
    exact Nat.min_le_right _ _
  have hshort : (identity.advert.shortName.toList.take identity.advert.shortNameLen).length ≤ 5 := by
    rw [List.length_take, Vector.length_toList]
    exact Nat.min_le_right _ _
  exact (fits_bytes (n := 9) 1 (by decide) (Nat.le_refl _) (by decide)).append <|
    (fits_bytes 2 (by decide) hlong (by decide)).append <|
    (fits_bytes 3 (by decide) hshort (by decide)).append <|
    (fits_u32 5 (by decide) _).append <| ((fits_flag 6 (by decide)).present _).append <|
    ((fits_u32 7 (by decide) _).present _).append <| (fits_key 8 (by decide) _).present _

theorem deviceMetadata_fits (metadata : DeviceMetadata) :
    Fits 40 (deviceMetadataFields metadata) := by
  have hversion : (metadata.firmwareVersion.toList.take (min metadata.firmwareVersionLen 32)).length ≤
      32 := by
    rw [List.length_take]
    omega
  exact ((fits_bytes 1 (by decide) hversion (by decide)).present _).append
    ((fits_u32 3 (by decide) _).present _)

theorem payload_fits (payload : AdminPayload) : Fits 181 (payloadFields unbounded payload) := by
  cases payload with
  | none => exact fits_nil.mono (by decide)
  | getChannelRequest v => exact (fits_u32 1 (by decide) v).mono (by decide)
  | getChannelResponse ch => exact ((channel_fits ch).nested 2 (by decide) (by decide)).mono (by decide)
  | getOwnerRequest => exact (fits_flag 3 (by decide)).mono (by decide)
  | getOwnerResponse identity => exact ((user_fits 0 identity).nested 4 (by decide) (by decide)).mono (by decide)
  | setOwner identity => exact ((user_fits 0 identity).nested 32 (by decide) (by decide)).mono (by decide)
  | getConfigRequest v => exact (fits_u32 5 (by decide) v).mono (by decide)
  | getConfigResponse config => exact ((config_fits config).nested 6 (by decide) (by decide)).mono (by decide)
  | getModuleConfigRequest v => exact (fits_u32 7 (by decide) v).mono (by decide)
  | getModuleConfigResponse config =>
    exact ((moduleConfig_fits config).nested 8 (by decide) (by decide)).mono (by decide)
  | getDeviceMetadataRequest => exact (fits_flag 12 (by decide)).mono (by decide)
  | getDeviceMetadataResponse metadata =>
    exact ((deviceMetadata_fits metadata).nested 13 (by decide) (by decide)).mono (by decide)
  | setConfig config => exact (config_fits config).nested 34 (by decide) (by decide)
  | setModuleConfig config =>
    exact ((moduleConfig_fits config).nested 35 (by decide) (by decide)).mono (by decide)
  | setFixedPosition pos => exact ((fixedPosition_fits pos).nested 41 (by decide) (by decide)).mono (by decide)
  | removeFixedPosition => exact (fits_flag 42 (by decide)).mono (by decide)
  | beginEditSettings => exact (fits_flag 64 (by decide)).mono (by decide)
  | commitEditSettings => exact (fits_flag 65 (by decide)).mono (by decide)
  | rebootSeconds secs => exact (fits_int32 97 (by decide) secs).mono (by decide)

theorem admin_fits (msg : AdminMessage) : Fits 192 (adminFields unbounded msg) :=
  (payload_fits msg.payload).append
    ((fits_bytes (n := 8) 101 (by decide) (Nat.le_of_eq msg.sessionPasskey.length_toList)
      (by decide)).present _)

/-! ## No buffer is cut -/

theorem moduleConfigFields_uncut (config : ModuleConfigPayload) :
    moduleConfigFields heapless config = moduleConfigFields unbounded config := by
  cases config with
  | empty => rfl
  | telemetry tel =>
    exact congrArg (fun b => [bytesField 6 b]) ((telemetryConfig_fits tel).heapless_eq (by decide))

theorem configFields_uncut (config : ConfigPayload) :
    configFields heapless config = configFields unbounded config := by
  cases config with
  | empty => rfl
  | device dev =>
    exact congrArg (fun b => [bytesField 1 b]) ((deviceConfig_fits dev).heapless_eq (by decide))
  | position pos =>
    exact congrArg (fun b => [bytesField 2 b]) ((positionConfig_fits pos).heapless_eq (by decide))
  | lora lora =>
    exact congrArg (fun b => [bytesField 6 b]) ((loraConfig_fits lora).heapless_eq (by decide))
  | security sec =>
    exact congrArg (fun b => [bytesField 8 b]) ((securityConfig_fits sec).heapless_eq (by decide))
  | sessionkey => rfl

theorem channelFields_uncut (ch : WireChannel) :
    channelFields heapless ch = channelFields unbounded ch := by
  unfold channelFields encodeChannelSettings
  rw [(channelSettings_fits ch.settings).heapless_eq (k := 80) (by decide)]

theorem encodeConfig_uncut (config : ConfigPayload) :
    encodeConfig heapless config = encodeConfig unbounded config := by
  unfold encodeConfig
  rw [configFields_uncut, (config_fits config).heapless_eq (k := 240) (by decide)]

theorem encodeModuleConfig_uncut (config : ModuleConfigPayload) :
    encodeModuleConfig heapless config = encodeModuleConfig unbounded config := by
  unfold encodeModuleConfig
  rw [moduleConfigFields_uncut, (moduleConfig_fits config).heapless_eq (k := 64) (by decide)]

theorem encodeChannel_uncut (ch : WireChannel) :
    encodeChannel heapless ch = encodeChannel unbounded ch := by
  unfold encodeChannel
  rw [channelFields_uncut, (channel_fits ch).heapless_eq (k := 96) (by decide)]

theorem encodeUser_uncut (nodeNum : UInt32) (identity : NodeInfoIdentity) :
    encodeUser heapless nodeNum identity = encodeUser unbounded nodeNum identity :=
  (user_fits nodeNum identity).heapless_eq (by decide)

theorem encodeDeviceMetadata_uncut (metadata : DeviceMetadata) :
    encodeDeviceMetadata heapless metadata = encodeDeviceMetadata unbounded metadata :=
  (deviceMetadata_fits metadata).heapless_eq (by decide)

theorem encodeFixedPositionAdmin_uncut (pos : WireFixedPosition) :
    encodeFixedPositionAdmin heapless pos = encodeFixedPositionAdmin unbounded pos :=
  (fixedPosition_fits pos).heapless_eq (by decide)

theorem payloadFields_uncut (payload : AdminPayload) :
    payloadFields heapless payload = payloadFields unbounded payload := by
  cases payload <;> simp only [payloadFields, encodeConfig_uncut, encodeModuleConfig_uncut,
    encodeChannel_uncut, encodeUser_uncut, encodeDeviceMetadata_uncut,
    encodeFixedPositionAdmin_uncut]

/-- No buffer of a message is cut, of whatever depth. -/
theorem encodeAdminMessage_uncut (msg : AdminMessage) :
    encodeAdminMessage heapless msg = encodeAdminMessage unbounded msg := by
  have hfields : adminFields heapless msg = adminFields unbounded msg := by
    unfold adminFields
    rw [payloadFields_uncut]
  unfold encodeAdminMessage
  rw [hfields]
  exact (admin_fits msg).heapless_eq (by decide)

end Meshrustic.Admin
