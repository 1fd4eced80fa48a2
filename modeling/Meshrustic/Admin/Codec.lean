import Meshrustic.Admin.NodeInfo
import Meshrustic.Store.Layout

/-!
# Admin messages (`mesh-routing/src/admin_codec.rs`)

The messages a remote administrator sends, and their decoders. Every decoder
is a walk over the protobuf fields (`Protobuf.decodeWith`) with its own
reading of the fields it knows; a nested message that does not decode makes
the whole message undecodable, except for a `User`, which is then ignored.
-/
namespace Meshrustic.Admin

open Meshrustic.Protobuf Meshrustic.Store

def SESSION_PASSKEY_LEN : Nat := 8
def MAX_ADMIN_KEYS : Nat := 3
def CHANNEL_NAME_MAX : Nat := 16
def CONFIG_TYPE_DEVICE : UInt32 := 0
def CONFIG_TYPE_POSITION : UInt32 := 1
def CONFIG_TYPE_LORA : UInt32 := 5
def CONFIG_TYPE_SECURITY : UInt32 := 7
def CONFIG_TYPE_SESSIONKEY : UInt32 := 8
def MODULE_CONFIG_TYPE_TELEMETRY : UInt32 := 5
def REGION_EU_868 : UInt32 := 3
def CHANNEL_ROLE_DISABLED : UInt32 := 0
def CHANNEL_ROLE_PRIMARY : UInt32 := 1

abbrev Key := Vector UInt8 32
abbrev Passkey := Vector UInt8 SESSION_PASSKEY_LEN

def EMPTY_ADMIN_KEY : Key := padded 32 []

structure WireLoRaConfig where
  usePreset : Bool
  modemPreset : UInt32
  region : UInt32
  hopLimit : UInt32
  txPower : Int32
  configOkToMqtt : Bool
  deriving DecidableEq, Repr

structure WireDeviceConfig where
  role : UInt32
  deriving DecidableEq, Repr

/-- mirrors crates/mesh-routing/src/admin_codec.rs:63-88; at most
`MAX_ADMIN_KEYS` keys are counted. -/
structure WireSecurityConfig where
  publicKey : Key
  hasPublicKey : Bool
  privateKey : Key
  hasPrivateKey : Bool
  adminKeys : Vector Key MAX_ADMIN_KEYS
  adminKeyCount : Nat
  isManaged : Bool
  adminChannelEnabled : Bool
  deriving DecidableEq, Repr

structure WireChannelSettings where
  psk : Key
  pskLen : Nat
  name : Vector UInt8 CHANNEL_NAME_MAX
  nameLen : Nat
  id : UInt32
  hasId : Bool
  deriving DecidableEq, Repr

structure WireChannel where
  index : Int32
  role : UInt32
  settings : WireChannelSettings
  hasSettings : Bool
  deriving DecidableEq, Repr

structure WirePositionConfig where
  positionBroadcastSecs : UInt32
  fixedPosition : Bool
  deriving DecidableEq, Repr

structure WireFixedPosition where
  latitudeI : Int32
  longitudeI : Int32
  hasLatitudeI : Bool
  hasLongitudeI : Bool
  deriving DecidableEq, Repr

structure WireTelemetryConfig where
  deviceUpdateInterval : UInt32
  deriving DecidableEq, Repr

structure DeviceMetadata where
  firmwareVersion : Vector UInt8 32
  firmwareVersionLen : Nat
  hwModel : UInt32
  deriving DecidableEq, Repr

inductive ConfigPayload where
  | empty
  | device (dev : WireDeviceConfig)
  | position (pos : WirePositionConfig)
  | lora (lora : WireLoRaConfig)
  | security (sec : WireSecurityConfig)
  | sessionkey
  deriving DecidableEq, Repr

inductive ModuleConfigPayload where
  | empty
  | telemetry (tel : WireTelemetryConfig)
  deriving DecidableEq, Repr

/-- mirrors crates/mesh-routing/src/admin_codec.rs:184-204 -/
inductive AdminPayload where
  | none
  | getChannelRequest (indexPlusOne : UInt32)
  | getChannelResponse (ch : WireChannel)
  | getOwnerRequest
  | getOwnerResponse (identity : NodeInfoIdentity)
  | setOwner (identity : NodeInfoIdentity)
  | getConfigRequest (configType : UInt32)
  | getConfigResponse (config : ConfigPayload)
  | getModuleConfigRequest (configType : UInt32)
  | getModuleConfigResponse (config : ModuleConfigPayload)
  | getDeviceMetadataRequest
  | getDeviceMetadataResponse (metadata : DeviceMetadata)
  | setConfig (config : ConfigPayload)
  | setModuleConfig (config : ModuleConfigPayload)
  | setFixedPosition (pos : WireFixedPosition)
  | removeFixedPosition
  | beginEditSettings
  | commitEditSettings
  | rebootSeconds (secs : Int32)
  deriving DecidableEq, Repr

structure AdminMessage where
  sessionPasskey : Passkey
  hasSessionPasskey : Bool
  payload : AdminPayload
  deriving DecidableEq, Repr

/-! ## Defaults -/

def WireSecurityConfig.default : WireSecurityConfig where
  publicKey := EMPTY_ADMIN_KEY
  hasPublicKey := false
  privateKey := EMPTY_ADMIN_KEY
  hasPrivateKey := false
  adminKeys := Vector.replicate _ EMPTY_ADMIN_KEY
  adminKeyCount := 0
  isManaged := false
  adminChannelEnabled := false

def WireChannelSettings.default : WireChannelSettings where
  psk := EMPTY_ADMIN_KEY
  pskLen := 0
  name := padded _ []
  nameLen := 0
  id := 0
  hasId := false

def WireChannel.default : WireChannel where
  index := 0
  role := CHANNEL_ROLE_DISABLED
  settings := .default
  hasSettings := false

/-- mirrors crates/mesh-routing/src/admin_codec.rs:171-181 -/
def DeviceMetadata.meshrusticDefault (hwModel : UInt32) : DeviceMetadata where
  firmwareVersion := padded 32 [0x4D, 0x65, 0x73, 0x68, 0x52, 0x75, 0x73, 0x74, 0x69, 0x63]
  firmwareVersionLen := 10
  hwModel

def AdminMessage.default : AdminMessage where
  sessionPasskey := padded _ []
  hasSessionPasskey := false
  payload := .none

/-! ## Decoders -/

/-- mirrors crates/mesh-routing/src/admin_codec.rs:406-429 -/
def decodeTelemetryConfig : Bytes → Option WireTelemetryConfig :=
  decodeWith (fun s field value => match field, value with
    | 1, .varint v => (u32Of v).map fun v => { s with deviceUpdateInterval := v }
    | _, _ => some s) ⟨0⟩

/-- mirrors crates/mesh-routing/src/admin_codec.rs:431-459 -/
def decodeModuleConfig : Bytes → Option ModuleConfigPayload :=
  decodeWith (fun s field value => match field, value with
    | 6, .len b => (decodeTelemetryConfig b).map .telemetry
    | _, _ => some s) .empty

/-- mirrors crates/mesh-routing/src/admin_codec.rs:557-580 -/
def decodeDeviceConfig : Bytes → Option WireDeviceConfig :=
  decodeWith (fun s field value => match field, value with
    | 1, .varint v => (u32Of v).map fun v => { s with role := v }
    | _, _ => some s) ⟨DEVICE_ROLE_CLIENT⟩

/-- mirrors crates/mesh-routing/src/admin_codec.rs:262-290 -/
def decodePositionConfig : Bytes → Option WirePositionConfig :=
  decodeWith (fun s field value => match field, value with
    | 1, .varint v => (u32Of v).map fun v => { s with positionBroadcastSecs := v }
    | 3, .varint v => (u32Of v).map fun (v : UInt32) => { s with fixedPosition := v != 0 }
    | _, _ => some s) ⟨0, false⟩

/-- mirrors crates/mesh-routing/src/admin_codec.rs:292-320 -/
def decodeFixedPositionAdmin : Bytes → Option WireFixedPosition :=
  decodeWith (fun s field value => match field, value with
    | 1, .fixed32 b => some { s with latitudeI := ofLeI32 b, hasLatitudeI := true }
    | 2, .fixed32 b => some { s with longitudeI := ofLeI32 b, hasLongitudeI := true }
    | _, _ => some s) ⟨0, 0, false, false⟩

/-- mirrors crates/mesh-routing/src/admin_codec.rs:582-642 -/
def decodeLoraConfig : Bytes → Option WireLoRaConfig :=
  decodeWith (fun s field value => match field, value with
    | 1, .varint v => (u32Of v).map fun (v : UInt32) => { s with usePreset := v != 0 }
    | 2, .varint v => (u32Of v).map fun v => { s with modemPreset := v }
    | 7, .varint v => (u32Of v).map fun v => { s with region := v }
    | 8, .varint v => (u32Of v).map fun v => { s with hopLimit := v }
    | 10, .varint v => some { s with txPower := i32Of v }
    | 105, .varint v => (u32Of v).map fun (v : UInt32) => { s with configOkToMqtt := v != 0 }
    | _, _ => some s) ⟨false, 0, 0, 7, 0, false⟩

/-- mirrors crates/mesh-routing/src/admin_codec.rs:644-711 -/
def decodeSecurityConfig : Bytes → Option WireSecurityConfig :=
  decodeWith (fun s field value => match field, value with
    | 1, .len b =>
      some (if b.length = 32 then { s with publicKey := padded 32 b, hasPublicKey := true } else s)
    | 2, .len b =>
      some (if b.length = 32 then { s with privateKey := padded 32 b, hasPrivateKey := true } else s)
    | 3, .len b =>
      some (if b.length = 32 ∧ s.adminKeyCount < MAX_ADMIN_KEYS then
        { s with
          adminKeys := s.adminKeys.setIfInBounds s.adminKeyCount (padded 32 b)
          adminKeyCount := s.adminKeyCount + 1 } else s)
    | 4, .varint v => (u32Of v).map fun (v : UInt32) => { s with isManaged := v != 0 }
    | 8, .varint v => (u32Of v).map fun (v : UInt32) => { s with adminChannelEnabled := v != 0 }
    | _, _ => some s) .default

/-- mirrors crates/mesh-routing/src/admin_codec.rs:493-555 -/
def decodeConfig : Bytes → Option ConfigPayload :=
  decodeWith (fun s field value => match field, value with
    | 1, .len b => (decodeDeviceConfig b).map .device
    | 2, .len b => (decodePositionConfig b).map .position
    | 6, .len b => (decodeLoraConfig b).map .lora
    | 8, .len b => (decodeSecurityConfig b).map .security
    | 9, .len _ => some .sessionkey
    | _, _ => some s) .empty

/-- mirrors crates/mesh-routing/src/admin_codec.rs:752-805 -/
def decodeChannelSettings : Bytes → Option WireChannelSettings :=
  decodeWith (fun s field value => match field, value with
    | 2, .len b => some { s with psk := patched s.psk (b.take 32), pskLen := min b.length 32 }
    | 3, .len b =>
      some { s with
        name := patched s.name (b.take CHANNEL_NAME_MAX), nameLen := min b.length CHANNEL_NAME_MAX }
    | 4, .fixed32 b => some { s with id := ofLe32 b, hasId := true }
    | _, _ => some s) .default

/-- mirrors crates/mesh-routing/src/admin_codec.rs:713-750 -/
def decodeChannel : Bytes → Option WireChannel :=
  decodeWith (fun s field value => match field, value with
    | 1, .varint v => some { s with index := i32Of v }
    | 2, .len b =>
      (decodeChannelSettings b).map fun settings => { s with settings, hasSettings := true }
    | 3, .varint v => (u32Of v).map fun v => { s with role := v }
    | _, _ => some s) .default

/-- mirrors crates/mesh-routing/src/admin_codec.rs:1077-1111 -/
def decodeDeviceMetadata : Bytes → Option DeviceMetadata :=
  decodeWith (fun s field value => match field, value with
    | 1, .len b =>
      some { s with
        firmwareVersion := patched s.firmwareVersion (b.take 32)
        firmwareVersionLen := min b.length 32 }
    | 3, .varint v => (u32Of v).map fun v => { s with hwModel := v }
    | _, _ => some s) ⟨padded 32 [], 0, 0⟩

/-- A field that is a request when its value is not 0. -/
def flagField (s : AdminMessage) (v : UInt64) (request : AdminPayload) : Option AdminMessage :=
  (u32Of v).map fun (v : UInt32) => if v != 0 then { s with payload := request } else s

/-- A `User` that does not decode leaves the message as it was. -/
def userPayload (s : AdminMessage) (b : Bytes) (request : NodeInfoIdentity → AdminPayload) :
    AdminMessage :=
  match decodeUser b with
  | some identity => { s with payload := request identity }
  | none => s

/-- mirrors crates/mesh-routing/src/admin_codec.rs:893-1054 -/
def adminField (s : AdminMessage) (field : Nat) (value : Value) : Option AdminMessage :=
  match field, value with
  | 1, .varint v => (u32Of v).map fun v => { s with payload := .getChannelRequest v }
  | 2, .len b => (decodeChannel b).map fun ch => { s with payload := .getChannelResponse ch }
  | 3, .varint v => flagField s v .getOwnerRequest
  | 4, .len b => some (userPayload s b .getOwnerResponse)
  | 5, .varint v => (u32Of v).map fun v => { s with payload := .getConfigRequest v }
  | 6, .len b => (decodeConfig b).map fun c => { s with payload := .getConfigResponse c }
  | 7, .varint v => (u32Of v).map fun v => { s with payload := .getModuleConfigRequest v }
  | 8, .len b =>
    (decodeModuleConfig b).map fun c => { s with payload := .getModuleConfigResponse c }
  | 12, .varint v => flagField s v .getDeviceMetadataRequest
  | 13, .len b =>
    (decodeDeviceMetadata b).map fun m => { s with payload := .getDeviceMetadataResponse m }
  | 32, .len b => some (userPayload s b .setOwner)
  | 34, .len b => (decodeConfig b).map fun c => { s with payload := .setConfig c }
  | 35, .len b => (decodeModuleConfig b).map fun c => { s with payload := .setModuleConfig c }
  | 41, .len b =>
    (decodeFixedPositionAdmin b).map fun p => { s with payload := .setFixedPosition p }
  | 42, .varint v => flagField s v .removeFixedPosition
  | 64, .varint v => flagField s v .beginEditSettings
  | 65, .varint v => flagField s v .commitEditSettings
  | 97, .varint v => some { s with payload := .rebootSeconds (i32Of v) }
  | 101, .len b =>
    some (if b.length = SESSION_PASSKEY_LEN then
      { s with sessionPasskey := padded _ b, hasSessionPasskey := true } else s)
  | _, _ => some s

/-- mirrors crates/mesh-routing/src/admin_codec.rs:881-1057 -/
def decodeAdminMessage (payload : Bytes) : Option AdminMessage :=
  decodeWith adminField .default payload

end Meshrustic.Admin
