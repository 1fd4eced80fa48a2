import Meshrustic.Admin.Codec
import Meshrustic.Radio.Timing

/-!
# Remote administration (`mesh-routing/src/admin.rs`)

`handleAdmin` is the only entry point a remote administrator has. It decodes
the message, checks the sender's key, and then either answers a read (which
issues a fresh session passkey) or, for every request that writes, checks the
passkey the message carries. Writes go to the state, or to the buffers of an
open edit.

The SHA-256 of the passkey derivation comes from a crate outside the
repository, so it is a parameter.

Results: `handleAdmin_spec` says what one call can do to the state;
`write_session`: a write leaves the session as it is.
-/
namespace Meshrustic.Admin

open Meshrustic.Store Meshrustic.Radio

def ADMIN_SESSION_TTL_MS : Nat := 300000
def ROUTING_ERROR_BAD_REQUEST : UInt32 := 32
def ROUTING_ERROR_ADMIN_BAD_SESSION_KEY : UInt32 := 36
def ROUTING_ERROR_ADMIN_PUBLIC_KEY_UNAUTHORIZED : UInt32 := 37

/-- mirrors crates/mesh-store/src/admin_keys.rs:10-21 -/
def BUILTIN_ADMIN_PUBLIC_KEYS : Key × Key :=
  (padded 32 [0x9d, 0x37, 0xec, 0x73, 0x30, 0xca, 0x6e, 0xd0, 0x6d, 0x5b, 0xad, 0x4f, 0xa0, 0xa1,
    0x9c, 0xa3, 0x55, 0x04, 0xb6, 0x56, 0xe7, 0x4b, 0x6f, 0xf0, 0x15, 0xbd, 0x89, 0x9e, 0x31, 0xcc,
    0x44, 0x43],
   padded 32 [0x6b, 0x8e, 0x2a, 0x78, 0x8e, 0xef, 0x6b, 0x05, 0x87, 0x63, 0x6c, 0x48, 0x29, 0x6f,
    0x1c, 0x08, 0x24, 0x44, 0xce, 0xc1, 0x5d, 0x04, 0x27, 0x24, 0x61, 0x9e, 0xbc, 0x84, 0x04, 0x8c,
    0x2e, 0x61])

/-- mirrors crates/mesh-routing/src/admin.rs:274-282 -/
structure OwnerNames where
  shortName : Vector UInt8 OWNER_SHORT_NAME_MAX
  shortNameLen : UInt8
  longName : Vector UInt8 OWNER_LONG_NAME_MAX
  longNameLen : UInt8
  isLicensed : Bool
  deriving DecidableEq, Repr

/-- mirrors crates/mesh-routing/src/admin.rs:34-70; `builtinOverride` is
there in builds with `std` only and is `none` in the others. -/
structure AdminState where
  sessionPasskey : Passkey
  sessionValidUntilMs : UInt32
  hasSession : Bool
  passkeyCounter : UInt32
  editing : Bool
  bufferedLora : Option WireLoRaConfig
  bufferedAdminKeys : Option (Vector Key ADMIN_KEY_SLOTS)
  bufferedDeviceUpdateIntervalSecs : Option UInt32
  bufferedDeviceRole : Option UInt32
  bufferedPosition : Option WirePositionConfig
  bufferedOwner : Option OwnerNames
  adminPublicKeys : Vector Key ADMIN_KEY_SLOTS
  privateKey : Key
  publicKey : Key
  modemPreset : UInt8
  usePreset : Bool
  hopLimit : UInt8
  txPowerDbm : UInt8
  okToMqtt : Bool
  deviceUpdateIntervalSecs : UInt32
  deviceRole : UInt32
  positionBroadcastSecs : UInt32
  fixedPosition : Bool
  latitudeI : Int32
  longitudeI : Int32
  hasFixedCoords : Bool
  shortName : Vector UInt8 OWNER_SHORT_NAME_MAX
  shortNameLen : UInt8
  longName : Vector UInt8 OWNER_LONG_NAME_MAX
  longNameLen : UInt8
  pendingRebootSeconds : Option Int32
  configDirty : Bool
  builtinOverride : Option (Key × Key)
  deriving DecidableEq, Repr

/-- mirrors crates/mesh-routing/src/admin.rs:78-117 -/
def AdminState.new : AdminState where
  sessionPasskey := padded _ []
  sessionValidUntilMs := 0
  hasSession := false
  passkeyCounter := 0
  editing := false
  bufferedLora := none
  bufferedAdminKeys := none
  bufferedDeviceUpdateIntervalSecs := none
  bufferedDeviceRole := none
  bufferedPosition := none
  bufferedOwner := none
  adminPublicKeys := Vector.replicate _ EMPTY_ADMIN_KEY
  privateKey := padded _ []
  publicKey := padded _ []
  modemPreset := MODEM_DEFAULT_PRESET
  usePreset := true
  hopLimit := DEFAULT_HOP_LIMIT
  txPowerDbm := MAX_TX_POWER_DBM
  okToMqtt := true
  deviceUpdateIntervalSecs := 0
  deviceRole := DEVICE_ROLE_CLIENT
  positionBroadcastSecs := 0
  fixedPosition := false
  latitudeI := 0
  longitudeI := 0
  hasFixedCoords := false
  shortName := padded _ []
  shortNameLen := 0
  longName := padded _ []
  longNameLen := 0
  pendingRebootSeconds := none
  configDirty := false
  builtinOverride := none

/-- mirrors crates/mesh-routing/src/admin.rs:296-307 -/
structure AdminOutcome where
  response : Option AdminMessage := none
  routingError : Option UInt32 := none
  routingOk : Bool := false
  applyModemPreset : Option UInt8 := none
  applyDeviceRole : Option UInt32 := none
  applyOwner : Option OwnerNames := none
  configDirty : Bool := false
  rebootSeconds : Option Int32 := none
  broadcastPosition : Bool := false
  deriving DecidableEq, Repr

namespace AdminState

/-- mirrors crates/mesh-routing/src/admin.rs:205-211 -/
def effectiveBuiltinAdminKeys (s : AdminState) : Key × Key :=
  s.builtinOverride.getD BUILTIN_ADMIN_PUBLIC_KEYS

/-- mirrors crates/mesh-routing/src/admin.rs:223-232 -/
def isAuthorized (s : AdminState) (remotePk : Key) : Bool :=
  s.effectiveBuiltinAdminKeys.1 == remotePk || s.effectiveBuiltinAdminKeys.2 == remotePk ||
    s.adminPublicKeys.toList.any fun k => k != EMPTY_ADMIN_KEY && k == remotePk

/-- The bytes that are hashed into a passkey. -/
def passkeyMaterial (s : AdminState) (nowMs : UInt32) : Bytes :=
  s.privateKey.toList ++ le32 nowMs ++ le32 s.passkeyCounter ++ [0xA5, 0x5A]

/-- mirrors crates/mesh-routing/src/admin.rs:247-262 -/
def issueSession (sha256 : Bytes → Vector UInt8 32) (s : AdminState) (nowMs : UInt32) :
    AdminState × Passkey :=
  let pk : Passkey := padded _ ((sha256 (s.passkeyMaterial nowMs)).toList.take SESSION_PASSKEY_LEN)
  ({ s with
      passkeyCounter := s.passkeyCounter + 1
      sessionPasskey := pk
      sessionValidUntilMs := nowMs + UInt32.ofNat ADMIN_SESSION_TTL_MS
      hasSession := true }, pk)

/-- mirrors crates/mesh-routing/src/admin.rs:264-272 -/
def sessionOk (s : AdminState) (msg : AdminMessage) (nowMs : UInt32) : Bool :=
  if !s.hasSession || !msg.hasSessionPasskey then false
  else if nowMs - s.sessionValidUntilMs < 0x80000000 then false
  else msg.sessionPasskey == s.sessionPasskey

end AdminState

/-! ## Reads -/

/-- mirrors crates/mesh-routing/src/admin.rs:714-750; `index_plus_one as i32`
wraps and the subtraction saturates. -/
def channelForRequest (indexPlusOne : UInt32) (channelPsk : Bytes) (channelHash : UInt8) :
    WireChannel :=
  if indexPlusOne == 0 then .default
  else
    let signed : Int32 := indexPlusOne.toInt32
    let index := if signed == Int32.minValue then signed else signed - 1
    if index == 0 then
      let psk := if channelPsk = DEFAULT_PSK then [0x01] else channelPsk.take 32
      { index := 0, role := CHANNEL_ROLE_PRIMARY, hasSettings := true
        settings := { WireChannelSettings.default with
          psk := padded _ psk, pskLen := psk.length, id := channelHash.toUInt32, hasId := true } }
    else { WireChannel.default with index }

/-- mirrors crates/mesh-routing/src/admin.rs:752-778 -/
def securityGet (s : AdminState) : WireSecurityConfig :=
  let hasPublicKey := s.publicKey.toList.any (· != 0)
  let hasPrivateKey := s.privateKey.toList.any (· != 0)
  let keys := (s.adminPublicKeys.toList.filter (· != EMPTY_ADMIN_KEY)).take MAX_ADMIN_KEYS
  { hasPublicKey, hasPrivateKey
    publicKey := if hasPublicKey then s.publicKey else EMPTY_ADMIN_KEY
    privateKey := if hasPrivateKey then s.privateKey else EMPTY_ADMIN_KEY
    adminKeys := Vector.ofFn fun i => keys.getD i.val EMPTY_ADMIN_KEY
    adminKeyCount := keys.length
    isManaged := 0 < keys.length
    adminChannelEnabled := false }

/-- mirrors crates/mesh-routing/src/admin.rs:388-410 -/
def configForRequest (s : AdminState) (configType : UInt32) : ConfigPayload :=
  if configType == CONFIG_TYPE_DEVICE then .device ⟨s.deviceRole⟩
  else if configType == CONFIG_TYPE_POSITION then
    .position ⟨s.positionBroadcastSecs, s.fixedPosition⟩
  else if configType == CONFIG_TYPE_LORA then
    .lora { usePreset := s.usePreset, modemPreset := s.modemPreset.toUInt32, region := REGION_EU_868
            hopLimit := s.hopLimit.toUInt32, txPower := s.txPowerDbm.toUInt32.toInt32
            configOkToMqtt := s.okToMqtt }
  else if configType == CONFIG_TYPE_SECURITY then .security (securityGet s)
  else if configType == CONFIG_TYPE_SESSIONKEY then .sessionkey
  else .empty

/-- mirrors crates/mesh-routing/src/admin.rs:372-378 -/
def moduleConfigForRequest (s : AdminState) (configType : UInt32) : ModuleConfigPayload :=
  if configType == MODULE_CONFIG_TYPE_TELEMETRY then .telemetry ⟨s.deviceUpdateIntervalSecs⟩
  else .empty

/-! ## Checks and updates behind the writes -/

/-- mirrors crates/mesh-routing/src/telemetry.rs:39-44 -/
def minDeviceUpdateIntervalSecs (radio : RadioConfig) : Nat :=
  let airtimeMs := max (packetTimeMs radio 255) 1
  let politePct := max (radio.region.dutyCyclePercent.toNat * 50 / 100) 1
  let intervalMs := divCeil (min (airtimeMs * 100) 4294967295) politePct
  max (divCeil intervalMs 1000) 1

/-- mirrors crates/mesh-routing/src/admin.rs:800-809 -/
def loraRegionAccepted (lora : WireLoRaConfig) : Bool :=
  lora.usePreset && (lora.region == 0 || lora.region == REGION_EU_868) &&
    (lora.modemPreset < 256 && isValidModemPreset lora.modemPreset.toUInt8) &&
    lora.hopLimit ≤ MAX_HOP_LIMIT.toUInt32 && (0 ≤ lora.txPower && lora.txPower ≤ 27)

/-- The update of `apply_lora_to_state` once the region is accepted. -/
def writeLora (s : AdminState) (lora : WireLoRaConfig) : AdminState :=
  { s with
    modemPreset := lora.modemPreset.toUInt8
    usePreset := true
    hopLimit := lora.hopLimit.toUInt8
    txPowerDbm :=
      if lora.txPower == 0 then MAX_TX_POWER_DBM
      else min lora.txPower.toUInt32.toUInt8 MAX_TX_POWER_DBM
    okToMqtt := lora.configOkToMqtt }

/-- mirrors crates/mesh-routing/src/admin.rs:811-826 -/
def applyLoraToState (s : AdminState) (lora : WireLoRaConfig) : Option (AdminState × UInt8) :=
  if loraRegionAccepted lora then some (writeLora s lora, lora.modemPreset.toUInt8) else none

/-- mirrors crates/mesh-routing/src/admin.rs:828-832 -/
def applyPositionConfig (s : AdminState) (pos : WirePositionConfig) : AdminState :=
  { s with
    positionBroadcastSecs := coercePositionBroadcastSecs pos.positionBroadcastSecs s.deviceRole
    fixedPosition := pos.fixedPosition }

/-- `secs` is 0, the default, or at least the minimum for the preset. -/
def intervalAccepted (modemPreset : UInt8) (secs : UInt32) : Bool :=
  secs == 0 || minDeviceUpdateIntervalSecs (eu868ConfigForPreset modemPreset) ≤ secs.toNat

/-- mirrors crates/mesh-routing/src/admin.rs:834-843 -/
def applyDeviceUpdateInterval (s : AdminState) (secs : UInt32) : Option AdminState :=
  if intervalAccepted s.modemPreset secs then some { s with deviceUpdateIntervalSecs := secs }
  else none

/-- mirrors crates/mesh-routing/src/admin.rs:780-798 -/
def securityKeysFromWire (sec : WireSecurityConfig) : Vector Key ADMIN_KEY_SLOTS :=
  let n := min (min sec.adminKeyCount ADMIN_KEY_SLOTS) MAX_ADMIN_KEYS
  let keys := (sec.adminKeys.toList.take n).filter (· != EMPTY_ADMIN_KEY)
  Vector.ofFn fun i => keys.getD i.val EMPTY_ADMIN_KEY

/-- mirrors crates/mesh-routing/src/admin.rs:660-665: space, tab, line feed,
carriage return, vertical tab, form feed. -/
def nameIsWhitespaceOnly (name : Bytes) : Bool :=
  !name.isEmpty && name.all fun b => b ∈ [0x20, 0x09, 0x0A, 0x0D, 0x0B, 0x0C]

/-- mirrors crates/mesh-routing/src/admin.rs:667-675 -/
def ownerNamesFromState (s : AdminState) : OwnerNames :=
  ⟨s.shortName, s.shortNameLen, s.longName, s.longNameLen, false⟩

/-- The bytes of a name that are set, of an array and its length. -/
def NodeInfoAdvert.shortRaw (a : NodeInfoAdvert) : Bytes := a.shortName.toList.take a.shortNameLen
def NodeInfoAdvert.longRaw (a : NodeInfoAdvert) : Bytes := a.longName.toList.take a.longNameLen

/-- A name of an update against the current one: an absent name keeps it. -/
def mergeName {n : Nat} (raw : Bytes) (current : Vector UInt8 n × UInt8) : Vector UInt8 n × UInt8 :=
  if raw.isEmpty then current else (padded n (raw.take n), UInt8.ofNat (min raw.length n))

/-- mirrors crates/mesh-routing/src/admin.rs:677-705 -/
def mergeOwnerUpdate (identity : NodeInfoIdentity) (current : OwnerNames) : Option OwnerNames :=
  let advert := identity.advert
  if nameIsWhitespaceOnly advert.shortRaw then none
  else if nameIsWhitespaceOnly advert.longRaw then none
  else
    let short := mergeName advert.shortRaw (current.shortName, current.shortNameLen)
    let long := mergeName advert.longRaw (current.longName, current.longNameLen)
    some ⟨short.1, short.2, long.1, long.2, advert.isLicensed⟩

/-- mirrors crates/mesh-routing/src/admin.rs:707-712 -/
def applyOwnerNames (s : AdminState) (names : OwnerNames) : AdminState :=
  { s with
    shortName := names.shortName
    shortNameLen := names.shortNameLen
    longName := names.longName
    longNameLen := names.longNameLen }

/-! ## Writes -/

def badRequest (s : AdminState) : AdminState × AdminOutcome :=
  (s, { routingError := some ROUTING_ERROR_BAD_REQUEST })

/-- mirrors crates/mesh-routing/src/admin.rs:418-431 -/
def beginEditSettings (s : AdminState) : AdminState × AdminOutcome :=
  ({ s with
      editing := true
      bufferedLora := none
      bufferedAdminKeys := none
      bufferedDeviceUpdateIntervalSecs := none
      bufferedDeviceRole := none
      bufferedPosition := none
      bufferedOwner := none }, { routingOk := true })

/-! The commit takes each buffer in turn, on a candidate copy of the state. -/

def commitLora (c : AdminState) : Option (AdminState × Option UInt8) :=
  match c.bufferedLora with
  | none => some (c, none)
  | some lora => (applyLoraToState { c with bufferedLora := none } lora).map fun r => (r.1, some r.2)

def commitAdminKeys (c : AdminState) : AdminState :=
  match c.bufferedAdminKeys with
  | none => c
  | some keys => { c with bufferedAdminKeys := none, adminPublicKeys := keys }

def commitInterval (c : AdminState) : Option AdminState :=
  match c.bufferedDeviceUpdateIntervalSecs with
  | none => some c
  | some secs => applyDeviceUpdateInterval { c with bufferedDeviceUpdateIntervalSecs := none } secs

def commitRole (c : AdminState) : AdminState :=
  match c.bufferedDeviceRole with
  | none => c
  | some role => { c with bufferedDeviceRole := none, deviceRole := role }

def commitPosition (c : AdminState) : AdminState :=
  match c.bufferedPosition with
  | none => c
  | some pos => applyPositionConfig { c with bufferedPosition := none } pos

def commitOwner (c : AdminState) : AdminState :=
  match c.bufferedOwner with
  | none => c
  | some owner => applyOwnerNames { c with bufferedOwner := none } owner

/-- Some buffer is set, so that the commit makes the configuration dirty. -/
def AdminState.hasBuffered (s : AdminState) : Bool :=
  s.bufferedLora.isSome || s.bufferedAdminKeys.isSome ||
    s.bufferedDeviceUpdateIntervalSecs.isSome || s.bufferedDeviceRole.isSome ||
    s.bufferedPosition.isSome || s.bufferedOwner.isSome

/-- The candidate after every buffer, with the preset to apply. -/
def commitBuffers (s : AdminState) : Option (AdminState × Option UInt8) := do
  let (c, preset) ← commitLora s
  let c ← commitInterval (commitAdminKeys c)
  return (commitOwner (commitPosition (commitRole c)), preset)

/-- mirrors crates/mesh-routing/src/admin.rs:432-488 -/
def commitEditSettings (s : AdminState) : AdminState × AdminOutcome :=
  match commitBuffers s with
  | none => badRequest s
  | some (c, preset) =>
    ({ c with editing := false, configDirty := c.configDirty || s.hasBuffered },
      { routingOk := true
        applyModemPreset := preset
        applyDeviceRole := s.bufferedDeviceRole
        applyOwner := s.bufferedOwner
        configDirty := s.hasBuffered })

/-- mirrors crates/mesh-routing/src/admin.rs:489-552 -/
def setConfig (s : AdminState) : ConfigPayload → AdminState × AdminOutcome
  | .lora lora =>
    if s.editing then
      if !loraRegionAccepted lora then badRequest s
      else ({ s with bufferedLora := some lora }, { routingOk := true })
    else match applyLoraToState s lora with
      | some (s', p) =>
        ({ s' with configDirty := true },
          { routingOk := true, applyModemPreset := some p, configDirty := true })
      | none => badRequest s
  | .security sec =>
    let keys := securityKeysFromWire sec
    if s.editing then ({ s with bufferedAdminKeys := some keys }, { routingOk := true })
    else ({ s with adminPublicKeys := keys, configDirty := true },
      { routingOk := true, configDirty := true })
  | .position pos =>
    if s.editing then ({ s with bufferedPosition := some pos }, { routingOk := true })
    else ({ applyPositionConfig s pos with configDirty := true },
      { routingOk := true, configDirty := true })
  | .device dev =>
    if !isKnownDeviceRole dev.role then badRequest s
    else if s.editing then ({ s with bufferedDeviceRole := some dev.role }, { routingOk := true })
    else ({ s with deviceRole := dev.role, configDirty := true },
      { routingOk := true, applyDeviceRole := some dev.role, configDirty := true })
  | .sessionkey | .empty => (s, { routingOk := true })

/-- mirrors crates/mesh-routing/src/admin.rs:553-591 -/
def setModuleConfig (s : AdminState) : ModuleConfigPayload → AdminState × AdminOutcome
  | .telemetry tel =>
    if s.editing then
      if !intervalAccepted s.modemPreset tel.deviceUpdateInterval then badRequest s
      else ({ s with bufferedDeviceUpdateIntervalSecs := some tel.deviceUpdateInterval },
        { routingOk := true })
    else match applyDeviceUpdateInterval s tel.deviceUpdateInterval with
      | some s' => ({ s' with configDirty := true }, { routingOk := true, configDirty := true })
      | none => badRequest s
  | .empty => (s, { routingOk := true })

/-- mirrors crates/mesh-routing/src/admin.rs:592-617 -/
def setFixedPosition (s : AdminState) (pos : WireFixedPosition) : AdminState × AdminOutcome :=
  if !pos.hasLatitudeI || !pos.hasLongitudeI then badRequest s
  else if (pos.latitudeI == 0 && pos.longitudeI == 0) ||
      !(-900000000 ≤ pos.latitudeI && pos.latitudeI ≤ 900000000) ||
      !(-1800000000 ≤ pos.longitudeI && pos.longitudeI ≤ 1800000000) then badRequest s
  else
    ({ s with
        latitudeI := pos.latitudeI
        longitudeI := pos.longitudeI
        hasFixedCoords := true
        fixedPosition := true
        configDirty := true },
      { routingOk := true, configDirty := true, broadcastPosition := true })

/-- mirrors crates/mesh-routing/src/admin.rs:618-630 -/
def removeFixedPosition (s : AdminState) : AdminState × AdminOutcome :=
  ({ s with
      fixedPosition := false
      hasFixedCoords := false
      latitudeI := 0
      longitudeI := 0
      configDirty := true }, { routingOk := true, configDirty := true })

/-- An edit buffers the merged names; the merge is against the state in both
cases. mirrors crates/mesh-routing/src/admin.rs:631-650 -/
def setOwner (s : AdminState) (owner : NodeInfoIdentity) : AdminState × AdminOutcome :=
  match mergeOwnerUpdate owner (ownerNamesFromState s) with
  | none => badRequest s
  | some merged =>
    if s.editing then ({ s with bufferedOwner := some merged }, { routingOk := true })
    else ({ applyOwnerNames s merged with configDirty := true },
      { routingOk := true, applyOwner := some merged, configDirty := true })

/-- mirrors crates/mesh-routing/src/admin.rs:651-659 -/
def rebootSeconds (s : AdminState) (secs : Int32) : AdminState × AdminOutcome :=
  ({ s with pendingRebootSeconds := some secs },
    { routingOk := true, rebootSeconds := some secs })

/-- The write a payload asks for, or `none` for a payload that is not one. -/
def write (s : AdminState) : AdminPayload → Option (AdminState × AdminOutcome)
  | .beginEditSettings => some (beginEditSettings s)
  | .commitEditSettings => some (commitEditSettings s)
  | .setConfig config => some (setConfig s config)
  | .setModuleConfig config => some (setModuleConfig s config)
  | .setFixedPosition pos => some (setFixedPosition s pos)
  | .removeFixedPosition => some (removeFixedPosition s)
  | .setOwner owner => some (setOwner s owner)
  | .rebootSeconds secs => some (rebootSeconds s secs)
  | _ => none

/-- The arguments of one call that the handler reads. -/
structure Call where
  remotePk : Key
  identity : NodeInfoIdentity
  channelPsk : Bytes
  channelHash : UInt8
  payload : Bytes

/-- The answer a read asks for. -/
def readReply (s : AdminState) (c : Call) : AdminPayload → Option AdminPayload
  | .getChannelRequest i =>
    some (.getChannelResponse (channelForRequest i c.channelPsk c.channelHash))
  | .getOwnerRequest => some (.getOwnerResponse c.identity)
  | .getDeviceMetadataRequest =>
    some (.getDeviceMetadataResponse (.meshrusticDefault HW_MODEL_NRF52_PROMICRO_DIY))
  | .getModuleConfigRequest t => some (.getModuleConfigResponse (moduleConfigForRequest s t))
  | .getConfigRequest t => some (.getConfigResponse (configForRequest s t))
  | _ => none

/-- mirrors crates/mesh-routing/src/admin.rs:320-658 -/
def handleAdmin (sha256 : Bytes → Vector UInt8 32) (s : AdminState) (c : Call) (nowMs : UInt32) :
    AdminState × AdminOutcome :=
  match decodeAdminMessage c.payload with
  | none => (s, {})
  | some msg =>
    if !s.isAuthorized c.remotePk then
      (s, { routingError := some ROUTING_ERROR_ADMIN_PUBLIC_KEY_UNAUTHORIZED })
    else match readReply s c msg.payload with
      | some reply =>
        let (s', passkey) := s.issueSession sha256 nowMs
        (s', { response := some ⟨passkey, true, reply⟩ })
      | none => match write s msg.payload with
        | some r =>
          if !s.sessionOk msg nowMs then
            (s, { routingError := some ROUTING_ERROR_ADMIN_BAD_SESSION_KEY })
          else r
        | none => (s, {})

/-! ## Views of the state -/

/-- The configuration fields of a state: what an administrator can set. -/
structure Settings where
  adminPublicKeys : Vector Key ADMIN_KEY_SLOTS
  modemPreset : UInt8
  usePreset : Bool
  hopLimit : UInt8
  txPowerDbm : UInt8
  okToMqtt : Bool
  deviceUpdateIntervalSecs : UInt32
  deviceRole : UInt32
  positionBroadcastSecs : UInt32
  fixedPosition : Bool
  latitudeI : Int32
  longitudeI : Int32
  hasFixedCoords : Bool
  shortName : Vector UInt8 OWNER_SHORT_NAME_MAX × UInt8
  longName : Vector UInt8 OWNER_LONG_NAME_MAX × UInt8
  deriving DecidableEq

/-- The buffers of an edit. -/
structure Buffers where
  lora : Option WireLoRaConfig
  adminKeys : Option (Vector Key ADMIN_KEY_SLOTS)
  interval : Option UInt32
  role : Option UInt32
  position : Option WirePositionConfig
  owner : Option OwnerNames
  deriving DecidableEq

namespace AdminState

def settings (s : AdminState) : Settings where
  adminPublicKeys := s.adminPublicKeys
  modemPreset := s.modemPreset
  usePreset := s.usePreset
  hopLimit := s.hopLimit
  txPowerDbm := s.txPowerDbm
  okToMqtt := s.okToMqtt
  deviceUpdateIntervalSecs := s.deviceUpdateIntervalSecs
  deviceRole := s.deviceRole
  positionBroadcastSecs := s.positionBroadcastSecs
  fixedPosition := s.fixedPosition
  latitudeI := s.latitudeI
  longitudeI := s.longitudeI
  hasFixedCoords := s.hasFixedCoords
  shortName := (s.shortName, s.shortNameLen)
  longName := (s.longName, s.longNameLen)

def buffers (s : AdminState) : Buffers where
  lora := s.bufferedLora
  adminKeys := s.bufferedAdminKeys
  interval := s.bufferedDeviceUpdateIntervalSecs
  role := s.bufferedDeviceRole
  position := s.bufferedPosition
  owner := s.bufferedOwner

/-- The session of a state. -/
def session (s : AdminState) : Passkey × UInt32 × Bool :=
  (s.sessionPasskey, s.sessionValidUntilMs, s.hasSession)

end AdminState

/-! ## What a call can do -/

/-- The three outcomes of a call: it is ignored or refused, it opens a
session, or it is a write under the open session. -/
inductive Effect (sha256 : Bytes → Vector UInt8 32) (s : AdminState) (c : Call) (nowMs : UInt32) :
    AdminState × AdminOutcome → Prop where
  | refused (o : AdminOutcome) (hr : o.response = none) (ho : o.routingOk = false) :
      Effect sha256 s c nowMs (s, o)
  | session (msg : AdminMessage) (reply : AdminPayload)
      (hd : decodeAdminMessage c.payload = some msg) (ha : s.isAuthorized c.remotePk = true)
      (hp : readReply s c msg.payload = some reply) :
      Effect sha256 s c nowMs ((s.issueSession sha256 nowMs).1,
        { response := some ⟨(s.issueSession sha256 nowMs).2, true, reply⟩ })
  | write (msg : AdminMessage) (r : AdminState × AdminOutcome)
      (hd : decodeAdminMessage c.payload = some msg) (ha : s.isAuthorized c.remotePk = true)
      (hs : s.sessionOk msg nowMs = true) (hw : write s msg.payload = some r) :
      Effect sha256 s c nowMs r

theorem handleAdmin_spec (sha256 : Bytes → Vector UInt8 32) (s : AdminState) (c : Call)
    (nowMs : UInt32) : Effect sha256 s c nowMs (handleAdmin sha256 s c nowMs) := by
  unfold handleAdmin
  cases hd : decodeAdminMessage c.payload with
  | none => exact .refused {} rfl rfl
  | some msg =>
    dsimp only
    cases ha : s.isAuthorized c.remotePk with
    | false => exact .refused _ rfl rfl
    | true =>
      cases hp : readReply s c msg.payload with
      | some reply => exact .session msg reply hd ha hp
      | none =>
        cases hw : Admin.write s msg.payload with
        | none => exact .refused {} rfl rfl
        | some r =>
          cases hs : s.sessionOk msg nowMs with
          | false => exact .refused _ rfl rfl
          | true => exact .write msg r hd ha hs hw

theorem commitLora_session {c : AdminState} {r : AdminState × Option UInt8}
    (h : commitLora c = some r) : r.1.session = c.session := by
  unfold commitLora applyLoraToState at h
  cases hb : c.bufferedLora with
  | none => simp only [hb, Option.some.injEq] at h; rw [← h]
  | some lora =>
    rw [hb] at h
    simp only [Option.map_eq_some_iff, Option.ite_none_right_eq_some, Option.some.injEq] at h
    obtain ⟨q, ⟨-, rfl⟩, rfl⟩ := h
    rfl

theorem commitInterval_session {c c' : AdminState} (h : commitInterval c = some c') :
    c'.session = c.session := by
  unfold commitInterval applyDeviceUpdateInterval at h
  cases hb : c.bufferedDeviceUpdateIntervalSecs with
  | none => simp only [hb, Option.some.injEq] at h; rw [← h]
  | some secs =>
    simp only [hb, Option.ite_none_right_eq_some, Option.some.injEq] at h
    obtain ⟨-, rfl⟩ := h
    rfl

theorem commitAdminKeys_session (c : AdminState) : (commitAdminKeys c).session = c.session := by
  unfold commitAdminKeys; split <;> rfl

theorem commitRole_session (c : AdminState) : (commitRole c).session = c.session := by
  unfold commitRole; split <;> rfl

theorem commitPosition_session (c : AdminState) : (commitPosition c).session = c.session := by
  unfold commitPosition; split <;> rfl

theorem commitOwner_session (c : AdminState) : (commitOwner c).session = c.session := by
  unfold commitOwner; split <;> rfl

theorem commitBuffers_session {s : AdminState} {r : AdminState × Option UInt8}
    (h : commitBuffers s = some r) : r.1.session = s.session := by
  simp only [commitBuffers, Option.bind_eq_bind, Option.bind_eq_some_iff, Option.pure_def,
    Option.some.injEq] at h
  obtain ⟨⟨c, preset⟩, hl, c', hi, rfl⟩ := h
  calc (commitOwner (commitPosition (commitRole c'))).session
      = (commitPosition (commitRole c')).session := commitOwner_session _
    _ = (commitRole c').session := commitPosition_session _
    _ = c'.session := commitRole_session _
    _ = (commitAdminKeys c).session := commitInterval_session hi
    _ = c.session := commitAdminKeys_session _
    _ = s.session := commitLora_session hl

theorem commitEditSettings_session (s : AdminState) :
    (commitEditSettings s).1.session = s.session ∧ (commitEditSettings s).2.response = none := by
  unfold commitEditSettings
  cases h : commitBuffers s with
  | none => exact ⟨rfl, rfl⟩
  | some r => exact ⟨commitBuffers_session h, rfl⟩

theorem setConfig_session (s : AdminState) (config : ConfigPayload) :
    (setConfig s config).1.session = s.session ∧ (setConfig s config).2.response = none := by
  cases config with
  | lora lora =>
    simp only [setConfig, applyLoraToState]
    cases s.editing with
    | true => cases loraRegionAccepted lora <;> exact ⟨rfl, rfl⟩
    | false => cases loraRegionAccepted lora <;> exact ⟨rfl, rfl⟩
  | security sec => simp only [setConfig]; cases s.editing <;> exact ⟨rfl, rfl⟩
  | position pos => simp only [setConfig]; cases s.editing <;> exact ⟨rfl, rfl⟩
  | device dev =>
    simp only [setConfig]
    cases isKnownDeviceRole dev.role <;> cases s.editing <;> exact ⟨rfl, rfl⟩
  | sessionkey => exact ⟨rfl, rfl⟩
  | empty => exact ⟨rfl, rfl⟩

theorem setModuleConfig_session (s : AdminState) (config : ModuleConfigPayload) :
    (setModuleConfig s config).1.session = s.session ∧
      (setModuleConfig s config).2.response = none := by
  cases config with
  | telemetry tel =>
    simp only [setModuleConfig, applyDeviceUpdateInterval]
    cases s.editing with
    | true => cases intervalAccepted s.modemPreset tel.deviceUpdateInterval <;> exact ⟨rfl, rfl⟩
    | false => cases intervalAccepted s.modemPreset tel.deviceUpdateInterval <;> exact ⟨rfl, rfl⟩
  | empty => exact ⟨rfl, rfl⟩

theorem setFixedPosition_session (s : AdminState) (pos : WireFixedPosition) :
    (setFixedPosition s pos).1.session = s.session ∧
      (setFixedPosition s pos).2.response = none := by
  unfold setFixedPosition
  split
  · exact ⟨rfl, rfl⟩
  · split <;> exact ⟨rfl, rfl⟩

theorem setOwner_session (s : AdminState) (owner : NodeInfoIdentity) :
    (setOwner s owner).1.session = s.session ∧ (setOwner s owner).2.response = none := by
  unfold setOwner
  cases mergeOwnerUpdate owner (ownerNamesFromState s) with
  | none => exact ⟨rfl, rfl⟩
  | some merged => cases s.editing <;> exact ⟨rfl, rfl⟩

/-- No write opens, renews or closes a session, and none answers. -/
theorem write_session {s : AdminState} {p : AdminPayload} {r : AdminState × AdminOutcome}
    (h : write s p = some r) : r.1.session = s.session ∧ r.2.response = none := by
  unfold write at h
  split at h <;> cases h
  · exact ⟨rfl, rfl⟩
  · exact commitEditSettings_session s
  · exact setConfig_session s _
  · exact setModuleConfig_session s _
  · exact setFixedPosition_session s _
  · exact ⟨rfl, rfl⟩
  · exact setOwner_session s _
  · exact ⟨rfl, rfl⟩

end Meshrustic.Admin
