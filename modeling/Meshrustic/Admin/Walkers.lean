import Meshrustic.Admin.Codec
import Meshrustic.Core.ProtobufWalk

/-!
# The admin decoders by index (`mesh-routing/src/admin_codec.rs`, `nodeinfo.rs`)

The loops of the decoders as they read their input: each arm by the way it takes its value from
the bytes, each copy into an array with the lengths it needs. A nested decoder gets the slice of
its field.

Results: each of them is the decoder of `Admin.Codec` (`adminMessage_refines` and the others), so
none of them reads or writes out of range, and none loops for ever.
-/
namespace Meshrustic.Admin

open Meshrustic.Protobuf Meshrustic.Store

/-! ## Copies -/

/-- `v[..copy_len].copy_from_slice(&slice[..copy_len])` -/
def copyPrefix {n : Nat} (v : Vector UInt8 n) (slice : Bytes) (copyLen : Nat) :
    Reading (Vector UInt8 n) :=
  if copyLen ≤ n ∧ copyLen ≤ slice.length then .ok (patched v (slice.take copyLen))
  else .error .outOfRange

/-- `v.copy_from_slice(slice)` -/
def copyWhole (n : Nat) (slice : Bytes) : Reading (Vector UInt8 n) :=
  if slice.length = n then .ok (padded n slice) else .error .outOfRange

/-- `keys[slot].copy_from_slice(slice)` -/
def copyToSlot {n slots : Nat} (keys : Vector (Vector UInt8 n) slots) (slot : Nat) (slice : Bytes) :
    Reading (Vector (Vector UInt8 n) slots) := do
  let key ← copyWhole n slice
  if slot < slots then pure (keys.setIfInBounds slot key) else .error .outOfRange

@[simp] theorem copyPrefix_min {n : Nat} (v : Vector UInt8 n) (slice : Bytes) :
    copyPrefix v slice (min slice.length n) = .ok (patched v (slice.take n)) := by
  have htake : slice.take (min slice.length n) = slice.take n := by
    rw [Nat.min_comm, ← List.take_take, List.take_length]
  rw [copyPrefix, if_pos ⟨Nat.min_le_right _ _, Nat.min_le_left _ _⟩, htake]

@[simp] theorem copyWhole_self {n : Nat} {slice : Bytes} (h : slice.length = n) :
    copyWhole n slice = .ok (padded n slice) := if_pos h

/-! ## Identities -/

theorem capped_le (b : Bytes) (n : Nat) : min b.length n ≤ n := Nat.min_le_right _ _

/-- mirrors crates/mesh-routing/src/nodeinfo.rs:236-292 -/
def userArms : (field wire : Nat) → Arm (NodeInfoIdentity × Bool) wire
  | 2, 2 => .len fun s b => do
    let longName ← copyPrefix s.1.advert.longName b (min b.length NODEINFO_LONG_NAME_MAX)
    pure ({ s.1 with advert := { s.1.advert with
      longName
      longNameLen := min b.length NODEINFO_LONG_NAME_MAX
      longNameLen_le := capped_le b NODEINFO_LONG_NAME_MAX } }, s.2)
  | 3, 2 => .len fun s b => do
    let shortName ← copyPrefix s.1.advert.shortName b (min b.length NODEINFO_SHORT_NAME_MAX)
    pure ({ s.1 with advert := { s.1.advert with
      shortName
      shortNameLen := min b.length NODEINFO_SHORT_NAME_MAX
      shortNameLen_le := capped_le b NODEINFO_SHORT_NAME_MAX } }, true)
  | 5, 0 => .varint fun s v => .ok ({ s.1 with advert := { s.1.advert with hwModel := v } }, s.2)
  | 6, 0 => .varint fun s v =>
    .ok ({ s.1 with advert := { s.1.advert with isLicensed := v != 0 } }, s.2)
  | 7, 0 => .varint fun s v => .ok ({ s.1 with advert := { s.1.advert with role := v } }, s.2)
  | 8, 2 => .len fun s b => do
    let publicKey ← copyPrefix s.1.publicKey b (min b.length 32)
    pure ({ s.1 with publicKey }, s.2)
  | _, _ => .skip

def userWalker : Walker (NodeInfoIdentity × Bool) where
  arms := userArms
  init := (⟨.empty, padded 32 []⟩, false)

/-- mirrors crates/mesh-routing/src/nodeinfo.rs:294-298 -/
def userFinish (s : NodeInfoIdentity × Bool) : Option NodeInfoIdentity :=
  if s.2 then some s.1 else none

/-- mirrors crates/mesh-routing/src/nodeinfo.rs:226-298 -/
def userAt (payload : Bytes) : Reading NodeInfoIdentity := do
  let s ← userWalker.run payload
  orRefused (userFinish s)

theorem user_refines :
    userWalker.Refines (decodeWith userField (⟨.empty, padded 32 []⟩, false)) := by
  refine .of_arms (fun _ => rfl) rfl (fun s field v hskip => ?_) fun s field wire v hwire => ?_
  · change (userArms field v.wire).isSkip = true at hskip
    unfold userField
    split <;> first | cases hskip | rfl
  change ((userArms field wire).isSkip = true → _) → (userArms field wire).value s v = _
  unfold userArms
  split <;> intro hskipped
  · obtain ⟨b, rfl⟩ := Arm.len_of_wire hwire
    simp only [Arm.value, copyPrefix_min, ok_bind, userField, orRefused_some, pure_reading]
  · obtain ⟨b, rfl⟩ := Arm.len_of_wire hwire
    simp only [Arm.value, copyPrefix_min, ok_bind, userField, orRefused_some, pure_reading]
  · obtain ⟨v, rfl⟩ := Arm.varint_of_wire hwire
    exact Arm.value_varint (fun _ => rfl) v
  · obtain ⟨v, rfl⟩ := Arm.varint_of_wire hwire
    exact Arm.value_varint (fun _ => rfl) v
  · obtain ⟨v, rfl⟩ := Arm.varint_of_wire hwire
    exact Arm.value_varint (fun _ => rfl) v
  · obtain ⟨b, rfl⟩ := Arm.len_of_wire hwire
    simp only [Arm.value, copyPrefix_min, ok_bind, userField, orRefused_some, pure_reading]
  · exact Arm.value_skipped rfl (hskipped rfl)

theorem userAt_eq (payload : Bytes) : userAt payload = orRefused (decodeUser payload) := by
  rw [userAt, user_refines.run, decodeUser]
  cases decodeWith userField (⟨.empty, padded 32 []⟩, false) payload <;> rfl

/-! ## Configurations -/

/-- mirrors crates/mesh-routing/src/admin_codec.rs:409-427 -/
def telemetryConfigArms : (field wire : Nat) → Arm WireTelemetryConfig wire
  | 1, 0 => .varint fun s v => .ok { s with deviceUpdateInterval := v }
  | _, _ => .skip

def telemetryConfigWalker : Walker WireTelemetryConfig where
  arms := telemetryConfigArms
  init := ⟨0⟩

theorem telemetryConfig_refines : telemetryConfigWalker.Refines decodeTelemetryConfig := by
  refine .of_arms (fun _ => rfl) rfl (fun s field v hskip => ?_) fun s field wire v hwire => ?_
  · change (telemetryConfigArms field v.wire).isSkip = true at hskip
    split <;> first | cases hskip | rfl
  change ((telemetryConfigArms field wire).isSkip = true → _) → (telemetryConfigArms field wire).value s v = _
  unfold telemetryConfigArms
  split <;> intro hskipped
  · obtain ⟨v, rfl⟩ := Arm.varint_of_wire hwire
    exact Arm.value_varint (fun _ => rfl) v
  · exact Arm.value_skipped rfl (hskipped rfl)

/-- mirrors crates/mesh-routing/src/admin_codec.rs:434-457 -/
def moduleConfigArms : (field wire : Nat) → Arm ModuleConfigPayload wire
  | 6, 2 => .len fun _ b => do
    let config ← telemetryConfigWalker.run b
    pure (.telemetry config)
  | _, _ => .skip

def moduleConfigWalker : Walker ModuleConfigPayload where
  arms := moduleConfigArms
  init := .empty

theorem moduleConfig_refines : moduleConfigWalker.Refines decodeModuleConfig := by
  refine .of_arms (fun _ => rfl) rfl (fun s field v hskip => ?_) fun s field wire v hwire => ?_
  · change (moduleConfigArms field v.wire).isSkip = true at hskip
    split <;> first | cases hskip | rfl
  change ((moduleConfigArms field wire).isSkip = true → _) → (moduleConfigArms field wire).value s v = _
  unfold moduleConfigArms
  split <;> intro hskipped
  · obtain ⟨b, rfl⟩ := Arm.len_of_wire hwire
    exact nested_eq (telemetryConfig_refines.run b) _
  · exact Arm.value_skipped rfl (hskipped rfl)

/-- mirrors crates/mesh-routing/src/admin_codec.rs:560-578 -/
def deviceConfigArms : (field wire : Nat) → Arm WireDeviceConfig wire
  | 1, 0 => .varint fun s v => .ok { s with role := v }
  | _, _ => .skip

def deviceConfigWalker : Walker WireDeviceConfig where
  arms := deviceConfigArms
  init := ⟨DEVICE_ROLE_CLIENT⟩

theorem deviceConfig_refines : deviceConfigWalker.Refines decodeDeviceConfig := by
  refine .of_arms (fun _ => rfl) rfl (fun s field v hskip => ?_) fun s field wire v hwire => ?_
  · change (deviceConfigArms field v.wire).isSkip = true at hskip
    split <;> first | cases hskip | rfl
  change ((deviceConfigArms field wire).isSkip = true → _) → (deviceConfigArms field wire).value s v = _
  unfold deviceConfigArms
  split <;> intro hskipped
  · obtain ⟨v, rfl⟩ := Arm.varint_of_wire hwire
    exact Arm.value_varint (fun _ => rfl) v
  · exact Arm.value_skipped rfl (hskipped rfl)

/-- mirrors crates/mesh-routing/src/admin_codec.rs:265-288 -/
def positionConfigArms : (field wire : Nat) → Arm WirePositionConfig wire
  | 1, 0 => .varint fun s v => .ok { s with positionBroadcastSecs := v }
  | 3, 0 => .varint fun s v => .ok { s with fixedPosition := v != 0 }
  | _, _ => .skip

def positionConfigWalker : Walker WirePositionConfig where
  arms := positionConfigArms
  init := ⟨0, false⟩

theorem positionConfig_refines : positionConfigWalker.Refines decodePositionConfig := by
  refine .of_arms (fun _ => rfl) rfl (fun s field v hskip => ?_) fun s field wire v hwire => ?_
  · change (positionConfigArms field v.wire).isSkip = true at hskip
    split <;> first | cases hskip | rfl
  change ((positionConfigArms field wire).isSkip = true → _) → (positionConfigArms field wire).value s v = _
  unfold positionConfigArms
  split <;> intro hskipped
  · obtain ⟨v, rfl⟩ := Arm.varint_of_wire hwire
    exact Arm.value_varint (fun _ => rfl) v
  · obtain ⟨v, rfl⟩ := Arm.varint_of_wire hwire
    exact Arm.value_varint (fun _ => rfl) v
  · exact Arm.value_skipped rfl (hskipped rfl)

/-- mirrors crates/mesh-routing/src/admin_codec.rs:295-318 -/
def fixedPositionAdminArms : (field wire : Nat) → Arm WireFixedPosition wire
  | 1, 5 => .word fun s b => .ok { s with latitudeI := ofLeI32 b, hasLatitudeI := true }
  | 2, 5 => .word fun s b => .ok { s with longitudeI := ofLeI32 b, hasLongitudeI := true }
  | _, _ => .skip

def fixedPositionAdminWalker : Walker WireFixedPosition where
  arms := fixedPositionAdminArms
  init := ⟨0, 0, false, false⟩

theorem fixedPositionAdmin_refines : fixedPositionAdminWalker.Refines decodeFixedPositionAdmin := by
  refine .of_arms (fun _ => rfl) rfl (fun s field v hskip => ?_) fun s field wire v hwire => ?_
  · change (fixedPositionAdminArms field v.wire).isSkip = true at hskip
    split <;> first | cases hskip | rfl
  change ((fixedPositionAdminArms field wire).isSkip = true → _) → (fixedPositionAdminArms field wire).value s v = _
  unfold fixedPositionAdminArms
  split <;> intro hskipped
  · obtain ⟨b, rfl⟩ := Arm.fixed32_of_wire hwire
    rfl
  · obtain ⟨b, rfl⟩ := Arm.fixed32_of_wire hwire
    rfl
  · exact Arm.value_skipped rfl (hskipped rfl)

/-- mirrors crates/mesh-routing/src/admin_codec.rs:592-640 -/
def loraConfigArms : (field wire : Nat) → Arm WireLoRaConfig wire
  | 1, 0 => .varint fun s v => .ok { s with usePreset := v != 0 }
  | 2, 0 => .varint fun s v => .ok { s with modemPreset := v }
  | 7, 0 => .varint fun s v => .ok { s with region := v }
  | 8, 0 => .varint fun s v => .ok { s with hopLimit := v }
  | 10, 0 => .int32 fun s v => .ok { s with txPower := v }
  | 105, 0 => .varint fun s v => .ok { s with configOkToMqtt := v != 0 }
  | _, _ => .skip

def loraConfigWalker : Walker WireLoRaConfig where
  arms := loraConfigArms
  init := ⟨false, 0, 0, 7, 0, false⟩

theorem loraConfig_refines : loraConfigWalker.Refines decodeLoraConfig := by
  refine .of_arms (fun _ => rfl) rfl (fun s field v hskip => ?_) fun s field wire v hwire => ?_
  · change (loraConfigArms field v.wire).isSkip = true at hskip
    split <;> first | cases hskip | rfl
  change ((loraConfigArms field wire).isSkip = true → _) → (loraConfigArms field wire).value s v = _
  unfold loraConfigArms
  split <;> intro hskipped
  · obtain ⟨v, rfl⟩ := Arm.varint_of_wire hwire
    exact Arm.value_varint (fun _ => rfl) v
  · obtain ⟨v, rfl⟩ := Arm.varint_of_wire hwire
    exact Arm.value_varint (fun _ => rfl) v
  · obtain ⟨v, rfl⟩ := Arm.varint_of_wire hwire
    exact Arm.value_varint (fun _ => rfl) v
  · obtain ⟨v, rfl⟩ := Arm.varint_of_wire hwire
    exact Arm.value_varint (fun _ => rfl) v
  · obtain ⟨v, rfl⟩ := Arm.varint_of_wire hwire
    rfl
  · obtain ⟨v, rfl⟩ := Arm.varint_of_wire hwire
    exact Arm.value_varint (fun _ => rfl) v
  · exact Arm.value_skipped rfl (hskipped rfl)

/-- mirrors crates/mesh-routing/src/admin_codec.rs:647-709 -/
def securityConfigArms : (field wire : Nat) → Arm WireSecurityConfig wire
  | 1, 2 => .len fun s b =>
    if b.length = 32 then do
      let publicKey ← copyWhole 32 b
      pure { s with publicKey, hasPublicKey := true }
    else .ok s
  | 2, 2 => .len fun s b =>
    if b.length = 32 then do
      let privateKey ← copyWhole 32 b
      pure { s with privateKey, hasPrivateKey := true }
    else .ok s
  | 3, 2 => .len fun s b =>
    if b.length = 32 ∧ s.adminKeyCount < MAX_ADMIN_KEYS then do
      let adminKeys ← copyToSlot s.adminKeys s.adminKeyCount b
      pure { s with adminKeys, adminKeyCount := s.adminKeyCount + 1 }
    else .ok s
  | 4, 0 => .varint fun s v => .ok { s with isManaged := v != 0 }
  | 8, 0 => .varint fun s v => .ok { s with adminChannelEnabled := v != 0 }
  | _, _ => .skip

def securityConfigWalker : Walker WireSecurityConfig where
  arms := securityConfigArms
  init := .default

theorem securityConfig_refines : securityConfigWalker.Refines decodeSecurityConfig := by
  refine .of_arms (fun _ => rfl) rfl (fun s field v hskip => ?_) fun s field wire v hwire => ?_
  · change (securityConfigArms field v.wire).isSkip = true at hskip
    split <;> first | cases hskip | rfl
  change ((securityConfigArms field wire).isSkip = true → _) → (securityConfigArms field wire).value s v = _
  unfold securityConfigArms
  split <;> intro hskipped
  · obtain ⟨b, rfl⟩ := Arm.len_of_wire hwire
    simp only [Arm.value]
    split
    · rename_i h
      rw [copyWhole_self h]
      rfl
    · rfl
  · obtain ⟨b, rfl⟩ := Arm.len_of_wire hwire
    simp only [Arm.value]
    split
    · rename_i h
      rw [copyWhole_self h]
      rfl
    · rfl
  · obtain ⟨b, rfl⟩ := Arm.len_of_wire hwire
    simp only [Arm.value]
    split
    · rename_i h
      rw [copyToSlot, copyWhole_self h.1, ok_bind, if_pos h.2]
      rfl
    · rfl
  · obtain ⟨v, rfl⟩ := Arm.varint_of_wire hwire
    exact Arm.value_varint (fun _ => rfl) v
  · obtain ⟨v, rfl⟩ := Arm.varint_of_wire hwire
    exact Arm.value_varint (fun _ => rfl) v
  · exact Arm.value_skipped rfl (hskipped rfl)

/-- mirrors crates/mesh-routing/src/admin_codec.rs:496-553 -/
def configArms : (field wire : Nat) → Arm ConfigPayload wire
  | 1, 2 => .len fun _ b => do
    let config ← deviceConfigWalker.run b
    pure (.device config)
  | 2, 2 => .len fun _ b => do
    let config ← positionConfigWalker.run b
    pure (.position config)
  | 6, 2 => .len fun _ b => do
    let config ← loraConfigWalker.run b
    pure (.lora config)
  | 8, 2 => .len fun _ b => do
    let config ← securityConfigWalker.run b
    pure (.security config)
  | 9, 2 => .len fun _ _ => .ok .sessionkey
  | _, _ => .skip

def configWalker : Walker ConfigPayload where
  arms := configArms
  init := .empty

theorem config_refines : configWalker.Refines decodeConfig := by
  refine .of_arms (fun _ => rfl) rfl (fun s field v hskip => ?_) fun s field wire v hwire => ?_
  · change (configArms field v.wire).isSkip = true at hskip
    split <;> first | cases hskip | rfl
  change ((configArms field wire).isSkip = true → _) → (configArms field wire).value s v = _
  unfold configArms
  split <;> intro hskipped
  · obtain ⟨b, rfl⟩ := Arm.len_of_wire hwire
    exact nested_eq (deviceConfig_refines.run b) _
  · obtain ⟨b, rfl⟩ := Arm.len_of_wire hwire
    exact nested_eq (positionConfig_refines.run b) _
  · obtain ⟨b, rfl⟩ := Arm.len_of_wire hwire
    exact nested_eq (loraConfig_refines.run b) _
  · obtain ⟨b, rfl⟩ := Arm.len_of_wire hwire
    exact nested_eq (securityConfig_refines.run b) _
  · obtain ⟨b, rfl⟩ := Arm.len_of_wire hwire
    rfl
  · exact Arm.value_skipped rfl (hskipped rfl)

/-! ## Channels and metadata -/

/-- mirrors crates/mesh-routing/src/admin_codec.rs:755-803 -/
def channelSettingsArms : (field wire : Nat) → Arm WireChannelSettings wire
  | 2, 2 => .len fun s b => do
    let psk ← copyPrefix s.psk b (min b.length 32)
    pure { s with psk, pskLen := min b.length 32 }
  | 3, 2 => .len fun s b => do
    let name ← copyPrefix s.name b (min b.length CHANNEL_NAME_MAX)
    pure { s with name, nameLen := min b.length CHANNEL_NAME_MAX }
  | 4, 5 => .wordChecked fun s b => .ok { s with id := ofLe32 b, hasId := true }
  | _, _ => .skip

def channelSettingsWalker : Walker WireChannelSettings where
  arms := channelSettingsArms
  init := .default

theorem channelSettings_refines : channelSettingsWalker.Refines decodeChannelSettings := by
  refine .of_arms (fun _ => rfl) rfl (fun s field v hskip => ?_) fun s field wire v hwire => ?_
  · change (channelSettingsArms field v.wire).isSkip = true at hskip
    split <;> first | cases hskip | rfl
  change ((channelSettingsArms field wire).isSkip = true → _) → (channelSettingsArms field wire).value s v = _
  unfold channelSettingsArms
  split <;> intro hskipped
  · obtain ⟨b, rfl⟩ := Arm.len_of_wire hwire
    simp only [Arm.value, copyPrefix_min, ok_bind, orRefused_some, pure_reading]
  · obtain ⟨b, rfl⟩ := Arm.len_of_wire hwire
    simp only [Arm.value, copyPrefix_min, ok_bind, orRefused_some, pure_reading]
  · obtain ⟨b, rfl⟩ := Arm.fixed32_of_wire hwire
    rfl
  · exact Arm.value_skipped rfl (hskipped rfl)

/-- mirrors crates/mesh-routing/src/admin_codec.rs:716-748 -/
def channelArms : (field wire : Nat) → Arm WireChannel wire
  | 1, 0 => .int32 fun s v => .ok { s with index := v }
  | 2, 2 => .len fun s b => do
    let settings ← channelSettingsWalker.run b
    pure { s with settings, hasSettings := true }
  | 3, 0 => .varint fun s v => .ok { s with role := v }
  | _, _ => .skip

def channelWalker : Walker WireChannel where
  arms := channelArms
  init := .default

theorem channel_refines : channelWalker.Refines decodeChannel := by
  refine .of_arms (fun _ => rfl) rfl (fun s field v hskip => ?_) fun s field wire v hwire => ?_
  · change (channelArms field v.wire).isSkip = true at hskip
    split <;> first | cases hskip | rfl
  change ((channelArms field wire).isSkip = true → _) → (channelArms field wire).value s v = _
  unfold channelArms
  split <;> intro hskipped
  · obtain ⟨v, rfl⟩ := Arm.varint_of_wire hwire
    rfl
  · obtain ⟨b, rfl⟩ := Arm.len_of_wire hwire
    exact nested_eq (channelSettings_refines.run b) _
  · obtain ⟨v, rfl⟩ := Arm.varint_of_wire hwire
    exact Arm.value_varint (fun _ => rfl) v
  · exact Arm.value_skipped rfl (hskipped rfl)

/-- mirrors crates/mesh-routing/src/admin_codec.rs:1080-1109 -/
def deviceMetadataArms : (field wire : Nat) → Arm DeviceMetadata wire
  | 1, 2 => .len fun s b => do
    let firmwareVersion ← copyPrefix s.firmwareVersion b (min b.length 32)
    pure { s with firmwareVersion, firmwareVersionLen := min b.length 32 }
  | 3, 0 => .varint fun s v => .ok { s with hwModel := v }
  | _, _ => .skip

def deviceMetadataWalker : Walker DeviceMetadata where
  arms := deviceMetadataArms
  init := ⟨padded 32 [], 0, 0⟩

theorem deviceMetadata_refines : deviceMetadataWalker.Refines decodeDeviceMetadata := by
  refine .of_arms (fun _ => rfl) rfl (fun s field v hskip => ?_) fun s field wire v hwire => ?_
  · change (deviceMetadataArms field v.wire).isSkip = true at hskip
    split <;> first | cases hskip | rfl
  change ((deviceMetadataArms field wire).isSkip = true → _) → (deviceMetadataArms field wire).value s v = _
  unfold deviceMetadataArms
  split <;> intro hskipped
  · obtain ⟨b, rfl⟩ := Arm.len_of_wire hwire
    simp only [Arm.value, copyPrefix_min, ok_bind, orRefused_some, pure_reading]
  · obtain ⟨v, rfl⟩ := Arm.varint_of_wire hwire
    exact Arm.value_varint (fun _ => rfl) v
  · exact Arm.value_skipped rfl (hskipped rfl)

/-! ## Admin messages -/

/-- A field that is a request when its value is not 0. -/
def flagArm (request : AdminPayload) : Arm AdminMessage 0 :=
  .varint fun s v => .ok (if v != 0 then { s with payload := request } else s)

/-- `if let Some(identity) = decode_user(..)` -/
def userPayloadAt (s : AdminMessage) (b : Bytes) (request : NodeInfoIdentity → AdminPayload) :
    Reading AdminMessage :=
  match userAt b with
  | .ok identity => .ok { s with payload := request identity }
  | .error .refused => .ok s
  | .error stop => .error stop

/-- mirrors crates/mesh-routing/src/admin_codec.rs:884-1055 -/
def adminArms : (field wire : Nat) → Arm AdminMessage wire
  | 1, 0 => .varint fun s v => .ok { s with payload := .getChannelRequest v }
  | 2, 2 => .len fun s b => do
    let channel ← channelWalker.run b
    pure { s with payload := .getChannelResponse channel }
  | 3, 0 => flagArm .getOwnerRequest
  | 4, 2 => .len fun s b => userPayloadAt s b .getOwnerResponse
  | 5, 0 => .varint fun s v => .ok { s with payload := .getConfigRequest v }
  | 6, 2 => .len fun s b => do
    let config ← configWalker.run b
    pure { s with payload := .getConfigResponse config }
  | 7, 0 => .varint fun s v => .ok { s with payload := .getModuleConfigRequest v }
  | 8, 2 => .len fun s b => do
    let config ← moduleConfigWalker.run b
    pure { s with payload := .getModuleConfigResponse config }
  | 12, 0 => flagArm .getDeviceMetadataRequest
  | 13, 2 => .len fun s b => do
    let metadata ← deviceMetadataWalker.run b
    pure { s with payload := .getDeviceMetadataResponse metadata }
  | 32, 2 => .len fun s b => userPayloadAt s b .setOwner
  | 34, 2 => .len fun s b => do
    let config ← configWalker.run b
    pure { s with payload := .setConfig config }
  | 35, 2 => .len fun s b => do
    let config ← moduleConfigWalker.run b
    pure { s with payload := .setModuleConfig config }
  | 41, 2 => .len fun s b => do
    let position ← fixedPositionAdminWalker.run b
    pure { s with payload := .setFixedPosition position }
  | 42, 0 => flagArm .removeFixedPosition
  | 64, 0 => flagArm .beginEditSettings
  | 65, 0 => flagArm .commitEditSettings
  | 97, 0 => .int32 fun s v => .ok { s with payload := .rebootSeconds v }
  | 101, 2 => .len fun s b =>
    if b.length = SESSION_PASSKEY_LEN then do
      let sessionPasskey ← copyWhole SESSION_PASSKEY_LEN b
      pure { s with sessionPasskey, hasSessionPasskey := true }
    else .ok s
  | _, _ => .skip

def adminMessageWalker : Walker AdminMessage where
  arms := adminArms
  init := .default

theorem flagArm_value (s : AdminMessage) (v : UInt64) (request : AdminPayload) :
    (flagArm request).value s (.varint v) = orRefused (flagField s v request) :=
  Arm.value_varint (fun _ => rfl) v

theorem userPayloadAt_eq (s : AdminMessage) (b : Bytes)
    (request : NodeInfoIdentity → AdminPayload) :
    userPayloadAt s b request = orRefused (some (userPayload s b request)) := by
  unfold userPayloadAt userPayload
  rw [userAt_eq]
  cases decodeUser b <;> rfl

theorem adminMessage_refines : adminMessageWalker.Refines decodeAdminMessage := by
  refine .of_arms (fun _ => rfl) rfl (fun s field v hskip => ?_) fun s field wire v hwire => ?_
  · change (adminArms field v.wire).isSkip = true at hskip
    unfold adminField
    split <;> first | cases hskip | rfl
  change ((adminArms field wire).isSkip = true → _) → (adminArms field wire).value s v = _
  unfold adminArms
  split <;> intro hskipped
  · obtain ⟨v, rfl⟩ := Arm.varint_of_wire hwire
    exact Arm.value_varint (fun _ => rfl) v
  · obtain ⟨b, rfl⟩ := Arm.len_of_wire hwire
    exact nested_eq (channel_refines.run b) _
  · obtain ⟨v, rfl⟩ := Arm.varint_of_wire hwire
    exact flagArm_value s v _
  · obtain ⟨b, rfl⟩ := Arm.len_of_wire hwire
    exact userPayloadAt_eq s b _
  · obtain ⟨v, rfl⟩ := Arm.varint_of_wire hwire
    exact Arm.value_varint (fun _ => rfl) v
  · obtain ⟨b, rfl⟩ := Arm.len_of_wire hwire
    exact nested_eq (config_refines.run b) _
  · obtain ⟨v, rfl⟩ := Arm.varint_of_wire hwire
    exact Arm.value_varint (fun _ => rfl) v
  · obtain ⟨b, rfl⟩ := Arm.len_of_wire hwire
    exact nested_eq (moduleConfig_refines.run b) _
  · obtain ⟨v, rfl⟩ := Arm.varint_of_wire hwire
    exact flagArm_value s v _
  · obtain ⟨b, rfl⟩ := Arm.len_of_wire hwire
    exact nested_eq (deviceMetadata_refines.run b) _
  · obtain ⟨b, rfl⟩ := Arm.len_of_wire hwire
    exact userPayloadAt_eq s b _
  · obtain ⟨b, rfl⟩ := Arm.len_of_wire hwire
    exact nested_eq (config_refines.run b) _
  · obtain ⟨b, rfl⟩ := Arm.len_of_wire hwire
    exact nested_eq (moduleConfig_refines.run b) _
  · obtain ⟨b, rfl⟩ := Arm.len_of_wire hwire
    exact nested_eq (fixedPositionAdmin_refines.run b) _
  · obtain ⟨v, rfl⟩ := Arm.varint_of_wire hwire
    exact flagArm_value s v _
  · obtain ⟨v, rfl⟩ := Arm.varint_of_wire hwire
    exact flagArm_value s v _
  · obtain ⟨v, rfl⟩ := Arm.varint_of_wire hwire
    exact flagArm_value s v _
  · obtain ⟨v, rfl⟩ := Arm.varint_of_wire hwire
    rfl
  · obtain ⟨b, rfl⟩ := Arm.len_of_wire hwire
    simp only [Arm.value, adminField]
    split
    · rename_i h
      rw [copyWhole_self h]
      rfl
    · rfl
  · exact Arm.value_skipped rfl (hskipped rfl)

end Meshrustic.Admin
