import Meshrustic.Core.Protobuf
import Meshrustic.Store.Config

/-!
# Node identity on the wire (`mesh-routing/src/nodeinfo.rs`, `position.rs`)

The `User` message carries the owner names that an admin can set and the
role a node announces. Both name lengths are within their arrays: the
structure carries that, because every reader slices by them.
-/
namespace Meshrustic.Admin

open Meshrustic.Protobuf Meshrustic.Store

def DEVICE_ROLE_CLIENT : UInt32 := 0
def DEVICE_ROLE_CLIENT_MUTE : UInt32 := 1
def DEVICE_ROLE_ROUTER : UInt32 := 2
def DEVICE_ROLE_ROUTER_CLIENT : UInt32 := 3
def DEVICE_ROLE_REPEATER : UInt32 := 4
def DEVICE_ROLE_TRACKER : UInt32 := 5
def DEVICE_ROLE_SENSOR : UInt32 := 6
def DEVICE_ROLE_TAK : UInt32 := 7
def DEVICE_ROLE_CLIENT_HIDDEN : UInt32 := 8
def DEVICE_ROLE_LOST_AND_FOUND : UInt32 := 9
def DEVICE_ROLE_TAK_TRACKER : UInt32 := 10
def DEVICE_ROLE_ROUTER_LATE : UInt32 := 11
def HW_MODEL_NRF52_PROMICRO_DIY : UInt32 := 63
def NODEINFO_LONG_NAME_MAX : Nat := 40
def NODEINFO_SHORT_NAME_MAX : Nat := 5

/-- The thirteen roles of the public schema, CLIENT (0) to CLIENT_BASE (12).
mirrors crates/mesh-routing/src/nodeinfo.rs:24-45 -/
def isKnownDeviceRole (role : UInt32) : Bool := role ≤ 12

/-- mirrors crates/mesh-routing/src/nodeinfo.rs:47-53 -/
def sanitizeDeviceRole (role : UInt32) : UInt32 :=
  if isKnownDeviceRole role then role else DEVICE_ROLE_CLIENT

/-- `v[..bs.len()].copy_from_slice(bs)`: the bytes behind `bs` stay. -/
def patched {n : Nat} (v : Vector UInt8 n) (bs : Bytes) : Vector UInt8 n :=
  Vector.ofFn fun i => if i.val < bs.length then bs.getD i.val 0 else v[i]

/-- mirrors crates/mesh-routing/src/nodeinfo.rs:66-95 -/
structure NodeInfoAdvert where
  longName : Vector UInt8 NODEINFO_LONG_NAME_MAX
  longNameLen : Nat
  longNameLen_le : longNameLen ≤ NODEINFO_LONG_NAME_MAX
  shortName : Vector UInt8 NODEINFO_SHORT_NAME_MAX
  shortNameLen : Nat
  shortNameLen_le : shortNameLen ≤ NODEINFO_SHORT_NAME_MAX
  hwModel : UInt32
  role : UInt32
  isLicensed : Bool
  deriving DecidableEq, Repr

def NodeInfoAdvert.empty : NodeInfoAdvert where
  longName := padded _ []
  longNameLen := 0
  longNameLen_le := Nat.zero_le _
  shortName := padded _ []
  shortNameLen := 0
  shortNameLen_le := Nat.zero_le _
  hwModel := HW_MODEL_NRF52_PROMICRO_DIY
  role := DEVICE_ROLE_CLIENT
  isLicensed := false

/-- mirrors crates/mesh-routing/src/nodeinfo.rs:130-134 -/
structure NodeInfoIdentity where
  advert : NodeInfoAdvert
  publicKey : Vector UInt8 32
  deriving DecidableEq, Repr

/-- One field of `User`; the flag says that a short name was seen.
mirrors crates/mesh-routing/src/nodeinfo.rs:236-292 -/
def userField (s : NodeInfoIdentity × Bool) (field : Nat) (value : Value) :
    Option (NodeInfoIdentity × Bool) :=
  match field, value with
  | 2, .len b =>
    some ({ s.1 with advert := { s.1.advert with
      longName := patched s.1.advert.longName (b.take NODEINFO_LONG_NAME_MAX)
      longNameLen := min b.length NODEINFO_LONG_NAME_MAX
      longNameLen_le := Nat.min_le_right _ _ } }, s.2)
  | 3, .len b =>
    some ({ s.1 with advert := { s.1.advert with
      shortName := patched s.1.advert.shortName (b.take NODEINFO_SHORT_NAME_MAX)
      shortNameLen := min b.length NODEINFO_SHORT_NAME_MAX
      shortNameLen_le := Nat.min_le_right _ _ } }, true)
  | 5, .varint v =>
    (u32Of v).map fun v => ({ s.1 with advert := { s.1.advert with hwModel := v } }, s.2)
  | 6, .varint v =>
    (u32Of v).map fun (v : UInt32) =>
      ({ s.1 with advert := { s.1.advert with isLicensed := v != 0 } }, s.2)
  | 7, .varint v =>
    (u32Of v).map fun v => ({ s.1 with advert := { s.1.advert with role := v } }, s.2)
  | 8, .len b => some ({ s.1 with publicKey := patched s.1.publicKey (b.take 32) }, s.2)
  | _, _ => some s

/-- mirrors crates/mesh-routing/src/nodeinfo.rs:226-298 -/
def decodeUser (payload : Bytes) : Option NodeInfoIdentity :=
  match decodeWith userField (⟨.empty, padded 32 []⟩, false) payload with
  | some (identity, hasShort) => if hasShort then some identity else none
  | none => none

/-! ## Position intervals -/

def POSITION_BROADCAST_SECS_CLIENT : UInt32 := 3600
def POSITION_BROADCAST_SECS_ROUTER : UInt32 := 43200
def POSITION_BROADCAST_SECS_MAX : UInt32 := 2147483647

/-- mirrors crates/mesh-routing/src/position.rs:24-30 -/
def positionIntervalFloorSecs (role : UInt32) : UInt32 :=
  if role == DEVICE_ROLE_ROUTER || role == DEVICE_ROLE_ROUTER_LATE then
    POSITION_BROADCAST_SECS_ROUTER
  else POSITION_BROADCAST_SECS_CLIENT

/-- mirrors crates/mesh-routing/src/position.rs:32-43 -/
def coercePositionBroadcastSecs (configured role : UInt32) : UInt32 :=
  if configured == 0 then 0
  else
    let capped := min configured POSITION_BROADCAST_SECS_MAX
    let floor := positionIntervalFloorSecs role
    if capped < floor then floor else capped

end Meshrustic.Admin
