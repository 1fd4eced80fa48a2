import Meshrustic.Core.Table
import Meshrustic.Admin.NodeInfo

/-!
# Capability cache (`mesh-routing/src/capability.rs`, `sr_role.rs`)

What a node knows of its peers' routing behaviour: their role and whether
they publish their neighbour lists. The graph reads the cache without an age
limit (`status` is `status_at` with no clock).
-/
namespace Meshrustic.Graph

open Meshrustic.Admin

def MAX_CAPABILITY_RECORDS : Nat := 64

/-- mirrors crates/mesh-routing/src/sr_role.rs:7-15 -/
def roleIsMute (role : UInt32) : Bool :=
  role == DEVICE_ROLE_CLIENT_MUTE || role == DEVICE_ROLE_TRACKER ||
    role == DEVICE_ROLE_CLIENT_HIDDEN || role == DEVICE_ROLE_LOST_AND_FOUND

/-- mirrors crates/mesh-routing/src/capability.rs:12-19 -/
inductive CapabilityStatus where
  | unknown | legacy | passive | srActive
  deriving DecidableEq, Repr

/-- mirrors crates/mesh-routing/src/capability.rs:27-33 -/
structure CapabilityRecord where
  nodeId : UInt32
  status : CapabilityStatus
  role : UInt32
  lastUpdatedMs : UInt32
  deriving DecidableEq, Repr

/-- mirrors crates/mesh-routing/src/capability.rs:35-38 -/
structure CapabilityCache where
  records : Table MAX_CAPABILITY_RECORDS CapabilityRecord

namespace CapabilityCache

def empty : CapabilityCache := ⟨.empty⟩

/-- mirrors crates/mesh-routing/src/capability.rs:247-254 -/
def find (c : CapabilityCache) (nodeId : UInt32) : Option CapabilityRecord :=
  c.records.rows.find? fun r => r.nodeId == nodeId

/-- mirrors crates/mesh-routing/src/capability.rs:59-61 -/
def status (c : CapabilityCache) (nodeId : UInt32) : CapabilityStatus :=
  match c.find nodeId with
  | none => .unknown
  | some rec => rec.status

/-- mirrors crates/mesh-routing/src/capability.rs:88-90 -/
def role (c : CapabilityCache) (nodeId : UInt32) : Option UInt32 := (c.find nodeId).map (·.role)

/-- mirrors crates/mesh-routing/src/capability.rs:197-202 -/
def publishesTopology (c : CapabilityCache) (nodeId : UInt32) : Bool :=
  c.status nodeId == .srActive || c.status nodeId == .passive

/-- mirrors crates/mesh-routing/src/capability.rs:205-213 -/
def isImmediateRelayRouter (c : CapabilityCache) (nodeId : UInt32) : Bool :=
  !c.publishesTopology nodeId &&
    (c.role nodeId == some DEVICE_ROLE_ROUTER || c.role nodeId == some DEVICE_ROLE_REPEATER ||
      c.role nodeId == some DEVICE_ROLE_ROUTER_CLIENT)

/-- mirrors crates/mesh-routing/src/capability.rs:215-223 -/
def willNotCancelForUs (c : CapabilityCache) (nodeId : UInt32) : Bool :=
  c.status nodeId != .srActive &&
    (c.role nodeId == some DEVICE_ROLE_ROUTER || c.role nodeId == some DEVICE_ROLE_ROUTER_LATE)

/-- mirrors crates/mesh-routing/src/capability.rs:231-245 -/
def isLegacyRouter (c : CapabilityCache) (nodeId : UInt32) : Bool :=
  c.status nodeId == .legacy &&
    (c.role nodeId == some DEVICE_ROLE_ROUTER || c.role nodeId == some DEVICE_ROLE_ROUTER_LATE ||
      c.role nodeId == some DEVICE_ROLE_ROUTER_CLIENT || c.role nodeId == some DEVICE_ROLE_REPEATER)

/-- mirrors crates/mesh-routing/src/capability.rs:22-24 -/
def isSignalRouting (s : CapabilityStatus) : Bool := s == .srActive || s == .passive

/-- A full cache gives up its oldest record that is not a publisher's, and
takes no new one if there is none.
mirrors crates/mesh-routing/src/capability.rs:128-166 -/
def trackTopology (c : CapabilityCache) (nodeId : UInt32) (signalRoutingActive : Bool)
    (nowMs : UInt32) : CapabilityCache :=
  if nodeId == 0 then c
  else
    let status : CapabilityStatus := if signalRoutingActive then .srActive else .passive
    let new : CapabilityRecord := ⟨nodeId, status, 0, nowMs⟩
    match c.records.rows.findIdx? fun r => r.nodeId == nodeId with
    | some i =>
      match c.records.rows[i]? with
      | none => c
      | some r => ⟨c.records.set i { r with status := status, lastUpdatedMs := nowMs }⟩
    | none =>
      match c.records.push new with
      | some records => ⟨records⟩
      | none =>
        match c.records.lastMaxIdx (fun r => !isSignalRouting r.status)
            (fun r => nowMs - r.lastUpdatedMs) with
        | none => c
        | some i => ⟨c.records.set i new⟩

/-- mirrors crates/mesh-routing/src/capability.rs:274-280 -/
def capabilityFromRole (role : UInt32) : CapabilityStatus :=
  if roleIsMute role then .legacy else .unknown

/-- mirrors crates/mesh-routing/src/capability.rs:92-127 -/
def trackRole (c : CapabilityCache) (nodeId role nowMs : UInt32) : CapabilityCache :=
  if nodeId == 0 then c
  else
    let new : CapabilityRecord := ⟨nodeId, capabilityFromRole role, role, nowMs⟩
    match c.records.rows.findIdx? fun r => r.nodeId == nodeId with
    | some i =>
      match c.records.rows[i]? with
      | none => c
      | some r =>
        ⟨c.records.set i
          (if isSignalRouting r.status then { r with role := role }
          else { r with role := role, lastUpdatedMs := nowMs, status := capabilityFromRole role })⟩
    | none =>
      match c.records.push new with
      | some records => ⟨records⟩
      | none =>
        match c.records.lastMaxIdx (fun r => !isSignalRouting r.status)
            (fun r => nowMs - r.lastUpdatedMs) with
        | none => c
        | some i => ⟨c.records.set i new⟩

def CAPABILITY_TTL_MS : UInt32 := 2720000

/-- mirrors crates/mesh-routing/src/capability.rs:174-180 -/
def expired (nowMs myNode : UInt32) (rec : CapabilityRecord) : Bool :=
  rec.nodeId != myNode && decide (CAPABILITY_TTL_MS < nowMs - rec.lastUpdatedMs) &&
    decide (nowMs - rec.lastUpdatedMs < 0x80000000)

/-- The expired records from `i` on go, and the publishers among them are returned;
`fuel` is the number of records from `i` on.
mirrors crates/mesh-routing/src/capability.rs:171-195 -/
def pruneFrom (nowMs myNode : UInt32) :
    Nat → Nat → CapabilityCache → List UInt32 → CapabilityCache × List UInt32
  | 0, _, c, gone => (c, gone)
  | fuel + 1, i, c, gone =>
    match c.records.rows[i]? with
    | none => (c, gone)
    | some rec =>
      if expired nowMs myNode rec then
        pruneFrom nowMs myNode fuel i ⟨c.records.swapRemove i⟩
          (if isSignalRouting rec.status then gone ++ [rec.nodeId] else gone)
      else pruneFrom nowMs myNode fuel (i + 1) c gone

/-- mirrors crates/mesh-routing/src/capability.rs:167-196 -/
def prune (c : CapabilityCache) (nowMs myNode : UInt32) : CapabilityCache × List UInt32 :=
  pruneFrom nowMs myNode c.records.rows.length 0 c []

end CapabilityCache

end Meshrustic.Graph
