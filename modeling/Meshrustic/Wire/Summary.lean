import Meshrustic.Admin.NodeInfo
import Meshrustic.Core.ProtobufFields
import Meshrustic.RateLimit.Limiter
import Meshrustic.Store.Layout
import Meshrustic.Topology.Codec
import Meshrustic.Wire.Data
import Meshrustic.Wire.RouteDiscovery

/-!
# The receive log (`mesh-routing/src/rx_decode.rs`, `routing_ack.rs`, `position.rs`,
`telemetry.rs`)

What the log says of a packet is read by decoders of its own, next to those that act on
it. Each pair walks one message twice; where the steps of the walks are related, so is what
they return (`decodeWith_related`).

The two decoders of a routing message differ in the number of the field they read: the
reason of an error is field 3, the log reads field 1.

Results:
* `decodeErrorReason_rawBytes`: what a reader of one varint field makes of a message;
* `nodeinfo_agrees`, `position_agrees`, `traceroute_agrees`, `topology_agrees`: the log shows
  what the decoders read;
* `routing_agrees_iff`: of a routing message, where its last field 1 is its last field 3;
* `summaries_agree_iff`: all of them together.
-/
namespace Meshrustic.Wire

open Meshrustic.Protobuf
open Meshrustic.RateLimit
open Meshrustic.Admin (decodeUser userField NodeInfoIdentity NodeInfoAdvert patched
  NODEINFO_SHORT_NAME_MAX)
open Meshrustic.Store (padded ofLeI32)
open Meshrustic.Radio (F32)
open Meshrustic.Topology (PackedHeader PackedNeighbor decodePackedNeighbors
  MAX_NEIGHBORS_PER_PACKET)

def RX_TEXT_PREVIEW : Nat := 48
def RX_HEX_PREVIEW : Nat := 16

/-- mirrors crates/mesh-routing/src/rx_decode.rs:13-59 -/
inductive RxPayloadSummary where
  | encrypted
  | unknownPort (portnum : UInt32) (len : UInt16)
  | text (len : UInt16) (preview : Vector UInt8 RX_TEXT_PREVIEW) (previewLen : UInt8)
  | topology (neighbors topoV : UInt8) (srActive : Bool)
  | position (latitudeI longitudeI : Int32)
  | routing (errorReason : UInt32)
  | nodeInfo (shortName : Vector UInt8 4) (shortLen : UInt8) (role : UInt32)
  | traceroute (route snr routeBack snrBack : UInt8)
  | deviceTelemetry (batteryLevel voltageMv : UInt32)
  | telemetryWithoutMetrics (len : UInt16)
  | raw (portnum : UInt32) (len : UInt16) (hex : Vector UInt8 RX_HEX_PREVIEW) (hexLen : UInt8)
  deriving DecidableEq

/-! ## The decoders that act -/

/-- The last varint of a field, as a message of one such field is read. -/
def errorReasonField (number : Nat) (reason : Option UInt32) (field : Nat) (value : Value) :
    Option (Option UInt32) :=
  match value with
  | .varint v => if field = number then (u32Of v).map some else some reason
  | _ => some reason

def decodeErrorReason (number : Nat) (payload : Bytes) : Option (Option UInt32) :=
  decodeWith (errorReasonField number) none payload

/-- mirrors crates/mesh-routing/src/routing_ack.rs:85-105 -/
def decodeRoutingPayload (payload : Bytes) : Option (Option UInt32) := decodeErrorReason 3 payload

/-- mirrors crates/mesh-routing/src/routing_ack.rs:78-83 -/
def encodeRoutingError (reason : UInt32) : Bytes :=
  let out : Buffer 16 := pushByte .empty (UInt8.ofNat (3 <<< 3))
  (pushVarint out reason.toNat).rows

/-- mirrors crates/mesh-routing/src/position.rs:121-129 -/
structure DecodedFixedPosition where
  latitudeI : Int32 := 0
  longitudeI : Int32 := 0
  hasLatitudeI : Bool := false
  hasLongitudeI : Bool := false
  locationSource : UInt32 := 0
  precisionBits : UInt32 := 0
  deriving DecidableEq

/-- mirrors crates/mesh-routing/src/position.rs:135-166 -/
def fixedPositionField (out : DecodedFixedPosition) (field : Nat) (value : Value) :
    Option DecodedFixedPosition :=
  match field, value with
  | 1, .fixed32 b => some { out with latitudeI := ofLeI32 b, hasLatitudeI := true }
  | 2, .fixed32 b => some { out with longitudeI := ofLeI32 b, hasLongitudeI := true }
  | 5, .varint v => (u32Of v).map fun v => { out with locationSource := v }
  | 23, .varint v => (u32Of v).map fun v => { out with precisionBits := v }
  | _, _ => some out

/-- mirrors crates/mesh-routing/src/position.rs:131-169 -/
def decodeFixedPosition (payload : Bytes) : Option DecodedFixedPosition :=
  decodeWith fixedPositionField {} payload

/-- The first neighbour list of a message ends its walk.
mirrors crates/mesh-routing/src/topology.rs:477-494 -/
def extractLoop : Nat → Bytes → Option (PackedHeader × List PackedNeighbor)
  | 0, _ => none
  | fuel + 1, payload =>
    match readField payload with
    | none => none
    | some (field, value, rest) =>
      match field, value with
      | 3, .len b => decodePackedNeighbors b MAX_NEIGHBORS_PER_PACKET
      | _, _ => extractLoop fuel rest

/-- mirrors crates/mesh-routing/src/topology.rs:473-496 -/
def extractPackedNeighbors (payload : Bytes) : Option (PackedHeader × List PackedNeighbor) :=
  extractLoop payload.length payload

/-- mirrors crates/mesh-routing/src/telemetry.rs:286-296 -/
def extractMetricsField (metrics : Option Bytes) (field : Nat) (value : Value) :
    Option (Option Bytes) :=
  match field, value with
  | 2, .len b => some (some b)
  | _, _ => some metrics

/-- mirrors crates/mesh-routing/src/telemetry.rs:283-298 -/
def extractDeviceMetrics (payload : Bytes) : Option Bytes :=
  (decodeWith extractMetricsField none payload).join

/-- mirrors crates/mesh-routing/src/telemetry.rs:196-202 -/
structure DecodedDeviceMetrics where
  batteryLevel : Option UInt32 := none
  voltageV : Option F32 := none
  channelUtilization : Option F32 := none
  airUtilTx : Option F32 := none
  uptimeSeconds : Option UInt32 := none
  deriving DecidableEq

/-- mirrors crates/mesh-routing/src/telemetry.rs:215-244 -/
def deviceMetricsField (out : DecodedDeviceMetrics) (field : Nat) (value : Value) :
    Option DecodedDeviceMetrics :=
  match field, value with
  | 1, .varint v => (u32Of v).map fun v => { out with batteryLevel := some v }
  | 2, .fixed32 b => some { out with voltageV := some ⟨ofLe32 b⟩ }
  | 3, .fixed32 b => some { out with channelUtilization := some ⟨ofLe32 b⟩ }
  | 4, .fixed32 b => some { out with airUtilTx := some ⟨ofLe32 b⟩ }
  | 5, .varint v => (u32Of v).map fun v => { out with uptimeSeconds := some v }
  | _, _ => some out

/-- mirrors crates/mesh-routing/src/telemetry.rs:204-247 -/
def decodeDeviceMetrics (payload : Bytes) : Option DecodedDeviceMetrics :=
  decodeWith deviceMetricsField {} payload

/-- mirrors crates/mesh-routing/src/telemetry.rs:258-281 -/
def telemetryWithoutDeviceMetrics (payload : Bytes) : Bool :=
  (decodeWith (fun hasTime field value => match field, value with
    | 2, .len _ => none
    | 1, _ => some true
    | _, _ => some hasTime) false payload).getD false

/-! ## The log -/

/-- `payload.len().min(u16::MAX as usize) as u16` -/
def shownLen (payload : Bytes) : UInt16 := UInt16.ofNat (min payload.length 65535)

/-- `len().min(u8::MAX as usize) as u8` -/
def shownCount (n : Nat) : UInt8 := UInt8.ofNat (min n 255)

def isPrintable (byte : UInt8) : Bool :=
  (0x20 ≤ byte && byte ≤ 0x7E) || byte == 10 || byte == 13 || byte == 9

/-- mirrors crates/mesh-routing/src/rx_decode.rs:158-167 -/
def textPreview (payload : Bytes) : Vector UInt8 RX_TEXT_PREVIEW × UInt8 :=
  let shown := (payload.take RX_TEXT_PREVIEW).map fun byte => if isPrintable byte then byte else 46
  (padded _ shown, UInt8.ofNat shown.length)

/-- mirrors crates/mesh-routing/src/rx_decode.rs:169-174 -/
def hexPreview (payload : Bytes) : Vector UInt8 RX_HEX_PREVIEW :=
  padded _ (payload.take RX_HEX_PREVIEW)

def rawSummary (portnum : UInt32) (payload : Bytes) : RxPayloadSummary :=
  .raw portnum (shownLen payload) (hexPreview payload)
    (UInt8.ofNat (min payload.length RX_HEX_PREVIEW))

/-- mirrors crates/mesh-routing/src/rx_decode.rs:180-213 -/
def positionField (s : Option Int32 × Option Int32) (field : Nat) (value : Value) :
    Option (Option Int32 × Option Int32) :=
  match field, value with
  | 1, .fixed32 b => some (some (ofLeI32 b), s.2)
  | 2, .fixed32 b => some (s.1, some (ofLeI32 b))
  | _, _ => some s

/-- mirrors crates/mesh-routing/src/rx_decode.rs:176-218 -/
def decodePosition (payload : Bytes) : Option RxPayloadSummary :=
  match decodeWith positionField (none, none) payload with
  | some (some latitudeI, some longitudeI) => some (.position latitudeI longitudeI)
  | _ => none

/-- What the log reads of a `User`. -/
structure NodeInfoLine where
  shortName : Vector UInt8 4
  shortLen : UInt8
  role : UInt32

/-- mirrors crates/mesh-routing/src/rx_decode.rs:225-254 -/
def nodeInfoField (s : NodeInfoLine) (field : Nat) (value : Value) : Option NodeInfoLine :=
  match field, value with
  | 3, .len b =>
    some { s with
      shortName := patched s.shortName (b.take 4), shortLen := UInt8.ofNat (min b.length 4) }
  | 7, .varint v => (u32Of v).map fun v => { s with role := v }
  | _, _ => some s

/-- mirrors crates/mesh-routing/src/rx_decode.rs:220-260 -/
def decodeNodeinfo (payload : Bytes) : Option RxPayloadSummary :=
  (decodeWith nodeInfoField ⟨padded 4 [], 0, 0⟩ payload).map fun s =>
    .nodeInfo s.shortName s.shortLen s.role

/-- mirrors crates/mesh-routing/src/rx_decode.rs:262-270 -/
def decodeTraceroute (payload : Bytes) : Option RxPayloadSummary :=
  (decodeRouteDiscovery payload).map fun rd =>
    .traceroute (shownCount rd.route.rows.length) (shownCount rd.snrTowards.rows.length)
      (shownCount rd.routeBack.rows.length) (shownCount rd.snrBack.rows.length)

/-- `toMv` is `(volts * 1000.0) as u32`.
mirrors crates/mesh-routing/src/rx_decode.rs:272-282 -/
def decodeDeviceTelemetry (toMv : F32 → UInt32) (payload : Bytes) : Option RxPayloadSummary :=
  match (extractDeviceMetrics payload).bind decodeDeviceMetrics with
  | none => none
  | some dm =>
    if dm.voltageV.isNone && dm.batteryLevel.isNone && dm.uptimeSeconds.isNone then none
    else some (.deviceTelemetry (dm.batteryLevel.getD 0) (toMv (dm.voltageV.getD ⟨0⟩)))

/-- mirrors crates/mesh-routing/src/rx_decode.rs:284-307 -/
def decodeRouting (payload : Bytes) : Option RxPayloadSummary :=
  (decodeErrorReason 1 payload).join.map .routing

/-- mirrors crates/mesh-routing/src/rx_decode.rs:83-156 -/
def summarizeDecrypted (toMv : F32 → UInt32) (portnum : UInt32) (payload : Bytes) :
    RxPayloadSummary :=
  let raw := rawSummary portnum payload
  if portnum = TEXT_MESSAGE_APP ∨ portnum = TEXT_MESSAGE_COMPRESSED_APP then
    let (preview, previewLen) := textPreview payload
    .text (shownLen payload) preview previewLen
  else if portnum = POSITION_APP then (decodePosition payload).getD raw
  else if portnum = ROUTING_APP then (decodeRouting payload).getD raw
  else if portnum = NODEINFO_APP then (decodeNodeinfo payload).getD raw
  else if portnum = TRACEROUTE_APP then (decodeTraceroute payload).getD raw
  else if portnum = TELEMETRY_APP then
    (decodeDeviceTelemetry toMv payload).getD
      (if telemetryWithoutDeviceMetrics payload then .telemetryWithoutMetrics (shownLen payload)
      else raw)
  else if portnum = SIGNAL_ROUTING_APP then
    match extractPackedNeighbors payload with
    | some (hdr, neighbors) =>
      .topology (shownCount neighbors.length) hdr.topologyVersion hdr.signalRoutingActive
    | none => if payload.isEmpty then .topology 0 0 false else raw
  else raw

/-! ## Routing errors -/

/-- The varints that a message has under a number. -/
def varints (number : Nat) (fs : List Field) : List UInt64 :=
  fs.filterMap fun f => match f.2 with
    | .varint v => if f.1 = number then some v else none
    | _ => none

/-- `u32::try_from` takes it. -/
def FitsU32 (v : UInt64) : Prop := v.toNat < 4294967296

theorem u32Of_eq_some {v : UInt64} {w : UInt32} :
    u32Of v = some w ↔ FitsU32 v ∧ v.toUInt32 = w := by
  unfold u32Of FitsU32
  by_cases h : v.toNat < 4294967296
  · simp [h]
  · simp [h]

theorem FitsU32.inj {v w : UInt64} (hv : FitsU32 v) (hw : FitsU32 w)
    (h : v.toUInt32 = w.toUInt32) : v = w := by
  apply UInt64.toNat_inj.mp
  have hnat := congrArg UInt32.toNat h
  rw [UInt64.toNat_toUInt32, UInt64.toNat_toUInt32] at hnat
  unfold FitsU32 at hv hw
  omega

/-- The walk of a reader of one varint field keeps the last of them, if all fit. -/
theorem visit_errorReason (number : Nat) (fs : List Field) (reason found : Option UInt32) :
    Protobuf.visit (errorReasonField number) reason fs = some found ↔
      (∀ v ∈ varints number fs, FitsU32 v) ∧
        found = ((varints number fs).getLast?.map UInt64.toUInt32).or reason := by
  induction fs generalizing reason with
  | nil => simp [varints, eq_comm]
  | cons f fs ih =>
    obtain ⟨field, value⟩ := f
    by_cases hread : ∃ v, value = .varint v ∧ field = number
    · obtain ⟨v, rfl, rfl⟩ := hread
      have hvarints : varints field ((field, .varint v) :: fs) = v :: varints field fs := by
        simp [varints]
      have hlast : ((varints field fs).getLast?.map UInt64.toUInt32).or (some v.toUInt32) =
          ((v :: varints field fs).getLast?.map UInt64.toUInt32).or reason := by
        rw [List.getLast?_cons]
        cases (varints field fs).getLast? <;> rfl
      simp only [visit_cons, errorReasonField, if_true, Option.bind_eq_some_iff,
        Option.map_eq_some_iff, u32Of_eq_some, hvarints, List.forall_mem_cons, ← hlast]
      constructor
      · rintro ⟨_, ⟨_, ⟨hfits, rfl⟩, rfl⟩, hrest⟩
        obtain ⟨hall, hfound⟩ := (ih _).mp hrest
        exact ⟨⟨hfits, hall⟩, hfound⟩
      · rintro ⟨⟨hfits, hall⟩, hfound⟩
        exact ⟨_, ⟨_, ⟨hfits, rfl⟩, rfl⟩, (ih _).mpr ⟨hall, hfound⟩⟩
    · have hvarints : varints number ((field, value) :: fs) = varints number fs := by
        apply List.filterMap_cons_none
        cases value with
        | varint v => exact if_neg fun h => hread ⟨v, rfl, h⟩
        | _ => rfl
      have hstep : errorReasonField number reason field value = some reason := by
        cases value with
        | varint v => exact if_neg fun h => hread ⟨v, rfl, h⟩
        | _ => rfl
      rw [visit_cons, hstep, hvarints]
      exact ih reason

/-- What a reader of one varint field makes of a message. -/
theorem decodeErrorReason_rawBytes {number : Nat} {fs : List RawField} {found : Option UInt32} :
    decodeErrorReason number (rawBytes fs) = some found ↔
      (∀ v ∈ varints number (fs.map (·.field)), FitsU32 v) ∧
        found = (varints number (fs.map (·.field))).getLast?.map UInt64.toUInt32 := by
  rw [decodeErrorReason, decodeWith_all, visit_errorReason, Option.or_none]

/-- Where the last varint of field 1 is the last of field 3, whenever a reader of field 3 finds
one. -/
def RoutingFieldsAgree (payload : Bytes) : Prop :=
  ∀ fs : List RawField, rawBytes fs = payload →
    let reasons := varints 3 (fs.map (·.field))
    let logged := varints 1 (fs.map (·.field))
    (∀ v ∈ reasons, FitsU32 v) → reasons ≠ [] →
      (∀ v ∈ logged, FitsU32 v) ∧ logged.getLast? = reasons.getLast?

section
variable (toMv : F32 → UInt32)

theorem summarize_routing (payload : Bytes) (reason : UInt32) :
    summarizeDecrypted toMv ROUTING_APP payload = .routing reason ↔
      decodeErrorReason 1 payload = some (some reason) := by
  have hport : summarizeDecrypted toMv ROUTING_APP payload =
      (decodeRouting payload).getD (rawSummary ROUTING_APP payload) := rfl
  rw [hport, decodeRouting]
  cases decodeErrorReason 1 payload with
  | none => simp [rawSummary]
  | some found => cases found <;> simp [rawSummary]

/-- The log shows the reason of a routing message where the two fields agree. -/
theorem routing_agrees_iff (payload : Bytes) :
    (∀ reason, decodeRoutingPayload payload = some (some reason) →
      summarizeDecrypted toMv ROUTING_APP payload = .routing reason) ↔
    RoutingFieldsAgree payload := by
  simp only [summarize_routing]
  constructor
  · rintro h fs rfl reasons logged hfits hne
    have hlast : reasons.getLast? = some (reasons.getLast hne) := List.getLast?_eq_some_getLast hne
    have hread : decodeRoutingPayload (rawBytes fs) =
        some (some (reasons.getLast hne).toUInt32) := by
      apply decodeErrorReason_rawBytes.mpr
      refine ⟨hfits, ?_⟩
      change _ = reasons.getLast?.map _
      rw [hlast]
      rfl
    obtain ⟨hlogged, hshown⟩ := decodeErrorReason_rawBytes.mp (h _ hread)
    refine ⟨hlogged, ?_⟩
    obtain ⟨v, hv, hsame⟩ := Option.map_eq_some_iff.mp hshown.symm
    have hvfits := hlogged v (List.mem_of_getLast? hv)
    have hwfits := hfits _ (List.getLast_mem hne)
    rw [hlast]
    exact hv.trans (congrArg some (hvfits.inj hwfits hsame))
  · intro h reason hread
    obtain ⟨fs, rfl, -⟩ := split_of_decode hread
    obtain ⟨hfits, hlast⟩ := decodeErrorReason_rawBytes.mp hread
    have hne : varints 3 (fs.map (·.field)) ≠ [] := by
      intro hnil
      rw [hnil] at hlast
      cases hlast
    obtain ⟨hlogged, heq⟩ := h fs rfl hfits hne
    exact decodeErrorReason_rawBytes.mpr ⟨hlogged, by rw [heq]; exact hlast⟩

/-- What reports an error is one field, of number 3. -/
theorem encodeRoutingError_eq (reason : UInt32) :
    encodeRoutingError reason = fieldBytes (u32Field 3 reason) := by
  have hwrites : Writes 16 (pushVarintField 3 reason) [u32Field 3 reason] :=
    writes_varint 3 (by decide) reason
  have hmessage : messageBytes [u32Field 3 reason] = fieldBytes (u32Field 3 reason) :=
    List.append_nil _
  rw [← hmessage]
  apply hwrites.rows
  have hlength : (fieldBytes (u32Field 3 reason)).length = 1 + _ :=
    length_fieldBytes (by decide) (Value.varint reason.toUInt64)
  have hvarint := length_varintBytes_le reason.toUInt64.toNat
  rw [hmessage, hlength]
  change 1 + (varintBytes _).length ≤ 16
  omega

/-- No report of an error meets the condition: the log has no field 1 to read. -/
theorem encodeRoutingError_disagrees (reason : UInt32) :
    ¬RoutingFieldsAgree (encodeRoutingError reason) := by
  intro h
  have hvalid : Valid (u32Field 3 reason) := valid_iff.mpr ⟨by decide, by decide, trivial⟩
  have hfits : FitsU32 reason.toUInt64 := by
    unfold FitsU32
    rw [UInt32.toNat_toUInt64]
    exact reason.toNat_lt
  obtain ⟨-, hlast⟩ := h [RawField.ofField _ hvalid]
    (by rw [encodeRoutingError_eq]; exact List.append_nil _)
    (by intro v hv; cases List.mem_singleton.mp hv; exact hfits) (List.cons_ne_nil _ _)
  cases hlast

/-! ## Positions and identities -/

/-- What the log reads of a position is what the decoder has. -/
def SamePosition (pos : DecodedFixedPosition) (line : Option Int32 × Option Int32) : Prop :=
  (pos.hasLatitudeI = true → line.1 = some pos.latitudeI) ∧
    (pos.hasLongitudeI = true → line.2 = some pos.longitudeI)

theorem samePosition_field (pos : DecodedFixedPosition) (line : Option Int32 × Option Int32)
    (field : Nat) (value : Value) (pos' : DecodedFixedPosition) (h : SamePosition pos line)
    (hstep : fixedPositionField pos field value = some pos') :
    ∃ line', positionField line field value = some line' ∧ SamePosition pos' line' := by
  unfold fixedPositionField at hstep
  split at hstep
  · cases hstep
    exact ⟨_, rfl, fun _ => rfl, h.2⟩
  · cases hstep
    exact ⟨_, rfl, h.1, fun _ => rfl⟩
  · obtain ⟨v, -, rfl⟩ := Option.map_eq_some_iff.mp hstep
    exact ⟨_, rfl, h⟩
  · obtain ⟨v, -, rfl⟩ := Option.map_eq_some_iff.mp hstep
    exact ⟨_, rfl, h⟩
  · cases hstep
    refine ⟨line, ?_, h⟩
    unfold positionField
    split <;> simp_all

theorem position_agrees {payload : Bytes} {pos : DecodedFixedPosition}
    (h : decodeFixedPosition payload = some pos) (hlat : pos.hasLatitudeI = true)
    (hlon : pos.hasLongitudeI = true) :
    summarizeDecrypted toMv POSITION_APP payload = .position pos.latitudeI pos.longitudeI := by
  have hstart : SamePosition {} (none, none) := ⟨fun h => (by cases h), fun h => (by cases h)⟩
  obtain ⟨⟨lat, lon⟩, hline, hsame⟩ := decodeWith_related samePosition_field hstart h
  have hdecode : decodePosition payload = some (.position pos.latitudeI pos.longitudeI) := by
    have hlat' := hsame.1 hlat
    have hlon' := hsame.2 hlon
    simp only at hlat' hlon'
    rw [decodePosition, hline, hlat', hlon']
  have hport : summarizeDecrypted toMv POSITION_APP payload =
      (decodePosition payload).getD (rawSummary POSITION_APP payload) := rfl
  rw [hport, hdecode]
  rfl

theorem getD_patched {n i : Nat} (v : Vector UInt8 n) (bs : Bytes) (h : i < n) :
    (patched v bs).toList.getD i 0 = if i < bs.length then bs.getD i 0 else v.toList.getD i 0 := by
  simp [patched, List.getD_eq_getElem?_getD, h]

theorem getD_take {i n : Nat} {bs : Bytes} (h : i < n) : (bs.take n).getD i 0 = bs.getD i 0 := by
  simp [List.getD_eq_getElem?_getD, List.getElem?_take_of_lt h]

theorem take_eq_of_getD {a b : Bytes} {n : Nat} (ha : n ≤ a.length) (hb : n ≤ b.length)
    (h : ∀ i < n, a.getD i 0 = b.getD i 0) : a.take n = b.take n := by
  apply List.ext_getElem
  · simp [ha, hb]
  · intro i hi _
    have hin : i < n := by
      rw [List.length_take] at hi
      omega
    have hsame := h i hin
    simp only [List.getD_eq_getElem?_getD] at hsame
    rw [List.getElem?_eq_getElem (by omega), List.getElem?_eq_getElem (by omega)] at hsame
    rw [List.getElem_take, List.getElem_take]
    exact hsame

/-- What the log reads of a `User` is what the decoder has of it. -/
structure SameUser (user : NodeInfoIdentity × Bool) (line : NodeInfoLine) : Prop where
  role : line.role = user.1.advert.role
  length : line.shortLen = UInt8.ofNat (min user.1.advert.shortNameLen 4)
  name : ∀ i < 4, line.shortName.toList.getD i 0 = user.1.advert.shortName.toList.getD i 0

theorem sameUser_field (user : NodeInfoIdentity × Bool) (line : NodeInfoLine) (field : Nat)
    (value : Value) (user' : NodeInfoIdentity × Bool) (h : SameUser user line)
    (hstep : userField user field value = some user') :
    ∃ line', nodeInfoField line field value = some line' ∧ SameUser user' line' := by
  unfold userField at hstep
  split at hstep
  · obtain rfl := Option.some.inj hstep
    exact ⟨line, rfl, h.role, h.length, h.name⟩
  · rename_i b
    obtain rfl := Option.some.inj hstep
    refine ⟨_, rfl, h.role, ?_, ?_⟩
    · dsimp only
      rw [Nat.min_assoc]
      rfl
    · intro i hi
      have hi5 : i < NODEINFO_SHORT_NAME_MAX := Nat.lt_trans hi (by decide)
      dsimp only
      rw [getD_patched _ _ hi, getD_patched _ _ hi5, getD_take hi, getD_take hi5, h.name i hi,
        List.length_take, List.length_take]
      by_cases hb : i < b.length
      · rw [if_pos (by omega), if_pos (by omega)]
      · rw [if_neg (by omega), if_neg (by omega)]
  · obtain ⟨v, -, rfl⟩ := Option.map_eq_some_iff.mp hstep
    exact ⟨line, rfl, h.role, h.length, h.name⟩
  · obtain ⟨v, -, rfl⟩ := Option.map_eq_some_iff.mp hstep
    exact ⟨line, rfl, h.role, h.length, h.name⟩
  · obtain ⟨v, hv, rfl⟩ := Option.map_eq_some_iff.mp hstep
    exact ⟨{ line with role := v }, by rw [nodeInfoField, hv]; rfl, rfl, h.length, h.name⟩
  · obtain rfl := Option.some.inj hstep
    exact ⟨line, rfl, h.role, h.length, h.name⟩
  · obtain rfl := Option.some.inj hstep
    refine ⟨line, ?_, h⟩
    unfold nodeInfoField
    split <;> simp_all

/-- The name in the log is the name of the identity, cut to four bytes. -/
theorem nodeinfo_agrees {payload : Bytes} {user : NodeInfoIdentity}
    (h : decodeUser payload = some user) :
    ∃ shortName shortLen,
      summarizeDecrypted toMv NODEINFO_APP payload =
        .nodeInfo shortName shortLen user.advert.role ∧
      shortName.toList.take shortLen.toNat =
        (user.advert.shortName.toList.take user.advert.shortNameLen).take 4 := by
  unfold decodeUser at h
  split at h
  · rename_i identity hasShort hwalk
    split at h
    · cases h
      have hstart : SameUser (⟨.empty, padded 32 []⟩, false) ⟨padded 4 [], 0, 0⟩ :=
        ⟨rfl, rfl, by decide⟩
      obtain ⟨line, hline, hsame⟩ := decodeWith_related sameUser_field hstart hwalk
      have hport : summarizeDecrypted toMv NODEINFO_APP payload =
          (decodeNodeinfo payload).getD (rawSummary NODEINFO_APP payload) := rfl
      refine ⟨line.shortName, line.shortLen, ?_, ?_⟩
      · rw [hport, decodeNodeinfo, hline, ← hsame.role]
        rfl
      · have hlen : line.shortLen.toNat = min 4 user.advert.shortNameLen := by
          rw [hsame.length, UInt8.toNat_ofNat']
          dsimp only
          omega
        rw [hlen, List.take_take]
        apply take_eq_of_getD
        · rw [Vector.length_toList]
          omega
        · rw [Vector.length_toList]
          exact Nat.le_trans (Nat.min_le_left _ _) (by decide)
        · intro i hi
          exact hsame.name i (by omega)
    · cases h
  · cases h

theorem shownCount_toNat {n : Nat} (h : n ≤ 255) : (shownCount n).toNat = n := by
  rw [shownCount, UInt8.toNat_ofNat', Nat.min_eq_left h]
  omega

theorem traceroute_agrees {payload : Bytes} {rd : RouteDiscovery}
    (h : decodeRouteDiscovery payload = some rd) :
    ∃ route snr routeBack snrBack : UInt8,
      summarizeDecrypted toMv TRACEROUTE_APP payload = .traceroute route snr routeBack snrBack ∧
      route.toNat = rd.route.rows.length ∧ snr.toNat = rd.snrTowards.rows.length ∧
      routeBack.toNat = rd.routeBack.rows.length ∧ snrBack.toNat = rd.snrBack.rows.length := by
  have hport : summarizeDecrypted toMv TRACEROUTE_APP payload =
      (decodeTraceroute payload).getD (rawSummary TRACEROUTE_APP payload) := rfl
  have hcount {α : Type} (list : Table ROUTE_SIZE α) :
      (shownCount list.rows.length).toNat = list.rows.length :=
    shownCount_toNat (Nat.le_trans list.le (by decide))
  refine ⟨_, _, _, _, ?_, hcount rd.route, hcount rd.snrTowards, hcount rd.routeBack,
    hcount rd.snrBack⟩
  rw [hport, decodeTraceroute, h]
  rfl

theorem length_decodePackedNeighbors {data : Bytes} {maxEntries : Nat} {hdr : PackedHeader}
    {neighbors : List PackedNeighbor}
    (h : decodePackedNeighbors data maxEntries = some (hdr, neighbors)) :
    neighbors.length ≤ 32 := by
  unfold decodePackedNeighbors at h
  split at h
  · cases h
  · dsimp only at h
    split at h
    · cases h
    split at h
    · cases h
    split at h
    · cases h
    split at h
    · cases h
    · rename_i hcount
      simp only [Option.some.injEq, Prod.mk.injEq] at h
      rw [← h.2, List.length_map]
      refine Nat.le_trans (List.takeWhile_prefix _).length_le ?_
      rw [List.length_range]
      omega

theorem length_extractLoop {fuel : Nat} {payload : Bytes} {hdr : PackedHeader}
    {neighbors : List PackedNeighbor} (h : extractLoop fuel payload = some (hdr, neighbors)) :
    neighbors.length ≤ 32 := by
  induction fuel generalizing payload with
  | zero => cases h
  | succ fuel ih =>
    rw [extractLoop] at h
    split at h
    · cases h
    · split at h
      · exact length_decodePackedNeighbors h
      · exact ih h

theorem topology_agrees {payload : Bytes} {hdr : PackedHeader} {neighbors : List PackedNeighbor}
    (h : extractPackedNeighbors payload = some (hdr, neighbors)) :
    ∃ shown : UInt8,
      summarizeDecrypted toMv SIGNAL_ROUTING_APP payload =
        .topology shown hdr.topologyVersion hdr.signalRoutingActive ∧
      shown.toNat = neighbors.length := by
  refine ⟨_, ?_, shownCount_toNat (Nat.le_trans (length_extractLoop h) (by decide))⟩
  have hport : summarizeDecrypted toMv SIGNAL_ROUTING_APP payload =
      match extractPackedNeighbors payload with
      | some (hdr, neighbors) =>
        .topology (shownCount neighbors.length) hdr.topologyVersion hdr.signalRoutingActive
      | none => if payload.isEmpty then .topology 0 0 false
        else rawSummary SIGNAL_ROUTING_APP payload := rfl
  rw [hport, h]

/-! ## The log and the decoders -/

/-- The log says of a payload what the decoders read that act on it. -/
structure SummariesAgree (payload : Bytes) : Prop where
  routing : ∀ reason, decodeRoutingPayload payload = some (some reason) →
    summarizeDecrypted toMv ROUTING_APP payload = .routing reason
  nodeinfo : ∀ user, decodeUser payload = some user → ∃ shortName shortLen,
    summarizeDecrypted toMv NODEINFO_APP payload =
      .nodeInfo shortName shortLen user.advert.role ∧
    shortName.toList.take shortLen.toNat =
      (user.advert.shortName.toList.take user.advert.shortNameLen).take 4
  position : ∀ pos, decodeFixedPosition payload = some pos → pos.hasLatitudeI = true →
    pos.hasLongitudeI = true →
    summarizeDecrypted toMv POSITION_APP payload = .position pos.latitudeI pos.longitudeI
  traceroute : ∀ rd, decodeRouteDiscovery payload = some rd →
    ∃ route snr routeBack snrBack : UInt8,
      summarizeDecrypted toMv TRACEROUTE_APP payload = .traceroute route snr routeBack snrBack ∧
      route.toNat = rd.route.rows.length ∧ snr.toNat = rd.snrTowards.rows.length ∧
      routeBack.toNat = rd.routeBack.rows.length ∧ snrBack.toNat = rd.snrBack.rows.length
  topology : ∀ hdr neighbors, extractPackedNeighbors payload = some (hdr, neighbors) →
    ∃ shown : UInt8,
      summarizeDecrypted toMv SIGNAL_ROUTING_APP payload =
        .topology shown hdr.topologyVersion hdr.signalRoutingActive ∧
      shown.toNat = neighbors.length

/-- The log agrees with the decoders exactly where the two fields of a routing message do, and so
on no report of an error. -/
theorem summaries_agree_iff :
    (∀ payload, SummariesAgree toMv payload ↔ RoutingFieldsAgree payload) ∧
      ∀ reason, ¬SummariesAgree toMv (encodeRoutingError reason) := by
  have hiff (payload : Bytes) : SummariesAgree toMv payload ↔ RoutingFieldsAgree payload := by
    constructor
    · intro h
      exact (routing_agrees_iff toMv payload).mp h.routing
    · intro h
      exact {
        routing := (routing_agrees_iff toMv payload).mpr h
        nodeinfo := fun _ => nodeinfo_agrees toMv
        position := fun _ => position_agrees toMv
        traceroute := fun _ => traceroute_agrees toMv
        topology := fun _ _ => topology_agrees toMv }
  refine ⟨hiff, fun reason h => ?_⟩
  exact encodeRoutingError_disagrees reason ((hiff _).mp h)

end

/-- A report of `NO_ROUTE` is read as it was written, and logged as bytes. -/
theorem no_route_logged_raw :
    let report := encodeRoutingError 1
    decodeRoutingPayload report = some (some 1) ∧
      summarizeDecrypted (fun _ => 0) ROUTING_APP report = rawSummary ROUTING_APP report ∧
      ¬SummariesAgree (fun _ => 0) report := by
  intro report
  have hread : decodeRoutingPayload report = some (some 1) := by decide
  have hraw : summarizeDecrypted (fun _ => 0) ROUTING_APP report =
      rawSummary ROUTING_APP report := by decide
  refine ⟨hread, hraw, fun h => ?_⟩
  have hshown := h.routing 1 hread
  rw [hraw] at hshown
  cases hshown

end Meshrustic.Wire
