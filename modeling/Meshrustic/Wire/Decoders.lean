import Meshrustic.Admin.Walkers
import Meshrustic.Wire.Summary

/-!
# The decoders of untrusted input (`mesh-routing/src/topology.rs`, `traceroute.rs`,
`routing_ack.rs`, `position.rs`, `telemetry.rs`, `rx_decode.rs`, `admin_codec.rs`)

Every decoder of the fields of a message that the firmware has, as it reads its input by index.
`Decoder` lists them; each has a walker, and what it makes of the state its loop ends in.

Loops that decode no message are left out: `telemetry_without_device_metrics`, and
`replace_data_payload`, which is in `Wire.Rebuild`. A neighbour list ends its loop where it is
found, and the metrics of a device are skipped before they are read. All others go to the end of
their input.

Results:
* `Decoder.decode_eq`: each of them is the decoder of the other modules;
* `decoders_ignore_unknown`: a step refuses, or moves on within the input; every input ends in a
  value or a refusal; a field that is skipped changes nothing where it is inserted.
-/
namespace Meshrustic.Wire

open Meshrustic.Protobuf
open Meshrustic.Admin
open Meshrustic.Store (padded ofLeI32)
open Meshrustic.Radio (F32)
open Meshrustic.Topology

/-! ## Data -/

/-- mirrors crates/mesh-routing/src/topology.rs:324-377 -/
def dataArms : (field wire : Nat) → Arm DataReading wire
  | 1, 0 => .varint fun s v =>
    .ok { s with decoded := { s.decoded with portnum := v }, havePortnum := true }
  | 2, 2 => .len fun s b =>
    if b.length ≤ DATA_CAPACITY then .ok { s with payload := b } else .error .refused
  | 3, 0 => .varint fun s v => .ok { s with decoded := { s.decoded with wantResponse := v != 0 } }
  | 4, 5 => .word fun s b => .ok { s with decoded := { s.decoded with dest := ofLe32 b } }
  | 6, 5 => .word fun s b => .ok { s with decoded := { s.decoded with requestId := ofLe32 b } }
  | 7, 5 => .word fun s b => .ok { s with decoded := { s.decoded with replyId := ofLe32 b } }
  | 9, 0 => .varint fun s v =>
    .ok { s with decoded := { s.decoded with hasBitfield := true, bitfield := v } }
  | _, _ => .skip

def dataWalker : Walker DataReading where
  arms := dataArms
  init := {}

theorem data_refines : dataWalker.Refines (decodeWith dataField {}) := by
  refine .of_arms (fun _ => rfl) rfl (fun s field v hskip => ?_) fun s field wire v hwire => ?_
  · change (dataArms field v.wire).isSkip = true at hskip
    unfold dataField
    split <;> first | cases hskip | rfl
  change ((dataArms field wire).isSkip = true → _) → (dataArms field wire).value s v = _
  unfold dataArms
  split <;> intro hskipped
  · obtain ⟨v, rfl⟩ := Arm.varint_of_wire hwire
    exact Arm.value_varint (fun _ => rfl) v
  · obtain ⟨b, rfl⟩ := Arm.len_of_wire hwire
    simp only [Arm.value, dataField]
    split <;> rfl
  · obtain ⟨v, rfl⟩ := Arm.varint_of_wire hwire
    exact Arm.value_varint (fun _ => rfl) v
  · obtain ⟨b, rfl⟩ := Arm.fixed32_of_wire hwire
    rfl
  · obtain ⟨b, rfl⟩ := Arm.fixed32_of_wire hwire
    rfl
  · obtain ⟨b, rfl⟩ := Arm.fixed32_of_wire hwire
    rfl
  · obtain ⟨v, rfl⟩ := Arm.varint_of_wire hwire
    exact Arm.value_varint (fun _ => rfl) v
  · exact Arm.value_skipped rfl (hskipped rfl)

/-! ## Traces -/

/-- The words of a slice from index `i` on.
mirrors crates/mesh-routing/src/traceroute.rs:325-332 -/
def wordsAt (data : Bytes) :
    Nat → Nat → Table ROUTE_SIZE UInt32 → Reading (Table ROUTE_SIZE UInt32)
  | 0, i, out => if i + 4 ≤ data.length then .error .endless else .ok out
  | fuel + 1, i, out =>
    if i + 4 ≤ data.length then do
      let b ← sliceAt data i (i + 4)
      let out ← orRefused (out.push (ofLe32 b))
      wordsAt data fuel (i + 4) out
    else .ok out

/-- mirrors crates/mesh-routing/src/traceroute.rs:317-334 -/
def fixed32PackedAt (data : Bytes) (out : Table ROUTE_SIZE UInt32) :
    Reading (Table ROUTE_SIZE UInt32) :=
  if data.length % 4 ≠ 0 then .error .refused else wordsAt data data.length 0 out

/-- The varints of a slice from index `idx` on.
mirrors crates/mesh-routing/src/traceroute.rs:341-346 -/
def varintsAt (data : Bytes) :
    Nat → Nat → Table ROUTE_SIZE Int32 → Reading (Table ROUTE_SIZE Int32)
  | 0, idx, out => if idx < data.length then .error .endless else .ok out
  | fuel + 1, idx, out =>
    if idx < data.length then do
      let (v, next) ← readVarint64At data idx
      let out ← orRefused (out.push (i32Of v))
      varintsAt data fuel next out
    else .ok out

/-- mirrors crates/mesh-routing/src/traceroute.rs:336-348 -/
def int32PackedAt (data : Bytes) (out : Table ROUTE_SIZE Int32) :
    Reading (Table ROUTE_SIZE Int32) :=
  varintsAt data data.length 0 out

/-- mirrors crates/mesh-routing/src/traceroute.rs:22-89 -/
def routeArms : (field wire : Nat) → Arm RouteDiscovery wire
  | 1, 5 => .word fun rd b => do
    let route ← orRefused (rd.route.push (ofLe32 b))
    pure { rd with route }
  | 1, 2 => .lenGet fun rd b => do
    let route ← fixed32PackedAt b rd.route
    pure { rd with route }
  | 2, 0 => .int32 fun rd v => do
    let snrTowards ← orRefused (rd.snrTowards.push v)
    pure { rd with snrTowards }
  | 2, 2 => .lenGet fun rd b => do
    let snrTowards ← int32PackedAt b rd.snrTowards
    pure { rd with snrTowards }
  | 3, 5 => .word fun rd b => do
    let routeBack ← orRefused (rd.routeBack.push (ofLe32 b))
    pure { rd with routeBack }
  | 3, 2 => .lenGet fun rd b => do
    let routeBack ← fixed32PackedAt b rd.routeBack
    pure { rd with routeBack }
  | 4, 0 => .int32 fun rd v => do
    let snrBack ← orRefused (rd.snrBack.push v)
    pure { rd with snrBack }
  | 4, 2 => .lenGet fun rd b => do
    let snrBack ← int32PackedAt b rd.snrBack
    pure { rd with snrBack }
  | _, _ => .skip

def routeWalker : Walker RouteDiscovery where
  arms := routeArms
  init := {}

theorem pushWords_short {bytes : Bytes} (h : bytes.length < 4) (out : Table ROUTE_SIZE UInt32) :
    pushWords bytes out = some out := by
  match bytes, h with
  | [], _ => rfl
  | [_], _ => rfl
  | [_, _], _ => rfl
  | [_, _, _], _ => rfl
  | _ :: _ :: _ :: _ :: _, h =>
    simp only [List.length_cons] at h
    omega

theorem pushWords_word {word rest : Bytes} (h : word.length = 4) (out : Table ROUTE_SIZE UInt32) :
    pushWords (word ++ rest) out = (out.push (ofLe32 word)).bind (pushWords rest) := by
  match word, h with
  | [a, b, c, d], _ => rfl

theorem wordsAt_eq (data : Bytes) {fuel i : Nat} (out : Table ROUTE_SIZE UInt32)
    (h : data.length ≤ i + fuel) :
    wordsAt data fuel i out = orRefused (pushWords (data.drop i) out) := by
  induction fuel generalizing i out with
  | zero =>
    rw [List.drop_eq_nil_of_le (by omega), wordsAt, if_neg (by omega)]
    rfl
  | succ fuel ih =>
    rw [wordsAt]
    split
    · rename_i hword
      have hdrop : data.drop i = slice data i 4 ++ data.drop (i + 4) := by
        rw [slice, ← List.drop_drop, List.take_append_drop]
      rw [(Arm.slice_reads hword).1, ok_bind, hdrop, pushWords_word (length_slice hword)]
      cases out.push (ofLe32 (slice data i 4)) with
      | none => rfl
      | some out => exact ih out (by omega)
    · rename_i hend
      rw [pushWords_short (by rw [List.length_drop]; omega)]
      rfl

theorem fixed32PackedAt_eq (data : Bytes) (out : Table ROUTE_SIZE UInt32) :
    fixed32PackedAt data out = orRefused (parseFixed32Packed data out) := by
  unfold fixed32PackedAt parseFixed32Packed
  split
  · rfl
  · exact wordsAt_eq data out (by omega)

theorem varintsAt_eq (data : Bytes) {fuel idx : Nat} (out : Table ROUTE_SIZE Int32)
    (h : data.length ≤ idx + fuel) :
    varintsAt data fuel idx out = orRefused (pushVarints fuel (data.drop idx) out) := by
  induction fuel generalizing idx out with
  | zero =>
    rw [List.drop_eq_nil_of_le (by omega), varintsAt, if_neg (by omega), pushVarints]
    rfl
  | succ fuel ih =>
    rw [varintsAt]
    split
    · rename_i hlt
      obtain ⟨b, bs, hdrop⟩ := List.exists_cons_of_length_pos
        (show 0 < (data.drop idx).length by rw [List.length_drop]; omega)
      obtain ⟨hr, ho⟩ | ⟨v, next, hr, ho, -, hlen⟩ := readVarint64At_reads data idx
      · rw [hr, hdrop, pushVarints, ← hdrop, ho]
        rfl
      · have hmoved := readVarint64From_length ho
        rw [List.length_drop, List.length_drop] at hmoved
        rw [hr, hdrop, pushVarints, ← hdrop, ho]
        simp only [ok_bind]
        cases out.push (i32Of v) with
        | none => rfl
        | some out => exact ih out (by omega)
    · rename_i hend
      rw [List.drop_eq_nil_of_le (by omega), pushVarints]
      rfl

theorem int32PackedAt_eq (data : Bytes) (out : Table ROUTE_SIZE Int32) :
    int32PackedAt data out = orRefused (parseInt32Packed data out) :=
  varintsAt_eq data out (by omega)

theorem route_refines : routeWalker.Refines decodeRouteDiscovery := by
  refine .of_arms (fun _ => rfl) rfl (fun s field v hskip => ?_) fun s field wire v hwire => ?_
  · change (routeArms field v.wire).isSkip = true at hskip
    unfold routeField
    split <;> first | cases hskip | rfl
  change ((routeArms field wire).isSkip = true → _) → (routeArms field wire).value s v = _
  unfold routeArms
  split <;> intro hskipped
  · obtain ⟨b, rfl⟩ := Arm.fixed32_of_wire hwire
    exact nested_eq rfl _
  · obtain ⟨b, rfl⟩ := Arm.len_of_wire hwire
    exact nested_eq (fixed32PackedAt_eq b _) _
  · obtain ⟨v, rfl⟩ := Arm.varint_of_wire hwire
    exact nested_eq rfl _
  · obtain ⟨b, rfl⟩ := Arm.len_of_wire hwire
    exact nested_eq (int32PackedAt_eq b _) _
  · obtain ⟨b, rfl⟩ := Arm.fixed32_of_wire hwire
    exact nested_eq rfl _
  · obtain ⟨b, rfl⟩ := Arm.len_of_wire hwire
    exact nested_eq (fixed32PackedAt_eq b _) _
  · obtain ⟨v, rfl⟩ := Arm.varint_of_wire hwire
    exact nested_eq rfl _
  · obtain ⟨b, rfl⟩ := Arm.len_of_wire hwire
    exact nested_eq (int32PackedAt_eq b _) _
  · exact Arm.value_skipped rfl (hskipped rfl)

/-! ## Errors, positions and identities -/

/-- mirrors crates/mesh-routing/src/routing_ack.rs:88-103 (field 3) and rx_decode.rs:287-303
(field 1) -/
def errorReasonArms (number : Nat) : (field wire : Nat) → Arm (Option UInt32) wire
  | field, 0 => if field = number then .varint fun _ v => .ok (some v) else .skip
  | _, _ => .skip

def errorReasonWalker (number : Nat) : Walker (Option UInt32) where
  arms := errorReasonArms number
  init := none

theorem errorReason_refines (number : Nat) :
    (errorReasonWalker number).Refines (decodeErrorReason number) := by
  refine ⟨fun _ => rfl, errorReasonField number, rfl, fun s field wire v hwire => ?_⟩
  change (errorReasonArms number field wire).value s v = _
  unfold errorReasonArms
  split
  · obtain ⟨v, rfl⟩ := Arm.varint_of_wire hwire
    unfold errorReasonField
    dsimp only
    split
    · exact Arm.value_varint (fun _ => rfl) v
    · rfl
  · subst hwire
    rw [Arm.value_of_isSkip rfl]
    unfold errorReasonField
    cases v <;> simp_all [Value.wire]

/-- mirrors crates/mesh-routing/src/position.rs:134-166 -/
def fixedPositionArms : (field wire : Nat) → Arm DecodedFixedPosition wire
  | 1, 5 => .word fun out b => .ok { out with latitudeI := ofLeI32 b, hasLatitudeI := true }
  | 2, 5 => .word fun out b => .ok { out with longitudeI := ofLeI32 b, hasLongitudeI := true }
  | 5, 0 => .varint fun out v => .ok { out with locationSource := v }
  | 23, 0 => .varint fun out v => .ok { out with precisionBits := v }
  | _, _ => .skip

def fixedPositionWalker : Walker DecodedFixedPosition where
  arms := fixedPositionArms
  init := {}

theorem fixedPosition_refines : fixedPositionWalker.Refines decodeFixedPosition := by
  refine .of_arms (fun _ => rfl) rfl (fun s field v hskip => ?_) fun s field wire v hwire => ?_
  · change (fixedPositionArms field v.wire).isSkip = true at hskip
    unfold fixedPositionField
    split <;> first | cases hskip | rfl
  change ((fixedPositionArms field wire).isSkip = true → _) → (fixedPositionArms field wire).value s v = _
  unfold fixedPositionArms
  split <;> intro hskipped
  · obtain ⟨b, rfl⟩ := Arm.fixed32_of_wire hwire
    rfl
  · obtain ⟨b, rfl⟩ := Arm.fixed32_of_wire hwire
    rfl
  · obtain ⟨v, rfl⟩ := Arm.varint_of_wire hwire
    exact Arm.value_varint (fun _ => rfl) v
  · obtain ⟨v, rfl⟩ := Arm.varint_of_wire hwire
    exact Arm.value_varint (fun _ => rfl) v
  · exact Arm.value_skipped rfl (hskipped rfl)

/-- mirrors crates/mesh-routing/src/rx_decode.rs:180-213 -/
def positionArms : (field wire : Nat) → Arm (Option Int32 × Option Int32) wire
  | 1, 5 => .word fun s b => .ok (some (ofLeI32 b), s.2)
  | 2, 5 => .word fun s b => .ok (s.1, some (ofLeI32 b))
  | _, _ => .skip

def positionWalker : Walker (Option Int32 × Option Int32) where
  arms := positionArms
  init := (none, none)

theorem position_refines : positionWalker.Refines (decodeWith positionField (none, none)) := by
  refine .of_arms (fun _ => rfl) rfl (fun s field v hskip => ?_) fun s field wire v hwire => ?_
  · change (positionArms field v.wire).isSkip = true at hskip
    unfold positionField
    split <;> first | cases hskip | rfl
  change ((positionArms field wire).isSkip = true → _) → (positionArms field wire).value s v = _
  unfold positionArms
  split <;> intro hskipped
  · obtain ⟨b, rfl⟩ := Arm.fixed32_of_wire hwire
    rfl
  · obtain ⟨b, rfl⟩ := Arm.fixed32_of_wire hwire
    rfl
  · exact Arm.value_skipped rfl (hskipped rfl)

/-- mirrors crates/mesh-routing/src/rx_decode.rs:225-254 -/
def nodeInfoArms : (field wire : Nat) → Arm NodeInfoLine wire
  | 3, 2 => .len fun s b => do
    let shortName ← copyPrefix s.shortName b (min b.length 4)
    pure { s with shortName, shortLen := UInt8.ofNat (min b.length 4) }
  | 7, 0 => .varint fun s v => .ok { s with role := v }
  | _, _ => .skip

def nodeInfoWalker : Walker NodeInfoLine where
  arms := nodeInfoArms
  init := ⟨padded 4 [], 0, 0⟩

theorem nodeInfo_refines :
    nodeInfoWalker.Refines (decodeWith nodeInfoField ⟨padded 4 [], 0, 0⟩) := by
  refine .of_arms (fun _ => rfl) rfl (fun s field v hskip => ?_) fun s field wire v hwire => ?_
  · change (nodeInfoArms field v.wire).isSkip = true at hskip
    unfold nodeInfoField
    split <;> first | cases hskip | rfl
  change ((nodeInfoArms field wire).isSkip = true → _) → (nodeInfoArms field wire).value s v = _
  unfold nodeInfoArms
  split <;> intro hskipped
  · obtain ⟨b, rfl⟩ := Arm.len_of_wire hwire
    simp only [Arm.value, copyPrefix_min, ok_bind, nodeInfoField, orRefused_some, pure_reading]
  · obtain ⟨v, rfl⟩ := Arm.varint_of_wire hwire
    exact Arm.value_varint (fun _ => rfl) v
  · exact Arm.value_skipped rfl (hskipped rfl)

/-! ## Telemetry -/

/-- mirrors crates/mesh-routing/src/telemetry.rs:207-245 -/
def deviceMetricsArms : (field wire : Nat) → Arm DecodedDeviceMetrics wire
  | 1, 0 => .varint fun out v => .ok { out with batteryLevel := some v }
  | 2, 5 => .word fun out b => .ok { out with voltageV := some ⟨ofLe32 b⟩ }
  | 3, 5 => .word fun out b => .ok { out with channelUtilization := some ⟨ofLe32 b⟩ }
  | 4, 5 => .word fun out b => .ok { out with airUtilTx := some ⟨ofLe32 b⟩ }
  | 5, 0 => .varint fun out v => .ok { out with uptimeSeconds := some v }
  | _, _ => .skip

def deviceMetricsWalker : Walker DecodedDeviceMetrics where
  arms := deviceMetricsArms
  init := {}

theorem deviceMetrics_refines : deviceMetricsWalker.Refines decodeDeviceMetrics := by
  refine .of_arms (fun _ => rfl) rfl (fun s field v hskip => ?_) fun s field wire v hwire => ?_
  · change (deviceMetricsArms field v.wire).isSkip = true at hskip
    unfold deviceMetricsField
    split <;> first | cases hskip | rfl
  change ((deviceMetricsArms field wire).isSkip = true → _) → (deviceMetricsArms field wire).value s v = _
  unfold deviceMetricsArms
  split <;> intro hskipped
  · obtain ⟨v, rfl⟩ := Arm.varint_of_wire hwire
    exact Arm.value_varint (fun _ => rfl) v
  · obtain ⟨b, rfl⟩ := Arm.fixed32_of_wire hwire
    rfl
  · obtain ⟨b, rfl⟩ := Arm.fixed32_of_wire hwire
    rfl
  · obtain ⟨b, rfl⟩ := Arm.fixed32_of_wire hwire
    rfl
  · obtain ⟨v, rfl⟩ := Arm.varint_of_wire hwire
    exact Arm.value_varint (fun _ => rfl) v
  · exact Arm.value_skipped rfl (hskipped rfl)

/-- mirrors crates/mesh-routing/src/telemetry.rs:286-296 -/
def extractMetricsArms : (field wire : Nat) → Arm (Option Bytes) wire
  | 2, 2 => .lenSkipped fun _ b => .ok (some b)
  | _, _ => .skip

def extractMetricsWalker : Walker (Option Bytes) where
  arms := extractMetricsArms
  init := none

theorem extractMetrics_refines :
    extractMetricsWalker.Refines (decodeWith extractMetricsField none) := by
  refine .of_arms (fun _ => rfl) rfl (fun s field v hskip => ?_) fun s field wire v hwire => ?_
  · change (extractMetricsArms field v.wire).isSkip = true at hskip
    unfold extractMetricsField
    split <;> first | cases hskip | rfl
  change ((extractMetricsArms field wire).isSkip = true → _) → (extractMetricsArms field wire).value s v = _
  unfold extractMetricsArms
  split <;> intro hskipped
  · obtain ⟨b, rfl⟩ := Arm.len_of_wire hwire
    rfl
  · exact Arm.value_skipped rfl (hskipped rfl)

/-! ## Neighbour lists -/

/-- `data[i]` -/
def byteIn (data : Bytes) (i : Nat) : Reading UInt8 :=
  match data[i]? with
  | some b => .ok b
  | none => .error .outOfRange

/-- mirrors crates/mesh-routing/src/topology.rs:124-141 -/
def packedHeaderAt (data : Bytes) : Reading PackedHeader :=
  if data.length < PACKED_NEIGHBOR_HEADER_SIZE then .error .refused
  else do
    let flags ← byteIn data 4
    if flags >>> 3 != 0 && flags &&& PACKED_HEADER_FLAG_CONTINUATION == 0 then .error .refused
    else
      let formatVersion ← byteIn data 0
      let entrySize ← byteIn data 1
      let routingVersion ← byteIn data 2
      let topologyVersion ← byteIn data 3
      pure {
        formatVersion, entrySize, routingVersion, topologyVersion
        signalRoutingActive := flags &&& PACKED_HEADER_FLAG_SR_ACTIVE != 0
        moreChunks := flags &&& PACKED_HEADER_FLAG_MORE_CHUNKS != 0
        continuation := flags &&& PACKED_HEADER_FLAG_CONTINUATION != 0
        chunkIndex := flags >>> 3 }

/-- mirrors crates/mesh-routing/src/topology.rs:168-182 -/
def neighborAt (data : Bytes) (base : Nat) : Reading PackedNeighbor := do
  let e ← sliceAt data base (base + PACKED_NEIGHBOR_ENTRY_SIZE)
  let id ← sliceAt e 0 4
  let flags ← byteIn e 6
  let rssi ← byteIn e 4
  let snr ← byteIn e 5
  let etxVariance ← byteIn e 7
  pure {
    nodeId := ofLe32 id
    rssi := Int8.ofUInt8 rssi
    snr := Int8.ofUInt8 snr
    signalRoutingActive := flags &&& PACKED_NEIGHBOR_FLAG_SR_ACTIVE != 0
    hearsUs := flags &&& PACKED_NEIGHBOR_FLAG_HEARS_US != 0
    etxVariance }

/-- The entries from number `i` on; the list has room for all of them.
mirrors crates/mesh-routing/src/topology.rs:163-184 -/
def neighborsAt (data : Bytes) (entrySize : Nat) : Nat → Nat → Reading (List PackedNeighbor)
  | 0, _ => .ok []
  | left + 1, i =>
    let base := PACKED_NEIGHBOR_HEADER_SIZE + i * entrySize
    if data.length < base + PACKED_NEIGHBOR_ENTRY_SIZE then .ok []
    else do
      let neighbor ← neighborAt data base
      let rest ← neighborsAt data entrySize left (i + 1)
      pure (neighbor :: rest)

/-- mirrors crates/mesh-routing/src/topology.rs:143-186 -/
def packedNeighborsAt (data : Bytes) (maxEntries : Nat) :
    Reading (PackedHeader × List PackedNeighbor) := do
  let header ← packedHeaderAt data
  let entrySize := header.entrySize.toNat
  if header.formatVersion != PACKED_NEIGHBOR_FORMAT_VERSION then .error .refused
  else if entrySize < PACKED_NEIGHBOR_ENTRY_SIZE || entrySize == 0 then .error .refused
  else if (data.length - PACKED_NEIGHBOR_HEADER_SIZE) % entrySize != 0 then .error .refused
  else
    let count := (data.length - PACKED_NEIGHBOR_HEADER_SIZE) / entrySize
    if min maxEntries 32 < count then .error .refused
    else
      let neighbors ← neighborsAt data entrySize count 0
      pure (header, neighbors)

/-- mirrors crates/mesh-routing/src/topology.rs:484-493 -/
def packedNeighborsArms :
    (field wire : Nat) → Arm (Option (PackedHeader × List PackedNeighbor)) wire
  | 3, 2 => .len fun _ b => do
    let found ← packedNeighborsAt b MAX_NEIGHBORS_PER_PACKET
    pure (some found)
  | _, _ => .skip

/-- The loop returns where it finds a list. -/
def packedNeighborsWalker : Walker (Option (PackedHeader × List PackedNeighbor)) where
  arms := packedNeighborsArms
  init := none
  done := Option.isSome

theorem byteIn_eq {data : Bytes} {i : Nat} (h : i < data.length) :
    byteIn data i = .ok (byteAt data i) := by
  rw [byteIn, List.getElem?_eq_getElem h, byteAt, List.getD_eq_getElem?_getD,
    List.getElem?_eq_getElem h]
  rfl

theorem packedHeaderAt_eq (data : Bytes) :
    packedHeaderAt data = orRefused (decodePackedHeader data) := by
  unfold packedHeaderAt decodePackedHeader
  split
  · rfl
  · rename_i hlen
    have hsize : PACKED_NEIGHBOR_HEADER_SIZE = 5 := rfl
    rw [byteIn_eq (by omega), byteIn_eq (by omega), byteIn_eq (by omega), byteIn_eq (by omega),
      byteIn_eq (by omega)]
    simp only [ok_bind]
    split <;> rfl

theorem neighborAt_eq {data : Bytes} {base : Nat}
    (h : base + PACKED_NEIGHBOR_ENTRY_SIZE ≤ data.length) :
    neighborAt data base = .ok (packedNeighborAt data base) := by
  have hlen : (slice data base PACKED_NEIGHBOR_ENTRY_SIZE).length = 8 := length_slice h
  unfold neighborAt packedNeighborAt
  rw [(Arm.slice_reads h).1]
  simp only [ok_bind]
  have hword : 0 + 4 ≤ (slice data base PACKED_NEIGHBOR_ENTRY_SIZE).length := by omega
  rw [(Arm.slice_reads hword).1]
  simp only [ok_bind]
  rw [byteIn_eq (by omega), byteIn_eq (by omega), byteIn_eq (by omega), byteIn_eq (by omega)]
  generalize slice data base PACKED_NEIGHBOR_ENTRY_SIZE = e
  have hid : ofLe32 (slice e 0 4) = ofLe32 e := by
    unfold ofLe32
    rw [byteAt_slice (by decide), byteAt_slice (by decide), byteAt_slice (by decide),
      byteAt_slice (by decide)]
  rw [hid]
  rfl

theorem neighborsAt_eq (data : Bytes) (entrySize left i : Nat) :
    neighborsAt data entrySize left i = .ok (((List.range' i left).takeWhile fun i =>
      PACKED_NEIGHBOR_HEADER_SIZE + i * entrySize + PACKED_NEIGHBOR_ENTRY_SIZE ≤ data.length).map
        fun i => packedNeighborAt data (PACKED_NEIGHBOR_HEADER_SIZE + i * entrySize)) := by
  induction left generalizing i with
  | zero => rfl
  | succ left ih =>
    rw [neighborsAt, List.range'_succ]
    split
    · rename_i hlt
      rw [List.takeWhile_cons_of_neg (by simpa using hlt)]
      rfl
    · rename_i hle
      have hfits := Nat.le_of_not_lt hle
      rw [List.takeWhile_cons_of_pos (by simpa using hfits), neighborAt_eq hfits, ok_bind, ih]
      rfl

theorem packedNeighborsAt_eq (data : Bytes) (maxEntries : Nat) :
    packedNeighborsAt data maxEntries = orRefused (decodePackedNeighbors data maxEntries) := by
  unfold packedNeighborsAt decodePackedNeighbors
  rw [packedHeaderAt_eq]
  cases decodePackedHeader data with
  | none => rfl
  | some header =>
    simp only [orRefused_some, ok_bind, neighborsAt_eq, pure_reading, ← List.range_eq_range']
    split
    · rfl
    split
    · rfl
    split
    · rfl
    split
    · rfl
    · rfl

theorem tame_packedNeighbors (s : Option (PackedHeader × List PackedNeighbor)) (field : Nat)
    (v : Value) : Tame (packedNeighborsWalker.step s field v) := by
  have harms (wire : Nat) (hwire : v.wire = wire) :
      Tame ((packedNeighborsArms field wire).value s v) := by
    unfold packedNeighborsArms
    split
    · obtain ⟨b, rfl⟩ := Arm.len_of_wire hwire
      simp only [Arm.value]
      rw [packedNeighborsAt_eq]
      exact Tame.bind ⟨_, rfl⟩ fun _ => tame_ok _
    · rw [Arm.value_of_isSkip rfl]
      exact tame_ok s
  exact harms _ rfl

/-- Until it finds a list the loop passes over the fields. -/
theorem packedNeighbors_step {field : Nat} {v : Value} (h : ∀ b, field = 3 → v ≠ .len b) :
    packedNeighborsWalker.step none field v = .ok none := by
  change (packedNeighborsArms field v.wire).value none v = _
  generalize hwire : v.wire = wire
  unfold packedNeighborsArms
  split
  · obtain ⟨b, rfl⟩ := Arm.len_of_wire hwire
    exact absurd rfl (h b rfl)
  · exact Arm.value_of_isSkip rfl none v

theorem across_packedNeighbors {fuel : Nat} {payload : Bytes} (h : payload.length ≤ fuel) :
    (packedNeighborsWalker.across none payload >>= orRefused) =
      orRefused (extractLoop fuel payload) := by
  induction fuel generalizing payload with
  | zero =>
    obtain rfl := List.eq_nil_of_length_eq_zero (Nat.le_zero.mp h)
    rfl
  | succ fuel ih =>
    by_cases hnil : payload = []
    · subst hnil
      rfl
    have hdone : packedNeighborsWalker.done none = false := rfl
    rw [extractLoop]
    cases hread : readField payload with
    | none => rw [Walker.across_refused _ hnil hdone hread]; rfl
    | some p =>
      obtain ⟨field, v, rest⟩ := p
      have hlt := readField_length hread
      rw [Walker.across_field _ hdone hread]
      dsimp only
      split
      · rename_i b
        have hstep : packedNeighborsWalker.step none 3 (.len b) =
            (packedNeighborsAt b MAX_NEIGHBORS_PER_PACKET >>= fun found => .ok (some found)) := rfl
        rw [hstep, packedNeighborsAt_eq]
        cases decodePackedNeighbors b MAX_NEIGHBORS_PER_PACKET with
        | none => rfl
        | some found =>
          simp only [orRefused_some, ok_bind]
          rw [Walker.across_end _ (.inr rfl)]
          rfl
      · rename_i hother
        rw [packedNeighbors_step fun b hf hv => hother b hf hv, ok_bind]
        exact ih (by omega)

/-! ## All of them -/

/-- The loops over the fields of a message. The last three are those of the receive log. -/
inductive Decoder where
  | dataPayload | user | routeDiscovery | adminMessage | config | moduleConfig | telemetryConfig
  | deviceConfig | positionConfig | loraConfig | securityConfig | channel | channelSettings
  | deviceMetadata | fixedPositionAdmin | routingPayload | fixedPosition | extractDeviceMetrics
  | extractPackedNeighbors | deviceMetrics | loggedPosition | loggedNodeinfo | loggedRouting
  deriving DecidableEq

namespace Decoder

/-- What the loop keeps. -/
def State : Decoder → Type
  | dataPayload => DataReading
  | user => NodeInfoIdentity × Bool
  | routeDiscovery => RouteDiscovery
  | adminMessage => AdminMessage
  | config => ConfigPayload
  | moduleConfig => ModuleConfigPayload
  | telemetryConfig => WireTelemetryConfig
  | deviceConfig => WireDeviceConfig
  | positionConfig => WirePositionConfig
  | loraConfig => WireLoRaConfig
  | securityConfig => WireSecurityConfig
  | channel => WireChannel
  | channelSettings => WireChannelSettings
  | deviceMetadata => DeviceMetadata
  | fixedPositionAdmin => WireFixedPosition
  | routingPayload => Option UInt32
  | fixedPosition => DecodedFixedPosition
  | extractDeviceMetrics => Option Bytes
  | extractPackedNeighbors => Option (PackedHeader × List PackedNeighbor)
  | deviceMetrics => DecodedDeviceMetrics
  | loggedPosition => Option Int32 × Option Int32
  | loggedNodeinfo => NodeInfoLine
  | loggedRouting => Option UInt32

def walker : (d : Decoder) → Walker d.State
  | dataPayload => dataWalker
  | user => userWalker
  | routeDiscovery => routeWalker
  | adminMessage => adminMessageWalker
  | config => configWalker
  | moduleConfig => moduleConfigWalker
  | telemetryConfig => telemetryConfigWalker
  | deviceConfig => deviceConfigWalker
  | positionConfig => positionConfigWalker
  | loraConfig => loraConfigWalker
  | securityConfig => securityConfigWalker
  | channel => channelWalker
  | channelSettings => channelSettingsWalker
  | deviceMetadata => deviceMetadataWalker
  | fixedPositionAdmin => fixedPositionAdminWalker
  | routingPayload => errorReasonWalker 3
  | fixedPosition => fixedPositionWalker
  | extractDeviceMetrics => extractMetricsWalker
  | extractPackedNeighbors => packedNeighborsWalker
  | deviceMetrics => deviceMetricsWalker
  | loggedPosition => positionWalker
  | loggedNodeinfo => nodeInfoWalker
  | loggedRouting => errorReasonWalker 1

/-- What is returned. -/
def Out : Decoder → Type
  | dataPayload => DecodedData × Bytes
  | user => NodeInfoIdentity
  | extractDeviceMetrics => Bytes
  | extractPackedNeighbors => PackedHeader × List PackedNeighbor
  | loggedPosition | loggedNodeinfo | loggedRouting => RxPayloadSummary
  | d => d.State

/-- What is made of the state the loop ends in. -/
def finish : (d : Decoder) → d.State → Option d.Out
  | dataPayload, s => DataReading.finish s
  | user, s => userFinish s
  | routeDiscovery, s => some s
  | adminMessage, s => some s
  | config, s => some s
  | moduleConfig, s => some s
  | telemetryConfig, s => some s
  | deviceConfig, s => some s
  | positionConfig, s => some s
  | loraConfig, s => some s
  | securityConfig, s => some s
  | channel, s => some s
  | channelSettings, s => some s
  | deviceMetadata, s => some s
  | fixedPositionAdmin, s => some s
  | routingPayload, s => some s
  | fixedPosition, s => some s
  | extractDeviceMetrics, metrics => metrics
  | extractPackedNeighbors, found => found
  | deviceMetrics, s => some s
  | loggedPosition, s => match s with
    | (some latitudeI, some longitudeI) => some (.position latitudeI longitudeI)
    | _ => none
  | loggedNodeinfo, s => some (.nodeInfo s.shortName s.shortLen s.role)
  | loggedRouting, reason => reason.map .routing

/-- The decoder, by index. -/
def decode (d : Decoder) (data : Bytes) : Reading d.Out := do
  let s ← d.walker.run data
  orRefused (d.finish s)

/-- The decoder, as the other modules have it. -/
def listed : (d : Decoder) → Bytes → Option d.Out
  | dataPayload => decodeDataPayloadFull
  | user => decodeUser
  | routeDiscovery => decodeRouteDiscovery
  | adminMessage => decodeAdminMessage
  | config => decodeConfig
  | moduleConfig => decodeModuleConfig
  | telemetryConfig => decodeTelemetryConfig
  | deviceConfig => decodeDeviceConfig
  | positionConfig => decodePositionConfig
  | loraConfig => decodeLoraConfig
  | securityConfig => decodeSecurityConfig
  | channel => decodeChannel
  | channelSettings => decodeChannelSettings
  | deviceMetadata => decodeDeviceMetadata
  | fixedPositionAdmin => decodeFixedPositionAdmin
  | routingPayload => decodeRoutingPayload
  | fixedPosition => decodeFixedPosition
  | extractDeviceMetrics => Wire.extractDeviceMetrics
  | extractPackedNeighbors => Wire.extractPackedNeighbors
  | deviceMetrics => decodeDeviceMetrics
  | loggedPosition => decodePosition
  | loggedNodeinfo => decodeNodeinfo
  | loggedRouting => decodeRouting

theorem tame_step (d : Decoder) : ∀ s field v, Tame (d.walker.step s field v) := by
  cases d with
  | dataPayload => exact data_refines.tame
  | user => exact user_refines.tame
  | routeDiscovery => exact route_refines.tame
  | adminMessage => exact adminMessage_refines.tame
  | config => exact config_refines.tame
  | moduleConfig => exact moduleConfig_refines.tame
  | telemetryConfig => exact telemetryConfig_refines.tame
  | deviceConfig => exact deviceConfig_refines.tame
  | positionConfig => exact positionConfig_refines.tame
  | loraConfig => exact loraConfig_refines.tame
  | securityConfig => exact securityConfig_refines.tame
  | channel => exact channel_refines.tame
  | channelSettings => exact channelSettings_refines.tame
  | deviceMetadata => exact deviceMetadata_refines.tame
  | fixedPositionAdmin => exact fixedPositionAdmin_refines.tame
  | routingPayload => exact (errorReason_refines _).tame
  | fixedPosition => exact fixedPosition_refines.tame
  | extractDeviceMetrics => exact extractMetrics_refines.tame
  | extractPackedNeighbors => exact tame_packedNeighbors
  | deviceMetrics => exact deviceMetrics_refines.tame
  | loggedPosition => exact position_refines.tame
  | loggedNodeinfo => exact nodeInfo_refines.tame
  | loggedRouting => exact (errorReason_refines _).tame

/-- A decoder whose loop is that of another module returns what that one returns. -/
theorem decode_of_refines (d : Decoder) {decode : Bytes → Option d.State}
    (h : d.walker.Refines decode) (data : Bytes)
    (hlisted : d.listed data = (decode data).bind d.finish) :
    d.decode data = orRefused (d.listed data) := by
  rw [hlisted]
  exact h.finish d.finish data

/-- Most return the state as it is. -/
theorem bind_whole {α : Type} (o : Option α) : o = o.bind fun s => some s := by
  cases o <;> rfl

theorem decode_eq (d : Decoder) (data : Bytes) : d.decode data = orRefused (d.listed data) := by
  cases d with
  | dataPayload => exact decode_of_refines .dataPayload data_refines data rfl
  | user =>
    refine decode_of_refines .user user_refines data ?_
    change decodeUser data = _
    unfold decodeUser
    cases decodeWith userField (⟨.empty, padded 32 []⟩, false) data <;> rfl
  | routeDiscovery => exact decode_of_refines .routeDiscovery route_refines data (bind_whole _)
  | adminMessage => exact decode_of_refines .adminMessage adminMessage_refines data (bind_whole _)
  | config => exact decode_of_refines .config config_refines data (bind_whole _)
  | moduleConfig => exact decode_of_refines .moduleConfig moduleConfig_refines data (bind_whole _)
  | telemetryConfig =>
    exact decode_of_refines .telemetryConfig telemetryConfig_refines data (bind_whole _)
  | deviceConfig => exact decode_of_refines .deviceConfig deviceConfig_refines data (bind_whole _)
  | positionConfig =>
    exact decode_of_refines .positionConfig positionConfig_refines data (bind_whole _)
  | loraConfig => exact decode_of_refines .loraConfig loraConfig_refines data (bind_whole _)
  | securityConfig =>
    exact decode_of_refines .securityConfig securityConfig_refines data (bind_whole _)
  | channel => exact decode_of_refines .channel channel_refines data (bind_whole _)
  | channelSettings =>
    exact decode_of_refines .channelSettings channelSettings_refines data (bind_whole _)
  | deviceMetadata =>
    exact decode_of_refines .deviceMetadata deviceMetadata_refines data (bind_whole _)
  | fixedPositionAdmin =>
    exact decode_of_refines .fixedPositionAdmin fixedPositionAdmin_refines data (bind_whole _)
  | routingPayload =>
    exact decode_of_refines .routingPayload (errorReason_refines 3) data (bind_whole _)
  | fixedPosition =>
    exact decode_of_refines .fixedPosition fixedPosition_refines data (bind_whole _)
  | extractDeviceMetrics =>
    refine decode_of_refines .extractDeviceMetrics extractMetrics_refines data ?_
    change (decodeWith extractMetricsField none data).join = _
    cases decodeWith extractMetricsField none data <;> rfl
  | extractPackedNeighbors =>
    change (packedNeighborsWalker.run data >>= orRefused) = _
    rw [Walker.run_eq]
    exact across_packedNeighbors (Nat.le_refl data.length)
  | deviceMetrics =>
    exact decode_of_refines .deviceMetrics deviceMetrics_refines data (bind_whole _)
  | loggedPosition =>
    refine decode_of_refines .loggedPosition position_refines data ?_
    change decodePosition data = _
    unfold decodePosition
    rcases decodeWith positionField (none, none) data with _ | ⟨_ | _, _ | _⟩ <;> rfl
  | loggedNodeinfo =>
    refine decode_of_refines .loggedNodeinfo nodeInfo_refines data ?_
    change decodeNodeinfo data = _
    unfold decodeNodeinfo
    cases decodeWith nodeInfoField ⟨padded 4 [], 0, 0⟩ data <;> rfl
  | loggedRouting =>
    refine decode_of_refines .loggedRouting (errorReason_refines 1) data ?_
    change (decodeErrorReason 1 data).join.map RxPayloadSummary.routing = _
    cases decodeErrorReason 1 data <;> rfl

/-- Every input ends in a value or a refusal: no index leaves it, and no loop stands still. -/
theorem tame_decode (d : Decoder) (data : Bytes) : Tame (d.decode data) := by
  unfold decode
  exact (d.walker.tame_run d.tame_step data).bind fun s => tame_orRefused (d.finish s)

theorem decode_insert (d : Decoder) {fields : List Bytes}
    (hfields : ∀ f ∈ fields, ∃ t, SkipsAll t f) {tag : UInt32} {field : Bytes}
    (h : SkipsAll tag field) (hnumber : (tag >>> 3 == 0) = false)
    (hskips : d.walker.skips tag = true) (rest : Bytes) :
    d.decode (fields.flatten ++ (field ++ rest)) = d.decode (fields.flatten ++ rest) := by
  unfold decode
  rw [d.walker.run_insert hfields h hnumber hskips]

end Decoder

/-- A step of a decoder refuses, or moves its index on within the input; every input ends in a
value or a refusal; and a field that the decoder skips may stand between any two fields, if its
number is not 0. -/
theorem decoders_ignore_unknown (d : Decoder) :
    (∀ data idx s, d.walker.fieldAt data idx s = .error .refused ∨
      ∃ s' next, d.walker.fieldAt data idx s = .ok (s', next) ∧ idx < next ∧
        next ≤ data.length) ∧
    (∀ data, Tame (d.decode data)) ∧
    ∀ (fields : List Bytes) (tag : UInt32) (field rest : Bytes),
      (∀ f ∈ fields, ∃ t, SkipsAll t f) → SkipsAll tag field →
      (tag >>> 3 == 0) = false → d.walker.skips tag = true →
      d.decode (fields.flatten ++ (field ++ rest)) = d.decode (fields.flatten ++ rest) := by
  refine ⟨d.walker.step_advances d.tame_step, d.tame_decode, ?_⟩
  intro fields tag field rest hfields hfield hnumber hskips
  exact d.decode_insert hfields hfield hnumber hskips rest

/-- Field 15 of a `Data` between its port and its payload. -/
theorem decoders_ignore_unknown_data :
    Decoder.dataPayload.decode ([[0x08, 0x01]].flatten ++ ([0x78, 0x05] ++ [0x12, 0x01, 0x41])) =
      Decoder.dataPayload.decode ([[0x08, 0x01]].flatten ++ [0x12, 0x01, 0x41]) := by
  refine (decoders_ignore_unknown .dataPayload).2.2 [[0x08, 0x01]] 0x78 [0x78, 0x05]
    [0x12, 0x01, 0x41] ?_ ⟨1, rfl, rfl⟩ (by decide) rfl
  intro f hf
  obtain rfl := List.mem_singleton.mp hf
  exact ⟨0x08, 1, rfl, rfl⟩

/-- A field of number 0 is skipped by `skip_field`, and refused by the decoder. -/
theorem number_zero_refused :
    SkipsAll 0 [0x00, 0x00] ∧ Decoder.routingPayload.walker.skips 0 = true ∧
      Decoder.routingPayload.decode [0x18, 0x01] = .ok (some 1) ∧
      Decoder.routingPayload.decode ([0x00, 0x00] ++ [0x18, 0x01]) = .error .refused :=
  ⟨⟨1, rfl, rfl⟩, rfl, rfl, rfl⟩

end Meshrustic.Wire
