import Meshrustic.Core.ProtobufWriter

/-!
# The `Data` message (`mesh-routing/src/topology.rs:20-52, 214-386`)

What a frame carries under its encryption: a port number, the bytes of the
application, and what a response refers to. The encoder computes the size of the
message before it writes anything, by a formula of its own, and writes nothing
if that is more than its buffer holds.

Results:
* `length_dataFields`: the formula is the exact size;
* `encodeDataPayloadOpts_rows`: what is written is the whole message or nothing;
* `decodeDataPayloadFull_encode`: the message reads back.
-/
namespace Meshrustic.Wire

open Meshrustic.Protobuf

def DATA_BITFIELD_OK_TO_MQTT : UInt32 := 1
def DATA_BITFIELD_WANT_RESPONSE : UInt32 := 2
def DATA_BITFIELD_FIELD : Nat := 9
def DATA_CAPACITY : Nat := 240

/-- mirrors crates/mesh-routing/src/topology.rs:27-36 -/
structure DecodedData where
  portnum : UInt32 := 0
  wantResponse : Bool := false
  dest : UInt32 := 0
  requestId : UInt32 := 0
  replyId : UInt32 := 0
  hasBitfield : Bool := false
  bitfield : UInt32 := 0
  deriving DecidableEq, Repr

/-- mirrors crates/mesh-routing/src/topology.rs:46-50 -/
inductive DataBitfield where
  | ours (okToMqtt : Bool)
  | origin (bitfield : Option UInt32)
  deriving DecidableEq, Repr

/-- mirrors crates/mesh-routing/src/topology.rs:38-44 -/
structure DataEncodeOpts where
  wantResponse : Bool := false
  replyId : UInt32 := 0
  requestId : UInt32 := 0
  bitfield : DataBitfield := .ours false
  deriving DecidableEq, Repr

/-! ## Encoding -/

/-- The bits of a message of ours.
mirrors crates/mesh-routing/src/topology.rs:256-262 -/
def oursBitfield (okToMqtt wantResponse : Bool) : UInt32 :=
  (if okToMqtt then DATA_BITFIELD_OK_TO_MQTT else 0) |||
    if wantResponse then DATA_BITFIELD_WANT_RESPONSE else 0

/-- The bitfield that is sent, if one is.
mirrors crates/mesh-routing/src/topology.rs:254-269 -/
def DataEncodeOpts.sentBitfield (opts : DataEncodeOpts) : Option UInt32 :=
  match opts.bitfield with
  | .ours okToMqtt => some (oursBitfield okToMqtt opts.wantResponse)
  | .origin bitfield => bitfield

/-- mirrors crates/mesh-routing/src/topology.rs:224-236 -/
def dataSize (portnum : UInt32) (inner : Bytes) (opts : DataEncodeOpts) : Nat :=
  1 + varintSize portnum + 1 + varintSize (UInt32.ofNat inner.length) + inner.length +
    opts.wantResponse.toNat * 2 + (opts.requestId != 0).toNat * 5 + (opts.replyId != 0).toNat * 5 +
    match opts.bitfield with
    | .origin none => 0
    | .origin (some v) => 1 + varintSize v
    | .ours _ => 2

/-- mirrors crates/mesh-routing/src/topology.rs:504-507 -/
def pushVarintField {cap : Nat} (field : Nat) (value : UInt32) (out : Buffer cap) : Buffer cap :=
  pushVarint (pushByte out (UInt8.ofNat (field * 8))) value.toNat

/-- mirrors crates/mesh-routing/src/topology.rs:509-513 -/
def pushFixed32Field {cap : Nat} (field : Nat) (value : UInt32) (out : Buffer cap) : Buffer cap :=
  extendFromSlice (pushByte out (UInt8.ofNat (field * 8 + 5))) (le32 value)

/-- mirrors crates/mesh-routing/src/topology.rs:242-244 -/
def pushPayloadField {cap : Nat} (inner : Bytes) (out : Buffer cap) : Buffer cap :=
  extendFromSlice (pushVarint (pushByte out (UInt8.ofNat (2 * 8 + 2))) (inner.length % UInt32.size)) inner

/-- mirrors crates/mesh-routing/src/topology.rs:218-271 -/
def encodeDataPayloadOpts (portnum : UInt32) (inner : Bytes) (opts : DataEncodeOpts) :
    Buffer DATA_CAPACITY :=
  if DATA_CAPACITY < dataSize portnum inner opts then .empty
  else pushAll
    [pushVarintField 1 portnum, pushPayloadField inner,
      pushIf opts.wantResponse (pushVarintField 3 1),
      pushIf (opts.requestId != 0) (pushFixed32Field 6 opts.requestId),
      pushIf (opts.replyId != 0) (pushFixed32Field 7 opts.replyId),
      match opts.sentBitfield with
      | some bitfield => pushVarintField DATA_BITFIELD_FIELD bitfield
      | none => id] .empty

/-! ## Decoding -/

/-- What the decoder has read so far. -/
structure DataReading where
  decoded : DecodedData := {}
  payload : Bytes := []
  havePortnum : Bool := false

/-- mirrors crates/mesh-routing/src/topology.rs:332-374 -/
def dataField (s : DataReading) (field : Nat) (value : Value) : Option DataReading :=
  match field, value with
  | 1, .varint v =>
    (u32Of v).map fun v => { s with decoded := { s.decoded with portnum := v }, havePortnum := true }
  | 2, .len b => if b.length ≤ DATA_CAPACITY then some { s with payload := b } else none
  | 3, .varint v =>
    (u32Of v).map fun (v : UInt32) => { s with decoded := { s.decoded with wantResponse := v != 0 } }
  | 4, .fixed32 b => some { s with decoded := { s.decoded with dest := ofLe32 b } }
  | 6, .fixed32 b => some { s with decoded := { s.decoded with requestId := ofLe32 b } }
  | 7, .fixed32 b => some { s with decoded := { s.decoded with replyId := ofLe32 b } }
  | 9, .varint v =>
    (u32Of v).map fun v =>
      { s with decoded := { s.decoded with hasBitfield := true, bitfield := v } }
  | _, _ => some s

/-- mirrors crates/mesh-routing/src/topology.rs:379-385 -/
def DataReading.finish (s : DataReading) : Option (DecodedData × Bytes) :=
  if !s.havePortnum then none
  else if s.decoded.hasBitfield && s.decoded.bitfield &&& DATA_BITFIELD_WANT_RESPONSE != 0 then
    some ({ s.decoded with wantResponse := true }, s.payload)
  else some (s.decoded, s.payload)

/-- mirrors crates/mesh-routing/src/topology.rs:319-386 -/
def decodeDataPayloadFull (data : Bytes) : Option (DecodedData × Bytes) :=
  (decodeWith dataField {} data).bind DataReading.finish

/-! ## The message that is written -/

/-- The fields of a message. -/
def dataFields (portnum : UInt32) (inner : Bytes) (opts : DataEncodeOpts) : List Field :=
  [(1, .varint portnum.toUInt64), (2, .len inner)] ++
    present opts.wantResponse (3, .varint 1) ++
    present (opts.requestId != 0) (6, .fixed32 (le32 opts.requestId)) ++
    present (opts.replyId != 0) (7, .fixed32 (le32 opts.replyId)) ++
    (opts.sentBitfield.map fun bitfield => (DATA_BITFIELD_FIELD, Value.varint bitfield.toUInt64)).toList

/-- A tag of one byte. -/
theorem appends_tag {cap : Nat} (field wire : Nat) (h : field * 8 + wire < 128) :
    Appends cap (pushByte · (UInt8.ofNat (field * 8 + wire)))
      (varintBytes (field * 8 + wire)) := by
  rw [varintBytes_small h]
  exact appends_pushByte _

theorem writes_varint {cap : Nat} (field : Nat) (h : field < 16) (v : UInt32) :
    Writes cap (pushVarintField field v) [(field, .varint v.toUInt64)] := by
  have htag : Appends cap _ _ := appends_tag field 0 (by omega)
  exact writes_one (htag.trans (appends_pushVarint _))

theorem writes_fixed32 {cap : Nat} (field : Nat) (h : field < 15) (v : UInt32) :
    Writes cap (pushFixed32Field field v) [(field, .fixed32 (le32 v))] :=
  writes_one ((appends_tag field 5 (by omega)).trans (appends_extendFromSlice _))

theorem writes_payload {cap : Nat} {inner : Bytes} (h : inner.length < UInt32.size) :
    Writes cap (pushPayloadField inner) [(2, .len inner)] := by
  refine writes_one ?_
  unfold pushPayloadField
  rw [Nat.mod_eq_of_lt h]
  have htag : Appends cap _ _ := appends_tag 2 2 (by decide)
  have hpush := (htag.trans (appends_pushVarint inner.length)).trans (appends_extendFromSlice inner)
  rwa [List.append_assoc] at hpush

section

variable (portnum : UInt32) (inner : Bytes) (opts : DataEncodeOpts)

/-- The formula is the exact size. -/
theorem length_dataFields (h : inner.length < UInt32.size) :
    (messageBytes (dataFields portnum inner opts)).length = dataSize portnum inner opts := by
  have hours : ∀ mqtt want, varintSize (oursBitfield mqtt want) = 1 := by decide
  unfold dataFields dataSize
  simp only [messageBytes_append, messageBytes_cons, messageBytes_nil, List.append_nil,
    List.length_append, length_fieldBytes (show 1 < 16 by decide),
    length_fieldBytes (show 2 < 16 by decide), Value.length_varint, Value.length_len h]
  have hwant : (messageBytes (present opts.wantResponse (3, .varint 1))).length =
      opts.wantResponse.toNat * 2 := by
    cases opts.wantResponse <;> decide
  have hid : ∀ field < 15, ∀ v : UInt32,
      (messageBytes (present (v != 0) (field, .fixed32 (le32 v)))).length =
        (v != 0).toNat * 5 := by
    intro field hfield v
    cases v != 0 with
    | false => rfl
    | true => simp [length_fieldBytes (show field < 16 by omega), Value.bytes]
  have hbits : (messageBytes (opts.sentBitfield.map fun bitfield =>
      (DATA_BITFIELD_FIELD, Value.varint bitfield.toUInt64)).toList).length =
      match opts.bitfield with
      | .origin none => 0
      | .origin (some v) => 1 + varintSize v
      | .ours _ => 2 := by
    unfold DataEncodeOpts.sentBitfield DATA_BITFIELD_FIELD
    rcases opts.bitfield with mqtt | _ | v
    · simp [length_fieldBytes (show 9 < 16 by decide), Value.length_varint, hours]
    · rfl
    · simp [length_fieldBytes (show 9 < 16 by decide), Value.length_varint]
  rw [hwant, hid 6 (by decide), hid 7 (by decide), hbits]
  omega

/-- What is written is the whole message, or nothing. -/
theorem encodeDataPayloadOpts_rows :
    (encodeDataPayloadOpts portnum inner opts).rows =
      if DATA_CAPACITY < dataSize portnum inner opts then []
      else messageBytes (dataFields portnum inner opts) := by
  unfold encodeDataPayloadOpts
  split
  · rfl
  · rename_i hsize
    have hinner : inner.length < UInt32.size := by
      change inner.length < 4294967296
      unfold dataSize DATA_CAPACITY at hsize
      omega
    have hbits : Writes DATA_CAPACITY (match opts.sentBitfield with
        | some bitfield => pushVarintField DATA_BITFIELD_FIELD bitfield
        | none => id) (opts.sentBitfield.map fun bitfield =>
          (DATA_BITFIELD_FIELD, Value.varint bitfield.toUInt64)).toList := by
      cases opts.sentBitfield with
      | none => exact writes_nil
      | some bitfield => exact writes_varint _ (by decide) bitfield
    have hwrites := (writes_varint 1 (by decide) portnum).cons <|
      (writes_payload hinner).cons <|
      ((writes_varint 3 (by decide) 1).pushIf opts.wantResponse).cons <|
      ((writes_fixed32 6 (by decide) opts.requestId).pushIf (opts.requestId != 0)).cons <|
      ((writes_fixed32 7 (by decide) opts.replyId).pushIf (opts.replyId != 0)).cons <| hbits.cons writes_nil
    have hfields := length_dataFields portnum inner opts hinner
    have hsame : [(1, Value.varint portnum.toUInt64)] ++ ([(2, .len inner)] ++
        (present opts.wantResponse (3, .varint (1 : UInt32).toUInt64) ++
        (present (opts.requestId != 0) (6, .fixed32 (le32 opts.requestId)) ++
        (present (opts.replyId != 0) (7, .fixed32 (le32 opts.replyId)) ++
        ((opts.sentBitfield.map fun bitfield =>
          (DATA_BITFIELD_FIELD, Value.varint bitfield.toUInt64)).toList ++ []))))) =
        dataFields portnum inner opts := by
      unfold dataFields
      simp only [List.append_assoc, List.append_nil, List.cons_append, List.nil_append]
      rfl
    rw [hsame] at hwrites
    exact hwrites.rows (by omega)

/-! ## Reading back -/

/-- What a receiver decodes. -/
def DataEncodeOpts.decoded (portnum : UInt32) (opts : DataEncodeOpts) : DecodedData where
  portnum := portnum
  wantResponse := opts.wantResponse ||
    opts.sentBitfield.any (· &&& DATA_BITFIELD_WANT_RESPONSE != 0)
  dest := 0
  requestId := opts.requestId
  replyId := opts.replyId
  hasBitfield := opts.sentBitfield.isSome
  bitfield := opts.sentBitfield.getD 0

theorem dataFields_valid (h : inner.length < UInt32.size) :
    ∀ f ∈ dataFields portnum inner opts, Valid f := by
  have hbits : ∀ f ∈ (opts.sentBitfield.map fun bitfield =>
      (DATA_BITFIELD_FIELD, Value.varint bitfield.toUInt64)).toList, Valid f := by
    cases opts.sentBitfield with
    | none => simp
    | some bitfield => simp [valid_iff, DATA_BITFIELD_FIELD, Value.Valid]
  unfold dataFields
  simp only [List.forall_mem_append]
  refine ⟨⟨⟨⟨?_, ?_⟩, ?_⟩, ?_⟩, hbits⟩
  · simpa [valid_iff, Value.Valid] using h
  · exact forall_valid_present fun _ => by simp [valid_iff, Value.Valid]
  · exact forall_valid_present fun _ => by simp [valid_iff, Value.Valid]
  · exact forall_valid_present fun _ => by simp [valid_iff, Value.Valid]

/-- The reading after the whole message. -/
def dataRead : DataReading where
  decoded := { opts.decoded portnum with wantResponse := opts.wantResponse }
  payload := inner
  havePortnum := true

theorem visit_dataFields (h : inner.length ≤ DATA_CAPACITY) :
    Protobuf.visit dataField {} (dataFields portnum inner opts) = some (dataRead portnum inner opts) := by
  have hhead : Protobuf.visit dataField {} [(1, .varint portnum.toUInt64), (2, .len inner)] =
      some { decoded := { portnum }, payload := inner, havePortnum := true } := by
    simp [dataField, h]
  have hwant : ∀ s : DataReading, s.decoded.wantResponse = false →
      Protobuf.visit dataField s (present opts.wantResponse (3, .varint 1)) =
        some { s with decoded := { s.decoded with wantResponse := opts.wantResponse } } := by
    rintro ⟨⟨_, _, _, _, _, _, _⟩, _, _⟩ hs
    cases opts.wantResponse with
    | false => cases hs; rfl
    | true => rfl
  have hrequest : ∀ s : DataReading, s.decoded.requestId = 0 →
      Protobuf.visit dataField s (present (opts.requestId != 0) (6, .fixed32 (le32 opts.requestId))) =
        some { s with decoded := { s.decoded with requestId := opts.requestId } } := by
    rintro ⟨⟨_, _, _, _, _, _, _⟩, _, _⟩ hs
    by_cases h0 : opts.requestId = 0
    · cases hs; rw [h0]; rfl
    · rw [present, if_pos (by simpa using h0)]
      simp [dataField]
  have hreply : ∀ s : DataReading, s.decoded.replyId = 0 →
      Protobuf.visit dataField s (present (opts.replyId != 0) (7, .fixed32 (le32 opts.replyId))) =
        some { s with decoded := { s.decoded with replyId := opts.replyId } } := by
    rintro ⟨⟨_, _, _, _, _, _, _⟩, _, _⟩ hs
    by_cases h0 : opts.replyId = 0
    · cases hs; rw [h0]; rfl
    · rw [present, if_pos (by simpa using h0)]
      simp [dataField]
  unfold dataFields
  rw [visit_append, visit_append, visit_append, visit_append, hhead, Option.bind_some, hwant _ rfl,
    Option.bind_some, hrequest _ rfl, Option.bind_some, hreply _ rfl, Option.bind_some]
  unfold dataRead DataEncodeOpts.decoded
  cases opts.sentBitfield with
  | none => rfl
  | some bitfield => simp [dataField, DATA_BITFIELD_FIELD]

/-- The message reads back, whatever its lengths. -/
theorem decodeDataPayloadFull_encode (h : dataSize portnum inner opts ≤ DATA_CAPACITY) :
    decodeDataPayloadFull (encodeDataPayloadOpts portnum inner opts).rows =
      some (opts.decoded portnum, inner) := by
  have hinner : inner.length ≤ DATA_CAPACITY := by
    unfold dataSize at h
    omega
  have hsize : inner.length < UInt32.size := Nat.lt_of_le_of_lt hinner (by decide)
  rw [encodeDataPayloadOpts_rows, if_neg (Nat.not_lt_of_le h)]
  unfold decodeDataPayloadFull
  rw [decodeWith_messageBytes (dataFields_valid portnum inner opts hsize),
    visit_dataFields portnum inner opts hinner, Option.bind_some]
  unfold DataReading.finish dataRead DataEncodeOpts.decoded
  cases opts.sentBitfield with
  | none => simp
  | some bitfield =>
    cases hbit : bitfield &&& DATA_BITFIELD_WANT_RESPONSE != 0 <;> simp [hbit]

end

end Meshrustic.Wire
