import Meshrustic.Wire.CounterMode
import Meshrustic.Wire.Data

/-!
# Frames on the wire (`mesh-protocol/src/header.rs`, `topology.rs:273-312, 470-491`)

Sixteen header bytes in the clear, then the encrypted `Data` message. The hop
fields share a byte with two flags. The header reads back as it was written;
what it means is up to `parse`, which drops the next-hop and relay bytes of a
sender that does not fill in `hop_start`.

Results:
* `decode_encodeTo`, `fromFields_unpacked`: a header reads back, and unpacked it
  is the header of the routing model;
* `buildAppWireFrame_eq`: a frame that is built is the one of the routing model,
  laid out in bytes;
* `wire_round_trip`: what a receiver reads of a frame.
-/
namespace Meshrustic.Wire

open Meshrustic.Routing (PACKET_HEADER_LEN MAX_PACKET_PAYLOAD lowByte)
open Meshrustic.Store (CryptoKey)

def MAX_WIRE_LEN : Nat := PACKET_HEADER_LEN + MAX_PACKET_PAYLOAD
def PACKET_FLAGS_HOP_LIMIT_MASK : UInt8 := 0x07
def PACKET_FLAGS_WANT_ACK_MASK : UInt8 := 0x08
def PACKET_FLAGS_VIA_MQTT_MASK : UInt8 := 0x10
def PACKET_FLAGS_HOP_START_MASK : UInt8 := 0xE0
def PACKET_FLAGS_HOP_START_SHIFT : UInt8 := 5

/-- The header as it travels.
mirrors crates/mesh-protocol/src/header.rs:7-16 -/
structure PacketHeader where
  toNode : UInt32
  fromNode : UInt32
  id : UInt32
  flags : UInt8
  channel : UInt8
  nextHop : UInt8
  relayNode : UInt8
  deriving DecidableEq, Repr

namespace PacketHeader

/-- mirrors crates/mesh-protocol/src/header.rs:40-54 -/
def encodeFlags (hopLimit hopStart : UInt8) (wantAck viaMqtt : Bool) : UInt8 :=
  (hopLimit &&& PACKET_FLAGS_HOP_LIMIT_MASK) |||
    ((hopStart <<< PACKET_FLAGS_HOP_START_SHIFT) &&& PACKET_FLAGS_HOP_START_MASK) |||
    (if wantAck then PACKET_FLAGS_WANT_ACK_MASK else 0) |||
    if viaMqtt then PACKET_FLAGS_VIA_MQTT_MASK else 0

/-- mirrors crates/mesh-protocol/src/header.rs:57-79 -/
def fromFields (toNode fromNode id : UInt32) (channel hopLimit hopStart : UInt8)
    (wantAck viaMqtt : Bool) (nextHop relayNode : UInt8) : PacketHeader :=
  ⟨toNode, fromNode, id, encodeFlags hopLimit hopStart wantAck viaMqtt, channel, nextHop, relayNode⟩

variable (h : PacketHeader)

/-- mirrors crates/mesh-protocol/src/header.rs:81-83 -/
def hopLimit : UInt8 := h.flags &&& PACKET_FLAGS_HOP_LIMIT_MASK

/-- mirrors crates/mesh-protocol/src/header.rs:85-87 -/
def hopStart : UInt8 := (h.flags &&& PACKET_FLAGS_HOP_START_MASK) >>> PACKET_FLAGS_HOP_START_SHIFT

/-- mirrors crates/mesh-protocol/src/header.rs:89-91 -/
def wantAck : Bool := h.flags &&& PACKET_FLAGS_WANT_ACK_MASK != 0

/-- mirrors crates/mesh-protocol/src/header.rs:97-99 -/
def viaMqtt : Bool := h.flags &&& PACKET_FLAGS_VIA_MQTT_MASK != 0

/-- mirrors crates/mesh-protocol/src/header.rs:101-109 -/
def encodeTo : Bytes :=
  le32 h.toNode ++ le32 h.fromNode ++ le32 h.id ++ [h.flags, h.channel, h.nextHop, h.relayNode]

/-- mirrors crates/mesh-protocol/src/header.rs:111-124; `none` is `TooShort`. -/
def decode (buf : Bytes) : Option PacketHeader :=
  if buf.length < PACKET_HEADER_LEN then none
  else some {
    toNode := ofLe32 (slice buf 0 4)
    fromNode := ofLe32 (slice buf 4 4)
    id := ofLe32 (slice buf 8 4)
    flags := byteAt buf 12
    channel := byteAt buf 13
    nextHop := byteAt buf 14
    relayNode := byteAt buf 15 }

/-- mirrors crates/mesh-protocol/src/header.rs:126-147 -/
def parse : Routing.ParsedPacket where
  toNode := h.toNode
  fromNode := h.fromNode
  id := h.id
  channel := h.channel
  hopLimit := h.hopLimit
  hopStart := h.hopStart
  wantAck := h.wantAck
  viaMqtt := h.viaMqtt
  nextHop := if h.hopStart == 0 then 0 else h.nextHop
  relayNode := if h.hopStart == 0 then 0 else h.relayNode

/-- The header of the routing model. -/
def unpacked : Routing.PacketHeader where
  toNode := h.toNode
  fromNode := h.fromNode
  id := h.id
  channel := h.channel
  hopLimit := h.hopLimit
  hopStart := h.hopStart
  wantAck := h.wantAck
  viaMqtt := h.viaMqtt
  nextHop := h.nextHop
  relayNode := h.relayNode

theorem parse_eq : h.parse = h.unpacked.parse := rfl

@[simp] theorem length_encodeTo : h.encodeTo.length = PACKET_HEADER_LEN := rfl

/-- A header reads back, whatever stands behind it. -/
theorem decode_encodeTo (rest : Bytes) : decode (h.encodeTo ++ rest) = some h := by
  unfold decode
  rw [if_neg (by rw [List.length_append, length_encodeTo]; omega)]
  have hto : slice (h.encodeTo ++ rest) 0 4 = le32 h.toNode := rfl
  have hfrom : slice (h.encodeTo ++ rest) 4 4 = le32 h.fromNode := rfl
  have hid : slice (h.encodeTo ++ rest) 8 4 = le32 h.id := rfl
  rw [hto, hfrom, hid, ofLe32_le32, ofLe32_le32, ofLe32_le32]
  rfl

theorem low3_eq (b : UInt8) : b &&& 7 = UInt8.ofNat (b.toNat % 8) := by
  apply UInt8.toNat_inj.mp
  rw [UInt8.toNat_and, UInt8.toNat_ofNat']
  refine (Nat.and_two_pow_sub_one_eq_mod _ 3).trans ?_
  omega

/-- Of the hop fields, the lowest three bits are sent. -/
theorem encodeFlags_low3 (hopLimit hopStart : UInt8) (wantAck viaMqtt : Bool) :
    encodeFlags (hopLimit &&& 7) (hopStart &&& 7) wantAck viaMqtt =
      encodeFlags hopLimit hopStart wantAck viaMqtt := by
  have hshift : ∀ n : Fin 256, ((UInt8.ofNat n.val &&& 7) <<< PACKET_FLAGS_HOP_START_SHIFT) &&&
      PACKET_FLAGS_HOP_START_MASK = (UInt8.ofNat n.val <<< PACKET_FLAGS_HOP_START_SHIFT) &&&
        PACKET_FLAGS_HOP_START_MASK := by decide +kernel
  have hstart := hshift ⟨hopStart.toNat, hopStart.toNat_lt⟩
  rw [UInt8.ofNat_toNat] at hstart
  have hlimit : hopLimit &&& 7 &&& PACKET_FLAGS_HOP_LIMIT_MASK =
      hopLimit &&& PACKET_FLAGS_HOP_LIMIT_MASK := by
    rw [UInt8.and_assoc]
    rfl
  unfold encodeFlags
  rw [hstart, hlimit]

/-- The fields that share the flag byte do not disturb each other. -/
theorem encodeFlags_read (hopLimit hopStart : UInt8) (wantAck viaMqtt : Bool) :
    let flags := encodeFlags hopLimit hopStart wantAck viaMqtt
    flags &&& PACKET_FLAGS_HOP_LIMIT_MASK = hopLimit &&& 7 ∧
      (flags &&& PACKET_FLAGS_HOP_START_MASK) >>> PACKET_FLAGS_HOP_START_SHIFT = hopStart &&& 7 ∧
      (flags &&& PACKET_FLAGS_WANT_ACK_MASK != 0) = wantAck ∧
      (flags &&& PACKET_FLAGS_VIA_MQTT_MASK != 0) = viaMqtt := by
  have hall : ∀ (i j : Fin 8) (wantAck viaMqtt : Bool),
      let flags := encodeFlags (UInt8.ofNat i.val) (UInt8.ofNat j.val) wantAck viaMqtt
      flags &&& PACKET_FLAGS_HOP_LIMIT_MASK = UInt8.ofNat i.val ∧
        (flags &&& PACKET_FLAGS_HOP_START_MASK) >>> PACKET_FLAGS_HOP_START_SHIFT =
          UInt8.ofNat j.val ∧
        (flags &&& PACKET_FLAGS_WANT_ACK_MASK != 0) = wantAck ∧
        (flags &&& PACKET_FLAGS_VIA_MQTT_MASK != 0) = viaMqtt := by decide +kernel
  rw [← encodeFlags_low3 hopLimit, low3_eq hopLimit, low3_eq hopStart]
  exact hall ⟨_, Nat.mod_lt _ (by decide)⟩ ⟨_, Nat.mod_lt _ (by decide)⟩ wantAck viaMqtt

/-- Unpacked, the header is the one of the routing model. -/
theorem fromFields_unpacked (toNode fromNode id : UInt32) (channel hopLimit hopStart : UInt8)
    (wantAck viaMqtt : Bool) (nextHop relayNode : UInt8) :
    (fromFields toNode fromNode id channel hopLimit hopStart wantAck viaMqtt nextHop
      relayNode).unpacked = .fromFields toNode fromNode id channel hopLimit hopStart wantAck viaMqtt
        nextHop relayNode := by
  obtain ⟨hlimit, hstart, hack, hmqtt⟩ := encodeFlags_read hopLimit hopStart wantAck viaMqtt
  unfold unpacked Routing.PacketHeader.fromFields PacketHeader.hopLimit PacketHeader.hopStart
    PacketHeader.wantAck PacketHeader.viaMqtt fromFields
  dsimp only
  rw [hlimit, hstart, hack, hmqtt]

theorem low3_of_le {b : UInt8} (hb : b ≤ 7) : b &&& 7 = b := by
  have hlt : b.toNat ≤ 7 := UInt8.le_iff_toNat_le.mp hb
  rw [low3_eq, Nat.mod_eq_of_lt (Nat.lt_succ_of_le hlt), UInt8.ofNat_toNat]

/-- What is read of a header of ours; the next hop and the relay only of one
with a hop start. -/
theorem parse_fromFields (toNode fromNode id : UInt32) (channel : UInt8) {hopLimit hopStart : UInt8}
    (hlimit : hopLimit ≤ 7) (hstart : hopStart ≤ 7) (wantAck viaMqtt : Bool)
    (nextHop relayNode : UInt8) :
    (fromFields toNode fromNode id channel hopLimit hopStart wantAck viaMqtt nextHop
      relayNode).parse = {
        toNode, fromNode, id, channel, hopLimit, hopStart, wantAck, viaMqtt
        nextHop := if hopStart = 0 then 0 else nextHop
        relayNode := if hopStart = 0 then 0 else relayNode } := by
  rw [parse_eq, fromFields_unpacked]
  unfold Routing.PacketHeader.fromFields Routing.PacketHeader.parse
  dsimp only
  rw [low3_of_le hlimit, low3_of_le hstart]
  by_cases h0 : hopStart = 0 <;> simp [h0]

/-- The header of the routing model, as it travels. -/
def packed (h : Routing.PacketHeader) : PacketHeader :=
  fromFields h.toNode h.fromNode h.id h.channel h.hopLimit h.hopStart h.wantAck h.viaMqtt h.nextHop
    h.relayNode

theorem packed_fromFields (toNode fromNode id : UInt32) (channel hopLimit hopStart : UInt8)
    (wantAck viaMqtt : Bool) (nextHop relayNode : UInt8) :
    packed (.fromFields toNode fromNode id channel hopLimit hopStart wantAck viaMqtt nextHop
      relayNode) = fromFields toNode fromNode id channel hopLimit hopStart wantAck viaMqtt nextHop
        relayNode := by
  unfold packed fromFields Routing.PacketHeader.fromFields
  dsimp only
  rw [encodeFlags_low3]

end PacketHeader

/-! ## Frames -/

/-- A header and a payload, in a buffer of full length.
mirrors crates/mesh-routing/src/topology.rs:307-310 -/
def layOut (header : PacketHeader) (payload : Bytes) : Bytes :=
  writeAll (List.replicate MAX_WIRE_LEN 0)
    [(0, header.encodeTo), (PACKET_HEADER_LEN, payload)]

/-- mirrors crates/mesh-routing/src/topology.rs:273-312; the length of the frame
and its buffer. -/
def buildAppWireFrame (E : BlockCipher) (toNode fromNode packetId : UInt32)
    (channelHash hopLimit hopStart : UInt8) (wantAck : Bool) (key : CryptoKey) (portnum : UInt32)
    (inner : Bytes) (opts : DataEncodeOpts) (nextHop : UInt8) : Option (UInt8 × Bytes) :=
  let plaintext := (encodeDataPayloadOpts portnum inner opts).rows
  if plaintext.isEmpty || MAX_PACKET_PAYLOAD < plaintext.length then none
  else
    let cipher := encryptPacket E key fromNode packetId plaintext
    let header := PacketHeader.fromFields toNode fromNode packetId channelHash hopLimit hopStart
      wantAck false nextHop (lowByte fromNode)
    let len := PACKET_HEADER_LEN + plaintext.length
    some (UInt8.ofNat len, layOut header cipher)

/-- mirrors crates/mesh-routing/src/topology.rs:470-484 -/
def tryDecryptDataFull (E : BlockCipher) (key : CryptoKey) (fromNode packetId : UInt32)
    (channelHash headerChannel : UInt8) (cipher : Bytes) : Option (DecodedData × Bytes) :=
  if headerChannel != channelHash then none
  else decodeDataPayloadFull (decryptPacket E key fromNode packetId cipher)

/-! ## Layout -/

section

variable (header : PacketHeader) {payload : Bytes}

theorem layOut_ordered (h : payload.length ≤ MAX_PACKET_PAYLOAD) :
    Ordered 0 (List.replicate MAX_WIRE_LEN (0 : UInt8)).length
      [(0, header.encodeTo), (PACKET_HEADER_LEN, payload)] := by
  rw [List.length_replicate]
  refine ⟨Nat.le_refl _, ?_, ?_⟩
  · rw [PacketHeader.length_encodeTo]
    exact Nat.le_of_eq (Nat.zero_add _)
  · change PACKET_HEADER_LEN + payload.length ≤ MAX_WIRE_LEN
    unfold MAX_WIRE_LEN
    omega

theorem length_layOut (h : payload.length ≤ MAX_PACKET_PAYLOAD) :
    (layOut header payload).length = MAX_WIRE_LEN := by
  unfold layOut
  rw [length_writeAll (layOut_ordered header h), List.length_replicate]

/-- The frame is its header, and then its payload. -/
theorem layOut_take (h : payload.length ≤ MAX_PACKET_PAYLOAD) :
    (layOut header payload).take (PACKET_HEADER_LEN + payload.length) =
      header.encodeTo ++ payload := by
  have hhead : slice (layOut header payload) 0 PACKET_HEADER_LEN = header.encodeTo :=
    slice_writeAll (layOut_ordered header h) List.mem_cons_self
  have hrest : slice (layOut header payload) PACKET_HEADER_LEN payload.length = payload :=
    slice_writeAll (layOut_ordered header h) (List.mem_cons_of_mem _ List.mem_cons_self)
  rw [List.take_add]
  exact congr (congrArg (· ++ ·) hhead) hrest

end

section

variable (E : BlockCipher) (toNode fromNode packetId : UInt32) (channelHash hopLimit hopStart : UInt8)
  (wantAck : Bool) (key : CryptoKey) (portnum : UInt32) (inner : Bytes) (opts : DataEncodeOpts)
  (nextHop : UInt8)

/-- A frame that is built is the one of the routing model, laid out in bytes. -/
theorem buildAppWireFrame_eq :
    buildAppWireFrame E toNode fromNode packetId channelHash hopLimit hopStart wantAck key portnum
        inner opts nextHop =
      (Channel.buildAppWireFrame (keyStream E) toNode fromNode packetId channelHash hopLimit hopStart
        wantAck key (encodeDataPayloadOpts portnum inner opts).rows nextHop).map fun f =>
          (UInt8.ofNat (PACKET_HEADER_LEN + f.payload.length),
            layOut (.packed f.header) f.payload) := by
  unfold buildAppWireFrame Channel.buildAppWireFrame Channel.sealData
  dsimp only
  split
  · rfl
  · dsimp only [Option.map_some]
    rw [PacketHeader.packed_fromFields, encryptPacket_eq, Channel.encryptPacket_length]

/-- The message is as long as its encoder computes, or too long for a frame by
either measure. -/
theorem dataSize_le_iff :
    dataSize portnum inner opts ≤ MAX_PACKET_PAYLOAD ↔
      (Protobuf.messageBytes (dataFields portnum inner opts)).length ≤ MAX_PACKET_PAYLOAD := by
  by_cases h : inner.length < UInt32.size
  · rw [length_dataFields portnum inner opts h]
  · have hmax : MAX_PACKET_PAYLOAD < UInt32.size := by decide
    have hpayload : inner.length ≤
        (Protobuf.messageBytes (dataFields portnum inner opts)).length := by
      unfold dataFields
      simp only [Protobuf.messageBytes_append, Protobuf.messageBytes_cons, List.length_append,
        Protobuf.length_fieldBytes (show 2 < 16 by decide), Protobuf.Value.bytes]
      omega
    have hsize : inner.length ≤ dataSize portnum inner opts := by
      unfold dataSize
      omega
    omega

/-- A message that fits a frame is written whole. -/
theorem length_encoded (h : dataSize portnum inner opts ≤ MAX_PACKET_PAYLOAD) :
    (encodeDataPayloadOpts portnum inner opts).rows.length = dataSize portnum inner opts := by
  have hmax : MAX_PACKET_PAYLOAD < DATA_CAPACITY := by decide
  have hsmall : DATA_CAPACITY < UInt32.size := by decide
  have hinner : inner.length < UInt32.size := by
    unfold dataSize at h
    omega
  rw [encodeDataPayloadOpts_rows, if_neg (by omega), length_dataFields portnum inner opts hinner]

theorem buildAppWireFrame_fits (h : dataSize portnum inner opts ≤ MAX_PACKET_PAYLOAD) :
    buildAppWireFrame E toNode fromNode packetId channelHash hopLimit hopStart wantAck key portnum
        inner opts nextHop =
      some (UInt8.ofNat (PACKET_HEADER_LEN + dataSize portnum inner opts),
        layOut (.fromFields toNode fromNode packetId channelHash hopLimit hopStart wantAck false
          nextHop (lowByte fromNode))
          (encryptPacket E key fromNode packetId (encodeDataPayloadOpts portnum inner opts).rows)) := by
  have hlen := length_encoded portnum inner opts h
  have hempty : (encodeDataPayloadOpts portnum inner opts).rows.isEmpty = false := by
    rw [← Bool.not_eq_true, List.isEmpty_iff_length_eq_zero, hlen]
    unfold dataSize
    omega
  unfold buildAppWireFrame
  dsimp only
  rw [hempty, hlen, Bool.false_or, if_neg (by simpa using h)]

/-- A longer one is refused, whether the buffer or the frame is too small. -/
theorem buildAppWireFrame_large (h : ¬ dataSize portnum inner opts ≤ MAX_PACKET_PAYLOAD) :
    buildAppWireFrame E toNode fromNode packetId channelHash hopLimit hopStart wantAck key portnum
        inner opts nextHop = none := by
  have hmax : MAX_PACKET_PAYLOAD < DATA_CAPACITY := by decide
  have hiff := dataSize_le_iff portnum inner opts
  unfold buildAppWireFrame
  dsimp only
  rw [encodeDataPayloadOpts_rows]
  by_cases hbuffer : DATA_CAPACITY < dataSize portnum inner opts
  · rw [if_pos hbuffer]
    rfl
  · rw [if_neg hbuffer, if_pos]
    rw [Bool.or_eq_true, decide_eq_true_iff]
    right
    omega

theorem tryDecryptDataFull_encrypt (h : dataSize portnum inner opts ≤ DATA_CAPACITY) :
    tryDecryptDataFull E key fromNode packetId channelHash channelHash
        (encryptPacket E key fromNode packetId (encodeDataPayloadOpts portnum inner opts).rows) =
      some (opts.decoded portnum, inner) := by
  have hplain := Channel.decryptPacket_encryptPacket (keyStream E) key fromNode packetId
    (encodeDataPayloadOpts portnum inner opts).rows
  unfold Channel.decryptPacket at hplain
  unfold tryDecryptDataFull decryptPacket
  rw [bne_self_eq_false, if_neg Bool.false_ne_true, encryptPacket_eq, encryptPacket_eq, hplain]
  exact decodeDataPayloadFull_encode portnum inner opts h

/-- What a receiver of the channel reads of a frame that is built: a frame is
built of every message that fits, whole, and gives back its header and the
message. -/
theorem wire_round_trip (hlimit : hopLimit ≤ 7) (hstart : hopStart ≤ 7) :
    let built := buildAppWireFrame E toNode fromNode packetId channelHash hopLimit hopStart wantAck
      key portnum inner opts nextHop
    (built.isSome ↔
        (Protobuf.messageBytes (dataFields portnum inner opts)).length ≤ MAX_PACKET_PAYLOAD) ∧
      ∀ len bytes, built = some (len, bytes) →
        len.toNat = PACKET_HEADER_LEN + dataSize portnum inner opts ∧
        dataSize portnum inner opts =
          (Protobuf.messageBytes (dataFields portnum inner opts)).length ∧
        bytes.length = MAX_WIRE_LEN ∧
        ∃ header, PacketHeader.decode (bytes.take len.toNat) = some header ∧
          header.parse = {
            toNode, fromNode, id := packetId, channel := channelHash, hopLimit, hopStart, wantAck
            viaMqtt := false
            nextHop := if hopStart = 0 then 0 else nextHop
            relayNode := if hopStart = 0 then 0 else lowByte fromNode } ∧
          tryDecryptDataFull E key header.fromNode header.id channelHash header.channel
              ((bytes.take len.toNat).drop PACKET_HEADER_LEN) =
            some (opts.decoded portnum, inner) := by
  intro built
  have hiff := dataSize_le_iff portnum inner opts
  by_cases hfits : dataSize portnum inner opts ≤ MAX_PACKET_PAYLOAD
  · have hbuilt : built = _ := buildAppWireFrame_fits E toNode fromNode packetId channelHash hopLimit
      hopStart wantAck key portnum inner opts nextHop hfits
    refine ⟨⟨fun _ => hiff.mp hfits, fun _ => hbuilt ▸ rfl⟩, fun len bytes h => ?_⟩
    rw [hbuilt, Option.some.injEq, Prod.mk.injEq] at h
    obtain ⟨rfl, rfl⟩ := h
    have hlen := length_encoded portnum inner opts hfits
    have hcipher : (encryptPacket E key fromNode packetId
        (encodeDataPayloadOpts portnum inner opts).rows).length = dataSize portnum inner opts := by
      rw [encryptPacket_eq, Channel.encryptPacket_length, hlen]
    have hbyte : (UInt8.ofNat (PACKET_HEADER_LEN + dataSize portnum inner opts)).toNat =
        PACKET_HEADER_LEN + dataSize portnum inner opts := by
      have hframe : PACKET_HEADER_LEN + MAX_PACKET_PAYLOAD < 256 := by decide
      rw [UInt8.toNat_ofNat']
      omega
    have hroom : (encryptPacket E key fromNode packetId
        (encodeDataPayloadOpts portnum inner opts).rows).length ≤ MAX_PACKET_PAYLOAD := by
      rw [hcipher]
      exact hfits
    have htake := layOut_take (.fromFields toNode fromNode packetId channelHash hopLimit
      hopStart wantAck false nextHop (lowByte fromNode)) hroom
    rw [hcipher] at htake
    have hwhole := encodeDataPayloadOpts_rows portnum inner opts
    rw [if_neg (Nat.not_lt_of_le (Nat.le_trans hfits (by decide)))] at hwhole
    refine ⟨hbyte, by rw [← hwhole, hlen], length_layOut _ hroom,
      .fromFields toNode fromNode packetId channelHash hopLimit hopStart wantAck false nextHop
        (lowByte fromNode), ?_, ?_, ?_⟩
    · rw [hbyte, htake]
      exact PacketHeader.decode_encodeTo _ _
    · exact PacketHeader.parse_fromFields _ _ _ _ hlimit hstart _ _ _ _
    · rw [hbyte, htake, List.drop_left' (PacketHeader.length_encodeTo _)]
      exact tryDecryptDataFull_encrypt E fromNode packetId channelHash key portnum inner opts
        (Nat.le_trans hfits (by decide))
  · have hbuilt : built = none := buildAppWireFrame_large E toNode fromNode packetId channelHash
      hopLimit hopStart wantAck key portnum inner opts nextHop hfits
    refine ⟨⟨fun h => ?_, fun h => absurd (hiff.mpr h) hfits⟩, fun len bytes h => ?_⟩
    · rw [hbuilt] at h
      cases h
    · rw [hbuilt] at h
      cases h

end

/-- A block to which the key is added. -/
def addedKey : BlockCipher := fun key block => .ofFn fun i => block[i] ^^^ key.getD i 0

/-- A short text to everybody, under the default key of sixteen bytes: what is on the air is not
the text, and it is read again. -/
theorem hello_round_trip :
    let key := CryptoKey.fromBytes Store.DEFAULT_PSK
    let built := buildAppWireFrame addedKey 0xFFFFFFFF 0x1234 7 0x1F 3 3 false key 1 [72, 105] {} 0
    key.length = 16 ∧
      built.map (fun f => (f.2.take f.1.toNat).drop 16) =
        some [219, 240, 169, 56, 104, 64, 79, 89] ∧
      ∃ len bytes, built = some (len, bytes) ∧
        ∃ header, PacketHeader.decode (bytes.take len.toNat) = some header ∧
          tryDecryptDataFull addedKey key header.fromNode header.id 0x1F header.channel
              ((bytes.take len.toNat).drop 16) =
            some (({} : DataEncodeOpts).decoded 1, [72, 105]) := by
  intro key built
  have h := wire_round_trip addedKey 0xFFFFFFFF 0x1234 7 0x1F 3 3 false key 1 [72, 105] {} 0
    (by decide) (by decide)
  obtain ⟨⟨len, bytes⟩, hbuilt⟩ := Option.isSome_iff_exists.mp (h.1.mpr (by decide))
  obtain ⟨-, -, -, header, hdecode, -, hread⟩ := h.2 len bytes hbuilt
  exact ⟨by decide, by decide +kernel, len, bytes, hbuilt, header, hdecode, hread⟩

end Meshrustic.Wire
