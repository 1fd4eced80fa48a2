import Meshrustic.Routing.Packet
import Meshrustic.Store.Config

/-!
# Frames on the channel (`mesh-crypto/src/channel.rs`, `mesh-radio/src/channel.rs`)

A frame of the primary channel names it in its header, by a hash of the
channel's name and key, and carries its data encrypted under that key. With no
stored name the channel is called after the modem preset, so another preset is
another channel even under the same key.

AES is not modelled: a key, a sender and a packet id give a key stream, and the
counter mode adds it to the data (`KeyStream`). The data of a frame is what the
encoders of its kind produce, as bytes.
-/
namespace Meshrustic.Channel

open Meshrustic.Radio
open Meshrustic.Routing (PacketHeader Frame MAX_PACKET_PAYLOAD lowByte)
open Meshrustic.Store (CryptoKey)

/-- mirrors crates/mesh-crypto/src/lib.rs:36 -/
def MAX_BLOCKSIZE : Nat := 256

/-- The bytes that AES-CTR adds under a key, for a sender and a packet id. -/
abbrev KeyStream : Type := CryptoKey → UInt32 → UInt32 → Nat → UInt8

/-- mirrors crates/mesh-crypto/src/key.rs:32-34 -/
def CryptoKey.isEnabled (key : CryptoKey) : Bool := 0 < key.length

/-- mirrors crates/mesh-crypto/src/channel.rs:6-16 -/
def encryptPacket (K : KeyStream) (key : CryptoKey) (fromNode packetId : UInt32) (bytes : Bytes) :
    Bytes :=
  if !CryptoKey.isEnabled key || bytes.isEmpty then bytes
  else if MAX_BLOCKSIZE < bytes.length then bytes
  else bytes.mapIdx fun i b => b ^^^ K key fromNode packetId i

/-- mirrors crates/mesh-crypto/src/channel.rs:18-20 -/
def decryptPacket (K : KeyStream) (key : CryptoKey) (fromNode packetId : UInt32) (bytes : Bytes) :
    Bytes := encryptPacket K key fromNode packetId bytes

theorem encryptPacket_length (K : KeyStream) (key : CryptoKey) (fromNode packetId : UInt32)
    (bytes : Bytes) : (encryptPacket K key fromNode packetId bytes).length = bytes.length := by
  unfold encryptPacket
  split
  · rfl
  split
  · rfl
  · simp

/-- What was encrypted under a key decrypts under it. -/
theorem decryptPacket_encryptPacket (K : KeyStream) (key : CryptoKey) (fromNode packetId : UInt32)
    (bytes : Bytes) :
    decryptPacket K key fromNode packetId (encryptPacket K key fromNode packetId bytes) = bytes := by
  have hlen := encryptPacket_length K key fromNode packetId bytes
  unfold decryptPacket
  rw [encryptPacket]
  have hempty : (encryptPacket K key fromNode packetId bytes).isEmpty = bytes.isEmpty := by
    rw [Bool.eq_iff_iff, List.isEmpty_iff_length_eq_zero, List.isEmpty_iff_length_eq_zero, hlen]
  rw [hempty, hlen, encryptPacket]
  split
  · rfl
  split
  · rfl
  · exact addStream_addStream _ bytes

/-! ## The channel hash -/

/-- mirrors crates/mesh-crypto/src/channel_hash.rs:5-13 -/
def xorHash (data : Bytes) : UInt8 := data.foldl (· ^^^ ·) 0

/-- mirrors crates/mesh-crypto/src/channel_hash.rs:15-17 -/
def channelHash (name psk : Bytes) : UInt8 := xorHash name ^^^ xorHash psk

/-- The bytes of an ASCII name. -/
def ascii (name : String) : Bytes := name.toList.map fun c => c.toNat.toUInt8

/-- mirrors crates/mesh-radio/src/config.rs:131-145 -/
def modemPresetChannelName (preset : UInt8) : Bytes :=
  if preset == MODEM_SHORT_TURBO then ascii "ShortTurbo"
  else if preset == MODEM_SHORT_SLOW then ascii "ShortSlow"
  else if preset == MODEM_SHORT_FAST then ascii "ShortFast"
  else if preset == MODEM_MEDIUM_SLOW then ascii "MediumSlow"
  else if preset == MODEM_MEDIUM_FAST then ascii "MediumFast"
  else if preset == MODEM_LONG_SLOW then ascii "LongSlow"
  else if preset == MODEM_LONG_FAST then ascii "LongFast"
  else if preset == MODEM_LONG_TURBO then ascii "LongTurbo"
  else if preset == MODEM_LONG_MODERATE then ascii "LongMod"
  else if preset == MODEM_VERY_LONG_SLOW then ascii "VeryLongSlow"
  else ascii "Invalid"

/-- mirrors crates/mesh-radio/src/channel.rs:5-20 -/
def primaryChannelHash (storedName : Bytes) (modemPreset : UInt8) (usePreset : Bool) (psk : Bytes) :
    UInt8 :=
  if !storedName.isEmpty then channelHash storedName psk
  else channelHash (if usePreset then modemPresetChannelName modemPreset else ascii "Custom") psk

/-- mirrors crates/mesh-routing/src/router.rs:68-71 -/
def pskBytes (key : CryptoKey) : Bytes := key.bytes.toList.take key.length

/-! ## Frames -/

/-- The payload of a frame of ours, if its data fits.
mirrors crates/mesh-routing/src/topology.rs:287-293 -/
def sealData (K : KeyStream) (key : CryptoKey) (fromNode packetId : UInt32) (plaintext : Bytes) :
    Option Bytes :=
  if plaintext.isEmpty || MAX_PACKET_PAYLOAD < plaintext.length then none
  else some (encryptPacket K key fromNode packetId plaintext)

/-- mirrors crates/mesh-routing/src/topology.rs:273-312 -/
def buildAppWireFrame (K : KeyStream) (toNode fromNode packetId : UInt32)
    (channelHash hopLimit hopStart : UInt8) (wantAck : Bool) (key : CryptoKey) (plaintext : Bytes)
    (nextHop : UInt8) : Option Frame :=
  (sealData K key fromNode packetId plaintext).map fun payload =>
    ⟨.fromFields toNode fromNode packetId channelHash hopLimit hopStart wantAck false nextHop
      (lowByte fromNode), payload⟩

/-- The frame is on the channel of that hash, and its data is `plaintext` under
that key. -/
structure OnChannel (K : KeyStream) (hash : UInt8) (key : CryptoKey) (plaintext : Bytes) (f : Frame) :
    Prop where
  hash : f.header.channel = hash
  decrypts : decryptPacket K key f.header.fromNode f.header.id f.payload = plaintext

theorem decrypt_sealData {K : KeyStream} {key : CryptoKey} {fromNode packetId : UInt32}
    {plaintext payload : Bytes} (h : sealData K key fromNode packetId plaintext = some payload) :
    decryptPacket K key fromNode packetId payload = plaintext := by
  unfold sealData at h
  split at h
  · cases h
  · cases h
    exact decryptPacket_encryptPacket K key fromNode packetId plaintext

theorem buildAppWireFrame_onChannel {K : KeyStream} {toNode fromNode packetId : UInt32}
    {hash hopLimit hopStart : UInt8} {wantAck : Bool} {key : CryptoKey} {plaintext : Bytes}
    {nextHop : UInt8} {f : Frame}
    (h : buildAppWireFrame K toNode fromNode packetId hash hopLimit hopStart wantAck key plaintext
      nextHop = some f) : OnChannel K hash key plaintext f := by
  obtain ⟨payload, hseal, rfl⟩ := Option.map_eq_some_iff.mp h
  exact ⟨rfl, decrypt_sealData hseal⟩

end Meshrustic.Channel
