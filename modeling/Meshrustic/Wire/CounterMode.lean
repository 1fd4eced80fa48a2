import Mathlib.Logic.Function.Iterate
import Meshrustic.Channel.Sealing

/-!
# AES in counter mode (`mesh-crypto/src/aes.rs`, `nonce.rs`, `channel.rs`)

The nonce is a block whose last four bytes count. Each round encrypts it and
adds what comes out to the next sixteen bytes of the data. The block function is
a parameter; only the keys of 16 and 32 bytes are ever given to it.

Results:
* `aesCtrCrypt_eq`: the loop adds the bytes of `keyStream`, one for one;
* `encryptPacket_eq`: so the encryption of a packet is the one of
  `Channel.encryptPacket` over this key stream.
-/
namespace Meshrustic.Wire

open Meshrustic.Channel (KeyStream CryptoKey.isEnabled pskBytes MAX_BLOCKSIZE)
open Meshrustic.Store (CryptoKey)

def BLOCK_SIZE : Nat := 16
def COUNTER_SIZE : Nat := 4

abbrev Block := Vector UInt8 BLOCK_SIZE

/-- A key, of 16 or 32 bytes, and a block to its encryption. -/
abbrev BlockCipher := Bytes → Block → Block

/-- mirrors crates/mesh-crypto/src/nonce.rs:1-8, without an extra nonce -/
def initNonce (fromNode packetId : UInt32) : Block :=
  Store.padded BLOCK_SIZE (le32 packetId ++ [0, 0, 0, 0] ++ le32 fromNode)

/-- The carry through the last `n` bytes of the counter, from the lowest on.
mirrors crates/mesh-crypto/src/aes.rs:45-50 -/
def carry : Nat → Block → Block
  | 0, iv => iv
  | n + 1, iv =>
    let place := BLOCK_SIZE - COUNTER_SIZE + n
    let byte := iv.toList.getD place 0 + 1
    let iv := iv.setIfInBounds place byte
    if byte != 0 then iv else carry n iv

def nextCounter (iv : Block) : Block := carry COUNTER_SIZE iv

/-- The bytes of `chunk` with those of a block added.
mirrors crates/mesh-crypto/src/aes.rs:39-42 -/
def addBlock (stream : Block) (chunk : Bytes) : Bytes :=
  chunk.mapIdx fun i b => b ^^^ stream.toList.getD i 0

/-- A round takes at least one byte, so the length of the data is fuel enough.
mirrors crates/mesh-crypto/src/aes.rs:33-51 -/
def ctrLoop (E : BlockCipher) (key : Bytes) : Nat → Block → Bytes → Bytes
  | 0, _, data => data
  | fuel + 1, iv, data =>
    if data.isEmpty then data
    else addBlock (E key iv) (data.take BLOCK_SIZE) ++
      ctrLoop E key fuel (nextCounter iv) (data.drop BLOCK_SIZE)

/-- mirrors crates/mesh-crypto/src/aes.rs:24-52 -/
def aesCtrCrypt (E : BlockCipher) (key : CryptoKey) (nonce : Block) (data : Bytes) : Bytes :=
  if key.length = 0 then data else ctrLoop E (pskBytes key) data.length nonce data

/-- mirrors crates/mesh-crypto/src/channel.rs:6-16 -/
def encryptPacket (E : BlockCipher) (key : CryptoKey) (fromNode packetId : UInt32) (bytes : Bytes) :
    Bytes :=
  if !CryptoKey.isEnabled key || bytes.isEmpty then bytes
  else if MAX_BLOCKSIZE < bytes.length then bytes
  else aesCtrCrypt E key (initNonce fromNode packetId) bytes

/-- mirrors crates/mesh-crypto/src/channel.rs:18-20 -/
def decryptPacket (E : BlockCipher) (key : CryptoKey) (fromNode packetId : UInt32) (bytes : Bytes) :
    Bytes := encryptPacket E key fromNode packetId bytes

/-- The byte that the counter mode adds at place `i`, counting from `iv`. -/
def streamByte (E : BlockCipher) (key : Bytes) (iv : Block) (i : Nat) : UInt8 :=
  (E key (nextCounter^[i / BLOCK_SIZE] iv)).toList.getD (i % BLOCK_SIZE) 0

/-- The key stream of the channel. -/
def keyStream (E : BlockCipher) : KeyStream := fun key fromNode packetId i =>
  streamByte E (pskBytes key) (initNonce fromNode packetId) i

theorem streamByte_next (E : BlockCipher) (key : Bytes) (iv : Block) (i : Nat) :
    streamByte E key iv (i + BLOCK_SIZE) = streamByte E key (nextCounter iv) i := by
  unfold streamByte
  rw [Nat.add_div_right i (by decide), Nat.add_mod_right, Function.iterate_succ_apply]

/-- The rounds add the key stream, byte for byte. -/
theorem ctrLoop_eq (E : BlockCipher) (key : Bytes) {fuel : Nat} {iv : Block} {data : Bytes}
    (h : data.length ≤ fuel) :
    ctrLoop E key fuel iv data = addStream (streamByte E key iv) data := by
  induction fuel generalizing iv data with
  | zero =>
    rw [List.eq_nil_of_length_eq_zero (Nat.le_zero.mp h)]
    rfl
  | succ fuel ih =>
    unfold ctrLoop
    by_cases hnil : data = []
    · subst hnil
      rfl
    have hempty : data.isEmpty = false := by simpa using hnil
    have hpos := List.length_pos_iff.mpr hnil
    have hsize : BLOCK_SIZE = 16 := rfl
    have hfirst : addBlock (E key iv) (data.take BLOCK_SIZE) =
        addStream (streamByte E key iv) (data.take BLOCK_SIZE) := by
      apply addStream_congr
      intro i hi
      have hlt : i < BLOCK_SIZE := by
        rw [List.length_take] at hi
        omega
      unfold streamByte
      rw [Nat.div_eq_of_lt hlt, Nat.mod_eq_of_lt hlt]
      rfl
    rw [hempty, if_neg Bool.false_ne_true, hfirst, ih (by rw [List.length_drop]; omega),
      addStream_split _ data BLOCK_SIZE]
    simp only [streamByte_next]

/-- The encryption of a packet is the one over this key stream. -/
theorem encryptPacket_eq (E : BlockCipher) (key : CryptoKey) (fromNode packetId : UInt32)
    (bytes : Bytes) :
    encryptPacket E key fromNode packetId bytes =
      Channel.encryptPacket (keyStream E) key fromNode packetId bytes := by
  unfold encryptPacket Channel.encryptPacket
  split
  · rfl
  rename_i hkey
  split
  · rfl
  · have hlength : key.length ≠ 0 := by
      intro h0
      simp [CryptoKey.isEnabled, h0] at hkey
    unfold aesCtrCrypt
    rw [if_neg hlength, ctrLoop_eq E _ (Nat.le_refl _)]
    rfl

end Meshrustic.Wire
