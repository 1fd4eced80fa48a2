import Meshrustic.Crypto.Ccm

/-!
# Direct messages under a shared secret (`mesh-crypto/src/pki.rs`, `nonce.rs`)

Two nodes agree on a secret by their key pairs; its hash is the key of AES-CCM.
A message is the encrypted text, eight bytes of tag and the four bytes of the
extra nonce. X25519, SHA-256 and AES are parameters (`Primitives`).

Results:
* `initNonce_channel`: without an extra nonce this is the nonce of the channel;
* `decrypt_encrypt`: between two key pairs with one secret what is sent is read;
* `decrypt_true`: what is accepted carries the tag of its plaintext;
* `decrypt_opened`: and is an envelope of it;
* `decrypt_false`: what is refused leaves the caller's buffer as it was;
* `direct_message_sealed`: the three together.
-/
namespace Meshrustic.Crypto

open Meshrustic.Store (padded)
open Meshrustic.Wire (Block BlockCipher)

abbrev Key := Vector UInt8 32

/-- Tag and extra nonce behind the text. -/
def PKI_OVERHEAD : Nat := 12

structure Primitives where
  /-- a private and a public key -/
  diffieHellman : Key → Key → Key
  sha256 : Key → Key
  aes : BlockCipher

/-- mirrors crates/mesh-crypto/src/pki.rs:8-13, without the channel's key -/
structure CryptoEngine where
  nonce : Block
  privateKey : Key
  sharedKey : Key

/-- `u64::to_le_bytes`. -/
def le64 (x : UInt64) : Bytes := le32 x.toUInt32 ++ le32 (x >>> 32).toUInt32

/-- mirrors crates/mesh-crypto/src/nonce.rs:1-8 -/
def initNonce (fromNode : UInt32) (packetId : UInt64) (extraNonce : UInt32) : Block :=
  let out := putAt (putAt (padded 16 []).toList 0 (le64 packetId)) 8 (le32 fromNode)
  padded _ (if extraNonce != 0 then putAt out 4 (le32 extraNonce) else out)

def isZero (key : Key) : Bool := key.toList.all (· == 0)

namespace CryptoEngine

/-- mirrors crates/mesh-crypto/src/pki.rs:36-43 -/
def new : CryptoEngine := ⟨padded _ [], padded _ [], padded _ []⟩

/-- mirrors crates/mesh-crypto/src/pki.rs:49-51 -/
def setDhPrivateKey (engine : CryptoEngine) (privateKey : Key) : CryptoEngine :=
  { engine with privateKey }

/-- mirrors crates/mesh-crypto/src/pki.rs:57-72 -/
def setDhPublicKey (P : Primitives) (engine : CryptoEngine) (pubKey : Key) : Bool × CryptoEngine :=
  if isZero engine.privateKey || isZero pubKey then
    (false, { engine with sharedKey := padded _ [] })
  else
    let shared := P.diffieHellman engine.privateKey pubKey
    (!isZero shared, { engine with sharedKey := shared })

/-- The engine once it has the hash of the secret for its key, and the nonce of a message.
mirrors crates/mesh-crypto/src/pki.rs:94-98,131-134 -/
def withMessageKey (P : Primitives) (engine : CryptoEngine) (fromNode : UInt32) (packetNum : UInt64)
    (extraNonce : UInt32) : CryptoEngine :=
  { engine with
    sharedKey := P.sha256 engine.sharedKey
    nonce := initNonce fromNode packetNum extraNonce }

/-- The answer, the engine and the caller's buffer as they are left.
mirrors crates/mesh-crypto/src/pki.rs:74-114 -/
def decryptCurve25519 (P : Primitives) (engine : CryptoEngine) (fromNode : UInt32)
    (remotePublic : Key) (packetNum : UInt64) (bytes bytesOut : Bytes) :
    Bool × CryptoEngine × Bytes :=
  if bytes.length < PKI_OVERHEAD then (false, engine, bytesOut)
  else
    let cryptLen := bytes.length - PKI_OVERHEAD
    let auth := bytes.drop cryptLen
    let extraNonce := ofLe32 (slice auth 8 4)
    let (agreed, engine) := setDhPublicKey P engine remotePublic
    if !agreed then (false, engine, bytesOut)
    else
      let engine := withMessageKey P engine fromNode packetNum extraNonce
      if bytesOut.length < cryptLen then (false, engine, bytesOut)
      else
        let (ok, out) := aesCcmAd P.aes engine.sharedKey.toList engine.nonce.toList 8
          (bytes.take cryptLen) [] (auth.take 8) bytesOut
        (ok, engine, out)

/-- The answer, the engine and the caller's buffer as they are left.
mirrors crates/mesh-crypto/src/pki.rs:116-146 -/
def encryptCurve25519 (P : Primitives) (engine : CryptoEngine) (remotePublic : Key)
    (fromNode : UInt32) (packetNum : UInt64) (extraNonce : UInt32) (plain bytesOut : Bytes) :
    Bool × CryptoEngine × Bytes :=
  if bytesOut.length < plain.length + PKI_OVERHEAD then (false, engine, bytesOut)
  else
    let (agreed, engine) := setDhPublicKey P engine remotePublic
    if !agreed then (false, engine, bytesOut)
    else
      let engine := withMessageKey P engine fromNode packetNum extraNonce
      let cryptEnd := plain.length
      let (ok, crypt, tag) := aesCcmAe P.aes engine.sharedKey.toList engine.nonce.toList 8 plain []
        (bytesOut.take cryptEnd) (slice bytesOut cryptEnd 8)
      if !ok then (false, engine, putAt (putAt bytesOut 0 crypt) cryptEnd tag)
      else
        (true, engine,
          putAt (putAt (putAt bytesOut 0 crypt) cryptEnd tag) (cryptEnd + 8) (le32 extraNonce))

end CryptoEngine

/-! ## Nonces -/

theorem le64_toUInt64 (x : UInt32) : le64 x.toUInt64 = le32 x ++ [0, 0, 0, 0] := by
  have hlow : x.toUInt64.toUInt32 = x := by simp
  have hhigh : (x.toUInt64 >>> 32).toUInt32 = 0 := by
    apply UInt32.toNat_inj.mp
    have hx := x.toNat_lt
    simp [UInt64.toNat_shiftRight, Nat.shiftRight_eq_div_pow]
    omega
  rw [le64, hlow, hhigh]
  rfl

/-- Without an extra nonce, and with a packet number of 32 bits, this is the nonce of the
channel. -/
theorem initNonce_channel (fromNode packetId : UInt32) :
    initNonce fromNode packetId.toUInt64 0 = Wire.initNonce fromNode packetId := by
  simp only [initNonce, Wire.initNonce, le64_toUInt64]
  rfl

/-! ## Messages -/

/-- What is sent: the text, encrypted, its tag and the extra nonce. -/
def envelope (E : BlockCipher) (key : Key) (nonce : Block) (extraNonce : UInt32) (plain : Bytes) :
    Bytes :=
  addStream (ccmStream E key.toList nonce.toList) plain ++
    ccmTag E key.toList nonce.toList 8 plain [] ++ le32 extraNonce

theorem validParameters_message (key : Key) (nonce : Block) {len : Nat} (h : len ≤ U16_MAX) :
    validParameters key.toList nonce.toList 8 len [] 8 = true := by
  have hnonce : nonce.toList.length = 16 := Vector.length_toList
  simp [validParameters, h, hnonce]

section
variable {P : Primitives} {engine agreed : CryptoEngine} {remotePublic : Key} {fromNode : UInt32}
  {packetNum : UInt64}

open CryptoEngine

theorem encrypt_eq {extraNonce : UInt32} {plain out : Bytes}
    (hagreed : setDhPublicKey P engine remotePublic = (true, agreed))
    (hroom : plain.length + PKI_OVERHEAD ≤ out.length) (hmax : plain.length ≤ U16_MAX) :
    encryptCurve25519 P engine remotePublic fromNode packetNum extraNonce plain out =
      let keyed := withMessageKey P agreed fromNode packetNum extraNonce
      (true, keyed, putAt out 0 (envelope P.aes keyed.sharedKey keyed.nonce extraNonce plain)) := by
  have hover : PKI_OVERHEAD = 12 := rfl
  generalize hkeyed : withMessageKey P agreed fromNode packetNum extraNonce = keyed
  have hslice : (slice out plain.length 8).length = 8 := length_slice (by omega)
  have htake : (out.take plain.length).length = plain.length := by
    rw [List.length_take]
    omega
  have htag : (ccmTag P.aes keyed.sharedKey.toList keyed.nonce.toList 8 plain []).length = 8 :=
    length_ccmTag (by decide) plain []
  have hsealed : aesCcmAe P.aes keyed.sharedKey.toList keyed.nonce.toList 8 plain []
      (out.take plain.length) (slice out plain.length 8) =
      (true, addStream (ccmStream P.aes keyed.sharedKey.toList keyed.nonce.toList) plain,
        ccmTag P.aes keyed.sharedKey.toList keyed.nonce.toList 8 plain []) := by
    rw [aesCcmAe_eq (by rw [hslice]; exact validParameters_message keyed.sharedKey keyed.nonce hmax)
      (Nat.le_of_eq htake.symm), putAt_self (by rw [length_addStream, htake]),
      putAt_self (by rw [htag, hslice])]
  have hcopies {crypt tag : Bytes} (hc : crypt.length = plain.length) (ht : tag.length = 8) :
      putAt (putAt (putAt out 0 crypt) plain.length tag) (plain.length + 8) (le32 extraNonce) =
        putAt out 0 (crypt ++ tag ++ le32 extraNonce) := by
    have hx : (le32 extraNonce).length = 4 := length_le32 extraNonce
    have hfirst := putAt_putAt_append (a := crypt) (b := tag) (show 0 + _ + _ ≤ out.length by omega)
    have hsecond := putAt_putAt_append (a := crypt ++ tag) (b := le32 extraNonce)
      (show 0 + _ + _ ≤ out.length by rw [List.length_append]; omega)
    rw [Nat.zero_add, hc] at hfirst
    rw [Nat.zero_add, List.length_append, hc, ht] at hsecond
    rw [hfirst, hsecond]
  simp only [encryptCurve25519, if_neg (Nat.not_lt.mpr hroom), hagreed, hkeyed, hsealed,
    Bool.not_true, Bool.false_eq_true, if_false, envelope, hcopies (length_addStream _ _) htag]

/-- The parts of a message, read from its end. -/
theorem envelope_parts (E : BlockCipher) (key : Key) (nonce : Block) (extraNonce : UInt32)
    (plain : Bytes) :
    let bytes := envelope E key nonce extraNonce plain
    let auth := bytes.drop plain.length
    bytes.length = plain.length + PKI_OVERHEAD ∧
      bytes.take plain.length = addStream (ccmStream E key.toList nonce.toList) plain ∧
      auth.take 8 = ccmTag E key.toList nonce.toList 8 plain [] ∧
      ofLe32 (slice auth 8 4) = extraNonce := by
  have htag : (ccmTag E key.toList nonce.toList 8 plain []).length = 8 :=
    length_ccmTag (by decide) plain []
  have hcrypt := length_addStream (ccmStream E key.toList nonce.toList) plain
  unfold envelope
  generalize addStream (ccmStream E key.toList nonce.toList) plain = crypt at hcrypt ⊢
  generalize ccmTag E key.toList nonce.toList 8 plain [] = tag at htag ⊢
  rw [List.append_assoc]
  have hdrop : (crypt ++ (tag ++ le32 extraNonce)).drop plain.length = tag ++ le32 extraNonce := by
    rw [← hcrypt, List.drop_left]
  have hslice : slice (tag ++ le32 extraNonce) 8 4 = le32 extraNonce := by
    rw [slice, ← htag, List.drop_left]
    rfl
  refine ⟨?_, ?_, ?_, ?_⟩
  · simp [hcrypt, htag, PKI_OVERHEAD]
  · rw [← hcrypt, List.take_left]
  · rw [hdrop, ← htag, List.take_left]
  · rw [hdrop, hslice, ofLe32_le32]

/-- What was put into an envelope is read from it. -/
theorem decrypt_envelope {extraNonce : UInt32} {plain out : Bytes} {sealer : CryptoEngine}
    (hagreed : setDhPublicKey P engine remotePublic = (true, agreed))
    (hkey : sealer.sharedKey = P.sha256 agreed.sharedKey)
    (hnonce : sealer.nonce = initNonce fromNode packetNum extraNonce)
    (hroom : plain.length ≤ out.length) (hmax : plain.length ≤ MAX_CCM_PAYLOAD) :
    decryptCurve25519 P engine fromNode remotePublic packetNum
        (envelope P.aes sealer.sharedKey sealer.nonce extraNonce plain) out =
      (true, withMessageKey P agreed fromNode packetNum extraNonce, putAt out 0 plain) := by
  obtain ⟨hlength, hcrypt, htag, hextra⟩ :=
    envelope_parts P.aes sealer.sharedKey sealer.nonce extraNonce plain
  generalize envelope P.aes sealer.sharedKey sealer.nonce extraNonce plain = bytes at *
  have hsub : bytes.length - PKI_OVERHEAD = plain.length := by omega
  have hbody : bytes.drop (bytes.length - PKI_OVERHEAD) = bytes.drop plain.length := by rw [hsub]
  have hopen : aesCcmAd P.aes sealer.sharedKey.toList sealer.nonce.toList 8
      (bytes.take plain.length) [] ((bytes.drop plain.length).take 8) out =
      (true, putAt out 0 plain) := by
    rw [hcrypt, htag]
    have htagLen :
        (ccmTag P.aes sealer.sharedKey.toList sealer.nonce.toList 8 plain []).length = 8 :=
      length_ccmTag (by decide) plain []
    apply aesCcmAd_encrypted _ hroom hmax (List.take_of_length_le (Nat.le_of_eq htagLen))
    rw [htagLen]
    exact validParameters_message _ _ (Nat.le_trans hmax (by decide))
  rw [hkey, hnonce] at hopen
  simp only [decryptCurve25519, hsub, hextra, hagreed, withMessageKey, hopen,
    if_neg (Nat.not_lt.mpr hroom), if_neg (show ¬bytes.length < PKI_OVERHEAD by omega),
    Bool.not_true, Bool.false_eq_true, if_false]

/-- A handshake that succeeds leaves the secret in the engine. -/
theorem setDhPublicKey_true (h : setDhPublicKey P engine remotePublic = (true, agreed)) :
    agreed = { engine with sharedKey := P.diffieHellman engine.privateKey remotePublic } := by
  unfold setDhPublicKey at h
  split at h
  · cases h
  · exact (congrArg Prod.snd h).symm

/-- A call is refused before it decrypts anything, or answers what AES-CCM answers for the text,
tag and extra nonce of the message. -/
theorem decrypt_cases (P : Primitives) (engine : CryptoEngine) (fromNode : UInt32)
    (remotePublic : Key) (packetNum : UInt64) (bytes out : Bytes) :
    let call := decryptCurve25519 P engine fromNode remotePublic packetNum bytes out
    let cryptLen := bytes.length - PKI_OVERHEAD
    call.1 = false ∧ call.2.2 = out ∨
      PKI_OVERHEAD ≤ bytes.length ∧
        (call.1, call.2.2) =
          aesCcmAd P.aes (P.sha256 (P.diffieHellman engine.privateKey remotePublic)).toList
            (initNonce fromNode packetNum (ofLe32 (slice bytes (cryptLen + 8) 4))).toList 8
            (bytes.take cryptLen) [] (slice bytes cryptLen 8) out := by
  intro call cryptLen
  by_cases hshort : bytes.length < PKI_OVERHEAD
  · left
    simp [call, decryptCurve25519, hshort]
  have hslice : slice (bytes.drop cryptLen) 8 4 = slice bytes (cryptLen + 8) 4 := by
    rw [slice, List.drop_drop]
    rfl
  cases hhand : setDhPublicKey P engine remotePublic with
  | mk agreed shared =>
    cases agreed with
    | false =>
      left
      simp [call, decryptCurve25519, hshort, hhand]
    | true =>
      have hshared := setDhPublicKey_true hhand
      by_cases hroom : out.length < cryptLen
      · left
        simp [call, decryptCurve25519, hshort, hhand, hroom, cryptLen]
      · right
        refine ⟨by omega, ?_⟩
        have hfits : ¬out.length < bytes.length - PKI_OVERHEAD := hroom
        rw [← hslice]
        simp only [call, decryptCurve25519, if_neg hshort, hhand, Bool.not_true, Bool.false_eq_true,
          if_false, if_neg hfits, withMessageKey, hshared]
        rfl

/-- What is accepted has, as its tag, the tag of the plaintext that is handed out. -/
theorem decrypt_true {bytes out : Bytes}
    (h : (decryptCurve25519 P engine fromNode remotePublic packetNum bytes out).1 = true) :
    ∃ text, text.length + PKI_OVERHEAD = bytes.length ∧
      (decryptCurve25519 P engine fromNode remotePublic packetNum bytes out).2.2 =
        putAt out 0 text ∧
      ∀ crypt tag, text.length ≤ crypt.length → 8 ≤ tag.length →
        aesCcmAe P.aes (P.sha256 (P.diffieHellman engine.privateKey remotePublic)).toList
          (initNonce fromNode packetNum (ofLe32 (slice bytes (text.length + 8) 4))).toList 8 text []
          crypt tag =
        (true, putAt crypt 0 (bytes.take text.length),
          putAt tag 0 (slice bytes text.length 8)) := by
  obtain ⟨hfalse, -⟩ | ⟨hlength, hccm⟩ :=
    decrypt_cases P engine fromNode remotePublic packetNum bytes out
  · rw [hfalse] at h
    cases h
  · rw [congrArg Prod.fst hccm] at h
    obtain ⟨text, htext, hout, hencrypt⟩ := aesCcmAd_true h
    have hcrypt : text.length = bytes.length - PKI_OVERHEAD := by
      rw [htext, List.length_take]
      omega
    refine ⟨text, by omega, (congrArg Prod.snd hccm).trans hout, ?_⟩
    intro crypt tag hroom htag
    rw [hcrypt] at hroom ⊢
    rw [hencrypt crypt tag (by rw [List.length_take]; omega) htag, take_slice (Nat.le_refl 8)]

/-- What is accepted is an envelope of the plaintext that is handed out. -/
theorem decrypt_opened {bytes out : Bytes}
    (h : (decryptCurve25519 P engine fromNode remotePublic packetNum bytes out).1 = true) :
    ∃ text extraNonce, text.length + PKI_OVERHEAD = bytes.length ∧
      (decryptCurve25519 P engine fromNode remotePublic packetNum bytes out).2.2 =
        putAt out 0 text ∧
      bytes = envelope P.aes (P.sha256 (P.diffieHellman engine.privateKey remotePublic))
        (initNonce fromNode packetNum extraNonce) extraNonce text := by
  obtain ⟨text, hlength, hout, hseal⟩ := decrypt_true h
  have hover : PKI_OVERHEAD = 12 := rfl
  refine ⟨text, ofLe32 (slice bytes (text.length + 8) 4), hlength, hout, ?_⟩
  generalize P.sha256 (P.diffieHellman engine.privateKey remotePublic) = key at hseal ⊢
  generalize hextra : ofLe32 (slice bytes (text.length + 8) 4) = extraNonce at hseal ⊢
  have hseal := hseal (List.replicate text.length 0) (List.replicate 8 0) (by simp) (by simp)
  have hvalid : validParameters key.toList (initNonce fromNode packetNum extraNonce).toList 8
      text.length [] (List.replicate 8 (0 : UInt8)).length = true := by
    by_contra hbad
    rw [aesCcmAe, if_pos (by rw [Bool.eq_false_iff.mpr hbad]; rfl)] at hseal
    cases congrArg Prod.fst hseal
  rw [aesCcmAe_eq hvalid (by simp), Prod.mk.injEq, Prod.mk.injEq,
    putAt_self (by simp), putAt_self (by rw [List.length_take]; simp; omega),
    putAt_self (by rw [length_ccmTag (by decide)]; simp),
    putAt_self (by rw [length_slice (by omega)]; simp)] at hseal
  have hextraBytes : le32 extraNonce = bytes.drop (text.length + 8) := by
    rw [← hextra, le32_ofLe32 (length_slice (by omega)), slice,
      List.take_of_length_le (by rw [List.length_drop]; omega)]
  rw [envelope, hseal.2.1, hseal.2.2, hextraBytes, slice, List.append_assoc, ← List.drop_drop,
    List.take_append_drop, List.take_append_drop]

/-- What is refused leaves the buffer of the caller as it was. -/
theorem decrypt_false {bytes out : Bytes}
    (h : (decryptCurve25519 P engine fromNode remotePublic packetNum bytes out).1 = false) :
    (decryptCurve25519 P engine fromNode remotePublic packetNum bytes out).2.2 = out := by
  obtain ⟨-, hout⟩ | ⟨-, hccm⟩ :=
    decrypt_cases P engine fromNode remotePublic packetNum bytes out
  · exact hout
  · rw [congrArg Prod.fst hccm] at h
    rw [congrArg Prod.snd hccm]
    exact aesCcmAd_false h

end

/-! ## Two nodes -/

structure KeyPair where
  privateKey : Key
  publicKey : Key
  deriving DecidableEq

def KeyPair.nonzero (pair : KeyPair) : Bool := !isZero pair.privateKey && !isZero pair.publicKey

/-- What X25519 promises two nodes with a key pair each: one secret on both sides, not all zero. -/
structure Agree (P : Primitives) (a b : KeyPair) : Prop where
  nonzero_left : a.nonzero = true
  nonzero_right : b.nonzero = true
  secret : P.diffieHellman a.privateKey b.publicKey = P.diffieHellman b.privateKey a.publicKey
  secret_nonzero : isZero (P.diffieHellman a.privateKey b.publicKey) = false

theorem Agree.symm {P : Primitives} {a b : KeyPair} (h : Agree P a b) : Agree P b a where
  nonzero_left := h.nonzero_right
  nonzero_right := h.nonzero_left
  secret := h.secret.symm
  secret_nonzero := h.secret ▸ h.secret_nonzero

section
variable {P : Primitives} {a b : KeyPair}

open CryptoEngine

theorem Agree.handshake (h : Agree P a b) (engine : CryptoEngine) :
    setDhPublicKey P (engine.setDhPrivateKey a.privateKey) b.publicKey =
      (true, ⟨engine.nonce, a.privateKey, P.diffieHellman a.privateKey b.publicKey⟩) := by
  have hprivate : isZero a.privateKey = false := by
    have := h.nonzero_left
    simp only [KeyPair.nonzero, Bool.and_eq_true, Bool.not_eq_true'] at this
    exact this.1
  have hpublic : isZero b.publicKey = false := by
    have := h.nonzero_right
    simp only [KeyPair.nonzero, Bool.and_eq_true, Bool.not_eq_true'] at this
    exact this.2
  simp [setDhPublicKey, setDhPrivateKey, hprivate, hpublic, h.secret_nonzero]

/-- What one of two nodes sends, the other reads. -/
theorem decrypt_encrypt (h : Agree P a b) (sender receiver : CryptoEngine) (fromNode : UInt32)
    (packetNum : UInt64) (extraNonce : UInt32) {plain out buf : Bytes}
    (hmax : plain.length ≤ MAX_CCM_PAYLOAD) (hout : plain.length + PKI_OVERHEAD ≤ out.length)
    (hbuf : plain.length ≤ buf.length) :
    let sent := encryptCurve25519 P (sender.setDhPrivateKey a.privateKey) b.publicKey fromNode
      packetNum extraNonce plain out
    let read := decryptCurve25519 P (receiver.setDhPrivateKey b.privateKey) fromNode a.publicKey
      packetNum (sent.2.2.take (plain.length + PKI_OVERHEAD)) buf
    sent.1 = true ∧ read.1 = true ∧ read.2.2 = putAt buf 0 plain := by
  rw [encrypt_eq (h.handshake sender) hout (Nat.le_trans hmax (by decide))]
  generalize hsealer : withMessageKey P _ fromNode packetNum extraNonce = sealer
  obtain ⟨hlength, -⟩ := envelope_parts P.aes sealer.sharedKey sealer.nonce extraNonce plain
  have htake : (putAt out 0 (envelope P.aes sealer.sharedKey sealer.nonce extraNonce plain)).take
      (plain.length + PKI_OVERHEAD) =
      envelope P.aes sealer.sharedKey sealer.nonce extraNonce plain := by
    rw [putAt, List.take_zero, List.nil_append, ← hlength, List.take_left]
  simp only [htake]
  subst hsealer
  rw [decrypt_envelope (h.symm.handshake receiver) (by simp [withMessageKey, h.secret]) rfl hbuf
    hmax]
  exact ⟨trivial, rfl, rfl⟩

/-- Between two nodes with key pairs that agree a message is read as it was sent, whatever the
engines did before. A message that is accepted, whoever sent it, ends in the tag of the plaintext
that is handed out, and encrypting that gives the message back. A message that is refused leaves the
buffer of the caller as it was. -/
theorem direct_message_sealed (P : Primitives) :
    (∀ (a b : KeyPair), Agree P a b → ∀ (sender receiver : CryptoEngine) (fromNode : UInt32)
      (packetNum : UInt64) (extraNonce : UInt32) (plain out buf : Bytes),
      plain.length ≤ MAX_CCM_PAYLOAD → plain.length + PKI_OVERHEAD ≤ out.length →
      plain.length ≤ buf.length →
      let sent := encryptCurve25519 P (sender.setDhPrivateKey a.privateKey) b.publicKey fromNode
        packetNum extraNonce plain out
      let read := decryptCurve25519 P (receiver.setDhPrivateKey b.privateKey) fromNode a.publicKey
        packetNum (sent.2.2.take (plain.length + PKI_OVERHEAD)) buf
      sent.1 = true ∧ read.1 = true ∧ read.2.2 = putAt buf 0 plain) ∧
    ∀ (engine : CryptoEngine) (fromNode : UInt32) (remotePublic : Key) (packetNum : UInt64)
      (bytes buf : Bytes),
      let read := decryptCurve25519 P engine fromNode remotePublic packetNum bytes buf
      (read.1 = true → ∃ text, text.length + PKI_OVERHEAD = bytes.length ∧
        read.2.2 = putAt buf 0 text ∧
        ∀ crypt tag, text.length ≤ crypt.length → 8 ≤ tag.length →
          aesCcmAe P.aes (P.sha256 (P.diffieHellman engine.privateKey remotePublic)).toList
            (initNonce fromNode packetNum (ofLe32 (slice bytes (text.length + 8) 4))).toList 8 text
            [] crypt tag =
          (true, putAt crypt 0 (bytes.take text.length),
            putAt tag 0 (slice bytes text.length 8))) ∧
      (read.1 = false → read.2.2 = buf) := by
  constructor
  · intro a b hagree sender receiver fromNode packetNum extraNonce plain out buf hmax hout hbuf
    exact decrypt_encrypt hagree sender receiver fromNode packetNum extraNonce hmax hout hbuf
  · intro engine fromNode remotePublic packetNum bytes buf
    exact ⟨decrypt_true, decrypt_false⟩

end

/-! ## A message -/

def leftPair : KeyPair where
  privateKey := Vector.replicate 32 1
  publicKey := padded 32
    [164, 224, 146, 146, 182, 81, 194, 120, 185, 119, 44, 86, 159, 95, 169, 187, 19, 217, 6, 180,
     106, 182, 140, 157, 249, 220, 43, 68, 9, 248, 162, 9]

def rightPair : KeyPair where
  privateKey := Vector.replicate 32 2
  publicKey := padded 32
    [206, 141, 58, 209, 204, 182, 51, 236, 123, 112, 193, 120, 20, 165, 199, 110, 205, 2, 150,
     133, 5, 13, 52, 71, 69, 186, 5, 135, 14, 88, 125, 89]

/-- What AES makes of the blocks of one message between these pairs. -/
def sampleBlocks : List (Bytes × Bytes) :=
  [([25, 98, 214, 178, 19, 43, 121, 106, 3, 41, 9, 0, 0, 0, 0, 5],
    [32, 197, 161, 136, 154, 41, 26, 191, 192, 73, 126, 235, 241, 10, 140, 75]),
   ([77, 160, 210, 224, 187, 41, 26, 191, 192, 73, 126, 235, 241, 10, 140, 75],
    [224, 60, 69, 97, 84, 20, 232, 216, 214, 141, 76, 210, 174, 125, 228, 92]),
   ([1, 98, 214, 178, 19, 43, 121, 106, 3, 41, 9, 0, 0, 0, 0, 0],
    [8, 113, 187, 206, 225, 125, 68, 3, 159, 1, 36, 132, 19, 138, 223, 51]),
   ([1, 98, 214, 178, 19, 43, 121, 106, 3, 41, 9, 0, 0, 0, 0, 1],
    [47, 79, 222, 221, 107, 95, 211, 143, 81, 69, 73, 34, 9, 128, 106, 227])]

/-- The primitives where this message asks them: the secret of the two pairs and its hash. -/
def samplePrimitives : Primitives where
  diffieHellman _ _ := padded 32
    [46, 215, 106, 181, 73, 177, 231, 60, 3, 30, 180, 156, 148, 72, 240, 121, 138, 234, 129, 182,
     152, 39, 154, 12, 61, 195, 228, 159, 191, 196, 185, 83]
  sha256 _ := padded 32
    [109, 239, 202, 231, 8, 169, 89, 90, 229, 141, 113, 106, 198, 80, 223, 90, 14, 227, 216, 179,
     41, 230, 213, 77, 3, 87, 28, 135, 169, 111, 218, 95]
  aes _ block := padded _ ((sampleBlocks.lookup block.toList).getD [])

theorem samplePairs_agree : Agree samplePrimitives leftPair rightPair :=
  ⟨by decide, by decide, rfl, by decide⟩

/-- Five bytes under the nonce of the source's golden vector: what is sent, and that it is read. -/
theorem direct_message_sealed_five_bytes :
    let message : Bytes :=
      [66, 42, 173, 181, 74, 232, 77, 254, 175, 181, 105, 172, 219, 43, 121, 106, 3]
    let plain : Bytes := [109, 101, 115, 104, 33]
    let sent := CryptoEngine.encryptCurve25519 samplePrimitives
      (CryptoEngine.new.setDhPrivateKey leftPair.privateKey) rightPair.publicKey 0x0929 0x13b2d662
      0x036a792b plain (List.replicate 20 0)
    let read := CryptoEngine.decryptCurve25519 samplePrimitives
      (CryptoEngine.new.setDhPrivateKey rightPair.privateKey) 0x0929 leftPair.publicKey 0x13b2d662
      (sent.2.2.take 17) [7, 7, 7, 7, 7, 7]
    sent.2.2 = message ++ [0, 0, 0] ∧ sent.1 = true ∧ read.1 = true ∧
      read.2.2 = putAt [7, 7, 7, 7, 7, 7] 0 plain := by
  have h := (direct_message_sealed samplePrimitives).1 leftPair rightPair samplePairs_agree
    CryptoEngine.new CryptoEngine.new 0x0929 0x13b2d662 0x036a792b [109, 101, 115, 104, 33]
    (List.replicate 20 0) [7, 7, 7, 7, 7, 7] (by decide) (by decide) (by decide)
  exact ⟨by decide, h⟩

end Meshrustic.Crypto
