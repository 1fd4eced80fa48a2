import Meshrustic.Wire.CounterMode

/-!
# AES-CCM (`mesh-crypto/src/aes_ccm.rs`)

The tag is a CBC-MAC over a first block that holds the nonce and the length, the
associated data and the text; text and tag are then encrypted in counter mode,
the tag under counter 0. One counter block is passed from step to step and only
its last two bytes are ever written again. Decryption works in a scratch buffer
and copies it out when the tag fits. The block function is a parameter.

Results:
* `encr_eq`: the loop adds the bytes of `ccmByte`, whatever the counter block it
  is given counts;
* `aesCcmAe_eq`, `aesCcmAd_eq`: both directions in closed form;
* `aesCcmAd_encrypted`: what was encrypted is decrypted;
* `aesCcmAd_true`: what is accepted is what encrypting its plaintext gives;
* `aesCcmAd_false`: a refused message leaves the caller's buffer as it was.
-/
namespace Meshrustic.Crypto

open Meshrustic.Store (padded)
open Meshrustic.Wire (Block BlockCipher BLOCK_SIZE addBlock)

def AES_BLOCK_SIZE : Nat := BLOCK_SIZE
def MAX_CCM_PAYLOAD : Nat := 227
def U16_MAX : Nat := 65535

/-- The last two bytes of a block set, highest first.
mirrors crates/mesh-crypto/src/aes_ccm.rs:16-19, at `AES_BLOCK_SIZE - 2` -/
def putBe16 (block : Block) (val : UInt16) : Block :=
  (block.set 14 (val >>> 8).toUInt8).set 15 val.toUInt8

/-- The bytes of a chunk added to the first of a block.
mirrors crates/mesh-crypto/src/aes_ccm.rs:21-25 -/
def xorBlock (dst : Block) (src : Bytes) : Block :=
  dst.mapIdx fun i b => b ^^^ src.getD i 0

/-- mirrors crates/mesh-crypto/src/aes_ccm.rs:27-36 -/
def constantTimeCompare (a b : Bytes) : Bool :=
  if a.length != b.length then false
  else (a.zip b).foldl (fun diff p => diff ||| (p.1 ^^^ p.2)) 0 == 0

/-- mirrors crates/mesh-crypto/src/aes_ccm.rs:38-79 -/
def authStart (E : BlockCipher) (m l : Nat) (nonce aad : Bytes) (plainLen : Nat) (key : Bytes) :
    Block :=
  let flags : UInt8 := (if aad.isEmpty then 0 else 0x40) ||| UInt8.ofNat ((m - 2) / 2 * 8) |||
    UInt8.ofNat (l - 1)
  let x := E key (putBe16 (padded _ (flags :: nonce.take (15 - l))) (UInt16.ofNat plainLen))
  if aad.isEmpty then x
  else
    let size := UInt16.ofNat aad.length
    let aadBuf := [(size >>> 8).toUInt8, size.toUInt8] ++ aad
    let x := E key (xorBlock x (aadBuf.take AES_BLOCK_SIZE))
    if AES_BLOCK_SIZE - 2 < aad.length then E key (xorBlock x (aadBuf.drop AES_BLOCK_SIZE)) else x

/-- The full blocks, then what is left.
mirrors crates/mesh-crypto/src/aes_ccm.rs:86-102 -/
def authLoop (E : BlockCipher) (key : Bytes) : Nat → Block → Bytes → Block
  | 0, x, data => if data.isEmpty then x else E key (xorBlock x data)
  | fullBlocks + 1, x, data =>
    authLoop E key fullBlocks (E key (xorBlock x (data.take AES_BLOCK_SIZE)))
      (data.drop AES_BLOCK_SIZE)

/-- mirrors crates/mesh-crypto/src/aes_ccm.rs:81-103 -/
def authBlocks (E : BlockCipher) (data : Bytes) (x : Block) (key : Bytes) : Block :=
  authLoop E key (data.length / AES_BLOCK_SIZE) x data

/-- mirrors crates/mesh-crypto/src/aes_ccm.rs:105-108 -/
def encrStart (l : Nat) (nonce : Bytes) : Block :=
  padded _ (UInt8.ofNat (l - 1) :: nonce.take (15 - l))

/-- The blocks from number `i` on: what is put out, and the counter block.
mirrors crates/mesh-crypto/src/aes_ccm.rs:117-136 -/
def encrLoop (E : BlockCipher) (key : Bytes) : Nat → Nat → Block → Bytes → Bytes × Block
  | 0, i, a, input =>
    if input.isEmpty then ([], a)
    else
      let a := putBe16 a (UInt16.ofNat i)
      (addBlock (E key a) input, a)
  | fullBlocks + 1, i, a, input =>
    let a := putBe16 a (UInt16.ofNat i)
    let rest := encrLoop E key fullBlocks (i + 1) a (input.drop AES_BLOCK_SIZE)
    (addBlock (E key a) (input.take AES_BLOCK_SIZE) ++ rest.1, rest.2)

/-- mirrors crates/mesh-crypto/src/aes_ccm.rs:110-137 -/
def encr (E : BlockCipher) (input : Bytes) (a : Block) (key : Bytes) : Bytes × Block :=
  encrLoop E key (input.length / AES_BLOCK_SIZE) 1 a input

/-- The first `m` bytes with the block of counter 0 added, and the counter block.
mirrors crates/mesh-crypto/src/aes_ccm.rs:139-152,154-161 -/
def cryptAuth (E : BlockCipher) (m : Nat) (source : Bytes) (a : Block) (key : Bytes) :
    Bytes × Block :=
  let a := putBe16 a 0
  (addBlock (E key a) (source.take m), a)

/-- mirrors crates/mesh-crypto/src/aes_ccm.rs:139-152 -/
def encrAuth (E : BlockCipher) (m : Nat) (x a : Block) (tag key : Bytes) : Bytes × Block :=
  let (sum, a) := cryptAuth E m x.toList a key
  (putAt tag 0 sum, a)

/-- mirrors crates/mesh-crypto/src/aes_ccm.rs:154-161 -/
def decrAuth (E : BlockCipher) (m : Nat) (a : Block) (tag key : Bytes) : Bytes × Block :=
  cryptAuth E m tag a key

/-- mirrors crates/mesh-crypto/src/aes_ccm.rs:228-243 -/
def validParameters (key nonce : Bytes) (tagLen len : Nat) (aad : Bytes) (tagCapacity : Nat) :
    Bool :=
  (key.length == 16 || key.length == 32) && 13 ≤ nonce.length && (4 ≤ tagLen && tagLen ≤ 16) &&
    tagLen % 2 == 0 && tagLen ≤ tagCapacity && len ≤ U16_MAX && aad.length ≤ 30

/-- The answer, and the buffers of the text and the tag as they are left.
mirrors crates/mesh-crypto/src/aes_ccm.rs:163-188 -/
def aesCcmAe (E : BlockCipher) (key nonce : Bytes) (tagLen : Nat) (plain aad crypt tag : Bytes) :
    Bool × Bytes × Bytes :=
  if !validParameters key nonce tagLen plain.length aad tag.length ||
      crypt.length < plain.length then (false, crypt, tag)
  else
    let x := authStart E tagLen 2 nonce aad plain.length key
    let x := authBlocks E plain x key
    let a := encrStart 2 nonce
    let (out, a) := encr E plain a key
    let (tag, _) := encrAuth E tagLen x a tag key
    (true, putAt crypt 0 out, tag)

/-- The answer, and the caller's buffer as it is left.
mirrors crates/mesh-crypto/src/aes_ccm.rs:190-226 -/
def aesCcmAd (E : BlockCipher) (key nonce : Bytes) (tagLen : Nat) (crypt aad tag plain : Bytes) :
    Bool × Bytes :=
  if !validParameters key nonce tagLen crypt.length aad tag.length ||
      plain.length < crypt.length || MAX_CCM_PAYLOAD < crypt.length then (false, plain)
  else
    let a := encrStart 2 nonce
    let (t, a) := decrAuth E tagLen a tag key
    let (scratch, _) := encr E crypt a key
    let x := authStart E tagLen 2 nonce aad crypt.length key
    let x := authBlocks E scratch x key
    let authenticated := constantTimeCompare (x.toList.take tagLen) t
    (authenticated, if authenticated then putAt plain 0 scratch else plain)

/-! ## The counter block -/

@[simp] theorem putBe16_putBe16 (block : Block) (v w : UInt16) :
    putBe16 (putBe16 block v) w = putBe16 block w := by
  apply Vector.ext
  intro i hi
  simp only [putBe16, Vector.getElem_set]
  by_cases h15 : 15 = i <;> by_cases h14 : 14 = i <;> simp [h14, h15]

/-- The byte that counter mode adds at place `i`, the first block having number `first`. -/
def ccmByte (E : BlockCipher) (key : Bytes) (a : Block) (first i : Nat) : UInt8 :=
  (E key (putBe16 a (UInt16.ofNat (first + i / AES_BLOCK_SIZE)))).toList.getD
    (i % AES_BLOCK_SIZE) 0

/-- What the counter block counts before it is used does not matter. -/
@[simp] theorem ccmByte_putBe16 (E : BlockCipher) (key : Bytes) (a : Block) (v : UInt16)
    (first : Nat) : ccmByte E key (putBe16 a v) first = ccmByte E key a first := by
  funext i
  simp [ccmByte]

theorem ccmByte_next (E : BlockCipher) (key : Bytes) (a : Block) (first i : Nat) :
    ccmByte E key a first (i + AES_BLOCK_SIZE) = ccmByte E key a (first + 1) i := by
  unfold ccmByte
  rw [Nat.add_div_right i (by decide), Nat.add_mod_right]
  congr 5
  omega

/-- A chunk of one block at most takes the block of its first number. -/
theorem addBlock_eq (E : BlockCipher) (key : Bytes) (a : Block) (first : Nat) {chunk : Bytes}
    (h : chunk.length ≤ AES_BLOCK_SIZE) :
    addBlock (E key (putBe16 a (UInt16.ofNat first))) chunk =
      addStream (ccmByte E key a first) chunk := by
  apply addStream_congr
  intro i hi
  have hlt : i < AES_BLOCK_SIZE := Nat.lt_of_lt_of_le hi h
  unfold ccmByte
  rw [Nat.div_eq_of_lt hlt, Nat.mod_eq_of_lt hlt, Nat.add_zero]

theorem encrLoop_eq (E : BlockCipher) (key : Bytes) {fullBlocks first : Nat} {a : Block}
    {input : Bytes} (h : input.length / AES_BLOCK_SIZE = fullBlocks) :
    (encrLoop E key fullBlocks first a input).1 = addStream (ccmByte E key a first) input := by
  have hsize : AES_BLOCK_SIZE = 16 := rfl
  rw [hsize] at h
  induction fullBlocks generalizing first a input with
  | zero =>
    unfold encrLoop
    split
    · rename_i hempty
      rw [List.isEmpty_iff.mp hempty, addStream_nil]
    · exact addBlock_eq E key a first (by omega)
  | succ fullBlocks ih =>
    have hrest : (input.drop AES_BLOCK_SIZE).length / 16 = fullBlocks := by
      rw [List.length_drop]
      omega
    rw [addStream_split _ input AES_BLOCK_SIZE,
      ← addBlock_eq E key a first (by rw [List.length_take]; omega)]
    simp only [encrLoop, ih hrest, ccmByte_putBe16, ccmByte_next]

/-- The text is encrypted by adding the stream of the counters from 1 on. -/
theorem encr_eq (E : BlockCipher) (input : Bytes) (a : Block) (key : Bytes) :
    (encr E input a key).1 = addStream (ccmByte E key a 1) input :=
  encrLoop_eq E key rfl

/-- Only the two counting bytes of the counter block are written again. -/
@[simp] theorem putBe16_encrLoop (E : BlockCipher) (key : Bytes) (fullBlocks first : Nat)
    (a : Block) (input : Bytes) (v : UInt16) :
    putBe16 (encrLoop E key fullBlocks first a input).2 v = putBe16 a v := by
  induction fullBlocks generalizing first a input with
  | zero =>
    unfold encrLoop
    split
    · rfl
    · exact putBe16_putBe16 a _ v
  | succ fullBlocks ih =>
    simp only [encrLoop, ih, putBe16_putBe16]

theorem cryptAuth_eq (E : BlockCipher) {m : Nat} (h : m ≤ AES_BLOCK_SIZE) (source : Bytes)
    (a : Block) (key : Bytes) :
    (cryptAuth E m source a key).1 = addStream (ccmByte E key a 0) (source.take m) := by
  have hlength : (source.take m).length ≤ AES_BLOCK_SIZE := by
    rw [List.length_take]
    omega
  exact addBlock_eq E key a 0 hlength

/-! ## The comparison of tags -/

theorem foldl_diff_eq_zero (ps : List (UInt8 × UInt8)) (diff : UInt8) :
    ps.foldl (fun diff p => diff ||| (p.1 ^^^ p.2)) diff = 0 ↔ diff = 0 ∧ ∀ p ∈ ps, p.1 = p.2 := by
  induction ps generalizing diff with
  | nil => simp
  | cons p ps ih =>
    rw [List.foldl_cons, ih, UInt8.or_eq_zero_iff, UInt8.xor_eq_zero_iff, and_assoc]
    simp

theorem eq_of_zip_eq {a b : Bytes} (hlen : a.length = b.length)
    (h : ∀ p ∈ a.zip b, p.1 = p.2) : a = b := by
  apply List.ext_getElem hlen
  intro i ha hb
  have hz : i < (a.zip b).length := by rw [List.length_zip]; omega
  simpa using h _ (List.getElem_mem hz)

/-- The comparison says whether the bytes are the same. -/
theorem constantTimeCompare_eq (a b : Bytes) : constantTimeCompare a b = decide (a = b) := by
  unfold constantTimeCompare
  by_cases hlen : a.length = b.length
  · rw [if_neg (by simpa using hlen), Bool.eq_iff_iff, beq_iff_eq, foldl_diff_eq_zero,
      decide_eq_true_iff]
    constructor
    · rintro ⟨-, h⟩
      exact eq_of_zip_eq hlen h
    · rintro rfl
      refine ⟨rfl, fun p hp => ?_⟩
      obtain ⟨i, hi, rfl⟩ := List.getElem_of_mem hp
      simp
  · rw [if_pos (by simpa using hlen), eq_comm, decide_eq_false_iff_not]
    exact fun h => hlen (congrArg List.length h)

/-! ## Both directions -/

/-- What counter mode adds to a text. -/
def ccmStream (E : BlockCipher) (key nonce : Bytes) : Nat → UInt8 :=
  ccmByte E key (encrStart 2 nonce) 1

/-- The tag of a text, as it is sent. -/
def ccmTag (E : BlockCipher) (key nonce : Bytes) (tagLen : Nat) (plain aad : Bytes) : Bytes :=
  addStream (ccmByte E key (encrStart 2 nonce) 0)
    ((authBlocks E plain (authStart E tagLen 2 nonce aad plain.length key) key).toList.take tagLen)

section
variable {E : BlockCipher} {key nonce : Bytes} {tagLen : Nat}

theorem length_ccmTag (h : tagLen ≤ AES_BLOCK_SIZE) (plain aad : Bytes) :
    (ccmTag E key nonce tagLen plain aad).length = tagLen := by
  unfold ccmTag
  rw [length_addStream, List.length_take, Vector.length_toList]
  exact Nat.min_eq_left h

theorem validParameters_tagLen {len capacity : Nat} {aad : Bytes}
    (h : validParameters key nonce tagLen len aad capacity = true) :
    tagLen ≤ AES_BLOCK_SIZE ∧ tagLen ≤ capacity := by
  simp only [validParameters, Bool.and_eq_true, decide_eq_true_eq] at h
  exact ⟨h.1.1.1.1.2.2, h.1.1.2⟩

theorem validParameters_capacity {len capacity capacity' : Nat} {aad : Bytes}
    (h : validParameters key nonce tagLen len aad capacity = true) (hc : tagLen ≤ capacity') :
    validParameters key nonce tagLen len aad capacity' = true := by
  simp only [validParameters, Bool.and_eq_true, decide_eq_true_eq] at h ⊢
  exact ⟨⟨⟨h.1.1.1, hc⟩, h.1.2⟩, h.2⟩

/-- Valid parameters put the encrypted text and the tag into the buffers. -/
theorem aesCcmAe_eq {plain aad crypt tag : Bytes}
    (hvalid : validParameters key nonce tagLen plain.length aad tag.length = true)
    (hroom : plain.length ≤ crypt.length) :
    aesCcmAe E key nonce tagLen plain aad crypt tag =
      (true, putAt crypt 0 (addStream (ccmStream E key nonce) plain),
        putAt tag 0 (ccmTag E key nonce tagLen plain aad)) := by
  have htag := (validParameters_tagLen hvalid).1
  have hok : ¬(!validParameters key nonce tagLen plain.length aad tag.length ||
      decide (crypt.length < plain.length)) = true := by
    simp [hvalid, hroom]
  simp only [aesCcmAe, if_neg hok, encr_eq, encrAuth, cryptAuth_eq E htag, ccmStream, ccmTag]
  unfold ccmByte encr
  simp only [putBe16_encrLoop]

/-- Valid parameters decide by the tag, and put what is decrypted into the buffer if it fits. -/
theorem aesCcmAd_eq {crypt aad tag plain : Bytes}
    (hvalid : validParameters key nonce tagLen crypt.length aad tag.length = true)
    (hroom : crypt.length ≤ plain.length) (hmax : crypt.length ≤ MAX_CCM_PAYLOAD) :
    aesCcmAd E key nonce tagLen crypt aad tag plain =
      let text := addStream (ccmStream E key nonce) crypt
      if ccmTag E key nonce tagLen text aad = tag.take tagLen then (true, putAt plain 0 text)
      else (false, plain) := by
  have htag := (validParameters_tagLen hvalid).1
  have hok : ¬(!validParameters key nonce tagLen crypt.length aad tag.length ||
      decide (plain.length < crypt.length) || decide (MAX_CCM_PAYLOAD < crypt.length)) = true := by
    simp [hvalid, hroom, hmax]
  have hscratch (v : UInt16) : (encr E crypt (putBe16 (encrStart 2 nonce) v) key).1 =
      addStream (ccmStream E key nonce) crypt := by
    rw [encr_eq, ccmByte_putBe16]
    rfl
  have hcounter : (cryptAuth E tagLen tag (encrStart 2 nonce) key).2 =
      putBe16 (encrStart 2 nonce) 0 := rfl
  simp only [aesCcmAd, if_neg hok, decrAuth, cryptAuth_eq E htag, hcounter, hscratch,
    constantTimeCompare_eq, ccmTag, length_addStream, addStream_eq_iff, decide_eq_true_eq]
  split
  · rename_i h
    rw [decide_eq_true h]
  · rename_i h
    rw [decide_eq_false h]

/-- What is encrypted under valid parameters is decrypted again. -/
theorem aesCcmAd_encrypted {plain aad tag buf : Bytes}
    (hvalid : validParameters key nonce tagLen plain.length aad tag.length = true)
    (hroom : plain.length ≤ buf.length) (hmax : plain.length ≤ MAX_CCM_PAYLOAD)
    (htag : tag.take tagLen = ccmTag E key nonce tagLen plain aad) :
    aesCcmAd E key nonce tagLen (addStream (ccmStream E key nonce) plain) aad tag buf =
      (true, putAt buf 0 plain) := by
  have hlength : (addStream (ccmStream E key nonce) plain).length = plain.length :=
    length_addStream _ _
  rw [aesCcmAd_eq (by rwa [hlength]) (by rwa [hlength]) (by rwa [hlength]), addStream_addStream]
  simp only [htag, if_true]

/-- What is accepted leaves its plaintext in the buffer, and encrypting that gives back the
message and its tag. -/
theorem aesCcmAd_true {crypt aad tag plain : Bytes}
    (h : (aesCcmAd E key nonce tagLen crypt aad tag plain).1 = true) :
    ∃ text, text.length = crypt.length ∧
      (aesCcmAd E key nonce tagLen crypt aad tag plain).2 = putAt plain 0 text ∧
      ∀ out tagOut, crypt.length ≤ out.length → tagLen ≤ tagOut.length →
        aesCcmAe E key nonce tagLen text aad out tagOut =
          (true, putAt out 0 crypt, putAt tagOut 0 (tag.take tagLen)) := by
  by_cases hok : (!validParameters key nonce tagLen crypt.length aad tag.length ||
      decide (plain.length < crypt.length) || decide (MAX_CCM_PAYLOAD < crypt.length)) = true
  · have hrefused : aesCcmAd E key nonce tagLen crypt aad tag plain = (false, plain) := if_pos hok
    rw [hrefused] at h
    cases h
  · simp only [Bool.or_eq_true, Bool.not_eq_true', decide_eq_true_eq, not_or, Nat.not_lt,
      Bool.not_eq_false] at hok
    obtain ⟨⟨hvalid, hroom⟩, hmax⟩ := hok
    rw [aesCcmAd_eq hvalid hroom hmax] at h ⊢
    simp only at h ⊢
    have hlength : (addStream (ccmStream E key nonce) crypt).length = crypt.length :=
      length_addStream _ _
    split at h
    · rename_i htag
      refine ⟨addStream (ccmStream E key nonce) crypt, hlength, by rw [if_pos htag], ?_⟩
      intro out tagOut hout htagOut
      have hvalid' := validParameters_capacity hvalid htagOut
      rw [aesCcmAe_eq (by rwa [hlength]) (by rwa [hlength]), addStream_addStream, htag]
    · cases h

/-- What is refused leaves the buffer of the caller as it was. -/
theorem aesCcmAd_false {crypt aad tag plain : Bytes}
    (h : (aesCcmAd E key nonce tagLen crypt aad tag plain).1 = false) :
    (aesCcmAd E key nonce tagLen crypt aad tag plain).2 = plain := by
  unfold aesCcmAd at h ⊢
  split at h
  · rename_i hbad
    rw [if_pos hbad]
  · rename_i hok
    rw [if_neg hok]
    exact if_neg (by simpa using h)

end

end Meshrustic.Crypto
