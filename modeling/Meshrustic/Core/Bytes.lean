import Mathlib.Tactic.Common

/-!
# Fixed-offset byte records

A record is a zeroed buffer into which fields are copied at fixed offsets,
and it is read back by slicing. `writeAll` is the sequence of copies,
`slice` the read. When the fields are listed in the order they lie in the
buffer (`Ordered`), each of them reads back what was written
(`slice_writeAll`), whatever stands before and after it: that is the only
fact about layouts the codecs need.

Integers travel as little-endian words (`le32`, `ofLe32`). A stream cipher adds
a stream of bytes to a text (`addStream`), which taken twice is nothing, and may
be taken in pieces.
-/
namespace Meshrustic

abbrev Bytes := List UInt8

/-- `buf[off..off + len]`. -/
def slice (buf : Bytes) (off len : Nat) : Bytes := (buf.drop off).take len

/-- `buf[i]`, 0 outside the buffer. -/
def byteAt (buf : Bytes) (i : Nat) : UInt8 := buf.getD i 0

/-- `buf[off..off + bs.len()].copy_from_slice(bs)`. -/
def putAt (buf : Bytes) (off : Nat) (bs : Bytes) : Bytes :=
  buf.take off ++ bs ++ buf.drop (off + bs.length)

/-- The copies of `fs`, in order. -/
def writeAll (buf : Bytes) : List (Nat × Bytes) → Bytes
  | [] => buf
  | f :: fs => writeAll (putAt buf f.1 f.2) fs

/-- `fs` lie one behind the other in `[lo, hi)`. -/
def Ordered (lo hi : Nat) : List (Nat × Bytes) → Prop
  | [] => lo ≤ hi
  | f :: fs => lo ≤ f.1 ∧ Ordered (f.1 + f.2.length) hi fs

/-! ## Slices -/

theorem length_slice {buf : Bytes} {off len : Nat} (h : off + len ≤ buf.length) :
    (slice buf off len).length = len := by
  simp only [slice, List.length_take, List.length_drop]; omega

theorem slice_append_left {a b : Bytes} {off len : Nat} (h : off + len ≤ a.length) :
    slice (a ++ b) off len = slice a off len := by
  unfold slice
  rw [List.drop_append_of_le_length (by omega), List.take_append_of_le_length]
  rw [List.length_drop]; omega

theorem slice_append_right (a b : Bytes) (off len : Nat) :
    slice (a ++ b) (a.length + off) len = slice b off len := by
  unfold slice
  rw [List.drop_append, List.drop_eq_nil_of_le (by omega), List.nil_append]
  congr 2; omega

theorem slice_zero_self (a b : Bytes) : slice (a ++ b) 0 a.length = a := by
  simp [slice]

theorem slice_take {buf : Bytes} {off len n : Nat} (h : off + len ≤ n) :
    slice (buf.take n) off len = slice buf off len := by
  unfold slice
  rw [List.drop_take, List.take_take]
  congr 1; omega

theorem take_slice {buf : Bytes} {off len n : Nat} (h : n ≤ len) :
    (slice buf off len).take n = slice buf off n := by
  unfold slice
  rw [List.take_take]; congr 1; omega

theorem byteAt_eq_slice {buf : Bytes} {i : Nat} {b : UInt8} (h : slice buf i 1 = [b]) :
    byteAt buf i = b := by
  have h0 : (slice buf i 1)[0]? = some b := by rw [h]; rfl
  unfold slice at h0
  rw [List.getElem?_take_of_lt (by omega), List.getElem?_drop, Nat.add_zero] at h0
  simp [byteAt, List.getD_eq_getElem?_getD, h0]

theorem byteAt_slice {buf : Bytes} {off len i : Nat} (h : i < len) :
    byteAt (slice buf off len) i = byteAt buf (off + i) := by
  simp only [byteAt, slice, List.getD_eq_getElem?_getD]
  rw [List.getElem?_take_of_lt h, List.getElem?_drop]

theorem byteAt_append_left {a b : Bytes} {i : Nat} (h : i < a.length) :
    byteAt (a ++ b) i = byteAt a i := by
  simp only [byteAt, List.getD_eq_getElem?_getD, List.getElem?_append_left h]

theorem byteAt_take {buf : Bytes} {i n : Nat} (h : i < n) :
    byteAt (buf.take n) i = byteAt buf i := by
  simp only [byteAt, List.getD_eq_getElem?_getD, List.getElem?_take_of_lt h]

/-! ## Copies -/

theorem length_putAt {buf bs : Bytes} {off : Nat} (h : off + bs.length ≤ buf.length) :
    (putAt buf off bs).length = buf.length := by
  simp only [putAt, List.length_append, List.length_take, List.length_drop]; omega

theorem slice_putAt_same {buf bs : Bytes} {off : Nat} (h : off ≤ buf.length) :
    slice (putAt buf off bs) off bs.length = bs := by
  have hl : (buf.take off).length = off := by rw [List.length_take]; omega
  have e := slice_append_right (buf.take off) (bs ++ buf.drop (off + bs.length)) 0 bs.length
  rw [hl, Nat.add_zero, slice_zero_self] at e
  rw [putAt, List.append_assoc]; exact e

theorem slice_putAt_before {buf bs : Bytes} {off o len : Nat} (h : o + len ≤ off)
    (hb : off ≤ buf.length) : slice (putAt buf off bs) o len = slice buf o len := by
  rw [putAt, List.append_assoc, slice_append_left (by rw [List.length_take]; omega),
    slice_take h]

theorem putAt_drop {buf bs : Bytes} {off n : Nat} (h : off + bs.length ≤ n)
    (hb : off + bs.length ≤ buf.length) : (putAt buf off bs).drop n = buf.drop n := by
  unfold putAt
  have hl : (buf.take off ++ bs).length = off + bs.length := by
    rw [List.length_append, List.length_take]; omega
  rw [List.drop_append, List.drop_eq_nil_of_le (by rw [hl]; exact h), List.nil_append, hl,
    List.drop_drop]
  congr 1; omega

theorem putAt_self {buf bs : Bytes} (h : bs.length = buf.length) : putAt buf 0 bs = bs := by
  simp [putAt, h]

/-- Two copies side by side are one copy. -/
theorem putAt_putAt_append {buf a b : Bytes} {off : Nat}
    (h : off + a.length + b.length ≤ buf.length) :
    putAt (putAt buf off a) (off + a.length) b = putAt buf off (a ++ b) := by
  have hhead : (buf.take off ++ a).length = off + a.length := by
    rw [List.length_append, List.length_take]
    omega
  have htake : (putAt buf off a).take (off + a.length) = buf.take off ++ a := by
    unfold putAt
    rw [List.take_append_of_le_length (by omega), List.take_of_length_le (by omega)]
  have hdrop : (putAt buf off a).drop (off + a.length + b.length) =
      buf.drop (off + a.length + b.length) := putAt_drop (by omega) (by omega)
  conv_lhs => rw [putAt]
  rw [htake, hdrop, putAt, List.length_append, Nat.add_assoc, List.append_assoc (buf.take off) a b]

/-! ## Records -/

theorem Ordered.le {lo hi : Nat} {fs : List (Nat × Bytes)} (h : Ordered lo hi fs) : lo ≤ hi := by
  induction fs generalizing lo with
  | nil => exact h
  | cons f fs ih => have := ih h.2; have := h.1; omega

theorem length_writeAll {buf : Bytes} {lo : Nat} {fs : List (Nat × Bytes)}
    (h : Ordered lo buf.length fs) : (writeAll buf fs).length = buf.length := by
  induction fs generalizing buf lo with
  | nil => rfl
  | cons f fs ih =>
    have hp : (putAt buf f.1 f.2).length = buf.length := length_putAt h.2.le
    rw [writeAll, ih (by rw [hp]; exact h.2), hp]

/-- Nothing before the first field is touched. -/
theorem slice_writeAll_before {buf : Bytes} {lo o len : Nat} {fs : List (Nat × Bytes)}
    (h : Ordered lo buf.length fs) (ho : o + len ≤ lo) :
    slice (writeAll buf fs) o len = slice buf o len := by
  induction fs generalizing buf lo with
  | nil => rfl
  | cons f fs ih =>
    have hp : (putAt buf f.1 f.2).length = buf.length := length_putAt h.2.le
    have hle := h.2.le
    rw [writeAll, ih (by rw [hp]; exact h.2) (by have := h.1; omega),
      slice_putAt_before (by have := h.1; omega) (by omega)]

/-- Each field of an ordered record reads back what was written to it. -/
theorem slice_writeAll {buf : Bytes} {lo off : Nat} {bs : Bytes} {fs : List (Nat × Bytes)}
    (h : Ordered lo buf.length fs) (hm : (off, bs) ∈ fs) :
    slice (writeAll buf fs) off bs.length = bs := by
  induction fs generalizing buf lo with
  | nil => cases hm
  | cons f fs ih =>
    have hp : (putAt buf f.1 f.2).length = buf.length := length_putAt h.2.le
    have hrest : Ordered (f.1 + f.2.length) (putAt buf f.1 f.2).length fs := by
      rw [hp]; exact h.2
    rcases List.mem_cons.mp hm with rfl | hm
    · have hle := h.2.le
      rw [writeAll, slice_writeAll_before hrest (Nat.le_refl _), slice_putAt_same (by omega)]
    · exact ih hrest hm

/-! ## Little-endian words -/

/-- `u32::to_le_bytes`. -/
def le32 (x : UInt32) : Bytes :=
  [UInt8.ofNat x.toNat, UInt8.ofNat (x.toNat / 256), UInt8.ofNat (x.toNat / 65536),
    UInt8.ofNat (x.toNat / 16777216)]

/-- `u32::from_le_bytes` of the first four bytes. -/
def ofLe32 (b : Bytes) : UInt32 :=
  UInt32.ofNat ((byteAt b 0).toNat + 256 * (byteAt b 1).toNat + 65536 * (byteAt b 2).toNat +
    16777216 * (byteAt b 3).toNat)

@[simp] theorem length_le32 (x : UInt32) : (le32 x).length = 4 := rfl

@[simp] theorem ofLe32_le32 (x : UInt32) : ofLe32 (le32 x) = x := by
  apply UInt32.toNat_inj.mp
  have hx := x.toNat_lt
  simp only [ofLe32, le32, byteAt, List.getD_cons_zero, List.getD_cons_succ,
    UInt32.toNat_ofNat', UInt8.toNat_ofNat']
  omega

theorem le32_ofLe32 {b : Bytes} (h : b.length = 4) : le32 (ofLe32 b) = b := by
  match b, h with
  | [b0, b1, b2, b3], _ =>
    have h0 := b0.toNat_lt
    have h1 := b1.toNat_lt
    have h2 := b2.toNat_lt
    have h3 := b3.toNat_lt
    simp only [le32, ofLe32, byteAt, List.getD_cons_zero, List.getD_cons_succ, UInt32.toNat_ofNat',
      List.cons.injEq, and_true, ← UInt8.toNat_inj, UInt8.toNat_ofNat']
    omega

/-- The lowest byte of a word is its first one. -/
theorem ofLe32_mod (b : Bytes) : (ofLe32 b).toNat % 256 = (byteAt b 0).toNat := by
  have := (byteAt b 0).toNat_lt
  have := (byteAt b 1).toNat_lt
  have := (byteAt b 2).toNat_lt
  have := (byteAt b 3).toNat_lt
  simp only [ofLe32, UInt32.toNat_ofNat']
  omega

/-- The highest byte of a word is its fourth one. -/
theorem ofLe32_div (b : Bytes) : (ofLe32 b).toNat / 16777216 = (byteAt b 3).toNat := by
  have := (byteAt b 0).toNat_lt
  have := (byteAt b 1).toNat_lt
  have := (byteAt b 2).toNat_lt
  have := (byteAt b 3).toNat_lt
  simp only [ofLe32, UInt32.toNat_ofNat']
  omega

/-! ## Streams added to a text -/

/-- Each byte of `data` with the byte of the stream at its place added. -/
def addStream (stream : Nat → UInt8) (data : Bytes) : Bytes :=
  data.mapIdx fun i b => b ^^^ stream i

@[simp] theorem length_addStream (stream : Nat → UInt8) (data : Bytes) :
    (addStream stream data).length = data.length := by
  simp [addStream]

@[simp] theorem addStream_nil (stream : Nat → UInt8) : addStream stream [] = [] := rfl

/-- A stream added twice is not there. -/
theorem addStream_addStream (stream : Nat → UInt8) (data : Bytes) :
    addStream stream (addStream stream data) = data := by
  apply List.ext_getElem (by simp)
  intro i _ _
  simp only [addStream, List.getElem_mapIdx]
  rw [UInt8.xor_assoc, UInt8.xor_self, UInt8.xor_zero]

theorem addStream_eq_iff {stream : Nat → UInt8} {a b : Bytes} :
    addStream stream a = b ↔ a = addStream stream b := by
  constructor
  · rintro rfl
    exact (addStream_addStream stream a).symm
  · rintro rfl
    exact addStream_addStream stream b

/-- Only the bytes of the stream beside the data count. -/
theorem addStream_congr {stream stream' : Nat → UInt8} {data : Bytes}
    (h : ∀ i < data.length, stream i = stream' i) : addStream stream data = addStream stream' data := by
  apply List.ext_getElem (by simp)
  intro i hi _
  rw [length_addStream] at hi
  simp only [addStream, List.getElem_mapIdx, h i hi]

/-- The first `n` bytes and those behind them may be treated one after the other. -/
theorem addStream_split (stream : Nat → UInt8) (data : Bytes) (n : Nat) :
    addStream stream data =
      addStream stream (data.take n) ++ addStream (fun i => stream (i + n)) (data.drop n) := by
  by_cases hn : data.length ≤ n
  · rw [List.take_of_length_le hn, List.drop_eq_nil_of_le hn, addStream_nil, List.append_nil]
  · conv_lhs => rw [← List.take_append_drop n data]
    unfold addStream
    rw [List.mapIdx_append, List.length_take, Nat.min_eq_left (by omega)]

end Meshrustic
