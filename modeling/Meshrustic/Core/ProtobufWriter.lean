import Meshrustic.Core.Protobuf
import Meshrustic.Core.Table
import Mathlib.Algebra.Group.Nat.Defs

/-!
# Writing protobuf messages

An encoder pushes its fields into a buffer of fixed capacity. A push that finds
no room does nothing and nobody is told, so a message that is too long is cut,
and may end in the middle of a field.

A message is a list of fields (`Field`), `messageBytes` their bytes. An encoder
`Writes` fields when it appends their bytes wherever there is room for all of
them; encoders that do are put together by `Writes.cons`, and a buffer that is
large enough then holds the message (`Writes.rows`).

Results:
* `readVarint64_varintBytes`: a varint reads back, whatever stands behind it;
* `readField_fieldBytes`: so does a field;
* `decodeWith_messageBytes`: the walk over a message that was written visits its
  fields.
-/
namespace Meshrustic.Protobuf

/-! ## Fixed-capacity buffers -/

/-- A `heapless::Vec<u8, cap>`. -/
abbrev Buffer (cap : Nat) := Table cap UInt8

section Pushes

variable {cap : Nat}

/-- `let _ = out.push(b)` -/
def pushByte (out : Buffer cap) (b : UInt8) : Buffer cap := (out.push b).getD out

/-- `let _ = out.extend_from_slice(bs)`, all of them or none. -/
def extendFromSlice (out : Buffer cap) (bs : Bytes) : Buffer cap :=
  if h : out.rows.length + bs.length ≤ cap then
    ⟨out.rows ++ bs, by rw [List.length_append]; exact h⟩
  else out

/-- The groups of seven bits of `v`, from the lowest on, the continuation bit on
each but the last; `fuel` bounds their number. -/
def varintGroups : Nat → Nat → Bytes
  | 0, _ => []
  | fuel + 1, v =>
    if v / 128 = 0 then [UInt8.ofNat (v % 128)]
    else UInt8.ofNat (v % 128 + 128) :: varintGroups fuel (v / 128)

/-- The varint of a number of 64 bits. -/
def varintBytes (v : Nat) : Bytes := varintGroups 10 v

/-- The loop of `push_varint`, one push for each group. -/
def pushVarint (out : Buffer cap) (v : Nat) : Buffer cap := (varintBytes v).foldl pushByte out

def pushTag (out : Buffer cap) (field wire : Nat) : Buffer cap := pushVarint out (field * 8 + wire)

/-- `if c { push }` -/
def pushIf (c : Bool) (push : Buffer cap → Buffer cap) (out : Buffer cap) : Buffer cap :=
  if c then push out else out

/-- One push after the other. -/
def pushAll (pushes : List (Buffer cap → Buffer cap)) (out : Buffer cap) : Buffer cap :=
  pushes.foldl (fun out push => push out) out

end Pushes

/-! ## Messages -/

/-- A field number and its value. -/
abbrev Field := Nat × Value

def Value.wire : Value → Nat
  | .varint _ => 0
  | .fixed64 _ => 1
  | .len _ => 2
  | .fixed32 _ => 5

def Value.bytes : Value → Bytes
  | .varint v => varintBytes v.toNat
  | .fixed64 b => b
  | .len b => varintBytes b.length ++ b
  | .fixed32 b => b

/-- The pushes of one field. -/
def pushField {cap : Nat} (f : Field) (out : Buffer cap) : Buffer cap :=
  match f.2 with
  | .varint v => pushVarint (pushTag out f.1 0) v.toNat
  | .fixed64 b => extendFromSlice (pushTag out f.1 1) b
  | .len b => extendFromSlice (pushVarint (pushTag out f.1 2) (b.length % UInt32.size)) b
  | .fixed32 b => extendFromSlice (pushTag out f.1 5) b

/-- A message pushed into an empty buffer, field by field. -/
def pushFields {cap : Nat} (fs : List Field) : Buffer cap := pushAll (fs.map pushField) .empty

def u32Field (field : Nat) (v : UInt32) : Field := (field, .varint v.toUInt64)

/-- An `int32` travels sign-extended to 64 bits. -/
def int32Field (field : Nat) (v : Int32) : Field := (field, .varint v.toInt64.toUInt64)

def bytesField (field : Nat) (data : Bytes) : Field := (field, .len data)

def fixed32Field (field : Nat) (word : Bytes) : Field := (field, .fixed32 word)

/-- A field that is left out at its default. -/
def present (c : Bool) (f : Field) : List Field := if c then [f] else []

@[simp] theorem present_true (f : Field) : present true f = [f] := rfl

@[simp] theorem present_false (f : Field) : present false f = [] := rfl

/-- A value of its wire type. -/
def Value.Valid : Value → Prop
  | .varint _ => True
  | .fixed64 b => b.length = 8
  | .len b => b.length < UInt32.size
  | .fixed32 b => b.length = 4

def fieldBytes (f : Field) : Bytes := varintBytes (f.1 * 8 + f.2.wire) ++ f.2.bytes

def messageBytes (fs : List Field) : Bytes := fs.flatMap fieldBytes

/-- The number fits a tag, and the value its type. -/
structure Valid (f : Field) : Prop where
  positive : 0 < f.1
  tag : f.1 < 2 ^ 29
  value : f.2.Valid

theorem valid_iff {field : Nat} {v : Value} :
    Valid (field, v) ↔ 0 < field ∧ field < 2 ^ 29 ∧ v.Valid :=
  ⟨fun h => ⟨h.positive, h.tag, h.value⟩, fun h => ⟨h.1, h.2.1, h.2.2⟩⟩

theorem forall_valid_present {c : Bool} {f : Field} (h : c → Valid f) :
    ∀ g ∈ present c f, Valid g := by
  unfold present
  intro g hg
  cases c with
  | false => cases hg
  | true => exact List.mem_singleton.mp hg ▸ h rfl

@[simp] theorem messageBytes_nil : messageBytes [] = [] := rfl

@[simp] theorem messageBytes_cons (f : Field) (fs : List Field) :
    messageBytes (f :: fs) = fieldBytes f ++ messageBytes fs := rfl

@[simp] theorem messageBytes_append (fs gs : List Field) :
    messageBytes (fs ++ gs) = messageBytes fs ++ messageBytes gs := List.flatMap_append

/-! ## Varints read back -/

theorem toNat_and_7f (b : UInt8) : (b &&& 0x7f).toNat = b.toNat % 128 := by
  rw [UInt8.toNat_and]
  exact Nat.and_two_pow_sub_one_eq_mod _ 7

/-- The continuation bit. -/
theorem and_80_eq_zero (b : UInt8) : (b &&& 0x80 == 0) = decide (b.toNat < 128) := by
  have hall : ∀ n : Fin 256, (UInt8.ofNat n.val &&& 0x80 == 0) = decide (n.val < 128) := by
    decide +kernel
  have h := hall ⟨b.toNat, b.toNat_lt⟩
  rwa [UInt8.ofNat_toNat] at h

/-- A group joins the ones below it. -/
theorem toNat_or_group {value : UInt64} {b : UInt8} {k : Nat} (hk : k ≤ 9)
    (hvalue : value.toNat < 2 ^ (7 * k)) (hfits : b.toNat % 128 * 2 ^ (7 * k) < 2 ^ 64) :
    (value ||| (b &&& 0x7f).toUInt64 <<< UInt64.ofNat (7 * k)).toNat =
      value.toNat + b.toNat % 128 * 2 ^ (7 * k) := by
  have hshift : (UInt64.ofNat (7 * k)).toNat % 64 = 7 * k := by
    rw [UInt64.toNat_ofNat']
    omega
  rw [UInt64.toNat_or, UInt64.toNat_shiftLeft, hshift, UInt8.toNat_toUInt64, toNat_and_7f,
    Nat.shiftLeft_eq, Nat.mod_eq_of_lt hfits, Nat.or_comm, Nat.mul_comm,
    ← Nat.two_pow_add_eq_or_of_lt hvalue, Nat.add_comm]

/-- Only the tenth group is refused for its size. -/
theorem tenth_group {k : Nat} {b : UInt8} (h : k = 9 → b.toNat ≤ 1) :
    (7 * k == 63 && b > 1) = false := by
  by_cases hk : k = 9
  · have hb : ¬ b > 1 := by
      rw [gt_iff_lt, UInt8.lt_iff_toNat_lt]
      exact Nat.not_lt_of_le (h hk)
    rw [decide_eq_false hb, Bool.and_false]
  · rw [beq_false_of_ne (by omega), Bool.false_and]

/-- Groups read back behind `k` others. -/
theorem readVarint64From_groups {fuel k v : Nat} (value : UInt64) (hfuel : fuel + k = 10)
    (hk : k ≤ 9) (hv : v * 2 ^ (7 * k) < 2 ^ 64) (hvalue : value.toNat < 2 ^ (7 * k))
    (rest : Bytes) :
    readVarint64From (7 * k) value (varintGroups fuel v ++ rest) =
      some (UInt64.ofNat (value.toNat + v * 2 ^ (7 * k)), rest) := by
  induction fuel generalizing k v value with
  | zero => omega
  | succ fuel ih =>
    have hnine : k = 9 → v < 2 := by
      rintro rfl
      have : v * 2 ^ 63 < 2 ^ 64 := hv
      omega
    unfold varintGroups
    by_cases hlast : v / 128 = 0
    · have hb : (UInt8.ofNat (v % 128)).toNat = v := by
        rw [UInt8.toNat_ofNat']
        omega
      have hsmall : v % 128 = v := by omega
      have hor := toNat_or_group (b := UInt8.ofNat (v % 128)) hk hvalue (by rw [hb, hsmall]; exact hv)
      rw [hb, hsmall] at hor
      rw [if_pos hlast, List.singleton_append, readVarint64From, tenth_group (by rw [hb]; omega),
        if_neg Bool.false_ne_true, and_80_eq_zero, hb, if_pos (by simp; omega), ← hor,
        UInt64.ofNat_toNat, hsmall]
    · have hb : (UInt8.ofNat (v % 128 + 128)).toNat = v % 128 + 128 := by
        rw [UInt8.toNat_ofNat']
        omega
      have hgroup : (v % 128 + 128) % 128 = v % 128 := by omega
      have hpow : 2 ^ (7 * (k + 1)) = 128 * 2 ^ (7 * k) := by
        rw [Nat.mul_add, Nat.pow_add]
        exact Nat.mul_comm _ _
      have hlow : v % 128 * 2 ^ (7 * k) ≤ 127 * 2 ^ (7 * k) := Nat.mul_le_mul_right _ (by omega)
      have hparts : v * 2 ^ (7 * k) =
          v % 128 * 2 ^ (7 * k) + v / 128 * (128 * 2 ^ (7 * k)) := by
        rw [← Nat.mul_assoc, ← Nat.add_mul]
        congr 1
        omega
      have hor := toNat_or_group (b := UInt8.ofNat (v % 128 + 128)) hk hvalue
        (by rw [hb, hgroup]; omega)
      rw [hb, hgroup] at hor
      have hnext := ih (k := k + 1) (v := v / 128)
        (value ||| (UInt8.ofNat (v % 128 + 128) &&& 0x7f).toUInt64 <<< UInt64.ofNat (7 * k))
        (by omega) (by omega) (by rw [hpow]; omega) (by rw [hor, hpow]; omega)
      rw [if_neg hlast, List.cons_append, readVarint64From, tenth_group (by omega),
        if_neg Bool.false_ne_true, and_80_eq_zero, hb, if_neg (by simp),
        if_neg (show ¬ 7 * k ≥ 63 by omega)]
      rw [show 7 * k + 7 = 7 * (k + 1) from rfl, hnext, hor, hpow, hparts, Nat.add_assoc]

theorem readVarint64_varintBytes {v : Nat} (hv : v < 2 ^ 64) (rest : Bytes) :
    readVarint64 (varintBytes v ++ rest) = some (UInt64.ofNat v, rest) := by
  have h := readVarint64From_groups (k := 0) (v := v) 0 rfl (by omega)
    (by simpa using hv) (by decide) rest
  simpa [readVarint64, varintBytes] using h

theorem readVarint_varintBytes {v : Nat} (hv : v < UInt32.size) (rest : Bytes) :
    readVarint (varintBytes v ++ rest) = some (UInt32.ofNat v, rest) := by
  have hsize : UInt32.size = 4294967296 := rfl
  have hnat : (UInt64.ofNat v).toNat = v := by
    rw [UInt64.toNat_ofNat']
    omega
  unfold readVarint
  rw [readVarint64_varintBytes (by omega)]
  dsimp only
  rw [hnat, if_pos (by omega)]
  congr 2
  apply UInt32.toNat_inj.mp
  rw [UInt64.toNat_toUInt32, hnat, UInt32.toNat_ofNat']

/-! ## Lengths -/

/-- A number of `k + 1` groups. -/
theorem length_varintGroups {fuel k v : Nat} (hfuel : k < fuel) (hlow : k = 0 ∨ 128 ^ k ≤ v)
    (hhigh : v < 128 ^ (k + 1)) : (varintGroups fuel v).length = k + 1 := by
  induction fuel generalizing k v with
  | zero => omega
  | succ fuel ih =>
    unfold varintGroups
    cases k with
    | zero =>
      rw [if_pos (by omega)]
      rfl
    | succ k =>
      have hv : 128 ^ (k + 1) ≤ v := hlow.resolve_left (Nat.succ_ne_zero k)
      have hpos : 0 < 128 ^ k := Nat.pow_pos (by decide)
      rw [Nat.pow_succ] at hv
      rw [Nat.pow_succ] at hhigh
      have hnext : 128 ^ k ≤ v / 128 := (Nat.le_div_iff_mul_le (by decide)).mpr hv
      rw [if_neg (by omega), List.length_cons,
        ih (Nat.lt_of_succ_lt_succ hfuel) (.inr hnext) (Nat.div_lt_of_lt_mul (by omega))]

theorem length_varintGroups_le (fuel v : Nat) : (varintGroups fuel v).length ≤ fuel := by
  induction fuel generalizing v with
  | zero => exact Nat.le_refl _
  | succ fuel ih =>
    unfold varintGroups
    split
    · simp
    · exact Nat.succ_le_succ (ih _)

/-- `((32 - v.leading_zeros()).max(1)).div_ceil(7)` -/
def varintSize (v : UInt32) : Nat :=
  let leadingZeros := if v = 0 then 32 else 31 - v.toNat.log2
  (max (32 - leadingZeros) 1 + 6) / 7

/-- The size computed in advance is the exact one. -/
theorem length_varintBytes (v : UInt32) : (varintBytes v.toNat).length = varintSize v := by
  unfold varintBytes varintSize
  by_cases h0 : v = 0
  · subst h0
    decide
  · have hne : v.toNat ≠ 0 := fun h => h0 (UInt32.toNat_inj.mp h)
    have hlog : v.toNat.log2 < 32 := (Nat.log2_lt hne).mpr v.toNat_lt
    have hpow : ∀ n, 128 ^ n = 2 ^ (7 * n) := fun n => (Nat.pow_mul 2 7 n).symm
    have hlow : 128 ^ (v.toNat.log2 / 7) ≤ v.toNat := by
      rw [hpow]
      exact Nat.le_trans (Nat.pow_le_pow_right (by decide) (by omega)) (Nat.log2_self_le hne)
    have hhigh : v.toNat < 128 ^ (v.toNat.log2 / 7 + 1) := by
      rw [hpow]
      exact (Nat.log2_lt hne).mp (by omega)
    rw [length_varintGroups (by omega) (.inr hlow) hhigh, if_neg h0]
    dsimp only
    omega

/-- A number of `k` groups of seven bits. -/
theorem varintSize_le_of_lt {v : UInt32} {k : Nat} (hk : 0 < k) (h : v.toNat < 2 ^ (7 * k)) :
    varintSize v ≤ k := by
  unfold varintSize
  by_cases h0 : v = 0
  · subst h0
    exact hk
  · have hne : v.toNat ≠ 0 := fun h => h0 (UInt32.toNat_inj.mp h)
    have hlog : v.toNat.log2 < 7 * k := (Nat.log2_lt hne).mpr h
    have hword : v.toNat.log2 < 32 := (Nat.log2_lt hne).mpr v.toNat_lt
    rw [if_neg h0]
    dsimp only
    omega

theorem varintSize_le (v : UInt32) : varintSize v ≤ 5 :=
  varintSize_le_of_lt (by decide) (Nat.lt_trans v.toNat_lt (by decide))

theorem length_varintBytes_le (v : Nat) : (varintBytes v).length ≤ 10 := length_varintGroups_le _ _

/-- A number below 128 is one byte. -/
theorem varintBytes_small {v : Nat} (h : v < 128) : varintBytes v = [UInt8.ofNat v] := by
  unfold varintBytes varintGroups
  rw [if_pos (by omega), Nat.mod_eq_of_lt h]

theorem Value.wire_lt (v : Value) : v.wire < 8 := by cases v <;> simp [Value.wire]

/-- The tag of a low field number is one byte. -/
theorem length_fieldBytes {field : Nat} (h : field < 16) (v : Value) :
    (fieldBytes (field, v)).length = 1 + v.bytes.length := by
  have hwire := v.wire_lt
  unfold fieldBytes
  rw [List.length_append, varintBytes_small (by dsimp only; omega)]
  rfl

theorem Value.length_varint (v : UInt32) : (Value.varint v.toUInt64).bytes.length = varintSize v :=
  length_varintBytes v

theorem Value.length_len {b : Bytes} (h : b.length < UInt32.size) :
    (Value.len b).bytes.length = varintSize (UInt32.ofNat b.length) + b.length := by
  have hsize := length_varintBytes (UInt32.ofNat b.length)
  rw [UInt32.toNat_ofNat', Nat.mod_eq_of_lt h] at hsize
  rw [← hsize]
  exact List.length_append

/-! ## Fields read back -/

theorem readExact_append (b rest : Bytes) : readExact b.length (b ++ rest) = some (b, rest) := by
  unfold readExact
  rw [if_pos (by rw [List.length_append]; omega), List.take_left, List.drop_left]

theorem readValue_bytes {v : Value} (h : v.Valid) (rest : Bytes) :
    readValue (UInt32.ofNat v.wire) (v.bytes ++ rest) = some (v, rest) := by
  cases v with
  | varint v =>
    change (readVarint64 (varintBytes v.toNat ++ rest)).map _ = _
    rw [readVarint64_varintBytes v.toNat_lt, UInt64.ofNat_toNat]
    rfl
  | fixed64 b =>
    change (readExact 8 (b ++ rest)).map _ = _
    have h8 : b.length = 8 := h
    rw [← h8, readExact_append]
    rfl
  | len b =>
    have hread := readVarint_varintBytes h (b ++ rest)
    have hlen : (UInt32.ofNat b.length).toNat = b.length := by
      rw [UInt32.toNat_ofNat', Nat.mod_eq_of_lt h]
    simp only [Value.wire, Value.bytes, List.append_assoc, readValue, hread, hlen, readExact_append]
    rfl
  | fixed32 b =>
    change (readExact 4 (b ++ rest)).map _ = _
    have h4 : b.length = 4 := h
    rw [← h4, readExact_append]
    rfl

/-- A field reads back, and what stands behind it is left. -/
theorem readField_fieldBytes {f : Field} (h : Valid f) (rest : Bytes) :
    readField (fieldBytes f ++ rest) = some (f.1, f.2, rest) := by
  have htag := h.tag
  have hwire := f.2.wire_lt
  have hnat : (UInt32.ofNat (f.1 * 8 + f.2.wire)).toNat = f.1 * 8 + f.2.wire := by
    rw [UInt32.toNat_ofNat']
    omega
  have hfield : (UInt32.ofNat (f.1 * 8 + f.2.wire) >>> 3).toNat = f.1 := by
    rw [UInt32.toNat_shiftRight, hnat]
    change (f.1 * 8 + f.2.wire) >>> 3 = f.1
    rw [Nat.shiftRight_eq_div_pow]
    omega
  have hlow : UInt32.ofNat (f.1 * 8 + f.2.wire) &&& 7 = UInt32.ofNat f.2.wire := by
    apply UInt32.toNat_inj.mp
    rw [UInt32.toNat_and, hnat]
    refine (Nat.and_two_pow_sub_one_eq_mod _ 3).trans ?_
    rw [UInt32.toNat_ofNat']
    omega
  have hpositive : (UInt32.ofNat (f.1 * 8 + f.2.wire) >>> 3 == 0) = false := by
    refine beq_false_of_ne fun hzero => ?_
    have hpos := h.positive
    rw [hzero] at hfield
    exact absurd hfield (Nat.ne_of_lt hpos)
  unfold readField fieldBytes
  rw [List.append_assoc, readVarint_varintBytes (by change _ < 4294967296; omega)]
  dsimp only
  rw [hpositive, if_neg Bool.false_ne_true, hlow, readValue_bytes h.value, hfield]
  rfl

/-- The walk visits a field that was written, and goes on behind it. -/
theorem decodeWith_fieldBytes {σ : Type} {step : σ → Nat → Value → Option σ} {f : Field}
    (h : Valid f) (s : σ) (rest : Bytes) :
    decodeWith step s (fieldBytes f ++ rest) =
      (step s f.1 f.2).bind fun s => decodeWith step s rest :=
  decodeWith_of_readField (readField_fieldBytes h rest)

/-- A 32-bit varint reads back as it was. -/
@[simp] theorem u32Of_toUInt64 (v : UInt32) : u32Of v.toUInt64 = some v := by
  unfold u32Of
  rw [UInt32.toNat_toUInt64, if_pos v.toNat_lt, UInt32.toUInt32_toUInt64]

@[simp] theorem u32Of_one : u32Of 1 = some 1 := rfl

/-- So does an `int32`, whose high half is its sign. -/
@[simp] theorem i32Of_toUInt64 (v : Int32) : i32Of v.toInt64.toUInt64 = v := by
  unfold i32Of
  rw [← Int32.toBitVec_inj]
  change ((v.toBitVec.signExtend 64).setWidth 32) = v.toBitVec
  apply BitVec.eq_of_getLsbD_eq
  intro i hi
  rw [BitVec.getLsbD_setWidth, BitVec.getLsbD_signExtend, if_pos hi]
  simp [hi, show i < 64 by omega]

/-- The fields of a message, visited in their order. -/
def visit {σ : Type} (step : σ → Nat → Value → Option σ) (s : σ) (fs : List Field) : Option σ :=
  fs.foldlM (fun s f => step s f.1 f.2) s

section Visits

variable {σ : Type} {step : σ → Nat → Value → Option σ} {s : σ}

@[simp] theorem visit_nil : visit step s [] = some s := rfl

@[simp] theorem visit_cons (f : Field) (fs : List Field) :
    visit step s (f :: fs) = (step s f.1 f.2).bind fun s => visit step s fs := rfl

theorem visit_append (fs gs : List Field) :
    visit step s (fs ++ gs) = (visit step s fs).bind fun s => visit step s gs := by
  unfold visit
  rw [List.foldlM_append]
  rfl

/-- The walk over a message that was written visits its fields. -/
theorem decodeWith_messageBytes {fs : List Field} (h : ∀ f ∈ fs, Valid f) :
    decodeWith step s (messageBytes fs) = visit step s fs := by
  induction fs generalizing s with
  | nil => rfl
  | cons f fs ih =>
    rw [messageBytes_cons, decodeWith_fieldBytes (h f List.mem_cons_self), visit_cons]
    congr 1
    funext t
    exact ih fun g hg => h g (List.mem_cons_of_mem _ hg)

end Visits

/-! ## Pushes write -/

/-- Where there is room, `push` appends `bs`. -/
def Appends (cap : Nat) (push : Buffer cap → Buffer cap) (bs : Bytes) : Prop :=
  ∀ out, out.rows.length + bs.length ≤ cap → (push out).rows = out.rows ++ bs

/-- Where there is room, `push` appends the fields. -/
def Writes (cap : Nat) (push : Buffer cap → Buffer cap) (fs : List Field) : Prop :=
  Appends cap push (messageBytes fs)

section Writers

variable {cap : Nat} {push next : Buffer cap → Buffer cap} {as bs : Bytes} {fs gs : List Field}

theorem Appends.trans (h : Appends cap push as) (h' : Appends cap next bs) :
    Appends cap (fun out => next (push out)) (as ++ bs) := by
  intro out hroom
  rw [List.length_append] at hroom
  have hpush := h out (by omega)
  rw [h' (push out) (by rw [hpush, List.length_append]; omega), hpush, List.append_assoc]

theorem appends_pushByte (b : UInt8) : Appends cap (pushByte · b) [b] := by
  intro out hroom
  change ((out.push b).getD out).rows = _
  cases hpush : out.push b with
  | none =>
    have := Table.push_none hpush
    rw [List.length_singleton] at hroom
    omega
  | some out' => exact Table.push_rows hpush

theorem appends_foldl_pushByte (bs : Bytes) : Appends cap (bs.foldl pushByte ·) bs := by
  induction bs with
  | nil => exact fun out _ => (List.append_nil _).symm
  | cons b bs ih => exact (appends_pushByte b).trans ih

theorem appends_extendFromSlice (bs : Bytes) : Appends cap (extendFromSlice · bs) bs := by
  intro out hroom
  dsimp only [extendFromSlice]
  rw [dif_pos hroom]

theorem appends_pushVarint (v : Nat) : Appends cap (pushVarint · v) (varintBytes v) :=
  appends_foldl_pushByte _

theorem appends_pushTag (field wire : Nat) :
    Appends cap (pushTag · field wire) (varintBytes (field * 8 + wire)) :=
  appends_pushVarint _

theorem writes_one {f : Field} (h : Appends cap push (fieldBytes f)) : Writes cap push [f] := by
  unfold Writes
  rwa [messageBytes_cons, messageBytes_nil, List.append_nil]

theorem writes_pushField {f : Field} (h : Valid f) : Writes cap (pushField f) [f] := by
  obtain ⟨field, value⟩ := f
  have hvalue := h.value
  refine writes_one ?_
  cases value with
  | varint v => exact (appends_pushTag field 0).trans (appends_pushVarint _)
  | fixed64 b => exact (appends_pushTag field 1).trans (appends_extendFromSlice b)
  | len b =>
    have htag : Appends cap (pushTag · field 2) _ := appends_pushTag field 2
    have hpush := (htag.trans (appends_pushVarint b.length)).trans (appends_extendFromSlice b)
    rw [List.append_assoc] at hpush
    unfold pushField
    dsimp only
    rwa [Nat.mod_eq_of_lt hvalue]
  | fixed32 b => exact (appends_pushTag field 5).trans (appends_extendFromSlice b)

theorem Writes.pushIf {f : Field} (h : Writes cap push [f]) (c : Bool) :
    Writes cap (pushIf c push) (present c f) := by
  cases c with
  | false => exact fun out _ => (List.append_nil _).symm
  | true => exact h

theorem writes_nil : Writes cap (pushAll []) [] := fun _ _ => (List.append_nil _).symm

theorem Writes.cons {pushes : List (Buffer cap → Buffer cap)} (h : Writes cap push fs)
    (h' : Writes cap (pushAll pushes) gs) : Writes cap (pushAll (push :: pushes)) (fs ++ gs) := by
  unfold Writes
  rw [messageBytes_append]
  exact @Appends.trans cap push _ _ _ h h'

/-- A buffer that is large enough holds the whole message. -/
theorem Writes.rows (h : Writes cap push fs) (hroom : (messageBytes fs).length ≤ cap) :
    (push .empty).rows = messageBytes fs := by
  have hempty := h .empty (by change 0 + _ ≤ _; omega)
  exact hempty

theorem writes_pushFields (h : ∀ f ∈ fs, Valid f) : Writes cap (pushAll (fs.map pushField)) fs := by
  induction fs with
  | nil => exact writes_nil
  | cons f fs ih =>
    exact (writes_pushField (h f List.mem_cons_self)).cons
      (ih fun g hg => h g (List.mem_cons_of_mem _ hg))

/-- A message that fits its buffer is not cut. -/
theorem pushFields_rows (h : ∀ f ∈ fs, Valid f) (hroom : (messageBytes fs).length ≤ cap) :
    (pushFields fs : Buffer cap).rows = messageBytes fs :=
  (writes_pushFields h).rows hroom

end Writers

/-! ## Messages that fit -/

/-- What becomes of the fields that are pushed into a buffer of some capacity. -/
abbrev Sink := Nat → List Field → Bytes

/-- The buffers of the code. -/
def heapless : Sink := fun cap fs => (pushFields fs : Buffer cap).rows

/-- Buffers that take everything. -/
def unbounded : Sink := fun _ fs => messageBytes fs

/-- The fields are well formed, and take no more than `n` bytes. -/
structure Fits (n : Nat) (fs : List Field) : Prop where
  valid : ∀ f ∈ fs, Valid f
  room : (messageBytes fs).length ≤ n

def tagSize (field : Nat) : Nat := if field < 16 then 1 else 2

section Room

variable {n k : Nat} {fs gs : List Field}

theorem Fits.heapless_eq (h : Fits n fs) (hroom : n ≤ k) : heapless k fs = unbounded k fs :=
  pushFields_rows h.valid (Nat.le_trans h.room hroom)

theorem Fits.mono (h : Fits n fs) (hroom : n ≤ k) : Fits k fs := ⟨h.valid, Nat.le_trans h.room hroom⟩

theorem fits_nil : Fits 0 [] := ⟨fun _ hf => absurd hf List.not_mem_nil, Nat.le_refl _⟩

theorem Fits.append (h : Fits n fs) (h' : Fits k gs) : Fits (n + k) (fs ++ gs) := by
  refine ⟨List.forall_mem_append.mpr ⟨h.valid, h'.valid⟩, ?_⟩
  rw [messageBytes_append, List.length_append]
  exact Nat.add_le_add h.room h'.room

theorem Fits.present {f : Field} (h : Fits n [f]) (c : Bool) : Fits n (present c f) := by
  cases c with
  | false => exact fits_nil.mono (Nat.zero_le n)
  | true => exact h

theorem length_fieldBytes_le {field : Nat} (hfield : field < 2048) (v : Value) :
    (fieldBytes (field, v)).length ≤ tagSize field + v.bytes.length := by
  have hwire := v.wire_lt
  unfold tagSize
  split
  · rename_i hsmall
    exact Nat.le_of_eq (length_fieldBytes hsmall v)
  · have htag : (varintBytes (field * 8 + v.wire)).length = 2 :=
      length_varintGroups (k := 1) (by decide) (.inr (by omega)) (by omega)
    change (varintBytes (field * 8 + v.wire) ++ v.bytes).length ≤ _
    rw [List.length_append]
    omega

/-- A field number whose tag is at most two bytes. -/
def Small (field : Nat) : Prop := 0 < field ∧ field < 2048

instance (field : Nat) : Decidable (Small field) := inferInstanceAs (Decidable (_ ∧ _))

theorem fits_one {field : Nat} {v : Value} (hfield : Small field) (hv : v.Valid)
    (hlen : v.bytes.length ≤ n) : Fits (tagSize field + n) [(field, v)] := by
  refine ⟨List.forall_mem_singleton.mpr ⟨hfield.1, Nat.lt_trans hfield.2 (by decide), hv⟩, ?_⟩
  have := length_fieldBytes_le hfield.2 v
  rw [messageBytes_cons, messageBytes_nil, List.append_nil]
  omega

theorem fits_u32 (field : Nat) (hfield : Small field) (v : UInt32) :
    Fits (tagSize field + 5) [u32Field field v] :=
  fits_one hfield trivial (Value.length_varint v ▸ varintSize_le v)

theorem fits_flag (field : Nat) (hfield : Small field) :
    Fits (tagSize field + 1) [u32Field field 1] :=
  fits_one hfield trivial (by decide)

theorem fits_int32 (field : Nat) (hfield : Small field) (v : Int32) :
    Fits (tagSize field + 10) [int32Field field v] :=
  fits_one hfield trivial (length_varintBytes_le _)

theorem fits_fixed32 (field : Nat) (hfield : Small field) {word : Bytes}
    (h : word.length = 4) : Fits (tagSize field + 4) [fixed32Field field word] :=
  fits_one hfield h (Nat.le_of_eq h)

theorem fits_bytes (field : Nat) (hfield : Small field) {data : Bytes}
    (hlen : data.length ≤ n) (hn : n < 16384) :
    Fits (tagSize field + (tagSize (n / 8) + n)) [bytesField field data] := by
  have hsize : data.length < UInt32.size := Nat.lt_of_le_of_lt hlen (Nat.lt_trans hn (by decide))
  refine fits_one hfield hsize ?_
  have hlength : (varintBytes data.length).length ≤ tagSize (n / 8) := by
    by_cases hsmall : data.length < 128
    · rw [varintBytes_small hsmall]
      unfold tagSize
      split <;> simp
    · have htwo : (varintBytes data.length).length = 2 :=
        length_varintGroups (k := 1) (by decide) (.inr (by omega)) (by omega)
      have hlong : ¬ n / 8 < 16 := by omega
      simp [tagSize, hlong, htwo]
  change (varintBytes data.length ++ data).length ≤ _
  rw [List.length_append]
  omega

/-- A nested message. -/
theorem Fits.nested (h : Fits n fs) (field : Nat) (hfield : Small field) (hn : n < 16384) :
    Fits (tagSize field + (tagSize (n / 8) + n)) [bytesField field (messageBytes fs)] :=
  fits_bytes field hfield h.room hn

end Room

/-! ## Reading a message that fits -/

theorem decodeWith_unbounded {σ : Type} {step : σ → Nat → Value → Option σ} {s : σ} {n cap : Nat}
    {fs : List Field} (h : Fits n fs) : decodeWith step s (unbounded cap fs) = visit step s fs :=
  decodeWith_messageBytes h.valid

section Optional

variable {σ : Type} {step : σ → Nat → Value → Option σ} {s t : σ} {c : Bool} {f : Field}
  {fs gs : List Field}

/-- The walk goes on from where the first fields have left it. -/
theorem visit_append_of (h : visit step s fs = some t) : visit step s (fs ++ gs) = visit step t gs := by
  rw [visit_append, h]
  rfl

/-- A field that is left out at its default leaves the default. -/
theorem visit_present (hset : c = true → step s f.1 f.2 = some t) (hskip : c = false → t = s) :
    visit step s (present c f) = some t := by
  cases c with
  | false => rw [hskip rfl]; rfl
  | true =>
    rw [present_true, visit_cons, hset rfl]
    rfl

theorem visit_present_append (hset : c = true → step s f.1 f.2 = some t) (hskip : c = false → t = s) :
    visit step s (present c f ++ fs) = visit step t fs := visit_append_of (visit_present hset hskip)

end Optional

end Meshrustic.Protobuf
