import Meshrustic.Core.Bytes

/-!
# Protobuf messages

A message is a sequence of fields, each a tag (field number and wire type)
and a value. Every decoder of the protocol walks the fields in order and
folds them into its result; it reads the ones it knows and skips the rest.
`decodeWith` is that walk, with the decoder's own reading of a field as its
parameter. A decoder refuses the message as soon as one field is malformed,
whether it knows the field or not.

`foldFields_fuel`: the walk ends because each field takes at least one
byte, so any fuel of at least the length of the message gives the result.
-/
namespace Meshrustic.Protobuf

/-- The value of a field by its wire type; wire types 3, 4, 6 and 7 are not
accepted. -/
inductive Value where
  | varint (v : UInt64)
  | fixed64 (b : Bytes)
  | len (b : Bytes)
  | fixed32 (b : Bytes)
  deriving DecidableEq, Repr

/-- Ten groups of seven bits at shifts 0, 7, .., 63, of which the tenth may
only hold one bit. -/
def readVarint64From (shift : Nat) (value : UInt64) : Bytes → Option (UInt64 × Bytes)
  | [] => none
  | byte :: rest =>
    if shift == 63 && byte > 1 then none
    else
      let value := value ||| (byte &&& 0x7f).toUInt64 <<< UInt64.ofNat shift
      if byte &&& 0x80 == 0 then some (value, rest)
      else if shift ≥ 63 then none
      else readVarint64From (shift + 7) value rest

def readVarint64 (data : Bytes) : Option (UInt64 × Bytes) := readVarint64From 0 0 data

/-- A varint that has to fit 32 bits. -/
def readVarint (data : Bytes) : Option (UInt32 × Bytes) :=
  match readVarint64 data with
  | some (v, rest) => if v.toNat < 4294967296 then some (v.toUInt32, rest) else none
  | none => none

/-- The next `n` bytes. -/
def readExact (n : Nat) (data : Bytes) : Option (Bytes × Bytes) :=
  if n ≤ data.length then some (data.take n, data.drop n) else none

/-- The value of wire type `wire`. -/
def readValue (wire : UInt32) (data : Bytes) : Option (Value × Bytes) :=
  if wire == 0 then (readVarint64 data).map fun p => (.varint p.1, p.2)
  else if wire == 1 then (readExact 8 data).map fun p => (.fixed64 p.1, p.2)
  else if wire == 2 then
    match readVarint data with
    | some (n, rest) => (readExact n.toNat rest).map fun p => (.len p.1, p.2)
    | none => none
  else if wire == 5 then (readExact 4 data).map fun p => (.fixed32 p.1, p.2)
  else none

/-- One field: its number, its value, and the bytes behind it. -/
def readField (data : Bytes) : Option (Nat × Value × Bytes) :=
  match readVarint data with
  | none => none
  | some (tag, rest) =>
    if tag >>> 3 == 0 then none
    else (readValue (tag &&& 7) rest).map fun p => ((tag >>> 3).toNat, p.1, p.2)

/-- The fields of `data` folded into `s` by `step`, which may refuse. -/
def foldFields {σ : Type} (step : σ → Nat → Value → Option σ) : Nat → σ → Bytes → Option σ
  | _, s, [] => some s
  | 0, _, _ :: _ => none
  | fuel + 1, s, b :: bs =>
    match readField (b :: bs) with
    | none => none
    | some (field, value, rest) => (step s field value).bind fun s => foldFields step fuel s rest

def decodeWith {σ : Type} (step : σ → Nat → Value → Option σ) (s : σ) (data : Bytes) : Option σ :=
  foldFields step data.length s data

/-- A varint field of 32 bits. -/
def u32Of (v : UInt64) : Option UInt32 := if v.toNat < 4294967296 then some v.toUInt32 else none

/-- An `int32` field: the low half of its 64 bits. -/
def i32Of (v : UInt64) : Int32 := v.toUInt32.toInt32

/-! ## The walk ends -/

theorem readVarint64From_length {shift : Nat} {value v : UInt64} {data rest : Bytes}
    (h : readVarint64From shift value data = some (v, rest)) : rest.length < data.length := by
  induction data generalizing shift value with
  | nil => cases h
  | cons byte data ih =>
    simp only [readVarint64From] at h
    split at h
    · cases h
    · split at h
      · cases h; simp
      · split at h
        · cases h
        · have := ih h
          rw [List.length_cons]; omega

theorem readVarint_length {v : UInt32} {data rest : Bytes}
    (h : readVarint data = some (v, rest)) : rest.length < data.length := by
  unfold readVarint readVarint64 at h
  split at h
  · rename_i w r hr
    split at h
    · cases h; exact readVarint64From_length hr
    · cases h
  · cases h

theorem readExact_length {n : Nat} {b data rest : Bytes}
    (h : readExact n data = some (b, rest)) : rest.length ≤ data.length := by
  unfold readExact at h
  split at h
  · cases h; rw [List.length_drop]; omega
  · cases h

theorem readValue_length {wire : UInt32} {v : Value} {data rest : Bytes}
    (h : readValue wire data = some (v, rest)) : rest.length ≤ data.length := by
  unfold readValue at h
  split at h
  · obtain ⟨⟨w, r⟩, hr, he⟩ := Option.map_eq_some_iff.mp h
    cases he; exact Nat.le_of_lt (readVarint64From_length hr)
  · split at h
    · obtain ⟨⟨w, r⟩, hr, he⟩ := Option.map_eq_some_iff.mp h
      cases he; exact readExact_length hr
    · split at h
      · split at h
        · rename_i n r hn
          obtain ⟨⟨w, r'⟩, hr, he⟩ := Option.map_eq_some_iff.mp h
          cases he
          have := readVarint_length hn
          have := readExact_length hr
          simp only; omega
        · cases h
      · split at h
        · obtain ⟨⟨w, r⟩, hr, he⟩ := Option.map_eq_some_iff.mp h
          cases he; exact readExact_length hr
        · cases h

theorem readField_length {field : Nat} {v : Value} {data rest : Bytes}
    (h : readField data = some (field, v, rest)) : rest.length < data.length := by
  unfold readField at h
  split at h
  · cases h
  · rename_i tag r htag
    split at h
    · cases h
    · obtain ⟨⟨w, r'⟩, hr, he⟩ := Option.map_eq_some_iff.mp h
      cases he
      have := readVarint_length htag
      have := readValue_length hr
      simp only; omega

theorem foldFields_fuel {σ : Type} {step : σ → Nat → Value → Option σ} {fuel : Nat} {s : σ}
    {data : Bytes} (h : data.length ≤ fuel) :
    foldFields step fuel s data = decodeWith step s data := by
  have key : ∀ n m s (data : Bytes), data.length ≤ n → data.length ≤ m →
      foldFields step n s data = foldFields step m s data := by
    intro n
    induction n with
    | zero =>
      intro m s data hn _
      rw [List.eq_nil_of_length_eq_zero (Nat.le_zero.mp hn)]
      simp only [foldFields]
    | succ n ih =>
      intro m s data hn hm
      cases data with
      | nil => simp only [foldFields]
      | cons b bs =>
        cases m with
        | zero => simp at hm
        | succ m =>
          simp only [foldFields]
          split
          · rfl
          · rename_i field value rest hr
            have hlt := readField_length hr
            congr 1
            funext s'
            exact ih m s' rest (by omega) (by omega)
  exact key fuel data.length s data h (Nat.le_refl _)

/-- The walk visits the first field, and goes on behind it. -/
theorem decodeWith_of_readField {σ : Type} {step : σ → Nat → Value → Option σ} {s : σ}
    {data rest : Bytes} {field : Nat} {v : Value} (h : readField data = some (field, v, rest)) :
    decodeWith step s data = (step s field v).bind fun s => decodeWith step s rest := by
  have hlt := readField_length h
  cases data with
  | nil => exact absurd hlt (Nat.not_lt_zero _)
  | cons b bs =>
    unfold decodeWith
    rw [List.length_cons] at hlt ⊢
    rw [foldFields, h]
    dsimp only
    congr 1
    funext t
    exact foldFields_fuel (Nat.le_of_lt_succ hlt)

end Meshrustic.Protobuf
