import Meshrustic.Core.ProtobufFields

/-!
# Walking a message by index

A decoder keeps an index into its input and moves it from field to field. `Reading` says how
that can end: with a value, with a refusal, with an access beyond the input, or not at all.
A decoder is given by what it does with a field of each number and wire type (`Arm`); all
others it skips. The walk by index is here, the walk over the fields of a message in
`Core.Protobuf`.

A sum of an index and a length that does not fit the machine is refused like one beyond the
input; sums are natural numbers here.

Results:
* `readVarintAt_reads`, `skipFieldAt_cases`, `Arm.run_cases`: an index reads the bytes behind it;
* `Walker.fieldAt_cases`: a step refuses or moves the index, and stays within the input;
* `Walker.run_eq`: the walk by index is the walk over the fields, and `Walker.tame_run`: it ends,
  with a value or a refusal, where its arms do;
* `Walker.Refines.run`: it is the decoder of `Core.Protobuf` that has these arms;
* `Walker.run_insert`: a field that the decoder skips may be inserted between any two.
-/
namespace Meshrustic.Protobuf

/-- What code that reads untrusted bytes can come to, other than a value. -/
inductive Stop where
  /-- `None` -/
  | refused
  /-- an index or a slice beyond what is there -/
  | outOfRange
  /-- a loop that does not move -/
  | endless
  deriving DecidableEq, Repr

abbrev Reading (α : Type) := Except Stop α

/-- `?` -/
def orRefused {α : Type} : Option α → Reading α
  | some a => .ok a
  | none => .error .refused

/-- A value or a refusal, and no other end. -/
def Tame {α : Type} (r : Reading α) : Prop := ∃ o, r = orRefused o

section Ends

variable {α β : Type}

@[simp] theorem ok_bind (a : α) (f : α → Reading β) :
    (Except.ok a >>= f : Reading β) = f a := rfl

@[simp] theorem error_bind (e : Stop) (f : α → Reading β) :
    (Except.error e >>= f : Reading β) = .error e := rfl

@[simp] theorem pure_reading (a : α) : (pure a : Reading α) = .ok a := rfl

@[simp] theorem orRefused_some (a : α) : orRefused (some a) = .ok a := rfl

@[simp] theorem orRefused_none : orRefused (none : Option α) = .error .refused := rfl

/-- A decoder that calls another and keeps what it returns. -/
theorem nested_eq {r : Reading α} {o : Option α} (h : r = orRefused o) (f : α → β) :
    (r >>= fun a => .ok (f a)) = orRefused (o.map f) := by
  rw [h]
  cases o <;> rfl

theorem tame_ok (a : α) : Tame (.ok a) := ⟨some a, rfl⟩

theorem tame_refused : Tame (.error .refused : Reading α) := ⟨none, rfl⟩

theorem tame_orRefused (o : Option α) : Tame (orRefused o) := ⟨o, rfl⟩

theorem Tame.bind {r : Reading α} {f : α → Reading β} (h : Tame r) (hf : ∀ a, Tame (f a)) :
    Tame (r >>= f) := by
  obtain ⟨o, rfl⟩ := h
  cases o with
  | none => exact tame_refused
  | some a => exact hf a

end Ends

/-! ## Reading at an index -/

/-- `&data[lo..hi]` -/
def sliceAt (data : Bytes) (lo hi : Nat) : Reading Bytes :=
  if lo ≤ hi ∧ hi ≤ data.length then .ok (slice data lo (hi - lo)) else .error .outOfRange

/-- `data.get(lo..hi)?` -/
def getSlice (data : Bytes) (lo hi : Nat) : Reading Bytes :=
  if lo ≤ hi ∧ hi ≤ data.length then .ok (slice data lo (hi - lo)) else .error .refused

/-- The groups of a varint that are left, at the shifts from `shift` on. -/
def varintGroupsAt (data : Bytes) : Nat → Nat → UInt64 → Nat → Reading (UInt64 × Nat)
  | 0, _, _, _ => .error .refused
  | groups + 1, shift, value, idx =>
    match data[idx]? with
    | none => .error .refused
    | some byte =>
      if shift == 63 && byte > 1 then .error .refused
      else
        let value := value ||| (byte &&& 0x7f).toUInt64 <<< UInt64.ofNat shift
        if byte &&& 0x80 == 0 then .ok (value, idx + 1)
        else varintGroupsAt data groups (shift + 7) value (idx + 1)

def readVarint64At (data : Bytes) (idx : Nat) : Reading (UInt64 × Nat) :=
  varintGroupsAt data 10 0 0 idx

def readVarintAt (data : Bytes) (idx : Nat) : Reading (UInt32 × Nat) := do
  let (value, next) ← readVarint64At data idx
  let value ← orRefused (u32Of value)
  pure (value, next)

/-- The index behind a value of wire type `wire`, if it is within the input. -/
def skipFieldAt (data : Bytes) (idx wire : Nat) : Reading Nat := do
  let next ← match wire with
    | 0 => do
      let (_, next) ← readVarint64At data idx
      pure next
    | 1 => pure (idx + 8)
    | 2 => do
      let (len, start) ← readVarintAt data idx
      pure (start + len.toNat)
    | 5 => pure (idx + 4)
    | _ => .error .refused
  if next ≤ data.length then pure next else .error .refused

/-- Reading at an index is reading the bytes behind it: both refuse, or both give one value and
the bytes behind the next index. -/
def ReadsAs {α : Type} (data : Bytes) (idx : Nat) (r : Reading (α × Nat))
    (o : Option (α × Bytes)) : Prop :=
  (r = .error .refused ∧ o = none) ∨
    ∃ a next, r = .ok (a, next) ∧ o = some (a, data.drop next) ∧ idx ≤ next ∧ next ≤ data.length

section Readers

variable {data : Bytes} {idx : Nat}

theorem drop_eq_cons {byte : UInt8} (h : data[idx]? = some byte) :
    data.drop idx = byte :: data.drop (idx + 1) ∧ idx < data.length := by
  obtain ⟨hlt, rfl⟩ := List.getElem?_eq_some_iff.mp h
  exact ⟨List.drop_eq_getElem_cons hlt, hlt⟩

theorem varintGroupsAt_reads (data : Bytes) (groups shift : Nat) (value : UInt64) (idx : Nat)
    (h : shift + 7 * groups = 63) :
    ReadsAs data idx (varintGroupsAt data (groups + 1) shift value idx)
      (readVarint64From shift value (data.drop idx)) := by
  induction groups generalizing shift value idx with
  | zero =>
    rw [varintGroupsAt]
    cases hget : data[idx]? with
    | none =>
      rw [List.drop_eq_nil_of_le (List.getElem?_eq_none_iff.mp hget)]
      exact .inl ⟨rfl, rfl⟩
    | some byte =>
      obtain ⟨hdrop, hlt⟩ := drop_eq_cons hget
      have hshift : 63 ≤ shift := by omega
      rw [hdrop, readVarint64From]
      dsimp only
      split
      · exact .inl ⟨rfl, rfl⟩
      split
      · exact .inr ⟨_, _, rfl, rfl, Nat.le_succ idx, hlt⟩
      · exact .inl ⟨rfl, rfl⟩
  | succ groups ih =>
    rw [varintGroupsAt]
    cases hget : data[idx]? with
    | none =>
      rw [List.drop_eq_nil_of_le (List.getElem?_eq_none_iff.mp hget)]
      exact .inl ⟨rfl, rfl⟩
    | some byte =>
      obtain ⟨hdrop, hlt⟩ := drop_eq_cons hget
      have hshift : ¬63 ≤ shift := by omega
      rw [hdrop, readVarint64From]
      dsimp only
      split
      · exact .inl ⟨rfl, rfl⟩
      split
      · exact .inr ⟨_, _, rfl, rfl, Nat.le_succ idx, hlt⟩
      · obtain ⟨hr, ho⟩ | ⟨v, next, hr, ho, hle, hlen⟩ := ih (shift + 7) _ (idx + 1) (by omega)
        · exact .inl ⟨hr, ho⟩
        · exact .inr ⟨v, next, hr, ho, Nat.le_of_succ_le hle, hlen⟩

theorem readVarint64At_reads (data : Bytes) (idx : Nat) :
    ReadsAs data idx (readVarint64At data idx) (readVarint64 (data.drop idx)) :=
  varintGroupsAt_reads data 9 0 0 idx (by decide)

theorem readVarintAt_reads (data : Bytes) (idx : Nat) :
    ReadsAs data idx (readVarintAt data idx) (readVarint (data.drop idx)) := by
  unfold readVarintAt readVarint
  obtain ⟨hr, ho⟩ | ⟨v, next, hr, ho, hle, hlen⟩ := readVarint64At_reads data idx
  · rw [hr, ho]
    exact .inl ⟨rfl, rfl⟩
  · rw [hr, ho]
    simp only [ok_bind, u32Of]
    split
    · exact .inr ⟨_, _, rfl, rfl, hle, hlen⟩
    · exact .inl ⟨rfl, rfl⟩

/-- The bytes of a varint move the index. -/
theorem lt_of_readVarint {v : UInt32} {next : Nat}
    (h : readVarint (data.drop idx) = some (v, data.drop next)) : idx < next := by
  have hlt := readVarint_length h
  rw [List.length_drop, List.length_drop] at hlt
  omega

theorem readExact_drop {n : Nat} (hidx : idx ≤ data.length) :
    readExact n (data.drop idx) =
      if idx + n ≤ data.length then some (slice data idx n, data.drop (idx + n)) else none := by
  unfold readExact slice
  rw [List.length_drop, List.drop_drop]
  by_cases h : idx + n ≤ data.length
  · rw [if_pos (by omega), if_pos h]
  · rw [if_neg (by omega), if_neg h]

/-- A length-delimited value, by where it starts. -/
theorem readLen_cases (data : Bytes) (idx : Nat) :
    (readVarintAt data idx = .error .refused ∧ readValue 2 (data.drop idx) = none) ∨
      ∃ (len : UInt32) (start : Nat), readVarintAt data idx = .ok (len, start) ∧ idx ≤ start ∧
        start ≤ data.length ∧
        readValue 2 (data.drop idx) =
          if start + len.toNat ≤ data.length then
            some (.len (slice data start len.toNat), data.drop (start + len.toNat))
          else none := by
  have hvalue : readValue 2 (data.drop idx) = (readVarint (data.drop idx)).bind fun q =>
      (readExact q.1.toNat q.2).map fun p => (.len p.1, p.2) := by
    unfold readValue
    cases readVarint (data.drop idx) <;> rfl
  obtain ⟨hr, ho⟩ | ⟨len, start, hr, ho, hle, hlen⟩ := readVarintAt_reads data idx
  · exact .inl ⟨hr, by rw [hvalue, ho]; rfl⟩
  · refine .inr ⟨len, start, hr, hle, hlen, ?_⟩
    rw [hvalue, ho]
    simp only [Option.bind_some, readExact_drop hlen]
    split <;> rfl

theorem readValue_zero (bytes : Bytes) :
    readValue 0 bytes = (readVarint64 bytes).map fun p => (.varint p.1, p.2) := rfl

theorem readValue_one (bytes : Bytes) :
    readValue 1 bytes = (readExact 8 bytes).map fun p => (.fixed64 p.1, p.2) := rfl

theorem readValue_five (bytes : Bytes) :
    readValue 5 bytes = (readExact 4 bytes).map fun p => (.fixed32 p.1, p.2) := rfl

theorem readExact_cases (n : Nat) (hidx : idx ≤ data.length) :
    (data.length < idx + n ∧ readExact n (data.drop idx) = none) ∨
      idx + n ≤ data.length ∧
        readExact n (data.drop idx) = some (slice data idx n, data.drop (idx + n)) := by
  rw [readExact_drop hidx]
  by_cases h : idx + n ≤ data.length
  · exact .inr ⟨h, if_pos h⟩
  · exact .inl ⟨Nat.lt_of_not_le h, if_neg h⟩

theorem readValue_unknown {wire : UInt32} (h0 : wire ≠ 0) (h1 : wire ≠ 1) (h2 : wire ≠ 2)
    (h5 : wire ≠ 5) (bytes : Bytes) : readValue wire bytes = none := by
  simp [readValue, h0, h1, h2, h5]

/-- A value is skipped where it can be read. -/
theorem skipFieldAt_cases (wire : UInt32) (hidx : idx ≤ data.length) :
    (skipFieldAt data idx wire.toNat = .error .refused ∧ readValue wire (data.drop idx) = none) ∨
      ∃ v next, skipFieldAt data idx wire.toNat = .ok next ∧
        readValue wire (data.drop idx) = some (v, data.drop next) ∧ idx ≤ next ∧
        next ≤ data.length := by
  unfold skipFieldAt
  split
  · rename_i h
    obtain rfl : wire = 0 := UInt32.toNat_inj.mp h
    obtain ⟨hr, ho⟩ | ⟨v, next, hr, ho, hle, hlen⟩ :=
      readVarint64At_reads data idx
    · exact .inl ⟨by rw [hr]; rfl, by rw [readValue_zero, ho]; rfl⟩
    · exact .inr ⟨.varint v, next, by simp [hr, hlen], by rw [readValue_zero, ho]; rfl, hle, hlen⟩
  · rename_i h
    obtain rfl : wire = 1 := UInt32.toNat_inj.mp h
    obtain ⟨hlt, ho⟩ | ⟨hle, ho⟩ := readExact_cases 8 hidx
    · exact .inl ⟨by simp [Nat.not_le.mpr hlt], by rw [readValue_one, ho]; rfl⟩
    · exact .inr ⟨_, idx + 8, by simp [hle], by rw [readValue_one, ho]; rfl, by omega, hle⟩
  · rename_i h
    obtain rfl : wire = 2 := UInt32.toNat_inj.mp h
    obtain ⟨hr, ho⟩ | ⟨len, start, hr, hle, hlen, ho⟩ := readLen_cases data idx
    · exact .inl ⟨by rw [hr]; rfl, ho⟩
    · by_cases hend : start + len.toNat ≤ data.length
      · exact .inr ⟨_, _, by simp [hr, hend], ho.trans (if_pos hend), by omega, hend⟩
      · exact .inl ⟨by simp [hr, hend], ho.trans (if_neg hend)⟩
  · rename_i h
    obtain rfl : wire = 5 := UInt32.toNat_inj.mp h
    obtain ⟨hlt, ho⟩ | ⟨hle, ho⟩ := readExact_cases 4 hidx
    · exact .inl ⟨by simp [Nat.not_le.mpr hlt], by rw [readValue_five, ho]; rfl⟩
    · exact .inr ⟨_, idx + 4, by simp [hle], by rw [readValue_five, ho]; rfl, by omega, hle⟩
  · rename_i h0 h1 h2 h5
    refine .inl ⟨rfl, readValue_unknown ?_ ?_ ?_ ?_ _⟩
    · rintro rfl
      exact h0 rfl
    · rintro rfl
      exact h1 rfl
    · rintro rfl
      exact h2 rfl
    · rintro rfl
      exact h5 rfl

end Readers

/-! ## Arms -/

/-- What a decoder does with the fields of a wire type. `put` is what it does with the value. -/
inductive Arm (σ : Type) : Nat → Type where
  /-- `i = skip_field(data, i, wire)?` -/
  | skip {wire : Nat} : Arm σ wire
  /-- `read_varint(data, i)?` -/
  | varint (put : σ → UInt32 → Reading σ) : Arm σ 0
  /-- a varint of 64 bits, cut to an `int32` -/
  | int32 (put : σ → Int32 → Reading σ) : Arm σ 0
  /-- `if end > data.len() { return None }`, then `&data[start..end]` -/
  | len (put : σ → Bytes → Reading σ) : Arm σ 2
  /-- `data.get(start..end)?` -/
  | lenGet (put : σ → Bytes → Reading σ) : Arm σ 2
  /-- the field is skipped first, and its value read after that -/
  | lenSkipped (put : σ → Bytes → Reading σ) : Arm σ 2
  /-- `if i + 4 <= data.len()` guards the arm: a shorter value falls to the skipping one -/
  | word (put : σ → Bytes → Reading σ) : Arm σ 5
  /-- `if i + 4 > data.len() { return None }` in the arm -/
  | wordChecked (put : σ → Bytes → Reading σ) : Arm σ 5

namespace Arm

variable {σ : Type}

/-- The arm at index `i`: the state and the index behind the value. -/
def run (data : Bytes) : {wire : Nat} → Arm σ wire → σ → Nat → Reading (σ × Nat)
  | wire, .skip, s, i => do
    let next ← skipFieldAt data i wire
    pure (s, next)
  | _, .varint put, s, i => do
    let (v, next) ← readVarintAt data i
    let s ← put s v
    pure (s, next)
  | _, .int32 put, s, i => do
    let (v, next) ← readVarint64At data i
    let s ← put s (i32Of v)
    pure (s, next)
  | _, .len put, s, i => do
    let (size, start) ← readVarintAt data i
    let hi := start + size.toNat
    if data.length < hi then .error .refused
    else
      let b ← sliceAt data start hi
      let s ← put s b
      pure (s, hi)
  | _, .lenGet put, s, i => do
    let (size, start) ← readVarintAt data i
    let hi := start + size.toNat
    let b ← getSlice data start hi
    let s ← put s b
    pure (s, hi)
  | _, .lenSkipped put, s, i => do
    let next ← skipFieldAt data i 2
    let (size, start) ← readVarintAt data i
    let b ← getSlice data start (start + size.toNat)
    let s ← put s b
    pure (s, next)
  | _, .word put, s, i =>
    if i + 4 ≤ data.length then do
      let b ← sliceAt data i (i + 4)
      let s ← put s b
      pure (s, i + 4)
    else do
      let next ← skipFieldAt data i 5
      pure (s, next)
  | _, .wordChecked put, s, i =>
    if data.length < i + 4 then .error .refused
    else do
      let b ← sliceAt data i (i + 4)
      let s ← put s b
      pure (s, i + 4)

/-- The arm at a value of its wire type. -/
def value {wire : Nat} : Arm σ wire → σ → Value → Reading σ
  | .varint put, s, .varint v => do
    let v ← orRefused (u32Of v)
    put s v
  | .int32 put, s, .varint v => put s (i32Of v)
  | .len put, s, .len b => put s b
  | .lenGet put, s, .len b => put s b
  | .lenSkipped put, s, .len b => put s b
  | .word put, s, .fixed32 b => put s b
  | .wordChecked put, s, .fixed32 b => put s b
  | _, s, _ => .ok s

def isSkip {wire : Nat} : Arm σ wire → Bool
  | .skip => true
  | _ => false

theorem value_of_isSkip {wire : Nat} {arm : Arm σ wire} (h : arm.isSkip = true) (s : σ)
    (v : Value) : arm.value s v = .ok s := by
  cases arm with
  | skip => cases v <;> rfl
  | _ => cases h

/-- A field that is skipped leaves the state as it is. -/
theorem value_skipped {wire : Nat} {arm : Arm σ wire} {s : σ} {v : Value} {o : Option σ}
    (h : arm.isSkip = true) (ho : o = some s) : arm.value s v = orRefused o := by
  rw [value_of_isSkip h, ho]
  rfl

section Values

variable {s : σ}

/-- An arm that puts a varint in its place. -/
theorem value_varint {put : σ → UInt32 → Reading σ} {f : UInt32 → σ}
    (h : ∀ v, put s v = .ok (f v))
    (v : UInt64) : (varint put).value s (.varint v) = orRefused ((u32Of v).map f) := by
  simp only [value]
  cases u32Of v with
  | none => rfl
  | some v => exact h v

theorem varint_of_wire {v : Value} (h : v.wire = 0) : ∃ w, v = .varint w := by
  cases v with
  | varint w => exact ⟨w, rfl⟩
  | _ => cases h

theorem len_of_wire {v : Value} (h : v.wire = 2) : ∃ b, v = .len b := by
  cases v with
  | len b => exact ⟨b, rfl⟩
  | _ => cases h

theorem fixed32_of_wire {v : Value} (h : v.wire = 5) : ∃ b, v = .fixed32 b := by
  cases v with
  | fixed32 b => exact ⟨b, rfl⟩
  | _ => cases h

end Values

/-- A slice within the input is there, read either way. -/
theorem slice_reads {data : Bytes} {start len : Nat} (h : start + len ≤ data.length) :
    sliceAt data start (start + len) = .ok (slice data start len) ∧
      getSlice data start (start + len) = .ok (slice data start len) := by
  have hle : start ≤ start + len ∧ start + len ≤ data.length := ⟨Nat.le_add_right _ _, h⟩
  have hsub : start + len - start = len := by omega
  unfold sliceAt getSlice
  rw [if_pos hle, if_pos hle, hsub]
  exact ⟨rfl, rfl⟩

theorem getSlice_refused {data : Bytes} {start len : Nat} (h : ¬start + len ≤ data.length) :
    getSlice data start (start + len) = .error .refused := if_neg fun hle => h hle.2

/-- An arm at an index is the arm at the value that can be read there, and refuses where none
can. -/
theorem run_cases {data : Bytes} {i : Nat} (wire : UInt32) (arm : Arm σ wire.toNat) (s : σ)
    (hi : i ≤ data.length) :
    (readValue wire (data.drop i) = none ∧ arm.run data s i = .error .refused) ∨
      ∃ v next, readValue wire (data.drop i) = some (v, data.drop next) ∧ i ≤ next ∧
        next ≤ data.length ∧
        arm.run data s i = (arm.value s v >>= fun s => .ok (s, next)) := by
  generalize hwire : wire.toNat = w at arm
  cases arm with
  | skip =>
    subst hwire
    obtain ⟨hr, ho⟩ | ⟨v, next, hr, ho, hle, hlen⟩ := skipFieldAt_cases wire hi
    · exact .inl ⟨ho, by rw [run, hr]; rfl⟩
    · exact .inr ⟨v, next, ho, hle, hlen, by rw [run, hr]; rfl⟩
  | varint put =>
    obtain rfl : wire = 0 := UInt32.toNat_inj.mp hwire
    rw [readValue_zero]
    obtain ⟨hr, ho⟩ | ⟨v, next, hr, ho, hle, hlen⟩ := readVarint64At_reads data i
    · exact .inl ⟨by rw [ho]; rfl, by rw [run, readVarintAt, hr]; rfl⟩
    · refine .inr ⟨.varint v, next, by rw [ho]; rfl, hle, hlen, ?_⟩
      simp only [run, readVarintAt, hr, ok_bind, value]
      cases u32Of v <;> rfl
  | int32 put =>
    obtain rfl : wire = 0 := UInt32.toNat_inj.mp hwire
    rw [readValue_zero]
    obtain ⟨hr, ho⟩ | ⟨v, next, hr, ho, hle, hlen⟩ := readVarint64At_reads data i
    · exact .inl ⟨by rw [ho]; rfl, by rw [run, hr]; rfl⟩
    · exact .inr ⟨.varint v, next, by rw [ho]; rfl, hle, hlen, by rw [run, hr]; rfl⟩
  | len put =>
    obtain rfl : wire = 2 := UInt32.toNat_inj.mp hwire
    obtain ⟨hr, ho⟩ | ⟨size, start, hr, hle, hlen, ho⟩ := readLen_cases data i
    · exact .inl ⟨ho, by rw [run, hr]; rfl⟩
    by_cases hend : start + size.toNat ≤ data.length
    · rw [if_pos hend] at ho
      refine .inr ⟨_, _, ho, by omega, hend, ?_⟩
      simp only [run, hr, ok_bind, if_neg (Nat.not_lt.mpr hend), (slice_reads hend).1, value,
        pure_reading]
    · rw [if_neg hend] at ho
      refine .inl ⟨ho, ?_⟩
      simp only [run, hr, ok_bind, if_pos (Nat.lt_of_not_le hend)]
  | lenGet put =>
    obtain rfl : wire = 2 := UInt32.toNat_inj.mp hwire
    obtain ⟨hr, ho⟩ | ⟨size, start, hr, hle, hlen, ho⟩ := readLen_cases data i
    · exact .inl ⟨ho, by rw [run, hr]; rfl⟩
    by_cases hend : start + size.toNat ≤ data.length
    · rw [if_pos hend] at ho
      refine .inr ⟨_, _, ho, by omega, hend, ?_⟩
      simp only [run, hr, ok_bind, (slice_reads hend).2, value, pure_reading]
    · rw [if_neg hend] at ho
      refine .inl ⟨ho, ?_⟩
      simp only [run, hr, ok_bind, getSlice_refused hend, error_bind]
  | lenSkipped put =>
    obtain rfl : wire = 2 := UInt32.toNat_inj.mp hwire
    have hskip : skipFieldAt data i 2 = (do
        let (size, start) ← readVarintAt data i
        if start + size.toNat ≤ data.length then pure (start + size.toNat)
          else .error .refused) := by
      unfold skipFieldAt
      cases readVarintAt data i <;> rfl
    obtain ⟨hr, ho⟩ | ⟨size, start, hr, hle, hlen, ho⟩ := readLen_cases data i
    · exact .inl ⟨ho, by rw [run, hskip, hr]; rfl⟩
    by_cases hend : start + size.toNat ≤ data.length
    · rw [if_pos hend] at ho
      refine .inr ⟨_, _, ho, by omega, hend, ?_⟩
      simp only [run, hskip, hr, ok_bind, if_pos hend, (slice_reads hend).2, value, pure_reading]
    · rw [if_neg hend] at ho
      refine .inl ⟨ho, ?_⟩
      simp only [run, hskip, hr, ok_bind, if_neg hend, error_bind]
  | word put =>
    obtain rfl : wire = 5 := UInt32.toNat_inj.mp hwire
    rw [readValue_five]
    obtain ⟨hlt, ho⟩ | ⟨hle, ho⟩ := readExact_cases 4 hi
    · refine .inl ⟨by rw [ho]; rfl, ?_⟩
      simp [run, skipFieldAt, Nat.not_le.mpr hlt]
    · refine .inr ⟨_, _, by rw [ho]; rfl, by omega, hle, ?_⟩
      simp only [run, if_pos hle, (slice_reads hle).1, ok_bind, value, pure_reading]
  | wordChecked put =>
    obtain rfl : wire = 5 := UInt32.toNat_inj.mp hwire
    rw [readValue_five]
    obtain ⟨hlt, ho⟩ | ⟨hle, ho⟩ := readExact_cases 4 hi
    · refine .inl ⟨by rw [ho]; rfl, ?_⟩
      simp only [run, if_pos hlt]
    · refine .inr ⟨_, _, by rw [ho]; rfl, by omega, hle, ?_⟩
      simp only [run, if_neg (Nat.not_lt.mpr hle), (slice_reads hle).1, ok_bind, value, pure_reading]

end Arm

/-! ## Walkers -/

/-- A decoder's loop: what it does with each field, where it begins, and when it returns before
the end of its input. -/
structure Walker (σ : Type) where
  arms : (field wire : Nat) → Arm σ wire
  init : σ
  done : σ → Bool := fun _ => false

namespace Walker

variable {σ : Type} (w : Walker σ)

/-- The loop's body: the state and the index behind the field. -/
def fieldAt (data : Bytes) (idx : Nat) (s : σ) : Reading (σ × Nat) := do
  let (tag, i) ← readVarintAt data idx
  if tag >>> 3 == 0 then .error .refused
  else (w.arms (tag >>> 3).toNat (tag &&& 7).toNat).run data s i

/-- The loop. It has fuel for a field in each byte of the input. -/
def walkFrom (data : Bytes) : Nat → Nat → σ → Reading σ
  | 0, idx, s => if data.length ≤ idx ∨ w.done s = true then .ok s else .error .endless
  | fuel + 1, idx, s =>
    if data.length ≤ idx ∨ w.done s = true then .ok s
    else do
      let (s, idx) ← w.fieldAt data idx s
      walkFrom data fuel idx s

def run (data : Bytes) : Reading σ := w.walkFrom data data.length 0 w.init

/-- The arm of a value. -/
def step (s : σ) (field : Nat) (v : Value) : Reading σ := (w.arms field v.wire).value s v

/-- A step refuses, or reads the field at its index, moves behind it and stays within the input. -/
theorem fieldAt_cases (data : Bytes) (idx : Nat) (s : σ) :
    (readField (data.drop idx) = none ∧ w.fieldAt data idx s = .error .refused) ∨
      ∃ field v next, readField (data.drop idx) = some (field, v, data.drop next) ∧ idx < next ∧
        next ≤ data.length ∧
        w.fieldAt data idx s = (w.step s field v >>= fun s => .ok (s, next)) := by
  unfold fieldAt readField
  obtain ⟨hr, ho⟩ | ⟨tag, i, hr, ho, hle, hlen⟩ := readVarintAt_reads data idx
  · exact .inl ⟨by rw [ho], by rw [hr]; rfl⟩
  · have hmoved := lt_of_readVarint ho
    simp only [hr, ho, ok_bind]
    by_cases hzero : (tag >>> 3 == 0) = true
    · exact .inl ⟨if_pos hzero, if_pos hzero⟩
    · rw [if_neg hzero, if_neg hzero]
      obtain ⟨hv, harm⟩ | ⟨v, next, hv, hmore, hend, harm⟩ :=
        Arm.run_cases (tag &&& 7) (w.arms (tag >>> 3).toNat (tag &&& 7).toNat) s hlen
      · exact .inl ⟨by rw [hv]; rfl, harm⟩
      · refine .inr ⟨(tag >>> 3).toNat, v, next, by rw [hv]; rfl, by omega, hend, ?_⟩
        rw [harm, step]
        have hwire : ∀ k, k = v.wire → (w.arms (tag >>> 3).toNat k).value s v =
            (w.arms (tag >>> 3).toNat v.wire).value s v := by
          rintro _ rfl
          rfl
        rw [hwire _ (wire_of_readValue hv)]

/-! ### The walk over the fields -/

/-- The loop over the bytes that are left. -/
def walk : Nat → σ → Bytes → Reading σ
  | 0, s, rest => if rest = [] ∨ w.done s = true then .ok s else .error .endless
  | fuel + 1, s, rest =>
    if rest = [] ∨ w.done s = true then .ok s
    else match readField rest with
      | none => .error .refused
      | some (field, v, rest) => do
        let s ← w.step s field v
        walk fuel s rest

/-- The walk over all of `data`. -/
def across (s : σ) (data : Bytes) : Reading σ := w.walk data.length s data

theorem walkFrom_eq (data : Bytes) (fuel idx : Nat) (s : σ) :
    w.walkFrom data fuel idx s = w.walk fuel s (data.drop idx) := by
  have hend (idx : Nat) : data.length ≤ idx ↔ data.drop idx = [] := List.drop_eq_nil_iff.symm
  induction fuel generalizing idx s with
  | zero => simp only [walkFrom, walk, hend]
  | succ fuel ih =>
    rw [walkFrom, walk]
    simp only [hend]
    split
    · rfl
    · obtain ⟨hread, hstep⟩ | ⟨field, v, next, hread, -, -, hstep⟩ := w.fieldAt_cases data idx s
      · rw [hread, hstep]
        rfl
      · rw [hread, hstep]
        simp only
        cases w.step s field v with
        | error e => rfl
        | ok s' => exact ih next s'

/-- The walk by index is the walk over the fields. -/
theorem run_eq (data : Bytes) : w.run data = w.across w.init data :=
  w.walkFrom_eq data data.length 0 w.init

theorem walk_fuel {fuel : Nat} (s : σ) {data : Bytes} (h : data.length ≤ fuel) :
    w.walk fuel s data = w.across s data := by
  have key : ∀ n m s (data : Bytes), data.length ≤ n → data.length ≤ m →
      w.walk n s data = w.walk m s data := by
    intro n
    induction n with
    | zero =>
      intro m s data hn _
      obtain rfl := List.eq_nil_of_length_eq_zero (Nat.le_zero.mp hn)
      cases m <;> simp [walk]
    | succ n ih =>
      intro m s data hn hm
      cases m with
      | zero =>
        obtain rfl := List.eq_nil_of_length_eq_zero (Nat.le_zero.mp hm)
        simp [walk]
      | succ m =>
        simp only [walk]
        split
        · rfl
        split
        · rfl
        · rename_i field v rest hread
          have hlt := readField_length hread
          congr 1
          funext s'
          exact ih m s' rest (by omega) (by omega)
  exact key fuel data.length s data h (Nat.le_refl _)

theorem across_end {s : σ} {data : Bytes} (h : data = [] ∨ w.done s = true) :
    w.across s data = .ok s := by
  unfold across
  cases data.length with
  | zero => exact if_pos h
  | succ _ => exact if_pos h

theorem across_refused {s : σ} {data : Bytes} (hdata : data ≠ []) (hdone : w.done s = false)
    (h : readField data = none) : w.across s data = .error .refused := by
  cases data with
  | nil => exact absurd rfl hdata
  | cons b bs =>
    unfold across
    rw [List.length_cons, walk, if_neg (by simp [hdone]), h]

theorem across_field {s : σ} {data rest : Bytes} {field : Nat} {v : Value} (hdone : w.done s = false)
    (h : readField data = some (field, v, rest)) :
    w.across s data = (w.step s field v >>= fun s => w.across s rest) := by
  have hlt := readField_length h
  cases data with
  | nil => exact absurd hlt (Nat.not_lt_zero _)
  | cons b bs =>
    rw [List.length_cons] at hlt
    unfold across
    rw [List.length_cons, walk, if_neg (by simp [hdone]), h]
    simp only
    congr 1
    funext s'
    exact w.walk_fuel s' (by omega)

section Ends

variable (hstep : ∀ s field v, Tame (w.step s field v))

include hstep

theorem tame_across (s : σ) (data : Bytes) : Tame (w.across s data) := by
  induction h : data.length using Nat.strongRecOn generalizing s data with
  | ind n ih =>
    by_cases hend : data = [] ∨ w.done s = true
    · rw [w.across_end hend]
      exact tame_ok s
    · obtain ⟨hdata, hdone⟩ := not_or.mp hend
      rw [Bool.not_eq_true] at hdone
      cases hread : readField data with
      | none =>
        rw [w.across_refused hdata hdone hread]
        exact tame_refused
      | some p =>
        obtain ⟨field, v, rest⟩ := p
        rw [w.across_field hdone hread]
        exact (hstep s field v).bind fun s' => ih _ (h ▸ readField_length hread) s' rest rfl

/-- Where its arms end well the loop does, on every input. -/
theorem tame_run (data : Bytes) : Tame (w.run data) := by
  rw [run_eq]
  exact w.tame_across hstep w.init data

/-- And so does each of its steps. -/
theorem step_advances (data : Bytes) (idx : Nat) (s : σ) :
    w.fieldAt data idx s = .error .refused ∨
      ∃ s' next, w.fieldAt data idx s = .ok (s', next) ∧ idx < next ∧ next ≤ data.length := by
  obtain ⟨-, hrefused⟩ | ⟨field, v, next, -, hlt, hlen, h⟩ := w.fieldAt_cases data idx s
  · exact .inl hrefused
  · obtain ⟨o, ho⟩ := hstep s field v
    rw [h, ho]
    cases o with
    | none => exact .inl rfl
    | some s' => exact .inr ⟨s', next, rfl, hlt, hlen⟩

end Ends

/-- The walker goes to the end of its input, and its arms do what the steps of a decoder of
`Core.Protobuf` do. -/
def Refines (decode : Bytes → Option σ) : Prop :=
  (∀ s, w.done s = false) ∧
    ∃ step, decode = decodeWith step w.init ∧ ∀ s field wire v, v.wire = wire →
      (w.arms field wire).value s v = orRefused (step s field v)

variable {w} {decode : Bytes → Option σ}

/-- The fields that are skipped the step passes over; with the others it does what their arms do. -/
theorem Refines.of_arms {step : σ → Nat → Value → Option σ} (hdone : ∀ s, w.done s = false)
    (hdecode : decode = decodeWith step w.init)
    (hskips : ∀ s field v, (w.arms field v.wire).isSkip = true → step s field v = some s)
    (harms : ∀ s field wire v, v.wire = wire →
      ((w.arms field wire).isSkip = true → step s field v = some s) →
      (w.arms field wire).value s v = orRefused (step s field v)) :
    w.Refines decode := by
  refine ⟨hdone, step, hdecode, ?_⟩
  rintro s field _ v rfl
  exact harms s field _ v rfl (hskips s field v)

theorem Refines.tame (h : w.Refines decode) (s : σ) (field : Nat) (v : Value) :
    Tame (w.step s field v) := by
  obtain ⟨-, read, -, harms⟩ := h
  exact ⟨read s field v, harms s field _ v rfl⟩

/-- Such a walker is that decoder. -/
theorem Refines.run (h : w.Refines decode) (data : Bytes) :
    w.run data = orRefused (decode data) := by
  obtain ⟨hdone, read, rfl, harms⟩ := h
  rw [run_eq]
  generalize w.init = s
  induction h : data.length using Nat.strongRecOn generalizing s data with
  | ind n ih =>
    cases hread : readField data with
    | none =>
      cases data with
      | nil =>
        rw [w.across_end (.inl rfl)]
        rfl
      | cons b bs =>
        rw [w.across_refused (List.cons_ne_nil b bs) (hdone s) hread]
        simp [decodeWith, foldFields, hread]
    | some p =>
      obtain ⟨field, v, rest⟩ := p
      rw [w.across_field (hdone s) hread, decodeWith_of_readField hread, step,
        harms s field _ v rfl]
      cases read s field v with
      | none => rfl
      | some s' => exact ih _ (h ▸ readField_length hread) rest s' rfl

/-- What a decoder returns of the state its loop ends in. -/
theorem Refines.finish {β : Type} (h : w.Refines decode) (f : σ → Option β) (data : Bytes) :
    (w.run data >>= fun s => orRefused (f s)) = orRefused ((decode data).bind f) := by
  rw [h.run]
  cases decode data <;> rfl

end Walker

/-! ## Fields that are skipped -/

/-- The bytes of one field, of this tag, that `skip_field` accepts. -/
def SkipsAll (tag : UInt32) (field : Bytes) : Prop :=
  ∃ i, readVarintAt field 0 = .ok (tag, i) ∧
    skipFieldAt field i (tag &&& 7).toNat = .ok field.length

theorem SkipsAll.ne_nil {tag : UInt32} {field : Bytes} (h : SkipsAll tag field) : field ≠ [] := by
  rintro rfl
  obtain ⟨i, hread, -⟩ := h
  cases hread

section

variable {tag : UInt32} {field : Bytes} (h : SkipsAll tag field)

include h

theorem SkipsAll.parts :
    ∃ i, i ≤ field.length ∧ readVarint field = some (tag, field.drop i) ∧
      skipFieldAt field i (tag &&& 7).toNat = .ok field.length := by
  obtain ⟨i, hread, hskip⟩ := h
  obtain ⟨hr, -⟩ | ⟨t, next, hr, ho, -, hlen⟩ := readVarintAt_reads field 0
  · rw [hr] at hread
    cases hread
  · rw [hr] at hread
    cases hread
    exact ⟨_, hlen, ho, hskip⟩

/-- A field of number 0 is refused, whatever stands behind it. -/
theorem SkipsAll.refused (hzero : (tag >>> 3 == 0) = true) (rest : Bytes) :
    readField (field ++ rest) = none := by
  obtain ⟨i, -, hread, -⟩ := h.parts
  obtain ⟨taken, hfield, -, htakes⟩ := readVarint_takes hread
  unfold readField
  rw [hfield, List.append_assoc, htakes]
  exact if_pos hzero

/-- Any other is a field. -/
theorem SkipsAll.rawField (hnumber : (tag >>> 3 == 0) = false) :
    ∃ g : RawField, g.bytes = field ∧ g.number = (tag >>> 3).toNat ∧
      g.value.wire = (tag &&& 7).toNat := by
  obtain ⟨i, hlen, hread, hskip⟩ := h.parts
  obtain ⟨hr, -⟩ | ⟨v, next, hr, hv, -, -⟩ := skipFieldAt_cases (tag &&& 7) hlen
  · rw [hr] at hskip
    cases hskip
  · rw [hr] at hskip
    cases hskip
    have hfield : readField field = some ((tag >>> 3).toNat, v, []) := by
      unfold readField
      rw [hread]
      simp only [hnumber, hv, Option.map_some, List.drop_length]
      rfl
    obtain ⟨g, hn, hg, hbytes⟩ := exists_rawField hfield
    exact ⟨g, by rw [hbytes, List.append_nil], hn, by rw [hg, ← wire_of_readValue hv]⟩

end

namespace Walker

variable {σ : Type} (w : Walker σ)

/-- Number and wire type of a tag that the walker only skips. -/
def skips (tag : UInt32) : Bool := (w.arms (tag >>> 3).toNat (tag &&& 7).toNat).isSkip

theorem across_skipped {tag : UInt32} {field : Bytes} (h : SkipsAll tag field)
    (hnumber : (tag >>> 3 == 0) = false) (hskips : w.skips tag = true) (s : σ) (rest : Bytes) :
    w.across s (field ++ rest) = w.across s rest := by
  cases hdone : w.done s with
  | true => rw [w.across_end (.inr hdone), w.across_end (.inr hdone)]
  | false =>
    obtain ⟨g, rfl, hn, hwire⟩ := h.rawField hnumber
    have hstep : w.step s g.number g.value = .ok s := by
      rw [skips, ← hn, ← hwire] at hskips
      exact Arm.value_of_isSkip hskips s g.value
    rw [w.across_field hdone (g.reads rest), hstep, ok_bind]

/-- A field that is skipped may be inserted behind any fields. -/
theorem across_insert {fields : List Bytes} (hfields : ∀ f ∈ fields, ∃ tag, SkipsAll tag f)
    {tag : UInt32} {field : Bytes} (h : SkipsAll tag field) (hnumber : (tag >>> 3 == 0) = false)
    (hskips : w.skips tag = true) (s : σ) (rest : Bytes) :
    w.across s (fields.flatten ++ (field ++ rest)) = w.across s (fields.flatten ++ rest) := by
  induction fields generalizing s with
  | nil => exact w.across_skipped h hnumber hskips s rest
  | cons f fields ih =>
    obtain ⟨⟨t, ht⟩, hrest⟩ := List.forall_mem_cons.mp hfields
    rw [List.flatten_cons, List.append_assoc, List.append_assoc]
    cases hdone : w.done s with
    | true => rw [w.across_end (.inr hdone), w.across_end (.inr hdone)]
    | false =>
      cases hzero : t >>> 3 == 0 with
      | true =>
        have hne (bytes : Bytes) : f ++ bytes ≠ [] := by simp [ht.ne_nil]
        rw [w.across_refused (hne _) hdone (ht.refused hzero _),
          w.across_refused (hne _) hdone (ht.refused hzero _)]
      | false =>
        obtain ⟨g, rfl, -⟩ := ht.rawField hzero
        rw [w.across_field hdone (g.reads _), w.across_field hdone (g.reads _)]
        congr 1
        funext s'
        exact ih hrest s'

theorem run_insert {fields : List Bytes} (hfields : ∀ f ∈ fields, ∃ tag, SkipsAll tag f)
    {tag : UInt32} {field : Bytes} (h : SkipsAll tag field) (hnumber : (tag >>> 3 == 0) = false)
    (hskips : w.skips tag = true) (rest : Bytes) :
    w.run (fields.flatten ++ (field ++ rest)) = w.run (fields.flatten ++ rest) := by
  rw [run_eq, run_eq, w.across_insert hfields h hnumber hskips]

end Walker

end Meshrustic.Protobuf
