import Meshrustic.Core.ProtobufWriter

/-!
# Messages field by field

A message that a decoder accepts need not be one that an encoder writes: tags and lengths
may be longer than they have to be, fields may come in any order and twice. What it is made
of is still a list of fields. A `RawField` is the bytes of one, in any encoding: it reads
alike whatever stands behind it, since a reader looks at no byte beyond those it takes.

Results:
* `exists_rawField`: a field that is read is one;
* `split_of_decode`: a message that is decoded is a list of them, and `rawBytes_injective`:
  of one list only;
* `decodeWith_rawBytes`: the walk visits them;
* `decodeWith_related`: walks of related steps over one message return related results.
-/
namespace Meshrustic.Protobuf

/-! ## Readers look at what they take -/

/-- `read` takes `taken` and yields `a`, whatever stands behind. -/
def Takes {α : Type} (read : Bytes → Option (α × Bytes)) (a : α) (taken : Bytes) : Prop :=
  ∀ rest, read (taken ++ rest) = some (a, rest)

section Readers

variable {data rest : Bytes}

theorem readVarint64From_takes {shift : Nat} {value v : UInt64}
    (h : readVarint64From shift value data = some (v, rest)) :
    ∃ taken, data = taken ++ rest ∧ taken ≠ [] ∧ Takes (readVarint64From shift value) v taken := by
  induction data generalizing shift value with
  | nil => cases h
  | cons byte data ih =>
    simp only [readVarint64From] at h
    split at h
    · cases h
    · rename_i hfits
      split at h
      · rename_i hlast
        cases h
        refine ⟨[byte], rfl, by simp, fun rest' => ?_⟩
        simp only [List.singleton_append, readVarint64From, hfits, hlast, if_true]
        rfl
      · rename_i hmore
        split at h
        · cases h
        · rename_i hnext
          obtain ⟨taken, rfl, -, htakes⟩ := ih h
          refine ⟨byte :: taken, rfl, by simp, fun rest' => ?_⟩
          have := htakes rest'
          simp only [List.cons_append, readVarint64From, hfits, hmore, hnext, if_false]
          exact this

theorem readVarint_takes {v : UInt32} (h : readVarint data = some (v, rest)) :
    ∃ taken, data = taken ++ rest ∧ taken ≠ [] ∧ Takes readVarint v taken := by
  unfold readVarint at h
  split at h
  · rename_i w r hr
    split at h
    · rename_i hfits
      cases h
      obtain ⟨taken, hdata, hne, htakes⟩ := readVarint64From_takes hr
      refine ⟨taken, hdata, hne, fun rest' => ?_⟩
      have hread : readVarint64 (taken ++ rest') = some (w, rest') := htakes rest'
      rw [readVarint, hread]
      exact if_pos hfits
    · cases h
  · cases h

theorem readExact_takes {n : Nat} {b : Bytes} (h : readExact n data = some (b, rest)) :
    data = b ++ rest ∧ Takes (readExact n) b b := by
  unfold readExact at h
  split at h
  · rename_i hle
    cases h
    refine ⟨(List.take_append_drop n data).symm, fun rest' => ?_⟩
    have hlen : (data.take n).length = n := by simp [hle]
    have := readExact_append (data.take n) rest'
    rwa [hlen] at this
  · cases h

theorem readValue_takes {wire : UInt32} {v : Value} (h : readValue wire data = some (v, rest)) :
    ∃ taken, data = taken ++ rest ∧ Takes (readValue wire) v taken := by
  unfold readValue at h
  split at h
  · rename_i hwire
    obtain ⟨⟨w, r⟩, hr, he⟩ := Option.map_eq_some_iff.mp h
    cases he
    obtain ⟨taken, hdata, -, htakes⟩ := readVarint64From_takes hr
    refine ⟨taken, hdata, fun rest' => ?_⟩
    have hread : readVarint64 (taken ++ rest') = some (w, rest') := htakes rest'
    rw [readValue, if_pos hwire, hread]
    rfl
  · rename_i hzero
    split at h
    · rename_i hwire
      obtain ⟨⟨b, r⟩, hr, he⟩ := Option.map_eq_some_iff.mp h
      cases he
      obtain ⟨hdata, htakes⟩ := readExact_takes hr
      refine ⟨b, hdata, fun rest' => ?_⟩
      rw [readValue, if_neg hzero, if_pos hwire, htakes rest']
      rfl
    · rename_i hone
      split at h
      · rename_i hwire
        split at h
        · rename_i n r hn
          obtain ⟨⟨b, r'⟩, hr, he⟩ := Option.map_eq_some_iff.mp h
          cases he
          obtain ⟨length, hdata, -, hlength⟩ := readVarint_takes hn
          obtain ⟨rfl, htakes⟩ := readExact_takes hr
          refine ⟨length ++ b, by rw [hdata, List.append_assoc], fun rest' => ?_⟩
          rw [readValue, if_neg hzero, if_neg hone, if_pos hwire, List.append_assoc, hlength]
          simp only [htakes rest']
          rfl
        · cases h
      · rename_i htwo
        split at h
        · rename_i hwire
          obtain ⟨⟨b, r⟩, hr, he⟩ := Option.map_eq_some_iff.mp h
          cases he
          obtain ⟨hdata, htakes⟩ := readExact_takes hr
          refine ⟨b, hdata, fun rest' => ?_⟩
          rw [readValue, if_neg hzero, if_neg hone, if_neg htwo, if_pos hwire, htakes rest']
          rfl
        · cases h

theorem readField_takes {n : Nat} {v : Value} (h : readField data = some (n, v, rest)) :
    ∃ taken, data = taken ++ rest ∧ taken ≠ [] ∧
      ∀ rest', readField (taken ++ rest') = some (n, v, rest') := by
  unfold readField at h
  split at h
  · cases h
  · rename_i tag r htag
    split at h
    · cases h
    · rename_i hnumber
      obtain ⟨⟨w, r'⟩, hr, he⟩ := Option.map_eq_some_iff.mp h
      cases he
      obtain ⟨head, hdata, hne, hhead⟩ := readVarint_takes htag
      obtain ⟨body, rfl, hbody⟩ := readValue_takes hr
      refine ⟨head ++ body, by rw [hdata, List.append_assoc], by simp [hne], fun rest' => ?_⟩
      rw [readField, List.append_assoc, hhead]
      simp only [hnumber, hbody rest']
      rfl

end Readers

/-! ## Fields as they stand in a message -/

/-- The bytes of one field, and what they are read as. -/
@[ext] structure RawField where
  number : Nat
  value : Value
  bytes : Bytes
  reads : ∀ rest, readField (bytes ++ rest) = some (number, value, rest)

namespace RawField

variable (f : RawField)

def field : Field := (f.number, f.value)

theorem bytes_ne_nil : f.bytes ≠ [] := by
  intro hnil
  have h := f.reads []
  rw [hnil] at h
  cases h

/-- A field as an encoder writes it. -/
def ofField (f : Field) (h : Valid f) : RawField where
  number := f.1
  value := f.2
  bytes := fieldBytes f
  reads := readField_fieldBytes h

end RawField

/-- The tag in front of a field, by which a reader tells it. -/
theorem RawField.tag (f : RawField) (rest : Bytes) :
    ∃ tag body, readVarint (f.bytes ++ rest) = some (tag, body) ∧ (tag >>> 3).toNat = f.number ∧
      readValue (tag &&& 7) body = some (f.value, rest) := by
  have h := f.reads rest
  unfold readField at h
  split at h
  · cases h
  · rename_i tag body htag
    split at h
    · cases h
    · obtain ⟨⟨v, r⟩, hr, he⟩ := Option.map_eq_some_iff.mp h
      rw [Prod.mk.injEq, Prod.mk.injEq] at he
      obtain ⟨hnumber, rfl, rfl⟩ := he
      exact ⟨tag, body, htag, hnumber, hr⟩

/-- A value is read by its wire type. -/
theorem wire_of_readValue {wire : UInt32} {v : Value} {data rest : Bytes}
    (h : readValue wire data = some (v, rest)) : wire.toNat = v.wire := by
  unfold readValue at h
  simp only [beq_iff_eq] at h
  repeat' split at h
  any_goals cases h
  all_goals
    rename_i hwire
    obtain ⟨_, -, he⟩ := Option.map_eq_some_iff.mp h
    cases he
    simp_all [Value.wire]

theorem exists_rawField {data rest : Bytes} {n : Nat} {v : Value}
    (h : readField data = some (n, v, rest)) :
    ∃ f : RawField, f.number = n ∧ f.value = v ∧ data = f.bytes ++ rest := by
  obtain ⟨taken, hdata, -, hreads⟩ := readField_takes h
  exact ⟨⟨n, v, taken, hreads⟩, rfl, rfl, hdata⟩

/-- The bytes of fields, one after the other. -/
def rawBytes (fs : List RawField) : Bytes := fs.flatMap (·.bytes)

@[simp] theorem rawBytes_nil : rawBytes [] = [] := rfl

@[simp] theorem rawBytes_cons (f : RawField) (fs : List RawField) :
    rawBytes (f :: fs) = f.bytes ++ rawBytes fs := rfl

@[simp] theorem rawBytes_append (fs gs : List RawField) :
    rawBytes (fs ++ gs) = rawBytes fs ++ rawBytes gs := List.flatMap_append

/-- A message is made of one list of fields only. -/
theorem rawBytes_injective {fs gs : List RawField} (h : rawBytes fs = rawBytes gs) : fs = gs := by
  induction fs generalizing gs with
  | nil =>
    cases gs with
    | nil => rfl
    | cons g gs => exact absurd (List.append_eq_nil_iff.mp h.symm).1 g.bytes_ne_nil
  | cons f fs ih =>
    cases gs with
    | nil => exact absurd (List.append_eq_nil_iff.mp h).1 f.bytes_ne_nil
    | cons g gs =>
      have hf := f.reads (rawBytes fs)
      rw [← rawBytes_cons, h, rawBytes_cons, g.reads, Option.some.injEq, Prod.mk.injEq,
        Prod.mk.injEq] at hf
      obtain ⟨hnumber, hvalue, hrest⟩ := hf
      rw [rawBytes_cons, rawBytes_cons, hrest, List.append_cancel_right_eq] at h
      rw [ih hrest.symm, RawField.ext hnumber.symm hvalue.symm h]

section Walks

variable {σ : Type} {step : σ → Nat → Value → Option σ} {s t : σ} {rest : Bytes}

theorem decodeWith_rawField (f : RawField) :
    decodeWith step s (f.bytes ++ rest) =
      (step s f.number f.value).bind fun s => decodeWith step s rest :=
  decodeWith_of_readField (f.reads rest)

/-- The walk visits the fields of a message. -/
theorem decodeWith_rawBytes (fs : List RawField) :
    decodeWith step s (rawBytes fs ++ rest) =
      (visit step s (fs.map (·.field))).bind fun s => decodeWith step s rest := by
  induction fs generalizing s with
  | nil => rfl
  | cons f fs ih =>
    rw [rawBytes_cons, List.append_assoc, decodeWith_rawField, List.map_cons, visit_cons,
      Option.bind_assoc]
    exact Option.bind_congr fun _ _ => ih

theorem decodeWith_all (fs : List RawField) :
    decodeWith step s (rawBytes fs) = visit step s (fs.map (·.field)) := by
  rw [← List.append_nil (rawBytes fs), decodeWith_rawBytes]
  cases visit step s (fs.map (·.field)) <;> rfl

/-- A message that is decoded is made of fields. -/
theorem split_of_decode {data : Bytes} (h : decodeWith step s data = some t) :
    ∃ fs, rawBytes fs = data ∧ visit step s (fs.map (·.field)) = some t := by
  unfold decodeWith at h
  generalize data.length = fuel at h
  induction fuel generalizing s data with
  | zero =>
    cases data with
    | nil => exact ⟨[], rfl, by simpa [foldFields] using h⟩
    | cons b bs => cases h
  | succ fuel ih =>
    cases data with
    | nil => exact ⟨[], rfl, by simpa [foldFields] using h⟩
    | cons b bs =>
      rw [foldFields] at h
      split at h
      · cases h
      · rename_i n v rest hread
        obtain ⟨f, rfl, rfl, hdata⟩ := exists_rawField hread
        obtain ⟨u, hu, hrest⟩ := Option.bind_eq_some_iff.mp h
        obtain ⟨fs, rfl, hfs⟩ := ih hrest
        refine ⟨f :: fs, hdata.symm, ?_⟩
        rw [List.map_cons, visit_cons]
        exact Option.bind_eq_some_iff.mpr ⟨u, hu, hfs⟩

section Related

variable {τ : Type} {step' : τ → Nat → Value → Option τ} {R : σ → τ → Prop}
  (hstep : ∀ s u field v t, R s u → step s field v = some t →
    ∃ u', step' u field v = some u' ∧ R t u')

include hstep

theorem visit_related {fs : List Field} {u : τ} (hR : R s u) (h : visit step s fs = some t) :
    ∃ u', visit step' u fs = some u' ∧ R t u' := by
  induction fs generalizing s u with
  | nil =>
    cases h
    exact ⟨u, rfl, hR⟩
  | cons f fs ih =>
    rw [visit_cons] at h
    obtain ⟨s', hs', hrest⟩ := Option.bind_eq_some_iff.mp h
    obtain ⟨u', hu', hR'⟩ := hstep s u f.1 f.2 s' hR hs'
    rw [visit_cons, hu']
    exact ih hR' hrest

/-- Where the steps of two walks keep a relation, so do the walks over one message. -/
theorem decodeWith_related {u : τ} {data : Bytes} (hR : R s u)
    (h : decodeWith step s data = some t) :
    ∃ u', decodeWith step' u data = some u' ∧ R t u' := by
  obtain ⟨fs, rfl, hvisit⟩ := split_of_decode h
  rw [decodeWith_all]
  exact visit_related hstep hR hvisit

end Related

end Walks

end Meshrustic.Protobuf
