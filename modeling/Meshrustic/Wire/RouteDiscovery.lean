import Mathlib.Algebra.GroupWithZero.Nat
import Meshrustic.Core.ProtobufWriter

/-!
# The `RouteDiscovery` message (`mesh-routing/src/traceroute.rs:8-135, 299-415`)

The trace of a packet: the relays on its way and back, and how well each heard it. The
four lists are written packed, after a size is computed that has to fit; a reader also
takes them one element at a time.

`RouteChunk` is a piece of a message in either form. A message `Spells` a trace when the
pieces of each list, put together, are the list.

Results:
* `length_routeFields`: the size is the exact one;
* `decode_spelled`: a trace is read from any message that spells it;
* `route_discovery_codec`: what is written reads back, and nothing is written of a trace
  that is too long.
-/
namespace Meshrustic.Wire

open Meshrustic.Protobuf

def ROUTE_SIZE : Nat := 8
def ROUTE_WIRE_SIZE : Nat := 128

/-- mirrors crates/mesh-routing/src/traceroute.rs:12-17 -/
@[ext] structure RouteDiscovery where
  route : Table ROUTE_SIZE UInt32 := .empty
  snrTowards : Table ROUTE_SIZE Int32 := .empty
  routeBack : Table ROUTE_SIZE UInt32 := .empty
  snrBack : Table ROUTE_SIZE Int32 := .empty
  deriving DecidableEq

namespace RouteDiscovery

variable (rd : RouteDiscovery) (back : Bool)

/-- The ids of a direction. -/
def ids : Table ROUTE_SIZE UInt32 := if back then rd.routeBack else rd.route

/-- The SNRs of a direction. -/
def snrs : Table ROUTE_SIZE Int32 := if back then rd.snrBack else rd.snrTowards

def setIds (ids : Table ROUTE_SIZE UInt32) : RouteDiscovery :=
  if back then { rd with routeBack := ids } else { rd with route := ids }

def setSnrs (snrs : Table ROUTE_SIZE Int32) : RouteDiscovery :=
  if back then { rd with snrBack := snrs } else { rd with snrTowards := snrs }

variable (ids : Table ROUTE_SIZE UInt32) (snrs : Table ROUTE_SIZE Int32) (other : Bool)

@[simp] theorem ids_setIds :
    (rd.setIds back ids).ids other = if back = other then ids else rd.ids other := by
  cases back <;> cases other <;> rfl

@[simp] theorem snrs_setIds : (rd.setIds back ids).snrs other = rd.snrs other := by
  cases back <;> cases other <;> rfl

@[simp] theorem ids_setSnrs : (rd.setSnrs back snrs).ids other = rd.ids other := by
  cases back <;> cases other <;> rfl

@[simp] theorem snrs_setSnrs :
    (rd.setSnrs back snrs).snrs other = if back = other then snrs else rd.snrs other := by
  cases back <;> cases other <;> rfl

/-- A trace is its lists. -/
theorem ext_lists {rd rd' : RouteDiscovery}
    (hids : ∀ back, (rd.ids back).rows = (rd'.ids back).rows)
    (hsnrs : ∀ back, (rd.snrs back).rows = (rd'.snrs back).rows) : rd = rd' := by
  have hrows {α : Type} {a b : Table ROUTE_SIZE α} (h : a.rows = b.rows) : a = b := by
    cases a
    cases b
    simpa using h
  exact RouteDiscovery.ext (hrows (hids false)) (hrows (hsnrs false)) (hrows (hids true))
    (hrows (hsnrs true))

end RouteDiscovery

/-! ## Decoding -/

/-- The whole words of a slice.
mirrors crates/mesh-routing/src/traceroute.rs:325-332 -/
def pushWords : Bytes → Table ROUTE_SIZE UInt32 → Option (Table ROUTE_SIZE UInt32)
  | a :: b :: c :: d :: rest, out => (out.push (ofLe32 [a, b, c, d])).bind (pushWords rest)
  | _, out => some out

/-- mirrors crates/mesh-routing/src/traceroute.rs:317-334 -/
def parseFixed32Packed (data : Bytes) (out : Table ROUTE_SIZE UInt32) :
    Option (Table ROUTE_SIZE UInt32) :=
  if data.length % 4 ≠ 0 then none else pushWords data out

/-- Each varint takes a byte at least, so the length of the slice is fuel enough.
mirrors crates/mesh-routing/src/traceroute.rs:341-346 -/
def pushVarints : Nat → Bytes → Table ROUTE_SIZE Int32 → Option (Table ROUTE_SIZE Int32)
  | _, [], out => some out
  | 0, _ :: _, _ => none
  | fuel + 1, b :: bs, out =>
    match readVarint64 (b :: bs) with
    | none => none
    | some (v, rest) => (out.push (i32Of v)).bind (pushVarints fuel rest)

/-- mirrors crates/mesh-routing/src/traceroute.rs:336-348 -/
def parseInt32Packed (data : Bytes) (out : Table ROUTE_SIZE Int32) :
    Option (Table ROUTE_SIZE Int32) :=
  pushVarints data.length data out

/-- mirrors crates/mesh-routing/src/traceroute.rs:29-88 -/
def routeField (rd : RouteDiscovery) (field : Nat) (value : Value) : Option RouteDiscovery :=
  match field, value with
  | 1, .fixed32 b => (rd.route.push (ofLe32 b)).map fun route => { rd with route }
  | 1, .len b => (parseFixed32Packed b rd.route).map fun route => { rd with route }
  | 2, .varint v => (rd.snrTowards.push (i32Of v)).map fun snrTowards => { rd with snrTowards }
  | 2, .len b => (parseInt32Packed b rd.snrTowards).map fun snrTowards => { rd with snrTowards }
  | 3, .fixed32 b => (rd.routeBack.push (ofLe32 b)).map fun routeBack => { rd with routeBack }
  | 3, .len b => (parseFixed32Packed b rd.routeBack).map fun routeBack => { rd with routeBack }
  | 4, .varint v => (rd.snrBack.push (i32Of v)).map fun snrBack => { rd with snrBack }
  | 4, .len b => (parseInt32Packed b rd.snrBack).map fun snrBack => { rd with snrBack }
  | _, _ => some rd

/-- mirrors crates/mesh-routing/src/traceroute.rs:19-91 -/
def decodeRouteDiscovery (data : Bytes) : Option RouteDiscovery := decodeWith routeField {} data

/-! ## Encoding -/

/-- The rounds of `varint_len`; `fuel` bounds their number. -/
def varintLenLoop : Nat → Nat → Nat
  | 0, _ => 0
  | fuel + 1, v => if v < 128 then 1 else varintLenLoop fuel (v / 128) + 1

/-- mirrors crates/mesh-routing/src/traceroute.rs:350-357 -/
def varintLen (v : Nat) : Nat := varintLenLoop 10 v

/-- mirrors crates/mesh-routing/src/traceroute.rs:98-110 -/
def snrLen (snr : Int32) : Nat := if snr < 0 then 10 else varintLen snr.toUInt32.toNat

def snrBytes (values : List Int32) : Nat := (values.map snrLen).sum

/-- mirrors crates/mesh-routing/src/traceroute.rs:115-121 -/
def fieldLen (count payload : Nat) : Nat := if count == 0 then 0 else 1 + varintLen payload + payload

/-- mirrors crates/mesh-routing/src/traceroute.rs:122-125 -/
def RouteDiscovery.needed (rd : RouteDiscovery) : Nat :=
  fieldLen rd.route.rows.length (4 * rd.route.rows.length) +
    fieldLen rd.snrTowards.rows.length (snrBytes rd.snrTowards.rows) +
    fieldLen rd.routeBack.rows.length (4 * rd.routeBack.rows.length) +
    fieldLen rd.snrBack.rows.length (snrBytes rd.snrBack.rows)

section Pushes

variable {cap : Nat}

/-- mirrors crates/mesh-routing/src/traceroute.rs:359-368 -/
def pushPackedFixed32 (field : Nat) (values : List UInt32) (out : Buffer cap) : Buffer cap :=
  if values.isEmpty then out
  else values.foldl (fun out v => extendFromSlice out (le32 v))
    (pushVarint (pushByte out (UInt8.ofNat (field * 8 + 2))) (values.length * 4))

/-- mirrors crates/mesh-routing/src/traceroute.rs:399-409 -/
def pushSignedVarint (out : Buffer cap) (v : Int32) : Buffer cap :=
  pushVarint out v.toInt64.toUInt64.toNat

/-- mirrors crates/mesh-routing/src/traceroute.rs:370-383 -/
def pushPackedInt32 (field : Nat) (values : List Int32) (out : Buffer cap) : Buffer cap :=
  if values.isEmpty then out
  else values.foldl pushSignedVarint
    (pushVarint (pushByte out (UInt8.ofNat (field * 8 + 2))) (snrBytes values))

end Pushes

/-- What was in the buffer is cleared first.
mirrors crates/mesh-routing/src/traceroute.rs:93-135 -/
def encodeRouteDiscovery (rd : RouteDiscovery) : Bool × Buffer ROUTE_WIRE_SIZE :=
  if ROUTE_WIRE_SIZE < rd.needed then (false, .empty)
  else
    (true, pushAll
      [pushPackedFixed32 1 rd.route.rows, pushPackedInt32 2 rd.snrTowards.rows,
        pushPackedFixed32 3 rd.routeBack.rows, pushPackedInt32 4 rd.snrBack.rows] .empty)

/-! ## The message that is written -/

def fixed32Run (values : List UInt32) : Bytes := values.flatMap le32

def varintRun (words : List UInt64) : Bytes := words.flatMap fun w => varintBytes w.toNat

/-- An SNR as it is written. -/
def snrWord (snr : Int32) : UInt64 := snr.toInt64.toUInt64

/-- A list without elements is left out. -/
def routeFields (rd : RouteDiscovery) : List Field :=
  present (!rd.route.rows.isEmpty) (1, .len (fixed32Run rd.route.rows)) ++
    present (!rd.snrTowards.rows.isEmpty) (2, .len (varintRun (rd.snrTowards.rows.map snrWord))) ++
    present (!rd.routeBack.rows.isEmpty) (3, .len (fixed32Run rd.routeBack.rows)) ++
    present (!rd.snrBack.rows.isEmpty) (4, .len (varintRun (rd.snrBack.rows.map snrWord)))

/-! ## Sizes -/

theorem varintLenLoop_eq (fuel v : Nat) : varintLenLoop fuel v = (varintGroups fuel v).length := by
  induction fuel generalizing v with
  | zero => rfl
  | succ fuel ih =>
    by_cases h : v < 128
    · simp [varintLenLoop, varintGroups, h, Nat.div_eq_of_lt h]
    · have hne : v / 128 ≠ 0 := by omega
      simp [varintLenLoop, varintGroups, h, hne, ih]

theorem varintLen_eq (v : Nat) : varintLen v = (varintBytes v).length := varintLenLoop_eq 10 v

/-- A negative number is extended by ones. -/
theorem toNat_snrWord (snr : Int32) :
    (snrWord snr).toNat = snr.toUInt32.toNat + if snr < 0 then 2 ^ 64 - 2 ^ 32 else 0 := by
  have hneg : snr < 0 ↔ snr.toBitVec.msb = true := by
    rw [Int32.lt_iff_toInt_lt, BitVec.msb_eq_toInt, decide_eq_true_eq]
    rfl
  have hlow : (snr.toBitVec.setWidth 64).toNat = snr.toBitVec.toNat := by
    rw [BitVec.toNat_setWidth]
    exact Nat.mod_eq_of_lt (Nat.lt_trans snr.toBitVec.isLt (by decide))
  change (snr.toBitVec.signExtend 64).toNat = snr.toBitVec.toNat + _
  rw [BitVec.toNat_signExtend, hlow]
  simp only [hneg]

theorem snrLen_eq (snr : Int32) : snrLen snr = (varintBytes (snrWord snr).toNat).length := by
  rw [snrLen, toNat_snrWord]
  split
  · have hlt := snr.toUInt32.toNat_lt
    exact (length_varintGroups (k := 9) (by decide) (.inr (by omega)) (by omega)).symm
  · exact varintLen_eq _

theorem length_fixed32Run (values : List UInt32) : (fixed32Run values).length = 4 * values.length := by
  induction values with
  | nil => rfl
  | cons v values ih =>
    simp only [fixed32Run, List.flatMap_cons, List.length_append, length_le32, List.length_cons]
      at ih ⊢
    omega

theorem length_varintRun_le (words : List UInt64) : (varintRun words).length ≤ 10 * words.length := by
  induction words with
  | nil => exact Nat.le_refl _
  | cons w words ih =>
    have := length_varintBytes_le w.toNat
    simp only [varintRun, List.flatMap_cons, List.length_append, List.length_cons] at ih ⊢
    omega

theorem length_varintRun (values : List Int32) :
    (varintRun (values.map snrWord)).length = snrBytes values := by
  induction values with
  | nil => rfl
  | cons v values ih =>
    simp only [varintRun, snrBytes, List.map_cons, List.flatMap_cons, List.length_append,
      List.sum_cons, snrLen_eq] at ih ⊢
    omega

theorem length_presentRun {α : Type} {field : Nat} (hfield : field < 16) (values : List α) (b : Bytes) :
    (messageBytes (present (!values.isEmpty) (field, .len b))).length =
      fieldLen values.length b.length := by
  cases values with
  | nil => rfl
  | cons v values =>
    simp only [List.isEmpty_cons, Bool.not_false, present_true, messageBytes_cons, messageBytes_nil,
      List.append_nil, length_fieldBytes hfield, fieldLen, varintLen_eq, Value.bytes,
      List.length_append, List.length_cons]
    simp
    omega

/-- The size computed in advance is the exact one. -/
theorem length_routeFields (rd : RouteDiscovery) :
    (messageBytes (routeFields rd)).length = rd.needed := by
  simp only [routeFields, messageBytes_append, List.length_append,
    length_presentRun (show 1 < 16 by decide), length_presentRun (show 2 < 16 by decide),
    length_presentRun (show 3 < 16 by decide), length_presentRun (show 4 < 16 by decide),
    length_fixed32Run, length_varintRun, RouteDiscovery.needed]

/-! ## What is written -/

section Writers

variable {cap field : Nat}

/-- Values pushed one after the other. -/
theorem appends_foldl {α : Type} {push : Buffer cap → α → Buffer cap} {bytes : α → Bytes}
    (h : ∀ v, Appends cap (push · v) (bytes v)) (values : List α) :
    Appends cap (values.foldl push ·) (values.flatMap bytes) := by
  induction values with
  | nil => exact fun out _ => (List.append_nil _).symm
  | cons v values ih => exact (h v).trans ih

/-- The head of a packed list. -/
theorem appends_runHead (hfield : field < 15) (n : Nat) :
    Appends cap (fun out => pushVarint (pushByte out (UInt8.ofNat (field * 8 + 2))) n)
      (varintBytes (field * 8 + 2) ++ varintBytes n) := by
  have htag : Appends cap (pushByte · (UInt8.ofNat (field * 8 + 2))) (varintBytes (field * 8 + 2)) := by
    rw [varintBytes_small (by omega)]
    exact appends_pushByte _
  exact htag.trans (appends_pushVarint n)

theorem fieldBytes_len (field : Nat) (b : Bytes) :
    fieldBytes (field, .len b) = varintBytes (field * 8 + 2) ++ (varintBytes b.length ++ b) := rfl

theorem writes_packedFixed32 (hfield : field < 15) (values : List UInt32) :
    Writes cap (pushPackedFixed32 field values)
      (present (!values.isEmpty) (field, .len (fixed32Run values))) := by
  cases values with
  | nil => exact fun out _ => (List.append_nil _).symm
  | cons v values =>
    refine writes_one ?_
    have hlen : (v :: values).length * 4 = (fixed32Run (v :: values)).length := by
      rw [length_fixed32Run, Nat.mul_comm]
    have hword (w : UInt32) : Appends cap (extendFromSlice · (le32 w)) (le32 w) :=
      appends_extendFromSlice _
    have hrun := (appends_runHead hfield (fixed32Run (v :: values)).length).trans
      (appends_foldl hword (v :: values))
    rw [List.append_assoc, ← hlen] at hrun
    rw [fieldBytes_len, ← hlen]
    exact hrun

theorem writes_packedInt32 (hfield : field < 15) (values : List Int32) :
    Writes cap (pushPackedInt32 field values)
      (present (!values.isEmpty) (field, .len (varintRun (values.map snrWord)))) := by
  cases values with
  | nil => exact fun out _ => (List.append_nil _).symm
  | cons v values =>
    refine writes_one ?_
    have hword (w : Int32) : Appends cap (pushSignedVarint · w) (varintBytes (snrWord w).toNat) :=
      appends_pushVarint _
    have hrun := (appends_runHead hfield (snrBytes (v :: values))).trans
      (appends_foldl hword (v :: values))
    rw [List.append_assoc] at hrun
    rw [fieldBytes_len, length_varintRun, varintRun, List.flatMap_map]
    exact hrun

end Writers

/-- A trace that fits is written as a whole, and nothing of one that does not. -/
theorem encodeRouteDiscovery_eq (rd : RouteDiscovery) :
    (encodeRouteDiscovery rd).1 = decide ((messageBytes (routeFields rd)).length ≤ ROUTE_WIRE_SIZE) ∧
      (encodeRouteDiscovery rd).2.rows =
        if (messageBytes (routeFields rd)).length ≤ ROUTE_WIRE_SIZE then messageBytes (routeFields rd)
        else [] := by
  unfold encodeRouteDiscovery
  rw [← length_routeFields]
  split
  · rename_i hlong
    simp [Nat.not_le_of_lt hlong, Table.empty]
  · rename_i hfits
    have hroom := Nat.le_of_not_lt hfits
    have hnil : Writes ROUTE_WIRE_SIZE (pushAll []) [] := writes_nil
    have hwrites := (writes_packedFixed32 (show 1 < 15 by decide) rd.route.rows).cons <|
      (writes_packedInt32 (show 2 < 15 by decide) rd.snrTowards.rows).cons <|
      (writes_packedFixed32 (show 3 < 15 by decide) rd.routeBack.rows).cons <|
      (writes_packedInt32 (show 4 < 15 by decide) rd.snrBack.rows).cons hnil
    rw [List.append_nil, ← List.append_assoc, ← List.append_assoc] at hwrites
    exact ⟨by simp [hroom], by rw [if_pos hroom]; exact hwrites.rows hroom⟩

/-! ## Messages that spell a trace -/

/-- A field of a trace: one element, or a packed run. An SNR is any word whose low half it is. -/
inductive RouteChunk where
  | id (back : Bool) (v : UInt32)
  | ids (back : Bool) (vs : List UInt32)
  | snr (back : Bool) (w : UInt64)
  | snrs (back : Bool) (ws : List UInt64)

namespace RouteChunk

def field : RouteChunk → Field
  | .id back v => (if back then 3 else 1, .fixed32 (le32 v))
  | .ids back vs => (if back then 3 else 1, .len (fixed32Run vs))
  | .snr back w => (if back then 4 else 2, .varint w)
  | .snrs back ws => (if back then 4 else 2, .len (varintRun ws))

/-- The elements for the list of ids. -/
def idsOf (back : Bool) : RouteChunk → List UInt32
  | .id b v => if b = back then [v] else []
  | .ids b vs => if b = back then vs else []
  | _ => []

/-- The elements for the list of SNRs. -/
def snrsOf (back : Bool) : RouteChunk → List Int32
  | .snr b w => if b = back then [i32Of w] else []
  | .snrs b ws => if b = back then ws.map i32Of else []
  | _ => []

end RouteChunk

/-- The pieces of each list, put together, are the list. -/
structure Spells (chunks : List RouteChunk) (rd : RouteDiscovery) : Prop where
  ids : ∀ back, (rd.ids back).rows = chunks.flatMap (·.idsOf back)
  snrs : ∀ back, (rd.snrs back).rows = chunks.flatMap (·.snrsOf back)

section Reading

theorem push_of_room {cap : Nat} {α : Type} {out : Table cap α} (h : out.rows.length + 1 ≤ cap)
    (v : α) : ∃ out', out.push v = some out' ∧ out'.rows = out.rows ++ [v] := by
  cases hpush : out.push v with
  | none =>
    have := Table.push_none hpush
    omega
  | some out' => exact ⟨out', rfl, Table.push_rows hpush⟩

theorem pushWords_run {values : List UInt32} {out : Table ROUTE_SIZE UInt32}
    (h : out.rows.length + values.length ≤ ROUTE_SIZE) :
    ∃ out', pushWords (fixed32Run values) out = some out' ∧ out'.rows = out.rows ++ values := by
  induction values generalizing out with
  | nil => exact ⟨out, rfl, (List.append_nil _).symm⟩
  | cons v values ih =>
    rw [List.length_cons] at h
    obtain ⟨out₁, hpush, hrows⟩ := push_of_room (show out.rows.length + 1 ≤ ROUTE_SIZE by omega) v
    obtain ⟨out₂, hrest, hrows'⟩ := @ih out₁ (by rw [hrows]; simp; omega)
    refine ⟨out₂, ?_, by rw [hrows', hrows, List.append_assoc]; rfl⟩
    have hword : pushWords (fixed32Run (v :: values)) out =
        (out.push (ofLe32 (le32 v))).bind (pushWords (fixed32Run values)) := rfl
    rw [hword, ofLe32_le32, hpush, Option.bind_some, hrest]

theorem pushVarints_run {words : List UInt64} {fuel : Nat} {out : Table ROUTE_SIZE Int32}
    (hfuel : (varintRun words).length ≤ fuel) (h : out.rows.length + words.length ≤ ROUTE_SIZE) :
    ∃ out', pushVarints fuel (varintRun words) out = some out' ∧
      out'.rows = out.rows ++ words.map i32Of := by
  induction words generalizing fuel out with
  | nil => exact ⟨out, by cases fuel <;> rfl, (List.append_nil _).symm⟩
  | cons w words ih =>
    rw [List.length_cons] at h
    have hroom : out.rows.length + 1 ≤ ROUTE_SIZE := by omega
    obtain ⟨out₁, hpush, hrows⟩ := push_of_room hroom (i32Of w)
    have hread := readVarint64_varintBytes w.toNat_lt (varintRun words)
    have hlt := readVarint64From_length hread
    obtain ⟨b, bs, hcons⟩ := List.exists_cons_of_length_pos (Nat.zero_lt_of_lt hlt)
    have hrun : varintRun (w :: words) = b :: bs := hcons
    cases fuel with
    | zero => simp [hrun] at hfuel
    | succ fuel =>
      obtain ⟨out₂, hrest, hrows'⟩ := @ih fuel out₁
        (by rw [hrun] at hfuel; rw [hcons] at hlt; simp at hfuel hlt; omega)
        (by rw [hrows]; simp; omega)
      refine ⟨out₂, ?_, by rw [hrows', hrows, List.append_assoc]; rfl⟩
      rw [hcons, UInt64.ofNat_toNat] at hread
      rw [hrun, pushVarints, hread]
      simp only [hpush, Option.bind_some, hrest]

variable {rd : RouteDiscovery} {c : RouteChunk} {chunks : List RouteChunk}

/-! The arms of `routeField`, by direction. -/

theorem routeField_id (back : Bool) (b : Bytes) :
    routeField rd (if back then 3 else 1) (.fixed32 b) =
      ((rd.ids back).push (ofLe32 b)).map (rd.setIds back) := by
  cases back <;> rfl

theorem routeField_ids (back : Bool) (b : Bytes) :
    routeField rd (if back then 3 else 1) (.len b) =
      (parseFixed32Packed b (rd.ids back)).map (rd.setIds back) := by
  cases back <;> rfl

theorem routeField_snr (back : Bool) (v : UInt64) :
    routeField rd (if back then 4 else 2) (.varint v) =
      ((rd.snrs back).push (i32Of v)).map (rd.setSnrs back) := by
  cases back <;> rfl

theorem routeField_snrs (back : Bool) (b : Bytes) :
    routeField rd (if back then 4 else 2) (.len b) =
      (parseInt32Packed b (rd.snrs back)).map (rd.setSnrs back) := by
  cases back <;> rfl

/-- The elements of `c` stand behind those of the lists. -/
structure Extends (rd : RouteDiscovery) (c : RouteChunk) (rd' : RouteDiscovery) : Prop where
  ids : ∀ back, (rd'.ids back).rows = (rd.ids back).rows ++ c.idsOf back
  snrs : ∀ back, (rd'.snrs back).rows = (rd.snrs back).rows ++ c.snrsOf back

theorem extends_setIds {back : Bool} {out : Table ROUTE_SIZE UInt32}
    (hrows : out.rows = (rd.ids back).rows ++ c.idsOf back)
    (hother : ∀ b, back ≠ b → c.idsOf b = []) (hsnrs : ∀ b, c.snrsOf b = []) :
    Extends rd c (rd.setIds back out) := by
  refine ⟨fun b => ?_, fun b => ?_⟩
  · rw [RouteDiscovery.ids_setIds]
    split
    · rename_i hb
      exact hb ▸ hrows
    · rename_i hb
      rw [hother b hb, List.append_nil]
  · rw [RouteDiscovery.snrs_setIds, hsnrs b, List.append_nil]

theorem extends_setSnrs {back : Bool} {out : Table ROUTE_SIZE Int32}
    (hrows : out.rows = (rd.snrs back).rows ++ c.snrsOf back)
    (hother : ∀ b, back ≠ b → c.snrsOf b = []) (hids : ∀ b, c.idsOf b = []) :
    Extends rd c (rd.setSnrs back out) := by
  refine ⟨fun b => ?_, fun b => ?_⟩
  · rw [RouteDiscovery.ids_setSnrs, hids b, List.append_nil]
  · rw [RouteDiscovery.snrs_setSnrs]
    split
    · rename_i hb
      exact hb ▸ hrows
    · rename_i hb
      rw [hother b hb, List.append_nil]

/-- Where there is room, the elements of a field are appended to its list. -/
theorem routeField_chunk
    (hids : ∀ back, (rd.ids back).rows.length + (c.idsOf back).length ≤ ROUTE_SIZE)
    (hsnrs : ∀ back, (rd.snrs back).rows.length + (c.snrsOf back).length ≤ ROUTE_SIZE) :
    ∃ rd', routeField rd c.field.1 c.field.2 = some rd' ∧ Extends rd c rd' := by
  cases c with
  | id back v =>
    have hroom := hids back
    simp only [RouteChunk.idsOf, if_true] at hroom
    obtain ⟨out, hpush, hrows⟩ := push_of_room hroom v
    refine ⟨rd.setIds back out, ?_, extends_setIds ?_ (fun b hb => if_neg hb) fun _ => rfl⟩
    · rw [RouteChunk.field, routeField_id, ofLe32_le32, hpush]
      rfl
    · rw [hrows, RouteChunk.idsOf, if_pos rfl]
  | ids back vs =>
    have hroom := hids back
    simp only [RouteChunk.idsOf, if_true] at hroom
    obtain ⟨out, hpush, hrows⟩ := pushWords_run hroom
    have hparse : parseFixed32Packed (fixed32Run vs) (rd.ids back) = some out := by
      rw [parseFixed32Packed, length_fixed32Run, if_neg (by omega), hpush]
    refine ⟨rd.setIds back out, ?_, extends_setIds ?_ (fun b hb => if_neg hb) fun _ => rfl⟩
    · rw [RouteChunk.field, routeField_ids, hparse]
      rfl
    · rw [hrows, RouteChunk.idsOf, if_pos rfl]
  | snr back w =>
    have hroom := hsnrs back
    simp only [RouteChunk.snrsOf, if_true] at hroom
    obtain ⟨out, hpush, hrows⟩ := push_of_room hroom (i32Of w)
    refine ⟨rd.setSnrs back out, ?_, extends_setSnrs ?_ (fun b hb => if_neg hb) fun _ => rfl⟩
    · rw [RouteChunk.field, routeField_snr, hpush]
      rfl
    · rw [hrows, RouteChunk.snrsOf, if_pos rfl]
  | snrs back ws =>
    have hroom := hsnrs back
    simp only [RouteChunk.snrsOf, if_true, List.length_map] at hroom
    obtain ⟨out, hpush, hrows⟩ := pushVarints_run (Nat.le_refl _) hroom
    have hparse : parseInt32Packed (varintRun ws) (rd.snrs back) = some out := hpush
    refine ⟨rd.setSnrs back out, ?_, extends_setSnrs ?_ (fun b hb => if_neg hb) fun _ => rfl⟩
    · rw [RouteChunk.field, routeField_snrs, hparse]
      rfl
    · rw [hrows, RouteChunk.snrsOf, if_pos rfl]

/-- The fields of a message, one after the other. -/
theorem visit_chunks {rd' : RouteDiscovery}
    (hids : ∀ back, (rd'.ids back).rows = (rd.ids back).rows ++ chunks.flatMap (·.idsOf back))
    (hsnrs : ∀ back, (rd'.snrs back).rows = (rd.snrs back).rows ++ chunks.flatMap (·.snrsOf back)) :
    Protobuf.visit routeField rd (chunks.map (·.field)) = some rd' := by
  induction chunks generalizing rd with
  | nil =>
    have hsame : rd' = rd := RouteDiscovery.ext_lists (by simpa using hids) (by simpa using hsnrs)
    rw [hsame, List.map_nil, visit_nil]
  | cons c chunks ih =>
    simp only [List.flatMap_cons] at hids hsnrs
    obtain ⟨rd₁, hstep, hids₁, hsnrs₁⟩ := @routeField_chunk rd c
      (fun back => by
        have hle := (rd'.ids back).le
        have hlen := congrArg List.length (hids back)
        simp only [List.length_append] at hlen
        omega)
      (fun back => by
        have hle := (rd'.snrs back).le
        have hlen := congrArg List.length (hsnrs back)
        simp only [List.length_append] at hlen
        omega)
    rw [List.map_cons, visit_cons, hstep, Option.bind_some]
    refine ih (fun back => ?_) (fun back => ?_)
    · rw [hids, hids₁, List.append_assoc]
    · rw [hsnrs, hsnrs₁, List.append_assoc]

/-- A run has no more elements than a list. -/
theorem valid_chunk (hids : ∀ back, (c.idsOf back).length ≤ ROUTE_SIZE)
    (hsnrs : ∀ back, (c.snrsOf back).length ≤ ROUTE_SIZE) : Valid c.field := by
  have hnumber (back : Bool) (m n : Nat) (hm : 0 < m ∧ m < 16) (hn : 0 < n ∧ n < 16) :
      0 < (if back then m else n) ∧ (if back then m else n) < 2 ^ 29 := by
    cases back <;> simp <;> omega
  cases c with
  | id back v =>
    have h := hnumber back 3 1 (by decide) (by decide)
    exact ⟨h.1, h.2, rfl⟩
  | ids back vs =>
    have h := hnumber back 3 1 (by decide) (by decide)
    have hlen := hids back
    simp only [RouteChunk.idsOf, if_true, ROUTE_SIZE] at hlen
    refine ⟨h.1, h.2, ?_⟩
    change (fixed32Run vs).length < 4294967296
    rw [length_fixed32Run]
    omega
  | snr back w =>
    have h := hnumber back 4 2 (by decide) (by decide)
    exact ⟨h.1, h.2, trivial⟩
  | snrs back ws =>
    have h := hnumber back 4 2 (by decide) (by decide)
    have hlen := hsnrs back
    simp only [RouteChunk.snrsOf, if_true, List.length_map, ROUTE_SIZE] at hlen
    refine ⟨h.1, h.2, ?_⟩
    change (varintRun ws).length < 4294967296
    have hrun := length_varintRun_le ws
    omega

/-- A trace is read from any message that spells it. -/
theorem decode_spelled (h : Spells chunks rd) :
    decodeRouteDiscovery (messageBytes (chunks.map RouteChunk.field)) = some rd := by
  have hvalid : ∀ f ∈ chunks.map (·.field), Valid f := by
    intro f hf
    obtain ⟨c, hc, rfl⟩ := List.mem_map.mp hf
    refine valid_chunk (fun back => ?_) (fun back => ?_)
    · have hmem := List.mem_map_of_mem (f := (·.idsOf back)) hc
      have hsub := (List.sublist_flatten_of_mem hmem).length_le
      rw [← List.flatMap_def, ← h.ids back] at hsub
      exact Nat.le_trans hsub (rd.ids back).le
    · have hmem := List.mem_map_of_mem (f := (·.snrsOf back)) hc
      have hsub := (List.sublist_flatten_of_mem hmem).length_le
      rw [← List.flatMap_def, ← h.snrs back] at hsub
      exact Nat.le_trans hsub (rd.snrs back).le
  rw [decodeRouteDiscovery, decodeWith_messageBytes hvalid]
  refine visit_chunks (fun back => ?_) (fun back => ?_)
  · rw [h.ids back]
    cases back <;> rfl
  · rw [h.snrs back]
    cases back <;> rfl

end Reading

/-- A run that is left out when it has no elements. -/
def unlessEmpty {α : Type} (values : List α) (c : RouteChunk) : List RouteChunk :=
  if values.isEmpty then [] else [c]

/-- The fields that are written, each a packed run. -/
def packedChunks (rd : RouteDiscovery) : List RouteChunk :=
  unlessEmpty rd.route.rows (.ids false rd.route.rows) ++
    unlessEmpty rd.snrTowards.rows (.snrs false (rd.snrTowards.rows.map snrWord)) ++
    unlessEmpty rd.routeBack.rows (.ids true rd.routeBack.rows) ++
    unlessEmpty rd.snrBack.rows (.snrs true (rd.snrBack.rows.map snrWord))

theorem map_unlessEmpty {α : Type} (values : List α) (c : RouteChunk) :
    (unlessEmpty values c).map RouteChunk.field = present (!values.isEmpty) c.field := by
  cases values <;> rfl

theorem flatMap_unlessEmpty {α β : Type} {values : List α} {c : RouteChunk} {f : RouteChunk → List β}
    (h : values = [] → f c = []) : (unlessEmpty values c).flatMap f = f c := by
  cases values with
  | nil => exact (h rfl).symm
  | cons v values => simp [unlessEmpty]

theorem map_field_packedChunks (rd : RouteDiscovery) :
    (packedChunks rd).map RouteChunk.field = routeFields rd := by
  simp only [packedChunks, List.map_append, map_unlessEmpty]
  rfl

theorem spells_packedChunks (rd : RouteDiscovery) : Spells (packedChunks rd) rd := by
  have hwords : i32Of ∘ snrWord = id := funext i32Of_toUInt64
  constructor <;> rintro (_ | _) <;> simp only [packedChunks, List.flatMap_append] <;>
    repeat rw [flatMap_unlessEmpty (by intro h; simp [RouteChunk.idsOf, RouteChunk.snrsOf, h])]
  all_goals
    simp [RouteChunk.idsOf, RouteChunk.snrsOf, RouteDiscovery.ids, RouteDiscovery.snrs, hwords]

/-- A trace is written when it fits, and reads back, and from any other message that spells it. -/
theorem route_discovery_codec (rd : RouteDiscovery) :
    ((encodeRouteDiscovery rd).1 = true ↔
        (messageBytes (routeFields rd)).length ≤ ROUTE_WIRE_SIZE) ∧
      ((encodeRouteDiscovery rd).1 = true →
        decodeRouteDiscovery (encodeRouteDiscovery rd).2.rows = some rd) ∧
      ((encodeRouteDiscovery rd).1 = false → (encodeRouteDiscovery rd).2.rows = []) ∧
      ∀ chunks, Spells chunks rd →
        decodeRouteDiscovery (messageBytes (chunks.map RouteChunk.field)) = some rd := by
  obtain ⟨hflag, hrows⟩ := encodeRouteDiscovery_eq rd
  refine ⟨by simp [hflag], fun hfits => ?_, fun hlong => ?_, fun chunks => decode_spelled⟩
  · rw [hrows, if_pos (by simpa [hflag] using hfits), ← map_field_packedChunks]
    exact decode_spelled (spells_packedChunks rd)
  · rw [hrows, if_neg (by simpa [hflag] using hlong)]

end Meshrustic.Wire
