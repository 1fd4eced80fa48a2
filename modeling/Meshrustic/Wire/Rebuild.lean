import Meshrustic.Core.ProtobufFields
import Meshrustic.Wire.Traceroute

/-!
# A relay writes its hop into a trace (`mesh-routing/src/traceroute.rs:205-297`)

A packet of the trace is decrypted, its payload rewritten and the whole encrypted again.
What stands around the payload is copied field by field by a walker of its own, which
reads tags like the decoder but gives up on a message that has no payload field: an empty
trace, as an encoder writes it, is relayed without the hop.

Results:
* `replaceDataPayload_eq`: what the walker makes of any message;
* `decode_rewritten`: the message decodes as before, but for its payload;
* `rebuild_traceroute`: a relay adds its hop, and touches nothing else, when the message
  has a payload field;
* `rebuild_empty_trace`: and not when it has none.
-/
namespace Meshrustic.Wire

open Meshrustic.Protobuf
open Meshrustic.RateLimit (TRACEROUTE_APP NODENUM_BROADCAST)
open Meshrustic.Routing (ParsedPacket MAX_PACKET_PAYLOAD)
open Meshrustic.Store (CryptoKey)

/-! ## The walker -/

theorem extended_le {cap : Nat} {out : Buffer cap} {bs : Bytes}
    (h : out.rows.length + bs.length ≤ cap) : (out.rows ++ bs).length ≤ cap := by
  rw [List.length_append]
  exact h

/-- `out.extend_from_slice(bs).ok()?` -/
def extendOk {cap : Nat} (out : Buffer cap) (bs : Bytes) : Option (Buffer cap) :=
  if h : out.rows.length + bs.length ≤ cap then
    some ⟨out.rows ++ bs, extended_le h⟩
  else none

/-- `out.push(b).ok()?`, one byte after the other. -/
def pushEachOk {cap : Nat} (out : Buffer cap) (bs : Bytes) : Option (Buffer cap) :=
  bs.foldlM (fun out b => out.push b) out

/-- mirrors crates/mesh-routing/src/traceroute.rs:276-287 -/
def pushTraceField {cap : Nat} (out : Buffer cap) (payload : Bytes) : Option (Buffer cap) :=
  (pushEachOk out ([18] ++ varintBytes (payload.length % UInt32.size))).bind fun out =>
    extendOk out payload

/-- The loop over the fields of `data`; a field takes at least a byte.
mirrors crates/mesh-routing/src/traceroute.rs:268-292 -/
def replaceLoop {cap : Nat} (payload : Bytes) :
    Nat → Bytes → Bool → Buffer cap → Option (Bool × Buffer cap)
  | _, [], replaced, out => some (replaced, out)
  | 0, _ :: _, _, _ => none
  | fuel + 1, b :: bs, replaced, out =>
    match readVarint (b :: bs) with
    | none => none
    | some (tag, rest) =>
      -- `skip_field` reads the value and leaves it
      match readValue (tag &&& 7) rest with
      | none => none
      | some (_, after) =>
        if tag == 18 then
          if replaced then replaceLoop payload fuel after replaced out
          else (pushTraceField out payload).bind (replaceLoop payload fuel after true)
        else
          (extendOk out ((b :: bs).take ((b :: bs).length - after.length))).bind
            (replaceLoop payload fuel after replaced)

/-- mirrors crates/mesh-routing/src/traceroute.rs:264-297 -/
def replaceDataPayload (data payload : Bytes) : Option (Buffer DATA_CAPACITY) :=
  (replaceLoop payload data.length data false .empty).bind fun (replaced, out) =>
    if !replaced || MAX_PACKET_PAYLOAD < out.rows.length then none else some out

/-- The buffer that held the packet is `cipher`, of which `cipherLen` bytes are the packet's. What
is returned beside the new packet is the number of ids on the trace.
mirrors crates/mesh-routing/src/traceroute.rs:205-261 -/
def rebuildRelayCiphertext (E : BlockCipher) (parsed : ParsedPacket) (decoded : DecodedData)
    (cipher : Bytes) (cipherLen : Nat) (nodeNum : UInt32) (snr : Int8) (key : CryptoKey) :
    Option (Bytes × UInt8) :=
  if cipherLen == 0 || cipher.length < cipherLen then none
  else
    let plain := decryptPacket E key parsed.fromNode parsed.id (cipher.take cipherLen)
    (decodeDataPayloadFull plain).bind fun (data, inner) =>
      if data.portnum != TRACEROUTE_APP then none
      else
        (decodeRouteDiscovery inner).bind fun rd =>
          let rd := alterOnRelay rd parsed data.hasBitfield nodeNum snr decoded.requestId
          let routeLen := (rd.ids (decoded.requestId != 0)).rows.length
          let (fits, routeWire) := encodeRouteDiscovery rd
          if !fits then none
          else
            (replaceDataPayload plain routeWire.rows).bind fun plaintext =>
              if plaintext.rows.isEmpty || cipher.length < plaintext.rows.length then none
              else
                some (encryptPacket E key parsed.fromNode parsed.id plaintext.rows,
                  UInt8.ofNat (min routeLen 255))

/-! ## What the walker makes of a message -/

/-- The field of the application's bytes. -/
def isPayload (f : RawField) : Bool := f.number == 2 && f.value.wire == 2

/-- The payload field of a trace, as it is written. -/
def traceField (trace : Bytes) (h : trace.length < UInt32.size) : RawField :=
  .ofField (2, .len trace) ⟨Nat.zero_lt_two, (by decide : 2 < 2 ^ 29), h⟩

/-- The first payload field is replaced, and the others are dropped. -/
def rewriteFields (trace : RawField) : Bool → List RawField → List RawField
  | _, [] => []
  | replaced, f :: fs =>
    if isPayload f then
      if replaced then rewriteFields trace replaced fs else trace :: rewriteFields trace true fs
    else f :: rewriteFields trace replaced fs

section Walker

variable {cap : Nat} {trace : Bytes}

@[simp] theorem extendOk_nil (out : Buffer cap) : extendOk out [] = some out := by
  obtain ⟨rows, hle⟩ := out
  simp [extendOk, hle]

theorem extendOk_append (out : Buffer cap) (as bs : Bytes) :
    (extendOk out as).bind (extendOk · bs) = extendOk out (as ++ bs) := by
  unfold extendOk
  by_cases hroom : out.rows.length + as.length ≤ cap
  · simp only [dif_pos hroom, Option.bind_some, List.length_append, Nat.add_assoc, List.append_assoc]
  · have hlong : ¬ out.rows.length + (as ++ bs).length ≤ cap := by
      rw [List.length_append]
      omega
    simp only [dif_neg hroom, dif_neg hlong, Option.bind_none]

theorem pushEachOk_eq (out : Buffer cap) (bs : Bytes) : pushEachOk out bs = extendOk out bs := by
  induction bs generalizing out with
  | nil => simp [pushEachOk]
  | cons b bs ih =>
    have hone : out.push b = extendOk out [b] := rfl
    have hrest : pushEachOk out (b :: bs) = (out.push b).bind (pushEachOk · bs) := rfl
    rw [hrest, hone, funext fun out => ih out, extendOk_append]
    rfl

theorem pushTraceField_eq (out : Buffer cap) (h : trace.length < UInt32.size) :
    pushTraceField out trace = extendOk out (traceField trace h).bytes := by
  have hbytes : (traceField trace h).bytes = [18] ++ varintBytes trace.length ++ trace := by
    change varintBytes 18 ++ (varintBytes trace.length ++ trace) = _
    rw [varintBytes_small (by decide), List.append_assoc]
    rfl
  rw [pushTraceField, pushEachOk_eq, extendOk_append, hbytes, Nat.mod_eq_of_lt h]

/-- The walker tells a payload field by its tag. -/
theorem tag_eq_iff {f : RawField} {tag : UInt32} {body rest : Bytes}
    (hnumber : (tag >>> 3).toNat = f.number)
    (hvalue : readValue (tag &&& 7) body = some (f.value, rest)) :
    (tag == 18) = isPayload f := by
  have hwire := wire_of_readValue hvalue
  have hhigh : f.number = tag.toNat / 8 := by
    rw [← hnumber, UInt32.toNat_shiftRight]
    exact Nat.shiftRight_eq_div_pow _ 3
  have hlow : f.value.wire = tag.toNat % 8 := by
    rw [← hwire, UInt32.toNat_and]
    exact Nat.and_two_pow_sub_one_eq_mod _ 3
  rw [isPayload, Bool.eq_iff_iff, beq_iff_eq, Bool.and_eq_true, beq_iff_eq, beq_iff_eq,
    ← UInt32.toNat_inj, hhigh, hlow]
  change tag.toNat = 18 ↔ _
  omega

/-- What the loop appends, where there is room for all of it. -/
theorem replaceLoop_eq (h : trace.length < UInt32.size) {fs : List RawField} {fuel : Nat}
    (hfuel : (rawBytes fs).length ≤ fuel) (replaced : Bool) (out : Buffer cap) :
    replaceLoop trace fuel (rawBytes fs) replaced out =
      (extendOk out (rawBytes (rewriteFields (traceField trace h) replaced fs))).map
        fun out => (replaced || fs.any isPayload, out) := by
  induction fs generalizing replaced fuel out with
  | nil => cases fuel <;> simp [replaceLoop, rewriteFields]
  | cons f fs ih =>
    obtain ⟨tag, body, htag, hnumber, hvalue⟩ := f.tag (rawBytes fs)
    have hpayload := tag_eq_iff hnumber hvalue
    obtain ⟨b, bs, hcons⟩ := List.exists_cons_of_ne_nil f.bytes_ne_nil
    have hdata : rawBytes (f :: fs) = b :: (bs ++ rawBytes fs) := by
      rw [rawBytes_cons, hcons]
      rfl
    have htake : (rawBytes (f :: fs)).take ((rawBytes (f :: fs)).length - (rawBytes fs).length) =
        f.bytes := by
      rw [rawBytes_cons, List.length_append, Nat.add_sub_cancel, List.take_left]
    cases fuel with
    | zero => simp [hdata] at hfuel
    | succ fuel =>
      have hrest : (rawBytes fs).length ≤ fuel := by
        rw [hdata] at hfuel
        simp at hfuel
        omega
      have hloop := funext fun replaced => funext fun out => ih hrest replaced out
      rw [← rawBytes_cons, hdata] at htag
      rw [hdata] at htake
      rw [hdata, replaceLoop, htag]
      simp only [hvalue, hpayload, htake, hloop, List.any_cons, rewriteFields]
      by_cases hp : isPayload f = true
      · cases replaced with
        | true => simp [hp]
        | false =>
          simp only [hp, if_true, Bool.false_eq_true, if_false, rawBytes_cons, pushTraceField_eq _ h]
          rw [← extendOk_append, Option.map_bind]
          rfl
      · simp only [hp, Bool.false_eq_true, if_false, rawBytes_cons, Bool.false_or]
        rw [← extendOk_append, Option.map_bind]
        rfl

/-- A message without a payload field is not rewritten, nor one that grows too long. -/
theorem replaceDataPayload_eq (h : trace.length < UInt32.size) (fs : List RawField) :
    (replaceDataPayload (rawBytes fs) trace).map (·.rows) =
      if fs.any isPayload = true ∧
          (rawBytes (rewriteFields (traceField trace h) false fs)).length ≤ MAX_PACKET_PAYLOAD then
        some (rawBytes (rewriteFields (traceField trace h) false fs))
      else none := by
  unfold replaceDataPayload
  rw [replaceLoop_eq h (Nat.le_refl _), extendOk]
  have hmax : MAX_PACKET_PAYLOAD = 239 := rfl
  have hcap : DATA_CAPACITY = 240 := rfl
  by_cases hroom : (Table.empty : Buffer DATA_CAPACITY).rows.length +
      (rawBytes (rewriteFields (traceField trace h) false fs)).length ≤ DATA_CAPACITY
  · rw [dif_pos hroom]
    by_cases hany : fs.any isPayload = true
    · by_cases hfits :
          (rawBytes (rewriteFields (traceField trace h) false fs)).length ≤ MAX_PACKET_PAYLOAD
      · simp [hany, hfits, Table.empty]
      · simp [hany, hfits, Table.empty, Nat.lt_of_not_le hfits]
    · simp [hany]
  · have hlong : ¬ (rawBytes (rewriteFields (traceField trace h) false fs)).length ≤
        MAX_PACKET_PAYLOAD := by
      simp only [Table.empty, List.length_nil] at hroom
      omega
    rw [dif_neg hroom, if_neg fun hboth => hlong hboth.2]
    rfl

end Walker

/-! ## The message around the payload -/

section Around

variable {fs : List RawField} {trace : RawField} {f : RawField} {s t : DataReading} {b : Bytes}

theorem filter_others_rewriteFields (htrace : isPayload trace = true) (replaced : Bool) :
    (rewriteFields trace replaced fs).filter (!isPayload ·) = fs.filter (!isPayload ·) := by
  induction fs generalizing replaced with
  | nil => rfl
  | cons f fs ih =>
    by_cases hp : isPayload f = true <;> cases replaced <;> simp [rewriteFields, hp, htrace, ih]

theorem filter_payload_rewriteFields (htrace : isPayload trace = true) (replaced : Bool) :
    (rewriteFields trace replaced fs).filter isPayload =
      if !replaced && fs.any isPayload then [trace] else [] := by
  induction fs generalizing replaced with
  | nil => cases replaced <;> rfl
  | cons f fs ih =>
    by_cases hp : isPayload f = true <;> cases replaced <;> simp [rewriteFields, hp, htrace, ih]

theorem length_rawBytes_filter (p : RawField → Bool) (fs : List RawField) :
    (rawBytes fs).length = (rawBytes (fs.filter p)).length + (rawBytes (fs.filter (!p ·))).length := by
  induction fs with
  | nil => rfl
  | cons f fs ih =>
    by_cases hp : p f = true <;> simp [hp, ih] <;> omega

def DataReading.withPayload (s : DataReading) (b : Bytes) : DataReading := { s with payload := b }

theorem finish_withPayload (s : DataReading) (b : Bytes) :
    (s.withPayload b).finish = s.finish.map fun read => (read.1, b) := by
  obtain ⟨decoded, payload, havePortnum⟩ := s
  simp only [DataReading.withPayload, DataReading.finish]
  cases havePortnum with
  | false => rfl
  | true =>
    by_cases hbit :
        (decoded.hasBitfield && decoded.bitfield &&& DATA_BITFIELD_WANT_RESPONSE != 0) = true <;>
      simp [hbit]

/-- No other field looks at the payload. -/
theorem dataField_other (hp : isPayload f = false) :
    dataField (s.withPayload b) f.number f.value =
      (dataField s f.number f.value).map (·.withPayload b) := by
  unfold isPayload at hp
  unfold dataField
  split <;> simp_all [DataReading.withPayload, Value.wire, Function.comp_def]

/-- The payload field changes nothing else. -/
theorem dataField_payload (hp : isPayload f = true) (ht : dataField s f.number f.value = some t) :
    ∃ b, t = s.withPayload b := by
  unfold isPayload at hp
  rcases hvalue : f.value with v | v | v | v <;> rw [hvalue] at hp ht <;> simp [Value.wire] at hp
  rw [hp] at ht
  simp only [dataField] at ht
  split at ht
  · exact ⟨v, (Option.some.inj ht).symm⟩
  · cases ht

/-- The visit of the rewritten message ends as that of the message, with the trace for a payload. -/
theorem visit_rewriteFields {data : Bytes} (hcap : data.length ≤ DATA_CAPACITY)
    (htrace : trace.field = (2, .len data)) (ht : Protobuf.visit dataField s (fs.map (·.field)) = some t)
    (replaced : Bool) (b : Bytes) :
    Protobuf.visit dataField (s.withPayload b) ((rewriteFields trace replaced fs).map (·.field)) =
      some (t.withPayload (if !replaced && fs.any isPayload then data else b)) := by
  induction fs generalizing s replaced b with
  | nil =>
    cases ht
    cases replaced <;> rfl
  | cons f fs ih =>
    rw [List.map_cons, visit_cons] at ht
    obtain ⟨u, hu, hrest⟩ := Option.bind_eq_some_iff.mp ht
    by_cases hp : isPayload f = true
    · obtain ⟨c, rfl⟩ := dataField_payload hp hu
      -- the payload that was read is overwritten by the one that is visited
      have hover (b' : Bytes) : (s.withPayload c).withPayload b' = s.withPayload b' := rfl
      cases replaced with
      | true => simpa [rewriteFields, hp, hover] using ih hrest true b
      | false =>
        have hset : dataField (s.withPayload b) trace.field.1 trace.field.2 =
            some (s.withPayload data) := by
          rw [htrace]
          exact if_pos hcap
        have htail := ih hrest true data
        rw [hover] at htail
        simp [rewriteFields, hp, hset, htail]
    · rw [Bool.not_eq_true] at hp
      have hstep : dataField (s.withPayload b) f.field.1 f.field.2 = some (u.withPayload b) := by
        have := dataField_other (s := s) (b := b) hp
        rw [show dataField s f.number f.value = some u from hu] at this
        exact this
      simpa [rewriteFields, hp, hstep] using ih hrest replaced b

/-- The message decodes as before, but for its payload. -/
theorem decode_rewritten {d : DecodedData} {inner data : Bytes} (hcap : data.length ≤ DATA_CAPACITY)
    (htrace : trace.field = (2, .len data)) (hany : fs.any isPayload = true)
    (h : decodeDataPayloadFull (rawBytes fs) = some (d, inner)) :
    decodeDataPayloadFull (rawBytes (rewriteFields trace false fs)) = some (d, data) := by
  unfold decodeDataPayloadFull at h ⊢
  obtain ⟨t, ht, hfinish⟩ := Option.bind_eq_some_iff.mp h
  rw [decodeWith_all] at ht
  have hvisit := visit_rewriteFields hcap htrace ht false []
  rw [hany] at hvisit
  have hfirst : Protobuf.visit dataField {} ((rewriteFields trace false fs).map (·.field)) =
      some (t.withPayload data) := hvisit
  rw [decodeWith_all, hfirst, Option.bind_some, finish_withPayload, hfinish]
  rfl

end Around

/-! ## The relay -/

/-- The bytes of a trace. -/
def RouteDiscovery.bytes (rd : RouteDiscovery) : Bytes := messageBytes (routeFields rd)

/-- The trace fits its buffer, and the message with it a packet. -/
def TraceFits (fs : List RawField) (rd : RouteDiscovery) : Prop :=
  rd.bytes.length ≤ ROUTE_WIRE_SIZE ∧
    (rawBytes (fs.filter (!isPayload ·))).length + (fieldBytes (2, .len rd.bytes)).length ≤
      MAX_PACKET_PAYLOAD

/-- The message decodes as before and carries the trace in one payload field; all other fields are
where they were, byte for byte. -/
structure Rebuilt (fs : List RawField) (d : DecodedData) (rd : RouteDiscovery) (message : Bytes) :
    Prop where
  decodes : decodeDataPayloadFull message = some (d, rd.bytes)
  fields : ∃ gs, rawBytes gs = message ∧ gs.filter (!isPayload ·) = fs.filter (!isPayload ·) ∧
    (gs.filter isPayload).map (·.field) = [(2, .len rd.bytes)]

theorem decryptPacket_encryptPacket (E : BlockCipher) (key : CryptoKey) (fromNode packetId : UInt32)
    (bytes : Bytes) :
    decryptPacket E key fromNode packetId (encryptPacket E key fromNode packetId bytes) = bytes := by
  rw [decryptPacket, encryptPacket_eq, encryptPacket_eq]
  exact Channel.decryptPacket_encryptPacket (keyStream E) key fromNode packetId bytes

section Relay

variable {E : BlockCipher} {key : CryptoKey} {parsed : ParsedPacket} {d : DecodedData}
variable {inner p pad trace : Bytes} {rd : RouteDiscovery} {fs : List RawField}
variable {nodeNum : UInt32} {snr : Int8}

/-- The message with the trace in its one payload field is as long as the parts that remain. -/
theorem length_rewriteFields (h : trace.length < UInt32.size) (hany : fs.any isPayload = true) :
    (rawBytes (rewriteFields (traceField trace h) false fs)).length =
      (rawBytes (fs.filter (!isPayload ·))).length + (fieldBytes (2, .len trace)).length := by
  have htrace : isPayload (traceField trace h) = true := rfl
  rw [length_rawBytes_filter isPayload, filter_payload_rewriteFields htrace, hany,
    filter_others_rewriteFields htrace]
  simp [traceField, RawField.ofField]
  omega

/-- The steps before the payload is replaced. -/
theorem rebuild_eq (hdata : decodeDataPayloadFull p = some (d, inner))
    (hport : d.portnum = TRACEROUTE_APP) (hrd : decodeRouteDiscovery inner = some rd)
    (hbuf : p.length + pad.length = MAX_PACKET_PAYLOAD) :
    let altered := alterOnRelay rd parsed d.hasBitfield nodeNum snr d.requestId
    (rebuildRelayCiphertext E parsed d (encryptPacket E key parsed.fromNode parsed.id p ++ pad)
        p.length nodeNum snr key).map (·.1) =
      if altered.bytes.length ≤ ROUTE_WIRE_SIZE then
        ((replaceDataPayload p altered.bytes).map (·.rows)).bind fun q =>
          if q.isEmpty || MAX_PACKET_PAYLOAD < q.length then none
          else some (encryptPacket E key parsed.fromNode parsed.id q)
      else none := by
  intro altered
  have hlen : (encryptPacket E key parsed.fromNode parsed.id p).length = p.length := by
    rw [encryptPacket_eq, Channel.encryptPacket_length]
  have hpos : p.length ≠ 0 := by
    intro hzero
    rw [List.eq_nil_of_length_eq_zero hzero] at hdata
    cases hdata
  have hcipher :
      (encryptPacket E key parsed.fromNode parsed.id p ++ pad).length = MAX_PACKET_PAYLOAD := by
    rw [List.length_append, hlen, hbuf]
  have htake : (encryptPacket E key parsed.fromNode parsed.id p ++ pad).take p.length =
      encryptPacket E key parsed.fromNode parsed.id p := by rw [← hlen, List.take_left]
  have hguard : (p.length == 0 || MAX_PACKET_PAYLOAD < p.length) = false := by
    simp [hpos]
    omega
  obtain ⟨hflag, hrows⟩ := encodeRouteDiscovery_eq altered
  unfold rebuildRelayCiphertext
  rw [hcipher, hguard, htake, decryptPacket_encryptPacket]
  simp only [Bool.false_eq_true, if_false, hdata, Option.bind_some, hport, bne_self_eq_false, hrd]
  change ((if (!(encodeRouteDiscovery altered).1) = true then none
    else (replaceDataPayload p (encodeRouteDiscovery altered).2.rows).bind _).map _) = _
  rw [hflag, hrows]
  by_cases hfits : (messageBytes (routeFields altered)).length ≤ ROUTE_WIRE_SIZE
  · simp only [RouteDiscovery.bytes, hfits, decide_true, Bool.not_true, Bool.false_eq_true, if_false,
      if_true, Option.map_bind, Option.bind_map]
    refine Option.bind_congr fun q _ => ?_
    simp only [Function.comp_apply]
    split <;> rfl
  · simp [RouteDiscovery.bytes, hfits]

/-- The message that replaces one made of `fs`. -/
theorem replaceDataPayload_rows (hsplit : rawBytes fs = p) (h : trace.length ≤ ROUTE_WIRE_SIZE) :
    (replaceDataPayload p trace).map (·.rows) =
      if fs.any isPayload = true ∧ (rawBytes (fs.filter (!isPayload ·))).length +
          (fieldBytes (2, .len trace)).length ≤ MAX_PACKET_PAYLOAD then
        some (rawBytes (rewriteFields (traceField trace (Nat.lt_of_le_of_lt h (by decide))) false fs))
      else none := by
  have hsize : trace.length < UInt32.size := Nat.lt_of_le_of_lt h (by decide)
  rw [← hsplit, replaceDataPayload_eq hsize]
  by_cases hany : fs.any isPayload = true
  · rw [length_rewriteFields hsize hany]
  · simp [hany]

/-- The rewritten message is the one that was meant. -/
theorem rebuilt_rewriteFields (hdata : decodeDataPayloadFull (rawBytes fs) = some (d, inner))
    (hany : fs.any isPayload = true) (hfits : rd.bytes.length ≤ ROUTE_WIRE_SIZE) :
    Rebuilt fs d rd
      (rawBytes (rewriteFields (traceField rd.bytes (Nat.lt_of_le_of_lt hfits (by decide))) false fs)) where
  decodes := decode_rewritten (Nat.le_trans hfits (by decide)) rfl hany hdata
  fields := by
    refine ⟨_, rfl, filter_others_rewriteFields rfl false, ?_⟩
    rw [filter_payload_rewriteFields rfl, hany]
    rfl

/-- Where the trace and the message with it have room, a relay adds its hop and touches nothing else
exactly if the message has a payload field; where they have none, it leaves the packet alone. -/
theorem rebuild_traceroute (E : BlockCipher) (key : CryptoKey) (parsed : ParsedPacket)
    (nodeNum : UInt32) (snr : Int8) (hdata : decodeDataPayloadFull p = some (d, inner))
    (hport : d.portnum = TRACEROUTE_APP) (hrd : decodeRouteDiscovery inner = some rd)
    (hbuf : p.length + pad.length = MAX_PACKET_PAYLOAD) :
    let altered := alterOnRelay rd parsed d.hasBitfield nodeNum snr d.requestId
    let relayed := (rebuildRelayCiphertext E parsed d
      (encryptPacket E key parsed.fromNode parsed.id p ++ pad) p.length nodeNum snr key).map (·.1)
    ∃ fs, rawBytes fs = p ∧
      (TraceFits fs altered →
        ((∃ out, relayed = some out ∧
          Rebuilt fs d altered (decryptPacket E key parsed.fromNode parsed.id out)) ↔
            fs.any isPayload = true)) ∧
      (¬ TraceFits fs altered → relayed = none) := by
  intro altered relayed
  obtain ⟨fs, hsplit⟩ : ∃ fs, rawBytes fs = p := by
    obtain ⟨t, ht, -⟩ := Option.bind_eq_some_iff.mp hdata
    obtain ⟨fs, hsplit, -⟩ := split_of_decode ht
    exact ⟨fs, hsplit⟩
  have hrelayed : relayed = _ := rebuild_eq hdata hport hrd hbuf
  refine ⟨fs, hsplit, fun hfits => ?_, fun hlong => ?_⟩
  · rw [hrelayed, if_pos hfits.1, replaceDataPayload_rows hsplit hfits.1]
    simp only [hfits.2, and_true]
    by_cases hany : fs.any isPayload = true
    · refine iff_of_true ?_ hany
      have hrebuilt := rebuilt_rewriteFields (hsplit ▸ hdata) hany hfits.1
      have hlen := length_rewriteFields (Nat.lt_of_le_of_lt hfits.1 (by decide)) hany
      have hempty : (rawBytes (rewriteFields (traceField altered.bytes
          (Nat.lt_of_le_of_lt hfits.1 (by decide))) false fs)).isEmpty = false := by
        rw [List.isEmpty_eq_false_iff, ← List.length_pos_iff, hlen, length_fieldBytes (by decide)]
        omega
      rw [if_pos hany, Option.bind_some, hempty, Bool.false_or, hlen,
        if_neg (by simpa using Nat.not_lt_of_le hfits.2)]
      exact ⟨_, rfl, by rw [decryptPacket_encryptPacket]; exact hrebuilt⟩
    · refine iff_of_false ?_ hany
      rw [if_neg hany]
      rintro ⟨out, hout, -⟩
      cases hout
  · rw [hrelayed]
    by_cases hwire : altered.bytes.length ≤ ROUTE_WIRE_SIZE
    · rw [if_pos hwire, replaceDataPayload_rows hsplit hwire, if_neg fun hboth => hlong ⟨hwire, hboth.2⟩]
      rfl
    · exact if_neg hwire

end Relay

/-- A `Data` on the traceroute port. -/
def portnumField : RawField := .ofField (1, .varint 70) ⟨Nat.one_pos, (by decide : 1 < 2 ^ 29), trivial⟩

/-- A payload that is there and is empty. -/
def emptyPayload : RawField := traceField [] (by decide)

/-- The packet that carries it, heard by node 2. -/
def requestHeader : PacketHeader := .fromFields 9 1 77 8 3 3 false false 0 0

def requestData : DecodedData := { portnum := TRACEROUTE_APP }

def relayedRequest (plaintext : Bytes) : Option Bytes :=
  let key := CryptoKey.fromBytes Store.DEFAULT_PSK
  let packet := encryptPacket (fun _ iv => iv) key requestHeader.parse.fromNode requestHeader.parse.id
    plaintext
  let pad := List.replicate (MAX_PACKET_PAYLOAD - plaintext.length) 0
  (rebuildRelayCiphertext (fun _ iv => iv) requestHeader.parse requestData (packet ++ pad)
    plaintext.length 2 10 key).map (·.1)

theorem rebuild_traceroute_request :
    ∃ out, relayedRequest (rawBytes [portnumField, emptyPayload]) = some out := by
  have hdata :
      decodeDataPayloadFull (rawBytes [portnumField, emptyPayload]) = some (requestData, []) := by
    decide +kernel
  have hbuf : (rawBytes [portnumField, emptyPayload]).length +
      (List.replicate (MAX_PACKET_PAYLOAD - 4) (0 : UInt8)).length = MAX_PACKET_PAYLOAD := by
    decide +kernel
  obtain ⟨fs, hsplit, hiff, -⟩ := rebuild_traceroute (fun _ iv => iv) (.fromBytes Store.DEFAULT_PSK)
    requestHeader.parse 2 10 hdata rfl (rfl : decodeRouteDiscovery [] = some {}) hbuf
  obtain rfl := rawBytes_injective hsplit
  obtain ⟨out, hout, -⟩ := (hiff ⟨by decide +kernel, by decide +kernel⟩).mpr rfl
  exact ⟨out, hout⟩

/-- An encoder leaves an empty payload out; then the packet is relayed without the hop. -/
theorem rebuild_empty_trace :
    decodeDataPayloadFull (rawBytes [portnumField]) = some (requestData, []) ∧
      decodeRouteDiscovery [] = some {} ∧
      TraceFits [portnumField] (alterOnRelay {} requestHeader.parse false 2 10 0) ∧
      relayedRequest (rawBytes [portnumField]) = none := by
  exact ⟨by decide +kernel, rfl, ⟨by decide +kernel, by decide +kernel⟩, by decide +kernel⟩

end Meshrustic.Wire
