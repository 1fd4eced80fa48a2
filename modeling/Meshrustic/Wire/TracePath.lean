import Mathlib.Data.List.Forall2
import Meshrustic.Routing.Network
import Meshrustic.Wire.Rebuild

/-!
# The route that a trace gathers (`mesh-routing/src/router.rs:2418-2458`)

The relays of a network that are of the trace's channel write their hop into it, each into
the copy it passes on; relays of other channels, and insurance, pass the payload on as it is.
The hop fields tell the next writer how many wrote nothing.

Results:
* `relayedPayload_reads`: what a relay makes of a payload, read with the same key;
* `trace_names_path`: wherever a trace is on the air, its ids name the nodes that passed it on, in
  their order, but for those that are unknown.
-/
namespace Meshrustic.Wire

open Meshrustic.Protobuf
open Meshrustic.RateLimit (TRACEROUTE_APP NODENUM_BROADCAST)
open Meshrustic.Routing (ParsedPacket MAX_PACKET_PAYLOAD Frame Alters Network networkLTS
  InboundPacket)
open Meshrustic.Store (CryptoKey)

/-- What a node of the channel reads of a frame. -/
def dataOf (E : BlockCipher) (key : CryptoKey) (channelHash : UInt8) (f : Frame) :
    Option (DecodedData × Bytes) :=
  tryDecryptDataFull E key f.header.fromNode f.header.id channelHash f.header.channel f.payload

/-- The payload of a relay; `decoded` is what the receiver has read of the frame.
mirrors crates/mesh-routing/src/router.rs:2418-2458 -/
def relayedPayload (E : BlockCipher) (key : CryptoKey) (nodeNum : UInt32) (snr : Int8)
    (decoded : Option DecodedData) (f : Frame) : Bytes :=
  match decoded with
  | none => f.payload
  | some data =>
    if data.portnum == TRACEROUTE_APP then
      let cipher := f.payload ++ List.replicate (MAX_PACKET_PAYLOAD - f.payload.length) 0
      match rebuildRelayCiphertext E f.header.parse data cipher f.payload.length nodeNum snr
          key with
      | some (newCipher, _) => newCipher
      | none => f.payload
    else f.payload

/-- What a node of the channel may make of a payload. -/
def writesHop (E : BlockCipher) (key : CryptoKey) (channelHash : UInt8) : Alters :=
  fun n f payload =>
  ∃ snr, payload = relayedPayload E key n snr ((dataOf E key channelHash f).map (·.1)) f

/-- The trace that a frame carries. -/
def traceOf (E : BlockCipher) (key : CryptoKey) (channelHash : UInt8) (f : Frame) :
    Option (DecodedData × RouteDiscovery) :=
  (dataOf E key channelHash f).bind fun (data, inner) =>
    if data.portnum == TRACEROUTE_APP then (decodeRouteDiscovery inner).map (data, ·) else none

/-! ## What a relay makes of a payload -/

section

variable {E : BlockCipher} {key : CryptoKey} {parsed : ParsedPacket} {decoded data : DecodedData}
variable {cipher out : Bytes} {cipherLen : Nat} {nodeNum : UInt32} {snr : Int8}
variable {routeLen channelHash : UInt8}
variable {rd : RouteDiscovery} {f g : Frame}

theorem decode_bytes (rd : RouteDiscovery) : decodeRouteDiscovery rd.bytes = some rd := by
  rw [RouteDiscovery.bytes, ← map_field_packedChunks]
  exact decode_spelled (spells_packedChunks rd)

/-- A message with its payload replaced decodes as before, but for the payload. -/
theorem replaceDataPayload_decodes {p inner : Bytes} {q : Buffer DATA_CAPACITY}
    (hdata : decodeDataPayloadFull p = some (data, inner))
    (hfits : rd.bytes.length ≤ ROUTE_WIRE_SIZE)
    (h : replaceDataPayload p rd.bytes = some q) :
    decodeDataPayloadFull q.rows = some (data, rd.bytes) := by
  obtain ⟨fs, hsplit⟩ : ∃ fs, rawBytes fs = p := by
    obtain ⟨t, ht, -⟩ := Option.bind_eq_some_iff.mp hdata
    obtain ⟨fs, hsplit, -⟩ := split_of_decode ht
    exact ⟨fs, hsplit⟩
  have hrows := replaceDataPayload_rows hsplit hfits
  rw [h] at hrows
  split at hrows
  · rename_i hany
    rw [Option.map_some, Option.some.injEq] at hrows
    rw [hrows]
    exact (rebuilt_rewriteFields (hsplit ▸ hdata) hany.1 hfits).decodes
  · cases hrows

/-- A packet is rebuilt only from a trace, and carries the altered trace in the place of its
payload. -/
theorem rebuild_some (h : rebuildRelayCiphertext E parsed decoded cipher cipherLen nodeNum snr key =
    some (out, routeLen)) :
    ∃ data inner rd q,
      decodeDataPayloadFull
          (decryptPacket E key parsed.fromNode parsed.id (cipher.take cipherLen)) =
        some (data, inner) ∧
      data.portnum = TRACEROUTE_APP ∧ decodeRouteDiscovery inner = some rd ∧
      out = encryptPacket E key parsed.fromNode parsed.id q ∧
      decodeDataPayloadFull q =
        some (data,
          (alterOnRelay rd parsed data.hasBitfield nodeNum snr decoded.requestId).bytes) := by
  unfold rebuildRelayCiphertext at h
  split at h
  · cases h
  · dsimp only at h
    obtain ⟨⟨data, inner⟩, hdata, h⟩ := Option.bind_eq_some_iff.mp h
    dsimp only at h
    split at h
    · cases h
    · rename_i hport
      obtain ⟨rd, hrd, h⟩ := Option.bind_eq_some_iff.mp h
      obtain ⟨hflag, hrows⟩ :=
        encodeRouteDiscovery_eq
          (alterOnRelay rd parsed data.hasBitfield nodeNum snr decoded.requestId)
      cases henc : encodeRouteDiscovery
        (alterOnRelay rd parsed data.hasBitfield nodeNum snr decoded.requestId) with
      | mk fits routeWire =>
        rw [henc] at h hflag hrows
        dsimp only at h hflag hrows
        split at h
        · cases h
        · rename_i hfits
          rw [Bool.not_eq_true, Bool.not_eq_false'] at hfits
          rw [hfits, eq_comm, decide_eq_true_iff] at hflag
          rw [hrows, if_pos hflag] at h
          obtain ⟨q, hq, h⟩ := Option.bind_eq_some_iff.mp h
          split at h
          · cases h
          · obtain ⟨rfl, -⟩ := Prod.mk.inj (Option.some.inj h)
            exact ⟨data, inner, rd, q.rows, hdata, by simpa using hport, hrd, rfl,
              replaceDataPayload_decodes hdata hflag hq⟩

/-- What is read of a frame of the channel is what the key decrypts. -/
theorem dataOf_home (h : f.header.channel = channelHash) : dataOf E key channelHash f =
    decodeDataPayloadFull (decryptPacket E key f.header.fromNode f.header.id f.payload) := by
  rw [dataOf, tryDecryptDataFull, h, bne_self_eq_false, if_neg Bool.false_ne_true]

/-- A frame of another channel is not read. -/
theorem dataOf_foreign (h : f.header.channel ≠ channelHash) :
    dataOf E key channelHash f = none := by
  rw [dataOf, tryDecryptDataFull, if_pos (bne_iff_ne.mpr h)]

theorem channel_of_data {read : DecodedData × Bytes} (h : dataOf E key channelHash f = some read) :
    f.header.channel = channelHash := by
  by_contra hforeign
  rw [dataOf_foreign hforeign] at h
  cases h

theorem dataOf_congr (hkey : g.key = f.key) (hchannel : g.header.channel = f.header.channel)
    (hpayload : g.payload = f.payload) :
    dataOf E key channelHash g = dataOf E key channelHash f := by
  obtain ⟨hfrom, hid⟩ : g.header.fromNode = f.header.fromNode ∧ g.header.id = f.header.id :=
    Prod.mk.inj hkey
  rw [dataOf, hfrom, hid, hchannel, hpayload, dataOf]

theorem traceOf_congr (hkey : g.key = f.key) (hchannel : g.header.channel = f.header.channel)
    (hpayload : g.payload = f.payload) :
    traceOf E key channelHash g = traceOf E key channelHash f := by
  rw [traceOf, dataOf_congr hkey hchannel hpayload, traceOf]

/-- What is not read is no trace. -/
theorem traceOf_unread (h : dataOf E key channelHash f = none) :
    traceOf E key channelHash f = none := by
  rw [traceOf, h, Option.bind_none]

theorem traceOf_of_data {inner : Bytes} (hdata : dataOf E key channelHash f = some (data, inner))
    (hport : data.portnum = TRACEROUTE_APP) (hrd : decodeRouteDiscovery inner = some rd) :
    traceOf E key channelHash f = some (data, rd) := by
  rw [traceOf, hdata, Option.bind_some]
  dsimp only
  rw [hport, beq_self_eq_true, if_pos rfl, hrd]
  rfl

/-- A relay leaves a payload as it is, or writes its hop into the trace. -/
theorem relayedPayload_reads (hkey : g.key = f.key) (hchannel : g.header.channel = f.header.channel)
    (hpayload : g.payload =
      relayedPayload E key nodeNum snr ((dataOf E key channelHash f).map (·.1)) f) :
    g.payload = f.payload ∨ ∃ data rd, traceOf E key channelHash f = some (data, rd) ∧
      traceOf E key channelHash g =
        some (data,
          alterOnRelay rd f.header.parse data.hasBitfield nodeNum snr data.requestId) := by
  cases hdata : dataOf E key channelHash f with
  | none => exact .inl (by rw [hpayload, hdata]; rfl)
  | some read =>
    obtain ⟨data, inner⟩ := read
    rw [hdata] at hpayload
    change g.payload = if data.portnum == TRACEROUTE_APP then _ else _ at hpayload
    split at hpayload
    · dsimp only at hpayload
      split at hpayload
      · rename_i out routeLen hrebuilt
        obtain ⟨data', inner', rd, q, hdata', hport, hrd, rfl, hq⟩ := rebuild_some hrebuilt
        rw [List.take_left] at hdata'
        have hhome := channel_of_data hdata
        have hown := hdata
        rw [dataOf_home hhome] at hown
        obtain ⟨rfl, rfl⟩ := Prod.mk.inj (Option.some.inj (hown.symm.trans hdata'))
        refine .inr ⟨data, rd, traceOf_of_data hdata hport hrd, ?_⟩
        obtain ⟨hfrom, hid⟩ : g.header.fromNode = f.header.fromNode ∧ g.header.id = f.header.id :=
          Prod.mk.inj hkey
        have hread : dataOf E key channelHash g = decodeDataPayloadFull q := by
          rw [dataOf_home (hchannel.trans hhome), hpayload, hfrom, hid]
          exact congrArg decodeDataPayloadFull (decryptPacket_encryptPacket ..)
        exact traceOf_of_data (hread.trans hq) hport (decode_bytes _)
      · exact .inl hpayload
    · exact .inl hpayload

/-! ## What a trace names -/

/-- The ids name the first nodes of the route, in their order; a node may be unknown. -/
def Names (ids route : List UInt32) : Prop :=
  ∃ first rest, route = first ++ rest ∧
    List.Forall₂ (fun id n => id = n ∨ id = NODENUM_BROADCAST) ids first

theorem Names.length_le {ids route : List UInt32} (h : Names ids route) :
    ids.length ≤ route.length := by
  obtain ⟨first, rest, rfl, hids⟩ := h
  rw [hids.length_eq, List.length_append]
  omega

/-- A node leaves no trace. -/
theorem Names.silent {ids route : List UInt32} (h : Names ids route) (n : UInt32) :
    Names ids (route ++ [n]) := by
  obtain ⟨first, rest, rfl, hids⟩ := h
  exact ⟨first, rest ++ [n], List.append_assoc .., hids⟩

/-- A node writes its id, behind those of the nodes that left no trace. -/
theorem Names.writes {ids route : List UInt32} (h : Names ids route) (n : UInt32) :
    Names (ids ++ List.replicate (route.length - ids.length) NODENUM_BROADCAST ++ [n])
      (route ++ [n]) := by
  obtain ⟨first, rest, rfl, hids⟩ := h
  have hunknown (nodes : List UInt32) :
      List.Forall₂ (fun id n => id = n ∨ id = NODENUM_BROADCAST)
        (List.replicate nodes.length NODENUM_BROADCAST) nodes := by
    induction nodes with
    | nil => exact .nil
    | cons m nodes ih => exact .cons (.inr rfl) ih
  refine ⟨first ++ rest ++ [n], [], (List.append_nil _).symm, ?_⟩
  rw [List.length_append, hids.length_eq, Nat.add_sub_cancel_left]
  exact List.rel_append (List.rel_append hids (hunknown rest)) (.cons (.inl rfl) .nil)

/-- A trace on its way: its ids name the nodes of the path, the first one first, and the lists of
the other direction are those that it started with. -/
structure Traced (back : Bool) (start rd : RouteDiscovery) (path : List UInt32) : Prop where
  aligned : Aligned rd back
  names : Names (rd.ids back).rows path.reverse
  others : rd.ids (!back) = start.ids (!back) ∧ rd.snrs (!back) = start.snrs (!back)

variable {start : RouteDiscovery} {path : List UInt32} {n : UInt32} {back : Bool}

theorem Traced.silent (h : Traced back start rd path) (n : UInt32) :
    Traced back start rd (n :: path) :=
  { h with names := by rw [List.reverse_cons]; exact h.names.silent n }

theorem Traced.alter {c : Relaying} (h : Traced c.back start rd path)
    (hrelay : c.isDestination = false) (hroom : path.length < ROUTE_SIZE)
    (hhops : c.unrecorded rd = path.length - (rd.ids c.back).rows.length) :
    Traced c.back start (c.alter rd) (c.nodeNum :: path) := by
  have hgrown := Relaying.alter_grown h.aligned ⟨rfl, hrelay⟩
  have hlen := h.names.length_le
  rw [List.length_reverse] at hlen
  have hids := (Relaying.alter_appends h.aligned).ids (by omega)
  refine ⟨hgrown.aligned, ?_, hgrown.others.1.trans h.others.1, hgrown.others.2.trans h.others.2⟩
  rw [hids, hrelay, hhops, List.reverse_cons]
  have hwrites := h.names.writes c.nodeNum
  rwa [List.length_reverse] at hwrites

theorem packed_parse {h : Routing.PacketHeader} (hlimit : h.hopLimit ≤ 7)
    (hstart : h.hopStart ≤ 7) :
    (PacketHeader.packed h).parse = h.parse := by
  rw [PacketHeader.parse_eq, PacketHeader.packed, PacketHeader.fromFields_unpacked,
    Routing.PacketHeader.fromFields, PacketHeader.low3_of_le hlimit, PacketHeader.low3_of_le hstart]

/-- A relay that has heard a frame with hops left writes its hop. -/
theorem Traced.writes {data : DecodedData} (h : Traced (data.requestId != 0) start rd path)
    {o : Frame} {origin : UInt32} (ho : o.Original origin) (hf : Routing.Counted origin path o f)
    (hleft : f.header.hopLimit ≠ 0) (hn : f.header.toNode ≠ n) (snr : Int8) :
    Traced (data.requestId != 0) start
      (alterOnRelay rd f.header.parse data.hasBitfield n snr data.requestId) (n :: path) := by
  have hlimit := hf.limit
  have hstart : f.header.hopStart = o.header.hopLimit := hf.start.trans ho.hops
  have hseven : o.header.hopLimit.toNat ≤ 7 := UInt8.le_iff_toNat_le.mp ho.limit
  have hpos : f.header.hopLimit.toNat ≠ 0 := fun h0 => hleft (UInt8.toNat_inj.mp h0)
  have hparse : (PacketHeader.packed f.header).parse = f.header.parse :=
    packed_parse (UInt8.le_iff_toNat_le.mpr (show f.header.hopLimit.toNat ≤ 7 by omega))
      (hstart ▸ ho.limit)
  have hhops : Routing.hopsAway (PacketHeader.packed f.header).hopStart
      (PacketHeader.packed f.header).hopLimit data.hasBitfield =
        some (UInt8.ofNat path.length) := by
    rw [show (PacketHeader.packed f.header).hopStart = f.header.hopStart from
        congrArg (·.hopStart) hparse,
      show (PacketHeader.packed f.header).hopLimit = f.header.hopLimit from
        congrArg (·.hopLimit) hparse,
      hstart]
    refine Routing.hopsAway_of_count (.inr fun h0 => ?_) hlimit
    rw [h0] at hlimit
    exact hpos (Nat.eq_zero_of_add_eq_zero_right hlimit)
  have halter := Traced.alter (c := ⟨.packed f.header, data.hasBitfield, n, snr, data.requestId⟩) h
    (beq_eq_false_iff_ne.mpr hn) (show path.length < 8 by omega) ?_
  · rwa [Relaying.alter, hparse] at halter
  · unfold Relaying.unrecorded
    dsimp only
    rw [hhops]
    have hcount : (UInt8.ofNat path.length).toNat = path.length := by
      rw [UInt8.toNat_ofNat']
      omega
    exact congrArg (· - _) hcount

theorem traceOf_carried {air : List Frame} {o : Frame} {origin : UInt32} (ho : o.Original origin)
    (hstart : traceOf E key channelHash o = some (data, start))
    (hempty : Traced (data.requestId != 0) start start [])
    (h : Routing.Carried (writesHop E key channelHash) air o path f) :
    ∃ rd, traceOf E key channelHash f = some (data, rd) ∧
      Traced (data.requestId != 0) start rd path := by
  induction h with
  | original => exact ⟨start, hstart, hempty⟩
  | restamped byte _ ih =>
    obtain ⟨rd, hrd, htraced⟩ := ih
    exact ⟨rd, (traceOf_congr rfl rfl rfl).trans hrd, htraced⟩
  | @passedOn path f g n hcarried _ copied ih =>
    obtain ⟨rd, hrd, htraced⟩ := ih
    have hkey : g.key = f.key := Routing.Frame.key_of_packet copied.samePacket.packet
    have hchannel : g.header.channel = f.header.channel := copied.samePacket.channel
    have hkept (hpayload : g.payload = f.payload) :
        ∃ rd, traceOf E key channelHash g = some (data, rd) ∧
          Traced (data.requestId != 0) start rd (n :: path) :=
      ⟨rd, (traceOf_congr hkey hchannel hpayload).trans hrd, htraced.silent n⟩
    rcases copied.payload with hpayload | ⟨snr, hpayload⟩
    · exact hkept hpayload
    · rcases relayedPayload_reads hkey hchannel hpayload with hpayload | ⟨data', rd', hrd', hg⟩
      · exact hkept hpayload
      · obtain ⟨rfl, rfl⟩ := Prod.mk.inj (Option.some.inj (hrd.symm.trans hrd'))
        exact ⟨_, hg, htraced.writes ho (hcarried.counted ho) copied.left copied.others.2 snr⟩

end

/-! ## Over the network -/

/-- Wherever a trace is on the air that started with an empty list of ids, the list names the nodes
that have passed it on, the first one first. Nodes that left no trace are unknown, or missing behind
the others. The lists of the other direction stay. -/
theorem trace_names_path {E : BlockCipher} {key : CryptoKey} {channelHash : UInt8} {net : Network}
    {o f : Frame} {path : List UInt32}
    (h : (networkLTS (writesHop E key channelHash)).Reachable net)
    (hf : net.CopyOf (writesHop E key channelHash) o path f) {data : DecodedData}
    {start : RouteDiscovery}
    (ho : traceOf E key channelHash o = some (data, start))
    (hempty : (start.ids (data.requestId != 0)).rows = [] ∧
      (start.snrs (data.requestId != 0)).rows = []) :
    ∃ rd, traceOf E key channelHash f = some (data, rd) ∧
      Names (rd.ids (data.requestId != 0)).rows path.reverse ∧ Aligned rd (data.requestId != 0) ∧
      rd.ids (!(data.requestId != 0)) = start.ids (!(data.requestId != 0)) ∧
      rd.snrs (!(data.requestId != 0)) = start.snrs (!(data.requestId != 0)) := by
  have haligned : Aligned start (data.requestId != 0) := by
    rw [Aligned, hempty.1, hempty.2]
    rfl
  have hnames : Names (start.ids (data.requestId != 0)).rows [].reverse :=
    ⟨[], [], rfl, by rw [hempty.1]; exact .nil⟩
  obtain ⟨rd, hrd, htraced⟩ :=
    traceOf_carried (hf.counted h).1 ho ⟨haligned, hnames, rfl, rfl⟩ hf.carried
  exact ⟨rd, hrd, htraced.names, htraced.aligned, htraced.others⟩

/-! A trace of node 1 for node 9 that node 2 relays. -/

def plainBlocks : BlockCipher := fun _ iv => iv

def traceKey : CryptoKey := .fromBytes Store.DEFAULT_PSK

def sentTrace : Frame :=
  ⟨⟨9, 1, 77, 8, 3, 3, false, false, 0, 1⟩,
    encryptPacket plainBlocks traceKey 1 77 (rawBytes [portnumField, emptyPayload])⟩

def relayedTrace : Frame :=
  ⟨⟨9, 1, 77, 8, 2, 3, false, false, 0, 2⟩,
    relayedPayload plainBlocks traceKey 2 10 (some requestData) sentTrace⟩

def traceEvents : List Routing.NetworkEvent :=
  [.originate 1 sentTrace,
    .call 2 (.receive ⟨sentTrace.header, sentTrace.payload, 0, 10⟩ Routing.undecoded false
      (.relay ⟨0, false, relayedTrace.payload, 1, 100, .empty,
        ⟨false, 0, fun _ => 0, fun _ => 0⟩, none⟩)
      50),
    .call 2 (.pollReadyRelay 1000 (fun _ => true) ⟨false, 0, fun _ => 0, fun _ => 0⟩)]

theorem dataOf_sentTrace : dataOf plainBlocks traceKey 8 sentTrace = some (requestData, []) := by
  decide +kernel

theorem relayedTrace_written : relayedTrace.payload =
    relayedPayload plainBlocks traceKey 2 10 ((dataOf plainBlocks traceKey 8 sentTrace).map (·.1))
      sentTrace := by
  rw [dataOf_sentTrace, Option.map_some, relayedTrace]

theorem trace_names_path_request :
    ∃ rd, traceOf plainBlocks traceKey 8 relayedTrace = some (requestData, rd) ∧
      Names rd.route.rows [2] := by
  have hreach : (networkLTS (writesHop plainBlocks traceKey 8)).Reachable
      (traceEvents.foldl Network.act Network.quietNetwork) := by
    refine ⟨Network.quietNetwork, traceEvents, ⟨rfl, rfl, fun n => ⟨0, 88397, 1, rfl⟩⟩, ?_⟩
    refine .cons ⟨⟨rfl, rfl, by decide, rfl⟩, rfl⟩
      (.cons ⟨⟨by decide +kernel, fun v hv => ?_⟩, rfl⟩ (.cons ⟨trivial, rfl⟩ (.nil _)))
    cases hv
    have hheard : InboundPacket.heard ⟨sentTrace.header, sentTrace.payload, 0, 10⟩ = sentTrace :=
      rfl
    rw [hheard]
    dsimp only
    exact .inr ⟨10, relayedTrace_written⟩
  have hcopy : (traceEvents.foldl Network.act Network.quietNetwork).CopyOf
      (writesHop plainBlocks traceKey 8) sentTrace [2] relayedTrace := by
    refine ⟨by decide +kernel,
      .passedOn .original (by decide +kernel) ⟨by decide, ?_, .inr ⟨10, ?_⟩⟩⟩
    · exact ⟨0, false, relayedTrace.header, by decide, false, rfl, id⟩
    · exact relayedTrace_written
  obtain ⟨rd, hrd, hnames, -⟩ := trace_names_path hreach hcopy
    (traceOf_of_data dataOf_sentTrace rfl (rfl : decodeRouteDiscovery [] = some {})) ⟨rfl, rfl⟩
  exact ⟨rd, hrd, hnames⟩

end Meshrustic.Wire
