import Meshrustic.Wire.Summary
import Meshrustic.Wire.TracePath

/-!
# Acknowledgements (`mesh-routing/src/routing_ack.rs:107-140`, `router.rs:3720-3845`)

The destination of a packet answers with a routing message that names the packet. Whatever
path the answer takes, it reads the same where it arrives, and ends the retries of the packet it
names.

Results:
* `payload_carried`: what is not a trace keeps its payload on every path;
* `appFrame_reads`: what a holder of the key reads of a frame;
* `ack_ends_retries`: over the network.
-/
namespace Meshrustic.Wire

open Meshrustic.RateLimit (TRACEROUTE_APP ROUTING_APP)
open Meshrustic.Routing (ParsedPacket MAX_PACKET_PAYLOAD Frame Alters Network networkLTS
  InboundPacket   Router Event Output routerLTS responseHeader)
open Meshrustic.Store (CryptoKey)

/-- mirrors crates/mesh-routing/src/routing_ack.rs:107-140 -/
def buildAckNakFrame (E : BlockCipher) (toNode fromNode packetId ackingId : UInt32)
    (channelHash hopLimit : UInt8) (errorReason : UInt32) (key : CryptoKey) (okToMqtt : Bool)
    (nextHop : UInt8) : Option (UInt8 × Bytes) :=
  buildAppWireFrame E toNode fromNode packetId channelHash hopLimit hopLimit false key ROUTING_APP
    (encodeRoutingError errorReason) { requestId := ackingId, bitfield := .ours okToMqtt } nextHop

/-- The same frame before it is laid out in bytes. -/
def ackFrame (E : BlockCipher) (toNode fromNode packetId ackingId : UInt32)
    (channelHash hopLimit : UInt8) (errorReason : UInt32) (key : CryptoKey) (okToMqtt : Bool)
    (nextHop : UInt8) : Option Frame :=
  Channel.buildAppWireFrame (keyStream E) toNode fromNode packetId channelHash hopLimit hopLimit
    false key (encodeDataPayloadOpts ROUTING_APP (encodeRoutingError errorReason)
      { requestId := ackingId, bitfield := .ours okToMqtt }).rows nextHop

/-- What the bookkeeping of the routing model reads of a message. -/
def DecodedData.routed (d : DecodedData) : Routing.DecodedData :=
  ⟨d.portnum, d.requestId, d.replyId, d.hasBitfield⟩

/-- What a node of the channel reads of a frame. -/
def readFrame (E : BlockCipher) (key : CryptoKey) (channelHash : UInt8) (f : Frame) :
    Option Routing.DecodedData :=
  (dataOf E key channelHash f).map (·.1.routed)

section

variable {E : BlockCipher} {key : CryptoKey} {toNode fromNode packetId ackingId : UInt32}
variable {channelHash hopLimit nextHop : UInt8} {errorReason : UInt32} {okToMqtt : Bool}
  {o f : Frame}

theorem buildAckNakFrame_eq :
    buildAckNakFrame E toNode fromNode packetId ackingId channelHash hopLimit errorReason key
        okToMqtt nextHop =
      (ackFrame E toNode fromNode packetId ackingId channelHash hopLimit errorReason key okToMqtt
        nextHop).map fun f => (UInt8.ofNat (Routing.PACKET_HEADER_LEN + f.payload.length),
          layOut (.packed f.header) f.payload) :=
  buildAppWireFrame_eq ..

/-- An answer fits a frame, whatever it says. -/
theorem ackSize_le (ackingId reason : UInt32) (ok : Bool) :
    dataSize ROUTING_APP (encodeRoutingError reason)
      { requestId := ackingId, bitfield := .ours ok } ≤ MAX_PACKET_PAYLOAD := by
  have hinner : (encodeRoutingError reason).length ≤ 16 := Table.le _
  have hport := Protobuf.varintSize_le ROUTING_APP
  have hlength := Protobuf.varintSize_le (UInt32.ofNat (encodeRoutingError reason).length)
  have hid := (ackingId != 0).toNat_le
  have hmax : MAX_PACKET_PAYLOAD = 239 := rfl
  unfold dataSize
  dsimp only
  simp only [Bool.toNat_false, bne_self_eq_false, Nat.zero_mul]
  omega

/-- The header of an answer, and what a holder of the key reads of a copy of it. -/
structure IsAnswer (E : BlockCipher) (key : CryptoKey) (toNode fromNode ackingId : UInt32)
    (channelHash : UInt8) (f : Frame) : Prop where
  toNode : f.header.toNode = toNode
  fromNode : f.header.fromNode = fromNode
  fits : f.payload.length ≤ MAX_PACKET_PAYLOAD
  reads : readFrame E key channelHash f = some ⟨ROUTING_APP, ackingId, 0, true⟩
  noTrace : ∀ hash, traceOf E key hash f = none

/-- A frame that is built is read as it was meant. -/
theorem appFrame_reads {portnum : UInt32} {inner : Bytes} {opts : DataEncodeOpts} {wantAck : Bool}
    (hsize : dataSize portnum inner opts ≤ MAX_PACKET_PAYLOAD)
    (h : Channel.buildAppWireFrame (keyStream E) toNode fromNode packetId channelHash hopLimit
      hopLimit wantAck key (encodeDataPayloadOpts portnum inner opts).rows nextHop = some o) :
    o.header = .fromFields toNode fromNode packetId channelHash hopLimit hopLimit wantAck false
        nextHop (Routing.lowByte fromNode) ∧
      o.payload.length ≤ MAX_PACKET_PAYLOAD ∧
      dataOf E key channelHash o = some (opts.decoded portnum, inner) := by
  obtain ⟨payload, hpayload, rfl⟩ := Option.map_eq_some_iff.mp h
  have hread := tryDecryptDataFull_encrypt E fromNode packetId channelHash key portnum inner opts
    (Nat.le_trans hsize (by decide))
  unfold Channel.sealData at hpayload
  split at hpayload
  · cases hpayload
  · rename_i hfits
    rw [Bool.or_eq_true, decide_eq_true_iff, not_or, Nat.not_lt] at hfits
    rw [Option.some.injEq, ← encryptPacket_eq] at hpayload
    rw [hpayload] at hread
    refine ⟨rfl, ?_, ?_⟩
    · rw [← hpayload, encryptPacket_eq, Channel.encryptPacket_length]
      exact hfits.2
    · exact hread

/-- What another application sends is a trace on no channel. -/
theorem traceOf_none {data : DecodedData} {inner : Bytes}
    (hdata : dataOf E key channelHash f = some (data, inner))
    (hport : data.portnum ≠ TRACEROUTE_APP) (hash : UInt8) : traceOf E key hash f = none := by
  by_cases hhome : f.header.channel = hash
  · obtain rfl : channelHash = hash := (channel_of_data hdata).symm.trans hhome
    rw [traceOf, hdata, Option.bind_some]
    exact if_neg (by simpa using hport)
  · exact traceOf_unread (dataOf_foreign hhome)

theorem ackFrame_isAnswer (h : ackFrame E toNode fromNode packetId ackingId channelHash hopLimit
      errorReason key okToMqtt nextHop = some o) :
    IsAnswer E key toNode fromNode ackingId channelHash o := by
  obtain ⟨hheader, hfits, hdata⟩ := appFrame_reads (ackSize_le ackingId errorReason okToMqtt) h
  have hport : ROUTING_APP ≠ TRACEROUTE_APP := by decide
  refine ⟨congrArg (·.toNode) hheader, congrArg (·.fromNode) hheader, hfits, ?_,
    traceOf_none hdata hport⟩
  rw [readFrame, hdata]
  rfl

/-- What is not a trace keeps its payload on every path. -/
theorem payload_carried {air : List Frame} {path : List UInt32}
    (hnone : traceOf E key channelHash o = none)
    (h : Routing.Carried (writesHop E key channelHash) air o path f) : f.payload = o.payload := by
  induction h with
  | original => rfl
  | restamped byte _ ih => exact ih
  | @passedOn path f g n hcarried _ copied ih =>
    rcases copied.payload with hpayload | ⟨snr, hpayload⟩
    · exact hpayload.trans ih
    · have hkey : g.key = f.key := Routing.Frame.key_of_packet copied.samePacket.packet
      rcases relayedPayload_reads hkey copied.samePacket.channel hpayload with
        hkept | ⟨data, rd, htrace, -⟩
      · exact hkept.trans ih
      · have hsame := hcarried.samePacket
        rw [traceOf_congr (Routing.Frame.key_of_packet hsame.packet) hsame.channel ih,
          hnone] at htrace
        cases htrace

/-- And reads the same. -/
theorem dataOf_carried {air : List Frame} {path : List UInt32}
    (hnone : traceOf E key channelHash o = none)
    (h : Routing.Carried (writesHop E key channelHash) air o path f) :
    dataOf E key channelHash f = dataOf E key channelHash o :=
  dataOf_congr (Routing.Frame.key_of_packet h.samePacket.packet) h.samePacket.channel
    (payload_carried hnone h)

/-- A copy of an answer is the answer. -/
theorem IsAnswer.carried {air : List Frame} {path : List UInt32} {relayHash : UInt8}
    (h : IsAnswer E key toNode fromNode ackingId channelHash o)
    (hc : Routing.Carried (writesHop E key relayHash) air o path f) :
    IsAnswer E key toNode fromNode ackingId channelHash f := by
  have hsame := hc.samePacket
  have hpayload := payload_carried (h.noTrace relayHash) hc
  have hkey : f.key = o.key := Routing.Frame.key_of_packet hsame.packet
  have hfrom : f.header.fromNode = o.header.fromNode := congrArg Prod.fst hkey
  have hto : f.header.toNode = o.header.toNode := congrArg Prod.snd hsame.packet
  refine ⟨hto.trans h.toNode, hfrom.trans h.fromNode, by rw [hpayload]; exact h.fits, ?_, ?_⟩
  · rw [readFrame, dataOf_congr hkey hsame.channel hpayload]
    exact h.reads
  · intro hash
    rw [traceOf_congr hkey hsame.channel hpayload]
    exact h.noTrace hash

end

/-! ## The retries end -/

section

variable {r : Router} {f : Frame} {packet : InboundPacket} {a : Routing.Answers}

/-- A message that names a packet of ours ends its retries. -/
theorem receive_answer_silent (hwf : Routing.Wf r) (hown : f.header.fromNode = r.nodeNum)
    (hto : packet.header.toNode = r.nodeNum) (hfits : packet.payload.length ≤ MAX_PACKET_PAYLOAD)
    {data : Routing.DecodedData} (hread : a.decoded = some data)
    (hid : data.requestId = f.header.id) (hpos : f.header.id ≠ 0) (hlimited : a.rateLimited = false)
    (hnew :
      (r.history.observe packet.header.fromNode packet.header.id packet.header.hopLimit).1 = .new)
    (hearsUs : Bool) (verdict : Routing.Verdict) (nowMs : UInt32) :
    Routing.RetrySilent (r.receive packet a hearsUs verdict nowMs).1 f := by
  have hrefused : Routing.wireMayRelay packet.header.parse (packet.header.fromNode == r.nodeNum)
      (packet.header.toNode == r.nodeNum) = false := by
    simp [Routing.wireMayRelay, hto]
  rw [Routing.receive_refused hrefused]
  let heard : Router := { r with history :=
    (r.history.observe packet.header.fromNode packet.header.id packet.header.hopLimit).2 }
  let answered := heard.cancelAnswered packet.header.parse a.decoded nowMs
  let stopped : Router := { answered with
    pendingReliable :=
      Routing.stopReliableFor answered.pendingReliable answered.nodeNum f.header.id }
  have hprocessed : (r.processInbound packet a nowMs).1 = Router.drawTxIds a.replies stopped := by
    have hreliable : answered.processReliableRx packet.header.parse a.decoded = stopped := by
      have hnode : packet.header.parse.toNode = answered.nodeNum :=
        hto.trans (heard.cancelAnswered_quiet packet.header.parse a.decoded nowMs).node.symm
      unfold Router.processReliableRx
      rw [hnode, beq_self_eq_true, if_pos rfl, hread]
      dsimp only
      rw [hid, if_pos (bne_iff_ne.mpr hpos)]
    unfold Router.processInbound
    rw [if_neg (Nat.not_lt.mpr hfits)]
    dsimp only
    rw [show r.history.observe packet.header.parse.fromNode packet.header.parse.id
      packet.header.parse.hopLimit = (.new, heard.history) from Prod.ext hnew rfl]
    change (heard.acceptInbound packet.header.parse a nowMs).1 = _
    unfold Router.acceptInbound
    rw [hlimited, if_neg Bool.false_ne_true]
    dsimp only
    rw [hreliable]
    split <;> rfl
  have hquiet := (r.history_quiet heard.history).trans
    (heard.cancelAnswered_quiet packet.header.parse a.decoded nowMs)
  rw [hprocessed]
  intro x hx hactive heq
  obtain ⟨y, hy, hkept⟩ := (Router.drawTxIds_quiet stopped a.replies).retries.origin hx
  obtain ⟨hmem, hne⟩ := Routing.mem_stopReliableFor hy (hkept.active hactive)
  have hkey := (hwf.quiet hquiet).retryFrame y hmem (hkept.active hactive)
  rw [← hkept.frame, Routing.Frame.key_of_packet heq] at hkey
  exact hne (hkey.symm.trans (Prod.ext (hown.trans hquiet.node.symm) rfl))

end

/-- The destination of a packet of ours, heard over any path, answers it; once we take any copy of
the answer as new, no retry of the packet leaves again, unless the packet is originated anew. -/
theorem ack_ends_retries {E : BlockCipher} {key : CryptoKey} {relayHash : UInt8} {net : Network}
    (h : (networkLTS (writesHop E key relayHash)).Reachable net) {f g o : Frame}
    {path path' : List UInt32}
    (hg : net.CopyOf (writesHop E key relayHash) f path g) (hpos : f.header.id ≠ 0)
    {packetId errorReason : UInt32} {channelHash hopLimit nextHop : UInt8} {okToMqtt : Bool}
    (ho : ackFrame E g.header.fromNode g.header.toNode packetId g.header.id channelHash hopLimit
      errorReason key okToMqtt nextHop = some o)
    {packet : InboundPacket}
    (hpacket : net.CopyOf (writesHop E key relayHash) o path' packet.heard)
    {a : Routing.Answers} (hread : a.decoded = readFrame E key channelHash packet.heard)
    (hlimited : a.rateLimited = false)
    (hnew : ((net.routers f.header.fromNode).history.observe packet.header.fromNode packet.header.id
      packet.header.hopLimit).1 = .new)
    (hearsUs : Bool) (verdict : Routing.Verdict) (nowMs : UInt32) {t : Router}
    {ls : List (Event × Output)}
    (hrun : routerLTS.Run
      ((net.routers f.header.fromNode).receive packet a hearsUs verdict nowMs).1 ls t)
    (hfresh : ∀ l ∈ ls, Routing.Fresh f l) :
    ∀ l ∈ ls, ∀ plan, l.2 = .retx plan → plan.frame.packet ≠ f.packet := by
  have hkey : g.key = f.key := Routing.Frame.key_of_packet hg.carried.samePacket.packet
  obtain ⟨hfrom, hid⟩ : g.header.fromNode = f.header.fromNode ∧ g.header.id = f.header.id :=
    Prod.mk.inj hkey
  have hanswer := (ackFrame_isAnswer ho).carried hpacket.carried
  have hreachable := Network.router_reachable h f.header.fromNode
  have hnode := (Network.sound_inductive.reachable h).node f.header.fromNode
  have hsilent : Routing.RetrySilent
      ((net.routers f.header.fromNode).receive packet a hearsUs verdict nowMs).1 f :=
    receive_answer_silent (Routing.wf_reachable hreachable) hnode.symm
      (hanswer.toNode.trans (hfrom.trans hnode.symm)) hanswer.fits (hread.trans hanswer.reads) hid
      hpos hlimited hnew hearsUs verdict nowMs
  have harms :=
    Routing.step_arms (net.routers f.header.fromNode) (.receive packet a hearsUs verdict nowMs)
  exact hsilent.run hrun (hnode.symm.trans harms.node.symm) hfresh

/-! A text of node 5 that asks node 9 for an acknowledgement. -/

def askedText : Router.LocalRequest := { Routing.Network.textFor with wantAck := true }

def askedFrame : Frame := ⟨⟨9, 5, 1, 0, 3, 3, true, false, 0, 5⟩, [1]⟩

def ackOfText : Frame :=
  ⟨⟨5, 9, 44, 0, 3, 3, false, false, 0, 9⟩,
    encryptPacket plainBlocks traceKey 9 44
      (encodeDataPayloadOpts ROUTING_APP (encodeRoutingError 0)
      { requestId := 1, bitfield := .ours false }).rows⟩

def ackEvents : List Routing.NetworkEvent :=
  [.call 5 (.sendLocal askedText 0), .call 5 (.noteTxDone 5 1 50), .originate 9 ackOfText]

def ackedNetwork : Network := ackEvents.foldl Network.act Network.quietNetwork

def heardAck : InboundPacket := ⟨ackOfText.header, ackOfText.payload, 0, 10⟩

def ackAnswers : Routing.Answers :=
  ⟨some ⟨ROUTING_APP, 1, 0, true⟩, false, true, 0, 0, false, false, 0⟩

def retryPoll : Event := .pollReliableRetransmit 100000 (fun _ => 0) fun _ => none

/-- Without the answer the poll would return the packet. -/
theorem ack_ends_retries_text :
    (∃ plan, ((ackedNetwork.routers 5).step retryPoll).2 = .retx plan) ∧
      ∀ plan, (((ackedNetwork.routers 5).receive heardAck ackAnswers false (.skip 0) 90).1.step
        retryPoll).2 = .retx plan → plan.frame.packet ≠ askedFrame.packet := by
  have hreach : (networkLTS (writesHop plainBlocks traceKey 0)).Reachable ackedNetwork := by
    refine ⟨Network.quietNetwork, ackEvents, ⟨rfl, rfl, fun n => ⟨0, 88397, 1, rfl⟩⟩, ?_⟩
    exact .cons ⟨trivial, rfl⟩
      (.cons ⟨trivial, rfl⟩ (.cons ⟨⟨rfl, rfl, by decide, rfl⟩, rfl⟩ (.nil _)))
  have hrequest : ackedNetwork.CopyOf (writesHop plainBlocks traceKey 0) askedFrame [] askedFrame :=
    ⟨by decide +kernel, .original⟩
  have hack : ackedNetwork.CopyOf (writesHop plainBlocks traceKey 0) ackOfText [] heardAck.heard :=
    ⟨by decide +kernel, .original⟩
  have hbuilt : ackFrame plainBlocks 5 9 44 1 0 3 0 traceKey false 0 = some ackOfText := by
    decide +kernel
  have hnew : ((ackedNetwork.routers 5).history.observe 9 44 3).1 = .new := by decide +kernel
  have hpoll (r : Router) :
      routerLTS.Run r [(retryPoll, (r.step retryPoll).2)] (r.step retryPoll).1 :=
    .cons ⟨trivial, rfl⟩ (.nil _)
  refine ⟨⟨⟨askedFrame, 0⟩, by decide +kernel⟩, fun plan hplan => ?_⟩
  refine ack_ends_retries hreach hrequest (by decide) hbuilt hack (a := ackAnswers)
    (by decide +kernel)
    rfl hnew false (.skip 0) 90 (hpoll _) (fun l hl p hp => ?_) _ List.mem_cons_self plan hplan
  rw [List.mem_singleton.mp hl] at hp
  cases hplan.symm.trans hp

end Meshrustic.Wire
