import Meshrustic.Admin.Inbound

/-!
# Messages under a shared secret, between two nodes
(`mesh-routing/src/router.rs:1659-1724, 4159-4186`)

What one router seals for another is read there as it was sent, and the key that opens it stands for
the sender. An administrator's message is carried out.

Results:
* `buildPkiAppFrame_sealed`: a frame that is built;
* `administrator_heard`: and read by the node it is for.
-/
namespace Meshrustic.Admin

open Meshrustic.Crypto (Primitives CryptoEngine KeyPair Agree)
open Meshrustic.Routing (ParsedPacket InboundPacket MAX_PACKET_PAYLOAD Frame Router ADMIN_APP
  lowByte)
open Meshrustic.Wire (DataEncodeOpts encodeDataPayloadOpts decodeDataPayloadFull)

/-- mirrors crates/mesh-routing/src/router.rs:4171-4186 -/
def pkiExtraNonce (sha256 : Bytes → Vector UInt8 32) (pkiNonceSecret : Key) (packetId : UInt32) :
    UInt32 :=
  let nonce := ofLe32
    ((sha256 (pkiNonceSecret.toList ++ Crypto.le64 packetId.toUInt64)).toList.take 4)
  if nonce == 0 then 1 else nonce

/-- Before the frame is laid out in bytes.
mirrors crates/mesh-routing/src/router.rs:1659-1724 -/
def buildPkiAppFrame (P : Primitives) (sha256 : Bytes → Vector UInt8 32)
    (privateKey pkiNonceSecret : Key) (toNode fromNode packetId : UInt32) (hopLimit : UInt8)
    (portnum : UInt32) (inner : Bytes) (opts : DataEncodeOpts) (remotePk : Key) (wantAck : Bool)
    (nextHop : UInt8) : Option Frame :=
  let plaintext := (encodeDataPayloadOpts portnum inner opts).rows
  if plaintext.isEmpty || MAX_PACKET_PAYLOAD < plaintext.length + 12 then none
  else
    let (ok, _, cipher) :=
      (CryptoEngine.new.setDhPrivateKey privateKey).encryptCurve25519 P remotePk
      fromNode packetId.toUInt64 (pkiExtraNonce sha256 pkiNonceSecret packetId) plaintext
      (List.replicate MAX_PACKET_PAYLOAD 0)
    if !ok then none
    else
      some ⟨.fromFields toNode fromNode packetId 0 hopLimit hopLimit wantAck false nextHop
        (lowByte fromNode), cipher.take (plaintext.length + 12)⟩

section

variable {P : Primitives} {sha256 : Bytes → Vector UInt8 32} {a b : KeyPair} {secret : Key}
variable {toNode fromNode packetId portnum : UInt32} {hopLimit nextHop : UInt8} {inner : Bytes}
variable {opts : DataEncodeOpts} {wantAck : Bool} {o : Frame}

/-- A frame that is built is on no channel, and its payload is sealed. -/
theorem buildPkiAppFrame_sealed (h : Agree P a b)
    (ho : buildPkiAppFrame P sha256 a.privateKey secret toNode fromNode packetId hopLimit portnum
      inner opts b.publicKey wantAck nextHop = some o) :
    o.header = .fromFields toNode fromNode packetId 0 hopLimit hopLimit wantAck false nextHop
        (lowByte fromNode) ∧
      ∃ text extraNonce, text.length ≤ Crypto.MAX_CCM_PAYLOAD ∧
        decodeDataPayloadFull text = some (opts.decoded portnum, inner) ∧
        o.payload = Crypto.envelope P.aes (P.sha256 (P.diffieHellman a.privateKey b.publicKey))
          (Crypto.initNonce fromNode packetId.toUInt64 extraNonce) extraNonce text := by
  unfold buildPkiAppFrame at ho
  dsimp only at ho
  generalize htext : (encodeDataPayloadOpts portnum inner opts).rows = text at ho
  split at ho
  · cases ho
  · rename_i hfits
    rw [Bool.or_eq_true, not_or, Bool.not_eq_true, List.isEmpty_eq_false_iff, decide_eq_true_iff,
      Nat.not_lt] at hfits
    obtain ⟨hsome, hfits⟩ := hfits
    have hmax : text.length ≤ Crypto.MAX_CCM_PAYLOAD := Nat.add_le_add_iff_right.mp hfits
    have hdecodes : decodeDataPayloadFull text = some (opts.decoded portnum, inner) := by
      rw [← htext]
      refine Wire.decodeDataPayloadFull_encode portnum inner opts ?_
      by_contra hlong
      rw [Wire.encodeDataPayloadOpts_rows, if_pos (Nat.not_le.mp hlong)] at htext
      exact hsome htext.symm
    have hroom : text.length + Crypto.PKI_OVERHEAD ≤
        (List.replicate MAX_PACKET_PAYLOAD (0 : UInt8)).length := by
      rw [List.length_replicate]
      exact hfits
    rw [Crypto.encrypt_eq (h.handshake CryptoEngine.new) hroom
      (Nat.le_trans hmax (by decide))] at ho
    cases ho
    refine ⟨rfl, text, pkiExtraNonce sha256 secret packetId, hmax, hdecodes, ?_⟩
    obtain ⟨hlength, -⟩ := Crypto.envelope_parts P.aes
      (P.sha256 (P.diffieHellman a.privateKey b.publicKey))
      (Crypto.initNonce fromNode packetId.toUInt64 (pkiExtraNonce sha256 secret packetId))
      (pkiExtraNonce sha256 secret packetId) text
    change (putAt _ 0 _).take (text.length + Crypto.PKI_OVERHEAD) = _
    rw [putAt, List.take_zero, List.nil_append, ← hlength]
    exact List.take_left

end

/-! ## Reading it -/

/-- A key does not open the message. -/
def Refuses (P : Primitives) (privateKey : Key) (parsed : ParsedPacket) (cipher : Bytes)
    (key : Key) : Prop :=
  ∀ engine : CryptoEngine, engine.privateKey = privateKey →
    (engine.decryptCurve25519 P parsed.fromNode key parsed.id.toUInt64 cipher
      (List.replicate MAX_PACKET_PAYLOAD 0)).1 = false

namespace Inbox

variable {P : Primitives} {parsed : ParsedPacket} {cipher : Bytes} {nowMs : UInt32} {s : Inbox}

variable (nowMs) in
theorem allowPkiCurveAttempt_few (h : s.pkiWorkUsed.toNat < PKI_CURVE_ATTEMPTS_PER_SECOND.toNat) :
    (s.allowPkiCurveAttempt nowMs).1 = true ∧
      (s.allowPkiCurveAttempt nowMs).2.pkiWorkUsed.toNat ≤ s.pkiWorkUsed.toNat + 1 := by
  have hlimit : PKI_CURVE_ATTEMPTS_PER_SECOND.toNat = 16 := rfl
  unfold allowPkiCurveAttempt
  dsimp only
  split
  · exact ⟨rfl, Nat.le_add_left 1 _⟩
  · have hroom : ¬PKI_CURVE_ATTEMPTS_PER_SECOND ≤ s.pkiWorkUsed := by
      rw [UInt8.le_iff_toNat_le, Nat.not_le]
      exact h
    rw [if_neg hroom]
    refine ⟨rfl, ?_⟩
    change (s.pkiWorkUsed + 1).toNat ≤ _
    rw [UInt8.toNat_add]
    exact Nat.mod_le _ _

variable (nowMs) in
/-- Keys that open nothing cost a try each. -/
theorem tryKeys_refuses {before : List Key} {engine : CryptoEngine} (keys : List Key)
    (hbefore : ∀ key ∈ before, Refuses P engine.privateKey parsed cipher key)
    (hfew : s.pkiWorkUsed.toNat + before.length ≤ PKI_CURVE_ATTEMPTS_PER_SECOND.toNat) :
    ∃ (engine' : CryptoEngine) (s' : Inbox), engine'.privateKey = engine.privateKey ∧
      s'.pkiWorkUsed.toNat ≤ s.pkiWorkUsed.toNat + before.length ∧
      (tryKeys P parsed cipher nowMs (before ++ keys) engine s).2.1 =
        (tryKeys P parsed cipher nowMs keys engine' s').2.1 := by
  induction before generalizing engine s with
  | nil => exact ⟨engine, s, rfl, Nat.le_refl _, rfl⟩
  | cons key before ih =>
    rw [List.length_cons] at hfew ⊢
    obtain ⟨hallowed, hused⟩ := allowPkiCurveAttempt_few nowMs (s := s) (by omega)
    have hrefused := hbefore key List.mem_cons_self engine rfl
    have hkeeps := decrypt_privateKey (P := P) engine parsed.fromNode key parsed.id.toUInt64 cipher
      (List.replicate MAX_PACKET_PAYLOAD 0)
    rw [List.cons_append, tryKeys]
    dsimp only
    rw [hallowed, Bool.not_true, if_neg Bool.false_ne_true, hrefused, Bool.not_false, Bool.true_or,
      if_pos rfl]
    obtain ⟨engine', s', hkey', hused', heq⟩ := ih (s := (s.allowPkiCurveAttempt nowMs).2)
      (fun k hk => hkeeps ▸ hbefore k (List.mem_cons_of_mem _ hk)) (by omega)
    exact ⟨engine', s', hkey'.trans hkeeps, by omega, heq⟩

variable {a b : KeyPair} {extraNonce : UInt32} {text : Bytes} {read : Wire.DecodedData × Bytes}

variable (nowMs) in
/-- The key of who has sealed a message opens it. -/
theorem tryKeys_sealed (hagree : Agree P a b) {engine : CryptoEngine}
    (hengine : engine.privateKey = b.privateKey)
    (hcipher : cipher = Crypto.envelope P.aes (P.sha256 (P.diffieHellman a.privateKey b.publicKey))
      (Crypto.initNonce parsed.fromNode parsed.id.toUInt64 extraNonce) extraNonce text)
    (hmax : text.length ≤ Crypto.MAX_CCM_PAYLOAD) (hread : decodeDataPayloadFull text = some read)
    (hfew : s.pkiWorkUsed.toNat < PKI_CURVE_ATTEMPTS_PER_SECOND.toNat) (keys : List Key) :
    (tryKeys P parsed cipher nowMs (a.publicKey :: keys) engine s).2.1 =
      .opened a.publicKey read.1 read.2 := by
  have hself : engine.setDhPrivateKey b.privateKey = engine := by
    rw [CryptoEngine.setDhPrivateKey, ← hengine]
  have hhand := hagree.symm.handshake engine
  rw [hself] at hhand
  obtain ⟨hlength, -⟩ := Crypto.envelope_parts P.aes
    (P.sha256 (P.diffieHellman a.privateKey b.publicKey))
    (Crypto.initNonce parsed.fromNode parsed.id.toUInt64 extraNonce) extraNonce text
  rw [← hcipher] at hlength
  let sealer : CryptoEngine := ⟨Crypto.initNonce parsed.fromNode parsed.id.toUInt64 extraNonce,
    b.privateKey, P.sha256 (P.diffieHellman a.privateKey b.publicKey)⟩
  have hopened : engine.decryptCurve25519 P parsed.fromNode a.publicKey parsed.id.toUInt64
      (Crypto.envelope P.aes sealer.sharedKey sealer.nonce extraNonce text)
      (List.replicate MAX_PACKET_PAYLOAD 0) = _ :=
    Crypto.decrypt_envelope hhand (congrArg P.sha256 hagree.secret) rfl
      (Nat.le_trans hmax (by rw [List.length_replicate]; decide)) hmax
  change engine.decryptCurve25519 P _ _ _ (Crypto.envelope _ _ _ _ _) _ = _ at hopened
  rw [← hcipher] at hopened
  obtain ⟨hallowed, -⟩ := allowPkiCurveAttempt_few nowMs hfew
  have hlong : ¬cipher.length < Crypto.PKI_OVERHEAD := by omega
  have hplain : (putAt (List.replicate MAX_PACKET_PAYLOAD 0) 0 text).take
      (cipher.length - Crypto.PKI_OVERHEAD) = text := by
    rw [putAt, List.take_zero, List.nil_append, hlength, Nat.add_sub_cancel, List.take_left]
  rw [tryKeys]
  dsimp only
  rw [hallowed, Bool.not_true, if_neg Bool.false_ne_true, hopened]
  dsimp only
  rw [Bool.not_true, Bool.false_or, decide_eq_false hlong, if_neg Bool.false_ne_true, hplain, hread]

variable (parsed nowMs) in
/-- A message to us, sealed by a node whose key we try, is read as it was sent, and its key stands
for the sender. -/
theorem decodePayload_sealed (hagree : Agree P a b) (hours : s.admin.privateKey = b.privateKey)
    (hcipher : cipher = Crypto.envelope P.aes (P.sha256 (P.diffieHellman a.privateKey b.publicKey))
      (Crypto.initNonce parsed.fromNode parsed.id.toUInt64 extraNonce) extraNonce text)
    (hmax : text.length ≤ Crypto.MAX_CCM_PAYLOAD) (hread : decodeDataPayloadFull text = some read)
    (hclear : Wire.tryDecryptDataFull P.aes s.channelKey parsed.fromNode parsed.id s.channelHash
      parsed.channel cipher = none) (hto : parsed.toNode = s.nodeNum)
    {peer : Option Key} {before after : List Key}
    (hkeys : s.candidates peer = before ++ a.publicKey :: after)
    (hbefore : ∀ key ∈ before, Refuses P b.privateKey parsed cipher key)
    (hfew : s.pkiWorkUsed.toNat + before.length < PKI_CURVE_ATTEMPTS_PER_SECOND.toNat) :
    let call := s.decodePayload P parsed cipher peer nowMs
    call.2.1 = some read ∧ call.1.adminReplyRemotePk = some a.publicKey ∧
      call.1.adminReplyUsePki = true := by
  have hrefuse : ∀ key ∈ before, Refuses P
      (CryptoEngine.new.setDhPrivateKey s.admin.privateKey).privateKey parsed cipher key :=
    fun key hkey => hours ▸ hbefore key hkey
  obtain ⟨engine, s', hengine, hused, htried⟩ := tryKeys_refuses nowMs (s := s.forgetKeyAndError)
    (a.publicKey :: after) hrefuse (Nat.le_of_lt hfew)
  have hopened := tryKeys_sealed nowMs hagree (hengine.trans hours) hcipher hmax hread
    (Nat.lt_of_le_of_lt hused hfew) after
  rw [← htried, ← hkeys] at hopened
  unfold decodePayload
  rw [hclear]
  dsimp only
  rw [if_pos (beq_iff_eq.mpr hto), tryPkiDecrypt]
  dsimp only
  rw [hopened]
  exact ⟨rfl, rfl, rfl⟩

end Inbox

theorem Inbox.carryOut_remotePk (s : Inbox) (sha256 : Bytes → Vector UInt8 32)
    (identity : NodeInfoIdentity) (nowMs : UInt32) (command : Option Routing.Command) :
    (s.carryOut sha256 identity nowMs command).adminReplyRemotePk = s.adminReplyRemotePk := by
  unfold Inbox.carryOut
  split
  · rfl
  · rfl
  · split <;> rfl

theorem command_new_admin {r : Router} {packet : InboundPacket} {ans : Routing.Answers}
    {d : Routing.Delivery} {data : Routing.DecodedData} {inner : Bytes} {remotePk : Key}
    {nowMs : UInt32}
    (hfits : packet.payload.length ≤ MAX_PACKET_PAYLOAD) (hto : packet.header.toNode = r.nodeNum)
    (hnew :
      (r.history.observe packet.header.fromNode packet.header.id packet.header.hopLimit).1 = .new)
    (hlimited : ans.rateLimited = false) (hdata : ans.decoded = some data)
    (hport : data.portnum = ADMIN_APP) (hinner : d.inner = some inner)
    (hkey : d.remotePk = some remotePk) :
    r.command packet ans d nowMs = some (.admin inner) := by
  have hseen : (r.history.observe packet.header.parse.fromNode packet.header.parse.id
      packet.header.parse.hopLimit).1 = .new := hnew
  have hus : (packet.header.parse.toNode == r.nodeNum) = true := beq_iff_eq.mpr hto
  unfold Router.command
  rw [if_neg (Nat.not_lt.mpr hfits)]
  dsimp only
  rw [hseen]
  simp only [Router.fallsThrough, hlimited, if_true, Bool.false_eq_true, if_false, Router.dispatch,
    hdata, hinner, hport]
  change (if (ADMIN_APP == ADMIN_APP && packet.header.parse.toNode == r.nodeNum) = true then _
    else _) = _
  rw [hus, beq_self_eq_true, Bool.and_true, if_pos rfl, Routing.processAdminRx, hkey]
  rfl

/-- What one router seals for another is read there as it was sent, from any copy that arrives
where its key is tried. -/
theorem Inbox.decodePayload_carried {P : Primitives} {sha256 : Bytes → Vector UInt8 32}
    {a b : KeyPair} (hagree : Agree P a b) {s : Inbox} (hours : s.admin.privateKey = b.privateKey)
    {secret : Key} {fromNode packetId portnum : UInt32} {hopLimit nextHop : UInt8} {inner : Bytes}
    {opts : DataEncodeOpts} {wantAck : Bool} {o : Frame}
    (ho : buildPkiAppFrame P sha256 a.privateKey secret s.nodeNum fromNode packetId hopLimit portnum
      inner opts b.publicKey wantAck nextHop = some o)
    {air : List Frame} {path : List UInt32} {packet : InboundPacket}
    (hcarried :
      Routing.Carried (Wire.writesHop P.aes s.channelKey s.channelHash) air o path packet.heard)
    (hclear : Wire.dataOf P.aes s.channelKey s.channelHash o = none)
    {peer : Option Key} {before after : List Key}
    (hkeys : s.candidates peer = before ++ a.publicKey :: after)
    (hbefore : ∀ key ∈ before, Refuses P b.privateKey packet.header.parse o.payload key)
    (hfew : s.pkiWorkUsed.toNat + before.length < PKI_CURVE_ATTEMPTS_PER_SECOND.toNat)
    (nowMs : UInt32) :
    let call := s.decodePayload P packet.header.parse packet.payload peer nowMs
    (call.2.1 = some (opts.decoded portnum, inner) ∧ call.1.adminReplyRemotePk = some a.publicKey ∧
        call.1.adminReplyUsePki = true) ∧
      packet.header.fromNode = fromNode ∧ packet.header.id = packetId ∧
        packet.header.toNode = s.nodeNum ∧ packet.payload.length ≤ MAX_PACKET_PAYLOAD := by
  obtain ⟨hheader, text, extraNonce, hmax, hread, hsealed⟩ := buildPkiAppFrame_sealed hagree ho
  have hsame := hcarried.samePacket
  have hnone := Wire.traceOf_unread hclear
  have hpayload : packet.payload = o.payload := Wire.payload_carried hnone hcarried
  have hunread : Wire.dataOf P.aes s.channelKey s.channelHash packet.heard = none :=
    (Wire.dataOf_carried hnone hcarried).trans hclear
  have hpacket : ((packet.header.fromNode, packet.header.id), packet.header.toNode) =
      ((fromNode, packetId), s.nodeNum) := hsame.packet.trans (by
    rw [Frame.packet, Frame.key, hheader]
    rfl)
  have hfrom : packet.header.fromNode = fromNode := congrArg (·.1.1) hpacket
  have hid : packet.header.id = packetId := congrArg (·.1.2) hpacket
  have hto : packet.header.toNode = s.nodeNum := congrArg (·.2) hpacket
  rw [← hfrom, ← hid, ← hpayload] at hsealed
  have hfits : packet.payload.length ≤ MAX_PACKET_PAYLOAD := by
    obtain ⟨hlength, -⟩ := Crypto.envelope_parts P.aes
      (P.sha256 (P.diffieHellman a.privateKey b.publicKey))
      (Crypto.initNonce packet.header.fromNode packet.header.id.toUInt64 extraNonce) extraNonce text
    rw [hsealed, hlength]
    exact Nat.add_le_add_right hmax _
  exact ⟨Inbox.decodePayload_sealed packet.header.parse nowMs hagree hours hsealed hmax hread
    hunread hto hkeys (hpayload ▸ hbefore) hfew, hfrom, hid, hto, hfits⟩

/-- A sealed frame bears no channel, so a node whose channel's hash is not 0 does not read it
there. -/
theorem sealed_unread {P : Primitives} {sha256 : Bytes → Vector UInt8 32}
    {privateKey secret remotePk : Key}
    {toNode fromNode packetId portnum : UInt32} {hopLimit nextHop channelHash : UInt8}
    {inner : Bytes} {opts : DataEncodeOpts} {wantAck : Bool} {o : Frame} (E : Wire.BlockCipher)
    (key : Store.CryptoKey)
    (ho : buildPkiAppFrame P sha256 privateKey secret toNode fromNode packetId hopLimit portnum
      inner opts remotePk wantAck nextHop = some o)
    (hchannel : channelHash ≠ 0) : Wire.dataOf E key channelHash o = none := by
  refine Wire.dataOf_foreign fun h => hchannel ?_
  unfold buildPkiAppFrame at ho
  dsimp only at ho
  split at ho
  · cases ho
  · split at ho
    · cases ho
    · cases ho
      exact h.symm

/-- The message of an administrator that one router seals for another is carried out there, as it
was sent, once a copy of the frame is taken as new: over any path, and whatever the router did
before, as long as tries are left. The channel does not read the message, and of the keys that are
tried before his none opens it. -/
theorem administrator_heard {P : Primitives} {sha256 : Bytes → Vector UInt8 32} {a b : KeyPair}
    (hagree : Agree P a b) {s : Inbox} (hours : s.admin.privateKey = b.privateKey) {r : Router}
    (hnode : r.nodeNum = s.nodeNum) {secret : Key} {fromNode packetId : UInt32}
    {hopLimit nextHop : UInt8} {inner : Bytes} {opts : DataEncodeOpts} {wantAck : Bool} {o : Frame}
    (ho : buildPkiAppFrame P sha256 a.privateKey secret s.nodeNum fromNode packetId hopLimit
      ADMIN_APP inner opts b.publicKey wantAck nextHop = some o)
    {air : List Frame} {path : List UInt32} {packet : InboundPacket}
    (hcarried :
      Routing.Carried (Wire.writesHop P.aes s.channelKey s.channelHash) air o path packet.heard)
    (hclear : Wire.dataOf P.aes s.channelKey s.channelHash o = none)
    {peer : Option Key} {before after : List Key}
    (hkeys : s.candidates peer = before ++ a.publicKey :: after)
    (hbefore : ∀ key ∈ before, Refuses P b.privateKey packet.header.parse o.payload key)
    (hfew : s.pkiWorkUsed.toNat + before.length < PKI_CURVE_ATTEMPTS_PER_SECOND.toNat)
    {ans : Routing.Answers} (hlimited : ans.rateLimited = false)
    (hnew :
      (r.history.observe packet.header.fromNode packet.header.id packet.header.hopLimit).1 = .new)
    (identity : NodeInfoIdentity) (nowMs : UInt32) :
    let call := s.receive P sha256 r packet ans peer identity nowMs
    call.2.1 = some (.admin inner) ∧ call.1.adminReplyRemotePk = some a.publicKey := by
  obtain ⟨hdecoded, -, -, hto, hfits⟩ := Inbox.decodePayload_carried hagree hours ho hcarried hclear
    hkeys hbefore hfew nowMs
  unfold Inbox.receive
  rw [if_neg (Nat.not_lt.mpr hfits)]
  dsimp only
  generalize s.decodePayload P packet.header.parse packet.payload peer nowMs = call at hdecoded ⊢
  obtain ⟨hdata, hkey, hpki⟩ := hdecoded
  have hstands : (call.1.delivery call.2.1).remotePk = some a.publicKey :=
    Option.filter_eq_some_iff.mpr ⟨hkey, hpki⟩
  have hcommand : r.command packet { ans with decoded := call.2.1.map (·.1.routed) }
      (call.1.delivery call.2.1) nowMs = some (.admin inner) := by
    refine command_new_admin hfits (hto.trans hnode.symm) hnew hlimited (by rw [hdata]; rfl) rfl
      ?_ hstands
    rw [hdata]
    rfl
  rw [hcommand]
  have hstays := (call.1.carryOut_remotePk sha256 identity nowMs (some (.admin inner))).trans hkey
  split
  · exact ⟨rfl, hstays⟩
  · exact ⟨rfl, hstays⟩

/-! Node 9 asks node 5 for its owner. -/

/-- `get_owner_request` -/
def ownerRequest : Bytes := [0x18, 1]

theorem administrator_heard_owner :
    (ownedInbox.receive ownerPrimitives (fun _ => Store.padded _ [43, 121, 106, 3]) openRouter
      ⟨ownerFrame.header, ownerFrame.payload, 0, 10⟩ ownerAnswers none ⟨.empty,
        EMPTY_ADMIN_KEY⟩ 40).2.1 =
        some (.admin ownerRequest) := by
  have hagree : Agree ownerPrimitives Crypto.leftPair Crypto.rightPair :=
    ⟨by decide, by decide, rfl, by decide⟩
  have hbuilt : buildPkiAppFrame ownerPrimitives (fun _ => Store.padded _ [43, 121, 106, 3])
      Crypto.leftPair.privateKey EMPTY_ADMIN_KEY 5 9 77 3 ADMIN_APP ownerRequest
      { wantResponse := true, bitfield := .ours false } Crypto.rightPair.publicKey false 0 =
        some ownerFrame := by
    decide +kernel
  have hcarried : Routing.Carried
      (Wire.writesHop ownerPrimitives.aes ownedInbox.channelKey ownedInbox.channelHash) []
      ownerFrame [] (InboundPacket.heard ⟨ownerFrame.header, ownerFrame.payload, 0, 10⟩) :=
    .original
  have hkeys : ownedInbox.candidates none =
      [] ++ Crypto.leftPair.publicKey :: [EMPTY_ADMIN_KEY] := rfl
  exact (administrator_heard hagree (s := ownedInbox) rfl (r := openRouter) rfl hbuilt hcarried
    (sealed_unread _ _ hbuilt (by decide)) hkeys (fun key hkey => absurd hkey List.not_mem_nil)
      (by decide) rfl (by decide +kernel)
    ⟨.empty, EMPTY_ADMIN_KEY⟩ 40).1

end Meshrustic.Admin
