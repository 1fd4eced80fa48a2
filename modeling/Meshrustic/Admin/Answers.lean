import Meshrustic.Admin.Direct
import Meshrustic.Admin.RoundTrip
import Meshrustic.Routing.Network
import Meshrustic.Store.Migration

/-!
# What an administrator is told (`mesh-routing/src/router.rs:1426-1628`, `admin.rs:844-858`)

A message of an administrator is answered under the same shared secret: a read with the settings
and a new passkey, a write with an error code. The answer names the message that it answers.

Results:
* `readReply_canonical`: what a read is answered with is in canonical form;
* `adminReply_built`: the answer is built, and says what the handler meant;
* `administration_answered`: from the message of the administrator to the answer that he reads.
-/
namespace Meshrustic.Admin

open Meshrustic.Protobuf
open Meshrustic.Crypto (Primitives KeyPair Agree)
open Meshrustic.Channel (pskBytes)
open Meshrustic.RateLimit (ROUTING_APP)
open Meshrustic.Routing (ParsedPacket InboundPacket MAX_PACKET_PAYLOAD Frame Router ADMIN_APP
  lowByte hopLimitForResponse responseHeader)
open Meshrustic.Store (padded)
open Meshrustic.Wire (DecodedData DataEncodeOpts encodeDataPayloadOpts decodeRoutingPayload
  encodeRoutingError dataSize keyStream)

def ROUTING_ERROR_NONE : UInt32 := 0

/-- mirrors crates/mesh-routing/src/admin.rs:848-858 -/
def encodeOwnerResponse (S : Sink) (nodeNum : UInt32) (identity : NodeInfoIdentity)
    (passkey : Passkey) :
    Bytes :=
  S 240 [bytesField 4 (encodeUser S nodeNum identity), bytesField 101 passkey.toList]

/-- An owner is sent under our node id.
mirrors crates/mesh-routing/src/router.rs:1576-1583 -/
def responseBytes (S : Sink) (nodeNum : UInt32) (identity : NodeInfoIdentity)
    (resp : AdminMessage) :
    Bytes :=
  match resp.payload with
  | .getOwnerResponse _ =>
    if resp.hasSessionPasskey then encodeOwnerResponse S nodeNum identity resp.sessionPasskey
    else encodeAdminMessage S resp
  | _ => encodeAdminMessage S resp

/-- What a reply takes from the rest of the router.
mirrors crates/mesh-routing/src/router.rs:211-268 -/
structure ReplyDesk where
  identity : NodeInfoIdentity
  hopLimit : UInt8
  /-- `alloc_tx_id` -/
  txId : UInt32
  pkiNonceSecret : Key
  /-- `caps_last_hop` of the sender -/
  capsLastHop : Bool

/-- A new preset brings its hop limit.
mirrors crates/mesh-routing/src/router.rs:1457-1460 -/
def ReplyDesk.applyPreset (desk : ReplyDesk) (admin : AdminState) (outcome : AdminOutcome) :
    ReplyDesk :=
  if outcome.applyModemPreset.isSome then { desk with hopLimit := admin.hopLimit } else desk

namespace Inbox

variable (P : Primitives) (sha256 : Bytes → Vector UInt8 32) (s : Inbox) (desk : ReplyDesk)
variable (parsed : ParsedPacket) (hopStartKnown : Bool)

/-- mirrors crates/mesh-routing/src/router.rs:752-756, 1514-1519 -/
def replyOpts : DataEncodeOpts := { requestId := parsed.id, bitfield := .ours s.admin.okToMqtt }

/-- mirrors crates/mesh-routing/src/router.rs:1555-1567 -/
def remotePkForErrorReply (announced : Option Key) : Option Key :=
  (s.adminReplyRemotePk.filter (!Crypto.isZero ·)).or (announced.filter (!Crypto.isZero ·))

def sealedReply (hop nextHop : UInt8) (portnum : UInt32) (inner : Bytes) (remotePk : Key) :
    Option Frame :=
  buildPkiAppFrame P sha256 s.admin.privateKey desk.pkiNonceSecret parsed.fromNode s.nodeNum
    desk.txId hop portnum inner (s.replyOpts parsed) remotePk parsed.wantAck nextHop

/-- A reply that anybody on the channel reads. -/
def openReply (hop nextHop : UInt8) (portnum : UInt32) (inner : Bytes) : Option Frame :=
  Channel.buildAppWireFrame (keyStream P.aes) parsed.fromNode s.nodeNum desk.txId s.channelHash
    hop hop parsed.wantAck s.channelKey
    (encodeDataPayloadOpts portnum inner (s.replyOpts parsed)).rows nextHop

/-- mirrors crates/mesh-routing/src/router.rs:1505-1553 -/
def adminRoutingError (announced : Option Key) (error : UInt32) : Option Frame :=
  let (hop, nextHop) := responseHeader parsed hopStartKnown desk.capsLastHop desk.hopLimit
  match s.remotePkForErrorReply announced with
  | some remotePk =>
    s.sealedReply P sha256 desk parsed (max hop 1) nextHop ROUTING_APP
      (encodeRoutingError error) remotePk
  | none => s.openReply P desk parsed hop nextHop ROUTING_APP (encodeRoutingError error)

/-- mirrors crates/mesh-routing/src/router.rs:1569-1628 -/
def adminResponse (resp : AdminMessage) : Option Frame :=
  let inner := responseBytes heapless s.nodeNum desk.identity resp
  let hop := max (hopLimitForResponse parsed hopStartKnown desk.hopLimit) 1
  if s.adminReplyUsePki then
    s.adminReplyRemotePk.bind (s.sealedReply P sha256 desk parsed hop 0 ADMIN_APP inner)
  else s.openReply P desk parsed hop 0 ADMIN_APP inner

/-- The tail of `process_admin_rx`.
mirrors crates/mesh-routing/src/router.rs:1493-1502 -/
def replyTo (announced : Option Key) (outcome : AdminOutcome) : Option Frame :=
  match outcome.routingError, outcome.response with
  | some error, _ => s.adminRoutingError P sha256 desk parsed hopStartKnown announced error
  | none, some resp => s.adminResponse P sha256 desk parsed hopStartKnown resp
  | none, none =>
    if outcome.routingOk then
      s.adminRoutingError P sha256 desk parsed hopStartKnown announced ROUTING_ERROR_NONE
    else none

/-- The reply to an admin message; what else the message does is `carryOut`. A new owner is taken up
before the reply, but then the reply is a code.
mirrors crates/mesh-routing/src/router.rs:1426-1503 -/
def adminReply (announced : Option Key) (payload : Bytes) (nowMs : UInt32) : Option Frame :=
  match s.adminReplyRemotePk.filter fun _ => s.adminReplyUsePki with
  | none =>
    s.adminRoutingError P sha256 desk parsed hopStartKnown announced
      ROUTING_ERROR_ADMIN_PUBLIC_KEY_UNAUTHORIZED
  | some remotePk =>
    let (admin, outcome) := handleAdmin sha256 s.admin
      ⟨remotePk, desk.identity, pskBytes s.channelKey, s.channelHash, payload⟩ nowMs
    { s with admin }.replyTo P sha256 (desk.applyPreset admin outcome) parsed hopStartKnown
      announced outcome

/-- The reply to a frame whose message is carried out. A message without a key is refused with an
`adminReply` too, but is none of the commands of the routing model.
mirrors crates/mesh-routing/src/router.rs:859-1180 -/
def reply (r : Router) (packet : InboundPacket) (a : Routing.Answers) (announced : Option Key)
    (nowMs : UInt32) : Option Frame :=
  if MAX_PACKET_PAYLOAD < packet.payload.length then none
  else
    let parsed := packet.header.parse
    let (s, read, _) := s.decodePayload P parsed packet.payload announced nowMs
    match r.command packet { a with decoded := read.map (·.1.routed) } (s.delivery read) nowMs with
    | some (.admin payload) =>
      s.adminReply P sha256 desk parsed (read.any (·.1.hasBitfield)) announced payload nowMs
    | _ => none

end Inbox

/-! ## What is meant, and what is read -/

/-- What an administrator is told. -/
inductive AdminAnswer where
  | response (msg : AdminMessage)
  | routing (error : UInt32)
  deriving DecidableEq

/-- What the handler means to answer. -/
def AdminOutcome.answer (o : AdminOutcome) : Option AdminAnswer :=
  match o.routingError, o.response with
  | some error, _ => some (.routing error)
  | none, some resp => some (.response resp)
  | none, none => if o.routingOk then some (.routing ROUTING_ERROR_NONE) else none

/-- What is read of an answer. -/
def readAnswer (portnum : UInt32) (inner : Bytes) : Option AdminAnswer :=
  if portnum == ADMIN_APP then (decodeAdminMessage inner).map .response
  else if portnum == ROUTING_APP then (decodeRoutingPayload inner).bind (Option.map .routing)
  else none

/-! ## Canonical replies -/

section

variable {s : AdminState} {c : Call} {identity : NodeInfoIdentity} {resp : AdminMessage}

theorem padded_canonical {m : Nat} {bs : Bytes} (h : bs.length ≤ m) :
    Padded (padded m bs) bs.length :=
  ⟨h, (Store.padded_eq_self fun _ hi hlt => Store.padded_zero hi hlt).symm⟩

theorem default_canonical : WireChannelSettings.default.Canonical :=
  ⟨padded_canonical (Nat.zero_le _), padded_canonical (Nat.zero_le _), fun _ => rfl⟩

theorem absent_canonical (index : Int32) :
    ({ WireChannel.default with index } : WireChannel).Canonical :=
  ⟨default_canonical, fun _ => rfl⟩

theorem channelForRequest_canonical (i : UInt32) (psk : Bytes) (hash : UInt8) :
    (channelForRequest i psk hash).Canonical := by
  unfold channelForRequest
  dsimp only
  split
  · exact absent_canonical 0
  · generalize (if i.toInt32 == Int32.minValue then i.toInt32 else i.toInt32 - 1) = index
    split
    · generalize hbytes : (if psk = Store.DEFAULT_PSK then [0x01] else psk.take 32) = bytes
      have hlength : bytes.length ≤ 32 := by
        rw [← hbytes]
        split
        · exact (by decide : 1 ≤ 32)
        · rw [List.length_take]
          exact Nat.min_le_left _ _
      constructor
      · constructor
        · exact padded_canonical hlength
        · exact default_canonical.name
        · exact nofun
      · exact nofun
    · exact absent_canonical _

theorem securityGet_canonical (s : AdminState) : (securityGet s).Canonical := by
  unfold securityGet
  dsimp only
  generalize hkeys :
    (s.adminPublicKeys.toList.filter (· != EMPTY_ADMIN_KEY)).take MAX_ADMIN_KEYS = keys
  have habsent {key : Key} (h : (key.toList.any (· != 0)) = false) :
      (if key.toList.any (· != 0) then key else EMPTY_ADMIN_KEY) = EMPTY_ADMIN_KEY := by
    rw [h, if_neg Bool.false_ne_true]
  refine ⟨habsent, habsent, ?_, fun i hi h => ?_⟩
  · rw [← hkeys, List.length_take]
    exact Nat.min_le_left _ _
  · change (Vector.ofFn fun j : Fin MAX_ADMIN_KEYS => keys.getD j.val EMPTY_ADMIN_KEY)[i] = _
    rw [Vector.getElem_ofFn, List.getD_eq_getElem?_getD, List.getElem?_eq_none hi]
    rfl

theorem configForRequest_canonical (hpreset : s.usePreset = true) (configType : UInt32) :
    (configForRequest s configType).Canonical := by
  unfold configForRequest
  split
  · exact True.intro
  · split
    · exact True.intro
    · split
      · exact fun h => by simp [hpreset] at h
      · split
        · exact securityGet_canonical s
        · split <;> exact True.intro

/-- What a read is answered with is in canonical form. -/
theorem readReply_canonical (hpreset : s.usePreset = true) (hidentity : c.identity.Canonical)
    {request reply : AdminPayload} (h : readReply s c request = some reply) : reply.Canonical := by
  cases request with
  | getChannelRequest i =>
    rw [← Option.some.inj h]
    exact channelForRequest_canonical ..
  | getOwnerRequest =>
    rw [← Option.some.inj h]
    exact hidentity
  | getDeviceMetadataRequest =>
    have hversion :
        ([0x4D, 0x65, 0x73, 0x68, 0x52, 0x75, 0x73, 0x74, 0x69, 0x63] : Bytes).length ≤ 32 := by
      decide
    rw [← Option.some.inj h]
    exact padded_canonical hversion
  | getModuleConfigRequest t =>
    rw [← Option.some.inj h]
    exact True.intro
  | getConfigRequest t =>
    rw [← Option.some.inj h]
    exact configForRequest_canonical hpreset t
  | _ => exact absurd h nofun

theorem readReply_owner {request : AdminPayload} {o : NodeInfoIdentity}
    (h : readReply s c request = some (.getOwnerResponse o)) : o = c.identity := by
  cases request with
  | getOwnerRequest =>
    cases h
    rfl
  | _ => cases h

/-! ## The bytes of an answer -/

theorem ownerResponse_fits (nodeNum : UInt32) (identity : NodeInfoIdentity) (passkey : Passkey) :
    Fits 192 [bytesField 4 (encodeUser unbounded nodeNum identity),
      bytesField 101 passkey.toList] :=
  (((user_fits nodeNum identity).nested 4 (by decide) (by decide)).append
    (fits_bytes (n := 8) 101 (by decide) (Nat.le_of_eq passkey.length_toList) (by decide))).mono
      (by decide)

theorem responseBytes_uncut (nodeNum : UInt32) (identity : NodeInfoIdentity) (resp : AdminMessage) :
    responseBytes heapless nodeNum identity resp =
      responseBytes unbounded nodeNum identity resp := by
  have howner : encodeOwnerResponse heapless nodeNum identity resp.sessionPasskey =
      encodeOwnerResponse unbounded nodeNum identity resp.sessionPasskey := by
    unfold encodeOwnerResponse
    rw [encodeUser_uncut]
    exact (ownerResponse_fits nodeNum identity resp.sessionPasskey).heapless_eq (by decide)
  unfold responseBytes
  rw [howner, encodeAdminMessage_uncut]

theorem responseBytes_length (nodeNum : UInt32) (identity : NodeInfoIdentity)
    (resp : AdminMessage) :
    (responseBytes unbounded nodeNum identity resp).length ≤ 192 := by
  unfold responseBytes
  split
  · split
    · exact (ownerResponse_fits nodeNum identity resp.sessionPasskey).room
    · exact (admin_fits resp).room
  · exact (admin_fits resp).room

/-- A response reads back as it was meant, also an owner's under our node id. -/
theorem responseBytes_reads (hcanonical : resp.Canonical) (hpasskey : resp.hasSessionPasskey = true)
    (howner : ∀ o, resp.payload = .getOwnerResponse o → o = identity) (nodeNum : UInt32) :
    decodeAdminMessage (responseBytes unbounded nodeNum identity resp) = some resp := by
  obtain ⟨passkey, hasPasskey, payload⟩ := resp
  cases hpasskey
  have hread : padded SESSION_PASSKEY_LEN passkey.toList = passkey := Store.padded_toList passkey
  unfold responseBytes
  dsimp only
  split
  · rename_i o
    cases howner o rfl
    have hidentity : identity.Canonical := hcanonical.payload
    rw [if_pos rfl]
    unfold encodeOwnerResponse decodeAdminMessage
    rw [decodeWith_unbounded (ownerResponse_fits nodeNum identity passkey)]
    simp [visit_cons, bytesField, adminField, userPayload, decodeUser_encode hidentity, hread,
      passkey.length_toList, AdminMessage.default]
  · exact decodeAdminMessage_encode hcanonical

theorem encodeRoutingError_reads (error : UInt32) :
    decodeRoutingPayload (encodeRoutingError error) = some (some error) := by
  have hfits : Fits (tagSize 3 + 5) [u32Field 3 error] := fits_u32 3 (by decide) error
  have hbytes : encodeRoutingError error = unbounded 16 [u32Field 3 error] :=
    (Wire.encodeRoutingError_eq error).trans (List.append_nil _).symm
  rw [hbytes]
  unfold decodeRoutingPayload Wire.decodeErrorReason
  rw [decodeWith_unbounded hfits]
  simp [u32Field, Wire.errorReasonField]

end

/-! ## A write keeps our key -/

section

variable {s c : AdminState}

theorem commitLora_privateKey {r : AdminState × Option UInt8} (h : commitLora s = some r) :
    r.1.privateKey = s.privateKey := by
  unfold commitLora at h
  split at h
  · cases h
    rfl
  · obtain ⟨written, hwritten, rfl⟩ := Option.map_eq_some_iff.mp h
    unfold applyLoraToState at hwritten
    split at hwritten
    · cases hwritten
      rfl
    · cases hwritten

theorem commitInterval_privateKey (h : commitInterval s = some c) :
    c.privateKey = s.privateKey := by
  unfold commitInterval at h
  split at h
  · cases h
    rfl
  · unfold applyDeviceUpdateInterval at h
    split at h
    · cases h
      rfl
    · cases h

theorem commitEditSettings_privateKey (s : AdminState) :
    (commitEditSettings s).1.privateKey = s.privateKey := by
  have hkeys (c : AdminState) : (commitAdminKeys c).privateKey = c.privateKey := by
    unfold commitAdminKeys; split <;> rfl
  have hrole (c : AdminState) : (commitRole c).privateKey = c.privateKey := by
    unfold commitRole; split <;> rfl
  have hposition (c : AdminState) : (commitPosition c).privateKey = c.privateKey := by
    unfold commitPosition; split <;> rfl
  have howner (c : AdminState) : (commitOwner c).privateKey = c.privateKey := by
    unfold commitOwner; split <;> rfl
  unfold commitEditSettings
  cases h : commitBuffers s with
  | none => rfl
  | some r =>
    simp only [commitBuffers, Option.bind_eq_bind, Option.bind_eq_some_iff, Option.pure_def,
      Option.some.injEq] at h
    obtain ⟨⟨c, preset⟩, hlora, c', hinterval, rfl⟩ := h
    calc (commitOwner (commitPosition (commitRole c'))).privateKey
        = (commitPosition (commitRole c')).privateKey := howner _
      _ = (commitRole c').privateKey := hposition _
      _ = c'.privateKey := hrole _
      _ = (commitAdminKeys c).privateKey := commitInterval_privateKey hinterval
      _ = c.privateKey := hkeys _
      _ = s.privateKey := commitLora_privateKey hlora

theorem setConfig_privateKey (s : AdminState) (config : ConfigPayload) :
    (setConfig s config).1.privateKey = s.privateKey := by
  cases config with
  | lora lora =>
    simp only [setConfig, applyLoraToState]
    cases s.editing <;> cases loraRegionAccepted lora <;> rfl
  | security sec => simp only [setConfig]; cases s.editing <;> rfl
  | position pos => simp only [setConfig]; cases s.editing <;> rfl
  | device dev =>
    simp only [setConfig]
    cases isKnownDeviceRole dev.role <;> cases s.editing <;> rfl
  | sessionkey => rfl
  | empty => rfl

theorem setModuleConfig_privateKey (s : AdminState) (config : ModuleConfigPayload) :
    (setModuleConfig s config).1.privateKey = s.privateKey := by
  cases config with
  | telemetry tel =>
    simp only [setModuleConfig, applyDeviceUpdateInterval]
    cases s.editing <;> cases intervalAccepted s.modemPreset tel.deviceUpdateInterval <;> rfl
  | empty => rfl

theorem write_privateKey {p : AdminPayload} {r : AdminState × AdminOutcome}
    (h : write s p = some r) :
    r.1.privateKey = s.privateKey := by
  unfold write at h
  split at h <;> cases h
  · rfl
  · exact commitEditSettings_privateKey s
  · exact setConfig_privateKey s _
  · exact setModuleConfig_privateKey s _
  · unfold setFixedPosition
    split
    · rfl
    · split <;> rfl
  · rfl
  · unfold setOwner
    split
    · rfl
    · split <;> rfl
  · rfl

end

/-! ## The reply is built -/

section

variable {P : Primitives} {sha256 : Bytes → Vector UInt8 32} {a b : KeyPair} {secret : Key}
variable {toNode fromNode packetId portnum : UInt32} {hopLimit nextHop : UInt8} {inner : Bytes}
variable {opts : DataEncodeOpts} {wantAck : Bool}

/-- A message that fits is sealed. -/
theorem buildPkiAppFrame_some (h : Agree P a b)
    (hfits : dataSize portnum inner opts + 12 ≤ MAX_PACKET_PAYLOAD) :
    ∃ o, buildPkiAppFrame P sha256 a.privateKey secret toNode fromNode packetId hopLimit portnum
      inner opts b.publicKey wantAck nextHop = some o := by
  have hmax : MAX_PACKET_PAYLOAD = 239 := rfl
  have hcapacity : Wire.DATA_CAPACITY = 240 := rfl
  have hinner : inner.length < UInt32.size := by
    unfold dataSize at hfits
    have : UInt32.size = 4294967296 := rfl
    omega
  have hlength :
      (encodeDataPayloadOpts portnum inner opts).rows.length = dataSize portnum inner opts := by
    rw [Wire.encodeDataPayloadOpts_rows, if_neg (by omega),
      Wire.length_dataFields portnum inner opts hinner]
  have hpositive : 0 < dataSize portnum inner opts := by
    unfold dataSize
    omega
  unfold buildPkiAppFrame
  dsimp only
  generalize (encodeDataPayloadOpts portnum inner opts).rows = text at hlength ⊢
  have hsome : text.isEmpty = false := by
    rw [List.isEmpty_eq_false_iff]
    intro hnil
    rw [hnil, List.length_nil] at hlength
    omega
  have hroom : text.length + Crypto.PKI_OVERHEAD ≤
      (List.replicate MAX_PACKET_PAYLOAD (0 : UInt8)).length := by
    have hover : Crypto.PKI_OVERHEAD = 12 := rfl
    rw [List.length_replicate]
    omega
  rw [hsome, Bool.false_or, decide_eq_false (by omega), if_neg Bool.false_ne_true,
    Crypto.encrypt_eq (h.handshake Crypto.CryptoEngine.new) hroom (by unfold Crypto.U16_MAX; omega)]
  exact ⟨_, rfl⟩

/-- The frame is sealed by one node for another, and tells it an answer to a packet. -/
def Tells (P : Primitives) (sha256 : Bytes → Vector UInt8 32) (b a : KeyPair)
    (toNode fromNode txId requestId : UInt32) (answer : AdminAnswer) (o : Frame) : Prop :=
  ∃ secret hopLimit portnum inner opts wantAck nextHop,
    buildPkiAppFrame P sha256 b.privateKey secret toNode fromNode txId hopLimit portnum inner opts
      a.publicKey wantAck nextHop = some o ∧
    opts.requestId = requestId ∧ readAnswer portnum inner = some answer

end

section

variable {P : Primitives} {sha256 : Bytes → Vector UInt8 32} {a b : KeyPair} {s : Inbox}
variable {desk : ReplyDesk} {parsed : ParsedPacket} {announced : Option Key}

theorem sealedReply_tells (hagree : Agree P a b) (hours : s.admin.privateKey = b.privateKey)
    {portnum : UInt32} {inner : Bytes} {answer : AdminAnswer} (hlength : inner.length ≤ 192)
    (hread : readAnswer portnum inner = some answer) (hop nextHop : UInt8) :
    ∃ o, s.sealedReply P sha256 desk parsed hop nextHop portnum inner a.publicKey = some o ∧
      Tells P sha256 b a parsed.fromNode s.nodeNum desk.txId parsed.id answer o := by
  have hfits : dataSize portnum inner (s.replyOpts parsed) + 12 ≤ MAX_PACKET_PAYLOAD := by
    have hport := varintSize_le portnum
    have hinner := varintSize_le (UInt32.ofNat inner.length)
    have hid := (parsed.id != 0).toNat_le
    have hmax : MAX_PACKET_PAYLOAD = 239 := rfl
    unfold dataSize Inbox.replyOpts
    dsimp only
    simp only [Bool.toNat_false, bne_self_eq_false, Nat.zero_mul]
    omega
  have hbuilt : ∃ o,
      s.sealedReply P sha256 desk parsed hop nextHop portnum inner a.publicKey = some o := by
    unfold Inbox.sealedReply
    rw [hours]
    exact buildPkiAppFrame_some hagree.symm hfits
  obtain ⟨o, ho⟩ := hbuilt
  have hsealed := ho
  unfold Inbox.sealedReply at hsealed
  rw [hours] at hsealed
  exact ⟨o, ho, _, _, _, _, _, _, _, hsealed, rfl, hread⟩

theorem adminRoutingError_tells (hagree : Agree P a b) (hours : s.admin.privateKey = b.privateKey)
    (hkey : s.adminReplyRemotePk = some a.publicKey) (hopStartKnown : Bool) (error : UInt32) :
    ∃ o, s.adminRoutingError P sha256 desk parsed hopStartKnown announced error = some o ∧
      Tells P sha256 b a parsed.fromNode s.nodeNum desk.txId parsed.id (.routing error) o := by
  have hnonzero : Crypto.isZero a.publicKey = false := by
    have h := hagree.nonzero_left
    rw [KeyPair.nonzero, Bool.and_eq_true, Bool.not_eq_true', Bool.not_eq_true'] at h
    exact h.2
  have hpk : s.remotePkForErrorReply announced = some a.publicKey := by
    rw [Inbox.remotePkForErrorReply, hkey, Option.filter_some, hnonzero]
    rfl
  have hlength : (encodeRoutingError error).length ≤ 192 := Nat.le_trans (Table.le _) (by decide)
  have hread : readAnswer ROUTING_APP (encodeRoutingError error) = some (.routing error) := by
    unfold readAnswer
    rw [if_neg (by decide), if_pos (by decide), encodeRoutingError_reads]
    rfl
  unfold Inbox.adminRoutingError
  dsimp only
  rw [hpk]
  exact sealedReply_tells hagree hours hlength hread _ _

/-- A response that can be told: in canonical form, with a passkey, and ours if it is an owner. -/
structure Tellable (identity : NodeInfoIdentity) (resp : AdminMessage) : Prop where
  canonical : resp.Canonical
  passkey : resp.hasSessionPasskey = true
  owner : ∀ o, resp.payload = .getOwnerResponse o → o = identity

theorem adminResponse_tells (hagree : Agree P a b) (hours : s.admin.privateKey = b.privateKey)
    (hkey : s.adminReplyRemotePk = some a.publicKey) (huse : s.adminReplyUsePki = true)
    {resp : AdminMessage} (h : Tellable desk.identity resp) (hopStartKnown : Bool) :
    ∃ o, s.adminResponse P sha256 desk parsed hopStartKnown resp = some o ∧
      Tells P sha256 b a parsed.fromNode s.nodeNum desk.txId parsed.id (.response resp) o := by
  have hread : readAnswer ADMIN_APP (responseBytes unbounded s.nodeNum desk.identity resp) =
      some (.response resp) := by
    unfold readAnswer
    rw [if_pos (by decide), responseBytes_reads h.canonical h.passkey h.owner]
    rfl
  unfold Inbox.adminResponse
  dsimp only
  rw [if_pos huse, hkey, Option.bind_some, responseBytes_uncut]
  exact sealedReply_tells hagree hours (responseBytes_length ..) hread _ _

/-- An outcome is told if there is something to tell. -/
theorem replyTo_tells (hagree : Agree P a b) (hours : s.admin.privateKey = b.privateKey)
    (hkey : s.adminReplyRemotePk = some a.publicKey) (huse : s.adminReplyUsePki = true)
    {outcome : AdminOutcome}
    (h : ∀ resp, outcome.response = some resp → Tellable desk.identity resp)
    (hopStartKnown : Bool) :
    let reply := s.replyTo P sha256 desk parsed hopStartKnown announced outcome
    (outcome.answer = none → reply = none) ∧ ∀ answer, outcome.answer = some answer →
      ∃ o, reply = some o ∧
        Tells P sha256 b a parsed.fromNode s.nodeNum desk.txId parsed.id answer o := by
  unfold Inbox.replyTo AdminOutcome.answer
  cases herror : outcome.routingError with
  | some error =>
    refine ⟨nofun, fun answer hanswer => ?_⟩
    cases hanswer
    exact adminRoutingError_tells hagree hours hkey hopStartKnown error
  | none =>
    cases hresponse : outcome.response with
    | some resp =>
      refine ⟨nofun, fun answer hanswer => ?_⟩
      cases hanswer
      exact adminResponse_tells hagree hours hkey huse (h resp hresponse) hopStartKnown
    | none =>
      cases outcome.routingOk with
      | false => exact ⟨fun _ => rfl, nofun⟩
      | true =>
        refine ⟨nofun, fun answer hanswer => ?_⟩
        cases hanswer
        exact adminRoutingError_tells hagree hours hkey hopStartKnown ROUTING_ERROR_NONE

/-- What the handler answers can be told, and it keeps our key. -/
theorem handleAdmin_tellable (sha256 : Bytes → Vector UInt8 32) (c : Call) (nowMs : UInt32)
    (hpreset : s.admin.usePreset = true) (hidentity : c.identity.Canonical) :
    (handleAdmin sha256 s.admin c nowMs).1.privateKey = s.admin.privateKey ∧
      ∀ resp, (handleAdmin sha256 s.admin c nowMs).2.response = some resp →
        Tellable c.identity resp := by
  have hspec := handleAdmin_spec sha256 s.admin c nowMs
  generalize handleAdmin sha256 s.admin c nowMs = call at hspec ⊢
  cases hspec with
  | refused o hr ho =>
    refine ⟨rfl, fun resp hresp => ?_⟩
    rw [hr] at hresp
    cases hresp
  | session msg reply hd ha hp =>
    refine ⟨rfl, fun resp hresp => ?_⟩
    rw [← Option.some.inj hresp]
    refine ⟨⟨readReply_canonical hpreset hidentity hp, nofun⟩, rfl, ?_⟩
    rintro o rfl
    exact readReply_owner hp
  | write msg r hd ha hs hw =>
    refine ⟨write_privateKey hw, fun resp hresp => ?_⟩
    rw [(write_session hw).2] at hresp
    cases hresp

variable (P sha256 parsed announced) in
/-- A message of an administrator is answered if the handler means to, and as it means to. -/
theorem adminReply_tells (hagree : Agree P a b) (hours : s.admin.privateKey = b.privateKey)
    (hkey : s.adminReplyRemotePk = some a.publicKey) (huse : s.adminReplyUsePki = true)
    (hpreset : s.admin.usePreset = true) (hidentity : desk.identity.Canonical)
    (hopStartKnown : Bool) (payload : Bytes) (nowMs : UInt32) :
    let asked := handleAdmin sha256 s.admin
      ⟨a.publicKey, desk.identity, pskBytes s.channelKey, s.channelHash, payload⟩ nowMs
    let reply := s.adminReply P sha256 desk parsed hopStartKnown announced payload nowMs
    (asked.2.answer = none → reply = none) ∧ ∀ answer, asked.2.answer = some answer →
      ∃ o, reply = some o ∧
        Tells P sha256 b a parsed.fromNode s.nodeNum desk.txId parsed.id answer o := by
  intro asked reply
  have htellable : asked.1.privateKey = s.admin.privateKey ∧
      ∀ resp, asked.2.response = some resp → Tellable desk.identity resp :=
    handleAdmin_tellable sha256 _ nowMs hpreset hidentity
  have hpk : (s.adminReplyRemotePk.filter fun _ => s.adminReplyUsePki) = some a.publicKey := by
    rw [hkey, Option.filter_some, huse]
    rfl
  have hreply : reply = { s with admin := asked.1 }.replyTo P sha256
      (desk.applyPreset asked.1 asked.2) parsed hopStartKnown announced asked.2 := by
    change s.adminReply .. = _
    unfold Inbox.adminReply
    rw [hpk]
  clear_value asked reply
  have hdesk : (desk.applyPreset asked.1 asked.2).identity = desk.identity ∧
      (desk.applyPreset asked.1 asked.2).txId = desk.txId := by
    unfold ReplyDesk.applyPreset
    split <;> exact ⟨rfl, rfl⟩
  have hown : ∀ resp, asked.2.response = some resp →
      Tellable (desk.applyPreset asked.1 asked.2).identity resp := by
    rw [hdesk.1]
    exact htellable.2
  have hprivate : ({ s with admin := asked.1 } : Inbox).admin.privateKey = b.privateKey :=
    htellable.1.trans hours
  rw [hreply, ← hdesk.2]
  exact replyTo_tells hagree hprivate hkey huse hown hopStartKnown

/-! ## The exchange -/

/-- A copy of a frame that one node has sealed for another arrives there, over any path, and its
channel does not read it. The key of the sender is tried, with tries left, and none of the keys
before it opens the frame. -/
structure Hears (P : Primitives) (s : Inbox) (a b : KeyPair) (peer : Option Key) (o : Frame)
    (packet : InboundPacket) : Prop where
  ours : s.admin.privateKey = b.privateKey
  carried : ∃ air path,
    Routing.Carried (Wire.writesHop P.aes s.channelKey s.channelHash) air o path packet.heard
  unread : Wire.dataOf P.aes s.channelKey s.channelHash o = none
  tried : ∃ before after, s.candidates peer = before ++ a.publicKey :: after ∧
    (∀ key ∈ before, Refuses P b.privateKey packet.header.parse o.payload key) ∧
    s.pkiWorkUsed.toNat + before.length < PKI_CURVE_ATTEMPTS_PER_SECOND.toNat

/-- An answer is read as it was told. -/
theorem Hears.answer (hagree : Agree P a b) {q : Inbox} {fromNode txId requestId : UInt32}
    {answer : AdminAnswer} {o : Frame}
    (ho : Tells P sha256 b a q.nodeNum fromNode txId requestId answer o)
    {peer : Option Key} {packet : InboundPacket} (h : Hears P q b a peer o packet)
    (nowMs : UInt32) :
    ∃ data inner,
      (q.decodePayload P packet.header.parse packet.payload peer nowMs).2.1 = some (data, inner) ∧
        data.requestId = requestId ∧ readAnswer data.portnum inner = some answer := by
  obtain ⟨secret, hopLimit, portnum, inner, opts, wantAck, nextHop, hbuilt, hid, hread⟩ := ho
  obtain ⟨air, path, hcarried⟩ := h.carried
  obtain ⟨before, after, hkeys, hbefore, hfew⟩ := h.tried
  obtain ⟨⟨hdecoded, -⟩, -⟩ :=
    Inbox.decodePayload_carried hagree.symm h.ours hbuilt hcarried h.unread
    hkeys hbefore hfew nowMs
  exact ⟨_, _, hdecoded, hid, hread⟩

/-- What an administrator seals for a node is handled there, and he reads what the handler answers
to it: over any paths, from any copy of his message that is taken as new, whatever the two nodes
did before. The answer names his message. -/
theorem administration_answered (hagree : Agree P a b) {r : Router} (hnode : r.nodeNum = s.nodeNum)
    (hpreset : s.admin.usePreset = true) (hidentity : desk.identity.Canonical)
    {secret : Key} {fromNode packetId : UInt32} {hopLimit nextHop : UInt8} {inner : Bytes}
    {opts : DataEncodeOpts} {wantAck : Bool} {o : Frame}
    (ho : buildPkiAppFrame P sha256 a.privateKey secret s.nodeNum fromNode packetId hopLimit
      ADMIN_APP inner opts b.publicKey wantAck nextHop = some o)
    {packet : InboundPacket} (hears : Hears P s a b announced o packet)
    {ans : Routing.Answers} (hlimited : ans.rateLimited = false)
    (hnew :
      (r.history.observe packet.header.fromNode packet.header.id packet.header.hopLimit).1 = .new)
    (nowMs : UInt32) :
    let asked := (handleAdmin sha256 s.admin
      ⟨a.publicKey, desk.identity, pskBytes s.channelKey, s.channelHash, inner⟩ nowMs).2
    let reply := s.reply P sha256 desk r packet ans announced nowMs
    (asked.answer = none → reply = none) ∧ ∀ answer, asked.answer = some answer →
      ∃ o', reply = some o' ∧
        ∀ (q : Inbox) (peer : Option Key) (packet' : InboundPacket) (later : UInt32),
          q.nodeNum = fromNode → Hears P q b a peer o' packet' → ∃ data inner',
          (q.decodePayload P packet'.header.parse packet'.payload peer later).2.1 =
            some (data, inner') ∧
            data.requestId = packetId ∧ readAnswer data.portnum inner' = some answer := by
  intro asked reply
  obtain ⟨air, path, hcarried⟩ := hears.carried
  obtain ⟨before, after, hkeys, hbefore, hfew⟩ := hears.tried
  obtain ⟨hdecoded, hfrom, hid, hto, hfits⟩ :=
    Inbox.decodePayload_carried hagree hears.ours ho hcarried
    hears.unread hkeys hbefore hfew nowMs
  obtain ⟨remotePk, usePki, error, window, used, hframe⟩ :=
    Inbox.decodePayload_frame P packet.header.parse packet.payload nowMs announced s
  have hreply : reply = s.reply P sha256 desk r packet ans announced nowMs := rfl
  unfold Inbox.reply at hreply
  rw [if_neg (Nat.not_lt.mpr hfits)] at hreply
  dsimp only at hreply
  clear_value reply
  generalize s.decodePayload P packet.header.parse packet.payload announced nowMs = call at *
  obtain ⟨inbox, read, tries⟩ := call
  dsimp only at hdecoded hframe hreply
  obtain ⟨hdata, hkey, hpki⟩ := hdecoded
  have hstands : (inbox.delivery read).remotePk = some a.publicKey :=
    Option.filter_eq_some_iff.mpr ⟨hkey, hpki⟩
  have hcommand : r.command packet { ans with decoded := read.map (·.1.routed) }
      (inbox.delivery read) nowMs = some (.admin inner) := by
    refine command_new_admin hfits (hto.trans hnode.symm) hnew hlimited (by rw [hdata]; rfl) rfl
      ?_ hstands
    rw [hdata]
    rfl
  rw [hcommand] at hreply
  dsimp only at hreply
  have hadmin : inbox.admin = s.admin := by rw [hframe]
  have hsame : inbox.channelKey = s.channelKey ∧ inbox.channelHash = s.channelHash ∧
      inbox.nodeNum = s.nodeNum := by
    rw [hframe]
    exact ⟨rfl, rfl, rfl⟩
  have htold := adminReply_tells P sha256 packet.header.parse announced hagree
    (hadmin ▸ hears.ours) hkey hpki (hadmin ▸ hpreset) hidentity (read.any (·.1.hasBitfield))
      inner nowMs
  rw [hadmin, hsame.1, hsame.2.1, hsame.2.2] at htold
  rw [hreply]
  refine ⟨htold.1, fun answer hanswer => ?_⟩
  obtain ⟨o', ho', htells⟩ := htold.2 answer hanswer
  refine ⟨o', ho', fun q peer packet' later hasker hheard => ?_⟩
  have hpair : Tells P sha256 b a q.nodeNum s.nodeNum desk.txId packetId answer o' := by
    rw [hasker, ← hfrom, ← hid]
    exact htells
  exact hheard.answer hagree hpair later

end

/-! Node 9 asks node 5 for its owner, and reads it. -/

/-- What AES makes of the blocks of both messages. -/
def exchangeBlocks : List (Bytes × Bytes) :=
  [([25, 77, 0, 0, 0, 56, 215, 102, 226, 9, 0, 0, 0, 0, 0, 10],
    [134, 159, 89, 232, 3, 57, 242, 4, 177, 51, 225, 239, 52, 204, 185, 112]),
   ([142, 153, 75, 234, 27, 56, 234, 5, 249, 49, 225, 239, 52, 204, 185, 112],
    [136, 80, 208, 169, 80, 132, 59, 145, 30, 122, 210, 137, 107, 93, 252, 104]),
   ([1, 77, 0, 0, 0, 56, 215, 102, 226, 9, 0, 0, 0, 0, 0, 0],
    [17, 31, 249, 86, 36, 221, 40, 110, 246, 14, 68, 7, 166, 223, 59, 194]),
   ([1, 77, 0, 0, 0, 56, 215, 102, 226, 9, 0, 0, 0, 0, 0, 1],
    [164, 100, 152, 26, 8, 97, 152, 152, 133, 20, 54, 138, 105, 82, 32, 104]),
   ([25, 91, 0, 0, 0, 127, 251, 114, 219, 5, 0, 0, 0, 0, 0, 41],
    [16, 72, 69, 15, 125, 235, 203, 39, 111, 112, 107, 102, 207, 22, 36, 127]),
   ([24, 78, 87, 17, 95, 250, 193, 46, 78, 64, 91, 86, 255, 38, 20, 79],
    [47, 148, 170, 55, 254, 4, 18, 164, 109, 104, 1, 153, 27, 145, 7, 155]),
   ([26, 134, 170, 45, 254, 44, 45, 14, 107, 96, 113, 13, 133, 161, 179, 145],
    [205, 75, 162, 22, 251, 65, 74, 94, 17, 120, 115, 219, 147, 131, 29, 93]),
   ([232, 97, 151, 91, 251, 65, 74, 22, 16, 120, 115, 219, 147, 131, 29, 93],
    [95, 40, 243, 240, 87, 255, 235, 159, 249, 89, 139, 197, 153, 221, 187, 184]),
   ([1, 91, 0, 0, 0, 127, 251, 114, 219, 5, 0, 0, 0, 0, 0, 0],
    [153, 246, 241, 50, 27, 121, 46, 30, 228, 195, 164, 133, 166, 179, 5, 219]),
   ([1, 91, 0, 0, 0, 127, 251, 114, 219, 5, 0, 0, 0, 0, 0, 1],
    [114, 42, 184, 44, 252, 154, 82, 136, 187, 130, 12, 97, 250, 48, 84, 1]),
   ([1, 91, 0, 0, 0, 127, 251, 114, 219, 5, 0, 0, 0, 0, 0, 2],
    [244, 86, 9, 149, 127, 24, 89, 245, 93, 204, 246, 38, 106, 249, 48, 236]),
   ([1, 91, 0, 0, 0, 127, 251, 114, 219, 5, 0, 0, 0, 0, 0, 3],
    [154, 185, 180, 210, 236, 182, 69, 101, 27, 239, 131, 46, 178, 202, 142, 47])]

def exchangePrimitives : Primitives :=
  { Crypto.samplePrimitives with
    aes := fun _ block => padded _ ((exchangeBlocks.lookup block.toList).getD []) }

/-- And SHA-256 of the nonces and of the passkey. -/
def exchangeDigests : List (Bytes × Bytes) :=
  [(List.replicate 32 0 ++ Crypto.le64 77,
    [56, 215, 102, 226, 118, 180, 77, 131, 24, 88, 192, 129, 1, 25, 38, 147, 14, 59, 213, 255, 229,
     148, 51, 230, 163, 38, 4, 175, 167, 210, 174, 217]),
   (List.replicate 32 2 ++ le32 40 ++ le32 0 ++ [0xA5, 0x5A],
    [112, 148, 158, 48, 180, 10, 37, 42, 109, 19, 203, 47, 251, 170, 182, 84, 148, 68, 161, 14, 93,
     14, 92, 175, 211, 112, 159, 25, 7, 110, 183, 65]),
   (List.replicate 32 0 ++ Crypto.le64 91,
    [127, 251, 114, 219, 197, 165, 147, 85, 223, 167, 254, 123, 176, 146, 69, 31, 211, 38, 151, 64,
     150, 182, 224, 189, 112, 181, 147, 40, 34, 24, 86, 120])]

def exchangeSha256 (bytes : Bytes) : Vector UInt8 32 :=
  padded _ ((exchangeDigests.lookup bytes).getD [])

def askerInbox : Inbox :=
  { ownedInbox with
    nodeNum := 9
    admin := { AdminState.new with
      privateKey := Crypto.leftPair.privateKey
      builtinOverride := some (Crypto.rightPair.publicKey, EMPTY_ADMIN_KEY) } }

def askedFrame : Frame :=
  ⟨⟨5, 9, 77, 0, 3, 3, false, false, 0, 9⟩,
    [172, 98, 138, 24, 16, 96, 128, 153, 205, 22, 153, 79, 41, 255, 116, 89, 19, 255, 56, 215, 102,
      226]⟩

def answerFrame : Frame :=
  ⟨⟨9, 5, 91, 0, 2, 2, false, false, 0, 5⟩,
    [122, 44, 170, 50, 222, 139, 88, 129, 154, 178, 60, 81, 202, 0, 100, 49, 193, 68, 9, 143, 127,
      48, 102, 95, 91, 196, 134, 178, 244, 201, 132, 230, 191, 147, 129, 159, 236, 182, 69, 45, 26,
      198, 222, 2, 194, 76, 134, 197, 129, 127, 251, 114, 219]⟩

def ownerDesk : ReplyDesk := ⟨⟨.empty, EMPTY_ADMIN_KEY⟩, 3, 91, EMPTY_ADMIN_KEY, false⟩

def ownerTold : AdminMessage :=
  ⟨padded _ [112, 148, 158, 48, 180, 10, 37, 42], true, .getOwnerResponse ⟨.empty, EMPTY_ADMIN_KEY⟩⟩

def answerPacket : InboundPacket := ⟨answerFrame.header, answerFrame.payload, 0, 10⟩

theorem administration_answered_owner : ∃ data inner,
    (askerInbox.decodePayload exchangePrimitives answerPacket.header.parse answerPacket.payload none
        60).2.1 = some (data, inner) ∧
      data.requestId = 77 ∧ readAnswer data.portnum inner = some (.response ownerTold) := by
  have hagree : Agree exchangePrimitives Crypto.leftPair Crypto.rightPair :=
    ⟨by decide, by decide, rfl, by decide⟩
  have hbuilt : buildPkiAppFrame exchangePrimitives exchangeSha256 Crypto.leftPair.privateKey
      EMPTY_ADMIN_KEY 5 9 77 3 ADMIN_APP ownerRequest
      { wantResponse := true, bitfield := .ours false }
      Crypto.rightPair.publicKey false 0 = some askedFrame := by
    decide +kernel
  have hheard : Hears exchangePrimitives ownedInbox Crypto.leftPair Crypto.rightPair none askedFrame
      ⟨askedFrame.header, askedFrame.payload, 0, 10⟩ :=
    ⟨rfl, ⟨[], [], .original⟩, Wire.dataOf_foreign (by decide),
      ⟨[], _, rfl, fun key hkey => absurd hkey List.not_mem_nil, by decide⟩⟩
  have hasked : (handleAdmin exchangeSha256 ownedInbox.admin ⟨Crypto.leftPair.publicKey,
      ownerDesk.identity, pskBytes ownedInbox.channelKey, ownedInbox.channelHash, ownerRequest⟩
      40).2.answer = some (.response ownerTold) := by
    decide +kernel
  have hcanonical : ownerDesk.identity.Canonical :=
    ⟨padded_canonical (Nat.zero_le _), padded_canonical (Nat.zero_le _)⟩
  have hlimited : ownerAnswers.rateLimited = false := rfl
  obtain ⟨o, ho, hreads⟩ :=
    (administration_answered hagree (s := ownedInbox) (r := openRouter) rfl rfl
    hcanonical hbuilt hheard hlimited (by decide +kernel) 40).2 _ hasked
  have hsent : ownedInbox.reply exchangePrimitives exchangeSha256 ownerDesk openRouter
      ⟨askedFrame.header, askedFrame.payload, 0, 10⟩ ownerAnswers none 40 = some answerFrame := by
    decide +kernel
  cases hsent.symm.trans ho
  have hreturned :
      Hears exchangePrimitives askerInbox Crypto.rightPair Crypto.leftPair none answerFrame
      answerPacket :=
    ⟨rfl, ⟨[], [], .original⟩, Wire.dataOf_foreign (by decide),
      ⟨[], _, rfl, fun key hkey => absurd hkey List.not_mem_nil, by decide⟩⟩
  exact hreads askerInbox none answerPacket 60 rfl hreturned

end Meshrustic.Admin
