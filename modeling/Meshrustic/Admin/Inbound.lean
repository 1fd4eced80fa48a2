import Meshrustic.Admin.Handler
import Meshrustic.Core.Clock
import Meshrustic.Core.FixedWindow
import Meshrustic.Core.LTS
import Meshrustic.Crypto.Pki
import Meshrustic.Routing.Commands
import Meshrustic.Wire.Acks

/-!
# Who a command is from (`mesh-routing/src/router.rs:859-1180, 1205-1354, 1426-1500`)

A frame to us that the channel key does not open is tried with the keys of the administrators
and with the one that the sender has announced. The key that opens it stands for the sender,
until the next frame is decrypted. A command is carried out only for such a key.

Each try to decrypt costs a key agreement, so a second has a fixed number of tries.

Results:
* `tryKeys_opened`: what a key opens was sealed under the secret we share with it;
* `receive_kept`: what no administrator has sealed changes nothing in the administration;
* `administration_kept`: nor does a run of it;
* `curve_tries_bounded`: how many tries to decrypt are admitted in a second of any run.
-/
namespace Meshrustic.Admin

open Meshrustic.Crypto (Primitives CryptoEngine)
open Meshrustic.Channel (pskBytes)
open Meshrustic.Routing (ParsedPacket InboundPacket MAX_PACKET_PAYLOAD Router Delivery Command
  isDirectPacket)
open Meshrustic.Store (CryptoKey padded)
open Meshrustic.Wire (DecodedData decodeDataPayloadFull tryDecryptDataFull)

def ROUTING_ERROR_PKI_FAILED : UInt32 := 34
def ROUTING_ERROR_PKI_UNKNOWN_PUBKEY : UInt32 := 35
def PKI_CURVE_ATTEMPTS_PER_SECOND : UInt8 := 16
def DFU_ENTER_DELAY_SECS : Int32 := 2

/-- At most five of the eight places are taken.
mirrors crates/mesh-routing/src/admin.rs:233-244 -/
def AdminState.candidatePkiKeys (s : AdminState) : List Key :=
  [s.effectiveBuiltinAdminKeys.1, s.effectiveBuiltinAdminKeys.2] ++
    s.adminPublicKeys.toList.filter (· != EMPTY_ADMIN_KEY)

/-- mirrors crates/mesh-routing/src/admin.rs:196-203 -/
def AdminState.coercePositionInterval (s : AdminState) : Bool × AdminState :=
  let next := coercePositionBroadcastSecs s.positionBroadcastSecs s.deviceRole
  if next == s.positionBroadcastSecs then (false, s)
  else (true, { s with positionBroadcastSecs := next })

/-- What of it the administration keeps.
mirrors crates/mesh-routing/src/router.rs:836-844 -/
def AdminState.setDeviceRole (s : AdminState) (role : UInt32) : AdminState :=
  let (coerced, s) := { s with deviceRole := sanitizeDeviceRole role }.coercePositionInterval
  { s with configDirty := s.configDirty || coerced }

/-- The part of the router that decrypts.
mirrors crates/mesh-routing/src/router.rs:211-268 -/
structure Inbox where
  nodeNum : UInt32
  channelKey : CryptoKey
  channelHash : UInt8
  admin : AdminState
  adminReplyRemotePk : Option Key
  adminReplyUsePki : Bool
  pendingPkiError : Option UInt32
  pkiWorkWindowMs : UInt32
  pkiWorkUsed : UInt8
  pendingOtaDfuSeconds : Option Int32

/-- What the keys make of a message. -/
inductive Tried where
  /-- no tries are left in this second -/
  | refused
  | failed
  | opened (remotePk : Key) (data : DecodedData) (inner : Bytes)

namespace Inbox

variable (P : Primitives) (s : Inbox)

/-- mirrors crates/mesh-routing/src/router.rs:1344-1354 -/
def allowPkiCurveAttempt (nowMs : UInt32) : Bool × Inbox :=
  let s :=
    if 1000 ≤ nowMs - s.pkiWorkWindowMs then { s with pkiWorkWindowMs := nowMs, pkiWorkUsed := 0 }
    else s
  if PKI_CURVE_ATTEMPTS_PER_SECOND ≤ s.pkiWorkUsed then (false, s)
  else (true, { s with pkiWorkUsed := s.pkiWorkUsed + 1 })

/-- The keys that are tried; `peer` is the key that the sender has announced.
mirrors crates/mesh-routing/src/router.rs:1266-1279 -/
def candidates (peer : Option Key) : List Key :=
  let keys := s.admin.candidatePkiKeys
  match peer with
  | some pk => if !Crypto.isZero pk && !keys.contains pk then keys ++ [pk] else keys
  | none => keys

/-- The engine keeps the last shared key and nonce, and its private key. The number of key
agreements is returned beside the answer.
mirrors crates/mesh-routing/src/router.rs:1284-1325 -/
def tryKeys (parsed : ParsedPacket) (cipher : Bytes) (nowMs : UInt32) :
    List Key → CryptoEngine → Inbox → Inbox × Tried × Nat
  | [], _, s => (s, .failed, 0)
  | remotePk :: keys, engine, s =>
    let (allowed, s) := s.allowPkiCurveAttempt nowMs
    if !allowed then (s, .refused, 0)
    else
      let (ok, engine, plain) :=
        engine.decryptCurve25519 P parsed.fromNode remotePk parsed.id.toUInt64
        cipher (List.replicate MAX_PACKET_PAYLOAD 0)
      let next := (tryKeys parsed cipher nowMs keys engine s).map id fun t => (t.1, t.2 + 1)
      if !ok || cipher.length < Crypto.PKI_OVERHEAD then next
      else
        match decodeDataPayloadFull (plain.take (cipher.length - Crypto.PKI_OVERHEAD)) with
        | some (data, inner) => (s, .opened remotePk data inner, 1)
        | none => next

/-- No key stands for a sender. -/
def forgetKey : Inbox := { s with adminReplyRemotePk := none, adminReplyUsePki := false }

def forgetKeyAndError : Inbox := { s.forgetKey with pendingPkiError := none }

/-- What is made of the tries.
mirrors crates/mesh-routing/src/router.rs:1288-1295, 1313-1325, 1328-1341 -/
def settle (hadCandidates : Bool) : Tried → Inbox × Option (DecodedData × Bytes)
  | .refused => ({ s with pendingPkiError := none }, none)
  | .failed =>
    ({ s with pendingPkiError := some (if hadCandidates then ROUTING_ERROR_PKI_FAILED
        else ROUTING_ERROR_PKI_UNKNOWN_PUBKEY) }, none)
  | .opened remotePk data inner =>
    ({ s with
        adminReplyRemotePk := some remotePk, adminReplyUsePki := true, pendingPkiError := none },
      some (data, inner))

/-- mirrors crates/mesh-routing/src/router.rs:1251-1342 -/
def tryPkiDecrypt (parsed : ParsedPacket) (cipher : Bytes) (peer : Option Key) (nowMs : UInt32) :
    Inbox × Option (DecodedData × Bytes) × Nat :=
  let keys := s.candidates peer
  let tried := tryKeys P parsed cipher nowMs keys
    (CryptoEngine.new.setDhPrivateKey s.admin.privateKey) s.forgetKeyAndError
  let settled := tried.1.settle (!keys.isEmpty) tried.2.1
  (settled.1, settled.2, tried.2.2)

/-- mirrors crates/mesh-routing/src/router.rs:1205-1249 -/
def decodePayload (parsed : ParsedPacket) (cipher : Bytes) (peer : Option Key) (nowMs : UInt32) :
    Inbox × Option (DecodedData × Bytes) × Nat :=
  match tryDecryptDataFull P.aes s.channelKey parsed.fromNode parsed.id s.channelHash parsed.channel
      cipher with
  | some read => (s.forgetKeyAndError, some read, 0)
  | none =>
    if parsed.toNode == s.nodeNum then s.tryPkiDecrypt P parsed cipher peer nowMs
    else (s.forgetKey, none, 0)

/-- What the decryption leaves for the dispatch. -/
def delivery (read : Option (DecodedData × Bytes)) : Delivery where
  inner := read.map (·.2)
  remotePk := s.adminReplyRemotePk.filter fun _ => s.adminReplyUsePki
  isAuthorized := s.admin.isAuthorized

/-- The rest of what `process_inbound` does with a key, for a frame taken as new: an error is
answered only to a frame of which nothing was read.
mirrors crates/mesh-routing/src/router.rs:1174-1180 -/
def answerPkiError (parsed : ParsedPacket) (read : Option (DecodedData × Bytes)) :
    Inbox × Option UInt32 :=
  ({ s with pendingPkiError := none },
    if read.isNone && parsed.toNode == s.nodeNum then s.pendingPkiError else none)

/-- The settings of the radio, the name and the answers that follow are the router's.
mirrors crates/mesh-routing/src/router.rs:1367-1384, 1432-1492 -/
def carryOut (sha256 : Bytes → Vector UInt8 32) (identity : NodeInfoIdentity) (nowMs : UInt32) :
    Option Command → Inbox
  | none => s
  | some .armDfu => { s with pendingOtaDfuSeconds := some DFU_ENTER_DELAY_SECS }
  | some (.admin payload) =>
    match s.adminReplyRemotePk with
    | none => s
    | some remotePk =>
      let (admin, outcome) := handleAdmin sha256 s.admin
        ⟨remotePk, identity, pskBytes s.channelKey, s.channelHash, payload⟩ nowMs
      let admin := outcome.applyDeviceRole.elim admin admin.setDeviceRole
      { s with admin := { admin with
          configDirty := admin.configDirty || outcome.applyOwner.isSome
          pendingRebootSeconds := outcome.rebootSeconds.or admin.pendingRebootSeconds } }

/-- A frame: the inbox, the command that is carried out, the error that is answered and the number
of key agreements.
mirrors crates/mesh-routing/src/router.rs:859-1180 -/
def receive (sha256 : Bytes → Vector UInt8 32) (r : Router) (packet : InboundPacket)
    (a : Routing.Answers) (peer : Option Key) (identity : NodeInfoIdentity) (nowMs : UInt32) :
    Inbox × Option Command × Option UInt32 × Nat :=
  if MAX_PACKET_PAYLOAD < packet.payload.length then (s, none, none, 0)
  else
    let parsed := packet.header.parse
    let (s, read, tries) := s.decodePayload P parsed packet.payload peer nowMs
    let command :=
      r.command packet { a with decoded := read.map (·.1.routed) } (s.delivery read) nowMs
    let s := s.carryOut sha256 identity nowMs command
    let seen := r.history.observe parsed.fromNode parsed.id parsed.hopLimit
    if Router.fallsThrough { r with history := seen.2 } seen.1 parsed nowMs && !a.rateLimited then
      let (s, error) := s.answerPkiError parsed read
      (s, command, error, tries)
    else (s, command, none, tries)

end Inbox

/-! ## What a key opens -/

/-- The message is the text, sealed by a holder of the secret of the two keys. -/
def Sealed (P : Primitives) (privateKey remotePk : Key) (parsed : ParsedPacket)
    (cipher text : Bytes) : Prop :=
  ∃ extraNonce, cipher = Crypto.envelope P.aes (P.sha256 (P.diffieHellman privateKey remotePk))
    (Crypto.initNonce parsed.fromNode parsed.id.toUInt64 extraNonce) extraNonce text

section
variable {P : Primitives} {parsed : ParsedPacket} {cipher : Bytes} {nowMs : UInt32}

theorem setDhPublicKey_privateKey (engine : CryptoEngine) (pubKey : Key) :
    (engine.setDhPublicKey P pubKey).2.privateKey = engine.privateKey := by
  unfold CryptoEngine.setDhPublicKey
  split <;> rfl

/-- An engine keeps its private key. -/
theorem decrypt_privateKey (engine : CryptoEngine) (fromNode : UInt32) (remotePk : Key)
    (packetNum : UInt64) (bytes out : Bytes) :
    (engine.decryptCurve25519 P fromNode remotePk packetNum bytes out).2.1.privateKey =
      engine.privateKey := by
  have hkey := setDhPublicKey_privateKey (P := P) engine remotePk
  unfold CryptoEngine.decryptCurve25519
  split
  · rfl
  · dsimp only
    split
    · exact hkey
    · split <;> exact hkey

namespace Inbox

/-- Only the tries of the second change. -/
theorem allowPkiCurveAttempt_frame (s : Inbox) (nowMs : UInt32) : ∃ window used,
    (s.allowPkiCurveAttempt nowMs).2 =
      { s with pkiWorkWindowMs := window, pkiWorkUsed := used } := by
  unfold allowPkiCurveAttempt
  dsimp only
  split <;> split <;> exact ⟨_, _, rfl⟩

variable (P parsed cipher nowMs) in
theorem tryKeys_frame (keys : List Key) (engine : CryptoEngine) (s : Inbox) : ∃ window used,
    (tryKeys P parsed cipher nowMs keys engine s).1 =
      { s with pkiWorkWindowMs := window, pkiWorkUsed := used } := by
  induction keys generalizing engine s with
  | nil => exact ⟨_, _, rfl⟩
  | cons remotePk keys ih =>
    obtain ⟨window, used, hframe⟩ := s.allowPkiCurveAttempt_frame nowMs
    have hnext (engine : CryptoEngine) : ∃ window used,
        (tryKeys P parsed cipher nowMs keys engine (s.allowPkiCurveAttempt nowMs).2).1 =
          { s with pkiWorkWindowMs := window, pkiWorkUsed := used } := by
      obtain ⟨w, u, h⟩ := ih engine (s.allowPkiCurveAttempt nowMs).2
      exact ⟨w, u, by rw [h, hframe]⟩
    unfold tryKeys
    dsimp only
    split
    · exact ⟨window, used, hframe⟩
    · split
      · exact hnext _
      · split
        · exact ⟨window, used, hframe⟩
        · exact hnext _

/-- A key that opens a message was tried, and what it opens was sealed under the secret we share
with it. -/
theorem tryKeys_opened {keys : List Key} {engine : CryptoEngine} {s : Inbox} {remotePk : Key}
    {data : DecodedData} {inner : Bytes}
    (h : (tryKeys P parsed cipher nowMs keys engine s).2.1 = .opened remotePk data inner) :
    remotePk ∈ keys ∧ ∃ text, Sealed P engine.privateKey remotePk parsed cipher text ∧
      decodeDataPayloadFull text = some (data, inner) := by
  induction keys generalizing engine s with
  | nil => cases h
  | cons key keys ih =>
    unfold tryKeys at h
    dsimp only at h
    generalize hcall : engine.decryptCurve25519 P parsed.fromNode key parsed.id.toUInt64 cipher
      (List.replicate MAX_PACKET_PAYLOAD 0) = call at h
    have hkeeps : call.2.1.privateKey = engine.privateKey := hcall ▸ decrypt_privateKey ..
    have hnext (hrest : (tryKeys P parsed cipher nowMs keys call.2.1
        (s.allowPkiCurveAttempt nowMs).2).2.1 = .opened remotePk data inner) :
        remotePk ∈ key :: keys ∧ ∃ text, Sealed P engine.privateKey remotePk parsed cipher text ∧
          decodeDataPayloadFull text = some (data, inner) := by
      obtain ⟨hmem, hopened⟩ := ih hrest
      exact ⟨List.mem_cons_of_mem _ hmem, hkeeps ▸ hopened⟩
    split at h
    · cases h
    · split at h
      · exact hnext h
      · rename_i hok
        split at h
        · rename_i heq
          cases h
          rw [Bool.or_eq_true, not_or, Bool.not_eq_true', Bool.not_eq_false] at hok
          obtain ⟨text, extraNonce, hlength, hout, hsealed⟩ :=
            Crypto.decrypt_opened (hcall.symm ▸ hok.1)
          refine ⟨List.mem_cons_self, text, ⟨extraNonce, hsealed⟩, ?_⟩
          rw [hcall] at hout
          have hplain : call.2.2.take (cipher.length - Crypto.PKI_OVERHEAD) = text := by
            rw [hout, ← hlength, Nat.add_sub_cancel, putAt, List.take_zero, List.nil_append,
              List.take_left]
          rwa [hplain] at heq
        · exact hnext h

/-- The frame is to us, and a key that is tried sealed what is read of it. -/
def Verified (P : Primitives) (s : Inbox) (parsed : ParsedPacket) (cipher : Bytes)
    (peer : Option Key) (remotePk : Key) (read : DecodedData × Bytes) : Prop :=
  parsed.toNode = s.nodeNum ∧ remotePk ∈ s.candidates peer ∧
    ∃ text, Sealed P s.admin.privateKey remotePk parsed cipher text ∧
      decodeDataPayloadFull text = some read

variable {s : Inbox} {peer : Option Key}

variable (P parsed cipher nowMs peer) in
/-- What decryption does to the inbox. -/
theorem decodePayload_frame (s : Inbox) : ∃ remotePk usePki error window used,
    (s.decodePayload P parsed cipher peer nowMs).1 =
      { s with
        adminReplyRemotePk := remotePk
        adminReplyUsePki := usePki
        pendingPkiError := error
        pkiWorkWindowMs := window
        pkiWorkUsed := used } := by
  unfold decodePayload
  split
  · exact ⟨_, _, _, _, _, rfl⟩
  · split
    · unfold tryPkiDecrypt
      dsimp only
      obtain ⟨window, used, hframe⟩ := tryKeys_frame P parsed cipher nowMs (s.candidates peer)
        (CryptoEngine.new.setDhPrivateKey s.admin.privateKey) s.forgetKeyAndError
      rw [hframe]
      generalize Prod.fst (Prod.snd _) = tried
      cases tried <;> exact ⟨_, _, _, _, _, rfl⟩
    · exact ⟨_, _, _, _, _, rfl⟩

theorem settle_remotePk {hadCandidates : Bool} {tried : Tried} {remotePk : Key}
    (hnone : s.adminReplyRemotePk = none)
    (h : ((s.settle hadCandidates tried).1.delivery (s.settle hadCandidates tried).2).remotePk =
      some remotePk) :
    ∃ data inner, tried = .opened remotePk data inner ∧
      (s.settle hadCandidates tried).2 = some (data, inner) := by
  cases tried with
  | refused =>
    change s.adminReplyRemotePk.filter _ = _ at h
    rw [hnone] at h
    cases h
  | failed =>
    change s.adminReplyRemotePk.filter _ = _ at h
    rw [hnone] at h
    cases h
  | opened key data inner =>
    cases h
    exact ⟨data, inner, rfl, rfl⟩

/-- A key stands for the sender only if it has opened this very frame. -/
theorem decodePayload_remotePk {remotePk : Key}
    (h : ((s.decodePayload P parsed cipher peer nowMs).1.delivery
      (s.decodePayload P parsed cipher peer nowMs).2.1).remotePk = some remotePk) :
    ∃ read, (s.decodePayload P parsed cipher peer nowMs).2.1 = some read ∧
      Verified P s parsed cipher peer remotePk read := by
  unfold decodePayload at h ⊢
  generalize tryDecryptDataFull _ _ _ _ _ _ _ = clear at h ⊢
  cases clear with
  | some read => cases h
  | none =>
    dsimp only at h ⊢
    split at h
    · rename_i hto
      rw [if_pos hto]
      unfold tryPkiDecrypt at h ⊢
      dsimp only at h ⊢
      have hframe := tryKeys_frame P parsed cipher nowMs (s.candidates peer)
        (CryptoEngine.new.setDhPrivateKey s.admin.privateKey) s.forgetKeyAndError
      generalize htried : tryKeys P parsed cipher nowMs (s.candidates peer)
        (CryptoEngine.new.setDhPrivateKey s.admin.privateKey) s.forgetKeyAndError = tried
        at h hframe ⊢
      have hnone : tried.1.adminReplyRemotePk = none := by
        obtain ⟨_, _, hframe⟩ := hframe
        rw [hframe]
        rfl
      obtain ⟨data, inner, hopened, hread⟩ := settle_remotePk hnone h
      rw [← htried] at hopened
      have hsealed := tryKeys_opened hopened
      exact ⟨(data, inner), hread, eq_of_beq hto, hsealed⟩
    · cases h

end Inbox

/-! ## What a frame can change -/

/-- Who is no administrator changes nothing. -/
theorem handleAdmin_unauthorized (sha256 : Bytes → Vector UInt8 32) {s : AdminState} {c : Call}
    (nowMs : UInt32) (h : s.isAuthorized c.remotePk = false) :
    ∃ error, handleAdmin sha256 s c nowMs = (s, { routingError := error }) := by
  unfold handleAdmin
  split
  · exact ⟨none, rfl⟩
  · rw [h]
    exact ⟨_, rfl⟩

namespace Inbox

variable {s : Inbox} {r : Router} {packet : InboundPacket} {a : Routing.Answers} {peer : Option Key}

/-- A command has a key that stands for its sender, and the bootloader is armed by an administrator
that we hear directly. -/
theorem command_remotePk {d : Delivery} {c : Command} (h : r.command packet a d nowMs = some c) :
    ∃ remotePk, d.remotePk = some remotePk ∧
      (c = .armDfu → d.isAuthorized remotePk = true ∧ isDirectPacket packet.header.parse.fromNode
        packet.header.parse.hopStart packet.header.parse.hopLimit
          packet.header.parse.relayNode = true) := by
  have hadmin {payload : Bytes} (h : Routing.processAdminRx d payload = some c) :
      ∃ remotePk, d.remotePk = some remotePk ∧ (c = .armDfu → d.isAuthorized remotePk = true ∧
        isDirectPacket packet.header.parse.fromNode packet.header.parse.hopStart
          packet.header.parse.hopLimit packet.header.parse.relayNode = true) := by
    obtain ⟨remotePk, hkey, rfl⟩ := Option.map_eq_some_iff.mp h
    exact ⟨remotePk, hkey, Command.noConfusion⟩
  unfold Router.command at h
  split at h
  · cases h
  dsimp only at h
  split at h
  · split at h
    · cases h
    unfold Router.dispatch at h
    split at h
    · split at h
      · cases h
      · split at h
        · exact hadmin h
        · split at h
          · unfold Routing.maybeArmOtaDfu at h
            split at h
            · rename_i harm
              cases h
              rw [Bool.and_eq_true, Bool.and_eq_true] at harm
              obtain ⟨remotePk, hkey, hauth⟩ := (Option.any_eq_true _ _).mp harm.1.1
              exact ⟨remotePk, hkey, fun _ => ⟨hauth, harm.1.2⟩⟩
            · cases h
          · cases h
    · cases h
  · unfold Router.dispatchDuplicate at h
    split at h
    · cases h
    · split at h
      · split at h
        · split at h
          · exact hadmin h
          · cases h
        · cases h
      · cases h

/-- A frame to us that an administrator has sealed. -/
def FromAdmin (P : Primitives) (s : Inbox) (packet : InboundPacket) : Prop :=
  packet.header.toNode = s.nodeNum ∧ ∃ remotePk text, s.admin.isAuthorized remotePk = true ∧
    Sealed P s.admin.privateKey remotePk packet.header.parse packet.payload text

theorem carryOut_unauthorized {sha256 : Bytes → Vector UInt8 32} {identity : NodeInfoIdentity}
    {payload : Bytes} {remotePk : Key} (hkey : s.adminReplyRemotePk = some remotePk)
    (h : s.admin.isAuthorized remotePk = false) :
    s.carryOut sha256 identity nowMs (some (.admin payload)) = s := by
  obtain ⟨error, hrefused⟩ := handleAdmin_unauthorized sha256
    (c := ⟨remotePk, identity, pskBytes s.channelKey, s.channelHash, payload⟩) nowMs h
  unfold carryOut
  rw [hkey]
  dsimp only
  rw [hrefused]
  simp only [Option.elim_none, Option.isSome_none, Bool.or_false, Option.none_or, ← hkey]

/-- What no administrator has sealed leaves the administration as it is. -/
theorem receive_kept (h : ¬FromAdmin P s packet) (sha256 : Bytes → Vector UInt8 32) (r : Router)
    (a : Routing.Answers) (peer : Option Key) (identity : NodeInfoIdentity) (nowMs : UInt32) :
    let after := (s.receive P sha256 r packet a peer identity nowMs).1
    after.nodeNum = s.nodeNum ∧ after.admin = s.admin ∧
      after.pendingOtaDfuSeconds = s.pendingOtaDfuSeconds := by
  have hdecoded (remotePk : Key) (h : ((s.decodePayload P packet.header.parse packet.payload peer
      nowMs).1.delivery
        (s.decodePayload P packet.header.parse packet.payload peer nowMs).2.1).remotePk =
        some remotePk) := decodePayload_remotePk h
  obtain ⟨_, _, _, _, _, hframe⟩ :=
    decodePayload_frame P packet.header.parse packet.payload nowMs peer s
  unfold receive
  split
  · exact ⟨rfl, rfl, rfl⟩
  dsimp only
  generalize s.decodePayload P packet.header.parse packet.payload peer nowMs = call at *
  generalize hcommand : r.command packet _ _ nowMs = command
  have hcarried : call.1.carryOut sha256 identity nowMs command = call.1 := by
    cases command with
    | none => rfl
    | some c =>
      obtain ⟨remotePk, hkey, harm⟩ := command_remotePk hcommand
      obtain ⟨read, -, hto, -, text, hsealed, -⟩ := hdecoded remotePk hkey
      have hstranger : call.1.admin.isAuthorized remotePk = false := by
        rw [hframe, Bool.eq_false_iff]
        exact fun hauth => h ⟨hto, remotePk, text, hauth, hsealed⟩
      cases c with
      | armDfu =>
        exact absurd ((harm rfl).1.symm.trans hstranger) Bool.noConfusion
      | admin payload =>
        exact carryOut_unauthorized (Option.filter_eq_some_iff.mp hkey).1 hstranger
  rw [hcarried]
  split <;> rw [hframe] <;> exact ⟨rfl, rfl, rfl⟩

end Inbox

end

/-! ## Runs -/

/-- The inbox on a clock that does not wrap, with the times of the key agreements. -/
structure Watch where
  inbox : Inbox
  now : Nat
  attempts : List Nat

inductive InboxEvent where
  | receive (r : Router) (packet : InboundPacket) (a : Routing.Answers) (peer : Option Key)
      (identity : NodeInfoIdentity)
  | wait (ms : Nat)
  | clearAdminConfigDirty
  | takePendingRebootSeconds
  | takePendingOtaDfuSeconds
  /-- the radio is reconfigured -/
  | setChannel (key : CryptoKey) (hash : UInt8)

/-- mirrors crates/mesh-routing/src/router.rs:508-518 -/
def Watch.next (P : Primitives) (sha256 : Bytes → Vector UInt8 32) (w : Watch) : InboxEvent → Watch
  | .receive r packet a peer identity =>
    let call := w.inbox.receive P sha256 r packet a peer identity (clock w.now)
    ⟨call.1, w.now, List.replicate call.2.2.2 w.now ++ w.attempts⟩
  | .wait ms => { w with now := w.now + ms }
  | .clearAdminConfigDirty =>
    { w with inbox := { w.inbox with admin := { w.inbox.admin with configDirty := false } } }
  | .takePendingRebootSeconds =>
    { w with inbox :=
      { w.inbox with admin := { w.inbox.admin with pendingRebootSeconds := none } } }
  | .takePendingOtaDfuSeconds => { w with inbox := { w.inbox with pendingOtaDfuSeconds := none } }
  | .setChannel key hash =>
    { w with inbox := { w.inbox with channelKey := key, channelHash := hash } }

/-- It begins at power-on, with no tries made. -/
def inboxLTS (P : Primitives) (sha256 : Bytes → Vector UInt8 32) : LTS Watch InboxEvent where
  init w := w.now = 0 ∧ w.attempts = [] ∧ w.inbox.pkiWorkWindowMs = 0 ∧ w.inbox.pkiWorkUsed = 0
  step w e w' := w' = w.next P sha256 e

/-- The administration is as it was, but for what the firmware has taken up since. -/
structure Kept (s t : Inbox) : Prop where
  nodeNum : t.nodeNum = s.nodeNum
  admin : t.admin = { s.admin with
    configDirty := t.admin.configDirty
    pendingRebootSeconds := t.admin.pendingRebootSeconds }
  dirty : t.admin.configDirty = true → s.admin.configDirty = true
  reboot : ∀ secs, t.admin.pendingRebootSeconds = some secs →
    s.admin.pendingRebootSeconds = some secs
  dfu : ∀ secs, t.pendingOtaDfuSeconds = some secs → s.pendingOtaDfuSeconds = some secs

theorem Kept.refl (s : Inbox) : Kept s s :=
  ⟨rfl, rfl, id, fun _ h => h, fun _ h => h⟩

section
variable {P : Primitives} {sha256 : Bytes → Vector UInt8 32} {s t : Inbox} {packet : InboundPacket}

/-- Who is an administrator, and for which key he seals, is kept. -/
theorem Kept.fromAdmin (h : Kept s t) : t.FromAdmin P packet ↔ s.FromAdmin P packet := by
  unfold Inbox.FromAdmin
  rw [h.nodeNum, h.admin]
  rfl

theorem Kept.step {w : Watch} {e : InboxEvent} (h : Kept s w.inbox)
    (he : ∀ r packet a peer identity, e = .receive r packet a peer identity →
      ¬s.FromAdmin P packet) :
    Kept s (w.next P sha256 e).inbox := by
  cases e with
  | receive r packet a peer identity =>
    have hforeign := he r packet a peer identity rfl
    rw [← h.fromAdmin] at hforeign
    obtain ⟨hnode, hadmin, hdfu⟩ := Inbox.receive_kept hforeign sha256 r a peer identity
      (clock w.now)
    have hsame : (w.next P sha256 (.receive r packet a peer identity)).inbox.admin =
      w.inbox.admin :=
      hadmin
    exact ⟨hnode.trans h.nodeNum, by rw [hsame]; exact h.admin, by rw [hsame]; exact h.dirty,
      by rw [hsame]; exact h.reboot, fun secs hsecs => h.dfu secs (hdfu.symm.trans hsecs)⟩
  | wait ms => exact h
  | clearAdminConfigDirty =>
    exact ⟨h.nodeNum, congrArg (fun admin => { admin with configDirty := false }) h.admin, nofun,
      h.reboot, h.dfu⟩
  | takePendingRebootSeconds =>
    exact ⟨h.nodeNum, congrArg (fun admin => { admin with pendingRebootSeconds := none }) h.admin,
      h.dirty, nofun, h.dfu⟩
  | takePendingOtaDfuSeconds => exact ⟨h.nodeNum, h.admin, h.dirty, h.reboot, nofun⟩
  | setChannel key hash => exact ⟨h.nodeNum, h.admin, h.dirty, h.reboot, h.dfu⟩

/-- A run in which no administrator has sealed a frame to us leaves the administration as it was:
whoever holds the key of the channel, and whatever else is received, in whatever order. -/
theorem administration_kept {w w' : Watch} {events : List InboxEvent}
    (hrun : (inboxLTS P sha256).Run w events w')
    (hforeign : ∀ r packet a peer identity, .receive r packet a peer identity ∈ events →
      ¬w.inbox.FromAdmin P packet) :
    Kept w.inbox w'.inbox := by
  refine (hrun.labels (I := fun v => Kept w.inbox v.inbox) (P := (· ∈ events)) (Q := fun _ => True)
    (fun v e v' hkept he hstep => ⟨?_, trivial⟩) (Kept.refl _) fun _ he => he).1
  cases hstep
  exact hkept.step fun r packet a peer identity heq => hforeign r packet a peer identity (heq ▸ he)

/-! Somebody on the channel of node 5 sends it a request, as if from an administrator. -/

/-- A node on an open channel, with the key of node 9 for an administrator. -/
def ownedInbox : Inbox where
  nodeNum := 5
  channelKey := .none
  channelHash := 8
  admin := { AdminState.new with
    privateKey := Crypto.rightPair.privateKey
    builtinOverride := some (Crypto.leftPair.publicKey, EMPTY_ADMIN_KEY) }
  adminReplyRemotePk := none
  adminReplyUsePki := false
  pendingPkiError := none
  pkiWorkWindowMs := 0
  pkiWorkUsed := 0
  pendingOtaDfuSeconds := none

def ownerAnswers : Routing.Answers := ⟨none, false, true, 0, 0, false, false, 0⟩

def openRouter : Router := .new 5 0 88397 1

def clearRequest : InboundPacket :=
  ⟨⟨5, 9, 78, 8, 3, 3, false, false, 0, 9⟩, [8, 6, 18, 2, 24, 1], 0, 10⟩

def clearEvent : InboxEvent :=
  .receive openRouter clearRequest ownerAnswers none ⟨.empty, EMPTY_ADMIN_KEY⟩

theorem administration_kept_clear :
    Kept ownedInbox (Watch.next Crypto.samplePrimitives (fun _ => padded _ []) ⟨ownedInbox, 40, []⟩
      clearEvent).inbox := by
  have hrun : (inboxLTS Crypto.samplePrimitives fun _ => padded _ []).Run ⟨ownedInbox, 40, []⟩
      [clearEvent] (Watch.next _ _ ⟨ownedInbox, 40, []⟩ clearEvent) := .cons rfl (.nil _)
  refine administration_kept hrun fun r packet a peer identity hmem => ?_
  rintro ⟨-, remotePk, text, -, extraNonce, hsealed⟩
  cases List.mem_singleton.mp hmem
  -- it is too short to be sealed
  have hlength := congrArg List.length hsealed
  rw [(Crypto.envelope_parts _ _ _ extraNonce text).1] at hlength
  change 6 = text.length + 12 at hlength
  omega

end

/-! ## How often a key is tried -/

/-- The tries of the inbox are a window of the attempts. -/
def Paces (s : Inbox) (now : Nat) (attempts : List Nat) : Prop :=
  ∃ g : Admitted, g.all = attempts ∧ Paced 1000 PKI_CURVE_ATTEMPTS_PER_SECOND.toNat g ∧
    clock g.start = s.pkiWorkWindowMs ∧ g.current.length = s.pkiWorkUsed.toNat ∧
    g.start ≤ now ∧ ∀ x ∈ g.current, x ≤ now

namespace Paces

variable {sha256 : Bytes → Vector UInt8 32} {s t : Inbox} {now : Nat} {attempts : List Nat}

theorem congr (h : Paces s now attempts) (hwindow : t.pkiWorkWindowMs = s.pkiWorkWindowMs)
    (hused : t.pkiWorkUsed = s.pkiWorkUsed) : Paces t now attempts := by
  unfold Paces
  rw [hwindow, hused]
  exact h

theorem wait (h : Paces s now attempts) (ms : Nat) : Paces s (now + ms) attempts := by
  obtain ⟨g, hall, hpaced, hstart, hused, hpast, hcurrent⟩ := h
  exact ⟨g, hall, hpaced, hstart, hused, Nat.le_add_right_of_le hpast,
    fun x hx => Nat.le_add_right_of_le (hcurrent x hx)⟩

theorem elapsed {start now : Nat} (hpast : start ≤ now)
    (h : 1000 ≤ clock now - clock start) : start + 1000 ≤ now := by
  have hdistance := clock_sub hpast
  have hmod := Nat.mod_le (now - start) CLOCK_PERIOD
  rw [UInt32.le_iff_toNat_le] at h
  change 1000 ≤ _ at h
  omega

/-- A second that is over begins anew. -/
theorem renewed (h : Paces s now attempts) :
    Paces (if 1000 ≤ clock now - s.pkiWorkWindowMs then
      { s with pkiWorkWindowMs := clock now, pkiWorkUsed := 0 } else s) now attempts := by
  split
  · rename_i hover
    obtain ⟨g, hall, hpaced, hstart, hused, hpast, hcurrent⟩ := h
    rw [← hstart] at hover
    exact ⟨g.renew now, by rw [Admitted.all, Admitted.renew, List.nil_append, hall],
      hpaced.renew (elapsed hpast hover) hcurrent, rfl, rfl, Nat.le_refl _,
      fun x hx => absurd hx List.not_mem_nil⟩
  · exact h

theorem allow (h : Paces s now attempts) :
    let call := s.allowPkiCurveAttempt (clock now)
    Paces call.2 now (if call.1 then now :: attempts else attempts) := by
  have hnew := h.renewed
  unfold Inbox.allowPkiCurveAttempt
  dsimp only
  generalize (if 1000 ≤ clock now - s.pkiWorkWindowMs then _ else s) = s at hnew ⊢
  split
  · exact hnew
  · rename_i hfew
    obtain ⟨g, rfl, hpaced, hstart, hused, hpast, hcurrent⟩ := hnew
    rw [UInt8.le_iff_toNat_le, Nat.not_le] at hfew
    have hlimit : PKI_CURVE_ATTEMPTS_PER_SECOND.toNat = 16 := rfl
    refine ⟨g.enter now, rfl, hpaced.enter (hused ▸ hfew) hpast, hstart, ?_, hpast,
      List.forall_mem_cons.mpr ⟨Nat.le_refl _, hcurrent⟩⟩
    change g.current.length + 1 = (s.pkiWorkUsed + 1).toNat
    rw [UInt8.toNat_add, hused]
    change _ = (_ + 1) % 256
    omega

theorem tryKeys (h : Paces s now attempts) (P : Primitives) (parsed : ParsedPacket) (cipher : Bytes)
    (keys : List Key) (engine : CryptoEngine) :
    let call := Inbox.tryKeys P parsed cipher (clock now) keys engine s
    Paces call.1 now (List.replicate call.2.2 now ++ attempts) := by
  induction keys generalizing engine s attempts with
  | nil => exact h
  | cons remotePk keys ih =>
    have hallow := h.allow
    unfold Inbox.tryKeys
    dsimp only
    generalize s.allowPkiCurveAttempt (clock now) = call at hallow ⊢
    obtain ⟨allowed, s⟩ := call
    cases allowed with
    | false => exact hallow
    | true =>
      -- the tries that follow, and this one
      have hnext (engine : CryptoEngine) :
          let next := (Inbox.tryKeys P parsed cipher (clock now) keys engine s).map id
            fun t => (t.1, t.2 + 1)
          Paces next.1 now (List.replicate next.2.2 now ++ attempts) := by
        change Paces _ now (List.replicate (_ + 1) now ++ attempts)
        rw [List.replicate_succ', List.append_assoc]
        exact ih hallow engine
      rw [Bool.not_true, if_neg Bool.false_ne_true]
      split
      · exact hnext _
      · split
        · exact hallow
        · exact hnext _

theorem decodePayload (h : Paces s now attempts) (P : Primitives) (parsed : ParsedPacket)
    (cipher : Bytes) (peer : Option Key) :
    let call := s.decodePayload P parsed cipher peer (clock now)
    Paces call.1 now (List.replicate call.2.2 now ++ attempts) := by
  unfold Inbox.decodePayload
  split
  · exact h
  · split
    · have htried := (h.congr (t := s.forgetKeyAndError) rfl rfl).tryKeys P parsed cipher
        (s.candidates peer) (CryptoEngine.new.setDhPrivateKey s.admin.privateKey)
      unfold Inbox.tryPkiDecrypt
      dsimp only
      generalize Inbox.tryKeys P parsed cipher _ _ _ _ = tried at htried ⊢
      cases tried.2.1 <;> exact htried.congr rfl rfl
    · exact h

theorem carryOut (h : Paces s now attempts) (identity : NodeInfoIdentity) (nowMs : UInt32)
    (command : Option Command) : Paces (s.carryOut sha256 identity nowMs command) now attempts := by
  unfold Inbox.carryOut
  split
  · exact h
  · exact h
  · split <;> exact h

theorem receive (h : Paces s now attempts) (P : Primitives) (r : Router) (packet : InboundPacket)
    (a : Routing.Answers) (peer : Option Key) (identity : NodeInfoIdentity) :
    let call := s.receive P sha256 r packet a peer identity (clock now)
    Paces call.1 now (List.replicate call.2.2.2 now ++ attempts) := by
  unfold Inbox.receive
  split
  · exact h
  · have hdecoded := h.decodePayload P packet.header.parse packet.payload peer
    dsimp only
    split
    · exact (hdecoded.carryOut identity _ _).congr rfl rfl
    · exact hdecoded.carryOut identity _ _

end Paces

section
variable {P : Primitives} {sha256 : Bytes → Vector UInt8 32}

theorem paces_inductive :
    (inboxLTS P sha256).Inductive fun w => Paces w.inbox w.now w.attempts where
  init w := by
    rintro ⟨-, hattempts, hwindow, hused⟩
    refine ⟨⟨0, [], []⟩, hattempts.symm, .new _ _ _, hwindow.symm, ?_, Nat.zero_le _,
      fun x hx => absurd hx List.not_mem_nil⟩
    rw [hused]
    rfl
  step w e w' h hstep := by
    cases hstep
    cases e with
    | receive r packet a peer identity => exact h.receive P r packet a peer identity
    | wait ms => exact h.wait ms
    | clearAdminConfigDirty => exact h
    | takePendingRebootSeconds => exact h
    | takePendingOtaDfuSeconds => exact h
    | setChannel key hash => exact h

/-- Whatever is received, the limiter admits no more than 32 tries to decrypt in a second, wherever
it begins: sixteen in each of two windows. The key agreements of our own replies are not tries. -/
theorem curve_tries_bounded {w : Watch} (h : (inboxLTS P sha256).Reachable w) (t : Nat) :
    spanCount 1000 t w.attempts ≤ 32 := by
  obtain ⟨g, hall, hpaced, -⟩ := paces_inductive.reachable h
  rw [← hall]
  exact hpaced.span_le t

/-- What AES makes of the blocks of the message. -/
def ownerBlocks : List (Bytes × Bytes) :=
  [([25, 77, 0, 0, 0, 43, 121, 106, 3, 9, 0, 0, 0, 0, 0, 10],
    [38, 19, 193, 111, 140, 145, 67, 214, 201, 143, 199, 132, 201, 208, 113, 95]),
   ([46, 21, 211, 109, 148, 144, 91, 215, 129, 141, 199, 132, 201, 208, 113, 95],
    [38, 110, 199, 11, 253, 203, 158, 216, 60, 164, 165, 208, 176, 3, 16, 5]),
   ([1, 77, 0, 0, 0, 43, 121, 106, 3, 9, 0, 0, 0, 0, 0, 0],
    [121, 125, 220, 105, 121, 207, 121, 16, 206, 249, 18, 47, 182, 129, 249, 145]),
   ([1, 77, 0, 0, 0, 43, 121, 106, 3, 9, 0, 0, 0, 0, 0, 1],
    [11, 193, 235, 168, 69, 76, 91, 236, 133, 134, 178, 126, 87, 77, 198, 126])]

def ownerPrimitives : Primitives :=
  { Crypto.samplePrimitives with
    aes := fun _ block => Store.padded _ ((ownerBlocks.lookup block.toList).getD []) }

/-- A message for node 5 under that secret. -/
def ownerFrame : Routing.Frame :=
  ⟨⟨5, 9, 77, 0, 3, 3, false, false, 0, 9⟩,
    [3, 199, 249, 170, 93, 77, 67, 237, 205, 132, 95, 19, 27, 98, 132, 4, 231, 200, 43, 121, 106,
      3]⟩

def ownerEvent : InboxEvent :=
  .receive openRouter ⟨ownerFrame.header, ownerFrame.payload, 0, 10⟩ ownerAnswers none
    ⟨.empty, EMPTY_ADMIN_KEY⟩

theorem curve_tries_bounded_owner :
    let w := (Watch.next ownerPrimitives (fun _ => padded _ []) ⟨ownedInbox, 0, []⟩ ownerEvent)
    w.attempts = [0] ∧ spanCount 1000 0 w.attempts ≤ 32 := by
  have hreach : (inboxLTS ownerPrimitives fun _ => padded _ []).Reachable
      (Watch.next _ _ ⟨ownedInbox, 0, []⟩ ownerEvent) :=
    ⟨⟨ownedInbox, 0, []⟩, [ownerEvent], ⟨rfl, rfl, rfl, rfl⟩, .cons rfl (.nil _)⟩
  exact ⟨by decide +kernel, curve_tries_bounded hreach 0⟩

end

end Meshrustic.Admin
