import Meshrustic.Admin.Direct
import Meshrustic.Admin.RoundTrip
import Meshrustic.Core.Recency

/-!
# Who the other nodes say they are (`mesh-routing/src/nodeinfo.rs:300-460`, `router.rs:3881-3908`)

A node announces its names, its role and its public key to the channel. A table of 16 rows keeps
what was announced last; a full table gives up the row of the node that was silent for longest. The
key in a row is one that is tried on what the node seals for us.

Results:
* `nodeinfo_reads`: what a node of the channel reads of an announcement;
* `identities_recalled`: what is known of a node, over any frames;
* `announced_key_opens`: an announcement that arrives, over any path, is enough for what its node
  seals for us later.
-/
namespace Meshrustic.Admin

open Meshrustic.Crypto (Primitives KeyPair Agree)
open Meshrustic.Protobuf (heapless unbounded)
open Meshrustic.RateLimit (NODEINFO_APP TRACEROUTE_APP NODENUM_BROADCAST)
open Meshrustic.Routing (ParsedPacket InboundPacket MAX_PACKET_PAYLOAD Frame ADMIN_APP lowByte)
open Meshrustic.Store (CryptoKey ADMIN_KEY_SLOTS)
open Meshrustic.Wire (BlockCipher DecodedData DataEncodeOpts decodeDataPayloadFull
  encodeDataPayloadOpts keyStream dataOf)

def MAX_NODEINFO_PEERS : Nat := 16

/-- mirrors crates/mesh-routing/src/nodeinfo.rs:302-307 -/
structure NodeInfoPeerEntry where
  nodeNum : UInt32
  identity : NodeInfoIdentity
  lastSeenMs : UInt32
  deriving DecidableEq, Repr

/-- mirrors crates/mesh-routing/src/nodeinfo.rs:309-312 -/
abbrev NodeInfoCache := Table MAX_NODEINFO_PEERS NodeInfoPeerEntry

namespace NodeInfoCache

/-- mirrors crates/mesh-routing/src/nodeinfo.rs:347-351 -/
def get (c : NodeInfoCache) (nodeNum : UInt32) : Option NodeInfoPeerEntry :=
  c.rows.find? fun e => e.nodeNum == nodeNum

/-- The flag says that the node is new to the table.
mirrors crates/mesh-routing/src/nodeinfo.rs:353-388 -/
def upsert (c : NodeInfoCache) (nodeNum : UInt32) (identity : NodeInfoIdentity) (nowMs : UInt32) :
    Bool × NodeInfoCache :=
  if nodeNum == 0 then (false, c)
  else
    (!c.rows.any fun e => e.nodeNum == nodeNum,
      c.renew NodeInfoPeerEntry.nodeNum (ageAt NodeInfoPeerEntry.lastSeenMs nowMs)
        ⟨nodeNum, identity, nowMs⟩)

end NodeInfoCache

/-- mirrors crates/mesh-routing/src/router.rs:1726-1735 -/
def isNodeinfoRequestForUs (parsed : ParsedPacket) (data : DecodedData) (ourNode : UInt32) : Bool :=
  parsed.fromNode != ourNode && data.portnum == NODEINFO_APP && data.wantResponse &&
    (parsed.toNode == ourNode || parsed.toNode == NODENUM_BROADCAST || data.dest == ourNode)

/-- mirrors crates/mesh-routing/src/router.rs:211-268 -/
structure Peers where
  nodeNum : UInt32
  nodeinfoCache : NodeInfoCache

namespace Peers

variable (s : Peers)

/-- `ours` says that we have transmitted the packet ourselves.
mirrors crates/mesh-routing/src/router.rs:3881-3908 -/
def processNodeinfoRx (parsed : ParsedPacket) (ours : Bool) (payload : Bytes) (nowMs : UInt32) :
    Peers :=
  if parsed.fromNode == 0 || parsed.fromNode == s.nodeNum then s
  else if ours then s
  else
    match decodeUser payload with
    | none => s
    | some identity =>
      { s with nodeinfoCache := (s.nodeinfoCache.upsert parsed.fromNode identity nowMs).2 }

/-- What is read of a frame taken as new. A request is answered, and not kept.
mirrors crates/mesh-routing/src/router.rs:1143-1158 -/
def dispatch (parsed : ParsedPacket) (ours : Bool) (read : Option (DecodedData × Bytes))
    (nowMs : UInt32) : Peers :=
  match read with
  | none => s
  | some (data, inner) =>
    if data.portnum == NODEINFO_APP then
      if isNodeinfoRequestForUs parsed data s.nodeNum then s
      else if inner.isEmpty then s
      else s.processNodeinfoRx parsed ours inner nowMs
    else s

/-- mirrors crates/mesh-routing/src/router.rs:796-798 -/
def nodeinfoPeer (nodeNum : UInt32) : Option NodeInfoIdentity :=
  (s.nodeinfoCache.get nodeNum).map (·.identity)

end Peers

/-! ## Announcements -/

/-- Before the frame is laid out in bytes.
mirrors crates/mesh-routing/src/nodeinfo.rs:443-482 -/
def buildNodeinfoFrame (E : BlockCipher) (toNode fromNode packetId : UInt32)
    (channelHash hopLimit : UInt8) (key : CryptoKey) (identity : NodeInfoIdentity)
    (dataOpts : DataEncodeOpts) : Option Frame :=
  let user := encodeUser heapless fromNode identity
  if user.isEmpty then none
  else
    Channel.buildAppWireFrame (keyStream E) toNode fromNode packetId channelHash hopLimit hopLimit
      false key (encodeDataPayloadOpts NODEINFO_APP user dataOpts).rows 0

/-- mirrors crates/mesh-routing/src/nodeinfo.rs:391-413 -/
def buildNodeinfoWireFrame (E : BlockCipher) (nodeNum packetId : UInt32)
    (channelHash hopLimit : UInt8)
    (key : CryptoKey) (identity : NodeInfoIdentity) (okToMqtt : Bool) : Option Frame :=
  buildNodeinfoFrame E NODENUM_BROADCAST nodeNum packetId channelHash hopLimit key identity
    { bitfield := .ours okToMqtt }

/-- mirrors crates/mesh-routing/src/nodeinfo.rs:415-441 -/
def buildNodeinfoReplyFrame (E : BlockCipher) (toNode fromNode packetId replyId : UInt32)
    (channelHash hopLimit : UInt8) (key : CryptoKey) (identity : NodeInfoIdentity)
    (okToMqtt : Bool) :
    Option Frame :=
  buildNodeinfoFrame E toNode fromNode packetId channelHash hopLimit key identity
    { wantResponse := false, replyId, requestId := 0, bitfield := .ours okToMqtt }

/-- What a node sends about itself: to everybody, or in reply to one. -/
inductive Announcement (E : BlockCipher) (key : CryptoKey) (channelHash : UInt8) (fromNode : UInt32)
    (identity : NodeInfoIdentity) (o : Frame) : Prop where
  | broadcast (packetId : UInt32) (hopLimit : UInt8) (okToMqtt : Bool)
      (h : buildNodeinfoWireFrame E fromNode packetId channelHash hopLimit key identity okToMqtt =
        some o)
  | reply (toNode packetId replyId : UInt32) (hopLimit : UInt8) (okToMqtt : Bool)
      (h : buildNodeinfoReplyFrame E toNode fromNode packetId replyId channelHash hopLimit key
        identity okToMqtt = some o)

section

variable {E : BlockCipher} {toNode fromNode packetId : UInt32} {channelHash hopLimit : UInt8}
variable {key : CryptoKey} {identity : NodeInfoIdentity} {opts : DataEncodeOpts} {o : Frame}

theorem length_encodeUser (nodeNum : UInt32) (identity : NodeInfoIdentity) :
    (encodeUser heapless nodeNum identity).length ≤ 108 := by
  rw [encodeUser_uncut]
  exact (user_fits nodeNum identity).room

/-- Whatever is announced fits a frame. -/
theorem userSize_le (nodeNum : UInt32) (identity : NodeInfoIdentity) (opts : DataEncodeOpts) :
    Wire.dataSize NODEINFO_APP (encodeUser heapless nodeNum identity) opts ≤
      MAX_PACKET_PAYLOAD := by
  have hinner := length_encodeUser nodeNum identity
  have hport := Protobuf.varintSize_le NODEINFO_APP
  have hlength :=
    Protobuf.varintSize_le (UInt32.ofNat (encodeUser heapless nodeNum identity).length)
  have hwant := opts.wantResponse.toNat_le
  have hid := (opts.requestId != 0).toNat_le
  have hreply := (opts.replyId != 0).toNat_le
  have hmax : MAX_PACKET_PAYLOAD = 239 := rfl
  unfold Wire.dataSize
  cases opts.bitfield with
  | ours ok =>
    dsimp only
    omega
  | origin bits =>
    cases bits with
    | none =>
      dsimp only
      omega
    | some v =>
      have hbits := Protobuf.varintSize_le v
      dsimp only
      omega

theorem nodeinfo_reads
    (h : buildNodeinfoFrame E toNode fromNode packetId channelHash hopLimit key identity opts =
      some o) :
    o.header = .fromFields toNode fromNode packetId channelHash hopLimit hopLimit false false 0
        (lowByte fromNode) ∧
      encodeUser heapless fromNode identity ≠ [] ∧
      dataOf E key channelHash o =
        some (opts.decoded NODEINFO_APP, encodeUser heapless fromNode identity) := by
  unfold buildNodeinfoFrame at h
  dsimp only at h
  split at h
  · cases h
  · rename_i hsome
    obtain ⟨hheader, -, hdata⟩ := Wire.appFrame_reads (userSize_le fromNode identity opts) h
    exact ⟨hheader, by simpa using hsome, hdata⟩

/-- What a node of the channel reads of an announcement. -/
theorem Announcement.reads (h : Announcement E key channelHash fromNode identity o) :
    o.header.fromNode = fromNode ∧ o.header.channel = channelHash ∧
      encodeUser heapless fromNode identity ≠ [] ∧ Wire.traceOf E key channelHash o = none ∧
      ∃ data, dataOf E key channelHash o = some (data, encodeUser heapless fromNode identity) ∧
        data.portnum = NODEINFO_APP ∧ data.wantResponse = false := by
  have hport : NODEINFO_APP ≠ TRACEROUTE_APP := by decide
  -- the flag of MQTT is not the one of a request
  have hbits (ok : Bool) :
      (Wire.oursBitfield ok false &&& Wire.DATA_BITFIELD_WANT_RESPONSE != 0) = false := by
    cases ok <;> rfl
  cases h with
  | broadcast packetId hopLimit ok h =>
    obtain ⟨hheader, hsome, hdata⟩ := nodeinfo_reads h
    refine ⟨by rw [hheader]; rfl, by rw [hheader]; rfl, hsome, Wire.traceOf_none hdata hport _, _,
      hdata, rfl, ?_⟩
    simp [DataEncodeOpts.decoded, DataEncodeOpts.sentBitfield, hbits]
  | reply toNode packetId replyId hopLimit ok h =>
    obtain ⟨hheader, hsome, hdata⟩ := nodeinfo_reads h
    refine ⟨by rw [hheader]; rfl, by rw [hheader]; rfl, hsome, Wire.traceOf_none hdata hport _, _,
      hdata, rfl, ?_⟩
    simp [DataEncodeOpts.decoded, DataEncodeOpts.sentBitfield, hbits]

end

/-! ## Runs -/

/-- A frame taken as new: `ours` says that we have transmitted it, `read` what is read of it. -/
structure Noticed where
  parsed : ParsedPacket
  ours : Bool
  read : Option (DecodedData × Bytes)
  time : Nat

namespace Noticed

/-- The frame announces its node to us. -/
def announces (myNode : UInt32) (e : Noticed) : Bool :=
  e.parsed.fromNode != 0 && e.parsed.fromNode != myNode && !e.ours &&
    e.read.any fun (data, inner) => data.portnum == NODEINFO_APP && !inner.isEmpty &&
      !isNodeinfoRequestForUs e.parsed data myNode

/-- The row for it. -/
def note (myNode : UInt32) (e : Noticed) : Option (NodeInfoPeerEntry × Nat) :=
  if e.announces myNode then
    (e.read.bind fun (_, inner) => decodeUser inner).map fun identity =>
      (⟨e.parsed.fromNode, identity, clock e.time⟩, e.time)
  else none

end Noticed

namespace Peers

def notice (s : Peers) (e : Noticed) : Peers := s.dispatch e.parsed e.ours e.read (clock e.time)

/-- The table after some notes. -/
def noted (s : Peers) (notes : List (NodeInfoPeerEntry × Nat)) : Peers :=
  { s with nodeinfoCache :=
      noteAll NodeInfoPeerEntry.nodeNum NodeInfoPeerEntry.lastSeenMs s.nodeinfoCache notes }

theorem notice_noted (s : Peers) (e : Noticed) :
    s.notice e = s.noted (e.note s.nodeNum).toList := by
  have hnil : s.noted [] = s := rfl
  obtain ⟨parsed, ours, read, time⟩ := e
  unfold notice dispatch Noticed.note Noticed.announces
  dsimp only
  rcases read with _ | ⟨data, inner⟩
  · simp [hnil]
  by_cases hport : data.portnum = NODEINFO_APP
  swap
  · simp [hport, hnil]
  by_cases hrequest : isNodeinfoRequestForUs parsed data s.nodeNum = true
  · simp [hrequest, hnil]
  by_cases hinner : inner.isEmpty = true
  · simp [hinner, hnil]
  by_cases hfrom : parsed.fromNode = 0
  · simp [processNodeinfoRx, hfrom, hnil]
  by_cases hus : parsed.fromNode = s.nodeNum
  · simp [processNodeinfoRx, hus, hnil]
  cases ours with
  | true => simp [processNodeinfoRx, hnil]
  | false =>
    cases hdecoded : decodeUser inner with
    | none => simp [processNodeinfoRx, hdecoded, hnil]
    | some identity =>
      simp [processNodeinfoRx, hport, hrequest, hinner, hfrom, hus, hdecoded, noted, noteAll,
        NodeInfoCache.upsert]

theorem noted_append (s : Peers) (ms ns : List (NodeInfoPeerEntry × Nat)) :
    s.noted (ms ++ ns) = (s.noted ms).noted ns := by
  simp [noted, noteAll]

def new (nodeNum : UInt32) : Peers := ⟨nodeNum, .empty⟩

/-- What is announced to us, in order. -/
def announcements (myNode : UInt32) (es : List Noticed) : List (NodeInfoPeerEntry × Nat) :=
  es.filterMap (Noticed.note myNode)

theorem notice_announcements (s : Peers) (es : List Noticed) :
    es.foldl notice s = s.noted (announcements s.nodeNum es) := by
  induction es generalizing s with
  | nil => rfl
  | cons e es ih =>
    rw [List.foldl_cons, ih, notice_noted]
    change (s.noted (e.note s.nodeNum).toList).noted (announcements s.nodeNum es) = _
    rw [← noted_append]
    cases hnote : e.note s.nodeNum <;> simp [announcements, hnote]

end Peers

/-- The frames are taken in order and within one turn of the clock. -/
structure NoticedInTime (es : List Noticed) : Prop where
  ordered : es.Pairwise fun a b => a.time ≤ b.time
  turn : ∀ a ∈ es, ∀ b ∈ es, b.time < a.time + CLOCK_PERIOD

section

variable {myNode : UInt32} {es : List Noticed} {e : Noticed} {m : NodeInfoPeerEntry × Nat}

theorem note_some (h : e.note myNode = some m) :
    m.2 = e.time ∧ m.1.lastSeenMs = clock e.time ∧ m.1.nodeNum = e.parsed.fromNode := by
  unfold Noticed.note at h
  split at h
  · obtain ⟨identity, -, rfl⟩ := Option.map_eq_some_iff.mp h
    exact ⟨rfl, rfl, rfl⟩
  · cases h

theorem announcements_inTime (h : NoticedInTime es) :
    InTime NodeInfoPeerEntry.lastSeenMs (Peers.announcements myNode es) where
  stamped m hm := by
    obtain ⟨e, -, he⟩ := List.mem_filterMap.mp hm
    obtain ⟨htime, hstamp, -⟩ := note_some he
    rw [hstamp, htime]
  ordered := by
    refine List.Pairwise.filterMap _ ?_ h.ordered
    intro a b hle m hm n hn
    rw [(note_some hm).1, (note_some hn).1]
    exact hle
  turn m hm n hn := by
    obtain ⟨a, ha, hm⟩ := List.mem_filterMap.mp hm
    obtain ⟨b, hb, hn⟩ := List.mem_filterMap.mp hn
    rw [(note_some hm).1, (note_some hn).1]
    exact h.turn a ha b hb

/-- An announcement is the last one as long as its node sends no other. -/
theorem lastNote_announcements {before after : List Noticed} (he : e.note myNode = some m)
    (hlast : ∀ x ∈ after, ∀ n, x.note myNode = some n → n.1.nodeNum ≠ m.1.nodeNum) :
    lastNote NodeInfoPeerEntry.nodeNum m.1.nodeNum
      (Peers.announcements myNode (before ++ e :: after)).reverse = some m := by
  have hskip : (Peers.announcements myNode after).reverse.find?
      (fun n => n.1.nodeNum == m.1.nodeNum) = none := by
    rw [List.find?_eq_none]
    intro n hn
    obtain ⟨x, hx, hxn⟩ := List.mem_filterMap.mp (List.mem_reverse.mp hn)
    simpa using hlast x hx n hxn
  rw [lastNote, Peers.announcements, List.filterMap_append, List.filterMap_cons_some he,
    List.reverse_append, List.reverse_cons, List.find?_append, List.find?_append]
  change (((Peers.announcements myNode after).reverse.find? _).or _).or _ = _
  rw [hskip]
  simp

end

/-- What is known of a node is what it announced last. It is known until 16 others have announced
themselves no earlier, as long as the clock has not turned. -/
theorem identities_recalled (myNode : UInt32) (es : List Noticed) (nodeNum : UInt32) :
    let known := (es.foldl Peers.notice (.new myNode)).nodeinfoCache.get nodeNum
    let log := (Peers.announcements myNode es).reverse
    (∀ entry, known = some entry →
        ∃ time, lastNote NodeInfoPeerEntry.nodeNum nodeNum log = some (entry, time)) ∧
      (NoticedInTime es → ∀ m, lastNote NodeInfoPeerEntry.nodeNum nodeNum log = some m →
        known = some m.1 ∨ Displaced NodeInfoPeerEntry.nodeNum MAX_NODEINFO_PEERS log nodeNum) := by
  intro known log
  have hrows : known =
      ((Peers.new myNode).noted (Peers.announcements myNode es)).nodeinfoCache.get nodeNum := by
    change (es.foldl Peers.notice (.new myNode)).nodeinfoCache.get nodeNum = _
    rw [Peers.notice_announcements]
    rfl
  rw [hrows]
  constructor
  · intro entry hentry
    exact (latestOf_notes (by decide) _).find_some hentry
  · intro htime m hm
    by_cases hlost : Displaced NodeInfoPeerEntry.nodeNum MAX_NODEINFO_PEERS log nodeNum
    · exact .inr hlost
    · exact .inl ((recalls_notes (by decide) (announcements_inTime htime)).find_kept hm hlost)

/-! Node 9 announces one key and then another, node 10 in between; meanwhile the clock turns. -/

def announcedBy (n : UInt32) (publicKey : Key) (time : Nat) : Noticed :=
  let header : Routing.PacketHeader := ⟨NODENUM_BROADCAST, n, 70, 8, 3, 3, false, false, 0, 9⟩
  ⟨header.parse, false, decodeDataPayloadFull (encodeDataPayloadOpts NODEINFO_APP
    (encodeUser heapless n ⟨.empty, publicKey⟩) {}).rows, time⟩

def announcedTwice : List Noticed :=
  [announcedBy 9 Crypto.rightPair.publicKey 4294967290,
    announcedBy 10 Crypto.rightPair.publicKey 4294967295,
    announcedBy 9 Crypto.leftPair.publicKey 4294967300]

theorem identities_recalled_twice :
    (announcedTwice.foldl Peers.notice (.new 5)).nodeinfoCache.get 9 =
      some ⟨9, ⟨.empty, Crypto.leftPair.publicKey⟩, 4⟩ := by
  have htime : NoticedInTime announcedTwice := ⟨by decide, by decide⟩
  have hlast : lastNote NodeInfoPeerEntry.nodeNum 9
      (Peers.announcements 5 announcedTwice).reverse =
        some (⟨9, ⟨.empty, Crypto.leftPair.publicKey⟩, 4⟩, 4294967300) := by
    decide +kernel
  rcases (identities_recalled 5 announcedTwice 9).2 htime _ hlast with hknown | hlost
  · exact hknown
  · have hlength := List.length_filterMap_le (Noticed.note 5) announcedTwice
    have hmany := hlost.length_lt
    rw [List.length_reverse] at hmany
    exact absurd (Nat.lt_of_lt_of_le hmany hlength) (by decide)

/-! ## The key that is announced -/

section

variable {P : Primitives} {s : Inbox} {pk : Key}

theorem length_candidatePkiKeys (s : AdminState) : s.candidatePkiKeys.length ≤ 5 := by
  have hkeys := List.length_filter_le (· != EMPTY_ADMIN_KEY) s.adminPublicKeys.toList
  rw [Vector.length_toList] at hkeys
  have hslots : ADMIN_KEY_SLOTS = 3 := rfl
  rw [AdminState.candidatePkiKeys, List.length_append]
  simp only [List.length_cons, List.length_nil]
  omega

/-- The key of a peer is tried after at most five keys of administrators. -/
theorem candidates_peer (hpk : Crypto.isZero pk = false) :
    ∃ before after, s.candidates (some pk) = before ++ pk :: after ∧ before.length ≤ 5 ∧
      ∀ k ∈ before, k ∈ s.admin.candidatePkiKeys ∧ k ≠ pk := by
  have hfive := length_candidatePkiKeys s.admin
  unfold Inbox.candidates
  dsimp only
  rw [hpk, Bool.not_false, Bool.true_and]
  by_cases hmem : pk ∈ s.admin.candidatePkiKeys
  · obtain ⟨before, after, hsplit, hfirst⟩ := List.eq_append_cons_of_mem hmem
    refine ⟨before, after, ?_, ?_, ?_⟩
    · simp [hsplit]
    · rw [hsplit, List.length_append] at hfive
      omega
    · intro k hk
      exact ⟨hsplit ▸ List.mem_append_left _ hk, fun heq => hfirst (heq ▸ hk)⟩
  · refine ⟨s.admin.candidatePkiKeys, [], ?_, hfive, ?_⟩
    · simp [hmem]
    · exact fun k hk => ⟨hk, fun heq => hmem (heq ▸ hk)⟩

/-- What a node of the channel makes of a frame. -/
def Noticed.ofFrame (E : BlockCipher) (key : CryptoKey) (channelHash : UInt8)
    (packet : InboundPacket) (time : Nat) : Noticed :=
  let parsed := packet.header.parse
  ⟨parsed, false, Wire.tryDecryptDataFull E key parsed.fromNode parsed.id channelHash parsed.channel
    packet.payload, time⟩

variable {E : BlockCipher} {key : CryptoKey} {channelHash : UInt8} {fromNode myNode : UInt32}
variable {identity : NodeInfoIdentity} {o : Frame}

/-- A copy of an announcement, over any path, is noted. -/
theorem Announcement.note (h : Announcement E key channelHash fromNode identity o)
    (hcanonical : identity.Canonical) (hfrom : fromNode ≠ 0) (hother : fromNode ≠ myNode)
    {air : List Frame} {path : List UInt32} {packet : InboundPacket}
    (hcarried : Routing.Carried (Wire.writesHop E key channelHash) air o path packet.heard)
    (time : Nat) :
    (Noticed.ofFrame E key channelHash packet time).note myNode =
      some (⟨fromNode, identity, clock time⟩, time) := by
  obtain ⟨hnode, -, hsome, hnone, data, hdata, hport, hanswer⟩ := h.reads
  have hsame := hcarried.samePacket
  have hsource : packet.header.fromNode = fromNode := (congrArg (·.1.1) hsame.packet).trans hnode
  have hread := Wire.dataOf_carried hnone hcarried
  rw [hdata] at hread
  have hdecoded : decodeUser (encodeUser heapless fromNode identity) = some identity := by
    rw [encodeUser_uncut]
    exact decodeUser_encode hcanonical fromNode
  generalize he : Noticed.ofFrame E key channelHash packet time = e
  have hnoted : e.read = some (data, encodeUser heapless fromNode identity) := he ▸ hread
  have hparsed : e.parsed.fromNode = fromNode := he ▸ hsource
  have hours : e.ours = false := he ▸ rfl
  have htime : e.time = time := he ▸ rfl
  have hannounces : e.announces myNode = true := by
    simp [Noticed.announces, isNodeinfoRequestForUs, hnoted, hparsed, hours, hfrom, hother, hport,
      hsome, hanswer]
  simp [Noticed.note, hannounces, hnoted, hdecoded, hparsed, htime]

end

/-- An empty key opens nothing. -/
theorem refuses_zero (P : Primitives) (privateKey : Key) (parsed : ParsedPacket) (cipher : Bytes)
    {k : Key} (hk : Crypto.isZero k = true) : Refuses P privateKey parsed cipher k := by
  intro engine _
  unfold Crypto.CryptoEngine.decryptCurve25519
  split
  · rfl
  · simp [Crypto.CryptoEngine.setDhPublicKey, hk]

/-- Once a node has announced a canonical identity over any path, within one turn of the clock, and
until it announces itself anew or is displaced by 16 others: what it seals for us, and our channel
does not read, is read as it was sent, over any path, and its key stands for it, as long as tries
are left and no key of an administrator opens what it did not seal. -/
theorem announced_key_opens {P : Primitives} {a b : KeyPair} (hagree : Agree P a b) {s : Inbox}
    (hours : s.admin.privateKey = b.privateKey) {fromNode : UInt32} (hfrom : fromNode ≠ 0)
    (hother : fromNode ≠ s.nodeNum) {identity : NodeInfoIdentity} (hcanonical : identity.Canonical)
    (hkey : identity.publicKey = a.publicKey)
    {o : Frame} (ho : Announcement P.aes s.channelKey s.channelHash fromNode identity o)
    {air : List Frame} {path : List UInt32} {packet : InboundPacket}
    (hcarried :
      Routing.Carried (Wire.writesHop P.aes s.channelKey s.channelHash) air o path packet.heard)
    {before after : List Noticed} {time : Nat} {es : List Noticed}
    (hes : es = before ++ .ofFrame P.aes s.channelKey s.channelHash packet time :: after)
    (hlast : ∀ e ∈ after, ∀ n, e.note s.nodeNum = some n → n.1.nodeNum ≠ fromNode)
    (htime : NoticedInTime es)
    (hkept : ¬Displaced NodeInfoPeerEntry.nodeNum MAX_NODEINFO_PEERS
      (Peers.announcements s.nodeNum es).reverse fromNode)
    {sha256 : Bytes → Vector UInt8 32} {secret : Key} {packetId portnum : UInt32}
    {hopLimit nextHop : UInt8} {inner : Bytes} {opts : DataEncodeOpts} {wantAck : Bool}
    {sealed : Frame}
    (hsealed : buildPkiAppFrame P sha256 a.privateKey secret s.nodeNum fromNode packetId hopLimit
      portnum inner opts b.publicKey wantAck nextHop = some sealed)
    (hclear : Wire.dataOf P.aes s.channelKey s.channelHash sealed = none) {air' : List Frame}
    {path' : List UInt32} {packet' : InboundPacket}
    (hcarried' :
      Routing.Carried (Wire.writesHop P.aes s.channelKey s.channelHash) air' sealed path'
        packet'.heard)
    (hrefuse : ∀ k ∈ s.admin.candidatePkiKeys, k ≠ a.publicKey → Crypto.isZero k = false →
      Refuses P b.privateKey packet'.header.parse sealed.payload k)
    (hfew : s.pkiWorkUsed.toNat + 5 < PKI_CURVE_ATTEMPTS_PER_SECOND.toNat) (nowMs : UInt32) :
    let peers := es.foldl Peers.notice (.new s.nodeNum)
    let peer := (peers.nodeinfoPeer packet'.header.fromNode).map (·.publicKey)
    let call := s.decodePayload P packet'.header.parse packet'.payload peer nowMs
    call.2.1 = some (opts.decoded portnum, inner) ∧ call.1.adminReplyRemotePk = some a.publicKey ∧
      call.1.adminReplyUsePki = true := by
  intro peers peer
  have hnote := ho.note hcanonical hfrom hother hcarried time
  have hlog : lastNote NodeInfoPeerEntry.nodeNum fromNode
    (Peers.announcements s.nodeNum es).reverse =
      some (⟨fromNode, identity, clock time⟩, time) := hes ▸ lastNote_announcements hnote hlast
  obtain ⟨hheader, -⟩ := buildPkiAppFrame_sealed hagree hsealed
  have hsource : packet'.header.fromNode = fromNode :=
    (congrArg (·.1.1) hcarried'.samePacket.packet).trans (congrArg (·.fromNode) hheader)
  have hknown : peers.nodeinfoCache.get fromNode = some ⟨fromNode, identity, clock time⟩ := by
    change (es.foldl Peers.notice (.new s.nodeNum)).nodeinfoCache.get fromNode = _
    rw [Peers.notice_announcements]
    exact (recalls_notes (by decide) (announcements_inTime htime)).find_kept hlog hkept
  have hpeer : peer = some a.publicKey := by
    change (peers.nodeinfoPeer packet'.header.fromNode).map _ = _
    rw [hsource, Peers.nodeinfoPeer, hknown, Option.map_some, Option.map_some, hkey]
  have hpk : Crypto.isZero a.publicKey = false := by
    have hnonzero := hagree.nonzero_left
    rw [KeyPair.nonzero, Bool.and_eq_true, Bool.not_eq_true', Bool.not_eq_true'] at hnonzero
    exact hnonzero.2
  obtain ⟨front, back, hkeys, hlength, hfront⟩ := candidates_peer (s := s) hpk
  have hshut : ∀ k ∈ front, Refuses P b.privateKey packet'.header.parse sealed.payload k := by
    intro k hk
    cases hempty : Crypto.isZero k with
    | true => exact refuses_zero P _ _ _ hempty
    | false => exact hrefuse k (hfront k hk).1 (hfront k hk).2 hempty
  rw [hpeer]
  exact (Inbox.decodePayload_carried hagree hours hsealed hcarried' hclear hkeys hshut
    (by omega) nowMs).1

/-! Node 9, which is no administrator, announces its key. -/

def strangerInbox : Inbox :=
  { ownedInbox with admin := { ownedInbox.admin with
      builtinOverride := some (EMPTY_ADMIN_KEY, EMPTY_ADMIN_KEY) } }

def announcedIdentity : NodeInfoIdentity := ⟨.empty, Crypto.leftPair.publicKey⟩

def announcedFrame : Frame :=
  ⟨⟨NODENUM_BROADCAST, 9, 70, 8, 3, 3, false, false, 0, 9⟩,
    (encodeDataPayloadOpts NODEINFO_APP (encodeUser heapless 9 announcedIdentity) {}).rows⟩

def announcedPacket : InboundPacket := ⟨announcedFrame.header, announcedFrame.payload, 0, 10⟩

def announcedEvent : Noticed :=
  .ofFrame ownerPrimitives.aes strangerInbox.channelKey strangerInbox.channelHash announcedPacket 30

def ownerPacket : InboundPacket := ⟨ownerFrame.header, ownerFrame.payload, 0, 10⟩

theorem announced_key_opens_owner :
    let peers := [announcedEvent].foldl Peers.notice (.new strangerInbox.nodeNum)
    let peer := (peers.nodeinfoPeer ownerPacket.header.fromNode).map (·.publicKey)
    (strangerInbox.decodePayload ownerPrimitives ownerPacket.header.parse ownerPacket.payload peer
      40).1.adminReplyRemotePk = some Crypto.leftPair.publicKey := by
  have hagree : Agree ownerPrimitives Crypto.leftPair Crypto.rightPair :=
    ⟨by decide, by decide, rfl, by decide⟩
  have hsealed : buildPkiAppFrame ownerPrimitives (fun _ => Store.padded _ [43, 121, 106, 3])
      Crypto.leftPair.privateKey EMPTY_ADMIN_KEY 5 9 77 3 ADMIN_APP ownerRequest
      { wantResponse := true, bitfield := .ours false } Crypto.rightPair.publicKey false 0 =
        some ownerFrame := by
    decide +kernel
  have hannounced :
      Announcement ownerPrimitives.aes strangerInbox.channelKey strangerInbox.channelHash 9
      announcedIdentity announcedFrame := .broadcast 70 3 false (by decide +kernel)
  have hcanonical : announcedIdentity.Canonical := ⟨⟨by decide, rfl⟩, ⟨by decide, rfl⟩⟩
  have hcarried : Routing.Carried
      (Wire.writesHop ownerPrimitives.aes strangerInbox.channelKey strangerInbox.channelHash) []
      announcedFrame [] announcedPacket.heard := .original
  have hcarried' : Routing.Carried
      (Wire.writesHop ownerPrimitives.aes strangerInbox.channelKey strangerInbox.channelHash) []
      ownerFrame [] ownerPacket.heard := .original
  have hfew : ¬Displaced NodeInfoPeerEntry.nodeNum MAX_NODEINFO_PEERS
      (Peers.announcements strangerInbox.nodeNum [announcedEvent]).reverse 9 := by
    intro hlost
    have hlength := List.length_filterMap_le (Noticed.note strangerInbox.nodeNum) [announcedEvent]
    have hmany := hlost.length_lt
    rw [List.length_reverse] at hmany
    exact absurd (Nat.lt_of_lt_of_le hmany hlength) (by decide)
  have hkeys : strangerInbox.admin.candidatePkiKeys = [EMPTY_ADMIN_KEY, EMPTY_ADMIN_KEY] := rfl
  have hrefuse : ∀ k ∈ strangerInbox.admin.candidatePkiKeys, k ≠ Crypto.leftPair.publicKey →
      Crypto.isZero k = false →
      Refuses ownerPrimitives Crypto.rightPair.privateKey ownerPacket.header.parse
        ownerFrame.payload
        k := by
    intro k hk _ hsome
    rw [hkeys] at hk
    have hempty : ∀ k ∈ [EMPTY_ADMIN_KEY, EMPTY_ADMIN_KEY], Crypto.isZero k = true := by decide
    simp [hempty k hk] at hsome
  have hes : [announcedEvent] = [] ++ .ofFrame ownerPrimitives.aes strangerInbox.channelKey
      strangerInbox.channelHash announcedPacket 30 :: [] := rfl
  have htime : NoticedInTime [announcedEvent] := ⟨by simp, by simp [CLOCK_PERIOD]⟩
  have hopens := announced_key_opens hagree (s := strangerInbox) rfl (by decide) (by decide)
    hcanonical rfl hannounced hcarried hes (by simp) htime hfew hsealed
    (sealed_unread _ _ hsealed (by decide)) hcarried' hrefuse (by decide) 40
  exact hopens.2.1

end Meshrustic.Admin
