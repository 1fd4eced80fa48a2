import Meshrustic.Core.Table
import Meshrustic.RateLimit.Bucket

/-!
# The rate limiter of a node (`mesh-routing/src/rate_limit.rs`)

`shouldDrop` charges a received packet to its destination, to its originator,
to the bucket of young nodes and to its relay, in this order; `wouldDrop` asks
the same tables without charging. The age and warm-up flags are `Cell`s in the
source and are set by queries too, so the queries return the limiter as well.

`window_ms` is a field of the source that nothing but the constructor writes;
here it is the constant `WINDOW_MS`.

Results: `shouldDrop_originators` says what a packet does to the table of
originators.
-/
namespace Meshrustic.RateLimit

open BucketState

def MAX_ORIGINATORS : Nat := 16
def MAX_RELAYS : Nat := 8
def MAX_YOUNG : Nat := 32
def MAX_ALUMNI : Nat := 128
def YOUNG_AGE_MS : UInt32 := 1800000
def WARMUP_MS : UInt32 := 1800000
def YOUNG_TRIP : UInt32 := 48
def YOUNG_CLEAR : UInt32 := 12
def ANNOUNCE_REFRACTORY_MS : UInt32 := 1800000
def ANNOUNCE_CHUTIL_HIGH : Float32 := 25.0
def ANNOUNCE_MAX_IDS : Nat := 4
def MAX_DESTS : Nat := 8
def DEST_TRIP : UInt32 := 20
def DEST_CLEAR : UInt32 := 5
def DEST_MIN_SENDERS : Nat := 3
def DEST_SENDER_SLOTS : Nat := 8
def THRESHOLD_TEXT : UInt32 := 30
def THRESHOLD_ROUTING : UInt32 := 10
def THRESHOLD_OTHER : UInt32 := 4
def THRESHOLD_UNKNOWN : UInt32 := 12
def RELAY_TRIP_PACKETS : Nat := 60
def RELAY_CLEAR_PACKETS : Nat := 15
def RELAY_REF_AIRTIME_MS : UInt32 := 100
def RELAY_TRIP_FLOOR_MS : Nat := 2000
def RELAY_TRIP_CEIL_MS : Nat := 12000
def RELAY_CLEAR_FLOOR_MS : Nat := 500
def RELAY_CLEAR_CEIL_MS : Nat := 4000
def NODENUM_BROADCAST : UInt32 := 0xFFFFFFFF
def TEXT_MESSAGE_APP : UInt32 := 1
def POSITION_APP : UInt32 := 3
def NODEINFO_APP : UInt32 := 4
def ROUTING_APP : UInt32 := 5
def TEXT_MESSAGE_COMPRESSED_APP : UInt32 := 7
def TELEMETRY_APP : UInt32 := 67
def TRACEROUTE_APP : UInt32 := 70
def SIGNAL_ROUTING_APP : UInt32 := 88

/-- mirrors crates/mesh-routing/src/rate_limit.rs:38-45 -/
def originatorClear (trip : UInt32) : UInt32 :=
  let clear := trip * 1 / 2
  if clear < 1 then 1 else clear

/-- mirrors crates/mesh-protocol/src/portnum.rs:18-24 -/
inductive RateLimitBucket where
  | text | routing | other | unknown
  deriving DecidableEq, Repr

/-- mirrors crates/mesh-protocol/src/portnum.rs:36-47 -/
def rateLimitBucket : Option UInt32 → RateLimitBucket
  | none => .unknown
  | some portnum =>
    if portnum == TEXT_MESSAGE_APP || portnum == TEXT_MESSAGE_COMPRESSED_APP then .text
    else if portnum == ROUTING_APP || portnum == SIGNAL_ROUTING_APP || portnum == TRACEROUTE_APP then
      .routing
    else .other

def RateLimitBucket.trip : RateLimitBucket → UInt32
  | .text => THRESHOLD_TEXT
  | .routing => THRESHOLD_ROUTING
  | .other => THRESHOLD_OTHER
  | .unknown => THRESHOLD_UNKNOWN

def RateLimitBucket.kind : RateLimitBucket → RateLimitKind
  | .text => .text
  | .routing => .routing
  | .other => .other
  | .unknown => .unknown

/-- mirrors crates/mesh-routing/src/graph/placeholder.rs:11-13 -/
def isPlaceholderNode (nodeId : UInt32) : Bool := nodeId &&& 0xFF000000 == 0xFF000000

/-! ## Rows -/

/-- mirrors crates/mesh-routing/src/rate_limit.rs:64-72 -/
structure OriginatorEntry where
  nodeId : UInt32
  lastSeenMs : UInt32
  text : BucketState
  routing : BucketState
  other : BucketState
  unknown : BucketState
  deriving DecidableEq, Repr

namespace OriginatorEntry

def new (nodeId nowMs : UInt32) : OriginatorEntry :=
  ⟨nodeId, nowMs, .fresh nowMs, .fresh nowMs, .fresh nowMs, .fresh nowMs⟩

def bucket (e : OriginatorEntry) : RateLimitBucket → BucketState
  | .text => e.text
  | .routing => e.routing
  | .other => e.other
  | .unknown => e.unknown

/-- `*bucket_mut(kind) = b` -/
def setBucket (e : OriginatorEntry) (b : BucketState) : RateLimitBucket → OriginatorEntry
  | .text => { e with text := b }
  | .routing => { e with routing := b }
  | .other => { e with other := b }
  | .unknown => { e with unknown := b }

end OriginatorEntry

structure RelayEntry where
  nodeId : UInt32
  relay : BucketState
  deriving DecidableEq, Repr

structure DestEntry where
  nodeId : UInt32
  dest : BucketState
  senders : Table DEST_SENDER_SLOTS UInt32
  deriving DecidableEq

structure YoungSighting where
  nodeId : UInt32
  firstSeenMs : UInt32
  graduated : Bool
  deriving DecidableEq, Repr

/-- mirrors crates/mesh-routing/src/rate_limit.rs:142-146 -/
structure YoungAnnounce where
  ids : List UInt32
  deriving DecidableEq, Repr

/-- mirrors crates/mesh-routing/src/rate_limit.rs:172-183 -/
structure RateLimitPacket where
  fromNode : UInt32
  toNode : UInt32
  decodedPortnum : Option UInt32
  nowMs : UInt32
  rebroadcastCandidate : Bool
  resolvedRelay : Option UInt32
  airtimeMs : UInt32
  channelUtilPct : Float32
  graphEstablished : Bool
  onDefaultChannel : Bool

structure GraphProximity where
  inGraph : Bool
  hops : UInt8

/-- mirrors crates/mesh-routing/src/rate_limit.rs:227-250 -/
structure NodeRateLimiter where
  nodeNum : UInt32
  enabled : Bool
  originators : Table MAX_ORIGINATORS OriginatorEntry
  relays : Table MAX_RELAYS RelayEntry
  unresolvedRelay : BucketState
  young : Table MAX_YOUNG YoungSighting
  alumni : Table MAX_ALUMNI UInt32
  youngBucket : BucketState
  dests : Table MAX_DESTS DestEntry
  bootMs : UInt32
  bootKnown : Bool
  bootWarmed : Bool
  announceBroadcast : Bool
  lastAnnounceMs : UInt32
  announceEver : Bool
  pendingAnnounce : Option YoungAnnounce
  lastEvent : Option RateLimitEvent
  deriving DecidableEq

/-- mirrors crates/mesh-routing/src/rate_limit.rs:299-386 -/
def NodeRateLimiter.withNodeNum (nodeNum : UInt32) : NodeRateLimiter where
  nodeNum
  enabled := true
  originators := .empty
  relays := .empty
  unresolvedRelay := .fresh 0
  young := .empty
  alumni := .empty
  youngBucket := .fresh 0
  dests := .empty
  bootMs := 0
  bootKnown := false
  bootWarmed := false
  announceBroadcast := false
  lastAnnounceMs := 0
  announceEver := false
  pendingAnnounce := none
  lastEvent := none

/-! ## Slots -/

/-- `(!in_graph, hops, age)`, compared as a tuple. -/
abbrev Rank := Bool × UInt8 × UInt32

def Rank.gt (a b : Rank) : Bool :=
  (a.1 && !b.1) || (a.1 == b.1 && (b.2.1 < a.2.1 || (a.2.1 == b.2.1 && b.2.2 < a.2.2)))

/-- The rows that are not limited, by their rank; the first of the best ones.
mirrors crates/mesh-routing/src/rate_limit.rs:1037-1059 -/
def evictionCandidate (entries : List (UInt32 × Bool × UInt32))
    (proximity : UInt32 → GraphProximity) : Option Nat :=
  (entries.zipIdx.foldl (fun (best : Option (Nat × Rank)) (e, i) =>
    let (id, limited, age) := e
    if limited then best
    else
      let rank : Rank := (!(proximity id).inGraph, (proximity id).hops, age)
      match best with
      | none => some (i, rank)
      | some (_, bestRank) => if rank.gt bestRank then some (i, rank) else best) none).map (·.1)

/-- A new row at the end, or in the place of the victim of a full table. -/
def slotFor {cap : Nat} {α : Type} (t : Table cap α) (row : α) (victim : Option Nat) :
    Option (Table cap α × Nat) :=
  match t.push row with
  | some t' => some (t', t.rows.length)
  | none => victim.map fun i => (t.set i row, i)

namespace NodeRateLimiter

/-- mirrors crates/mesh-routing/src/rate_limit.rs:1061-1065 -/
def findOriginator (l : NodeRateLimiter) (nodeId : UInt32) : Option Nat :=
  l.originators.rows.findIdx? (·.nodeId == nodeId)

def findRelay (l : NodeRateLimiter) (nodeId : UInt32) : Option Nat :=
  l.relays.rows.findIdx? (·.nodeId == nodeId)

def findDest (l : NodeRateLimiter) (nodeId : UInt32) : Option Nat :=
  l.dests.rows.findIdx? (·.nodeId == nodeId)

/-- One bucket of an originator, as a peek reads it. -/
def originatorBucketLimitedAt (l : NodeRateLimiter) (nodeId : UInt32) (bucket : RateLimitBucket)
    (nowMs : UInt32) : Bool :=
  match l.originators.rows.find? (·.nodeId == nodeId) with
  | none => false
  | some e => (e.bucket bucket).limitedAt nowMs (originatorClear bucket.trip)

/-- mirrors crates/mesh-routing/src/rate_limit.rs:1015-1027 -/
def originatorLimitedAt (l : NodeRateLimiter) (nodeId nowMs : UInt32) : Bool :=
  [RateLimitBucket.text, .routing, .other, .unknown].any fun b =>
    l.originatorBucketLimitedAt nodeId b nowMs

/-- mirrors crates/mesh-routing/src/rate_limit.rs:1029-1035 -/
def destVolumeLimitedAt (l : NodeRateLimiter) (nodeId nowMs : UInt32) : Bool :=
  match l.dests.rows.find? (·.nodeId == nodeId) with
  | none => false
  | some e => e.dest.limitedAt nowMs DEST_CLEAR

/-- mirrors crates/mesh-routing/src/rate_limit.rs:479-483 -/
def destVolumeLimited (l : NodeRateLimiter) (nodeId : UInt32) : Bool :=
  match l.dests.rows.find? (·.nodeId == nodeId) with
  | none => false
  | some e => e.dest.limited

/-- mirrors crates/mesh-routing/src/rate_limit.rs:1067-1083 -/
def findOriginatorEvictionCandidate (l : NodeRateLimiter) (nowMs : UInt32)
    (proximity : UInt32 → GraphProximity) : Option Nat :=
  evictionCandidate (l.originators.rows.map fun e =>
    (e.nodeId, l.originatorLimitedAt e.nodeId nowMs, nowMs - e.lastSeenMs)) proximity

/-- mirrors crates/mesh-routing/src/rate_limit.rs:1085-1123 -/
def getOrCreateOriginator (l : NodeRateLimiter) (nodeId nowMs : UInt32)
    (proximity : UInt32 → GraphProximity) : Option (NodeRateLimiter × Nat) :=
  match l.findOriginator nodeId with
  | some i =>
    (l.originators.rows[i]?).map fun e =>
      ({ l with originators := l.originators.set i { e with lastSeenMs := nowMs } }, i)
  | none =>
    (slotFor l.originators (.new nodeId nowMs) (l.findOriginatorEvictionCandidate nowMs proximity)).map
      fun r => ({ l with originators := r.1 }, r.2)

/-- mirrors crates/mesh-routing/src/rate_limit.rs:1131-1146 -/
def findRelayEvictionCandidate (l : NodeRateLimiter) (nowMs : UInt32)
    (proximity : UInt32 → GraphProximity) : Option Nat :=
  evictionCandidate (l.relays.rows.map fun e =>
    (e.nodeId, e.relay.limitedAt nowMs (UInt32.ofNat RELAY_CLEAR_FLOOR_MS),
      nowMs - e.relay.windowStartMs)) proximity

/-- mirrors crates/mesh-routing/src/rate_limit.rs:1148-1177 -/
def getOrCreateRelay (l : NodeRateLimiter) (nodeId nowMs : UInt32)
    (proximity : UInt32 → GraphProximity) : Option (NodeRateLimiter × Nat) :=
  match l.findRelay nodeId with
  | some i => some (l, i)
  | none =>
    (slotFor l.relays ⟨nodeId, .fresh nowMs⟩ (l.findRelayEvictionCandidate nowMs proximity)).map
      fun r => ({ l with relays := r.1 }, r.2)

/-- mirrors crates/mesh-routing/src/rate_limit.rs:1185-1198 -/
def findDestEvictionCandidate (l : NodeRateLimiter) (nowMs : UInt32)
    (proximity : UInt32 → GraphProximity) : Option Nat :=
  evictionCandidate (l.dests.rows.map fun e =>
    (e.nodeId, e.dest.limitedAt nowMs DEST_CLEAR, nowMs - e.dest.windowStartMs)) proximity

/-- mirrors crates/mesh-routing/src/rate_limit.rs:1200-1231 -/
def getOrCreateDest (l : NodeRateLimiter) (nodeId nowMs : UInt32)
    (proximity : UInt32 → GraphProximity) : Option (NodeRateLimiter × Nat) :=
  match l.findDest nodeId with
  | some i => some (l, i)
  | none =>
    (slotFor l.dests ⟨nodeId, .fresh nowMs, .empty⟩ (l.findDestEvictionCandidate nowMs proximity)).map
      fun r => ({ l with dests := r.1 }, r.2)

/-! ## Warm-up and young nodes -/

/-- mirrors crates/mesh-routing/src/rate_limit.rs:418-423 -/
def warmedUp (l : NodeRateLimiter) (nowMs : UInt32) : NodeRateLimiter × Bool :=
  let warmed := l.bootWarmed || (l.bootKnown && WARMUP_MS ≤ nowMs - l.bootMs)
  ({ l with bootWarmed := warmed }, warmed)

/-- mirrors crates/mesh-routing/src/rate_limit.rs:803-808 -/
def noteBoot (l : NodeRateLimiter) (nowMs : UInt32) : NodeRateLimiter :=
  if !l.bootKnown then { l with bootMs := nowMs, bootKnown := true } else l

/-- mirrors crates/mesh-routing/src/rate_limit.rs:844-849; the first
component is the sighting with its flag set. -/
def youngAgeActive (y : YoungSighting) (nowMs : UInt32) : YoungSighting × Bool :=
  let graduated := y.graduated || YOUNG_AGE_MS ≤ nowMs - y.firstSeenMs
  ({ y with graduated }, !graduated)

def findYoung (l : NodeRateLimiter) (nodeId : UInt32) : Option Nat :=
  l.young.rows.findIdx? (·.nodeId == nodeId)

def inAlumni (l : NodeRateLimiter) (nodeId : UInt32) : Bool := l.alumni.rows.contains nodeId

/-- mirrors crates/mesh-routing/src/rate_limit.rs:820-830 -/
def addAlumni (l : NodeRateLimiter) (nodeId : UInt32) : NodeRateLimiter × Bool :=
  if l.inAlumni nodeId then (l, true)
  else match l.alumni.push nodeId with
    | some alumni => ({ l with alumni }, true)
    | none => (l, false)

/-- mirrors crates/mesh-routing/src/rate_limit.rs:832-842 -/
def removeYoungAt (l : NodeRateLimiter) (i : Nat) : NodeRateLimiter :=
  { l with young := l.young.swapRemove i }

/-- mirrors crates/mesh-routing/src/rate_limit.rs:851-859 -/
def activeYoungCount (l : NodeRateLimiter) (nowMs : UInt32) : NodeRateLimiter × Nat :=
  ({ l with young := l.young.map fun y => (youngAgeActive y nowMs).1 },
    (l.young.rows.filter fun y => (youngAgeActive y nowMs).2).length)

/-- The first sighting that is no longer young; those before it are looked
at, those behind it are not. -/
def agedPosition (nowMs : UInt32) : List YoungSighting → Option Nat
  | [] => none
  | y :: ys => if !(youngAgeActive y nowMs).2 then some 0 else (agedPosition nowMs ys).map (· + 1)

/-- mirrors crates/mesh-routing/src/rate_limit.rs:861-865 -/
def findAgedYoung (l : NodeRateLimiter) (nowMs : UInt32) : NodeRateLimiter × Option Nat :=
  let position := agedPosition nowMs l.young.rows
  let looked := position.getD l.young.rows.length
  ({ l with young := ⟨l.young.rows.mapIdx fun i y =>
      if i ≤ looked then (youngAgeActive y nowMs).1 else y,
      by rw [List.length_mapIdx]; exact l.young.le⟩ }, position)

/-- mirrors crates/mesh-routing/src/rate_limit.rs:867-878 -/
def expireIfOld (l : NodeRateLimiter) (nodeId nowMs : UInt32) : NodeRateLimiter :=
  match l.findYoung nodeId with
  | none => l
  | some i =>
    match l.young.rows[i]? with
    | none => l
    | some y =>
      let (y, active) := youngAgeActive y nowMs
      let l := { l with young := l.young.set i y }
      if active then l
      else
        let (l, added) := l.addAlumni nodeId
        if added then l.removeYoungAt i else l

/-- mirrors crates/mesh-routing/src/rate_limit.rs:880-891 -/
def insertYoung (l : NodeRateLimiter) (nodeId nowMs : UInt32) : NodeRateLimiter :=
  match l.young.push ⟨nodeId, nowMs, false⟩ with
  | some young => { l with young }
  | none => l

/-- mirrors crates/mesh-routing/src/rate_limit.rs:893-914 -/
def noteOriginator (l : NodeRateLimiter) (nodeId nowMs : UInt32) : NodeRateLimiter :=
  let l := l.expireIfOld nodeId nowMs
  if (l.findYoung nodeId).isSome || l.inAlumni nodeId then l
  else
    let (l, warmed) := l.warmedUp nowMs
    if !warmed then (l.addAlumni nodeId).1
    else if l.young.rows.length < MAX_YOUNG then l.insertYoung nodeId nowMs
    else
      let (l, aged) := l.findAgedYoung nowMs
      match aged with
      | none => l
      | some i =>
        match l.young.rows[i]? with
        | none => l
        | some old => (((l.addAlumni old.nodeId).1).removeYoungAt i).insertYoung nodeId nowMs

/-- mirrors crates/mesh-routing/src/rate_limit.rs:916-924 -/
def isYoung (l : NodeRateLimiter) (nodeId nowMs : UInt32) : NodeRateLimiter × Bool :=
  match l.findYoung nodeId with
  | some i =>
    match l.young.rows[i]? with
    | none => (l, false)
    | some y =>
      let (y, active) := youngAgeActive y nowMs
      ({ l with young := l.young.set i y }, active)
  | none =>
    if l.inAlumni nodeId then (l, false)
    else
      let (l, n) := l.activeYoungCount nowMs
      (l, MAX_YOUNG ≤ n)

/-- mirrors crates/mesh-routing/src/rate_limit.rs:926-937 -/
def relayAnyLimited (l : NodeRateLimiter) (nowMs : UInt32) : Bool :=
  l.unresolvedRelay.limitedAt nowMs (UInt32.ofNat RELAY_CLEAR_FLOOR_MS) ||
    l.relays.rows.any fun e => e.relay.limitedAt nowMs (UInt32.ofNat RELAY_CLEAR_FLOOR_MS)

/-- The first `room` sightings that are still young, with every sighting that
was looked at. -/
def announceIds (nowMs : UInt32) : Nat → List YoungSighting → List YoungSighting × List UInt32
  | 0, ys => (ys, [])
  | _, [] => ([], [])
  | room + 1, y :: ys =>
    let (y, active) := youngAgeActive y nowMs
    let (ys, ids) := announceIds nowMs (if active then room else room + 1) ys
    (y :: ys, if active then y.nodeId :: ids else ids)

theorem announceIds_length (nowMs : UInt32) :
    ∀ (ys : List YoungSighting) (room : Nat), (announceIds nowMs room ys).1.length = ys.length
  | [], 0 => rfl
  | [], _ + 1 => rfl
  | _ :: _, 0 => rfl
  | y :: ys, room + 1 => by
    simp only [announceIds, List.length_cons]
    rw [announceIds_length nowMs ys]

/-- mirrors crates/mesh-routing/src/rate_limit.rs:939-969 -/
def maybeAnnounce (l : NodeRateLimiter) (nowMs : UInt32) (channelUtilPct : Float32) :
    NodeRateLimiter :=
  if l.relayAnyLimited nowMs || ANNOUNCE_CHUTIL_HIGH < channelUtilPct then l
  else if l.announceEver && nowMs - l.lastAnnounceMs < ANNOUNCE_REFRACTORY_MS then l
  else
    let r := announceIds nowMs ANNOUNCE_MAX_IDS l.young.rows
    { l with
      young := ⟨r.1, by rw [announceIds_length]; exact l.young.le⟩
      lastAnnounceMs := nowMs
      announceEver := true
      pendingAnnounce := some ⟨r.2⟩ }

/-! ## Charges -/

/-- mirrors crates/mesh-routing/src/rate_limit.rs:971-986 -/
def relayBudgets (airMs : UInt32) (channelUtilPct : Float32) : UInt32 × UInt32 :=
  let air := if airMs == 0 then RELAY_REF_AIRTIME_MS else airMs
  let baseTrip := min (RELAY_TRIP_PACKETS * air.toNat) 4294967295
  let scale : Float32 :=
    if 25.0 < channelUtilPct then
      let excess := (channelUtilPct - 25.0) / 25.0
      1.0 - 0.5 * (if excess < 1.0 then excess else 1.0)
    else 1.0
  let tripMs := (Float32.ofNat baseTrip * scale).toUInt32.toNat
  let tripMs := min (max tripMs RELAY_TRIP_FLOOR_MS) RELAY_TRIP_CEIL_MS
  let clearMs := tripMs * RELAY_CLEAR_PACKETS / RELAY_TRIP_PACKETS
  let clearMs := min (max clearMs RELAY_CLEAR_FLOOR_MS) RELAY_CLEAR_CEIL_MS
  (UInt32.ofNat tripMs, UInt32.ofNat clearMs)

def isUnicastDest (dest : UInt32) : Bool := dest != 0 && dest != NODENUM_BROADCAST

/-- mirrors crates/mesh-routing/src/rate_limit.rs:690-696 -/
def shouldDropToLimitedDest (l : NodeRateLimiter) (pkt : RateLimitPacket) : Bool :=
  if !pkt.onDefaultChannel || !isUnicastDest pkt.toNode then false
  else l.originatorLimitedAt pkt.toNode pkt.nowMs || l.destVolumeLimitedAt pkt.toNode pkt.nowMs

/-- mirrors crates/mesh-routing/src/rate_limit.rs:698-714 -/
def chargesDestVolume (pkt : RateLimitPacket) : Bool :=
  pkt.onDefaultChannel && isUnicastDest pkt.toNode && pkt.rebroadcastCandidate &&
    (pkt.decodedPortnum == some POSITION_APP || pkt.decodedPortnum == some NODEINFO_APP ||
      pkt.decodedPortnum == some TELEMETRY_APP)

/-- mirrors crates/mesh-routing/src/rate_limit.rs:720-725 -/
def rollDestSenders (e : DestEntry) (nowMs : UInt32) : DestEntry :=
  if WINDOW_MS ≤ (nowMs - e.dest.windowStartMs).toNat then { e with senders := .empty } else e

/-- mirrors crates/mesh-routing/src/rate_limit.rs:727-738 -/
def noteDestSender (e : DestEntry) (sender : UInt32) : DestEntry :=
  if sender == 0 || e.senders.rows.contains sender then e
  else match e.senders.push sender with
    | some senders => { e with senders }
    | none => e

/-- The charge of a destination row; a trip needs enough distinct senders. -/
def checkDest (l : NodeRateLimiter) (i : Nat) (e : DestEntry) (charge nowMs : UInt32) :
    NodeRateLimiter × Bool :=
  let trip := if e.dest.limited || DEST_MIN_SENDERS ≤ e.senders.rows.length then DEST_TRIP
    else 0xFFFFFFFF
  let (b, limited, event) := e.dest.checkAndUpdateBucket trip DEST_CLEAR charge nowMs e.nodeId .dest
  ({ l with dests := l.dests.set i { e with dest := b }, lastEvent := event.or l.lastEvent }, limited)

/-- mirrors crates/mesh-routing/src/rate_limit.rs:740-801 -/
def chargeDestVolume (l : NodeRateLimiter) (pkt : RateLimitPacket)
    (proximity : UInt32 → GraphProximity) : NodeRateLimiter × Bool :=
  if !isUnicastDest pkt.toNode || !pkt.onDefaultChannel then (l, false)
  else if chargesDestVolume pkt then
    match l.getOrCreateDest pkt.toNode pkt.nowMs proximity with
    | none => (l, l.destVolumeLimited pkt.toNode)
    | some (l, i) =>
      match l.dests.rows[i]? with
      | none => (l, false)
      | some e =>
        l.checkDest i (noteDestSender (rollDestSenders e pkt.nowMs) pkt.fromNode) 1 pkt.nowMs
  else
    match l.findDest pkt.toNode with
    | none => (l, l.destVolumeLimited pkt.toNode)
    | some i =>
      match l.dests.rows[i]? with
      | none => (l, false)
      | some e =>
        let l := (l.checkDest i (rollDestSenders e pkt.nowMs) 0 pkt.nowMs).1
        (l, l.destVolumeLimited pkt.toNode)

/-- mirrors crates/mesh-routing/src/rate_limit.rs:585-607 -/
def chargeOriginator (l : NodeRateLimiter) (pkt : RateLimitPacket)
    (proximity : UInt32 → GraphProximity) : NodeRateLimiter × Bool :=
  let bucket := rateLimitBucket pkt.decodedPortnum
  match l.getOrCreateOriginator pkt.fromNode pkt.nowMs proximity with
  | none => (l, false)
  | some (l, i) =>
    match l.originators.rows[i]? with
    | none => (l, false)
    | some e =>
      let (b, limited, event) := (e.bucket bucket).checkAndUpdateBucket bucket.trip
        (originatorClear bucket.trip) 1 pkt.nowMs pkt.fromNode bucket.kind
      ({ l with
          originators := l.originators.set i (e.setBucket b bucket)
          lastEvent := event.or l.lastEvent }, limited)

/-- Whether the packet counts as one of a young node; asked only of decoded
packets and after the warm-up. -/
def countsAsYoung (l : NodeRateLimiter) (pkt : RateLimitPacket) : NodeRateLimiter × Bool :=
  if rateLimitBucket pkt.decodedPortnum == .unknown then (l, false)
  else
    let (l, warmed) := l.warmedUp pkt.nowMs
    if warmed then l.isYoung pkt.fromNode pkt.nowMs else (l, false)

/-- mirrors crates/mesh-routing/src/rate_limit.rs:609-630 -/
def chargeYoung (l : NodeRateLimiter) (pkt : RateLimitPacket) : NodeRateLimiter × Bool :=
  let (l, young) := l.countsAsYoung pkt
  if !young then (l, false)
  else
    let (b, limited, event) :=
      l.youngBucket.checkAndUpdateBucket YOUNG_TRIP YOUNG_CLEAR 1 pkt.nowMs 0 .young
    let l := { l with youngBucket := b, lastEvent := event.or l.lastEvent }
    if event == some (.trip 0 .young) then
      (l.maybeAnnounce pkt.nowMs pkt.channelUtilPct, limited)
    else (l, limited)

/-- A relay that the graph can name. -/
def knownRelay (l : NodeRateLimiter) (pkt : RateLimitPacket) : Option UInt32 :=
  pkt.resolvedRelay.filter fun id => id != 0 && id != l.nodeNum && !isPlaceholderNode id

/-- mirrors crates/mesh-routing/src/rate_limit.rs:632-687 -/
def chargeRelay (l : NodeRateLimiter) (pkt : RateLimitPacket)
    (proximity : UInt32 → GraphProximity) : NodeRateLimiter × Bool :=
  let airMs := if pkt.airtimeMs == 0 then RELAY_REF_AIRTIME_MS else pkt.airtimeMs
  let (tripMs, clearMs) := relayBudgets airMs pkt.channelUtilPct
  let u := l.unresolvedRelay
  let l := if u.windowStartMs == 0 && u.count == 0 && !u.limited then
      { l with unresolvedRelay := { u with windowStartMs := pkt.nowMs } }
    else l
  match l.knownRelay pkt with
  | some resolved =>
    match l.getOrCreateRelay resolved pkt.nowMs proximity with
    | none => (l, false)
    | some (l, i) =>
      match l.relays.rows[i]? with
      | none => (l, false)
      | some e =>
        let (b, limited, event) :=
          e.relay.checkAndUpdateBucket tripMs clearMs airMs pkt.nowMs e.nodeId .relay
        ({ l with
            relays := l.relays.set i { e with relay := b }
            lastEvent := event.or l.lastEvent }, limited)
  | none =>
    if pkt.graphEstablished then
      let (b, limited, event) :=
        l.unresolvedRelay.checkAndUpdateBucket tripMs clearMs airMs pkt.nowMs 0 .relayUnresolved
      ({ l with unresolvedRelay := b, lastEvent := event.or l.lastEvent }, limited)
    else (l, false)

/-! ## The two entry points -/

/-- A packet that the limiter does not look at. -/
def ignores (l : NodeRateLimiter) (pkt : RateLimitPacket) : Bool :=
  !l.enabled || pkt.fromNode == 0 || pkt.fromNode == l.nodeNum || pkt.toNode == l.nodeNum

/-- What `should_drop` does to a packet that no destination ban drops. -/
def chargeSource (l : NodeRateLimiter) (pkt : RateLimitPacket)
    (proximity : UInt32 → GraphProximity) : NodeRateLimiter × Bool :=
  let decoded := rateLimitBucket pkt.decodedPortnum != .unknown
  let l := if decoded then l.noteOriginator pkt.fromNode pkt.nowMs else l
  let (l, byOriginator) := l.chargeOriginator pkt proximity
  let (l, byYoung) := l.chargeYoung pkt
  let drop := byOriginator || byYoung
  if pkt.rebroadcastCandidate && !drop then l.chargeRelay pkt proximity else (l, drop)

/-- `should_drop` up to the charge of the destination. -/
def chargedDest (l : NodeRateLimiter) (pkt : RateLimitPacket)
    (proximity : UInt32 → GraphProximity) : NodeRateLimiter × Bool :=
  ({ l with lastEvent := none }.noteBoot pkt.nowMs).chargeDestVolume pkt proximity

/-- mirrors crates/mesh-routing/src/rate_limit.rs:538-688 -/
def shouldDrop (l : NodeRateLimiter) (pkt : RateLimitPacket)
    (proximity : UInt32 → GraphProximity) : NodeRateLimiter × Bool :=
  if l.ignores pkt then ({ l with lastEvent := none }, false)
  else
    let r := l.chargedDest pkt proximity
    if r.2 || r.1.shouldDropToLimitedDest pkt then
      match r.1.lastEvent with
      | some (.trip _ .dest) => (r.1, true)
      | _ => ({ r.1 with lastEvent := some (.destDrop pkt.toNode) }, true)
    else r.1.chargeSource pkt proximity

/-- The relay bucket of a packet, as a peek reads it. -/
def relayLimitedAt (l : NodeRateLimiter) (pkt : RateLimitPacket) : Bool :=
  match l.knownRelay pkt with
  | some id =>
    match l.relays.rows.find? (·.nodeId == id) with
    | none => false
    | some e => e.relay.limitedAt pkt.nowMs (UInt32.ofNat RELAY_CLEAR_FLOOR_MS)
  | none =>
    pkt.graphEstablished &&
      l.unresolvedRelay.limitedAt pkt.nowMs (UInt32.ofNat RELAY_CLEAR_FLOOR_MS)

/-- mirrors crates/mesh-routing/src/rate_limit.rs:485-536 -/
def wouldDrop (l : NodeRateLimiter) (pkt : RateLimitPacket) : NodeRateLimiter × Bool :=
  if l.ignores pkt then (l, false)
  else if l.shouldDropToLimitedDest pkt then (l, true)
  else
    let bucket := rateLimitBucket pkt.decodedPortnum
    if l.originatorBucketLimitedAt pkt.fromNode bucket pkt.nowMs then (l, true)
    else
      let (l, young) := l.countsAsYoung pkt
      if young && l.youngBucket.limitedAt pkt.nowMs YOUNG_CLEAR then (l, true)
      else if !pkt.rebroadcastCandidate then (l, false)
      else (l, l.relayLimitedAt pkt)

/-! ## The table of originators

Everything but `chargeOriginator` leaves the originators alone. -/

section

variable (l : NodeRateLimiter) (nodeId nowMs : UInt32) (pkt : RateLimitPacket)
  (proximity : UInt32 → GraphProximity)

theorem noteBoot_originators : (l.noteBoot nowMs).originators = l.originators := by
  unfold noteBoot
  split <;> rfl

theorem addAlumni_originators : (l.addAlumni nodeId).1.originators = l.originators := by
  unfold addAlumni
  split
  · rfl
  · split <;> rfl

theorem insertYoung_originators : (l.insertYoung nodeId nowMs).originators = l.originators := by
  unfold insertYoung
  split <;> rfl

theorem expireIfOld_originators : (l.expireIfOld nodeId nowMs).originators = l.originators := by
  unfold expireIfOld
  split
  · rfl
  · split
    · rfl
    · dsimp only
      split
      · rfl
      · split
        · exact addAlumni_originators _ _
        · exact addAlumni_originators _ _

theorem noteOriginator_originators :
    (l.noteOriginator nodeId nowMs).originators = l.originators := by
  rw [← expireIfOld_originators l nodeId nowMs]
  unfold noteOriginator
  dsimp only
  split
  · rfl
  · split
    · exact addAlumni_originators _ _
    · split
      · exact insertYoung_originators _ _ _
      · split
        · rfl
        · split
          · rfl
          · rw [insertYoung_originators]
            exact addAlumni_originators _ _

theorem isYoung_originators : (l.isYoung nodeId nowMs).1.originators = l.originators := by
  unfold isYoung
  split
  · split <;> rfl
  · split <;> rfl

theorem maybeAnnounce_originators (util : Float32) :
    (l.maybeAnnounce nowMs util).originators = l.originators := by
  unfold maybeAnnounce
  split
  · rfl
  · split <;> rfl

theorem countsAsYoung_originators : (l.countsAsYoung pkt).1.originators = l.originators := by
  unfold countsAsYoung
  dsimp only
  split
  · rfl
  · split
    · exact isYoung_originators _ _ _
    · rfl

theorem chargeYoung_originators : (l.chargeYoung pkt).1.originators = l.originators := by
  rw [← countsAsYoung_originators l pkt]
  unfold chargeYoung
  dsimp only
  split
  · rfl
  · split
    · exact maybeAnnounce_originators _ _ _
    · rfl

theorem getOrCreateDest_originators {r : NodeRateLimiter × Nat}
    (h : l.getOrCreateDest nodeId nowMs proximity = some r) :
    r.1.originators = l.originators := by
  unfold getOrCreateDest at h
  split at h
  · cases h; rfl
  · obtain ⟨q, -, rfl⟩ := Option.map_eq_some_iff.mp h
    rfl

theorem getOrCreateRelay_originators {r : NodeRateLimiter × Nat}
    (h : l.getOrCreateRelay nodeId nowMs proximity = some r) :
    r.1.originators = l.originators := by
  unfold getOrCreateRelay at h
  split at h
  · cases h; rfl
  · obtain ⟨q, -, rfl⟩ := Option.map_eq_some_iff.mp h
    rfl

theorem chargeDestVolume_originators :
    (l.chargeDestVolume pkt proximity).1.originators = l.originators := by
  unfold chargeDestVolume
  split
  · rfl
  · split
    · split
      · rfl
      · rename_i h
        rw [← getOrCreateDest_originators _ _ _ _ h]
        split <;> rfl
    · split
      · rfl
      · split <;> rfl

theorem chargeRelay_originators :
    (l.chargeRelay pkt proximity).1.originators = l.originators := by
  have hinit : (if l.unresolvedRelay.windowStartMs == 0 && l.unresolvedRelay.count == 0 &&
      !l.unresolvedRelay.limited then
        { l with unresolvedRelay := { l.unresolvedRelay with windowStartMs := pkt.nowMs } }
      else l).originators = l.originators := by
    split <;> rfl
  rw [← hinit]
  unfold chargeRelay
  dsimp only
  split
  · split
    · rfl
    · rename_i h
      rw [← getOrCreateRelay_originators _ _ _ _ h]
      split <;> rfl
  · split <;> rfl

theorem chargeSource_originators :
    ∃ m : NodeRateLimiter, m.originators = l.originators ∧
      (l.chargeSource pkt proximity).1.originators =
        (m.chargeOriginator pkt proximity).1.originators := by
  have hnote : (if rateLimitBucket pkt.decodedPortnum != .unknown then
      l.noteOriginator pkt.fromNode pkt.nowMs else l).originators = l.originators := by
    split
    · exact noteOriginator_originators _ _ _
    · rfl
  refine ⟨_, hnote, ?_⟩
  unfold chargeSource
  dsimp only
  generalize (if rateLimitBucket pkt.decodedPortnum != .unknown then
    l.noteOriginator pkt.fromNode pkt.nowMs else l).chargeOriginator pkt proximity = r
  split
  · rw [chargeRelay_originators, chargeYoung_originators]
  · exact chargeYoung_originators _ _

/-- The packet is charged to its originator: it is looked at, and no
destination ban drops it. -/
def reachesSource : Bool :=
  let r := l.chargedDest pkt proximity
  !l.ignores pkt && !(r.2 || r.1.shouldDropToLimitedDest pkt)

/-- What a packet does to the originators. -/
theorem shouldDrop_originators :
    ∃ m : NodeRateLimiter, m.originators = l.originators ∧
      (l.shouldDrop pkt proximity).1.originators =
        if l.reachesSource pkt proximity then (m.chargeOriginator pkt proximity).1.originators
        else l.originators := by
  have hdest : (l.chargedDest pkt proximity).1.originators = l.originators := by
    unfold chargedDest
    rw [chargeDestVolume_originators, noteBoot_originators]
  unfold shouldDrop reachesSource
  dsimp only
  generalize l.chargedDest pkt proximity = r at hdest ⊢
  cases l.ignores pkt with
  | true => exact ⟨l, rfl, rfl⟩
  | false =>
    by_cases hdrop : (r.2 || r.1.shouldDropToLimitedDest pkt) = true
    · refine ⟨l, rfl, ?_⟩
      simp only [hdrop, Bool.not_true, Bool.and_false, Bool.false_eq_true, if_false, if_true]
      split <;> exact hdest
    · obtain ⟨m, hm, hcharge⟩ := chargeSource_originators r.1 pkt proximity
      refine ⟨m, hm.trans hdest, ?_⟩
      simp only [hdrop, Bool.not_false, Bool.and_true, Bool.false_eq_true, if_false, if_true]
      exact hcharge

end

/-! ## One originator -/

/-- The row of an originator. -/
def originator (l : NodeRateLimiter) (nodeId : UInt32) : Option OriginatorEntry :=
  lookup OriginatorEntry.nodeId l.originators.rows nodeId

/-- Each originator has one row. -/
def Distinct (l : NodeRateLimiter) : Prop :=
  (l.originators.rows.map OriginatorEntry.nodeId).Nodup

/-- The charge of a packet to a row. -/
def checkRow (e : OriginatorEntry) (pkt : RateLimitPacket) :
    BucketState × Bool × Option RateLimitEvent :=
  let bucket := rateLimitBucket pkt.decodedPortnum
  (e.bucket bucket).checkAndUpdateBucket bucket.trip (originatorClear bucket.trip) 1 pkt.nowMs
    pkt.fromNode bucket.kind

/-- The row after the charge. -/
def chargedRow (e : OriginatorEntry) (pkt : RateLimitPacket) : OriginatorEntry :=
  { e with lastSeenMs := pkt.nowMs }.setBucket (checkRow e pkt).1 (rateLimitBucket pkt.decodedPortnum)

theorem setBucket_nodeId (e : OriginatorEntry) (b : BucketState) (k : RateLimitBucket) :
    (e.setBucket b k).nodeId = e.nodeId := by
  cases k <;> rfl

theorem bucket_setBucket (e : OriginatorEntry) (b : BucketState) (k k' : RateLimitBucket) :
    (e.setBucket b k).bucket k' = if k' = k then b else e.bucket k' := by
  cases k <;> cases k' <;> rfl

theorem bucket_chargedRow (e : OriginatorEntry) (pkt : RateLimitPacket) (k : RateLimitBucket) :
    (chargedRow e pkt).bucket k =
      if k = rateLimitBucket pkt.decodedPortnum then (checkRow e pkt).1 else e.bucket k := by
  unfold chargedRow
  rw [bucket_setBucket]
  cases k <;> rfl

theorem chargedRow_nodeId (e : OriginatorEntry) (pkt : RateLimitPacket) :
    (chargedRow e pkt).nodeId = e.nodeId :=
  setBucket_nodeId _ _ _

/-- `chargeOriginator` once the row is there. -/
theorem charge_row (e : OriginatorEntry) (pkt : RateLimitPacket) :
    { e with lastSeenMs := pkt.nowMs }.setBucket
        ((({ e with lastSeenMs := pkt.nowMs } : OriginatorEntry).bucket
            (rateLimitBucket pkt.decodedPortnum)).checkAndUpdateBucket
          (rateLimitBucket pkt.decodedPortnum).trip
          (originatorClear (rateLimitBucket pkt.decodedPortnum).trip) 1 pkt.nowMs pkt.fromNode
          (rateLimitBucket pkt.decodedPortnum).kind).1 (rateLimitBucket pkt.decodedPortnum) =
      chargedRow e pkt := by
  unfold chargedRow checkRow
  cases rateLimitBucket pkt.decodedPortnum <;> rfl

/-- A charge to a row that is there. -/
theorem chargeOriginator_found {l : NodeRateLimiter} {pkt : RateLimitPacket}
    {proximity : UInt32 → GraphProximity} {i : Nat} {e : OriginatorEntry}
    (hfind : l.findOriginator pkt.fromNode = some i) (he : l.originators.rows[i]? = some e) :
    (l.chargeOriginator pkt proximity).1.originators.rows =
        l.originators.rows.set i (chargedRow e pkt) ∧
      (l.chargeOriginator pkt proximity).2 = (checkRow e pkt).2.1 := by
  obtain ⟨hi, -⟩ := List.getElem?_eq_some_iff.mp he
  have hrow : (l.originators.rows.set i { e with lastSeenMs := pkt.nowMs })[i]? =
      some { e with lastSeenMs := pkt.nowMs } := by
    rw [List.getElem?_set]
    simp [hi]
  unfold chargeOriginator getOrCreateOriginator
  simp only [hfind, he, Option.map_some, Table.set_rows, hrow, List.set_set]
  constructor
  · rw [charge_row]
  · unfold checkRow
    cases rateLimitBucket pkt.decodedPortnum <;> rfl

/-- A charge to a row that has to be made. -/
theorem chargeOriginator_new {l : NodeRateLimiter} {pkt : RateLimitPacket}
    {proximity : UInt32 → GraphProximity} (hfind : l.findOriginator pkt.fromNode = none) :
    (l.chargeOriginator pkt proximity).1.originators.rows = l.originators.rows ∨
      (((l.chargeOriginator pkt proximity).1.originators.rows =
          l.originators.rows ++ [chargedRow (.new pkt.fromNode pkt.nowMs) pkt] ∨
        ∃ i, i < l.originators.rows.length ∧
          (l.chargeOriginator pkt proximity).1.originators.rows =
            l.originators.rows.set i (chargedRow (.new pkt.fromNode pkt.nowMs) pkt)) ∧
        (l.chargeOriginator pkt proximity).2 =
          (checkRow (.new pkt.fromNode pkt.nowMs) pkt).2.1) := by
  unfold chargeOriginator getOrCreateOriginator slotFor
  simp only [hfind]
  cases hpush : l.originators.push (.new pkt.fromNode pkt.nowMs) with
  | some t =>
    have hrows := Table.push_rows hpush
    right
    simp only [Option.map_some, hrows, Table.set_rows, List.getElem?_concat_length,
      List.set_append_right _ _ (Nat.le_refl _), Nat.sub_self, List.set_cons_zero]
    exact ⟨.inl (congrArg (l.originators.rows ++ [·]) (charge_row (.new pkt.fromNode pkt.nowMs) pkt)),
      rfl⟩
  | none =>
    cases l.findOriginatorEvictionCandidate pkt.nowMs proximity with
    | none => exact .inl rfl
    | some i =>
      simp only [Option.map_some, Table.set_rows]
      by_cases hi : i < l.originators.rows.length
      · have hrow : (l.originators.rows.set i (.new pkt.fromNode pkt.nowMs))[i]? =
            some (.new pkt.fromNode pkt.nowMs) := by
          rw [List.getElem?_set]
          simp [hi]
        rw [hrow]
        simp only [Table.set_rows, List.set_set]
        exact .inr ⟨.inr ⟨i, hi, congrArg (l.originators.rows.set i)
          (charge_row (.new pkt.fromNode pkt.nowMs) pkt)⟩, rfl⟩
      · have hset : l.originators.rows.set i (.new pkt.fromNode pkt.nowMs) = l.originators.rows :=
          List.set_eq_of_length_le (Nat.le_of_not_lt hi)
        have hrow : l.originators.rows[i]? = none := List.getElem?_eq_none (Nat.le_of_not_lt hi)
        rw [hset, hrow]
        exact .inl hset

/-- What a charge does to the rows. The row of the originator is charged, or
made and charged, or there is no room for it; the other rows stay, or make
room. -/
theorem chargeOriginator_spec (l : NodeRateLimiter) (pkt : RateLimitPacket)
    (proximity : UInt32 → GraphProximity) (hnd : l.Distinct) :
    (l.chargeOriginator pkt proximity).1.Distinct ∧
      (∀ id, id ≠ pkt.fromNode →
        (l.chargeOriginator pkt proximity).1.originator id = l.originator id ∨
          (l.chargeOriginator pkt proximity).1.originator id = none) ∧
      ((l.originator pkt.fromNode = none ∧
          (l.chargeOriginator pkt proximity).1.originator pkt.fromNode = none) ∨
        ∃ e, e = (l.originator pkt.fromNode).getD (.new pkt.fromNode pkt.nowMs) ∧
          (l.chargeOriginator pkt proximity).1.originator pkt.fromNode = some (chargedRow e pkt) ∧
          (l.chargeOriginator pkt proximity).2 = (checkRow e pkt).2.1) := by
  unfold Distinct originator at *
  cases hfind : l.findOriginator pkt.fromNode with
  | some i =>
    have hget := findIdx_lookup OriginatorEntry.nodeId hfind
    obtain ⟨hi, -⟩ := List.findIdx?_eq_some_iff_getElem.mp hfind
    have he : l.originators.rows[i]? = some l.originators.rows[i] := List.getElem?_eq_getElem hi
    obtain ⟨hrows, hdrop⟩ := @chargeOriginator_found l pkt proximity i _ hfind he
    have hid : l.originators.rows[i].nodeId = pkt.fromNode :=
      lookup_key OriginatorEntry.nodeId (hget.symm.trans he)
    rw [hrows]
    refine ⟨?_, ?_, .inr ⟨l.originators.rows[i], ?_, ?_, hdrop⟩⟩
    · rw [keys_set_same OriginatorEntry.nodeId he (chargedRow_nodeId _ _)]
      exact hnd
    · intro id hne
      left
      apply lookup_set_same OriginatorEntry.nodeId he (chargedRow_nodeId _ _)
      rw [chargedRow_nodeId, hid]
      exact hne.symm
    · rw [← hget, he]
      rfl
    · exact lookup_set_found OriginatorEntry.nodeId hfind ((chargedRow_nodeId _ _).trans hid)
  | none =>
    have hnone : lookup OriginatorEntry.nodeId l.originators.rows pkt.fromNode = none := by
      refine List.find?_eq_none.mpr fun r hr => ?_
      rw [List.findIdx?_eq_none_iff.mp hfind r hr]
      exact Bool.false_ne_true
    have hkey : (chargedRow (.new pkt.fromNode pkt.nowMs) pkt).nodeId = pkt.fromNode :=
      chargedRow_nodeId _ _
    have hfresh := lookup_eq_none OriginatorEntry.nodeId hnone
    rcases @chargeOriginator_new l pkt proximity hfind with
      hsame | ⟨happend | ⟨i, hi, hset⟩, hdrop⟩
    · rw [hsame]
      exact ⟨hnd, fun _ _ => .inl rfl, .inl ⟨hnone, hnone⟩⟩
    · rw [happend]
      refine ⟨?_, fun id hne => .inl (lookup_append_other _ (by rw [hkey]; exact hne.symm)),
        .inr ⟨_, rfl, ?_, ?_⟩⟩
      · rw [List.map_append, List.map_singleton, hkey]
        exact List.nodup_append_comm.mp (List.nodup_cons.mpr ⟨hfresh, hnd⟩)
      · rw [hnone]
        exact lookup_append_new _ hnone hkey
      · rw [hnone]
        exact hdrop
    · rw [hset]
      refine ⟨?_, fun id hne => lookup_set_other _ hnd (by rw [hkey]; exact hne.symm),
        .inr ⟨_, rfl, ?_, ?_⟩⟩
      · rw [List.map_set, hkey]
        exact hnd.set hfresh
      · rw [hnone]
        exact lookup_set_new _ hnone hi hkey
      · rw [hnone]
        exact hdrop

end NodeRateLimiter

end Meshrustic.RateLimit
