import Meshrustic.Core.Arena
import Meshrustic.Routing.Forward

/-!
# The packet pool (`mesh-routing/src/pool.rs`, `router.rs:1180-1203, 1868-2413, 4753-4813`)

A packet that is taken as new waits in a slot of the pool from the end of
`process_inbound` to its planning. `evaluate_tx_plan` owns the handle and
leaves by some twenty ways; here every one of them is spelled out, with what
the graph and the limits answer as `PlanAnswers`.

The planning is written over any pool with one operation that gives the
handle back, so that a path that forgot it, or did it twice, would show.

Results:
* `evaluatePooled_releases`: the handle is given back once, on every path.
* `evaluatePooled_refines`: what happens to the router is what
  `evaluateTxPlan` says, for some verdict.
* `planPooled_refines`: so for the packet that `process_inbound` put there.
* `pool_conserved`: slots in use before reception and after planning are the
  same, and a handle of a slot that was given out again is good for nothing.
-/
namespace Meshrustic.Routing

open Meshrustic.RateLimit (NODENUM_BROADCAST SIGNAL_ROUTING_APP ROUTING_APP)

def POOL_SIZE : Nat := 16

structure PacketSlot where
  header : PacketHeader
  payload : Bytes
  deriving DecidableEq, Repr

def PacketSlot.empty : PacketSlot := ⟨⟨0, 0, 0, 0, 0, 0, false, false, 0, 0⟩, []⟩

/-- mirrors crates/mesh-routing/src/pool.rs:38-104 -/
abbrev PacketPool := Arena POOL_SIZE PacketSlot

/-- What the graph says of the link from a packet's source to its destination. -/
structure SourceEdge where
  /-- measured, and within `COVERAGE_ETX_CEILING_FIXED` -/
  measured : Bool
  hearsUs : Bool
  deriving DecidableEq, Repr

/-- What is consulted while one packet is planned, under the names of the
source; the graph's answers are about the packet's own nodes. -/
structure PlanAnswers where
  /-- `qos.can_relay` -/
  canRelay : Bool
  heardFrom : UInt32
  signalRoutingActive : Bool
  topologyHealthyForBroadcast : Bool
  /-- `should_relay` and `slots_given > 0` of `plan_broadcast_relay` -/
  shouldRelay : Bool
  slotsGiven : Bool
  hasAnyHearsUsNeighbor : Bool
  fireDelayMs : UInt32
  topologyHealthyForUnicast : Bool
  isKnownRelayTarget : Bool
  /-- `get_next_hop_verified` -/
  hop : UInt32
  hopVerified : Bool
  designatedRepeat : Bool
  /-- the relayer delivers to the destination or is its gateway -/
  finishes : Bool
  capsLastHop : Bool
  hasDirectEdge : Bool
  canDeliver : Bool
  nakReplies : Nat
  /-- `plan_unicast_relay` ranks us -/
  rankedOk : Bool
  coverCarries : Bool
  srcEdge : Option SourceEdge
  pricedLastHop : Bool
  strongIntended : Bool
  nonfinalFlood : Bool
  /-- the radio a bridge sends by instead of us -/
  bridged : Option (UInt8 × UInt32)
  relayed : Bytes → RelayVerdict

namespace Router

section Plan

variable (r : Router) {P : Type} (read : P → Bytes) (release : P → P) (p : P)
variable (parsed : ParsedPacket) (packet : InboundPacket) (a : Answers) (q : PlanAnswers)
variable (nowMs : UInt32)

/-- mirrors crates/mesh-routing/src/router.rs:4753-4813 -/
def armT1Pooled : Router × P :=
  let portnum := a.decoded.map (·.portnum)
  if portnum == some SIGNAL_ROUTING_APP || !q.hasAnyHearsUsNeighbor then (r, release p)
  else
    match relayHeaderWithNextHopOpts parsed r.nodeNum 0 false with
    | none => (r, release p)
    | some h =>
      let payload := read p
      let p := release p
      (r.scheduleT1Broadcast ⟨{ h with wantAck := false }, payload⟩ portnum (some q.heardFrom) nowMs
        q.fireDelayMs, p)

/-- mirrors crates/mesh-routing/src/router.rs:2040-2057 -/
def pickedHop : UInt32 := if parsed.toNode == NODENUM_BROADCAST then 0 else q.hop

/-- The hop after us.
mirrors crates/mesh-routing/src/router.rs:2058-2067 -/
def onwardFrom : UInt32 :=
  if pickedHop parsed q == r.nodeNum then 0 else pickedHop parsed q

def routeVerified : Bool := pickedHop parsed q == 0 || q.hopVerified

def weAreDesignatedHop : Bool :=
  parsed.toNode != NODENUM_BROADCAST && parsed.nextHop == lowByte r.nodeNum

/-- The next hop, where it is unverified or leads back given up.
mirrors crates/mesh-routing/src/router.rs:2087-2120 -/
def settledHop : UInt32 :=
  let broadcast := parsed.toNode == NODENUM_BROADCAST
  let nextHop :=
    if !routeVerified parsed q && r.onwardFrom parsed q != 0 then 0 else r.onwardFrom parsed q
  let nextHop := if q.designatedRepeat && !broadcast && nextHop == q.heardFrom then 0 else nextHop
  if r.weAreDesignatedHop parsed && nextHop != 0 && nextHop == q.heardFrom then 0 else nextHop

/-- We hear the destination and would deliver to it.
mirrors crates/mesh-routing/src/router.rs:2338-2347 -/
def pricedLastHop : Bool := parsed.toNode != NODENUM_BROADCAST && q.pricedLastHop

/-- The hop that the header names.
mirrors crates/mesh-routing/src/router.rs:2348-2376 -/
def stampHop (nextHop : UInt32) : UInt32 :=
  let intendedHop := if pricedLastHop parsed q then parsed.toNode else nextHop
  if q.nonfinalFlood then 0
  else if intendedHop != 0 && q.strongIntended then intendedHop
  else 0

def stampsLastHop (nextHop : UInt32) : Bool :=
  pricedLastHop parsed q && stampHop parsed q nextHop != 0

/-- The relay header, and everything after it.
mirrors crates/mesh-routing/src/router.rs:2377-2413, 2490-2668 -/
def stampPooled (nextHop : UInt32) : (Router × P) × Option RelayPlan :=
  let broadcast := parsed.toNode == NODENUM_BROADCAST
  match relayHeaderWithNextHopOpts parsed r.nodeNum (stampHop parsed q nextHop)
      (stampsLastHop parsed q nextHop) with
  | none => ((r, release p), none)
  | some h =>
    if !broadcast && h.hopLimit == 0 && !q.hasDirectEdge then ((r, release p), none)
    else
      let payload := read p
      let p := release p
      match q.bridged with
      | some leg => ((r.bridgeLeg parsed packet.snr nowMs leg, p), none)
      | none =>
        let v := { q.relayed payload with
          nextHop := stampHop parsed q nextHop, lastHop := stampsLastHop parsed q nextHop }
        let planned := r.commitAndStore parsed packet.radioId packet.snr nowMs ⟨h, v.payload⟩ v
        ((planned.1, p), planned.2)

/-- A reply that its destination is believed to have.
mirrors crates/mesh-routing/src/router.rs:2300-2336 -/
def replyRetracesLink (onwardHop : UInt32) : Bool :=
  parsed.toNode != NODENUM_BROADCAST && q.heardFrom == parsed.fromNode &&
    q.srcEdge.any fun edge =>
      (a.decoded.any fun d => d.portnum == ROUTING_APP && d.requestId != 0) && edge.measured &&
        ((onwardHop == 0 || onwardHop == q.heardFrom) || (edge.hearsUs && q.hasDirectEdge))

/-- Ranking a unicast, from the hop that was settled on.
mirrors crates/mesh-routing/src/router.rs:2159-2336 -/
def rankPooled (pickedHop onwardHop nextHop : UInt32) : (Router × P) × Option RelayPlan :=
  let broadcast := parsed.toNode == NODENUM_BROADCAST
  let designated := r.weAreDesignatedHop parsed
  let relayerNamed := parsed.nextHop != 0 && parsed.nextHop != lowByte parsed.toNode
  let weCanFinish := !broadcast && (q.capsLastHop || (q.hasDirectEdge && q.canDeliver))
  let unicast := !broadcast && parsed.toNode != r.nodeNum && q.signalRoutingActive
  let ranking := unicast && (weCanFinish || pickedHop != 0)
  -- a sender that named us is told that there is no way on
  if designated && pickedHop == 0 && !weCanFinish then
    ((drawTxIds q.nakReplies r, release p), none)
  else if ranking && !q.rankedOk && !relayerNamed then ((r, release p), none)
  else if !(ranking && q.rankedOk) && !relayerNamed && unicast && q.topologyHealthyForBroadcast &&
      !q.coverCarries then ((r, release p), none)
  else if relayerNamed && !designated && !q.capsLastHop &&
      (nextHop == 0 || lowByte nextHop == parsed.nextHop) then ((r, release p), none)
  else if replyRetracesLink parsed a q onwardHop then ((r, release p), none)
  else r.stampPooled read release p parsed packet q nowMs nextHop

/-- mirrors crates/mesh-routing/src/router.rs:2039-2143 -/
def hopPooled : (Router × P) × Option RelayPlan :=
  let broadcast := parsed.toNode == NODENUM_BROADCAST
  let onward := r.onwardFrom parsed q
  let nextHop := r.settledHop parsed q
  if !broadcast && !routeVerified parsed q && !r.weAreDesignatedHop parsed && onward != 0 &&
      onward == q.heardFrom then ((r, release p), none)
  else if !broadcast && !r.weAreDesignatedHop parsed && nextHop != 0 && nextHop == q.heardFrom then
    if q.finishes then ((r, release p), none)
    else r.rankPooled read release p parsed packet a q nowMs (pickedHop parsed q) onward 0
  else r.rankPooled read release p parsed packet a q nowMs (pickedHop parsed q) onward nextHop

/-- The planning of a packet that waits in the pool.
mirrors crates/mesh-routing/src/router.rs:1885-2037 -/
def evaluatePooled : (Router × P) × Option RelayPlan :=
  let broadcast := parsed.toNode == NODENUM_BROADCAST
  if r.graph.hasOurTransmission parsed.fromNode parsed.id nowMs then ((r, release p), none)
  else if !wireMayRelay parsed (parsed.fromNode == r.nodeNum) (parsed.toNode == r.nodeNum) then
    ((r, release p), none)
  else if !r.graph.isRebroadcaster then ((r, release p), none)
  else if !q.canRelay then ((r, release p), none)
  else if broadcast && q.signalRoutingActive && parsed.fromNode != r.nodeNum &&
      q.topologyHealthyForBroadcast && !q.shouldRelay then
    if q.slotsGiven then (r.armT1Pooled read release p parsed a q nowMs, none)
    else ((r, release p), none)
  else if !broadcast && parsed.toNode != r.nodeNum && !q.topologyHealthyForUnicast &&
      !q.isKnownRelayTarget then ((r, release p), none)
  else r.hopPooled read release p parsed packet a q nowMs

end Plan

end Router

/-! ## Every path gives the handle back once -/

section Paths

variable {r : Router} {P : Type} {read : P → Bytes} {release : P → P} {p : P}
variable {parsed : ParsedPacket} {packet : InboundPacket} {a : Answers} {q : PlanAnswers}
variable {nowMs : UInt32}

theorem armT1Pooled_releases :
    (r.armT1Pooled read release p parsed a q nowMs).2 = release p := by
  unfold Router.armT1Pooled
  dsimp only
  split
  · rfl
  · split <;> rfl

theorem stampPooled_releases (nextHop : UInt32) :
    (r.stampPooled read release p parsed packet q nowMs nextHop).1.2 = release p := by
  unfold Router.stampPooled
  dsimp only
  split
  · rfl
  · split
    · rfl
    · split <;> rfl

theorem rankPooled_releases (pickedHop onwardHop nextHop : UInt32) :
    (r.rankPooled read release p parsed packet a q nowMs pickedHop onwardHop nextHop).1.2 =
      release p := by
  unfold Router.rankPooled
  dsimp only
  split
  · rfl
  split
  · rfl
  split
  · rfl
  split
  · rfl
  split
  · rfl
  · exact stampPooled_releases _

theorem hopPooled_releases :
    (r.hopPooled read release p parsed packet a q nowMs).1.2 = release p := by
  unfold Router.hopPooled
  dsimp only
  split
  · rfl
  split
  · split
    · rfl
    · exact rankPooled_releases _ _ _
  · exact rankPooled_releases _ _ _

/-- Whatever the pool is, its only change is one release. -/
theorem evaluatePooled_releases :
    (r.evaluatePooled read release p parsed packet a q nowMs).1.2 = release p := by
  unfold Router.evaluatePooled
  dsimp only
  split
  · rfl
  split
  · rfl
  split
  · rfl
  split
  · rfl
  split
  · split
    · exact armT1Pooled_releases
    · rfl
  split
  · rfl
  · exact hopPooled_releases

end Paths

/-! ## What happens to the router -/

section Refinement

variable {r : Router} {P : Type} {read : P → Bytes} {release : P → P} {p : P}
variable {parsed : ParsedPacket} {packet : InboundPacket} {a : Answers} {q : PlanAnswers}
variable {nowMs : UInt32}

/-- What `evaluateTxPlan` does with a verdict. -/
def Router.actOn (r : Router) (parsed : ParsedPacket) (packet : InboundPacket) (a : Answers)
    (hearsUs : Bool) (nowMs : UInt32) : Verdict → Router × Option RelayPlan
  | .skip replies => (drawTxIds replies r, none)
  | .insure heardFrom fireDelayMs =>
    if parsed.toNode == NODENUM_BROADCAST then
      (r.armT1ForDeferredBroadcast parsed packet.payload (a.decoded.map (·.portnum)) hearsUs
        heardFrom nowMs fireDelayMs, none)
    else (r, none)
  | .bridge radioId delayMs => (r.bridgeLeg parsed packet.snr nowMs (radioId, delayMs), none)
  | .relay v =>
    match relayHeaderWithNextHopOpts parsed r.nodeNum v.nextHop v.lastHop with
    | none => (r, none)
    | some h => r.commitAndStore parsed packet.radioId packet.snr nowMs ⟨h, v.payload⟩ v

/-- Some verdict explains what was done. -/
def Explained (r : Router) (parsed : ParsedPacket) (packet : InboundPacket) (a : Answers)
    (hearsUs : Bool) (nowMs : UInt32) (out : (Router × P) × Option RelayPlan) : Prop :=
  ∃ verdict, r.actOn parsed packet a hearsUs nowMs verdict = (out.1.1, out.2)

theorem explained_skip {hearsUs : Bool} :
    Explained r parsed packet a hearsUs nowMs ((r, p), none) := ⟨.skip 0, rfl⟩

theorem stampPooled_explained {hearsUs : Bool} (nextHop : UInt32) :
    Explained r parsed packet a hearsUs nowMs
      (r.stampPooled read release p parsed packet q nowMs nextHop) := by
  unfold Router.stampPooled
  dsimp only
  split
  · exact explained_skip
  · rename_i h heq
    split
    · exact explained_skip
    · split
      · rename_i leg _
        exact ⟨.bridge leg.1 leg.2, rfl⟩
      · refine ⟨.relay { q.relayed (read p) with
          nextHop := Router.stampHop parsed q nextHop
          lastHop := Router.stampsLastHop parsed q nextHop }, ?_⟩
        unfold Router.actOn
        dsimp only
        rw [heq]

theorem rankPooled_explained {hearsUs : Bool} (pickedHop onwardHop nextHop : UInt32) :
    Explained r parsed packet a hearsUs nowMs
      (r.rankPooled read release p parsed packet a q nowMs pickedHop onwardHop nextHop) := by
  unfold Router.rankPooled
  dsimp only
  split
  · exact ⟨.skip q.nakReplies, rfl⟩
  split
  · exact explained_skip
  split
  · exact explained_skip
  split
  · exact explained_skip
  split
  · exact explained_skip
  · exact stampPooled_explained _

theorem hopPooled_explained {hearsUs : Bool} :
    Explained r parsed packet a hearsUs nowMs
      (r.hopPooled read release p parsed packet a q nowMs) := by
  unfold Router.hopPooled
  dsimp only
  split
  · exact explained_skip
  split
  · split
    · exact explained_skip
    · exact rankPooled_explained _ _ _
  · exact rankPooled_explained _ _ _

theorem armT1Pooled_explained (hread : read p = packet.payload)
    (hb : (parsed.toNode == NODENUM_BROADCAST) = true) :
    Explained r parsed packet a q.hasAnyHearsUsNeighbor nowMs
      (r.armT1Pooled read release p parsed a q nowMs, none) := by
  refine ⟨.insure q.heardFrom q.fireDelayMs, ?_⟩
  unfold Router.actOn Router.armT1Pooled Router.armT1ForDeferredBroadcast
  dsimp only
  rw [if_pos hb]
  split
  · rfl
  · cases relayHeaderWithNextHopOpts parsed r.nodeNum 0 false with
    | none => rfl
    | some h => rw [← hread]

/-- The planning refines `evaluateTxPlan`: the verdict is worked out. -/
theorem evaluatePooled_refines (hread : read p = packet.payload) :
    ∃ verdict,
      r.evaluateTxPlan ⟨parsed, false, false, true⟩ packet a q.hasAnyHearsUsNeighbor verdict nowMs =
        ((r.evaluatePooled read release p parsed packet a q nowMs).1.1,
          (r.evaluatePooled read release p parsed packet a q nowMs).2) := by
  unfold Router.evaluatePooled Router.evaluateTxPlan
  simp only [Bool.or_false, Bool.not_true, Bool.false_eq_true, if_false]
  split
  · exact ⟨.skip 0, rfl⟩
  split
  · exact ⟨.skip 0, rfl⟩
  split
  · exact ⟨.skip 0, rfl⟩
  change ∃ verdict, r.actOn parsed packet a q.hasAnyHearsUsNeighbor nowMs verdict = _
  split
  · exact ⟨.skip 0, rfl⟩
  split
  · rename_i hcand
    simp only [Bool.and_eq_true] at hcand
    split
    · exact armT1Pooled_explained hread hcand.1.1.1.1
    · exact ⟨.skip 0, rfl⟩
  split
  · exact ⟨.skip 0, rfl⟩
  · exact hopPooled_explained

end Refinement

/-! ## The router and its pool -/

/-- What `process_inbound` returns, with the handle itself. -/
structure PooledResult where
  result : ProcessResult
  handle : Option Handle
  deriving DecidableEq, Repr

/-- mirrors crates/mesh-routing/src/router.rs:859-1203 -/
def Router.processPooled (r : Router) (pool : PacketPool) (packet : InboundPacket) (a : Answers)
    (nowMs : UInt32) : (Router × PacketPool) × Option PooledResult :=
  match r.processInbound packet { a with poolFree := pool.firstFree.isSome } nowMs with
  | (r, none) => ((r, pool), none)
  | (r, some result) =>
    if result.handle then
      match pool.alloc .empty with
      | some (h, pool) =>
        ((r, pool.put h ⟨packet.header, packet.payload⟩), some ⟨result, some h⟩)
      | none => ((r, pool), none)
    else ((r, pool), some ⟨result, none⟩)

/-- What the planning reads of the pool, through its handle. -/
def pooledPayload (h : Handle) (pool : PacketPool) : Bytes :=
  ((pool.get h).map (·.payload)).getD []

/-- mirrors crates/mesh-routing/src/router.rs:1868-1884 -/
def Router.planPooled (r : Router) (pool : PacketPool) (res : PooledResult)
    (packet : InboundPacket) (a : Answers) (q : PlanAnswers) (nowMs : UInt32) :
    (Router × PacketPool) × Option RelayPlan :=
  if res.result.duplicate || res.result.rateLimited then ((r, pool), none)
  else
    match res.handle with
    | none => ((r, pool), none)
    | some h =>
      r.evaluatePooled (pooledPayload h) (·.release h) pool res.result.parsed packet a q nowMs

section Pooled

variable {r r' : Router} {pool pool' : PacketPool} {packet : InboundPacket} {a : Answers}
variable {res : PooledResult} {nowMs : UInt32}

theorem acceptInbound_handle {parsed : ParsedPacket} {result : ProcessResult}
    (h : (r.acceptInbound parsed a nowMs).2 = some result) (hh : result.handle = true) :
    result.duplicate = false ∧ result.rateLimited = false := by
  unfold Router.acceptInbound at h
  dsimp only at h
  split at h
  · cases h
    exact absurd hh Bool.false_ne_true
  · split at h
    · cases h
      exact ⟨rfl, rfl⟩
    · cases h

theorem rejectDuplicate_handle {parsed : ParsedPacket} {radioId : UInt8} {result : ProcessResult}
    (h : (r.rejectDuplicate parsed radioId a nowMs).2 = some result) : result.handle = false := by
  cases h
  rfl

theorem afterObserve_handle {seen : ObserveResult} {parsed : ParsedPacket} {radioId : UInt8}
    {result : ProcessResult} (h : (r.afterObserve seen parsed radioId a nowMs).2 = some result)
    (hh : result.handle = true) : result.duplicate = false ∧ result.rateLimited = false := by
  have hrejected (s : Router) (h : (s.rejectDuplicate parsed radioId a nowMs).2 = some result) :
      result.duplicate = false ∧ result.rateLimited = false :=
    absurd (hh.symm.trans (rejectDuplicate_handle h)) Bool.noConfusion
  unfold Router.afterObserve at h
  dsimp only at h
  split at h
  · split at h
    · exact acceptInbound_handle h hh
    · exact hrejected _ h
  · split at h
    · exact acceptInbound_handle h hh
    · exact hrejected _ h
  · exact acceptInbound_handle h hh

/-- Only a packet that is to be planned gets a slot. -/
theorem processInbound_handle {result : ProcessResult}
    (h : (r.processInbound packet a nowMs).2 = some result) (hh : result.handle = true) :
    result.duplicate = false ∧ result.rateLimited = false := by
  unfold Router.processInbound at h
  split at h
  · cases h
  · exact afterObserve_handle h hh

/-- A result without a handle leaves the pool alone; the handle of one that
has it was just given out, and the packet was written through it. -/
theorem processPooled_cases (h : r.processPooled pool packet a nowMs = ((r', pool'), some res)) :
    (res.handle = none ∧ pool' = pool ∧ res.result.handle = false) ∨
      ∃ g fresh, res.handle = some g ∧ pool.alloc .empty = some (g, fresh) ∧
        pool' = fresh.put g ⟨packet.header, packet.payload⟩ ∧
        res.result = ⟨res.result.parsed, false, false, true⟩ := by
  unfold Router.processPooled at h
  split at h
  · cases h
  · rename_i s result heq
    split at h
    · rename_i hh
      split at h
      · rename_i g fresh halloc
        cases h
        obtain ⟨hdup, hlim⟩ := processInbound_handle (congrArg Prod.snd heq) hh
        refine .inr ⟨g, fresh, rfl, halloc, rfl, ?_⟩
        exact (ProcessResult.mk.injEq ..).mpr ⟨rfl, hdup, hlim, hh⟩
      · cases h
    · rename_i hh
      cases h
      exact .inl ⟨rfl, rfl, Bool.eq_false_iff.mpr hh⟩

/-- The planning reads the packet that was received. -/
theorem processPooled_payload (h : r.processPooled pool packet a nowMs = ((r', pool'), some res))
    {g : Handle} (hg : res.handle = some g) : pooledPayload g pool' = packet.payload := by
  rcases processPooled_cases h with ⟨hnone, _⟩ | ⟨g', fresh, hsome, halloc, hpool, _⟩
  · rw [hnone] at hg
    cases hg
  · have hgg : g' = g := by rw [hsome] at hg; exact Option.some.inj hg
    subst hgg
    obtain ⟨i, hloc, _, _⟩ := Arena.locate_alloc halloc
    unfold pooledPayload
    rw [hpool, Arena.get_put hloc]
    rfl

theorem planPooled_used (h : r.processPooled pool packet a nowMs = ((r', pool'), some res))
    (s : Router) (q : PlanAnswers) (planMs : UInt32) :
    (s.planPooled pool' res packet a q planMs).1.2.used = pool.used := by
  unfold Router.planPooled
  rcases processPooled_cases h with ⟨hnone, hpool, _⟩ | ⟨g, fresh, hsome, halloc, hpool, hres⟩
  · rw [hnone, hpool]
    split <;> rfl
  · rw [hres, hsome, hpool]
    simp only [Bool.or_false, Bool.false_eq_true, if_false]
    rw [evaluatePooled_releases]
    exact Arena.release_alloc halloc _

/-- Planning from the pool is planning the packet itself, by some verdict. -/
theorem planPooled_refines (h : r.processPooled pool packet a nowMs = ((r', pool'), some res))
    (s : Router) (q : PlanAnswers) (planMs : UInt32) :
    ∃ verdict,
      s.evaluateTxPlan res.result packet a q.hasAnyHearsUsNeighbor verdict planMs =
        ((s.planPooled pool' res packet a q planMs).1.1,
          (s.planPooled pool' res packet a q planMs).2) := by
  rcases processPooled_cases h with ⟨hnone, _, hh⟩ | ⟨g, fresh, hsome, halloc, hpool, hres⟩
  · refine ⟨.skip 0, ?_⟩
    unfold Router.planPooled Router.evaluateTxPlan
    rw [hnone, hh]
    simp
  · have hread := processPooled_payload h hsome
    unfold Router.planPooled
    rw [hres, hsome]
    simp only [Bool.or_false, Bool.false_eq_true, if_false]
    exact evaluatePooled_refines hread

end Pooled

/-- The slots in use before a frame is received and after it is planned are
the same; planning gives its handle back once, whatever the pool; and once a
slot is given out again, less than `2^32` times over, an earlier handle to it
neither reads, writes nor frees it. -/
theorem pool_conserved :
    (∀ (r r' : Router) (pool pool' : PacketPool) (packet : InboundPacket) (a : Answers)
      (q : PlanAnswers) (nowMs planMs : UInt32) (res : PooledResult),
      r.processPooled pool packet a nowMs = ((r', pool'), some res) →
        (r'.planPooled pool' res packet a q planMs).1.2.used = pool.used) ∧
    (∀ (r : Router) (P : Type) (read : P → Bytes) (release : P → P) (p : P)
      (parsed : ParsedPacket) (packet : InboundPacket) (a : Answers) (q : PlanAnswers)
      (nowMs : UInt32),
      (r.evaluatePooled read release p parsed packet a q nowMs).1.2 = release p) ∧
    (∀ (pool pool' : PacketPool) (h : Handle) (i : Fin POOL_SIZE) (cs : List (Arena.Call PacketSlot)),
      (Arena.calls POOL_SIZE .empty).Run pool (.alloc (some h) :: cs) pool' → h.index = i.val →
        0 < Arena.allocations i cs → Arena.allocations i (.alloc (some h) :: cs) < UInt32.size →
        pool'.get h = none ∧ pool'.release h = pool' ∧ ∀ x, pool'.put h x = pool') := by
  refine ⟨?_, ?_, ?_⟩
  · intro r r' pool pool' packet a q nowMs planMs res h
    exact planPooled_used h r' q planMs
  · intro r P read release p parsed packet a q nowMs
    exact evaluatePooled_releases
  · intro pool pool' h i cs hrun hi hpos hlt
    cases hrun with
    | cons halloc hr =>
      have hle : Arena.allocations i cs ≤ Arena.allocations i (.alloc (some h) :: cs) :=
        (List.sublist_cons_self _ cs).countP_le
      exact Arena.of_locate_none (Arena.stale_handle halloc hr hi hpos (by omega))

/-- A broadcast from node 7 that is heard directly. -/
def pooledBroadcast : InboundPacket :=
  ⟨⟨NODENUM_BROADCAST, 7, 9, 0, 3, 3, false, false, 0, 7⟩, [1, 2], 0, 5⟩

def plainAnswers : Answers := ⟨none, false, true, 7, 7, false, false, 0⟩

/-- An idle mesh: nobody is known, and the packet is relayed. -/
def idlePlan : PlanAnswers where
  canRelay := true
  heardFrom := 7
  signalRoutingActive := false
  topologyHealthyForBroadcast := false
  shouldRelay := false
  slotsGiven := false
  hasAnyHearsUsNeighbor := false
  fireDelayMs := 0
  topologyHealthyForUnicast := false
  isKnownRelayTarget := false
  hop := 0
  hopVerified := false
  designatedRepeat := false
  finishes := false
  capsLastHop := false
  hasDirectEdge := false
  canDeliver := false
  nakReplies := 0
  rankedOk := false
  coverCarries := false
  srcEdge := none
  pricedLastHop := false
  strongIntended := false
  nonfinalFlood := false
  bridged := none
  relayed := fun payload => ⟨0, false, payload, 7, 40, .empty, ⟨false, 0, fun _ => 0, fun _ => 0⟩, none⟩

def freshPool : PacketPool := .new .empty

def firstSlot : Fin POOL_SIZE := ⟨0, by decide⟩

theorem pool_conserved_fresh :
    (((Router.new 1 0 10000 5).processPooled freshPool pooledBroadcast plainAnswers 100).2.isSome ∧
      ∀ s res pool, (Router.new 1 0 10000 5).processPooled freshPool pooledBroadcast plainAnswers 100 =
        ((s, pool), some res) →
          (s.planPooled pool res pooledBroadcast plainAnswers idlePlan 101).1.2.used = freshPool.used) ∧
    ∃ pool : PacketPool,
      (Arena.calls POOL_SIZE .empty).Run freshPool
        [.alloc (some ⟨0, 1⟩), .release ⟨0, 1⟩, .alloc (some ⟨0, 2⟩)] pool ∧
      pool.get ⟨0, 2⟩ = some .empty ∧ pool.get ⟨0, 1⟩ = none ∧ pool.release ⟨0, 1⟩ = pool := by
  refine ⟨⟨by decide +kernel, fun s res pool h => ?_⟩, ?_⟩
  · exact pool_conserved.1 _ _ _ _ _ _ idlePlan _ 101 _ h
  · have hrun : (Arena.calls POOL_SIZE PacketSlot.empty).Run freshPool
        [.alloc (some ⟨0, 1⟩), .release ⟨0, 1⟩, .alloc (some ⟨0, 2⟩)]
        (((freshPool.take .empty firstSlot).2.release ⟨0, 1⟩).take .empty firstSlot).2 :=
      .cons rfl (.cons rfl (.cons rfl (.nil _)))
    have hstale := pool_conserved.2.2 _ _ ⟨0, 1⟩ firstSlot _ hrun rfl (by decide) (by decide)
    exact ⟨_, hrun, rfl, hstale.1, hstale.2.1⟩

end Meshrustic.Routing
