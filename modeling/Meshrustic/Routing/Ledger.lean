import Meshrustic.Core.Slots
import Meshrustic.Graph.Capability
import Meshrustic.Routing.Packet

/-!
# Relay commits and own transmissions (`mesh-routing/src/neighbor_graph.rs`)

The neighbour graph keeps two small ledgers for the router: the relays we are
committed to, one for a packet and a radio, and the last sixteen packets we
have sent. A commit is made when a relay is planned and ends with its
transmission; a record is made when the frame has left the air.

Result:
* `commitRelay_once`: at most one active commit for a packet and a radio.
-/
namespace Meshrustic.Routing

open Meshrustic.Admin Meshrustic.Graph

def MAX_RELAY_STATES : Nat := 32
def MAX_OUR_TX_RECORDS : Nat := 16
def MAX_HOLD_MS : UInt32 := 30000
def DEVICE_ROLE_CLIENT_BASE : UInt32 := 12

/-- mirrors crates/mesh-routing/src/sr_role.rs:17-27 -/
def roleIsActiveRouting (role : UInt32) : Bool :=
  role == DEVICE_ROLE_CLIENT || role == DEVICE_ROLE_ROUTER || role == DEVICE_ROLE_ROUTER_CLIENT ||
    role == DEVICE_ROLE_REPEATER || role == DEVICE_ROLE_ROUTER_LATE ||
    role == DEVICE_ROLE_CLIENT_BASE

/-- mirrors crates/mesh-routing/src/unicast_relay.rs:36-44 -/
structure UnicastSlotFlags where
  lastHopBackup : Bool
  nonfinalFlood : Bool
  nominatedNextHop : UInt32
  designatedNextHop : UInt8
  armedHopLimit : UInt8
  deriving DecidableEq, Repr

def UnicastSlotFlags.empty : UnicastSlotFlags := ⟨false, false, 0, 0, 0⟩

/-- mirrors crates/mesh-routing/src/neighbor_graph.rs:57-70, without the heard
transmitters, which only the coverage test reads. -/
structure RelayCommit where
  active : Bool
  fromNode : UInt32
  id : UInt32
  radioId : UInt8
  txAfterMs : UInt32
  snr : Int
  originalHeardFrom : UInt32
  unicastFlags : UnicastSlotFlags
  deriving DecidableEq, Repr

namespace RelayCommit

def inactive : RelayCommit := ⟨false, 0, 0, 0, 0, 0, 0, .empty⟩

def packet (c : RelayCommit) : PacketKey := (c.fromNode, c.id)

def key (c : RelayCommit) : PacketKey × UInt8 := (c.packet, c.radioId)

def serves (fromNode id : UInt32) (c : RelayCommit) : Bool :=
  c.active && c.fromNode == fromNode && c.id == id

theorem serves_iff {fromNode id : UInt32} {c : RelayCommit} :
    c.serves fromNode id = true ↔ c.active = true ∧ c.packet = (fromNode, id) := by
  simp [serves, packet, and_assoc]

end RelayCommit

structure NodeTxRecord where
  nodeId : UInt32
  packetId : UInt32
  originator : UInt32
  atMs : UInt32
  deriving DecidableEq, Repr

/-- The part of `NeighborGraph` that the packet bookkeeping writes. -/
structure RelayLedger where
  myNode : UInt32
  deviceRole : UInt32
  /-- `transmission_record_window_ms` of the preset in use -/
  recordWindowMs : UInt32
  relayStates : Slots MAX_RELAY_STATES RelayCommit
  ourTx : Table MAX_OUR_TX_RECORDS NodeTxRecord
  deriving DecidableEq

namespace RelayLedger

variable (g : RelayLedger)

def isActiveRoutingRole : Bool := roleIsActiveRouting g.deviceRole

/-- mirrors crates/mesh-routing/src/neighbor_graph.rs:2643-2648 -/
def roleAllowsCancelingDupe : Bool :=
  g.deviceRole != DEVICE_ROLE_ROUTER && g.deviceRole != DEVICE_ROLE_ROUTER_LATE

def isRebroadcaster : Bool := !roleIsMute g.deviceRole

def recorded (originator packetId : UInt32) (rec : NodeTxRecord) : Bool :=
  rec.nodeId == g.myNode && rec.packetId == packetId && rec.originator == originator

/-- mirrors crates/mesh-routing/src/neighbor_graph.rs:420-453 -/
def recordOurTransmission (originator packetId nowMs : UInt32) : RelayLedger :=
  if packetId == 0 then g
  else
    match g.ourTx.rows.findIdx? (g.recorded originator packetId) with
    | some i =>
      { g with ourTx := ⟨g.ourTx.rows.modify i fun rec => { rec with atMs := nowMs }, by
          rw [List.length_modify]; exact g.ourTx.le⟩ }
    | none =>
      let entry := ⟨g.myNode, packetId, originator, nowMs⟩
      match g.ourTx.push entry with
      | some ourTx => { g with ourTx }
      | none =>
        -- the array is full: the oldest record is shifted out
        { g with ourTx := ⟨(g.ourTx.rows.drop 1 ++ [entry]).take MAX_OUR_TX_RECORDS, by
            rw [List.length_take]; exact Nat.min_le_left _ _⟩ }

/-- mirrors crates/mesh-routing/src/neighbor_graph.rs:455-466 -/
def hasOurTransmission (originator packetId nowMs : UInt32) : Bool :=
  g.ourTx.rows.any fun rec =>
    g.recorded originator packetId rec && nowMs - rec.atMs ≤ g.recordWindowMs

/-- mirrors crates/mesh-routing/src/neighbor_graph.rs:1947-1997; `delay` is the
slot of the plan and its tie break. Returns the time the relay is due. -/
def commitRelay (fromNode id : UInt32) (radioId : UInt8) (snr : Int)
    (heardFrom nowMs delay : UInt32) : RelayLedger × UInt32 :=
  let txAfterMs := nowMs + delay
  let ours := fun c : RelayCommit => c.serves fromNode id && c.radioId == radioId
  match g.relayStates.find? ours with
  | some c =>
    if c.snr ≤ snr then
      ({ g with relayStates := g.relayStates.changeFirst ours fun c => { c with snr, txAfterMs } },
        txAfterMs)
    else (g, c.txAfterMs)
  | none =>
    match g.relayStates.place (fun c => !c.active)
        ⟨true, fromNode, id, radioId, txAfterMs, snr, heardFrom, .empty⟩ with
    | some relayStates => ({ g with relayStates }, txAfterMs)
    | none => (g, txAfterMs)

/-- mirrors crates/mesh-routing/src/neighbor_graph.rs:1999-2002 -/
def relayTxAfter (fromNode id : UInt32) (radioId : UInt8) : Option UInt32 :=
  (g.relayStates.find? fun c => c.serves fromNode id && c.radioId == radioId).map (·.txAfterMs)

/-- mirrors crates/mesh-routing/src/neighbor_graph.rs:2004-2013 -/
def clearRelays : RelayLedger :=
  { g with relayStates := g.relayStates.map fun c => { c with active := false } }

/-- mirrors crates/mesh-routing/src/neighbor_graph.rs:2015-2021 -/
def cancelRelay (fromNode id : UInt32) : RelayLedger :=
  { g with relayStates := g.relayStates.map fun c =>
      if c.serves fromNode id then { c with active := false } else c }

/-- mirrors crates/mesh-routing/src/neighbor_graph.rs:2215-2220 -/
def committedHeardFrom (fromNode id : UInt32) : Option UInt32 :=
  (g.relayStates.find? (RelayCommit.serves fromNode id)).map (·.originalHeardFrom)

/-- mirrors crates/mesh-routing/src/neighbor_graph.rs:2593-2597 -/
def isCommittedRelay (fromNode id : UInt32) : Bool :=
  g.relayStates.any (RelayCommit.serves fromNode id)

/-- mirrors crates/mesh-routing/src/neighbor_graph.rs:2599-2610 -/
def setUnicastCommitFlags (fromNode id : UInt32) (flags : UnicastSlotFlags) : RelayLedger :=
  { g with relayStates := g.relayStates.map fun c =>
      if c.serves fromNode id then { c with unicastFlags := flags } else c }

/-- mirrors crates/mesh-routing/src/neighbor_graph.rs:2612-2622 -/
def unicastCommitFlags (fromNode id : UInt32) : UnicastSlotFlags :=
  ((g.relayStates.find? (RelayCommit.serves fromNode id)).map (·.unicastFlags)).getD .empty

/-- mirrors crates/mesh-routing/src/neighbor_graph.rs:2673-2684 -/
def clearExpiredCommits (nowMs : UInt32) : RelayLedger :=
  { g with relayStates := g.relayStates.map fun c =>
      if c.active && !notYet nowMs c.txAfterMs && MAX_HOLD_MS < nowMs - c.txAfterMs then
        { c with active := false }
      else c }

end RelayLedger

/-! ## Commits -/

/-- A commit of the same packet and radio, active only if it was. -/
abbrev CommitCalm (x y : RelayCommit) : Prop := Calmer RelayCommit.active RelayCommit.key x y

namespace RelayLedger

variable {g : RelayLedger} {f i : UInt32}

theorem cancelRelay_calm : InPlace CommitCalm g.relayStates (g.cancelRelay f i).relayStates := by
  refine .map fun c _ => ?_
  split
  · exact ⟨rfl, fun h => absurd h Bool.false_ne_true⟩
  · exact .refl c

theorem setUnicastCommitFlags_calm {flags : UnicastSlotFlags} :
    InPlace CommitCalm g.relayStates (g.setUnicastCommitFlags f i flags).relayStates := by
  refine .map fun c _ => ?_
  split
  · exact ⟨rfl, id⟩
  · exact .refl c

theorem clearExpiredCommits_calm {nowMs : UInt32} :
    InPlace CommitCalm g.relayStates (g.clearExpiredCommits nowMs).relayStates := by
  refine .map fun c _ => ?_
  split
  · exact ⟨rfl, fun h => absurd h Bool.false_ne_true⟩
  · exact .refl c

theorem clearRelays_calm : InPlace CommitCalm g.relayStates g.clearRelays.relayStates :=
  .map fun _ _ => ⟨rfl, fun h => absurd h Bool.false_ne_true⟩

/-- A commit moves an existing one in place, fills a free cell for a packet
and radio without one, or finds the array full. -/
theorem commitRelay_cases (g : RelayLedger) (f i : UInt32) (radioId : UInt8) (snr : Int)
    (heardFrom nowMs delay : UInt32) :
    InPlace CommitCalm g.relayStates (g.commitRelay f i radioId snr heardFrom nowMs delay).1.relayStates ∨
      ∃ c, c.key = ((f, i), radioId) ∧ (∀ x ∈ g.relayStates, x.active = true → x.key ≠ c.key) ∧
        g.relayStates.place (fun c => !c.active) c =
          some (g.commitRelay f i radioId snr heardFrom nowMs delay).1.relayStates := by
  unfold commitRelay
  simp only
  split
  · split
    · exact .inl (.changeFirst Calmer.refl fun c _ _ => ⟨rfl, id⟩)
    · exact .inl (.refl Calmer.refl _)
  · rename_i hnone
    split
    · rename_i t ht
      refine .inr ⟨_, rfl, fun x hx ha hk => ?_, ht⟩
      have := List.find?_eq_none.mp hnone x hx
      have hs : x.serves f i = true := by
        rw [RelayCommit.serves_iff]
        exact ⟨ha, congrArg Prod.fst hk⟩
      have hr : x.radioId = radioId := congrArg Prod.snd hk
      simp [hs, hr] at this
    · exact .inl (.refl Calmer.refl _)

/-- Everything but the commits stays. -/
theorem commitRelay_frame (g : RelayLedger) (f i : UInt32) (radioId : UInt8) (snr : Int)
    (heardFrom nowMs delay : UInt32) :
    (g.commitRelay f i radioId snr heardFrom nowMs delay).1 =
      { g with
        relayStates := (g.commitRelay f i radioId snr heardFrom nowMs delay).1.relayStates } := by
  unfold commitRelay
  dsimp only
  split
  · split <;> rfl
  · split <;> rfl

theorem commitRelay_once (h : Once RelayCommit.active RelayCommit.key g.relayStates)
    (radioId : UInt8) (snr : Int) (heardFrom nowMs delay : UInt32) :
    Once RelayCommit.active RelayCommit.key
      (g.commitRelay f i radioId snr heardFrom nowMs delay).1.relayStates := by
  rcases commitRelay_cases g f i radioId snr heardFrom nowMs delay with hc | ⟨c, _, hnew, hp⟩
  · exact h.calm hc
  · exact h.place hnew hp

/-- Packets with an active commit. -/
def Committed (g : RelayLedger) (k : PacketKey) : Prop :=
  ∃ c ∈ g.relayStates, c.active = true ∧ c.packet = k

theorem isCommittedRelay_iff : g.isCommittedRelay f i = true ↔ g.Committed (f, i) := by
  simp only [isCommittedRelay, Slots.any_eq_true, Committed, RelayCommit.serves_iff]

theorem Committed.of_calm {g g' : RelayLedger} {k : PacketKey}
    (h : InPlace CommitCalm g.relayStates g'.relayStates) (hc : g'.Committed k) :
    g.Committed k := by
  obtain ⟨y, hy, ha, hk⟩ := hc
  obtain ⟨x, hx, hxy⟩ := h.origin hy
  exact ⟨x, hx, hxy.2 ha, (congrArg Prod.fst hxy.1).symm.trans hk⟩

theorem Committed.of_cancelRelay {k : PacketKey} (h : (g.cancelRelay f i).Committed k) :
    g.Committed k ∧ k ≠ (f, i) := by
  refine ⟨h.of_calm cancelRelay_calm, ?_⟩
  rintro rfl
  obtain ⟨y, hy, ha, hk⟩ := h
  obtain ⟨x, _, rfl⟩ := Slots.mem_map.mp hy
  split at ha
  · cases ha
  · rename_i hs
    rw [if_neg hs] at hk
    exact hs (RelayCommit.serves_iff.mpr ⟨ha, hk⟩)

theorem Committed.of_commitRelay {k : PacketKey} {radioId : UInt8} {snr : Int}
    {heardFrom nowMs delay : UInt32}
    (h : (g.commitRelay f i radioId snr heardFrom nowMs delay).1.Committed k) :
    g.Committed k ∨ k = (f, i) := by
  rcases commitRelay_cases g f i radioId snr heardFrom nowMs delay with hc | ⟨c, hck, _, hp⟩
  · exact .inl (h.of_calm hc)
  · obtain ⟨y, hy, ha, hk⟩ := h
    rcases Slots.mem_of_place hp hy with rfl | hy
    · exact .inr (hk.symm.trans (congrArg Prod.fst hck))
    · exact .inl ⟨y, hy, ha, hk⟩

end RelayLedger

end Meshrustic.Routing
