import Meshrustic.Core.LTS
import Meshrustic.Graph.Coverage
import Meshrustic.Routing.Inbound

/-!
# Giving up a relay that others have done (`neighbor_graph.rs:1945-2021, 2494-2560`)

A node that has committed to relay a broadcast notes which nodes it hears relay it meanwhile. Once
each neighbour that it owes the packet can hear one of them, it gives up its own relay. What it has
noted belongs to the commit: a later commit of the same packet starts over.

Results:
* `ledger_call`: without the notes this is the ledger of the routing model;
* `evidenced_inductive`: what is noted was heard since the packet was committed;
* `broadcast_given_up_covered`: a relay that is given up for a copy of the packet, in any run.
-/
namespace Meshrustic.Routing

open Meshrustic.Graph (CoverageContext isPlaceholderNode Edge)
open Meshrustic.RateLimit (NODENUM_BROADCAST)

def MAX_HEARD_TRANSMITTERS : Nat := 6

/-- A commit and the nodes heard to transmit its packet.
mirrors crates/mesh-routing/src/neighbor_graph.rs:57-70 -/
structure HeardCommit where
  commit : RelayCommit
  heardTransmitters : Table MAX_HEARD_TRANSMITTERS UInt32

/-- A node that is noted already is not noted again; a full list stays.
mirrors crates/mesh-routing/src/neighbor_graph.rs:2508-2517 -/
def HeardCommit.hear (transmitter : UInt32) (c : HeardCommit) : HeardCommit :=
  if c.heardTransmitters.rows.contains transmitter then c
  else { c with heardTransmitters := (c.heardTransmitters.push transmitter).getD c.heardTransmitters }

/-- mirrors crates/mesh-routing/src/neighbor_graph.rs:135-165 -/
structure HeardLedger where
  myNode : UInt32
  relayStates : Slots MAX_RELAY_STATES HeardCommit

namespace HeardLedger

variable (g : HeardLedger)

/-- mirrors crates/mesh-routing/src/neighbor_graph.rs:2494-2498 -/
def findRelayCommit (fromNode id : UInt32) : Option HeardCommit :=
  g.relayStates.find? fun c => c.commit.serves fromNode id

/-- `delay` is the slot of the plan and its tie break.
mirrors crates/mesh-routing/src/neighbor_graph.rs:1947-1997 -/
def commitRelay (fromNode id : UInt32) (radioId : UInt8) (snr : Int)
    (heardFrom nowMs delay : UInt32) : HeardLedger :=
  let txAfterMs := nowMs + delay
  let ours := fun c : HeardCommit => c.commit.serves fromNode id && c.commit.radioId == radioId
  match g.relayStates.find? ours with
  | some c =>
    if c.commit.snr ≤ snr then
      { g with relayStates := g.relayStates.changeFirst ours fun c =>
          { c with commit := { c.commit with snr, txAfterMs } } }
    else g
  | none =>
    match g.relayStates.place (fun c => !c.commit.active)
        ⟨⟨true, fromNode, id, radioId, txAfterMs, snr, heardFrom, .empty⟩, .empty⟩ with
    | some relayStates => { g with relayStates }
    | none => g

/-- mirrors crates/mesh-routing/src/neighbor_graph.rs:2004-2013 -/
def clearRelays : HeardLedger :=
  { g with relayStates := g.relayStates.map fun c =>
      { c with commit := { c.commit with active := false } } }

/-- mirrors crates/mesh-routing/src/neighbor_graph.rs:2015-2021 -/
def cancelRelay (fromNode id : UInt32) : HeardLedger :=
  { g with relayStates := g.relayStates.map fun c =>
      if c.commit.serves fromNode id then { c with commit := { c.commit with active := false } }
      else c }

/-- mirrors crates/mesh-routing/src/neighbor_graph.rs:2599-2610 -/
def setUnicastCommitFlags (fromNode id : UInt32) (flags : UnicastSlotFlags) : HeardLedger :=
  { g with relayStates := g.relayStates.map fun c =>
      if c.commit.serves fromNode id then { c with commit := { c.commit with unicastFlags := flags } }
      else c }

/-- mirrors crates/mesh-routing/src/neighbor_graph.rs:2673-2684 -/
def clearExpiredCommits (nowMs : UInt32) : HeardLedger :=
  { g with relayStates := g.relayStates.map fun c =>
      if c.commit.active && !notYet nowMs c.commit.txAfterMs &&
          MAX_HOLD_MS < nowMs - c.commit.txAfterMs then
        { c with commit := { c.commit with active := false } }
      else c }

/-- mirrors crates/mesh-routing/src/neighbor_graph.rs:2500-2518 -/
def accumulateHeardTransmitter (fromNode id transmitter : UInt32) : HeardLedger :=
  if transmitter == 0 || transmitter == g.myNode then g
  else
    { g with relayStates :=
        g.relayStates.changeFirst (fun c => c.commit.serves fromNode id) (HeardCommit.hear transmitter) }

/-- mirrors crates/mesh-routing/src/neighbor_graph.rs:2520-2543 -/
def buildCoverageTransmitters (fromNode id : UInt32) : List UInt32 :=
  match g.findRelayCommit fromNode id with
  | none => []
  | some c =>
    let heardFrom := c.commit.originalHeardFrom
    (if heardFrom != 0 && heardFrom != g.myNode then [heardFrom] else []) ++
      c.heardTransmitters.rows.filter (· != heardFrom)

/-- mirrors crates/mesh-routing/src/neighbor_graph.rs:2545-2560 -/
def allNeighborsCovered (ctx : CoverageContext) (fromNode packetId dupeRelayer nowMs : UInt32) :
    Bool × HeardLedger :=
  if dupeRelayer == 0 || dupeRelayer == g.myNode then (false, g)
  else
    let g := g.accumulateHeardTransmitter fromNode packetId dupeRelayer
    (!ctx.hasUniqueCoverage (g.buildCoverageTransmitters fromNode packetId) nowMs, g)

def new (myNode : UInt32) : HeardLedger := ⟨myNode, .all ⟨.inactive, .empty⟩⟩

end HeardLedger

/-! ## Calls -/

/-- The calls that write commits. -/
inductive CommitCall where
  | commitRelay (fromNode id : UInt32) (radioId : UInt8) (snr : Int) (heardFrom nowMs delay : UInt32)
  | allNeighborsCovered (fromNode id dupeRelayer : UInt32)
  | cancelRelay (fromNode id : UInt32)
  | setUnicastCommitFlags (fromNode id : UInt32) (flags : UnicastSlotFlags)
  | clearExpiredCommits (nowMs : UInt32)
  | clearRelays
  deriving DecidableEq

def HeardLedger.call (g : HeardLedger) : CommitCall → HeardLedger
  | .commitRelay fromNode id radioId snr heardFrom nowMs delay =>
    g.commitRelay fromNode id radioId snr heardFrom nowMs delay
  | .allNeighborsCovered fromNode id dupeRelayer => g.accumulateHeardTransmitter fromNode id dupeRelayer
  | .cancelRelay fromNode id => g.cancelRelay fromNode id
  | .setUnicastCommitFlags fromNode id flags => g.setUnicastCommitFlags fromNode id flags
  | .clearExpiredCommits nowMs => g.clearExpiredCommits nowMs
  | .clearRelays => g.clearRelays

/-- The same calls of the ledger without notes. -/
def RelayLedger.call (r : RelayLedger) : CommitCall → RelayLedger
  | .commitRelay fromNode id radioId snr heardFrom nowMs delay =>
    (r.commitRelay fromNode id radioId snr heardFrom nowMs delay).1
  | .allNeighborsCovered _ _ _ => r
  | .cancelRelay fromNode id => r.cancelRelay fromNode id
  | .setUnicastCommitFlags fromNode id flags => r.setUnicastCommitFlags fromNode id flags
  | .clearExpiredCommits nowMs => r.clearExpiredCommits nowMs
  | .clearRelays => r.clearRelays

/-- The ledger of the routing model is this one, without the notes. -/
structure HeardLedger.Backs (g : HeardLedger) (r : RelayLedger) : Prop where
  myNode : r.myNode = g.myNode
  relayStates : r.relayStates = g.relayStates.image HeardCommit.commit

section

variable {g : HeardLedger} {r : RelayLedger}

theorem hear_commit (transmitter : UInt32) (c : HeardCommit) :
    (c.hear transmitter).commit = c.commit := by
  unfold HeardCommit.hear
  split <;> rfl

theorem Backs.commitRelay (h : g.Backs r) (fromNode id : UInt32) (radioId : UInt8) (snr : Int)
    (heardFrom nowMs delay : UInt32) :
    (g.commitRelay fromNode id radioId snr heardFrom nowMs delay).Backs
      (r.commitRelay fromNode id radioId snr heardFrom nowMs delay).1 := by
  let ours := fun c : RelayCommit => c.serves fromNode id && c.radioId == radioId
  have hfind : r.relayStates.find? ours =
      (g.relayStates.find? fun c => ours c.commit).map HeardCommit.commit := by
    rw [h.relayStates]
    exact Slots.find?_image
  unfold HeardLedger.commitRelay RelayLedger.commitRelay
  dsimp only
  rw [hfind]
  cases g.relayStates.find? fun c => ours c.commit with
  | some c =>
    rw [Option.map_some]
    dsimp only
    split
    · refine ⟨h.myNode, ?_⟩
      dsimp only
      rw [h.relayStates]
      exact (Slots.image_changeFirst (f := HeardCommit.commit) (p := ours) fun c => rfl).symm
    · exact h
  | none =>
    have hplace := Slots.image_place (f := HeardCommit.commit) (p := fun c : RelayCommit => !c.active)
      (s := g.relayStates)
      ⟨⟨true, fromNode, id, radioId, nowMs + delay, snr, heardFrom, .empty⟩, .empty⟩
    rw [← h.relayStates] at hplace
    rw [Option.map_none]
    dsimp only
    rw [← hplace]
    cases g.relayStates.place (fun c => !c.commit.active)
      ⟨⟨true, fromNode, id, radioId, nowMs + delay, snr, heardFrom, .empty⟩, .empty⟩ with
    | none => exact h
    | some slots => exact ⟨h.myNode, rfl⟩

/-- Every call leaves the two ledgers alike. -/
theorem ledger_call (h : g.Backs r) (c : CommitCall) : (g.call c).Backs (r.call c) := by
  have hmap {f : HeardCommit → HeardCommit} {f' : RelayCommit → RelayCommit}
      (hf : ∀ c, (f c).commit = f' c.commit) :
      r.relayStates.map f' = (g.relayStates.map f).image HeardCommit.commit := by
    rw [h.relayStates]
    exact (Slots.image_map hf).symm
  cases c with
  | commitRelay fromNode id radioId snr heardFrom nowMs delay => exact Backs.commitRelay h ..
  | allNeighborsCovered fromNode id dupeRelayer =>
    change (g.accumulateHeardTransmitter fromNode id dupeRelayer).Backs r
    unfold HeardLedger.accumulateHeardTransmitter
    split
    · exact h
    · exact ⟨h.myNode, h.relayStates.trans
        (Slots.image_changeFirst_same (hear_commit dupeRelayer)).symm⟩
  | cancelRelay fromNode id => exact ⟨h.myNode, hmap fun c => by dsimp only; split <;> rfl⟩
  | setUnicastCommitFlags fromNode id flags =>
    exact ⟨h.myNode, hmap fun c => by dsimp only; split <;> rfl⟩
  | clearExpiredCommits nowMs => exact ⟨h.myNode, hmap fun c => by dsimp only; split <;> rfl⟩
  | clearRelays => exact ⟨h.myNode, hmap fun c => rfl⟩

end

/-! ## What was heard since a packet was committed -/

namespace CommitCall

/-- The call ends every commit of the packet. -/
def ends (k : PacketKey) : CommitCall → Bool
  | .cancelRelay fromNode id => (fromNode, id) == k
  | .clearRelays => true
  | _ => false

/-- The call shows that the node has transmitted the packet. -/
def shows (k : PacketKey) (node : UInt32) : CommitCall → Bool
  | .commitRelay fromNode id _ _ heardFrom _ _ => (fromNode, id) == k && heardFrom == node
  | .allNeighborsCovered fromNode id dupeRelayer => (fromNode, id) == k && dupeRelayer == node
  | _ => false

end CommitCall

/-- The calls since the packet was last given up; the latest call is the first. -/
def episode (k : PacketKey) (calls : List CommitCall) : List CommitCall :=
  calls.takeWhile fun c => !c.ends k

def Shown (k : PacketKey) (node : UInt32) (calls : List CommitCall) : Prop :=
  ∃ c ∈ episode k calls, c.shows k node = true

theorem Shown.cons {k : PacketKey} {node : UInt32} {calls : List CommitCall} {c : CommitCall}
    (h : Shown k node calls) (hc : c.ends k = false) : Shown k node (c :: calls) := by
  obtain ⟨c', hc', hshows⟩ := h
  refine ⟨c', ?_, hshows⟩
  rw [episode, List.takeWhile_cons_of_pos (by simpa using hc)]
  exact List.mem_cons_of_mem _ hc'

theorem Shown.now {k : PacketKey} {node : UInt32} {calls : List CommitCall} {c : CommitCall}
    (hc : c.ends k = false) (h : c.shows k node = true) : Shown k node (c :: calls) := by
  refine ⟨c, ?_, h⟩
  rw [episode, List.takeWhile_cons_of_pos (by simpa using hc)]
  exact List.mem_cons_self

/-- What a commit notes was heard since its packet was last given up. -/
structure HeardCommit.Evidenced (myNode : UInt32) (calls : List CommitCall) (c : HeardCommit) :
    Prop where
  heardFrom : Shown c.commit.packet c.commit.originalHeardFrom calls
  others : ∀ node ∈ c.heardTransmitters.rows,
    node ≠ 0 ∧ node ≠ myNode ∧ Shown c.commit.packet node calls

/-- What a call leaves of a commit. -/
structure HeardCommit.Keeps (myNode : UInt32) (call : CommitCall) (x y : HeardCommit) : Prop where
  active : y.commit.active = true → x.commit.active = true
  packet : y.commit.packet = x.commit.packet
  heardFrom : y.commit.originalHeardFrom = x.commit.originalHeardFrom
  stands : y.commit.active = true → call.ends y.commit.packet = false
  others : ∀ node ∈ y.heardTransmitters.rows, node ∈ x.heardTransmitters.rows ∨
    node ≠ 0 ∧ node ≠ myNode ∧ call.shows y.commit.packet node = true

section

variable {g : HeardLedger} {call : CommitCall} {x : HeardCommit} {fromNode id : UInt32}

theorem keeps_refl (h : x.commit.active = true → call.ends x.commit.packet = false) :
    x.Keeps g.myNode call x where
  active := id
  packet := rfl
  heardFrom := rfl
  stands := h
  others _ := .inl

theorem keeps_ended {y : HeardCommit} (hactive : y.commit.active = false)
    (hpacket : y.commit.packet = x.commit.packet)
    (hfrom : y.commit.originalHeardFrom = x.commit.originalHeardFrom)
    (hothers : y.heardTransmitters = x.heardTransmitters) : x.Keeps g.myNode call y where
  active h := by simp [hactive] at h
  packet := hpacket
  heardFrom := hfrom
  stands h := by simp [hactive] at h
  others _ := hothers ▸ .inl

theorem keeps_heard {transmitter : UInt32} (hzero : transmitter ≠ 0) (hme : transmitter ≠ g.myNode)
    (hx : x.commit.serves fromNode id = true) :
    x.Keeps g.myNode (.allNeighborsCovered fromNode id transmitter) (x.hear transmitter) := by
  have hcommit := hear_commit transmitter x
  have hpacket : x.commit.packet = (fromNode, id) := (RelayCommit.serves_iff.mp hx).2
  refine ⟨fun h => hcommit ▸ h, by rw [hcommit], by rw [hcommit], fun _ => rfl, ?_⟩
  intro node hnode
  rw [hcommit, hpacket]
  unfold HeardCommit.hear at hnode
  split at hnode
  · exact .inl hnode
  · dsimp only at hnode
    cases hpush : x.heardTransmitters.push transmitter with
    | none => exact .inl (by simpa [hpush] using hnode)
    | some t =>
      rw [hpush, Option.getD_some, Table.push_rows hpush, List.mem_append, List.mem_singleton] at hnode
      rcases hnode with hnode | rfl
      · exact .inl hnode
      · exact .inr ⟨hzero, hme, by simp [CommitCall.shows]⟩

/-- A call changes commits in place, or makes one. -/
theorem call_cases (g : HeardLedger) (call : CommitCall) :
    InPlace (HeardCommit.Keeps g.myNode call) g.relayStates (g.call call).relayStates ∨
      ∃ c : HeardCommit, c.heardTransmitters.rows = [] ∧ call.ends c.commit.packet = false ∧
        call.shows c.commit.packet c.commit.originalHeardFrom = true ∧
        g.relayStates.place (fun c => !c.commit.active) c = some (g.call call).relayStates := by
  cases call with
  | commitRelay fromNode id radioId snr heardFrom nowMs delay =>
    have hrefl : ∀ x : HeardCommit,
        x.Keeps g.myNode (.commitRelay fromNode id radioId snr heardFrom nowMs delay) x :=
      fun x => keeps_refl fun _ => rfl
    change InPlace _ _ (g.commitRelay fromNode id radioId snr heardFrom nowMs delay).relayStates ∨
      ∃ c : HeardCommit, _ ∧ _ ∧ _ ∧
        _ = some (g.commitRelay fromNode id radioId snr heardFrom nowMs delay).relayStates
    unfold HeardLedger.commitRelay
    dsimp only
    split
    · split
      · exact .inl (.changeFirst hrefl fun x _ _ =>
          ⟨fun h => h, rfl, rfl, fun _ => rfl, fun _ => .inl⟩)
      · exact .inl (.refl hrefl _)
    · split
      · rename_i slots hplace
        exact .inr ⟨_, rfl, rfl, by simp [CommitCall.shows, RelayCommit.packet], hplace⟩
      · exact .inl (.refl hrefl _)
  | allNeighborsCovered fromNode id dupeRelayer =>
    have hrefl : ∀ x : HeardCommit, x.Keeps g.myNode (.allNeighborsCovered fromNode id dupeRelayer) x :=
      fun x => keeps_refl fun _ => rfl
    refine .inl ?_
    change InPlace _ _ (g.accumulateHeardTransmitter fromNode id dupeRelayer).relayStates
    unfold HeardLedger.accumulateHeardTransmitter
    split
    · exact .refl hrefl _
    · rename_i hother
      rw [Bool.or_eq_true, not_or, beq_iff_eq, beq_iff_eq] at hother
      exact .changeFirst hrefl fun x _ hx => keeps_heard hother.1 hother.2 hx
  | cancelRelay fromNode id =>
    refine .inl (.map fun x _ => ?_)
    dsimp only
    split
    · exact keeps_ended rfl rfl rfl rfl
    · rename_i hserves
      refine keeps_refl fun hactive => ?_
      rw [RelayCommit.serves_iff] at hserves
      exact beq_eq_false_iff_ne.mpr fun h => hserves ⟨hactive, h.symm⟩
  | setUnicastCommitFlags fromNode id flags =>
    refine .inl (.map fun x _ => ?_)
    dsimp only
    split
    · exact ⟨fun h => h, rfl, rfl, fun _ => rfl, fun _ => .inl⟩
    · exact keeps_refl fun _ => rfl
  | clearExpiredCommits nowMs =>
    refine .inl (.map fun x _ => ?_)
    dsimp only
    split
    · exact keeps_ended rfl rfl rfl rfl
    · exact keeps_refl fun _ => rfl
  | clearRelays => exact .inl (.map fun x _ => keeps_ended rfl rfl rfl rfl)

end

/-! ## Runs -/

/-- The ledger, the one of the routing model beside it, and the calls so far. -/
structure HeardRun where
  ledger : HeardLedger
  graph : RelayLedger
  calls : List CommitCall

def HeardRun.next (w : HeardRun) (call : CommitCall) : HeardRun :=
  ⟨w.ledger.call call, w.graph.call call, call :: w.calls⟩

def heardLTS : LTS HeardRun CommitCall where
  init w := w.ledger = .new w.graph.myNode ∧ w.graph.relayStates = .all .inactive ∧ w.calls = []
  step w call w' := w' = w.next call

theorem backs_inductive : heardLTS.Inductive fun w => w.ledger.Backs w.graph where
  init w h := by
    obtain ⟨hledger, hgraph, -⟩ := h
    refine ⟨by rw [hledger]; rfl, ?_⟩
    rw [hledger, hgraph]
    exact Slots.ext_cells List.map_replicate.symm
  step w call w' h hs := by
    rw [hs]
    exact ledger_call h call

/-- What live commits note was heard since their packet was last given up. -/
def Evidenced (w : HeardRun) : Prop :=
  ∀ c ∈ w.ledger.relayStates, c.commit.active = true → c.Evidenced w.ledger.myNode w.calls

theorem call_myNode (g : HeardLedger) (call : CommitCall) : (g.call call).myNode = g.myNode := by
  cases call with
  | commitRelay fromNode id radioId snr heardFrom nowMs delay =>
    change (g.commitRelay fromNode id radioId snr heardFrom nowMs delay).myNode = _
    unfold HeardLedger.commitRelay
    dsimp only
    split
    · split <;> rfl
    · split <;> rfl
  | allNeighborsCovered fromNode id dupeRelayer =>
    change (g.accumulateHeardTransmitter fromNode id dupeRelayer).myNode = _
    unfold HeardLedger.accumulateHeardTransmitter
    split <;> rfl
  | cancelRelay fromNode id => rfl
  | setUnicastCommitFlags fromNode id flags => rfl
  | clearExpiredCommits nowMs => rfl
  | clearRelays => rfl

theorem evidenced_next {w : HeardRun} (h : Evidenced w) (call : CommitCall) :
    Evidenced (w.next call) := by
  intro y hy hactive
  have hme : (w.next call).ledger.myNode = w.ledger.myNode := call_myNode w.ledger call
  rw [hme]
  have hkept {x : HeardCommit} (hx : x ∈ w.ledger.relayStates)
      (hxy : x.Keeps w.ledger.myNode call y) : y.Evidenced w.ledger.myNode (w.next call).calls := by
    have hbefore := h x hx (hxy.active hactive)
    have hstands := hxy.stands hactive
    constructor
    · rw [hxy.heardFrom]
      exact (hxy.packet ▸ hbefore.heardFrom).cons hstands
    · intro node hnode
      rcases hxy.others node hnode with hnode | ⟨hzero, hother, hshows⟩
      · obtain ⟨hzero, hother, hshown⟩ := hbefore.others node hnode
        exact ⟨hzero, hother, (hxy.packet ▸ hshown).cons hstands⟩
      · exact ⟨hzero, hother, .now hstands hshows⟩
  rcases call_cases w.ledger call with hplace | ⟨c, hnone, hends, hshows, hplace⟩
  · obtain ⟨x, hx, hxy⟩ := hplace.origin hy
    exact hkept hx hxy
  · rcases Slots.mem_of_place hplace hy with rfl | hx
    · exact ⟨.now hends hshows, fun node hnode => by simp [hnone] at hnode⟩
    · -- a call that makes a commit ends none
      cases call with
      | commitRelay fromNode id radioId snr heardFrom nowMs delay =>
        exact hkept hx (keeps_refl fun _ => rfl)
      | allNeighborsCovered fromNode id dupeRelayer => exact hkept hx (keeps_refl fun _ => rfl)
      | cancelRelay fromNode id => simp [CommitCall.shows] at hshows
      | setUnicastCommitFlags fromNode id flags => exact hkept hx (keeps_refl fun _ => rfl)
      | clearExpiredCommits nowMs => exact hkept hx (keeps_refl fun _ => rfl)
      | clearRelays => simp [CommitCall.shows] at hshows

theorem evidenced_inductive : heardLTS.Inductive Evidenced where
  init w h := by
    obtain ⟨hledger, -⟩ := h
    intro c hc hactive
    rw [hledger] at hc
    rw [Slots.mem_all hc] at hactive
    cases hactive
  step w call w' h hs := by
    rw [hs]
    exact evidenced_next h call

/-! ## What is covered -/

/-- The neighbour is owed the packet by us: it is heard of, and it hears us or is ours to serve.
mirrors crates/mesh-routing/src/neighbor_graph.rs:2446-2475 -/
def owes (ctx : CoverageContext) (nowMs : UInt32) (e : Edge) : Prop :=
  isPlaceholderNode e.toNode = false ∧ ctx.silent e.toNode nowMs = false ∧
    ctx.droppedCoverage.blocks e.toNode = false ∧
    (e.hearsUs = true ∨ ctx.owner e.toNode = ctx.myNode) ∧ ctx.covers ctx.myNode e.toNode = true

section

variable {ctx : CoverageContext} {nowMs : UInt32}

/-- Nothing is left to us: each neighbour is one of the nodes, or covered by one. -/
theorem covered_of_none {nodes : List UInt32} (h : ctx.hasUniqueCoverage nodes nowMs = false) {e : Edge}
    (he : e ∈ ctx.edges.listed ctx.myNode) (howed : owes ctx nowMs e) :
    ∃ node ∈ nodes, node = e.toNode ∨ ctx.covers node e.toNode = true := by
  obtain ⟨hnode, hloud, hkept, hours, hcovers⟩ := howed
  have hserved : ctx.servesAlone nodes nowMs e = false := by
    by_contra hne
    rw [Bool.not_eq_false] at hne
    have hunique := ctx.hasUniqueCoverage_iff.mpr ⟨e, he, hne⟩
    rw [h] at hunique
    cases hunique
  have howner : (!e.hearsUs && ctx.owner e.toNode != ctx.myNode) = false := by
    rcases hours with hhears | howns
    · simp [hhears]
    · simp [howns]
  unfold CoverageContext.servesAlone at hserved
  dsimp only at hserved
  simp only [hnode, hloud, hkept, howner, hcovers, Bool.false_eq_true, if_false, Bool.not_true] at hserved
  split at hserved
  · rename_i hmem
    exact ⟨e.toNode, by simpa using hmem, .inl rfl⟩
  · rw [Bool.not_eq_false', List.any_eq_true] at hserved
    obtain ⟨node, hnode, hcov⟩ := hserved
    exact ⟨node, hnode, .inr hcov⟩

/-- What the coverage is asked with was heard. -/
theorem transmitters_shown {w : HeardRun} (h : Evidenced w) {fromNode id node : UInt32}
    (hnode : node ∈ w.ledger.buildCoverageTransmitters fromNode id) :
    node ≠ 0 ∧ node ≠ w.ledger.myNode ∧ Shown (fromNode, id) node w.calls := by
  unfold HeardLedger.buildCoverageTransmitters at hnode
  split at hnode
  · exact absurd hnode List.not_mem_nil
  · rename_i c hfind
    obtain ⟨hactive, hpacket⟩ := RelayCommit.serves_iff.mp
      (show c.commit.serves fromNode id = true by simpa using List.find?_some hfind)
    have hevidence := h c (Slots.find?_mem hfind) hactive
    rw [← hpacket]
    rcases List.mem_append.mp hnode with hnode | hnode
    · split at hnode
      · rename_i hother
        rw [Bool.and_eq_true, bne_iff_ne, bne_iff_ne] at hother
        rw [List.mem_singleton.mp hnode]
        exact ⟨hother.1, hother.2, hevidence.heardFrom⟩
      · exact absurd hnode List.not_mem_nil
    · exact hevidence.others node (List.mem_of_mem_filter hnode)

/-- A neighbour is covered by a node that was heard to transmit the packet since we last gave it up. -/
def CoveredBy (ctx : CoverageContext) (k : PacketKey) (calls : List CommitCall) (e : Edge) : Prop :=
  ∃ node, node ≠ 0 ∧ node ≠ ctx.myNode ∧ Shown k node calls ∧
    (node = e.toNode ∨ ctx.covers node e.toNode = true)

theorem allNeighborsCovered_sound {w : HeardRun} (h : heardLTS.Reachable w)
    (hme : ctx.myNode = w.ledger.myNode)
    {fromNode id dupeRelayer : UInt32}
    (hcovered : (w.ledger.allNeighborsCovered ctx fromNode id dupeRelayer nowMs).1 = true) {e : Edge}
    (he : e ∈ ctx.edges.listed ctx.myNode) (howed : owes ctx nowMs e) :
    CoveredBy ctx (fromNode, id) (.allNeighborsCovered fromNode id dupeRelayer :: w.calls) e := by
  have hevidence := evidenced_next (evidenced_inductive.reachable h)
    (.allNeighborsCovered fromNode id dupeRelayer)
  unfold HeardLedger.allNeighborsCovered at hcovered
  split at hcovered
  · cases hcovered
  · dsimp only at hcovered
    rw [Bool.not_eq_true'] at hcovered
    obtain ⟨node, hnode, hcovers⟩ := covered_of_none hcovered he howed
    obtain ⟨hzero, hother, hshown⟩ := transmitters_shown hevidence hnode
    have hme' := call_myNode w.ledger (.allNeighborsCovered fromNode id dupeRelayer)
    exact ⟨node, hzero, fun heq => hother (heq.trans (hme.trans hme'.symm)), hshown, hcovers⟩

end

/-- The commit of a packet is found in both ledgers. -/
theorem findRelayCommit_isSome {g : HeardLedger} {graph : RelayLedger} (h : g.Backs graph)
    (fromNode id : UInt32) :
    (g.findRelayCommit fromNode id).isSome = graph.isCommittedRelay fromNode id := by
  unfold HeardLedger.findRelayCommit RelayLedger.isCommittedRelay
  rw [h.relayStates, Bool.eq_iff_iff, Slots.find?, Slots.any, List.find?_isSome, List.any_eq_true]
  simp [Slots.image]

section

variable {r : Router} {parsed : ParsedPacket} {a : Answers}

theorem noteTxCancel_graph (r : Router) (k : PacketKey) : (r.noteTxCancel k).graph = r.graph := by
  unfold Router.noteTxCancel
  split
  · rfl
  · split <;> rfl

theorem cancelT1Retransmit_graph (r : Router) (fromNode id : UInt32) :
    (r.cancelT1Retransmit fromNode id).graph = r.graph := by
  unfold Router.cancelT1Retransmit
  split
  · rfl
  · split
    · rfl
    · split
      · exact noteTxCancel_graph _ _
      · rfl

/-- Until its neighbours are covered, a commit stays whatever copies are heard relayed. -/
theorem perhapsCancelDupe_uncovered (hto : parsed.toNode = NODENUM_BROADCAST)
    (hcopy : r.duplicateIsRebroadcast parsed = true) (huncovered : a.allNeighborsCovered = false)
    (hcommitted : r.graph.isCommittedRelay parsed.fromNode parsed.id = true) (radioId : UInt8)
    (nowMs : UInt32) : (r.perhapsCancelDupe parsed radioId a nowMs).graph = r.graph := by
  have hgraph := cancelT1Retransmit_graph r parsed.fromNode parsed.id
  have hcopy' :
      (r.cancelT1Retransmit parsed.fromNode parsed.id).duplicateIsRebroadcast parsed = true := by
    unfold Router.duplicateIsRebroadcast Router.nodeNum
    rw [hgraph]
    exact hcopy
  unfold Router.perhapsCancelDupe
  dsimp only
  rw [hto, bne_self_eq_false, Bool.false_and, if_neg Bool.false_ne_true, hcommitted, hcopy, huncovered]
  split
  · unfold Router.cancelReleasedDupe
    dsimp only
    rw [hcopy', huncovered]
    exact hgraph
  · rfl

end

/-- In any run: a relay of a broadcast that we have committed to and give up for a copy relayed by
another node leaves no neighbour unserved that it was owed to. Each is covered by a node that was
heard to transmit the packet since we last gave it up. -/
theorem broadcast_given_up_covered {w : HeardRun} (h : heardLTS.Reachable w) {r : Router}
    (hgraph : r.graph = w.graph) {ctx : CoverageContext} (hme : ctx.myNode = w.ledger.myNode)
    {parsed : ParsedPacket} (hto : parsed.toNode = NODENUM_BROADCAST)
    (hcopy : r.duplicateIsRebroadcast parsed = true) {a : Answers} {radioId : UInt8} {nowMs : UInt32}
    (hanswer : a.allNeighborsCovered =
      (w.ledger.allNeighborsCovered ctx parsed.fromNode parsed.id a.heardRelayer nowMs).1)
    (hcommitted : (w.ledger.findRelayCommit parsed.fromNode parsed.id).isSome = true)
    (hgone : (r.perhapsCancelDupe parsed radioId a nowMs).graph.isCommittedRelay parsed.fromNode
      parsed.id = false) :
    ∀ e ∈ ctx.edges.listed ctx.myNode, owes ctx nowMs e →
      CoveredBy ctx (parsed.fromNode, parsed.id)
        (.allNeighborsCovered parsed.fromNode parsed.id a.heardRelayer :: w.calls) e := by
  intro e he howed
  rw [findRelayCommit_isSome (backs_inductive.reachable h), ← hgraph] at hcommitted
  cases hcovered : a.allNeighborsCovered with
  | true => exact allNeighborsCovered_sound h hme (hanswer.symm.trans hcovered) he howed
  | false =>
    rw [perhapsCancelDupe_uncovered hto hcopy hcovered hcommitted radioId nowMs, hcommitted] at hgone
    cases hgone

/-! Node 1 hears node 2 relay what it has committed to; node 3 hears both. -/

def heardEdge (n : UInt32) : Edge :=
  { toNode := n, etxFixed := 100, source := .reported, hearsUs := true }

def besideContext : CoverageContext where
  myNode := 1
  myNodeRelays := true
  edges := {
    nodes := ⟨[⟨1, 100, ⟨[heardEdge 2, heardEdge 3], by decide⟩, by decide, by decide⟩,
      ⟨2, 100, ⟨[heardEdge 1, heardEdge 3], by decide⟩, by decide, by decide⟩], by decide⟩
    nodup := by decide }
  capability := ⟨.empty⟩
  droppedCoverage := .empty

def committing : CommitCall := .commitRelay 9 7 0 5 9 100 50

def quietRun : HeardRun := ⟨.new 1, (Router.new 1 0 88397 1).graph, []⟩

def besideCopy : ParsedPacket := ⟨NODENUM_BROADCAST, 9, 7, 0, 2, 3, false, false, 0, 2⟩

def besideAnswers : Answers := ⟨none, false, true, 2, 2, false, true, 0⟩

theorem broadcast_given_up_covered_beside :
    CoveredBy besideContext (9, 7) [.allNeighborsCovered 9 7 2, committing] (heardEdge 3) := by
  have hreach : heardLTS.Reachable (quietRun.next committing) :=
    ⟨quietRun, [committing], ⟨rfl, rfl, rfl⟩, .cons rfl (.nil _)⟩
  have howed : owes besideContext 120 (heardEdge 3) := by
    unfold owes
    decide +kernel
  let r : Router := { Router.new 1 0 88397 1 with graph := (quietRun.next committing).graph }
  have hcopy : r.duplicateIsRebroadcast besideCopy = true := by decide +kernel
  have hanswer : besideAnswers.allNeighborsCovered =
      ((quietRun.next committing).ledger.allNeighborsCovered besideContext besideCopy.fromNode
        besideCopy.id besideAnswers.heardRelayer 120).1 := by
    decide +kernel
  have hgone : (r.perhapsCancelDupe besideCopy 0 besideAnswers 120).graph.isCommittedRelay
      besideCopy.fromNode besideCopy.id = false := by
    decide +kernel
  exact broadcast_given_up_covered hreach (r := r) rfl rfl rfl hcopy hanswer rfl hgone (heardEdge 3)
    (by decide +kernel) howed

end Meshrustic.Routing
