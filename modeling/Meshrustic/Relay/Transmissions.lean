import Meshrustic.Core.Recency
import Meshrustic.Graph.Edge
import Meshrustic.Routing.Ledger

/-!
# Who has transmitted a packet (`mesh-routing/src/neighbor_graph.rs:468-560`)

A table of 32 rows keeps which nodes were heard to transmit which packets. The rankings and the
cancelling of relays ask it about one node and one packet. A row counts for a time; a full table
gives up the oldest row.

Results:
* `hear_noted`: a frame heard is one note for each node whose transmission it shows;
* `transmissions_recalled`: who counts as a transmitter, over whole runs of frames heard.
-/
namespace Meshrustic.Relay

open Meshrustic.Graph (isPlaceholderNode)
open Meshrustic.Routing (NodeTxRecord)

def MAX_NODE_TX_RECORDS : Nat := 32

/-- A node, an originator and a packet. -/
abbrev TransmissionKey := UInt32 × UInt32 × UInt32

def recordKey (rec : NodeTxRecord) : TransmissionKey := (rec.nodeId, rec.originator, rec.packetId)

/-- mirrors crates/mesh-routing/src/neighbor_graph.rs:135-165, the rows in use of `node_tx` -/
structure Transmissions where
  myNode : UInt32
  nodeTx : Table MAX_NODE_TX_RECORDS NodeTxRecord

namespace Transmissions

variable (g : Transmissions)

/-- A record of the same transmission is renewed; the oldest one gives way in a full table.
mirrors crates/mesh-routing/src/neighbor_graph.rs:468-505, 549-560 -/
def recordNodeTransmission (nodeId originator packetId nowMs : UInt32) : Transmissions :=
  if nodeId == 0 || packetId == 0 then g
  else
    let entry : NodeTxRecord := ⟨nodeId, packetId, originator, nowMs⟩
    { g with nodeTx := g.nodeTx.renew recordKey (ageAt NodeTxRecord.atMs nowMs) entry }

/-- mirrors crates/mesh-routing/src/neighbor_graph.rs:507-526 -/
def hasNodeTransmitted (windowMs nodeId originator packetId nowMs : UInt32) : Bool :=
  g.nodeTx.rows.any fun rec => rec.nodeId == nodeId && rec.packetId == packetId &&
    rec.originator == originator && nowMs - rec.atMs ≤ windowMs

/-- mirrors crates/mesh-routing/src/neighbor_graph.rs:528-547 -/
def recordHeardTransmissions (source packetId : UInt32) (relayer : Option UInt32) (nowMs : UInt32) :
    Transmissions :=
  if packetId == 0 then g
  else
    let g := if source != 0 && source != g.myNode && !isPlaceholderNode source then
      g.recordNodeTransmission source source packetId nowMs else g
    match relayer with
    | some relay =>
      if relay != 0 && relay != g.myNode && relay != source && !isPlaceholderNode relay then
        g.recordNodeTransmission relay source packetId nowMs
      else g
    | none => g

end Transmissions

/-! ## Frames heard -/

/-- A frame of a packet is heard, from a node that has relayed it if that is known. -/
structure Heard where
  source : UInt32
  packetId : UInt32
  relayer : Option UInt32
  time : Nat

/-- The nodes whose transmission of the packet it shows. -/
def Heard.transmitters (myNode : UInt32) (h : Heard) : List UInt32 :=
  if h.packetId == 0 then []
  else (h.source :: h.relayer.toList.filter (· != h.source)).filter fun n =>
    n != 0 && n != myNode && !isPlaceholderNode n

def Heard.notes (myNode : UInt32) (h : Heard) : List (NodeTxRecord × Nat) :=
  (h.transmitters myNode).map fun n => (⟨n, h.packetId, h.source, clock h.time⟩, h.time)

def Transmissions.hear (g : Transmissions) (h : Heard) : Transmissions :=
  g.recordHeardTransmissions h.source h.packetId h.relayer (clock h.time)

/-- The table after some notes. -/
def Transmissions.noted (g : Transmissions) (notes : List (NodeTxRecord × Nat)) : Transmissions :=
  { g with nodeTx := noteAll recordKey NodeTxRecord.atMs g.nodeTx notes }

theorem noted_nil (g : Transmissions) : g.noted [] = g := rfl

theorem noted_append (g : Transmissions) (a b : List (NodeTxRecord × Nat)) :
    g.noted (a ++ b) = (g.noted a).noted b := by
  simp [Transmissions.noted, noteAll]

theorem recordNodeTransmission_noted (g : Transmissions) {nodeId packetId : UInt32}
    (hnode : nodeId ≠ 0) (hid : packetId ≠ 0) (originator : UInt32) (time : Nat) :
    g.recordNodeTransmission nodeId originator packetId (clock time) =
      g.noted [(⟨nodeId, packetId, originator, clock time⟩, time)] := by
  simp [Transmissions.recordNodeTransmission, Transmissions.noted, noteAll, hnode, hid]

/-- A frame is noted once for each node whose transmission it shows. -/
theorem hear_noted (g : Transmissions) (h : Heard) : g.hear h = g.noted (h.notes g.myNode) := by
  obtain ⟨source, packetId, relayer, time⟩ := h
  unfold Transmissions.hear Transmissions.recordHeardTransmissions Heard.notes Heard.transmitters
  dsimp only
  by_cases hid : packetId = 0
  · simp [hid, noted_nil]
  have hrecord (g : Transmissions) (n : UInt32) :
      (if n != 0 && n != g.myNode && !isPlaceholderNode n then
        g.recordNodeTransmission n source packetId (clock time) else g) =
      g.noted (((if n != 0 && n != g.myNode && !isPlaceholderNode n then [n] else []).map fun n =>
        (⟨n, packetId, source, clock time⟩, time))) := by
    split
    · rename_i hn
      rw [recordNodeTransmission_noted g (by simp_all) hid]
      rfl
    · rfl
  have hzero : (packetId == 0) = false := beq_eq_false_iff_ne.mpr hid
  have hsplit (p : UInt32 → Bool) (a : UInt32) (l : List UInt32) :
      (a :: l).filter p = (if p a then [a] else []) ++ l.filter p := by
    rw [List.filter_cons]
    split <;> rfl
  rw [hzero, if_neg Bool.false_ne_true, if_neg Bool.false_ne_true, hsplit, List.map_append, noted_append,
    hrecord g source]
  cases relayer with
  | none => rfl
  | some relay =>
    by_cases hsame : relay = source
    · subst hsame
      simp [noted_nil]
    · have hother : (relay != source) = true := bne_iff_ne.mpr hsame
      have hkept : (relay :: []).filter (· != source) = [relay] := by simp [hsame]
      generalize hg : g.noted _ = heard
      have hme : heard.myNode = g.myNode := by rw [← hg]; rfl
      rw [Option.toList_some, hkept, hsplit, List.filter_nil, List.append_nil, ← hme,
        ← hrecord heard relay]
      dsimp only
      rw [hother, Bool.and_true]

/-! ## Runs -/

/-- The frames heard, in order and within one turn of the clock. -/
structure HeardInTime (hs : List Heard) : Prop where
  ordered : hs.Pairwise fun a b => a.time ≤ b.time
  turn : ∀ a ∈ hs, ∀ b ∈ hs, b.time < a.time + CLOCK_PERIOD

def Transmissions.new (myNode : UInt32) : Transmissions := ⟨myNode, .empty⟩

/-- What is noted of the frames heard. -/
def noteLog (myNode : UInt32) (hs : List Heard) : List (NodeTxRecord × Nat) :=
  hs.flatMap (Heard.notes myNode)

theorem hear_noteLog (g : Transmissions) (hs : List Heard) :
    hs.foldl Transmissions.hear g = g.noted (noteLog g.myNode hs) := by
  induction hs generalizing g with
  | nil => rfl
  | cons h hs ih =>
    rw [List.foldl_cons, hear_noted, ih]
    change _ = g.noted (h.notes g.myNode ++ noteLog g.myNode hs)
    rw [noted_append]
    rfl

theorem mem_noteLog {myNode : UInt32} {hs : List Heard} {n : NodeTxRecord × Nat} :
    n ∈ noteLog myNode hs ↔ ∃ h ∈ hs, ∃ node ∈ h.transmitters myNode,
      n = (⟨node, h.packetId, h.source, clock h.time⟩, h.time) := by
  simp [noteLog, Heard.notes, eq_comm]

theorem noteLog_inTime {hs : List Heard} (h : HeardInTime hs) (myNode : UInt32) :
    InTime NodeTxRecord.atMs (noteLog myNode hs) where
  stamped n hn := by
    obtain ⟨h, -, node, -, rfl⟩ := mem_noteLog.mp hn
    rfl
  ordered := by
    rw [noteLog, List.pairwise_flatMap]
    constructor
    · intro e he
      rw [Heard.notes, List.pairwise_map]
      exact List.pairwise_of_forall fun _ _ => Nat.le_refl _
    · refine h.ordered.imp fun hle m hm n hn => ?_
      obtain ⟨_, -, rfl⟩ := List.mem_map.mp hm
      obtain ⟨_, -, rfl⟩ := List.mem_map.mp hn
      exact hle
  turn m hm n hn := by
    obtain ⟨a, ha, _, -, rfl⟩ := mem_noteLog.mp hm
    obtain ⟨b, hb, _, -, rfl⟩ := mem_noteLog.mp hn
    exact h.turn a ha b hb

/-- A row of the table is of a node, a packet and a time within the window. -/
theorem hasNodeTransmitted_iff {g : Transmissions} {windowMs nodeId originator packetId nowMs : UInt32} :
    g.hasNodeTransmitted windowMs nodeId originator packetId nowMs = true ↔
      ∃ r ∈ g.nodeTx.rows, recordKey r = (nodeId, originator, packetId) ∧
        nowMs - r.atMs ≤ windowMs := by
  simp only [Transmissions.hasNodeTransmitted, List.any_eq_true, Bool.and_eq_true, beq_iff_eq,
    decide_eq_true_iff, recordKey, Prod.mk.injEq]
  constructor
  · rintro ⟨r, hr, ⟨⟨hn, hp⟩, ho⟩, hw⟩
    exact ⟨r, hr, ⟨hn, ho, hp⟩, hw⟩
  · rintro ⟨r, hr, ⟨hn, ho, hp⟩, hw⟩
    exact ⟨r, hr, ⟨⟨hn, hp⟩, ho⟩, hw⟩

/-- The frame shows, within the window before `now`, that the node has transmitted the packet. -/
def Heard.Shows (myNode windowMs nodeId originator packetId : UInt32) (now : Nat) (h : Heard) : Prop :=
  h.source = originator ∧ h.packetId = packetId ∧ nodeId ∈ h.transmitters myNode ∧
    now ≤ h.time + windowMs.toNat

/-- Over any frames heard: who counts as a transmitter was heard within the window, and who was heard
counts, unless 32 other transmissions were noted no earlier. -/
theorem transmissions_recalled (myNode : UInt32) {hs : List Heard} (h : HeardInTime hs) {now : Nat}
    (hpast : ∀ e ∈ hs, e.time ≤ now) (hturn : ∀ e ∈ hs, now < e.time + CLOCK_PERIOD)
    (windowMs nodeId originator packetId : UInt32) :
    let transmitted := (hs.foldl Transmissions.hear (.new myNode)).hasNodeTransmitted windowMs nodeId
      originator packetId (clock now)
    let shown := ∃ e ∈ hs, e.Shows myNode windowMs nodeId originator packetId now
    (transmitted = true → shown) ∧
      (shown → transmitted = true ∨ Displaced recordKey MAX_NODE_TX_RECORDS
        (noteLog myNode hs).reverse (nodeId, originator, packetId)) := by
  intro transmitted shown
  have hin := noteLog_inTime h myNode
  have hrecalls : RecallsLatest recordKey ((Transmissions.new myNode).noted (noteLog myNode hs)).nodeTx
      (noteLog myNode hs).reverse := recalls_notes (by decide) hin
  have hage {e : Heard} (he : e ∈ hs) : (clock now - clock e.time).toNat = now - e.time := by
    have hpast := hpast e he
    have hturn := hturn e he
    rw [clock_sub hpast, Nat.mod_eq_of_lt (by omega)]
  have hreads : transmitted = true ↔
      ∃ r ∈ ((Transmissions.new myNode).noted (noteLog myNode hs)).nodeTx.rows,
        recordKey r = (nodeId, originator, packetId) ∧ clock now - r.atMs ≤ windowMs := by
    rw [← hasNodeTransmitted_iff (g := (Transmissions.new myNode).noted (noteLog myNode hs))]
    simp only [transmitted, hear_noteLog]
    rfl
  constructor
  · intro htrue
    obtain ⟨r, hr, hkey, hwindow⟩ := hreads.mp htrue
    obtain ⟨time, htime⟩ := hrecalls.latest r hr
    obtain ⟨e, he, node, hnode, heq⟩ := mem_noteLog.mp (List.mem_reverse.mp (lastNote_mem htime))
    cases heq
    cases hkey
    rw [UInt32.le_iff_toNat_le, hage he] at hwindow
    exact ⟨e, he, rfl, rfl, hnode, by omega⟩
  · rintro ⟨e, he, rfl, rfl, hnode, hwindow⟩
    by_cases hlost : Displaced recordKey MAX_NODE_TX_RECORDS (noteLog myNode hs).reverse
        (nodeId, e.source, e.packetId)
    · exact .inr hlost
    refine .inl (hreads.mpr ?_)
    have hnoted : ((⟨nodeId, e.packetId, e.source, clock e.time⟩, e.time) : NodeTxRecord × Nat) ∈
        (noteLog myNode hs).reverse :=
      List.mem_reverse.mpr (mem_noteLog.mpr ⟨e, he, nodeId, hnode, rfl⟩)
    obtain ⟨m, hm, hlater⟩ : ∃ m, lastNote recordKey (nodeId, e.source, e.packetId)
        (noteLog myNode hs).reverse = some m ∧ e.time ≤ m.2 :=
      lastNote_latest (List.pairwise_reverse.mpr hin.ordered) hnoted
    have hfound := hrecalls.find_kept hm hlost
    have hmkey := lastNote_key hm
    obtain ⟨e', he', node, -, rfl⟩ := mem_noteLog.mp (List.mem_reverse.mp (lastNote_mem hm))
    refine ⟨_, List.mem_of_find?_eq_some hfound, hmkey, ?_⟩
    rw [UInt32.le_iff_toNat_le]
    change (clock now - clock e'.time).toNat ≤ _
    rw [hage he']
    change e.time ≤ e'.time at hlater
    omega

/-- Node 7 has relayed a packet of node 9. -/
theorem transmissions_recalled_relay :
    let heard : List Heard := [⟨9, 1, some 7, 100⟩, ⟨9, 2, none, 140⟩]
    ∃ e ∈ heard, e.Shows 5 1000 7 9 1 150 := by
  have hordered : HeardInTime [⟨9, 1, some 7, 100⟩, ⟨9, 2, none, 140⟩] :=
    ⟨by simp, by simp [CLOCK_PERIOD]⟩
  exact (transmissions_recalled 5 hordered (by simp) (by simp [CLOCK_PERIOD]) 1000 7 9 1).1
    (by decide +kernel)

end Meshrustic.Relay
