import Meshrustic.Core.Slots
import Meshrustic.Routing.Packet

/-!
# Retries (`mesh-routing/src/reliable.rs`)

Four slots hold the packets that are repeated until they are answered. A
slot waits either for its frame to leave the radio (`awaiting_tx`) or for the
time of its next try.

Every operation but `schedule_reliable` changes slots in place and wakes
none (`Kept`); only a retry that comes due starts to wait for the radio
(`Eased`, `dueRetransmit_awaiting`).
-/
namespace Meshrustic.Routing

def MAX_PENDING_RELIABLE : Nat := 4
def NAMED_FOLLOWUP_TRIES : Nat := 2

/-- mirrors crates/mesh-routing/src/reliable.rs:7-14 -/
structure NamedFollowup where
  nominatedHop : UInt32
  nominatedByte : UInt8
  upstream : UInt32
  delayMs : UInt32
  redirectOnLast : Bool
  deriving DecidableEq, Repr

/-- mirrors crates/mesh-routing/src/reliable.rs:16-31 -/
structure PendingReliable where
  active : Bool
  fromNode : UInt32
  packetId : UInt32
  toNode : UInt32
  relayed : Bool
  named : Option NamedFollowup
  numRetx : Nat
  awaitingTx : Bool
  hasTransmitted : Bool
  retxDelayMs : UInt32
  nextTxMs : UInt32
  frame : Frame
  deriving DecidableEq, Repr

namespace PendingReliable

def key (s : PendingReliable) : PacketKey := (s.fromNode, s.packetId)

/-- The active slot of a packet. -/
def serves (fromNode packetId : UInt32) (s : PendingReliable) : Bool :=
  s.active && s.fromNode == fromNode && s.packetId == packetId

theorem serves_iff {fromNode packetId : UInt32} {s : PendingReliable} :
    s.serves fromNode packetId = true ↔ s.active = true ∧ s.key = (fromNode, packetId) := by
  simp [serves, key, and_assoc]

/-- mirrors crates/mesh-routing/src/reliable.rs:33-51 -/
def inactive : PendingReliable :=
  ⟨false, 0, 0, 0, false, none, 0, false, false, 0, 0, ⟨⟨0, 0, 0, 0, 0, 0, false, false, 0, 0⟩, []⟩⟩

end PendingReliable

abbrev ReliableSlots := Slots MAX_PENDING_RELIABLE PendingReliable

/-- A slot becomes active only here; false when all four are taken.
mirrors crates/mesh-routing/src/reliable.rs:53-94 -/
def scheduleReliable (slots : ReliableSlots) (fromNode packetId toNode : UInt32) (relayed : Bool)
    (frame : Frame) (retxDelayMs : UInt32) (numRetx : Nat) (named : Option NamedFollowup) :
    ReliableSlots × Bool :=
  if slots.any (PendingReliable.serves fromNode packetId) then (slots, true)
  else
    match slots.place (fun s => !s.active)
        ⟨true, fromNode, packetId, toNode, relayed, named, numRetx, true, false, retxDelayMs, 0,
          frame⟩ with
    | some slots => (slots, true)
    | none => (slots, false)

/-- mirrors crates/mesh-routing/src/reliable.rs:96-105 -/
def namedFollowup (slots : ReliableSlots) (fromNode packetId : UInt32) : Option NamedFollowup :=
  (slots.find? (PendingReliable.serves fromNode packetId)).bind (·.named)

def PendingReliable.stop (fromNode packetId : UInt32) (s : PendingReliable) : PendingReliable :=
  if s.serves fromNode packetId then { s with active := false } else s

/-- mirrors crates/mesh-routing/src/reliable.rs:107-120 -/
def stopReliableFor (slots : ReliableSlots) (fromNode packetId : UInt32) : ReliableSlots :=
  slots.map (PendingReliable.stop fromNode packetId)

/-- mirrors crates/mesh-routing/src/reliable.rs:122-128 -/
def bumpReliableDelays (slots : ReliableSlots) (airtimeMs : UInt32) : ReliableSlots :=
  slots.map fun s =>
    if s.active && !s.awaitingTx then { s with nextTxMs := s.nextTxMs + airtimeMs } else s

/-- mirrors crates/mesh-routing/src/reliable.rs:130-139 -/
structure DueRetransmit where
  fromNode : UInt32
  packetId : UInt32
  toNode : UInt32
  relayed : Bool
  named : Option NamedFollowup
  redirect : Bool
  frame : Frame
  deriving DecidableEq, Repr

/-- One slot of the scan.
mirrors crates/mesh-routing/src/reliable.rs:146-180 -/
def dueVisit (nowMs : UInt32) (retxDelayFor : PendingReliable → UInt32) (s : PendingReliable) :
    Visit PendingReliable DueRetransmit :=
  if !s.active || s.awaitingTx then .pass s
  else if notYet nowMs s.nextTxMs then .pass s
  else if s.numRetx == 0 then .pass { s with active := false }
  else
    let redirect := (s.named.any (·.redirectOnLast)) && s.numRetx - 1 == 0
    -- the last, redirected try gives its slot back at once
    .stop { s with
        numRetx := s.numRetx - 1
        awaitingTx := true
        retxDelayMs := (s.named.map (·.delayMs)).getD (retxDelayFor s)
        nextTxMs := 0
        active := !redirect }
      ⟨s.fromNode, s.packetId, s.toNode, s.relayed, s.named, redirect, s.frame⟩

/-- mirrors crates/mesh-routing/src/reliable.rs:141-183 -/
def dueRetransmit (slots : ReliableSlots) (nowMs : UInt32)
    (retxDelayFor : PendingReliable → UInt32) : ReliableSlots × Option DueRetransmit :=
  slots.sweep (dueVisit nowMs retxDelayFor)

/-! ## What the operations do to the slots -/

/-- Same packet and frame, and active only if it was. -/
structure Kept (x y : PendingReliable) : Prop where
  key : y.key = x.key
  frame : y.frame = x.frame
  active : y.active = true → x.active = true

/-- Besides, waiting for the radio only if it was. -/
structure Eased (x y : PendingReliable) : Prop extends Kept x y where
  awaiting : y.active = true → y.awaitingTx = true → x.awaitingTx = true

theorem Kept.refl (x : PendingReliable) : Kept x x := ⟨rfl, rfl, id⟩

theorem Eased.refl (x : PendingReliable) : Eased x x := ⟨.refl x, fun _ => id⟩

theorem Eased.trans {x y z : PendingReliable} (h : Eased x y) (h' : Eased y z) : Eased x z :=
  ⟨⟨h'.key.trans h.key, h'.frame.trans h.frame, fun ha => h.active (h'.active ha)⟩,
    fun ha hw => h.awaiting (h'.active ha) (h'.awaiting ha hw)⟩

theorem Kept.calmer {x y : PendingReliable} (h : Kept x y) :
    Calmer PendingReliable.active PendingReliable.key x y := ⟨h.key, h.active⟩

theorem stop_active {f i : UInt32} {s : PendingReliable} (h : (s.stop f i).active = true) :
    s.stop f i = s ∧ s.key ≠ (f, i) := by
  unfold PendingReliable.stop at h ⊢
  split at h
  · cases h
  · rename_i hs
    rw [if_neg hs]
    exact ⟨rfl, fun hk => hs (PendingReliable.serves_iff.mpr ⟨h, hk⟩)⟩

theorem stop_eased (f i : UInt32) (s : PendingReliable) : Eased s (s.stop f i) := by
  unfold PendingReliable.stop
  split
  · exact ⟨⟨rfl, rfl, fun h => absurd h Bool.false_ne_true⟩,
      fun h => absurd h Bool.false_ne_true⟩
  · exact .refl s

theorem stopReliableFor_eased (slots : ReliableSlots) (f i : UInt32) :
    InPlace Eased slots (stopReliableFor slots f i) := .map fun s _ => stop_eased f i s

/-- The active slots that remain are those of other packets. -/
theorem mem_stopReliableFor {slots : ReliableSlots} {f i : UInt32} {s : PendingReliable}
    (hs : s ∈ stopReliableFor slots f i) (ha : s.active = true) : s ∈ slots ∧ s.key ≠ (f, i) := by
  obtain ⟨s', hs', rfl⟩ := Slots.mem_map.mp hs
  obtain ⟨heq, hk⟩ := stop_active ha
  rw [heq]
  exact ⟨hs', hk⟩

theorem bumpReliableDelays_eased (slots : ReliableSlots) (airtimeMs : UInt32) :
    InPlace Eased slots (bumpReliableDelays slots airtimeMs) := by
  refine .map fun s _ => ?_
  split
  · exact ⟨⟨rfl, rfl, id⟩, fun _ => id⟩
  · exact .refl s

theorem dueVisit_kept (nowMs : UInt32) (delay : PendingReliable → UInt32) (s : PendingReliable) :
    Kept s (dueVisit nowMs delay s).cell := by
  unfold dueVisit
  split
  · exact .refl s
  split
  · exact .refl s
  rename_i hactive _
  have ha : s.active = true := by
    cases h : s.active
    · simp [h] at hactive
    · rfl
  split
  · exact ⟨rfl, rfl, fun _ => ha⟩
  · exact ⟨rfl, rfl, fun _ => ha⟩

theorem dueRetransmit_kept (slots : ReliableSlots) (nowMs : UInt32)
    (delay : PendingReliable → UInt32) : InPlace Kept slots (dueRetransmit slots nowMs delay).1 :=
  .sweep Kept.refl fun s _ => dueVisit_kept nowMs delay s

/-- What comes due is an active slot. -/
theorem dueRetransmit_some {slots : ReliableSlots} {nowMs : UInt32}
    {delay : PendingReliable → UInt32} {d : DueRetransmit}
    (h : (dueRetransmit slots nowMs delay).2 = some d) :
    ∃ s ∈ slots, s.active = true ∧ s.key = (d.fromNode, d.packetId) ∧ d.frame = s.frame := by
  obtain ⟨s, hs, y, hv⟩ := sweep_some h
  refine ⟨s, hs, ?_⟩
  unfold dueVisit at hv
  split at hv
  · cases hv
  rename_i hactive
  split at hv
  · cases hv
  split at hv
  · cases hv
  · cases hv
    refine ⟨?_, rfl, rfl⟩
    cases h : s.active
    · simp [h] at hactive
    · rfl

/-- A slot that waits for the radio waited before, or has just come due. -/
theorem dueRetransmit_awaiting {slots : ReliableSlots} {nowMs : UInt32}
    {delay : PendingReliable → UInt32} {y : PendingReliable}
    (hy : y ∈ (dueRetransmit slots nowMs delay).1) (ha : y.active = true)
    (hw : y.awaitingTx = true) :
    y ∈ slots ∨ ∃ d, (dueRetransmit slots nowMs delay).2 = some d ∧ d.redirect = false ∧
      (d.fromNode, d.packetId) = y.key ∧ d.frame = y.frame := by
  rcases sweep_origin hy with h | ⟨x, hx, hpass | ⟨d, hstop, hres⟩⟩
  · exact .inl h
  · unfold dueVisit at hpass
    split at hpass
    · cases hpass
      exact .inl hx
    split at hpass
    · cases hpass
      exact .inl hx
    split at hpass
    · cases hpass
      cases ha
    · cases hpass
  · refine .inr ⟨d, hres, ?_⟩
    unfold dueVisit at hstop
    split at hstop
    · cases hstop
    split at hstop
    · cases hstop
    split at hstop
    · cases hstop
    · cases hstop
      exact ⟨by simpa only [Bool.not_eq_true'] using ha, rfl, rfl⟩

/-- Scheduling changes nothing, or fills a free slot with the packet. -/
theorem scheduleReliable_cases (slots : ReliableSlots) (f i t : UInt32) (relayed : Bool)
    (frame : Frame) (delay : UInt32) (numRetx : Nat) (named : Option NamedFollowup) :
    (scheduleReliable slots f i t relayed frame delay numRetx named).1 = slots ∨
      (∀ s ∈ slots, s.active = true → s.key ≠ (f, i)) ∧
        slots.place (fun s => !s.active)
          ⟨true, f, i, t, relayed, named, numRetx, true, false, delay, 0, frame⟩ =
            some (scheduleReliable slots f i t relayed frame delay numRetx named).1 := by
  unfold scheduleReliable
  split
  · exact .inl rfl
  · rename_i hany
    rw [Bool.not_eq_true, Slots.any_eq_false] at hany
    split
    · rename_i t' ht
      refine .inr ⟨fun s hs ha hk => ?_, ht⟩
      have := hany s hs
      rw [PendingReliable.serves_iff.mpr ⟨ha, hk⟩] at this
      cases this
    · exact .inl rfl

theorem scheduleReliable_full {slots : ReliableSlots} {f i t : UInt32} {relayed : Bool}
    {frame : Frame} {delay : UInt32} {numRetx : Nat} {named : Option NamedFollowup}
    (h : (scheduleReliable slots f i t relayed frame delay numRetx named).2 = false) :
    (scheduleReliable slots f i t relayed frame delay numRetx named).1 = slots := by
  unfold scheduleReliable at h ⊢
  split at h
  · cases h
  · rename_i hany
    rw [if_neg hany]
    split at h
    · cases h
    · rfl

/-- A slot after scheduling: an old one, or the new one. -/
theorem mem_scheduleReliable {slots : ReliableSlots} {f i t : UInt32} {relayed : Bool}
    {frame : Frame} {delay : UInt32} {numRetx : Nat} {named : Option NamedFollowup}
    {s : PendingReliable}
    (hs : s ∈ (scheduleReliable slots f i t relayed frame delay numRetx named).1) :
    s ∈ slots ∨ s.key = (f, i) ∧ s.frame = frame := by
  rcases scheduleReliable_cases slots f i t relayed frame delay numRetx named with h | ⟨_, h⟩
  · rw [h] at hs
    exact .inl hs
  · rcases Slots.mem_of_place h hs with rfl | hs
    · exact .inr ⟨rfl, rfl⟩
    · exact .inl hs

end Meshrustic.Routing
