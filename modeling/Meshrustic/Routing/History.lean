import Meshrustic.Core.Slots
import Meshrustic.Routing.Packet

/-!
# Packet history (`mesh-routing/src/packet_history.rs`)

A ring of the last 64 packets, each with the highest hop limit it was heard
with. A packet with id 0 has no name and is new every time.

Result:
* `Holds.observe`: a recorded packet stays known while fewer than 64 others are
  recorded after it.
-/
namespace Meshrustic.Routing

def HISTORY_SIZE : Nat := 64

structure HistoryEntry where
  fromNode : UInt32
  id : UInt32
  maxHopLimit : UInt8
  deriving DecidableEq, Repr

inductive ObserveResult where
  | new | duplicate | upgraded
  deriving DecidableEq, Repr

structure PacketHistory where
  entries : Slots HISTORY_SIZE HistoryEntry
  head : Fin HISTORY_SIZE
  deriving DecidableEq

namespace PacketHistory

/-- mirrors crates/mesh-routing/src/packet_history.rs:29-38 -/
def new : PacketHistory := ⟨.all ⟨0, 0, 0⟩, ⟨0, by decide⟩⟩

def named (fromNode id : UInt32) (e : HistoryEntry) : Bool :=
  e.fromNode == fromNode && e.id == id && e.fromNode != 0

/-- mirrors crates/mesh-routing/src/packet_history.rs:40-44 -/
def find (h : PacketHistory) (fromNode id : UInt32) : Option HistoryEntry :=
  h.entries.find? (named fromNode id)

/-- mirrors crates/mesh-routing/src/packet_history.rs:52-65 -/
def store (h : PacketHistory) (fromNode id : UInt32) (hopLimit : UInt8) : PacketHistory :=
  if (h.find fromNode id).isSome then
    { h with entries := h.entries.changeFirst (named fromNode id) fun e =>
        if e.maxHopLimit < hopLimit then { e with maxHopLimit := hopLimit } else e }
  else
    { entries := h.entries.set h.head ⟨fromNode, id, hopLimit⟩
      head := ⟨(h.head + 1) % HISTORY_SIZE, Nat.mod_lt _ (by decide)⟩ }

/-- mirrors crates/mesh-routing/src/packet_history.rs:67-80 -/
def observe (h : PacketHistory) (fromNode id : UInt32) (hopLimit : UInt8) :
    ObserveResult × PacketHistory :=
  if id == 0 then (.new, h)
  else
    match h.find fromNode id with
    | some e =>
      if e.maxHopLimit < hopLimit then (.upgraded, h.store fromNode id hopLimit)
      else (.duplicate, h)
    | none => (.new, h.store fromNode id hopLimit)

/-- The history holds the packet. -/
def knows (h : PacketHistory) (fromNode id : UInt32) : Bool :=
  id != 0 && (h.find fromNode id).isSome

theorem observe_new_iff (h : PacketHistory) (fromNode id : UInt32) (hopLimit : UInt8) :
    (h.observe fromNode id hopLimit).1 = .new ↔ h.knows fromNode id = false := by
  unfold observe knows
  cases hid : id == 0 <;> cases hf : h.find fromNode id
  · simp
  · simp only [Bool.false_eq_true, if_false]
    split <;> simp_all
  · simp_all
  · simp_all

/-! ## How long a packet is remembered -/

/-- The packet is recorded when it is observed. -/
def records (h : PacketHistory) (fromNode id : UInt32) : Bool :=
  id != 0 && (h.find fromNode id).isNone

/-- The packet was recorded, and `age` others after it. -/
structure Holds (h : PacketHistory) (fromNode id : UInt32) (age : Nat) : Prop where
  young : age < HISTORY_SIZE
  entry : ∃ p e, h.entries.cells[p]? = some e ∧ named fromNode id e = true ∧
    h.head.val = (p + 1 + age) % HISTORY_SIZE

variable {h : PacketHistory} {fromNode id : UInt32} {age : Nat}

theorem Holds.knows (hh : h.Holds fromNode id age) (hid : id ≠ 0) : h.knows fromNode id = true := by
  obtain ⟨p, e, hp, hn, _⟩ := hh.entry
  have hfind : (h.find fromNode id).isSome = true := by
    rw [find, Slots.find?, List.find?_isSome]
    exact ⟨e, List.mem_of_getElem? hp, hn⟩
  simp [PacketHistory.knows, hid, hfind]

theorem records_eq_not_knows (h : PacketHistory) (fromNode : UInt32) {id : UInt32} (hid : id ≠ 0) :
    h.records fromNode id = !h.knows fromNode id := by
  cases hf : h.find fromNode id <;> simp [records, PacketHistory.knows, hid, hf]

theorem find_of_records (hr : h.records fromNode id = true) :
    id ≠ 0 ∧ h.find fromNode id = none := by
  simpa [records, Option.isNone_iff_eq_none] using hr

/-- A recorded packet takes the place of the oldest one. -/
theorem observe_records (hr : h.records fromNode id = true) (hopLimit : UInt8) :
    (h.observe fromNode id hopLimit).2 =
      { entries := h.entries.set h.head ⟨fromNode, id, hopLimit⟩
        head := ⟨(h.head + 1) % HISTORY_SIZE, Nat.mod_lt _ (by decide)⟩ } := by
  obtain ⟨hid, hnone⟩ := find_of_records hr
  simp [observe, hid, hnone, store]

theorem Holds.of_records (hr : h.records fromNode id = true) (hf : fromNode ≠ 0) (hopLimit : UInt8) :
    (h.observe fromNode id hopLimit).2.Holds fromNode id 0 := by
  rw [observe_records hr]
  refine ⟨by decide, h.head.val, ⟨fromNode, id, hopLimit⟩, ?_, ?_, rfl⟩
  · have hlt : h.head.val < h.entries.cells.length := by
      rw [h.entries.size]
      exact h.head.isLt
    simp [Slots.set, hlt]
  · simp [named, hf]

/-- Otherwise no entry moves or changes its name. -/
theorem observe_not_records (hr : h.records fromNode id = false) (hopLimit : UInt8) :
    (h.observe fromNode id hopLimit).2.head = h.head ∧
      InPlace (fun x y => ∀ f i, named f i x = true → named f i y = true) h.entries
        (h.observe fromNode id hopLimit).2.entries := by
  have hrefl : InPlace (fun x y : HistoryEntry => ∀ f i, named f i x = true → named f i y = true)
      h.entries h.entries := .refl (fun _ _ _ hx => hx) _
  unfold observe
  split
  · exact ⟨rfl, hrefl⟩
  · rename_i hid
    split
    · split
      · rename_i e he _
        rw [store, he]
        refine ⟨rfl, .changeFirst (fun _ _ _ hx => hx) fun x _ _ f i hx => ?_⟩
        split <;> exact hx
      · exact ⟨rfl, hrefl⟩
    · rename_i hnone
      simp [records, hnone] at hr
      exact absurd hr (by simpa using hid)

/-- The packet stays in the ring while fewer others are recorded than it has places. -/
theorem Holds.observe (hh : h.Holds fromNode id age) (f i : UInt32) (hopLimit : UInt8)
    (hage : age + (h.records f i).toNat < HISTORY_SIZE) :
    (h.observe f i hopLimit).2.Holds fromNode id (age + (h.records f i).toNat) := by
  obtain ⟨p, e, hp, hn, hhead⟩ := hh.entry
  refine ⟨hage, ?_⟩
  cases hr : h.records f i with
  | false =>
    obtain ⟨hsame, hplace⟩ := observe_not_records hr hopLimit
    obtain ⟨e', hp', hn'⟩ := InPlace.getElem? hplace hp
    exact ⟨p, e', hp', hn' _ _ hn, by rw [hsame]; exact hhead⟩
  | true =>
    rw [hr, Bool.toNat_true] at hage
    rw [observe_records hr, Bool.toNat_true]
    have hlt : p < HISTORY_SIZE := by
      rw [← h.entries.size]
      exact (List.getElem?_eq_some_iff.mp hp).1
    have hround : h.head.val = (p + 1 + age) % 64 := hhead
    have hage64 : age + 1 < 64 := hage
    have hlt64 : p < 64 := hlt
    -- the head comes back to `p` only after a whole round
    have hne : h.head.val ≠ p := by omega
    refine ⟨p, e, ?_, hn, ?_⟩
    · simp only [Slots.set]
      rw [List.getElem?_set_ne hne]
      exact hp
    · change (h.head.val + 1) % 64 = (p + 1 + (age + 1)) % 64
      omega

end PacketHistory

end Meshrustic.Routing
