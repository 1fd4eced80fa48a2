import Mathlib.Data.List.Perm.Subperm
import Meshrustic.Core.Table

/-!
# Relay positions and node sets (`relay_window.rs`, `broadcast_relay.rs:91-165`)

The planner gives each relay a position: in the early window while it has
room, and behind it on a ladder of half-airtime rungs. Candidates and covered
nodes are kept in small arrays that refuse node 0, a second entry and an
entry too many; `NodeSet` carries that as fields.

Results:
* `NodeSet.mem_erase`, `NodeSet.length_erase`: removing is exact, although
  the last entry moves into the gap.
* `NodeSet.mem_inserts`: a set with room takes everything but node 0.
-/
namespace Meshrustic.Relay

def CW_MAX : Nat := 8
def WINDOW_POSITIONS : Nat := 2 * CW_MAX - 1
def MIN_RUNG_SPACING_MS : Nat := 50
def U32_MAX : Nat := 0xFFFFFFFF

/-- mirrors crates/mesh-routing/src/coordinated_relay.rs:14-16 -/
def relayFloorMs (slotTimeMs : Nat) : Nat := 2 * CW_MAX * slotTimeMs % UInt32.size

/-- mirrors crates/mesh-routing/src/relay_window.rs:13-20 -/
structure WindowLayout where
  widthMs : Nat
  slotTimeMs : Nat
  halfAirtimeMs : Nat
  cursorMs : Nat
  lastPlacedEndMs : Option Nat
  placed : Nat

namespace WindowLayout

/-- mirrors crates/mesh-routing/src/relay_window.rs:23-32 -/
def new (slotTimeMs halfAirtimeMs : Nat) : WindowLayout :=
  ⟨min (slotTimeMs * WINDOW_POSITIONS) U32_MAX, slotTimeMs, halfAirtimeMs, 0, none, 0⟩

/-- mirrors crates/mesh-routing/src/relay_window.rs:34-46 -/
def place (w : WindowLayout) (widthMs : Nat) : Option Nat × WindowLayout :=
  if WINDOW_POSITIONS ≤ w.placed then (none, w)
  else if w.widthMs ≤ w.cursorMs then (none, w)
  else
    (some w.cursorMs,
      { w with
        cursorMs := min (w.cursorMs + widthMs) U32_MAX
        lastPlacedEndMs := some w.cursorMs
        placed := w.placed + 1 })

/-- mirrors crates/mesh-routing/src/relay_window.rs:66-72 -/
def firstRungMs (w : WindowLayout) : Nat :=
  match w.lastPlacedEndMs with
  | none => relayFloorMs w.slotTimeMs
  | some last => max (relayFloorMs w.slotTimeMs) (min (last + w.halfAirtimeMs) U32_MAX)

end WindowLayout

/-- mirrors crates/mesh-routing/src/relay_window.rs:76-82 -/
structure PositionAllocator where
  window : WindowLayout
  halfAirtimeMs : Nat
  ladderStartMs : Option Nat
  nextIndex : Nat

namespace PositionAllocator

def new (slotTimeMs halfAirtimeMs : Nat) : PositionAllocator :=
  ⟨.new slotTimeMs halfAirtimeMs, halfAirtimeMs, none, 0⟩

/-- mirrors crates/mesh-routing/src/relay_window.rs:94-100 -/
def spill (p : PositionAllocator) : Nat × PositionAllocator :=
  let start := p.ladderStartMs.getD p.window.firstRungMs
  let rung := p.nextIndex - p.window.placed
  (min (start + min (rung * p.halfAirtimeMs) U32_MAX) U32_MAX, { p with ladderStartMs := some start })

/-- A position in the window, else on the ladder; either takes an index. -/
def take (p : PositionAllocator) (placed : Option Nat × WindowLayout) : Nat × PositionAllocator :=
  match placed with
  | (some pos, w) => (pos, { p with window := w, nextIndex := p.nextIndex + 1 })
  | (none, _) =>
    let r := p.spill
    (r.1, { r.2 with nextIndex := r.2.nextIndex + 1 })

/-- mirrors crates/mesh-routing/src/relay_window.rs:102-109 -/
def takeReserved (p : PositionAllocator) : Nat × PositionAllocator :=
  p.take (p.window.place p.window.slotTimeMs)

/-- mirrors crates/mesh-routing/src/relay_window.rs:111-118 -/
def takeRung (p : PositionAllocator) : Nat × PositionAllocator :=
  p.take (p.window.place p.window.halfAirtimeMs)

/-- mirrors crates/mesh-routing/src/relay_window.rs:120-124 -/
def takeLateRung (p : PositionAllocator) : Nat × PositionAllocator := p.take (none, p.window)

/-- mirrors crates/mesh-routing/src/relay_window.rs:130-136 -/
def firstFreeMs (p : PositionAllocator) : Nat :=
  if p.window.lastPlacedEndMs.isNone then p.window.firstRungMs else p.spill.1

end PositionAllocator

/-! ## Node sets -/

/-- mirrors crates/mesh-routing/src/broadcast_relay.rs:92-96, 137-140 -/
structure NodeSet (cap : Nat) where
  ids : Table cap UInt32
  nodup : ids.rows.Nodup
  nonzero : ∀ x ∈ ids.rows, x ≠ 0

namespace NodeSet

variable {cap : Nat}

instance : Membership UInt32 (NodeSet cap) := ⟨fun s x => x ∈ s.ids.rows⟩

def new : NodeSet cap := ⟨.empty, List.nodup_nil, fun _ h => absurd h List.not_mem_nil⟩

def length (s : NodeSet cap) : Nat := s.ids.rows.length

def contains (s : NodeSet cap) (node : UInt32) : Bool := s.ids.rows.contains node

/-- mirrors crates/mesh-routing/src/broadcast_relay.rs:110-120, 154-163 -/
def insert (s : NodeSet cap) (node : UInt32) : NodeSet cap :=
  if h : node = 0 ∨ node ∈ s.ids.rows ∨ cap ≤ s.ids.rows.length then s
  else
    ⟨⟨s.ids.rows ++ [node], by
        rw [List.length_append, List.length_singleton]
        omega⟩,
      by
        rw [List.nodup_append]
        refine ⟨s.nodup, List.nodup_singleton _, ?_⟩
        intro a ha b hb hab
        rw [List.mem_singleton] at hb
        exact h (.inr (.inl (hb ▸ hab ▸ ha))),
      by
        intro x hx
        rcases List.mem_append.mp hx with hx | hx
        · exact s.nonzero x hx
        · rw [List.mem_singleton] at hx
          exact fun h0 => h (.inl (hx ▸ h0))⟩

/-- The rows without `node`; the last one takes its place. -/
def eraseRows (s : NodeSet cap) (node : UInt32) : Table cap UInt32 :=
  match s.ids.rows.idxOf? node with
  | none => s.ids
  | some i => s.ids.swapRemove i

theorem eraseRows_perm (s : NodeSet cap) (node : UInt32) :
    (s.eraseRows node).rows.Perm (s.ids.rows.erase node) := by
  unfold eraseRows
  rw [List.erase_eq_eraseIdx]
  cases h : s.ids.rows.idxOf? node with
  | none => exact List.Perm.refl _
  | some i =>
    refine s.ids.swapRemove_perm ?_
    rw [List.idxOf?, List.findIdx?_eq_some_iff_getElem] at h
    exact h.1

/-- mirrors crates/mesh-routing/src/broadcast_relay.rs:122-130 -/
def erase (s : NodeSet cap) (node : UInt32) : NodeSet cap :=
  ⟨s.eraseRows node, (s.eraseRows_perm node).nodup_iff.mpr (s.nodup.erase node), fun x hx =>
    s.nonzero x (List.mem_of_mem_erase ((s.eraseRows_perm node).mem_iff.mp hx))⟩

theorem mem_erase {s : NodeSet cap} {node x : UInt32} : x ∈ s.erase node ↔ x ≠ node ∧ x ∈ s :=
  (s.eraseRows_perm node).mem_iff.trans s.nodup.mem_erase_iff

theorem length_erase {s : NodeSet cap} {node : UInt32} (h : node ∈ s) :
    (s.erase node).length + 1 = s.length := by
  have hlen : (s.erase node).length = (s.ids.rows.erase node).length :=
    (s.eraseRows_perm node).length_eq
  have hpos : 0 < s.ids.rows.length := List.length_pos_of_mem h
  rw [hlen, List.length_erase_of_mem h]
  show s.ids.rows.length - 1 + 1 = s.ids.rows.length
  omega

theorem mem_insert {s : NodeSet cap} {node x : UInt32} (hroom : s.length < cap) :
    x ∈ s.insert node ↔ x ∈ s ∨ (x = node ∧ node ≠ 0) := by
  unfold insert
  by_cases h : node = 0 ∨ node ∈ s.ids.rows ∨ cap ≤ s.ids.rows.length
  · rw [dif_pos h]
    refine ⟨.inl, ?_⟩
    rintro (hx | ⟨rfl, hne⟩)
    · exact hx
    · rcases h with h | h | h
      · exact absurd h hne
      · exact h
      · exact absurd hroom (Nat.not_lt_of_le h)
  · rw [dif_neg h]
    rw [not_or] at h
    show x ∈ s.ids.rows ++ [node] ↔ _
    rw [List.mem_append, List.mem_singleton]
    exact ⟨fun hx => hx.imp_right fun hx => ⟨hx, h.1⟩, fun hx => hx.imp_right And.left⟩

theorem mem_insert_of_mem {s : NodeSet cap} {node x : UInt32} (h : x ∈ s) : x ∈ s.insert node := by
  unfold insert
  split
  · exact h
  · exact List.mem_append_left _ h

theorem mem_insert_cases {s : NodeSet cap} {node x : UInt32} (h : x ∈ s.insert node) :
    x = node ∨ x ∈ s := by
  unfold insert at h
  split at h
  · exact .inr h
  · exact (List.mem_append.mp h).symm.imp_left List.mem_singleton.mp

theorem length_insert_le (s : NodeSet cap) (node : UInt32) :
    (s.insert node).length ≤ s.length + 1 := by
  unfold insert
  split
  · exact Nat.le_succ _
  · show (s.ids.rows ++ [node]).length ≤ _
    rw [List.length_append]
    exact Nat.le_refl _

/-- Inserting a list into a set with room for all of it. -/
theorem mem_inserts {s : NodeSet cap} {xs : List UInt32} {x : UInt32}
    (hroom : s.length + xs.length ≤ cap) :
    x ∈ xs.foldl insert s ↔ x ∈ s ∨ (x ∈ xs ∧ x ≠ 0) := by
  induction xs generalizing s with
  | nil => simp
  | cons y ys ih =>
    rw [List.length_cons] at hroom
    have hlen := length_insert_le s y
    rw [List.foldl_cons, ih (by omega), mem_insert (by omega), List.mem_cons]
    constructor
    · rintro ((h | ⟨rfl, hne⟩) | ⟨h, hne⟩)
      · exact .inl h
      · exact .inr ⟨.inl rfl, hne⟩
      · exact .inr ⟨.inr h, hne⟩
    · rintro (h | ⟨rfl | h, hne⟩)
      · exact .inl (.inl h)
      · exact .inl (.inr ⟨rfl, hne⟩)
      · exact .inr ⟨h, hne⟩

theorem length_le_inserts (s : NodeSet cap) (xs : List UInt32) :
    s.length ≤ (xs.foldl insert s).length := by
  induction xs generalizing s with
  | nil => exact Nat.le_refl _
  | cons x xs ih =>
    refine Nat.le_trans ?_ (ih _)
    unfold insert
    split
    · exact Nat.le_refl _
    · show _ ≤ (s.ids.rows ++ [x]).length
      rw [List.length_append]
      exact Nat.le_add_right _ _

/-- A set with room for all that may come takes it, in whatever order. -/
theorem mem_inserts_within {s : NodeSet cap} {xs within : List UInt32} {x : UInt32}
    (hwithin : within.length ≤ cap) (hs : ∀ y ∈ s, y ∈ within)
    (hxs : ∀ y ∈ xs, y ≠ 0 → y ∈ within) :
    x ∈ xs.foldl insert s ↔ x ∈ s ∨ (x ∈ xs ∧ x ≠ 0) := by
  induction xs generalizing s with
  | nil => simp
  | cons y ys ih =>
    have hone : ∀ z, z ∈ s.insert y ↔ z ∈ s ∨ (z = y ∧ y ≠ 0) := by
      intro z
      by_cases hnew : y = 0 ∨ y ∈ s
      · have hsame : s.insert y = s := by
          unfold insert
          rw [dif_pos (hnew.imp_right .inl)]
        rw [hsame]
        refine ⟨.inl, fun h => h.elim id ?_⟩
        rintro ⟨rfl, hne⟩
        exact hnew.resolve_left hne
      · -- the set and the new node lie within, so there is a place
        rw [not_or] at hnew
        have hsub : (y :: s.ids.rows) ⊆ within := List.cons_subset.mpr
          ⟨hxs y List.mem_cons_self hnew.1, hs⟩
        have hlen := ((List.nodup_cons.mpr ⟨hnew.2, s.nodup⟩).subperm hsub).length_le
        rw [List.length_cons] at hlen
        exact mem_insert (Nat.lt_of_lt_of_le hlen hwithin)
    rw [List.foldl_cons, ih (fun z hz => ?_) fun z hz => hxs z (List.mem_cons_of_mem _ hz),
      hone, List.mem_cons]
    · constructor
      · rintro ((h | ⟨rfl, hne⟩) | ⟨h, hne⟩)
        · exact .inl h
        · exact .inr ⟨.inl rfl, hne⟩
        · exact .inr ⟨.inr h, hne⟩
      · rintro (h | ⟨rfl | h, hne⟩)
        · exact .inl (.inl h)
        · exact .inl (.inr ⟨rfl, hne⟩)
        · exact .inr ⟨h, hne⟩
    · rcases (hone z).mp hz with hz | ⟨rfl, hne⟩
      · exact hs z hz
      · exact hxs z List.mem_cons_self hne

/-- A set that is not full afterwards had room for all of it. -/
theorem mem_inserts_unfilled {s : NodeSet cap} {xs : List UInt32} {x : UInt32}
    (hroom : (xs.foldl insert s).length < cap) :
    x ∈ xs.foldl insert s ↔ x ∈ s ∨ (x ∈ xs ∧ x ≠ 0) := by
  induction xs generalizing s with
  | nil => simp
  | cons y ys ih =>
    have hbefore : s.length < cap := Nat.lt_of_le_of_lt (length_le_inserts s (y :: ys)) hroom
    rw [List.foldl_cons] at hroom
    rw [List.foldl_cons, ih hroom, mem_insert hbefore, List.mem_cons]
    constructor
    · rintro ((h | ⟨rfl, hne⟩) | ⟨h, hne⟩)
      · exact .inl h
      · exact .inr ⟨.inl rfl, hne⟩
      · exact .inr ⟨.inr h, hne⟩
    · rintro (h | ⟨rfl | h, hne⟩)
      · exact .inl (.inl h)
      · exact .inl (.inr ⟨rfl, hne⟩)
      · exact .inr ⟨h, hne⟩

end NodeSet

end Meshrustic.Relay
