import Meshrustic.Relay.Window

/-!
# Order and spacing of the positions (`relay_window.rs`, `coordinated_relay.rs:47-56`)

The planner first reserves positions, then takes rungs, and then late rungs,
which are never in the window. A rung that finds no place in the window goes to
the ladder, whose origin is fixed by the first position that does.

What carries the order is `AtLeast x`: no position still to come lies before
`x`. A call answers with a position at or behind every such `x`, and the
allocator it leaves behind is at least a gap behind the answer.

Results:
* `assigned_spaced`: each position is a gap behind all before it.
* `ladder_order`: this, the late rungs' floor, and the order of the delays of
  any two nodes after the tie-break.
-/
namespace Meshrustic.Relay

def MIN_TIE_BREAK_RANGE_MS : Nat := 20

/-- mirrors crates/mesh-routing/src/coordinated_relay.rs:47-49 -/
def tieBreakRangeMs (halfAirtimeMs : Nat) : Nat := max (halfAirtimeMs / 2) MIN_TIE_BREAK_RANGE_MS

/-- mirrors crates/mesh-routing/src/coordinated_relay.rs:53-56 -/
def slotTieBreakMs (halfAirtimeMs : Nat) (id nodeNum : UInt32) : Nat :=
  (nodeNum ^^^ id).toNat % tieBreakRangeMs halfAirtimeMs + 1

/-- The delay of a commitment at a position.
mirrors crates/mesh-routing/src/neighbor_graph.rs:1978 -/
def commitDelayMs (spacing halfAirtimeMs : Nat) (id nodeNum : UInt32) : Nat :=
  min (spacing + slotTieBreakMs halfAirtimeMs id nodeNum) U32_MAX

theorem slotTieBreakMs_pos (half : Nat) (id nodeNum : UInt32) : 0 < slotTieBreakMs half id nodeNum :=
  Nat.succ_pos _

/-- A tie-break stays behind the next rung. -/
theorem slotTieBreakMs_le {half : Nat} (hhalf : MIN_RUNG_SPACING_MS ≤ half) (id nodeNum : UInt32) :
    slotTieBreakMs half id nodeNum ≤ half := by
  have hlt : (nodeNum ^^^ id).toNat % tieBreakRangeMs half < tieBreakRangeMs half :=
    Nat.mod_lt _ (by unfold tieBreakRangeMs MIN_TIE_BREAK_RANGE_MS; omega)
  unfold slotTieBreakMs
  unfold tieBreakRangeMs MIN_TIE_BREAK_RANGE_MS at hlt ⊢
  unfold MIN_RUNG_SPACING_MS at hhalf
  omega

/-! ## Calls -/

inductive Take where
  | reserved | rung | lateRung
  deriving DecidableEq, Repr

namespace Take

def on : Take → PositionAllocator → Nat × PositionAllocator
  | reserved => PositionAllocator.takeReserved
  | rung => PositionAllocator.takeRung
  | lateRung => PositionAllocator.takeLateRung

/-- A ranked position is one that somebody sends at. -/
def isRanked : Take → Bool
  | reserved => false
  | rung | lateRung => true

/-- How far the next position keeps off. -/
def gap (halfAirtimeMs : Nat) : Take → Nat
  | reserved => 1
  | rung | lateRung => halfAirtimeMs

end Take

/-- The positions that a row of calls hands out. -/
def assigned : List Take → PositionAllocator → List (Take × Nat)
  | [], _ => []
  | t :: ts, p => (t, (t.on p).1) :: assigned ts (t.on p).2

/-- How a plan uses its allocator; the index of a position is a byte.
mirrors crates/mesh-routing/src/broadcast_relay.rs:597-697 -/
structure LadderUse where
  reservations : Nat
  rungs : Nat
  lateRungs : Nat
  few : reservations + rungs + lateRungs < 256

namespace LadderUse

def early (u : LadderUse) : List Take :=
  List.replicate u.reservations .reserved ++ List.replicate u.rungs .rung

def late (u : LadderUse) : List Take := List.replicate u.lateRungs .lateRung

def takes (u : LadderUse) : List Take := u.early ++ u.late

end LadderUse

/-! ## Without saturation -/

/-- The origin of the ladder and the rung on it are the exact ones. -/
def PositionAllocator.SpillExact (p : PositionAllocator) : Prop :=
  (p.ladderStartMs = none → ∀ last ∈ p.window.lastPlacedEndMs,
      last + p.window.halfAirtimeMs ≤ U32_MAX) ∧
    p.ladderStartMs.getD p.window.firstRungMs +
      (p.nextIndex - p.window.placed) * p.halfAirtimeMs ≤ U32_MAX

/-- The cursor behind a position in the window is exact, or the position on the
ladder is. -/
def PositionAllocator.PlaceExact (p : PositionAllocator) (widthMs : Nat) : Prop :=
  match (p.window.place widthMs).1 with
  | some pos => pos + widthMs ≤ U32_MAX
  | none => p.SpillExact

instance (p : PositionAllocator) : Decidable p.SpillExact :=
  inferInstanceAs (Decidable (_ ∧ _))

instance (p : PositionAllocator) (widthMs : Nat) : Decidable (p.PlaceExact widthMs) :=
  match h : (p.window.place widthMs).1 with
  | some pos => decidable_of_iff (pos + widthMs ≤ U32_MAX) (by rw [PositionAllocator.PlaceExact, h])
  | none => decidable_of_iff p.SpillExact (by rw [PositionAllocator.PlaceExact, h])

/-- No addition or product of the call saturates. -/
def Take.Exact (p : PositionAllocator) : Take → Prop
  | .reserved => p.PlaceExact p.window.slotTimeMs
  | .rung => p.PlaceExact p.window.halfAirtimeMs
  | .lateRung => p.SpillExact

instance (p : PositionAllocator) : (t : Take) → Decidable (t.Exact p)
  | .reserved => inferInstanceAs (Decidable (p.PlaceExact _))
  | .rung => inferInstanceAs (Decidable (p.PlaceExact _))
  | .lateRung => inferInstanceAs (Decidable p.SpillExact)

def Unsaturated : List Take → PositionAllocator → Prop
  | [], _ => True
  | t :: ts, p => t.Exact p ∧ Unsaturated ts (t.on p).2

instance decUnsaturated : (ts : List Take) → (p : PositionAllocator) → Decidable (Unsaturated ts p)
  | [], _ => .isTrue trivial
  | t :: ts, p =>
    have := decUnsaturated ts (t.on p).2
    inferInstanceAs (Decidable (t.Exact p ∧ Unsaturated ts (t.on p).2))

/-! ## What a call does -/

namespace PositionAllocator

variable {slot half : Nat} {p : PositionAllocator}

/-- The next rung of the ladder. -/
def ladderNext (p : PositionAllocator) : Nat :=
  p.ladderStartMs.getD p.window.firstRungMs + (p.nextIndex - p.window.placed) * p.halfAirtimeMs

/-- No position still to come lies before `x`. -/
structure AtLeast (p : PositionAllocator) (x : Nat) : Prop where
  ladder : x ≤ p.ladderNext
  window : p.ladderStartMs = none → x ≤ p.window.cursorMs

/-- The ladder follows what is placed in the window, and has no rung before its
origin is fixed. -/
structure Inv (slot half : Nat) (p : PositionAllocator) : Prop where
  slotTime : p.window.slotTimeMs = slot
  halfAirtime : p.halfAirtimeMs = half
  windowHalf : p.window.halfAirtimeMs = half
  widthZero : slot = 0 → p.window.widthMs = 0
  placed : p.window.placed ≤ p.nextIndex
  fresh : p.ladderStartMs = none → p.nextIndex = p.window.placed
  floor : relayFloorMs slot ≤ p.ladderStartMs.getD p.window.firstRungMs

/-- The window stays shut once the ladder is in use. -/
def Shut (p : PositionAllocator) : Prop :=
  p.ladderStartMs.isSome = true → ∀ widthMs, p.window.place widthMs = (none, p.window)

theorem new_inv (slot half : Nat) : (new slot half).Inv slot half where
  slotTime := rfl
  halfAirtime := rfl
  windowHalf := rfl
  widthZero h := by subst h; rfl
  placed := Nat.le_refl _
  fresh _ := rfl
  floor := Nat.le_refl _

theorem new_shut (slot half : Nat) : (new slot half).Shut := fun h => by cases h

end PositionAllocator

namespace WindowLayout

theorem place_none {w w' : WindowLayout} {widthMs : Nat} (h : w.place widthMs = (none, w')) :
    w' = w ∧ ∀ other, w.place other = (none, w) := by
  unfold place at h ⊢
  split at h
  · rename_i hfull
    exact ⟨(Prod.mk.inj h).2.symm, fun _ => if_pos hfull⟩
  · rename_i hfull
    split at h
    · rename_i hwide
      exact ⟨(Prod.mk.inj h).2.symm, fun _ => by rw [if_neg hfull, if_pos hwide]⟩
    · cases h

theorem place_some {w w' : WindowLayout} {widthMs pos : Nat} (h : w.place widthMs = (some pos, w')) :
    pos = w.cursorMs ∧ pos < w.widthMs ∧
      w' = { w with
        cursorMs := min (pos + widthMs) U32_MAX
        lastPlacedEndMs := some pos
        placed := w.placed + 1 } := by
  unfold place at h
  split at h
  · cases h
  split at h
  · cases h
  · rename_i hwide
    obtain ⟨hpos, hw⟩ := Prod.mk.inj h
    cases hpos
    exact ⟨rfl, Nat.lt_of_not_le hwide, hw.symm⟩

end WindowLayout

namespace PositionAllocator

variable {slot half x : Nat} {p : PositionAllocator}

/-- What a call does for the order of the positions. -/
structure Steps (slot half : Nat) (p : PositionAllocator) (t : Take) : Prop where
  behind : ∀ x, p.AtLeast x → x ≤ (t.on p).1
  keepsOff : (t.on p).2.AtLeast ((t.on p).1 + t.gap half)
  inv : (t.on p).2.Inv slot half
  shut : t ≠ .lateRung → (t.on p).2.Shut
  floor : t = .lateRung → relayFloorMs slot ≤ (t.on p).1

/-- The call goes to the ladder. -/
def onLadder (p : PositionAllocator) : Nat × PositionAllocator :=
  (p.spill.1, { p.spill.2 with nextIndex := p.spill.2.nextIndex + 1 })

theorem onLadder_pos (hexact : p.SpillExact) : p.onLadder.1 = p.ladderNext := by
  have hsum := hexact.2
  unfold onLadder spill ladderNext
  dsimp only
  omega

theorem onLadder_next (h : p.Inv slot half) : p.onLadder.2.ladderNext = p.ladderNext + half := by
  unfold onLadder spill ladderNext
  dsimp only
  rw [Option.getD_some, Nat.succ_sub h.placed, Nat.succ_mul, h.halfAirtime, Nat.add_assoc]

theorem onLadder_inv (h : p.Inv slot half) : p.onLadder.2.Inv slot half where
  slotTime := h.slotTime
  halfAirtime := h.halfAirtime
  windowHalf := h.windowHalf
  widthZero := h.widthZero
  placed := Nat.le_succ_of_le h.placed
  fresh hnone := by cases hnone
  floor := h.floor

/-- A call that goes to the ladder takes its next rung. -/
theorem onLadder_steps {t : Take} (h : p.Inv slot half) (hexact : p.SpillExact)
    (hon : t.on p = p.onLadder) (hgap : t.gap half ≤ half)
    (hshut : t ≠ .lateRung → ∀ widthMs, p.window.place widthMs = (none, p.window)) :
    p.Steps slot half t := by
  have hpos := onLadder_pos hexact
  have hnext := onLadder_next h
  have hfloor := h.floor
  refine ⟨fun x hx => ?_, ⟨?_, fun hnone => ?_⟩, hon ▸ onLadder_inv h, fun ht => ?_, fun _ => ?_⟩
  · rw [hon, hpos]
    exact hx.ladder
  · rw [hon, hnext, hpos]
    omega
  · rw [hon] at hnone
    cases hnone
  · rw [hon]
    exact fun _ => hshut ht
  · rw [hon, hpos]
    unfold ladderNext
    omega

/-- A call that is placed in the window moves the cursor and the ladder. -/
theorem inWindow_steps {t : Take} {widthMs pos : Nat} {w : WindowLayout} (h : p.Inv slot half)
    (hopen : p.ladderStartMs = none) (hplace : p.window.place widthMs = (some pos, w))
    (hexact : pos + widthMs ≤ U32_MAX) (hon : t.on p = p.take (some pos, w))
    (hwide : t.gap half ≤ widthMs) (hgap : t.gap half ≤ half) (ht : t ≠ .lateRung) :
    p.Steps slot half t := by
  obtain ⟨hcursor, hlt, hw⟩ := WindowLayout.place_some hplace
  have hfresh := h.fresh hopen
  have hrung : w.firstRungMs = max (relayFloorMs slot) (min (pos + half) U32_MAX) := by
    rw [hw, ← h.slotTime, ← h.windowHalf]
    rfl
  have hplaced : w.placed = p.window.placed + 1 := by rw [hw]
  have hindex : p.nextIndex + 1 - w.placed = 0 := by omega
  have hladder : (p.take (some pos, w)).2.ladderNext = w.firstRungMs := by
    unfold ladderNext take
    dsimp only
    rw [hopen, Option.getD_none, hindex, Nat.zero_mul, Nat.add_zero]
  refine ⟨fun x hx => ?_, ⟨?_, fun _ => ?_⟩, ?_, fun _ => ?_, fun hlate => absurd hlate ht⟩
  · rw [hon]
    exact hcursor ▸ hx.window hopen
  · rw [hon, hladder, hrung]
    change pos + t.gap half ≤ _
    omega
  · rw [hon]
    change pos + t.gap half ≤ w.cursorMs
    rw [hw]
    dsimp only
    omega
  · rw [hon]
    refine ⟨?_, h.halfAirtime, ?_, ?_, ?_, fun _ => ?_, ?_⟩
    · exact hw ▸ h.slotTime
    · exact hw ▸ h.windowHalf
    · exact hw ▸ h.widthZero
    · change w.placed ≤ p.nextIndex + 1
      omega
    · change p.nextIndex + 1 = w.placed
      omega
    · change _ ≤ p.ladderStartMs.getD w.firstRungMs
      rw [hopen, Option.getD_none, hrung]
      exact Nat.le_max_left _ _
  · intro hsome
    rw [hon] at hsome
    change p.ladderStartMs.isSome = true at hsome
    rw [hopen] at hsome
    cases hsome

/-- A call that asks the window first. -/
theorem place_steps {t : Take} {widthMs : Nat} (h : p.Inv slot half) (hshut : p.Shut)
    (hexact : p.PlaceExact widthMs) (hon : t.on p = p.take (p.window.place widthMs))
    (hgap : t.gap half ≤ half) (ht : t ≠ .lateRung)
    (hwide : ∀ pos, (p.window.place widthMs).1 = some pos → t.gap half ≤ widthMs) :
    p.Steps slot half t := by
  unfold PlaceExact at hexact
  rcases hplace : p.window.place widthMs with ⟨_ | pos, w⟩
  · rw [hplace] at hexact hon
    exact onLadder_steps h hexact hon hgap fun _ => (WindowLayout.place_none hplace).2
  · have hopen : p.ladderStartMs = none := by
      cases hstart : p.ladderStartMs with
      | none => rfl
      | some start =>
        have hnone := hshut (by rw [hstart]; rfl) widthMs
        rw [hplace] at hnone
        cases hnone
    rw [hplace] at hexact hon hwide
    exact inWindow_steps h hopen hplace hexact hon (hwide pos rfl) hgap ht

/-- Each call keeps the order. -/
theorem take_steps (hhalf : 0 < half) {t : Take} (h : p.Inv slot half)
    (hshut : t ≠ .lateRung → p.Shut) (hexact : t.Exact p) : p.Steps slot half t := by
  cases t with
  | reserved =>
    refine place_steps h (hshut (by decide)) hexact rfl hhalf (by decide) fun pos hpos => ?_
    -- a window that takes a reservation has a width, and so the slot has a length
    have hlt := (WindowLayout.place_some (Prod.ext hpos rfl)).2.1
    have hslot : slot ≠ 0 := fun hzero => by
      have := h.widthZero hzero
      omega
    change 1 ≤ p.window.slotTimeMs
    rw [h.slotTime]
    omega
  | rung =>
    refine place_steps h (hshut (by decide)) hexact rfl (Nat.le_refl _) (by decide) fun _ _ => ?_
    exact Nat.le_of_eq h.windowHalf.symm
  | lateRung =>
    exact onLadder_steps h hexact rfl (Nat.le_refl _) fun ht => absurd rfl ht

end PositionAllocator

/-! ## Runs -/

/-- Each position keeps off all those before it, and the late ones stay behind
the early window. -/
theorem assigned_spaced {slot half : Nat} (hhalf : 0 < half) {ts : List Take}
    {p : PositionAllocator} (h : p.Inv slot half) (hshut : ∀ t ∈ ts, t ≠ .lateRung → p.Shut)
    (hlast : ts.Pairwise fun a b => a = .lateRung → b = .lateRung) (hexact : Unsaturated ts p) :
    (∀ x, p.AtLeast x → ∀ a ∈ assigned ts p, x ≤ a.2) ∧
      (assigned ts p).Pairwise (fun a b => a.2 + a.1.gap half ≤ b.2) ∧
      ∀ a ∈ assigned ts p, a.1 = .lateRung → relayFloorMs slot ≤ a.2 := by
  induction ts generalizing p with
  | nil =>
    exact ⟨fun _ _ a ha => absurd ha List.not_mem_nil, .nil, fun a ha => absurd ha List.not_mem_nil⟩
  | cons t ts ih =>
    obtain ⟨hlater, hrest⟩ := List.pairwise_cons.mp hlast
    have hstep := PositionAllocator.take_steps hhalf h (hshut t List.mem_cons_self) hexact.1
    have hshut' : ∀ u ∈ ts, u ≠ .lateRung → (t.on p).2.Shut := fun u hu hne =>
      hstep.shut fun ht => hne (hlater u hu ht)
    obtain ⟨hbound, hspaced, hfloor⟩ := ih hstep.inv hshut' hrest hexact.2
    have hbehind := hbound _ hstep.keepsOff
    refine ⟨fun x hx a ha => ?_, List.pairwise_cons.mpr ⟨hbehind, hspaced⟩, fun a ha => ?_⟩
    · have hhead := hstep.behind x hx
      rcases List.mem_cons.mp ha with rfl | ha
      · exact hhead
      · have := hbehind a ha
        omega
    · rcases List.mem_cons.mp ha with rfl | ha
      · exact hstep.floor
      · exact hfloor a ha

theorem assigned_calls (ts : List Take) (p : PositionAllocator) :
    (assigned ts p).map (·.1) = ts := by
  induction ts generalizing p with
  | nil => rfl
  | cons t ts ih => exact congrArg (t :: ·) (ih _)

/-- A row of calls that starts with those of one kind and goes on with others. -/
theorem pairwise_staged {P : Take → Prop} {as bs : List Take} (ha : ∀ t ∈ as, ¬ P t)
    (hb : ∀ t ∈ bs, P t) : (as ++ bs).Pairwise fun a b => P a → P b :=
  List.pairwise_append.mpr
    ⟨List.Pairwise.imp_of_mem (fun h _ _ hP => absurd hP (ha _ h)) (List.pairwise_of_forall fun _ _ => trivial),
      List.Pairwise.imp_of_mem (fun _ h _ _ => hb _ h) (List.pairwise_of_forall fun _ _ => trivial),
      fun _ h _ _ hP => absurd hP (ha _ h)⟩

namespace LadderUse

theorem late_last (u : LadderUse) :
    u.takes.Pairwise fun a b => a = .lateRung → b = .lateRung := by
  refine pairwise_staged (fun t ht => ?_) fun t ht => List.eq_of_mem_replicate ht
  rcases List.mem_append.mp ht with ht | ht <;> rw [List.eq_of_mem_replicate ht] <;> decide

theorem reserved_first (u : LadderUse) : u.takes.Pairwise fun a b => a.isRanked → b.isRanked := by
  unfold takes early
  rw [List.append_assoc]
  refine pairwise_staged (P := (·.isRanked)) (fun t ht => ?_) fun t ht => ?_
  · rw [List.eq_of_mem_replicate ht]
    decide
  · rcases List.mem_append.mp ht with ht | ht <;> rw [List.eq_of_mem_replicate ht] <;> rfl

end LadderUse

/-- Positions a rung apart stay in their order after any two tie-breaks. -/
theorem tieBreak_keeps {half pos next : Nat} (hhalf : MIN_RUNG_SPACING_MS ≤ half)
    (h : pos + half ≤ next) (id node other : UInt32) :
    pos + slotTieBreakMs half id node < next + slotTieBreakMs half id other := by
  have hle := slotTieBreakMs_le hhalf id node
  have hpos := slotTieBreakMs_pos half id other
  omega

/-- The calls of the planner, on a new allocator. -/
def ladder (slot half : Nat) (u : LadderUse) : List (Take × Nat) := assigned u.takes (.new slot half)

/-- How two positions of a ladder lie to each other, whichever came first. -/
structure Apart (half : Nat) (a b : Take × Nat) : Prop where
  ranked : a.1.isRanked → b.1.isRanked → a.2 < b.2 → a.2 + half ≤ b.2
  reserved : ¬ a.1.isRanked → b.1.isRanked → a.2 < b.2

theorem Take.gap_of_isRanked {t : Take} (h : t.isRanked) (half : Nat) : t.gap half = half := by
  cases t with
  | reserved => cases h
  | rung => rfl
  | lateRung => rfl

theorem Take.gap_pos {half : Nat} (h : 0 < half) (t : Take) : 0 < t.gap half := by
  cases t with
  | reserved => exact Nat.one_pos
  | rung => exact h
  | lateRung => exact h

theorem ladder_spaced {slot half : Nat} {u : LadderUse} (hhalf : 0 < half)
    (hexact : Unsaturated u.takes (.new slot half)) :
    (ladder slot half u).Pairwise (fun a b => a.2 + a.1.gap half ≤ b.2) ∧
      ∀ a ∈ ladder slot half u, a.1 = .lateRung → relayFloorMs slot ≤ a.2 :=
  (assigned_spaced hhalf (PositionAllocator.new_inv slot half)
    (fun _ _ _ => PositionAllocator.new_shut slot half) u.late_last hexact).2

theorem ladder_apart {slot half : Nat} {u : LadderUse} (hhalf : 0 < half)
    (hexact : Unsaturated u.takes (.new slot half)) :
    ∀ a ∈ ladder slot half u, ∀ b ∈ ladder slot half u, Apart half a b := by
  have hfirst : (ladder slot half u).Pairwise fun a b => a.1.isRanked → b.1.isRanked := by
    have h := u.reserved_first
    rw [← assigned_calls u.takes (.new slot half)] at h
    exact List.pairwise_map.mp h
  have hboth : (ladder slot half u).Pairwise fun a b => Apart half a b ∧ Apart half b a := by
    refine ((ladder_spaced hhalf hexact).1.and hfirst).imp fun {a b} ⟨hgap, hstage⟩ => ?_
    have hpos := a.1.gap_pos hhalf
    refine ⟨⟨fun ha _ _ => ?_, fun _ _ => by omega⟩, ⟨fun _ _ hlt => by omega, fun hb ha => ?_⟩⟩
    · rwa [Take.gap_of_isRanked ha] at hgap
    · exact absurd (hstage ha) hb
  have hself : ∀ x, Apart half x x :=
    fun x => ⟨fun _ _ h => absurd h (Nat.lt_irrefl _), fun h h' => absurd h' h⟩
  intro a ha b hb
  exact (hboth.imp And.left).forall_of_forall_of_flip (fun x _ => hself x) (hboth.imp And.right) ha hb

/-- Ranked positions are half an airtime apart in the order of their calls,
behind the reserved ones, and late ones behind the early window. Two nodes at
different ones keep their order, whatever their tie-breaks. -/
theorem ladder_order (slot half : Nat) (u : LadderUse) (hhalf : MIN_RUNG_SPACING_MS ≤ half)
    (hexact : Unsaturated u.takes (.new slot half)) :
    ((ladder slot half u).filter (·.1.isRanked)).Pairwise (fun a b =>
        a.2 < b.2 ∧ a.2 + half ≤ b.2) ∧
      (∀ a ∈ ladder slot half u, a.1 = .lateRung → relayFloorMs slot ≤ a.2) ∧
      ∀ a ∈ ladder slot half u, ∀ b ∈ ladder slot half u, b.1.isRanked →
        (¬ a.1.isRanked → a.2 < b.2) ∧
        (a.1.isRanked → a.2 < b.2 → ∀ id node other,
          a.2 + slotTieBreakMs half id node < b.2 + slotTieBreakMs half id other ∧
          (b.2 + slotTieBreakMs half id other ≤ U32_MAX →
            commitDelayMs a.2 half id node < commitDelayMs b.2 half id other)) := by
  have hpos : 0 < half := Nat.lt_of_lt_of_le (by decide) hhalf
  obtain ⟨hspaced, hfloor⟩ := ladder_spaced hpos hexact
  have hapart := ladder_apart hpos hexact
  refine ⟨?_, hfloor, fun a ha b hb hranked => ⟨fun h => (hapart a ha b hb).reserved h hranked,
    fun hfirst hlt id node other => ?_⟩⟩
  · refine List.pairwise_filter.mpr (hspaced.imp fun {a b} hgap ha _ => ?_)
    rw [Take.gap_of_isRanked ha] at hgap
    omega
  · have hkeep := tieBreak_keeps hhalf ((hapart a ha b hb).ranked hfirst hranked hlt) id node other
    refine ⟨hkeep, fun hmax => ?_⟩
    unfold commitDelayMs
    omega

/-- Two reservations, two rungs in the window behind them, and a late one. -/
def shortLadder : LadderUse := ⟨2, 2, 1, by decide⟩

theorem shortLadder_order :
    ((ladder 10 100 shortLadder).filter (·.1.isRanked)).Pairwise fun a b =>
        a.2 < b.2 ∧ a.2 + 100 ≤ b.2 :=
  (ladder_order 10 100 shortLadder (by decide) (by decide)).1

example : ladder 10 100 shortLadder =
    [(.reserved, 0), (.reserved, 10), (.rung, 20), (.rung, 120), (.lateRung, 220)] := by decide

end Meshrustic.Relay
