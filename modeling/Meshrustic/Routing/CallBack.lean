import Meshrustic.Routing.Insurance

/-!
# T1 slots and frames called back (`mesh-routing/src/router.rs:4240-4266, 4692-4920`)

T1 has four slots. A slot is armed for a packet, fires or is dropped when its time
comes, and is cancelled when a copy of the packet is heard; a frame that fired and
still waits for the radio is then called back. Cancelling stops at the first slot
that has the packet's name, stale ones included.

`t1Calls` are the calls that touch T1 or the list of call-backs, in any order, among
changes that touch neither; the router's own calls are made of these (`step_calls`).
A ghost list has the packets whose fired frame was neither reported transmitted nor
cancelled since.

Results:
* `t1Calls_kept`: a live slot is the first of its packet.
* `cancelled_silent`: a cancelled packet is not returned until it is armed again.
* `step_calls`: the router's own calls are runs of these.
* `t1_cancelled_as_set`: besides, a fired frame is called back, once, as long as its
  slot is not taken while the frame waits and the list has room.
* `fired_slot_taken`: the next broadcast takes the slot of the frame that waits.
-/
namespace Meshrustic.Routing

open Meshrustic.RateLimit (NODENUM_BROADCAST)

structure T1State where
  router : Router
  /-- ghost: packets whose fired frame was since neither reported nor cancelled -/
  outstanding : List PacketKey

inductive T1Call where
  | schedule (frame : Frame) (decodedPortnum resolvedRelay : Option UInt32)
      (nowMs fireDelayMs : UInt32)
  | poll (nowMs : UInt32) (drops : PendingRetransmit → Bool)
  | cancel (k : PacketKey)
  | txDone (k : PacketKey) (nowMs : UInt32)
  /-- another table calls its frame back -/
  | noteCancel (k : PacketKey)
  | take
  | reconfigured (presetChanged : Bool) (recordWindowMs : UInt32)
  /-- the router changes beside T1 and the list -/
  | aside (r : Router)

namespace T1State

variable (s : T1State)

/-- The state after a call, and the packet it returns. -/
def step : T1Call → T1State × Option RelayPlan
  | .schedule frame decodedPortnum resolvedRelay nowMs fireDelayMs =>
    (⟨s.router.scheduleT1Broadcast frame decodedPortnum resolvedRelay nowMs fireDelayMs,
      s.outstanding⟩, none)
  | .poll nowMs drops =>
    let polled := s.router.pollT1Retransmit nowMs drops
    (⟨polled.1, (polled.2.map (·.frame.key)).toList ++ s.outstanding⟩, polled.2)
  | .cancel k =>
    (⟨s.router.cancelT1Retransmit k.1 k.2, s.outstanding.filter fun k' => k' != k⟩, none)
  | .txDone k nowMs =>
    (⟨s.router.noteTxDone k.1 k.2 nowMs, s.outstanding.filter fun k' => k' != k⟩, none)
  | .noteCancel k => (⟨s.router.noteTxCancel k, s.outstanding⟩, none)
  | .take => (⟨s.router.takeTxCancels.2, s.outstanding⟩, none)
  | .reconfigured presetChanged recordWindowMs =>
    (⟨s.router.radioReconfigured presetChanged recordWindowMs, s.outstanding⟩, none)
  | .aside r => (⟨r, s.outstanding⟩, none)

def next (c : T1Call) : T1State := (s.step c).1

/-- A change beside T1 is one. -/
def Possible : T1Call → Prop
  | .aside r => r.pendingRetransmits = s.router.pendingRetransmits ∧
      r.txCancels = s.router.txCancels
  | _ => True

end T1State

/-- A label is a call and the packet it returned. -/
def t1Calls : LTS T1State (T1Call × Option RelayPlan) where
  init s := ∃ node role window seed, s = ⟨.new node role window seed, []⟩
  step s l t := s.Possible l.1 ∧ s.step l.1 = (t, l.2)

/-- The cell that a new packet goes to. -/
def freeT1 (x : PendingRetransmit) : Bool := !x.active || x.canceled

/-- The call loses no frame that waits for the radio: it neither arms the packet again nor
takes its slot, and calling it back finds room on the list. A report on id zero, which is
ignored, is none on a frame that waits. -/
def KeepsT1 (s : T1State) : T1Call × Option RelayPlan → Prop
  | (.schedule frame _ _ _ _, _) =>
    (s.router.pendingRetransmits.any fun x =>
      x.active && x.named frame.header.fromNode frame.header.id) = true ∨
    frame.key ∉ s.outstanding ∧ ∀ k ∈ s.outstanding,
      s.router.pendingRetransmits.find? freeT1 ≠
        s.router.pendingRetransmits.find? (PendingRetransmit.named k.1 k.2)
  | (.cancel k, _) => k ∈ s.outstanding →
      k ∈ s.router.txCancels.rows ∨ s.router.txCancels.rows.length < MAX_TX_CANCELS
  | (.txDone k _, _) => k ∈ s.outstanding → k.2 ≠ 0
  | _ => True

/-! ## What a call does to a slot -/

/-- The slot holds a frame, before it fires or after. -/
def heldT1 (x : PendingRetransmit) : Bool := x.live || x.fired

/-- A slot may only be let go of. -/
structure LetsGo (x y : PendingRetransmit) : Prop extends T1Kept x y where
  fired : y.fired = true → x.fired = true

/-- Besides, one that is live may fire. -/
structure HeldKept (x y : PendingRetransmit) : Prop extends T1Kept x y where
  held : heldT1 y = true → heldT1 x = true

section Cells

variable {s : T1State} {k : PacketKey}

theorem LetsGo.refl (x : PendingRetransmit) : LetsGo x x := ⟨.refl x, id⟩

/-- The slot stays behind without its frame. -/
theorem LetsGo.off {x y : PendingRetransmit} (hkey : y.key = x.key) (hframe : y.frame = x.frame)
    (hlive : y.live = false) (hfired : y.fired = x.fired) : LetsGo x y :=
  ⟨⟨hkey, hframe, fun h => absurd (hlive.symm.trans h) Bool.false_ne_true⟩, fun h => hfired ▸ h⟩

theorem LetsGo.unfire (x : PendingRetransmit) : LetsGo x { x with fired := false } :=
  ⟨⟨rfl, rfl, id⟩, fun h => absurd h Bool.false_ne_true⟩

theorem LetsGo.heldKept {x y : PendingRetransmit} (h : LetsGo x y) : HeldKept x y where
  toT1Kept := h.toT1Kept
  held hy := by
    rw [heldT1, Bool.or_eq_true] at hy ⊢
    exact hy.imp h.live h.fired

theorem noteTxCancel_slots (r : Router) (k : PacketKey) :
    (r.noteTxCancel k).pendingRetransmits = r.pendingRetransmits := (r.noteTxCancel_fields k).2.2.1

theorem cancelT1Retransmit_letsGo (r : Router) (f i : UInt32) :
    InPlace LetsGo r.pendingRetransmits (r.cancelT1Retransmit f i).pendingRetransmits := by
  unfold Router.cancelT1Retransmit
  split
  · exact .refl LetsGo.refl _
  · split
    · exact .changeFirst LetsGo.refl fun x _ _ => .off rfl rfl rfl rfl
    · split
      · rw [noteTxCancel_slots]
        exact .changeFirst LetsGo.refl fun x _ _ => .unfire x
      · exact .refl LetsGo.refl _

theorem noteTxDone_letsGo (r : Router) (f i nowMs : UInt32) :
    InPlace LetsGo r.pendingRetransmits (r.noteTxDone f i nowMs).pendingRetransmits := by
  unfold Router.noteTxDone
  split
  · exact .refl LetsGo.refl _
  · refine .map fun x _ => ?_
    split
    · exact .unfire x
    · exact .refl x

theorem t1Visit_cell (r : Router) (nowMs : UInt32) (drops : PendingRetransmit → Bool)
    (x : PendingRetransmit) :
    LetsGo x (r.t1Visit nowMs drops x).cell ∨
      x.live = true ∧ r.t1Visit nowMs drops x =
        .stop { x with active := false, fired := true } ⟨x.frame, 0⟩ := by
  unfold Router.t1Visit
  split
  · exact .inl (.refl x)
  rename_i hidle
  split
  · exact .inl (.refl x)
  split
  · exact .inl (.off rfl rfl rfl rfl)
  split
  · exact .inl (.off rfl rfl rfl rfl)
  · exact .inr ⟨by simpa [PendingRetransmit.live] using hidle, rfl⟩

/-- Only arming puts a frame in a slot. -/
theorem next_held {c : T1Call} (hc : s.Possible c)
    (hs : ∀ frame portnum relay n d, c ≠ .schedule frame portnum relay n d) :
    InPlace HeldKept s.router.pendingRetransmits (s.next c).router.pendingRetransmits := by
  have hgo : ∀ {t : Slots MAX_PENDING_RETRANSMITS PendingRetransmit},
      InPlace LetsGo s.router.pendingRetransmits t →
        InPlace HeldKept s.router.pendingRetransmits t :=
    fun h => h.imp fun _ _ => LetsGo.heldKept
  cases c with
  | schedule frame portnum relay n d => exact absurd rfl (hs frame portnum relay n d)
  | poll nowMs drops =>
    refine .sweep (fun x => (LetsGo.refl x).heldKept) fun x _ => ?_
    rcases t1Visit_cell s.router nowMs drops x with hgo | ⟨hlive, hstop⟩
    · exact hgo.heldKept
    · rw [hstop]
      exact ⟨⟨rfl, rfl, fun _ => hlive⟩, fun _ => by rw [heldT1, hlive, Bool.true_or]⟩
  | cancel k => exact hgo (cancelT1Retransmit_letsGo s.router k.1 k.2)
  | txDone k nowMs => exact hgo (noteTxDone_letsGo s.router k.1 k.2 nowMs)
  | noteCancel k =>
    refine hgo ?_
    change InPlace LetsGo _ (s.router.noteTxCancel k).pendingRetransmits
    rw [noteTxCancel_slots]
    exact .refl LetsGo.refl _
  | take => exact hgo (.refl LetsGo.refl _)
  | reconfigured presetChanged window => exact hgo (.map fun x _ => LetsGo.off rfl rfl rfl rfl)
  | aside r =>
    refine hgo ?_
    change InPlace LetsGo _ r.pendingRetransmits
    rw [hc.1]
    exact .refl LetsGo.refl _

end Cells

/-! ## What the calls keep -/

/-- A live slot is the first of its packet and holds a frame of it; no packet is called
back twice. -/
structure KeptT1 (r : Router) : Prop where
  leading : Leading PendingRetransmit.live PendingRetransmit.key r.pendingRetransmits
  frames : ∀ x ∈ r.pendingRetransmits, x.live = true → x.frame.key = x.key
  nodup : r.txCancels.rows.Nodup

/-- The call arms the packet. -/
def T1Call.arms (k : PacketKey) : T1Call → Prop
  | .schedule frame _ _ _ _ => frame.key = k
  | _ => False

section Kept

variable {r : Router} {s : T1State}

/-- The cells after arming: those before, and the packet's. -/
theorem schedule_mem (r : Router) (frame : Frame) (portnum relay : Option UInt32)
    (nowMs delay : UInt32) {x : PendingRetransmit}
    (hx : x ∈ (r.scheduleT1Broadcast frame portnum relay nowMs delay).pendingRetransmits) :
    x = Router.armedSlot frame portnum relay nowMs delay ∨ x ∈ r.pendingRetransmits := by
  rcases r.scheduleT1Broadcast_cases frame portnum relay nowMs delay with heq | ⟨-, t, ht, heq⟩ <;>
    rw [heq] at hx
  · exact .inr hx
  · exact Slots.mem_of_place ht hx

theorem noteTxCancel_nodup (h : r.txCancels.rows.Nodup) (k : PacketKey) :
    (r.noteTxCancel k).txCancels.rows.Nodup := by
  unfold Router.noteTxCancel
  split
  · exact h
  · rename_i hmem
    split
    · rename_i t ht
      rw [Table.push_rows ht]
      refine List.Nodup.append h (List.nodup_singleton k) ?_
      rw [List.disjoint_singleton]
      exact hmem
    · exact h

/-- A cancelled packet changes its first slot, and is called back if that had fired. -/
theorem cancelT1Retransmit_cases (r : Router) (f i : UInt32) :
    (r.cancelT1Retransmit f i).txCancels = r.txCancels ∨ ∃ s : Router,
      s.txCancels = r.txCancels ∧ r.cancelT1Retransmit f i = s.noteTxCancel (f, i) := by
  unfold Router.cancelT1Retransmit
  split
  · exact .inl rfl
  · split
    · exact .inl rfl
    · split
      · refine .inr ⟨_, ?_, rfl⟩
        rfl
      · exact .inl rfl

theorem cancelT1Retransmit_nodup (h : r.txCancels.rows.Nodup) (f i : UInt32) :
    (r.cancelT1Retransmit f i).txCancels.rows.Nodup := by
  rcases cancelT1Retransmit_cases r f i with heq | ⟨s, hs, heq⟩
  · rwa [heq]
  · rw [heq]
    exact noteTxCancel_nodup (by rwa [hs]) (f, i)

theorem next_nodup (h : s.router.txCancels.rows.Nodup) {c : T1Call} (hc : s.Possible c) :
    (s.next c).router.txCancels.rows.Nodup := by
  cases c with
  | schedule frame portnum relay nowMs delay =>
    change (s.router.scheduleT1Broadcast frame portnum relay nowMs delay).txCancels.rows.Nodup
    rw [scheduleT1Broadcast_txCancels]
    exact h
  | cancel k => exact cancelT1Retransmit_nodup h k.1 k.2
  | txDone k nowMs =>
    change (s.router.noteTxDone k.1 k.2 nowMs).txCancels.rows.Nodup
    unfold Router.noteTxDone
    split <;> exact h
  | noteCancel k => exact noteTxCancel_nodup h k
  | take => exact List.nodup_nil
  | aside r =>
    change r.txCancels.rows.Nodup
    rw [hc.2]
    exact h
  | poll | reconfigured => exact h

theorem KeptT1.next (h : KeptT1 s.router) {c : T1Call} (hc : s.Possible c) :
    KeptT1 (s.next c).router := by
  have hcalm : InPlace HeldKept s.router.pendingRetransmits (s.next c).router.pendingRetransmits →
      KeptT1 (s.next c).router := fun ht => {
    leading := h.leading.calm (ht.imp fun _ _ hxy => hxy.toT1Kept.calmer)
    frames := fun x hx hl => by
      obtain ⟨y, hy, hk⟩ := ht.origin hx
      rw [hk.frame, hk.key]
      exact h.frames y hy (hk.live hl)
    nodup := next_nodup h.nodup hc }
  cases c with
  | schedule frame portnum relay nowMs delay =>
    refine ⟨scheduleT1Broadcast_leading h.leading frame portnum relay nowMs delay, ?_,
      next_nodup h.nodup hc⟩
    intro x hx hl
    rcases schedule_mem s.router frame portnum relay nowMs delay hx with rfl | hx
    · rfl
    · exact h.frames x hx hl
  | _ => exact hcalm (next_held hc (by simp))

theorem t1Calls_kept : t1Calls.Inductive fun s => KeptT1 s.router where
  init s hs := by
    obtain ⟨node, role, window, seed, rfl⟩ := hs
    refine ⟨.all rfl, fun x hx hl => ?_, List.nodup_nil⟩
    rw [Slots.mem_all hx] at hl
    cases hl
  step s l t h hs := by
    obtain ⟨hpossible, heq⟩ := hs
    have := h.next hpossible
    rwa [T1State.next, heq] at this

end Kept

/-! ## A cancelled packet -/

/-- No slot that passes `p` has the packet. -/
def NoneT1 (p : PendingRetransmit → Bool) (r : Router) (k : PacketKey) : Prop :=
  ∀ x ∈ r.pendingRetransmits, p x = true → x.key ≠ k

section Cancelled

variable {p : PendingRetransmit → Bool} {s t : T1State} {k : PacketKey}

theorem NoneT1.next (h : NoneT1 p s.router k) (hp : ∀ x y, HeldKept x y → p y = true → p x = true)
    {c : T1Call} (hc : s.Possible c) (harms : ¬ c.arms k) : NoneT1 p (s.next c).router k := by
  have hcalm : InPlace HeldKept s.router.pendingRetransmits (s.next c).router.pendingRetransmits →
      NoneT1 p (s.next c).router k := by
    intro ht y hy hpy
    obtain ⟨x, hx, hxy⟩ := ht.origin hy
    rw [hxy.key]
    exact h x hx (hp x y hxy hpy)
  cases c with
  | schedule frame portnum relay nowMs delay =>
    intro x hx hpx
    rcases schedule_mem s.router frame portnum relay nowMs delay hx with rfl | hx
    · exact harms
    · exact h x hx hpx
  | _ => exact hcalm (next_held hc (by simp))

/-- A packet that no slot is live for is not returned before it is armed again. -/
theorem NoneT1.silent (hkept : KeptT1 s.router) (h : NoneT1 PendingRetransmit.live s.router k)
    {ls : List (T1Call × Option RelayPlan)} (hr : t1Calls.Run s ls t)
    (hls : ∀ l ∈ ls, ¬ l.1.arms k) : ∀ l ∈ ls, ∀ plan, l.2 = some plan → plan.frame.key ≠ k := by
  refine (hr.labels (I := fun s => KeptT1 s.router ∧ NoneT1 PendingRetransmit.live s.router k)
    (P := fun l => ¬ l.1.arms k) (Q := fun l => ∀ plan, l.2 = some plan → plan.frame.key ≠ k)
    ?_ ⟨hkept, h⟩ hls).2
  rintro s ⟨c, out⟩ t ⟨hkept, h⟩ harms ⟨hpossible, heq⟩
  have hkept' := hkept.next hpossible
  have h' := h.next (fun _ _ hxy => hxy.live) hpossible harms
  rw [T1State.next, heq] at hkept' h'
  refine ⟨⟨hkept', h'⟩, fun plan hplan => ?_⟩
  obtain rfl : (s.step c).2 = out := congrArg Prod.snd heq
  cases c with
  | poll nowMs drops =>
    obtain ⟨x, hx, hl, hframe⟩ := s.router.pollT1Retransmit_some hplan
    rw [← hframe, hkept.frames x hx hl]
    exact h x hx hl
  | _ => cases hplan

theorem cancelled_silent (hkept : KeptT1 s.router) {ls : List (T1Call × Option RelayPlan)}
    (hr : t1Calls.Run (s.next (.cancel k)) ls t) (hls : ∀ l ∈ ls, ¬ l.1.arms k) :
    ∀ l ∈ ls, ∀ plan, l.2 = some plan → plan.frame.key ≠ k :=
  NoneT1.silent (hkept.next (c := .cancel k) trivial)
    (cancelT1Retransmit_silent hkept.leading k.1 k.2) hr hls

end Cancelled

/-! ## A fired frame that waits -/

/-- The first slot of the packet is the one that fired for it. -/
def WaitingT1 (r : Router) (k : PacketKey) : Prop :=
  ∃ x, r.pendingRetransmits.find? (PendingRetransmit.named k.1 k.2) = some x ∧
    x.live = false ∧ x.fired = true

/-- A slot of packet `k` that has fired stays as it is. -/
structure LeavesFired (k : PacketKey) (x y : PendingRetransmit) : Prop where
  key : y.key = x.key
  waits : x.key = k → x.live = false → y.live = false ∧ y.fired = x.fired

section Waiting

variable {r r' : Router} {k : PacketKey}

theorem named_self (k : PacketKey) (x : PendingRetransmit) :
    x.named k.1 k.2 = true ↔ x.key = k := PendingRetransmit.named_iff

theorem LeavesFired.refl (x : PendingRetransmit) : LeavesFired k x x := ⟨rfl, fun _ h => ⟨h, rfl⟩⟩

theorem WaitingT1.leaves (h : WaitingT1 r k)
    (ht : InPlace (LeavesFired k) r.pendingRetransmits r'.pendingRetransmits) : WaitingT1 r' k := by
  obtain ⟨x, hx, hlive, hfired⟩ := h
  have hnamed : ∀ x y, LeavesFired k x y → y.named k.1 k.2 = x.named k.1 k.2 := by
    intro x y hxy
    rw [Bool.eq_iff_iff, named_self, named_self, hxy.key]
  obtain ⟨y, hy, hxy⟩ := ht.find? hnamed hx
  obtain ⟨hyl, hyf⟩ := hxy.waits ((named_self k x).mp (List.find?_some hx)) hlive
  exact ⟨y, hy, hyl, hyf.trans hfired⟩

/-- Cancelling another packet. -/
theorem cancelT1Retransmit_leaves {k' : PacketKey} (hk : k ≠ k') :
    InPlace (LeavesFired k) r.pendingRetransmits
      (r.cancelT1Retransmit k'.1 k'.2).pendingRetransmits := by
  have hchange : ∀ g : PendingRetransmit → PendingRetransmit, (∀ x, (g x).key = x.key) →
      InPlace (LeavesFired k) r.pendingRetransmits
        (r.pendingRetransmits.changeFirst (PendingRetransmit.named k'.1 k'.2) g) := by
    intro g hg
    refine .changeFirst LeavesFired.refl fun x _ hx => ⟨hg x, fun hkey => ?_⟩
    exact absurd (hkey.symm.trans ((named_self k' x).mp hx)) hk
  unfold Router.cancelT1Retransmit
  split
  · exact .refl LeavesFired.refl _
  · split
    · exact hchange _ fun _ => rfl
    · split
      · obtain ⟨-, -, ht, -, -⟩ := Router.noteTxCancel_fields { r with
          pendingRetransmits := r.pendingRetransmits.changeFirst
            (PendingRetransmit.named k'.1 k'.2) fun s => { s with fired := false } } (k'.1, k'.2)
        rw [ht]
        exact hchange _ fun _ => rfl
      · exact .refl LeavesFired.refl _

theorem noteTxDone_leaves {k' : PacketKey} (hk : k ≠ k') (nowMs : UInt32) :
    InPlace (LeavesFired k) r.pendingRetransmits
      (r.noteTxDone k'.1 k'.2 nowMs).pendingRetransmits := by
  unfold Router.noteTxDone
  split
  · exact .refl LeavesFired.refl _
  · refine .map fun x _ => ?_
    split
    · rename_i hx
      exact ⟨rfl, fun hkey => absurd (hkey.symm.trans ((named_self k' x).mp hx)) hk⟩
    · exact .refl x

theorem pollT1Retransmit_leaves (nowMs : UInt32) (drops : PendingRetransmit → Bool) :
    InPlace (LeavesFired k) r.pendingRetransmits
      (r.pollT1Retransmit nowMs drops).1.pendingRetransmits := by
  refine .sweep LeavesFired.refl fun x _ => ⟨(r.t1Visit_kept nowMs drops x).key, fun _ hlive => ?_⟩
  have hpass : r.t1Visit nowMs drops x = .pass x := by
    unfold Router.t1Visit
    rw [if_pos]
    simpa [PendingRetransmit.live, Bool.and_eq_false_iff, imp_iff_not_or] using hlive
  rw [hpass]
  exact ⟨hlive, rfl⟩

/-- The frame that a poll returns waits in the slot that fired for it. -/
theorem pollT1Retransmit_waiting (h : KeptT1 r) {nowMs : UInt32}
    {drops : PendingRetransmit → Bool} {plan : RelayPlan}
    (hout : (r.pollT1Retransmit nowMs drops).2 = some plan) :
    WaitingT1 (r.pollT1Retransmit nowMs drops).1 plan.frame.key := by
  obtain ⟨l, x, rest, y, hs, hx, -, hcells⟩ := sweep_split hout
  have hmem : x ∈ r.pendingRetransmits := by rw [Slots.mem_def, hs]; simp
  obtain ⟨-, hlive, rfl, rfl⟩ := t1Visit_stops hx
  have hkey : x.frame.key = x.key := h.frames x hmem hlive
  have hlead := h.leading
  rw [Leading, hs, List.pairwise_append] at hlead
  refine ⟨{ x with active := false, fired := true }, ?_, rfl, rfl⟩
  change (r.pendingRetransmits.sweep (r.t1Visit nowMs drops)).1.cells.find? _ = _
  have hfront : (l.map fun a => (r.t1Visit nowMs drops a).cell).find?
      (PendingRetransmit.named x.frame.key.1 x.frame.key.2) = none := by
    refine List.find?_eq_none.mpr fun a ha hnamed => ?_
    obtain ⟨z, hz, rfl⟩ := List.mem_map.mp ha
    rw [named_self, (r.t1Visit_kept nowMs drops z).key, hkey] at hnamed
    exact hlead.2.2 z hz x List.mem_cons_self hlive hnamed
  rw [hcells, List.find?_append, hfront, Option.none_or]
  exact List.find?_cons_of_pos ((named_self _ _).mpr hkey.symm)

/-- Arming another packet, in a cell that is not the packet's. -/
theorem WaitingT1.schedule (h : WaitingT1 r k) {frame : Frame} (hkey : frame.key ≠ k)
    (hcell : r.pendingRetransmits.find? freeT1 ≠
      r.pendingRetransmits.find? (PendingRetransmit.named k.1 k.2))
    (portnum relay : Option UInt32) (nowMs delay : UInt32) :
    WaitingT1 (r.scheduleT1Broadcast frame portnum relay nowMs delay) k := by
  rcases r.scheduleT1Broadcast_cases frame portnum relay nowMs delay with heq | ⟨-, t, ht, heq⟩ <;>
    rw [heq]
  · exact h
  · obtain ⟨l, a, rest, hs, hl, ha, htc⟩ := Slots.place_split ht
    obtain ⟨x, hx, hlive, hfired⟩ := h
    refine ⟨x, ?_, hlive, hfired⟩
    have hfree : r.pendingRetransmits.find? freeT1 = some a := by
      rw [Slots.find?, hs, List.find?_append, List.find?_eq_none.mpr fun y hy => by
        rw [freeT1, hl y hy]; exact Bool.false_ne_true, Option.none_or]
      exact List.find?_cons_of_pos ha
    have hnew : (Router.armedSlot frame portnum relay nowMs delay).named k.1 k.2 = false := by
      rw [Bool.eq_false_iff, Ne, named_self]
      exact hkey
    rw [hfree] at hcell
    change t.cells.find? _ = some x
    rw [Slots.find?, hs, List.find?_append] at hx hcell
    rw [htc, List.find?_append]
    cases hfront : l.find? (PendingRetransmit.named k.1 k.2) with
    | some y =>
      rw [hfront] at hx
      exact hx
    | none =>
      rw [hfront, Option.none_or, List.find?_cons] at hx hcell
      rw [Option.none_or, List.find?_cons, hnew]
      cases hna : a.named k.1 k.2 with
      | true => simp [hna] at hcell
      | false => simpa [hna] using hx

end Waiting

/-- Every frame that was neither reported nor cancelled since it fired waits in its slot. -/
theorem t1Calls_waiting : (t1Calls.restrict KeepsT1).Inductive fun s =>
    KeptT1 s.router ∧ ∀ k ∈ s.outstanding, WaitingT1 s.router k where
  init s hs := by
    refine ⟨t1Calls_kept.init s hs, ?_⟩
    obtain ⟨node, role, window, seed, rfl⟩ := hs
    exact fun k hk => absurd hk List.not_mem_nil
  step s l t h hs := by
    obtain ⟨hkept, hwaiting⟩ := h
    obtain ⟨hkeeps, hpossible, heq⟩ := hs
    refine ⟨t1Calls_kept.step s l t hkept ⟨hpossible, heq⟩, ?_⟩
    obtain ⟨c, out⟩ := l
    obtain rfl : (s.step c).1 = t := congrArg Prod.fst heq
    intro k hk
    cases c with
    | schedule frame portnum relay nowMs delay =>
      rcases hkeeps with hany | ⟨hkey, hcell⟩
      · have hsame : s.router.scheduleT1Broadcast frame portnum relay nowMs delay = s.router := by
          unfold Router.scheduleT1Broadcast
          dsimp only
          rw [if_pos hany]
        change WaitingT1 (s.router.scheduleT1Broadcast frame portnum relay nowMs delay) k
        rw [hsame]
        exact hwaiting k hk
      · exact (hwaiting k hk).schedule (fun h => hkey (h ▸ hk)) (hcell k hk) portnum relay nowMs
          delay
    | poll nowMs drops =>
      change k ∈ ((s.router.pollT1Retransmit nowMs drops).2.map (·.frame.key)).toList ++ _ at hk
      rw [List.mem_append, Option.mem_toList, Option.map_eq_some_iff] at hk
      rcases hk with ⟨plan, hout, rfl⟩ | hk
      · exact pollT1Retransmit_waiting hkept hout
      · exact (hwaiting k hk).leaves (pollT1Retransmit_leaves nowMs drops)
    | cancel k' =>
      obtain ⟨hk, hne⟩ := List.mem_filter.mp hk
      exact (hwaiting k hk).leaves (cancelT1Retransmit_leaves (by simpa using hne))
    | txDone k' nowMs =>
      obtain ⟨hk, hne⟩ := List.mem_filter.mp hk
      exact (hwaiting k hk).leaves (noteTxDone_leaves (by simpa using hne) nowMs)
    | noteCancel k' =>
      refine (hwaiting k hk).leaves ?_
      obtain ⟨-, -, ht, -, -⟩ := s.router.noteTxCancel_fields k'
      change InPlace _ _ (s.router.noteTxCancel k').pendingRetransmits
      rw [ht]
      exact .refl LeavesFired.refl _
    | take => exact (hwaiting k hk).leaves (.refl LeavesFired.refl _)
    | reconfigured presetChanged window =>
      refine (hwaiting k hk).leaves (.map fun x _ => ⟨rfl, fun _ _ => ⟨rfl, rfl⟩⟩)
    | aside r =>
      refine (hwaiting k hk).leaves ?_
      change InPlace _ _ r.pendingRetransmits
      rw [hpossible.1]
      exact .refl LeavesFired.refl _

/-! ## Fired slots -/

/-- A slot that is held is the first of its packet, and one that fired is outstanding. -/
structure HeldT1 (s : T1State) : Prop where
  leading : Leading heldT1 PendingRetransmit.key s.router.pendingRetransmits
  known : ∀ x ∈ s.router.pendingRetransmits, x.fired = true → x.key ∈ s.outstanding
  unfired : ∀ x ∈ s.router.pendingRetransmits, x.live = true → x.fired = false

section Held

variable {s t : T1State} {k : PacketKey}

theorem HeldT1.calm (h : HeldT1 s)
    (ht : InPlace LetsGo s.router.pendingRetransmits t.router.pendingRetransmits)
    (hout : ∀ x ∈ t.router.pendingRetransmits, x.fired = true → x.key ∈ s.outstanding →
      x.key ∈ t.outstanding) : HeldT1 t where
  leading := h.leading.calm (ht.imp fun _ _ hxy => ⟨hxy.key, hxy.heldKept.held⟩)
  known y hy hfired := by
    obtain ⟨x, hx, hxy⟩ := ht.origin hy
    refine hout y hy hfired ?_
    rw [hxy.key]
    exact h.known x hx (hxy.fired hfired)
  unfired y hy hlive := by
    obtain ⟨x, hx, hxy⟩ := ht.origin hy
    rw [Bool.eq_false_iff]
    intro hfired
    have := h.unfired x hx (hxy.live hlive)
    rw [hxy.fired hfired] at this
    cases this

/-- After the scan no slot holds a frame of the packet. -/
theorem HeldT1.cancel (h : HeldT1 s) (k : PacketKey) :
    NoneT1 heldT1 (s.router.cancelT1Retransmit k.1 k.2) k := by
  intro y hy hheld hkey
  obtain ⟨x, hx, hxy⟩ := (cancelT1Retransmit_letsGo s.router k.1 k.2).origin hy
  have hxh := hxy.heldKept.held hheld
  have hxk : x.key = k := hxy.key.symm.trans hkey
  unfold Router.cancelT1Retransmit at hy
  split at hy
  · rename_i hnone
    exact List.find?_eq_none.mp hnone x hx ((named_self k x).mpr hxk)
  · rename_i first hfirst
    have hone : ∀ z ∈ s.router.pendingRetransmits, z.key = k → heldT1 z = true → z = first :=
      fun z hz hzk hzh => h.leading.eq_first (named_self k) hfirst hz hzh hzk
    obtain rfl := hone x hx hxk hxh
    split at hy
    · rename_i hlive
      refine h.leading.changeFirst (named_self k) (fun z hz hzk => ?_) y hy hheld hkey
      change z.fired = false
      cases hfired : z.fired with
      | false => rfl
      | true =>
        obtain rfl := hone z hz hzk (by rw [heldT1, hfired, Bool.or_true])
        rw [← hfired, h.unfired z hz hlive]
    · rename_i hlive
      rw [Bool.not_eq_true] at hlive
      rw [heldT1, hlive, Bool.false_or] at hxh
      rw [if_pos hxh, noteTxCancel_slots] at hy
      refine h.leading.changeFirst (named_self k) (fun z hz hzk => ?_) y hy hheld hkey
      change (z.live || false) = false
      rw [Bool.or_false]
      cases hzl : z.live with
      | false => rfl
      | true =>
        obtain rfl := hone z hz hzk (by rw [heldT1, hzl, Bool.true_or])
        rw [← hzl, hlive]

/-- A poll lets go of slots, and the one that fires is outstanding from then on. -/
theorem HeldT1.poll (h : HeldT1 s) (hkept : KeptT1 s.router) (nowMs : UInt32)
    (drops : PendingRetransmit → Bool) : HeldT1 (s.next (.poll nowMs drops)) := by
  have hcells := next_held (s := s) (c := .poll nowMs drops) trivial (by simp)
  refine ⟨h.leading.calm (hcells.imp fun _ _ hxy => ⟨hxy.key, hxy.held⟩), ?_, ?_⟩ <;> intro y hy
  · intro hfired
    change y.key ∈ ((s.router.pollT1Retransmit nowMs drops).2.map (·.frame.key)).toList ++ _
    rw [List.mem_append]
    rcases sweep_origin hy with hy | ⟨x, hx, hpass | ⟨b, hstop, hout⟩⟩
    · exact .inr (h.known y hy hfired)
    · have hvisit := t1Visit_cell s.router nowMs drops x
      rw [hpass] at hvisit
      rcases hvisit with hgo | ⟨-, hstop⟩
      · have hkey : y.key = x.key := hgo.key
        rw [hkey]
        exact .inr (h.known x hx (hgo.fired hfired))
      · cases hstop
    · obtain ⟨-, hlive, rfl, rfl⟩ := t1Visit_stops hstop
      refine .inl ?_
      rw [Option.mem_toList, Option.map_eq_some_iff]
      exact ⟨_, hout, hkept.frames x hx hlive⟩
  · intro hlive
    rcases sweep_origin hy with hy | ⟨x, hx, hpass | ⟨b, hstop, -⟩⟩
    · exact h.unfired y hy hlive
    · have hvisit := t1Visit_cell s.router nowMs drops x
      rw [hpass] at hvisit
      rcases hvisit with hgo | ⟨-, hstop⟩
      · rw [Bool.eq_false_iff]
        intro hfired
        have := h.unfired x hx (hgo.live hlive)
        rw [hgo.fired hfired] at this
        cases this
      · cases hstop
    · obtain ⟨-, -, rfl, -⟩ := t1Visit_stops hstop
      cases hlive

/-- A packet that nothing holds is armed in front of its stale slots. -/
theorem HeldT1.schedule (h : HeldT1 s) {frame : Frame}
    (hnew : (s.router.pendingRetransmits.any fun x =>
        x.active && x.named frame.header.fromNode frame.header.id) = true ∨
      frame.key ∉ s.outstanding) (portnum relay : Option UInt32) (nowMs delay : UInt32) :
    HeldT1 (s.next (.schedule frame portnum relay nowMs delay)) := by
  rcases s.router.scheduleT1Broadcast_cases frame portnum relay nowMs delay with heq |
    ⟨hfree, t, ht, heq⟩
  · change HeldT1 ⟨s.router.scheduleT1Broadcast frame portnum relay nowMs delay, s.outstanding⟩
    rw [heq]
    exact h
  · change HeldT1 ⟨s.router.scheduleT1Broadcast frame portnum relay nowMs delay, s.outstanding⟩
    rw [heq]
    have hout : frame.key ∉ s.outstanding := by
      refine hnew.resolve_left fun hany => ?_
      obtain ⟨x, hx, hmatch⟩ := Slots.any_eq_true.mp hany
      rw [Bool.and_eq_true] at hmatch
      exact hfree x hx hmatch.1 ((named_self frame.key x).mp hmatch.2)
    refine ⟨h.leading.place (fun x _ hbusy => ?_) (fun x hx hheld hkey => ?_) ht,
      fun x hx hfired => ?_, fun x hx hlive => ?_⟩
    · rw [heldT1, Bool.or_eq_true]
      exact .inl (by simpa [PendingRetransmit.live] using hbusy)
    · rw [heldT1, Bool.or_eq_true] at hheld
      rcases hheld with hlive | hfired
      · rw [PendingRetransmit.live, Bool.and_eq_true] at hlive
        exact hfree x hx hlive.1 hkey
      · have hkey : x.key = frame.key := hkey
        exact hout (hkey ▸ h.known x hx hfired)
    · rcases Slots.mem_of_place ht hx with rfl | hx
      · cases hfired
      · exact h.known x hx hfired
    · rcases Slots.mem_of_place ht hx with rfl | hx
      · rfl
      · exact h.unfired x hx hlive

theorem HeldT1.txDone (h : HeldT1 s) (hk : k ∈ s.outstanding → k.2 ≠ 0) (nowMs : UInt32) :
    HeldT1 (s.next (.txDone k nowMs)) := by
  refine h.calm (noteTxDone_letsGo s.router k.1 k.2 nowMs) fun x hx hfired hout =>
    List.mem_filter.mpr ⟨hout, ?_⟩
  suffices x.key ≠ k by simpa using this
  intro hkey
  have hid := hk (hkey ▸ hout)
  change x ∈ (s.router.noteTxDone k.1 k.2 nowMs).pendingRetransmits at hx
  rw [Router.noteTxDone, if_neg (by simpa using hid)] at hx
  obtain ⟨y, -, rfl⟩ := Slots.mem_map.mp hx
  by_cases hnamed : y.named k.1 k.2 = true
  · rw [if_pos hnamed] at hfired
    cases hfired
  · rw [if_neg hnamed] at hkey
    exact hnamed ((named_self k y).mpr hkey)

theorem t1Calls_held :
    (t1Calls.restrict KeepsT1).Inductive fun s => KeptT1 s.router ∧ HeldT1 s where
  init s hs := by
    refine ⟨t1Calls_kept.init s hs, ?_⟩
    obtain ⟨node, role, window, seed, rfl⟩ := hs
    refine ⟨.all rfl, fun x hx hfired => ?_, fun x hx _ => ?_⟩ <;> obtain rfl := Slots.mem_all hx
    · cases hfired
    · rfl
  step s l t h hs := by
    obtain ⟨hkept, hheld⟩ := h
    obtain ⟨hkeeps, hpossible, heq⟩ := hs
    refine ⟨t1Calls_kept.step s l t hkept ⟨hpossible, heq⟩, ?_⟩
    obtain ⟨c, out⟩ := l
    obtain rfl : s.next c = t := congrArg Prod.fst heq
    cases c with
    | schedule frame portnum relay nowMs delay =>
      exact hheld.schedule (hkeeps.imp_right And.left) portnum relay nowMs delay
    | poll nowMs drops => exact hheld.poll hkept nowMs drops
    | cancel k =>
      refine hheld.calm (cancelT1Retransmit_letsGo s.router k.1 k.2) fun x hx hfired hout => ?_
      refine List.mem_filter.mpr ⟨hout, ?_⟩
      have := hheld.cancel k x hx (by rw [heldT1, hfired, Bool.or_true])
      simpa using this
    | txDone k nowMs => exact hheld.txDone hkeeps nowMs
    | noteCancel k =>
      refine hheld.calm ?_ fun _ _ _ => id
      change InPlace LetsGo _ (s.router.noteTxCancel k).pendingRetransmits
      rw [noteTxCancel_slots]
      exact .refl LetsGo.refl _
    | take => exact hheld.calm (.refl LetsGo.refl _) fun _ _ _ => id
    | reconfigured presetChanged window =>
      exact hheld.calm (.map fun x _ => LetsGo.off rfl rfl rfl rfl) fun _ _ _ => id
    | aside r =>
      refine hheld.calm ?_ fun _ _ _ => id
      change InPlace LetsGo _ r.pendingRetransmits
      rw [hpossible.1]
      exact .refl LetsGo.refl _

end Held

/-! ## The router's own calls -/

/-- `s` comes after `r` by such calls, whatever is outstanding. -/
def Calls (r s : Router) : Prop := ∀ o, ∃ ls o', t1Calls.Run ⟨r, o⟩ ls ⟨s, o'⟩

section Calls

variable {r s t : Router}

theorem Calls.trans (h : Calls r s) (h' : Calls s t) : Calls r t := by
  intro o
  obtain ⟨ls, o', hr⟩ := h o
  obtain ⟨ls', o'', hr'⟩ := h' o'
  exact ⟨ls ++ ls', o'', hr.append hr'⟩

/-- One call. -/
theorem Calls.call (c : T1Call) (hc : ∀ o, (T1State.mk r o).Possible c)
    (hs : ∀ o, ((T1State.mk r o).next c).router = s) : Calls r s := by
  intro o
  obtain rfl := hs o
  exact ⟨[(c, ((T1State.mk r o).step c).2)], ((T1State.mk r o).next c).outstanding,
    .cons ⟨hc o, rfl⟩ (.nil _)⟩

theorem Calls.aside (ht : s.pendingRetransmits = r.pendingRetransmits)
    (hcancels : s.txCancels = r.txCancels) : Calls r s :=
  .call (.aside s) (fun _ => ⟨ht, hcancels⟩) fun _ => rfl

theorem Aside.calls (h : Aside r s) : Calls r s := .aside h.t1 h.cancels

theorem Recalls.calls {k : PacketKey} (h : Recalls k r s) : Calls r s := by
  induction h with
  | aside _ ht hcancels => exact .aside ht hcancels
  | note r k' => exact .call (.noteCancel k') (fun _ => trivial) fun _ => rfl
  | cancel r => exact .call (.cancel k) (fun _ => trivial) fun _ => rfl
  | trans _ _ ih ih' => exact ih.trans ih'

theorem scheduleT1Broadcast_calls (r : Router) (frame : Frame) (portnum relay : Option UInt32)
    (nowMs delay : UInt32) : Calls r (r.scheduleT1Broadcast frame portnum relay nowMs delay) :=
  .call (.schedule frame portnum relay nowMs delay) (fun _ => trivial) fun _ => rfl

theorem discardQueuedForward_calls (r : Router) (f i : UInt32) :
    Calls r (r.discardQueuedForward f i) := by
  have hcancel : ∀ r : Router, Calls r (r.cancelT1Retransmit f i) := fun r =>
    .call (.cancel (f, i)) (fun _ => trivial) fun _ => rfl
  have hbefore : Calls r
      { r.cancelPending f i with graph := (r.cancelPending f i).graph.cancelRelay f i } :=
    .aside rfl rfl
  exact (hbefore.trans (hcancel _)).trans (.aside rfl rfl)

theorem receive_calls (r : Router) (packet : InboundPacket) (a : Answers) (hearsUs : Bool)
    (verdict : Verdict) (nowMs : UInt32) :
    Calls r (r.receive packet a hearsUs verdict nowMs).1 := by
  obtain ⟨history, hrecalls⟩ := r.processInbound_recalls packet a nowMs
  have hseen : Calls r { r with history } := .aside rfl rfl
  have hin : Calls r (r.processInbound packet a nowMs).1 := hseen.trans hrecalls.calls
  rcases receive_aside (r := r) packet a hearsUs verdict nowMs with
    h | ⟨frame, portnum, relay, delay, h⟩
  · exact hin.trans h.calls
  · exact (hin.trans (scheduleT1Broadcast_calls _ frame portnum relay nowMs delay)).trans h.calls

theorem sendLocal_calls (r : Router) (q : Router.LocalRequest) (nowMs : UInt32) :
    Calls r (r.sendLocal q nowMs).1 := by
  rcases sendLocal_aside (r := r) q nowMs with h | ⟨s, frame, portnum, relay, h, heq⟩
  · exact h.calls
  · rw [heq]
    exact h.calls.trans (scheduleT1Broadcast_calls s frame portnum relay nowMs q.fireDelayMs)

/-- Each call of the router is a run of calls on T1. -/
theorem step_calls (r : Router) (e : Event) : Calls r (r.step e).1 := by
  cases e with
  | receive packet a hearsUs verdict nowMs => exact receive_calls r packet a hearsUs verdict nowMs
  | sendLocal q nowMs => exact sendLocal_calls r q nowMs
  | pollAdminTx frame delay => exact (pollAdminTx_aside (r := r) frame delay).calls
  | pollReadyRelay nowMs admits q => exact (pollReadyRelay_aside (r := r) nowMs admits q).calls
  | pollT1Retransmit nowMs drops =>
    exact .call (.poll nowMs drops) (fun _ => trivial) fun _ => rfl
  | pollReliableRetransmit nowMs delay alternate =>
    exact (pollReliableRetransmit_aside (r := r) nowMs delay alternate).calls
  | takeTxCancels => exact .call .take (fun _ => trivial) fun _ => rfl
  | noteTxDone f i nowMs => exact .call (.txDone (f, i) nowMs) (fun _ => trivial) fun _ => rfl
  | noteTxFailure f i nowMs => exact .aside rfl rfl
  | noteTxQueueRejected f i nowMs => exact .aside rfl rfl
  | discardQueuedForward f i => exact discardQueuedForward_calls r f i
  | noteRxAirtime ms => exact .aside rfl rfl
  | maintenance nowMs reports =>
    have hexpired : Calls r { r with graph := r.graph.clearExpiredCommits nowMs } := .aside rfl rfl
    exact hexpired.trans (drawTxIds_aside reports).calls
  | setDeviceRole role => exact .aside rfl rfl
  | radioReconfigured presetChanged window =>
    exact .call (.reconfigured presetChanged window) (fun _ => trivial) fun _ => rfl

/-- Every reachable router is reached by calls on T1. -/
theorem reachable_calls (h : routerLTS.Reachable r) : ∃ o, t1Calls.Reachable ⟨r, o⟩ := by
  refine LTS.Inductive.reachable (I := fun r => ∃ o, t1Calls.Reachable ⟨r, o⟩) ⟨?_, ?_⟩ h
  · rintro _ ⟨node, role, window, seed, rfl⟩
    exact ⟨[], _, [], ⟨node, role, window, seed, rfl⟩, .nil _⟩
  · rintro r ⟨e, out⟩ s ⟨o, s0, ls, hinit, hrun⟩ ⟨-, heq⟩
    obtain ⟨ls', o', hcalls⟩ := step_calls r e o
    rw [heq] at hcalls
    exact ⟨o', s0, ls ++ ls', hinit, hrun.append hcalls⟩

end Calls

/-! ## Called back once -/

section Once

variable {r : Router} {s t : T1State} {k : PacketKey}

/-- Cancelling a packet that nothing holds changes nothing. -/
theorem cancelT1Retransmit_spent (h : NoneT1 heldT1 r k) : r.cancelT1Retransmit k.1 k.2 = r := by
  unfold Router.cancelT1Retransmit
  split
  · rfl
  · rename_i x hx
    have hspent : heldT1 x = false := by
      rw [Bool.eq_false_iff]
      intro hheld
      exact h x (Slots.find?_mem hx) hheld ((named_self k x).mp (List.find?_some hx))
    rw [heldT1, Bool.or_eq_false_iff] at hspent
    rw [hspent.1, hspent.2, if_neg Bool.false_ne_true, if_neg Bool.false_ne_true]

theorem noteTxCancel_mem_other {k' : PacketKey} (hk : k ≠ k') :
    k ∈ (r.noteTxCancel k').txCancels.rows ↔ k ∈ r.txCancels.rows := by
  unfold Router.noteTxCancel
  split
  · exact Iff.rfl
  · split
    · rename_i t ht
      rw [Table.push_rows ht, List.mem_append, List.mem_singleton, or_iff_left hk]
    · exact Iff.rfl

/-- The list changes for a packet that nothing holds when it is taken. -/
theorem next_listed (h : NoneT1 heldT1 s.router k) {c : T1Call} (hc : s.Possible c)
    (hnote : c ≠ .noteCancel k) :
    k ∈ (s.next c).router.txCancels.rows ↔ k ∈ s.router.txCancels.rows ∧ c ≠ .take := by
  cases c with
  | schedule frame portnum relay nowMs delay =>
    change k ∈ (s.router.scheduleT1Broadcast frame portnum relay nowMs delay).txCancels.rows ↔ _
    rw [scheduleT1Broadcast_txCancels]
    simp
  | cancel k' =>
    change k ∈ (s.router.cancelT1Retransmit k'.1 k'.2).txCancels.rows ↔ _
    by_cases hk : k = k'
    · subst hk
      rw [cancelT1Retransmit_spent h]
      simp
    · rcases cancelT1Retransmit_cases s.router k'.1 k'.2 with heq | ⟨r, hr, heq⟩ <;> rw [heq]
      · simp
      · rw [noteTxCancel_mem_other hk, hr]
        simp
  | txDone k' nowMs =>
    change k ∈ (s.router.noteTxDone k'.1 k'.2 nowMs).txCancels.rows ↔ _
    unfold Router.noteTxDone
    split <;> simp
  | noteCancel k' =>
    change k ∈ (s.router.noteTxCancel k').txCancels.rows ↔ _
    rw [noteTxCancel_mem_other fun hk => hnote (congrArg T1Call.noteCancel hk.symm)]
    simp
  | take => exact iff_of_false List.not_mem_nil fun h => h.2 rfl
  | aside r =>
    change k ∈ r.txCancels.rows ↔ _
    rw [hc.2]
    simp
  | poll nowMs drops =>
    change k ∈ s.router.txCancels.rows ↔ _
    simp
  | reconfigured presetChanged window =>
    change k ∈ s.router.txCancels.rows ↔ _
    simp

/-- A packet that nothing holds leaves the list with the first take, and stays off. -/
theorem NoneT1.listed (h : NoneT1 heldT1 s.router k) {ls : List (T1Call × Option RelayPlan)}
    (hr : t1Calls.Run s ls t) (hls : ∀ l ∈ ls, ¬ l.1.arms k ∧ l.1 ≠ .noteCancel k) :
    k ∈ t.router.txCancels.rows ↔ k ∈ s.router.txCancels.rows ∧ ∀ l ∈ ls, l.1 ≠ .take := by
  induction hr with
  | nil s => simp
  | @cons s t u l ls hstep _ ih =>
    obtain ⟨hpossible, heq⟩ := hstep
    obtain ⟨harms, hnote⟩ := hls l List.mem_cons_self
    have hnext := h.next (fun _ _ hxy => hxy.held) hpossible harms
    have hlisted := next_listed h hpossible hnote
    obtain rfl : s.next l.1 = t := congrArg Prod.fst heq
    rw [ih hnext fun l hl => hls l (List.mem_cons_of_mem _ hl), hlisted, List.forall_mem_cons,
      and_assoc]

/-- The frame that waits is called back. -/
theorem WaitingT1.cancel (h : WaitingT1 r k)
    (hroom : k ∈ r.txCancels.rows ∨ r.txCancels.rows.length < MAX_TX_CANCELS) :
    k ∈ (r.cancelT1Retransmit k.1 k.2).txCancels.rows := by
  obtain ⟨x, hx, hlive, hfired⟩ := h
  unfold Router.cancelT1Retransmit
  rw [hx]
  dsimp only
  rw [hlive, hfired, if_neg Bool.false_ne_true, if_pos rfl]
  exact Router.noteTxCancel_takes _ hroom

end Once

/-- In every state a live slot is the first of its packet, and a cancelled packet is not
returned before it is armed again. Where no call so far lost a frame that waits, the list
of call-backs has an outstanding packet from its cancellation to the next take, and not
again. -/
theorem t1_cancelled_as_set {s : T1State} (hs : t1Calls.Reachable s) :
    Leading PendingRetransmit.live PendingRetransmit.key s.router.pendingRetransmits ∧
      (∀ k ls t, t1Calls.Run (s.next (.cancel k)) ls t → (∀ l ∈ ls, ¬ l.1.arms k) →
        ∀ l ∈ ls, ∀ plan, l.2 = some plan → plan.frame.key ≠ k) ∧
      ((t1Calls.restrict KeepsT1).Reachable s → ∀ k ∈ s.outstanding, KeepsT1 s (.cancel k, none) →
        ∀ ls t, t1Calls.Run (s.next (.cancel k)) ls t →
          (∀ l ∈ ls, ¬ l.1.arms k ∧ l.1 ≠ .noteCancel k) →
            t.router.takeTxCancels.1.Nodup ∧
              (k ∈ t.router.takeTxCancels.1 ↔ ∀ l ∈ ls, l.1 ≠ .take)) := by
  have hkept := t1Calls_kept.reachable hs
  refine ⟨hkept.leading, fun k ls t hr hls => cancelled_silent hkept hr hls, ?_⟩
  intro hkeeping k hk hroom ls t hr hls
  obtain ⟨-, hwaiting⟩ := t1Calls_waiting.reachable hkeeping
  obtain ⟨-, hheld⟩ := t1Calls_held.reachable hkeeping
  have hkept' := hr.preserves (I := fun s => KeptT1 s.router) t1Calls_kept.step
    (hkept.next (c := .cancel k) trivial)
  have hlisted : k ∈ (s.next (.cancel k)).router.txCancels.rows := (hwaiting k hk).cancel (hroom hk)
  refine ⟨hkept'.nodup, ?_⟩
  change k ∈ t.router.txCancels.rows ↔ _
  rw [NoneT1.listed (hheld.cancel k) hr hls, and_iff_right hlisted]

/-- A broadcast of node 7, as it is heard. -/
def broadcastOf7 (id : UInt32) (hopLimit : UInt8) : InboundPacket :=
  ⟨⟨NODENUM_BROADCAST, 7, id, 8, hopLimit, 3, false, false, 0, 7⟩, [1, 2, 3], 0, 20⟩

/-- A broadcast that went to the radio is called back. -/
theorem t1_cancelled_as_set_fired :
    let start : T1State := ⟨.new 5 0 88397 1, []⟩
    let frame : Frame := ⟨(broadcastOf7 9 3).header, [1, 2, 3]⟩
    let fired := (start.next (.schedule frame none none 0 1000)).next (.poll 1000 fun _ => false)
    (7, 9) ∈ (fired.next (.cancel (7, 9))).router.takeTxCancels.1 := by
  intro start frame fired
  have hinit : t1Calls.init start := ⟨5, 0, 88397, 1, rfl⟩
  have hnext : ∀ {s : T1State} (c : T1Call), s.Possible c → KeepsT1 s (c, (s.step c).2) →
      (t1Calls.restrict KeepsT1).Reachable s → (t1Calls.restrict KeepsT1).Reachable (s.next c) :=
    fun c hc hkeeps h => h.step (l := (c, _)) ⟨hkeeps, hc, rfl⟩
  have hkeeping : (t1Calls.restrict KeepsT1).Reachable fired := by
    refine hnext _ trivial trivial (hnext _ trivial (.inr ⟨List.not_mem_nil, ?_⟩)
      ⟨start, [], hinit, .nil _⟩)
    exact fun k hk => absurd hk List.not_mem_nil
  have hlist := ((t1_cancelled_as_set hkeeping.of_restrict).2.2 hkeeping (7, 9) (by decide +kernel)
    (fun _ => .inr (by decide +kernel)) [] _ (.nil _)
    fun l hl => absurd hl List.not_mem_nil).2
  exact hlist.mpr fun l hl => absurd hl List.not_mem_nil

/-- The answers of a node that relays nothing itself. -/
def insuringAnswers : Answers :=
  ⟨some ⟨1, 0, 0, false⟩, false, true, 0, 0, false, false, 0⟩

/-- A broadcast that T1 sent waits for the radio when the next one is insured. A copy of the
first is heard, and its frame is not called back. -/
theorem fired_slot_taken :
    let first := broadcastOf7 9 3
    let r := ((Router.new 5 0 88397 1).step
      (.receive first insuringAnswers true (.insure 7 1000) 0)).1
    let fired := r.step (.pollT1Retransmit 1000 fun _ => false)
    let taken := (fired.1.step
      (.receive (broadcastOf7 10 3) insuringAnswers true (.insure 7 1000) 1000)).1
    let copy : Event := .receive (broadcastOf7 9 2) insuringAnswers true (.skip 0) 1001
    (∃ plan, fired.2 = .t1 plan ∧ plan.frame.key = (7, 9)) ∧
      (fired.1.step copy).1.takeTxCancels.1 = [(7, 9)] ∧
        (taken.cancelT1Retransmit 7 9).takeTxCancels.1 = [] ∧
          (taken.step copy).1.takeTxCancels.1 = [] := by
  refine ⟨⟨_, rfl, by decide +kernel⟩, ?_, ?_, ?_⟩ <;> decide +kernel

end Meshrustic.Routing
