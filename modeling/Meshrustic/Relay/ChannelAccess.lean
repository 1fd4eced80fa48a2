import Mathlib.Algebra.Group.Nat.Defs
import Meshrustic.Core.Clock
import Meshrustic.Core.LTS

/-!
# Holding the channel (`mesh-routing/src/channel_access.rs`)

After a reception the channel is left to others for a while, after a transmission of ours for a
moment. The code keeps one deadline, which wraps, and a flag that says whether it counts; the flag
is cleared by whoever asks after the deadline. The abstract view is the list of all causes, each
the real time until which it holds.

Results:
* `HoldState.Tracks`: the deadline is the latest of the causes for as long as it counts, and when
  it does not, none of them holds any more;
* `holds_are_latest_cause`: what is answered is decided by the latest cause.
-/
namespace Meshrustic.Relay

def PEER_TURNAROUND_MS : UInt32 := 250
def TX_GAP_MS : UInt32 := 100

/-- mirrors crates/mesh-routing/src/channel_access.rs:24-28 -/
structure ChannelAccess where
  holdUntilMs : UInt32 := 0
  holding : Bool := false
  deriving DecidableEq, Repr

namespace ChannelAccess

/-- mirrors crates/mesh-routing/src/channel_access.rs:38-45 -/
def extend (c : ChannelAccess) (untilMs nowMs : UInt32) : ChannelAccess :=
  let holdUntilMs :=
    if !c.holding || untilMs - c.holdUntilMs < 0x80000000 then untilMs else c.holdUntilMs
  { holdUntilMs, holding := holdUntilMs - nowMs < 0x80000000 && holdUntilMs != nowMs }

/-- mirrors crates/mesh-routing/src/channel_access.rs:47-51 -/
def noteRx (c : ChannelAccess) (nowMs contentionBackoffMs : UInt32) : ChannelAccess :=
  let hold := max contentionBackoffMs PEER_TURNAROUND_MS
  c.extend (nowMs + hold) nowMs

/-- mirrors crates/mesh-routing/src/channel_access.rs:53-55 -/
def noteTxDone (c : ChannelAccess) (nowMs : UInt32) : ChannelAccess :=
  c.extend (nowMs + TX_GAP_MS) nowMs

/-- The answer, and the flag as it is left.
mirrors crates/mesh-routing/src/channel_access.rs:57-62 -/
def mayTransmit (c : ChannelAccess) (nowMs : UInt32) : Bool × ChannelAccess :=
  let c := if c.holding && nowMs - c.holdUntilMs < 0x80000000 then { c with holding := false } else c
  (!c.holding, c)

/-- mirrors crates/mesh-routing/src/channel_access.rs:64-70 -/
def remainingMs (c : ChannelAccess) (nowMs : UInt32) : UInt32 × ChannelAccess :=
  let (may, c) := c.mayTransmit nowMs
  (if may then 0 else c.holdUntilMs - nowMs, c)

end ChannelAccess

/-! ## Calls at real times -/

inductive Access where
  | noteRx (contentionBackoffMs : UInt32)
  | noteTxDone
  | mayTransmit
  | remainingMs

/-- For how long an event holds the channel, if it does. -/
def Access.hold : Access → Option Nat
  | .noteRx contentionBackoffMs => some (max contentionBackoffMs.toNat PEER_TURNAROUND_MS.toNat)
  | .noteTxDone => some TX_GAP_MS.toNat
  | .mayTransmit | .remainingMs => none

/-- A backoff lies below 2^30 ms. -/
def Access.Short : Access → Prop
  | .noteRx contentionBackoffMs => contentionBackoffMs.toNat < 2 ^ 30
  | .noteTxDone | .mayTransmit | .remainingMs => True

instance : DecidablePred Access.Short
  | .noteRx contentionBackoffMs => inferInstanceAs (Decidable (contentionBackoffMs.toNat < 2 ^ 30))
  | .noteTxDone | .mayTransmit | .remainingMs => isTrue trivial

/-- The component, the time of the last call, and until when each event so far holds. -/
structure HoldState where
  channel : ChannelAccess
  nowMs : Nat
  causes : List Nat

namespace HoldState

/-- The latest of the causes. -/
def holdEnd (s : HoldState) : Nat := s.causes.foldr max 0

def next (s : HoldState) (call : Nat × Access) : HoldState where
  channel := match call.2 with
    | .noteRx contentionBackoffMs => s.channel.noteRx (clock call.1) contentionBackoffMs
    | .noteTxDone => s.channel.noteTxDone (clock call.1)
    | .mayTransmit => (s.channel.mayTransmit (clock call.1)).2
    | .remainingMs => (s.channel.remainingMs (clock call.1)).2
  nowMs := call.1
  causes := (call.2.hold.map (call.1 + ·)).toList ++ s.causes

/-- A moment at which the next call may come. -/
def Soon (s : HoldState) (t : Nat) : Prop := s.nowMs ≤ t ∧ t - s.nowMs < 2 ^ 30

instance (s : HoldState) (t : Nat) : Decidable (s.Soon t) :=
  inferInstanceAs (Decidable (s.nowMs ≤ t ∧ t - s.nowMs < 2 ^ 30))

end HoldState

/-- Calls at times that do not go back and lie less than 2^30 ms apart, with backoffs below
2^30 ms. The time of the first is free. -/
def holdLTS : LTS HoldState (Nat × Access) where
  init s := s.channel = {} ∧ s.causes = []
  step s call t := s.Soon call.1 ∧ call.2.Short ∧ t = s.next call

namespace HoldState

variable {s : HoldState} {t : Nat}

/-- The deadline is the latest cause while it counts; otherwise no cause holds. -/
structure Tracks (s : HoldState) : Prop where
  held : s.channel.holding = true →
    s.channel.holdUntilMs = clock s.holdEnd ∧ s.nowMs < s.holdEnd
  free : s.channel.holding = false → s.holdEnd ≤ s.nowMs
  near : s.holdEnd < s.nowMs + 2 ^ 30

theorem Tracks.ahead (h : s.Tracks) (ht : s.Soon t) : s.holdEnd < t + 2 ^ 30 := by
  have hnear := h.near
  have hle := ht.1
  omega

/-- A cause that begins now. The deadline that is kept is the later one, by a half-range test of
two moments that both lie around now. -/
theorem Tracks.extend (h : s.Tracks) (ht : s.Soon t) (hold : Nat) (hpos : 0 < hold)
    (hlt : hold < 2 ^ 30) :
    Tracks ⟨s.channel.extend (clock (t + hold)) (clock t), t, (t + hold) :: s.causes⟩ := by
  have hahead := h.ahead ht
  obtain ⟨hle, hsoon⟩ := ht
  have hend : HoldState.holdEnd ⟨s.channel.extend (clock (t + hold)) (clock t), t,
      (t + hold) :: s.causes⟩ = max (t + hold) s.holdEnd := rfl
  have hdeadline : (s.channel.extend (clock (t + hold)) (clock t)).holdUntilMs =
      clock (max (t + hold) s.holdEnd) := by
    unfold ChannelAccess.extend
    dsimp only
    cases hholding : s.channel.holding with
    | false =>
      have hfree := h.free hholding
      rw [if_pos (by simp), Nat.max_eq_left (by omega)]
    | true =>
      obtain ⟨hclock, hnow⟩ := h.held hholding
      have hlater := clock_half (t := t + hold) (u := s.holdEnd) (by omega) (by omega)
      rw [hclock]
      by_cases hmax : s.holdEnd ≤ t + hold
      · rw [if_pos (by simp [hlater.mpr hmax]), Nat.max_eq_left hmax]
      · rw [if_neg (by simp [mt hlater.mp hmax]), Nat.max_eq_right (by omega)]
  have hcounts : (s.channel.extend (clock (t + hold)) (clock t)).holding = true := by
    have hhalf := clock_half (t := max (t + hold) s.holdEnd) (u := t) (by omega) (by omega)
    have hne : clock (max (t + hold) s.holdEnd) ≠ clock t :=
      clock_ne (by omega) (by simp only [CLOCK_PERIOD]; omega)
    change (decide ((s.channel.extend (clock (t + hold)) (clock t)).holdUntilMs - clock t <
      0x80000000) && (s.channel.extend (clock (t + hold)) (clock t)).holdUntilMs != clock t) = true
    rw [hdeadline, Bool.and_eq_true, decide_eq_true_iff, bne_iff_ne]
    exact ⟨hhalf.mpr (by omega), hne⟩
  refine ⟨fun _ => ⟨hdeadline, ?_⟩, fun hfree => ?_, ?_⟩
  · rw [hend]
    change t < _
    omega
  · rw [hcounts] at hfree
    cases hfree
  · rw [hend]
    change _ < t + 2 ^ 30
    omega

/-- A hold that lasts is one that the flag knows of. -/
theorem Tracks.holding (h : s.Tracks) (ht : s.Soon t) (hlasts : ¬ s.holdEnd ≤ t) :
    s.channel.holding = true := by
  by_contra hfree
  have hpast := h.free (by simpa using hfree)
  exact hlasts (Nat.le_trans hpast ht.1)

/-- What is answered, and the flag that is left. -/
theorem Tracks.asked (h : s.Tracks) (ht : s.Soon t) :
    s.channel.mayTransmit (clock t) =
      (decide (s.holdEnd ≤ t), { s.channel with holding := !decide (s.holdEnd ≤ t) }) := by
  have hahead := h.ahead ht
  obtain ⟨hle, hsoon⟩ := ht
  unfold ChannelAccess.mayTransmit
  cases hholding : s.channel.holding with
  | false =>
    have hfree := h.free hholding
    have hpast : s.holdEnd ≤ t := by omega
    simp [hpast, ← hholding]
  | true =>
    obtain ⟨hclock, hnow⟩ := h.held hholding
    have hhalf := clock_half (t := t) (u := s.holdEnd) (by omega) (by omega)
    by_cases hpast : s.holdEnd ≤ t
    · simp [hclock, hhalf.mpr hpast, hpast]
    · have hkept : s.channel = ⟨clock s.holdEnd, true⟩ := by rw [← hclock, ← hholding]
      simp [hkept, mt hhalf.mp hpast, hpast]

/-- Asking forgets a hold that is over, and nothing else. -/
theorem Tracks.ask (h : s.Tracks) (ht : s.Soon t) :
    Tracks ⟨(s.channel.mayTransmit (clock t)).2, t, s.causes⟩ := by
  have hahead := h.ahead ht
  rw [h.asked ht]
  refine ⟨fun hheld => ?_, fun hfree => ?_, hahead⟩
  · have hlasts : ¬ s.holdEnd ≤ t := by simpa using hheld
    exact ⟨(h.held (h.holding ht hlasts)).1, Nat.lt_of_not_le hlasts⟩
  · change s.holdEnd ≤ t
    simpa using hfree

/-- What is left of a hold. -/
theorem Tracks.remaining (h : s.Tracks) (ht : s.Soon t) :
    (s.channel.remainingMs (clock t)).1.toNat = s.holdEnd - t := by
  have hahead := h.ahead ht
  unfold ChannelAccess.remainingMs
  rw [h.asked ht]
  dsimp only
  by_cases hpast : s.holdEnd ≤ t
  · rw [decide_eq_true hpast, if_pos rfl, Nat.sub_eq_zero_of_le hpast]
    rfl
  · have hholding := h.holding ht hpast
    rw [decide_eq_false hpast, if_neg Bool.false_ne_true, (h.held hholding).1,
      clock_sub (Nat.le_of_not_le hpast), Nat.mod_eq_of_lt (by simp only [CLOCK_PERIOD]; omega)]

end HoldState

theorem max_toNat (a b : UInt32) : max a b = UInt32.ofNat (max a.toNat b.toNat) := by
  change (if a ≤ b then b else a) = _
  by_cases h : a ≤ b
  · rw [if_pos h, Nat.max_eq_right (UInt32.le_iff_toNat_le.mp h), UInt32.ofNat_toNat]
  · have hle : b.toNat ≤ a.toNat := Nat.le_of_not_le (mt UInt32.le_iff_toNat_le.mpr h)
    rw [if_neg h, Nat.max_eq_left hle, UInt32.ofNat_toNat]

/-- Every call keeps the deadline at the latest cause. -/
theorem holdLTS_tracks : holdLTS.Inductive HoldState.Tracks where
  init s hs := by
    obtain ⟨hchannel, hcauses⟩ := hs
    have hend : s.holdEnd = 0 := by
      unfold HoldState.holdEnd
      rw [hcauses]
      rfl
    refine ⟨fun hheld => ?_, fun _ => ?_, ?_⟩
    · rw [hchannel] at hheld
      cases hheld
    · omega
    · omega
  step s call t h hs := by
    obtain ⟨at_, access⟩ := call
    obtain ⟨hsoon, hshort, rfl⟩ := hs
    cases access with
    | noteRx backoff =>
      have hlt : backoff.toNat < 2 ^ 30 := hshort
      have hext := h.extend hsoon (max backoff.toNat PEER_TURNAROUND_MS.toNat)
        (by change 0 < max _ 250; omega) (by change max _ 250 < _; omega)
      rw [← clock_add, ← max_toNat] at hext
      exact hext
    | noteTxDone =>
      have hext := h.extend hsoon TX_GAP_MS.toNat (by decide) (by decide)
      rw [← clock_add, UInt32.ofNat_toNat] at hext
      exact hext
    | mayTransmit => exact h.ask hsoon
    | remainingMs => exact h.ask hsoon

/-- Whatever was called, and however often the clock wrapped, the channel is free from the latest
end of a hold on, and before it the time that is left is told. -/
theorem holds_are_latest_cause {s : HoldState} (hs : holdLTS.Reachable s) {t : Nat}
    (ht : s.Soon t) :
    ((s.channel.mayTransmit (clock t)).1 = true ↔ s.causes = [] ∨ s.holdEnd ≤ t) ∧
      (s.channel.remainingMs (clock t)).1.toNat = s.holdEnd - t := by
  have htracks := holdLTS_tracks.reachable hs
  refine ⟨?_, htracks.remaining ht⟩
  rw [htracks.asked ht, decide_eq_true_iff]
  constructor
  · exact .inr
  · rintro (hnone | hpast)
    · unfold HoldState.holdEnd
      rw [hnone]
      exact Nat.zero_le t
    · exact hpast

/-- A reception just before the clock wraps, a transmission that ends before that hold does, and
a reception after it whose hold nobody asked about. -/
def aroundTheWrap : List (Nat × Access) :=
  [(4294967200, .noteRx 1000), (4294967300, .noteTxDone), (4294968300, .noteRx 20)]

def beforeTheWrap : HoldState := ⟨{}, 4294967200, []⟩

def afterTheWrap : HoldState := aroundTheWrap.foldl HoldState.next beforeTheWrap

/-- The hold of the last reception is the one that counts, for 150 ms more at the first question;
then nothing is left. -/
theorem holds_are_latest_cause_afterTheWrap :
    (afterTheWrap.channel.remainingMs (clock 4294968400)).1.toNat = 150 ∧
      (afterTheWrap.channel.mayTransmit (clock 4294968550)).1 = true := by
  have hstep (s : HoldState) (call : Nat × Access) (h : s.Soon call.1 ∧ call.2.Short) :
      holdLTS.step s call (s.next call) := ⟨h.1, h.2, rfl⟩
  have hreach : holdLTS.Reachable afterTheWrap :=
    ⟨beforeTheWrap, aroundTheWrap, ⟨rfl, rfl⟩, LTS.run_foldl hstep (by decide)⟩
  constructor
  · exact (holds_are_latest_cause hreach (by decide)).2
  · exact (holds_are_latest_cause hreach (by decide)).1.mpr (.inr (by decide))

end Meshrustic.Relay
