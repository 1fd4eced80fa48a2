import Mathlib.Tactic.Common

/-!
# Fixed windows

A counter that admits at most `limit` calls in a window, and begins a new window when one
is asked for at least a `period` after the last began. No span of a period holds more than
two limits of what was admitted, wherever the span begins.

* `Paced`: what holds of the times of the admitted calls.
* `Paced.enter`, `Paced.renew`: a call is admitted, a window begins.
* `Paced.span_le`: the bound.
-/
namespace Meshrustic

/-- The times of the calls that were admitted, in the window and before it. -/
structure Admitted where
  start : Nat
  current : List Nat
  before : List Nat

namespace Admitted

def all (g : Admitted) : List Nat := g.current ++ g.before

def enter (g : Admitted) (t : Nat) : Admitted := { g with current := t :: g.current }

/-- A window begins. -/
def renew (g : Admitted) (t : Nat) : Admitted := ⟨t, [], g.all⟩

end Admitted

/-- How many of the times lie in the span of a period from `t`. -/
def spanCount (period t : Nat) (times : List Nat) : Nat :=
  times.countP fun x => t ≤ x && x < t + period

structure Paced (period limit : Nat) (g : Admitted) : Prop where
  few : g.current.length ≤ limit
  current : ∀ x ∈ g.current, g.start ≤ x
  before : ∀ x ∈ g.before, x ≤ g.start
  /-- of the calls before the window, few are younger than a period when it begins -/
  recent : (g.before.countP fun x => g.start < x + period) ≤ limit
  spans : ∀ t, spanCount period t g.before ≤ 2 * limit

namespace Paced

variable {period limit : Nat} {g : Admitted} {t : Nat}

theorem new (period limit start : Nat) : Paced period limit ⟨start, [], []⟩ where
  few := Nat.zero_le _
  current _ hx := absurd hx List.not_mem_nil
  before _ hx := absurd hx List.not_mem_nil
  recent := Nat.zero_le _
  spans _ := Nat.zero_le _

theorem enter (h : Paced period limit g) (hroom : g.current.length < limit) (ht : g.start ≤ t) :
    Paced period limit (g.enter t) :=
  { h with
    few := hroom
    current := List.forall_mem_cons.mpr ⟨ht, h.current⟩ }

/-- A span that reaches into the window takes the recent calls and those of the window; another
lies before it. -/
theorem span_le (h : Paced period limit g) (t : Nat) : spanCount period t g.all ≤ 2 * limit := by
  unfold spanCount Admitted.all
  rw [List.countP_append]
  by_cases hreach : g.start < t + period
  · have hcurrent := List.countP_le_length (p := fun x => decide (t ≤ x) && decide (x < t + period))
      (l := g.current)
    have hbefore : g.before.countP (fun x => decide (t ≤ x) && decide (x < t + period)) ≤
        g.before.countP fun x => decide (g.start < x + period) := by
      refine List.countP_mono_left fun x _ hx => ?_
      rw [Bool.and_eq_true, decide_eq_true_iff, decide_eq_true_iff] at hx
      rw [decide_eq_true_iff]
      omega
    have hfew := h.few
    have hrecent := h.recent
    omega
  · have hnone : g.current.countP (fun x => decide (t ≤ x) && decide (x < t + period)) = 0 := by
      rw [List.countP_eq_zero]
      intro x hx
      have hstart := h.current x hx
      rw [Bool.and_eq_true, decide_eq_true_iff, decide_eq_true_iff]
      omega
    have hspan := h.spans t
    unfold spanCount at hspan
    omega

theorem renew (h : Paced period limit g) (ht : g.start + period ≤ t) (hpast : ∀ x ∈ g.current, x ≤ t) :
    Paced period limit (g.renew t) where
  few := Nat.zero_le _
  current _ hx := absurd hx List.not_mem_nil
  before x hx := by
    rcases List.mem_append.mp hx with hx | hx
    · exact hpast x hx
    · have := h.before x hx
      change x ≤ t
      omega
  recent := by
    have hold : g.before.countP (fun x => decide (t < x + period)) = 0 := by
      rw [List.countP_eq_zero]
      intro x hx
      have := h.before x hx
      rw [decide_eq_true_iff]
      omega
    change (g.current ++ g.before).countP (fun x => decide (t < x + period)) ≤ limit
    rw [List.countP_append, hold]
    exact Nat.le_trans List.countP_le_length h.few
  spans := h.span_le

end Paced

end Meshrustic
