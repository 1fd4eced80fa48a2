import Mathlib.Algebra.BigOperators.Group.Finset.Piecewise
import Mathlib.Algebra.Order.BigOperators.Group.Finset
import Meshrustic.Core.Ring
import Meshrustic.Core.Slots

/-!
# Rings of buckets

A sum over the last `count` periods in `count` buckets: when a period begins its bucket is
cleared, which takes what was logged `count` periods ago out of the sum, and what is logged
goes into the bucket of the period that runs, which holds at most `limit`.

`Bucketed` says what each bucket has; the log is the ring's whole history.

Results:
* `Bucketed.tick`, `Bucketed.add`: the next period, and an entry of this one.
* `Bucketed.sum`, `Bucketed.sum_of_lt`: a ring whose buckets were not cut adds up to what
  was logged in its periods.
-/
namespace Meshrustic

/-- The period `p` is among the last `count`. -/
def lateIn (count now p : Nat) : Bool := now < p + count

/-- Of the periods that have one bucket, one is late. -/
theorem one_late {count now p q : Nat} (hp : p ≤ now) (hq : q ≤ now) (hplate : now < p + count)
    (hqlate : now < q + count) (hmod : p % count = q % count) : p = q := by
  have hzero : (p - q) % count = 0 ∧ (q - p) % count = 0 :=
    ⟨Nat.sub_mod_eq_zero_of_mod_eq hmod, Nat.sub_mod_eq_zero_of_mod_eq hmod.symm⟩
  rw [Nat.mod_eq_of_lt (by omega), Nat.mod_eq_of_lt (by omega)] at hzero
  omega

section

variable {α : Type}

/-- The amount that was logged in the late period of bucket `i`. -/
def bucketOf (period amount : α → Nat) (count now : Nat) (log : List α) (i : Nat) : Nat :=
  ((log.filter fun x => lateIn count now (period x) && period x % count == i).map amount).sum

/-- Each bucket has what was logged in the late period that it stands for. -/
structure Bucketed (limit : Nat) (period amount : α → Nat) {count : Nat} (buckets : Slots count Nat)
    (now : Nat) (log : List α) : Prop where
  past : ∀ x ∈ log, period x ≤ now
  buckets : ∀ i < count,
    buckets.cells[i]? = some (min (bucketOf period amount count now log i) limit)

/-- A sum over buckets is a sum over what they hold. -/
theorem sum_by_bucket (g : α → Nat) {h : α → Nat} {n : Nat} (xs : List α)
    (hn : ∀ x ∈ xs, h x < n) :
    ∑ i ∈ Finset.range n, ((xs.filter fun x => h x == i).map g).sum = (xs.map g).sum := by
  induction xs with
  | nil => simp
  | cons x xs ih =>
    have hx : h x < n := hn x List.mem_cons_self
    have hcons : ∀ i, (((x :: xs).filter fun x => h x == i).map g).sum =
        (if h x = i then g x else 0) + ((xs.filter fun x => h x == i).map g).sum := by
      intro i
      by_cases hi : h x = i
      · simp [hi]
      · simp [hi]
    rw [Finset.sum_congr rfl fun i _ => hcons i, Finset.sum_add_distrib, Finset.sum_ite_eq,
      if_pos (Finset.mem_range.mpr hx), ih fun y hy => hn y (List.mem_cons_of_mem _ hy),
      List.map_cons, List.sum_cons]

namespace Bucketed

variable {limit count now : Nat} {period amount : α → Nat} {buckets : Slots count Nat}
  {log : List α}

theorem new : Bucketed limit period amount (.all 0 : Slots count Nat) now [] where
  past x hx := absurd hx List.not_mem_nil
  buckets i hi := by simp [Slots.all, bucketOf, hi]

/-- A new period takes the bucket of the one that is no longer late. -/
theorem turn (h : Bucketed limit period amount buckets now log) (hcount : 0 < count) :
    Bucketed limit period amount (buckets.set ((now + 1) % count) 0) (now + 1) log where
  past x hx := Nat.le_succ_of_le (h.past x hx)
  buckets i hi := by
    simp only [Slots.set, List.getElem?_set, buckets.size]
    split
    · rename_i hbucket
      have hnone : log.filter (fun x => lateIn count (now + 1) (period x) &&
          period x % count == i) = [] := by
        refine List.filter_eq_nil_iff.mpr fun x hx => ?_
        have hle := h.past x hx
        simp only [lateIn, Bool.and_eq_true, decide_eq_true_eq, beq_iff_eq, not_and]
        intro hlate hmod
        have hsame := one_late (by omega) le_rfl hlate (by omega) (hmod.trans hbucket.symm)
        omega
      simp [bucketOf, hnone, Nat.mod_lt _ hcount]
    · rename_i hbucket
      rw [h.buckets i hi, bucketOf, bucketOf]
      refine congrArg (fun xs => some (min (xs.map amount).sum limit))
        (List.filter_congr fun x hx => ?_)
      have hle := h.past x hx
      rw [Bool.eq_iff_iff]
      simp only [lateIn, Bool.and_eq_true, decide_eq_true_eq, beq_iff_eq]
      refine and_congr_left fun hmod => ⟨fun hlate => ?_, fun hlate => by omega⟩
      -- the oldest late period has the bucket that the new one takes
      refine Nat.lt_of_le_of_ne (by omega) fun heq => hbucket ?_
      rw [heq, Nat.add_mod_right, hmod]

/-- Clearing on a change of the index is clearing on a change of the period. -/
theorem tick (h : Bucketed limit period amount buckets now log) (hcount : 1 < count) {now' : Nat}
    (hnext : now' = now ∨ now' = now + 1) :
    Bucketed limit period amount
      (if now % count = now' % count then buckets else buckets.set (now' % count) 0) now' log := by
  rcases hnext with rfl | rfl
  · rw [if_pos rfl]
    exact h
  · have hother : now % count ≠ (now + 1) % count :=
      add_mod_ne (i := 0) (j := 1) now (by omega) hcount (by omega)
    rw [if_neg hother]
    exact h.turn (by omega)

/-- An entry goes into the bucket of the period that runs. -/
theorem add (h : Bucketed limit period amount buckets now log) (hcount : 0 < count) {x : α}
    (hx : period x = now) :
    Bucketed limit period amount
      (buckets.set (now % count) (min (buckets.cells.getD (now % count) 0 + amount x) limit)) now
      (x :: log) where
  past := List.forall_mem_cons.mpr ⟨hx.le, h.past⟩
  buckets i hi := by
    have hindex : now % count < count := Nat.mod_lt _ hcount
    have hlate : lateIn count now now = true := by simp [lateIn, hcount]
    rw [Slots.set, List.getElem?_set, buckets.size, bucketOf, List.filter_cons, hx, hlate,
      Bool.true_and]
    by_cases hbucket : now % count = i
    · subst hbucket
      rw [if_pos rfl, if_pos hindex, beq_self_eq_true, if_pos rfl, List.getD_eq_getElem?_getD,
        h.buckets _ hindex, Option.getD_some, List.map_cons, List.sum_cons, bucketOf]
      congr 1
      omega
    · rw [if_neg hbucket, beq_false_of_ne hbucket, if_neg Bool.false_ne_true]
      exact h.buckets i hi

/-- The ring adds up to what is late, if no bucket was cut. -/
theorem sum (h : Bucketed limit period amount buckets now log) (hcount : 0 < count)
    (hfits : ∀ i < count, bucketOf period amount count now log i ≤ limit) :
    buckets.cells.sum =
      ((log.filter fun x => lateIn count now (period x)).map amount).sum := by
  let late := log.filter fun x => lateIn count now (period x)
  have hcells : buckets.cells = (List.range count).map fun i =>
      ((late.filter fun x => period x % count == i).map amount).sum := by
    refine List.ext_getElem? fun i => ?_
    rw [List.getElem?_map]
    by_cases hi : i < count
    · rw [List.getElem?_range hi, h.buckets i hi, Nat.min_eq_left (hfits i hi), Option.map_some]
      simp only [late, bucketOf, List.filter_filter, Bool.and_comm]
    · rw [List.getElem?_eq_none (by rw [buckets.size]; omega),
        List.getElem?_eq_none (by rw [List.length_range]; omega), Option.map_none]
  have hsum := sum_by_bucket amount late fun x _ => Nat.mod_lt (period x) hcount
  rw [hcells, ← hsum]
  rfl

/-- A ring that holds less than the limit has no bucket that was cut. -/
theorem sum_of_lt (h : Bucketed limit period amount buckets now log) (hcount : 0 < count)
    (hlt : buckets.cells.sum < limit) :
    buckets.cells.sum =
      ((log.filter fun x => lateIn count now (period x)).map amount).sum := by
  refine h.sum hcount fun i hi => ?_
  have hmem : min (bucketOf period amount count now log i) limit ∈ buckets.cells :=
    List.mem_of_getElem? (h.buckets i hi)
  have hle := List.le_sum_of_mem hmem
  omega

/-- A bucket holds entries of one period. -/
theorem bucketOf_le (h : Bucketed limit period amount buckets now log) {most : Nat}
    (hmost : ∀ p, ((log.filter fun x => period x == p).map amount).sum ≤ most) (i : Nat) :
    bucketOf period amount count now log i ≤ most := by
  unfold bucketOf
  cases hheld : log.filter fun x => lateIn count now (period x) && period x % count == i with
  | nil => exact Nat.zero_le _
  | cons x xs =>
    obtain ⟨hx, hin⟩ := List.mem_filter.mp (hheld ▸ List.mem_cons_self : x ∈ log.filter _)
    have hone : log.filter (fun y => lateIn count now (period y) && period y % count == i) =
        (log.filter fun y => period y == period x).filter fun y =>
          lateIn count now (period y) && period y % count == i := by
      rw [List.filter_filter]
      refine List.filter_congr fun y hy => ?_
      rw [Bool.eq_iff_iff]
      simp only [lateIn, Bool.and_eq_true, decide_eq_true_eq, beq_iff_eq] at hin ⊢
      refine ⟨fun hyin => ⟨hyin, ?_⟩, fun hyin => hyin.1⟩
      exact one_late (h.past y hy) (h.past x hx) hyin.1 hin.1 (hyin.2.trans hin.2.symm)
    rw [← hheld, hone]
    exact Nat.le_trans
      ((List.filter_sublist.map amount).sum_le_sum fun _ _ => Nat.zero_le _) (hmost (period x))

end Bucketed

end

end Meshrustic
