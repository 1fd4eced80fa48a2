import Meshrustic.Core.Ring
import Meshrustic.Core.Slots

/-!
# Cells that are overwritten in turn

A cache that never looks back: each entry goes to the cell after the one before it, and after the
last cell the first one is next. What the cells hold is the end of the log of all entries,
`Trail.Holds`; a scan of the cells is a scan of that end (`Holds.mem_iff`).

A log to which nothing is added that the cells hold does not say a thing twice within their number
(`Spaced`, `Spaced.cons`).
-/
namespace Meshrustic

structure Trail (n : Nat) (α : Type) where
  cells : Slots n α
  /-- the next cell -/
  head : Nat
  head_lt : head < n
  deriving DecidableEq

namespace Trail

variable {n : Nat} {α : Type}

def new (blank : α) (hn : 0 < n) : Trail n α := ⟨.all blank, 0, hn⟩

def note (x : α) (t : Trail n α) : Trail n α :=
  ⟨t.cells.set t.head x, (t.head + 1) % n, Nat.mod_lt _ (Nat.zero_lt_of_lt t.head_lt)⟩

/-- The entry that `i` others came after. -/
def ago (t : Trail n α) (i : Nat) : Option α := t.cells.cells[(t.head + (n - 1 - i)) % n]?

/-- The cells are the first `n` entries of `log`, the latest first; where there are fewer, the
others are blank. -/
def Holds (blank : α) (log : List α) (t : Trail n α) : Prop :=
  ∀ i < n, t.ago i = some (log[i]?.getD blank)

variable {t : Trail n α} {blank x : α} {log : List α}

theorem new_holds (hn : 0 < n) : (new blank hn).Holds blank [] := by
  intro i _
  simp [ago, new, Slots.all, Nat.mod_lt _ hn]

theorem note_ago_zero (x : α) : (t.note x).ago 0 = some x := by
  have hlt := t.head_lt
  have hwrap : t.head + 1 + (n - 1) = t.head + n := by omega
  have hcell : ((t.head + 1) % n + (n - 1 - 0)) % n = t.head := by
    rw [Nat.sub_zero, Nat.mod_add_mod, hwrap, Nat.add_mod_right, Nat.mod_eq_of_lt hlt]
  change (t.cells.cells.set t.head x)[((t.head + 1) % n + (n - 1 - 0)) % n]? = some x
  rw [hcell, List.getElem?_set_self (by rw [t.cells.size]; exact hlt)]

theorem note_ago_succ (x : α) {i : Nat} (hi : i + 1 < n) : (t.note x).ago (i + 1) = t.ago i := by
  have hback : t.head + 1 + (n - 1 - (i + 1)) = t.head + (n - 1 - i) := by omega
  have hother : t.head ≠ (t.head + (n - 1 - i)) % n := by
    have hne := add_mod_ne t.head (Nat.zero_lt_of_lt hi) (by omega : n - 1 - i < n) (by omega)
    rwa [Nat.add_zero, Nat.mod_eq_of_lt t.head_lt] at hne
  change (t.cells.cells.set t.head x)[((t.head + 1) % n + (n - 1 - (i + 1))) % n]? = t.ago i
  rw [Nat.mod_add_mod, hback, List.getElem?_set_ne hother, ago]

theorem Holds.note (h : t.Holds blank log) (x : α) : (t.note x).Holds blank (x :: log) := by
  intro i hi
  cases i with
  | zero => exact note_ago_zero x
  | succ i => exact (note_ago_succ x hi).trans (h i (by omega))

/-- Every cell is some entry. -/
theorem exists_ago (t : Trail n α) {j : Nat} (hj : j < n) :
    ∃ i < n, t.ago i = t.cells.cells[j]? := by
  have hlt := t.head_lt
  by_cases hbefore : j < t.head
  · refine ⟨t.head - 1 - j, by omega, ?_⟩
    have hturn : t.head + (n - 1 - (t.head - 1 - j)) = j + n := by omega
    rw [ago, hturn, Nat.add_mod_right, Nat.mod_eq_of_lt hj]
  · refine ⟨n - 1 - (j - t.head), by omega, ?_⟩
    have hsame : t.head + (n - 1 - (n - 1 - (j - t.head))) = j := by omega
    rw [ago, hsame, Nat.mod_eq_of_lt hj]

theorem mem_iff_ago : x ∈ t.cells ↔ ∃ i < n, t.ago i = some x := by
  constructor
  · intro hx
    obtain ⟨j, hj, rfl⟩ := List.getElem_of_mem hx
    obtain ⟨i, hi, hago⟩ := t.exists_ago (t.cells.size ▸ hj)
    exact ⟨i, hi, hago.trans (List.getElem?_eq_getElem hj)⟩
  · rintro ⟨i, _, hago⟩
    exact List.mem_of_getElem? hago

theorem Holds.mem_iff (h : t.Holds blank log) :
    x ∈ t.cells ↔ x ∈ log.take n ∨ x = blank ∧ log.length < n := by
  rw [mem_iff_ago]
  constructor
  · rintro ⟨i, hi, hago⟩
    rw [h i hi, Option.some_inj] at hago
    by_cases hlen : i < log.length
    · rw [List.getElem?_eq_getElem hlen, Option.getD_some] at hago
      exact .inl (List.mem_take_iff_getElem.mpr ⟨i, by omega, hago⟩)
    · rw [List.getElem?_eq_none (by omega), Option.getD_none] at hago
      exact .inr ⟨hago.symm, by omega⟩
  · rintro (hx | ⟨rfl, hlen⟩)
    · obtain ⟨i, hi, hget⟩ := List.mem_take_iff_getElem.mp hx
      refine ⟨i, by omega, ?_⟩
      rw [h i (by omega), List.getElem?_eq_getElem (by omega), Option.getD_some, hget]
    · refine ⟨log.length, hlen, ?_⟩
      rw [h _ hlen, List.getElem?_eq_none (le_refl _), Option.getD_none]

end Trail

/-! ## Logs without a repetition nearby -/

/-- Of any `n + 1` entries in a row, no two are the same. -/
def Spaced {α : Type} (n : Nat) (log : List α) : Prop := ∀ i, ((log.drop i).take (n + 1)).Nodup

theorem Spaced.nil {α : Type} (n : Nat) : Spaced n ([] : List α) := fun i => by simp

theorem Spaced.cons {α : Type} {n : Nat} {log : List α} {x : α} (h : Spaced n log)
    (hx : x ∉ log.take n) : Spaced n (x :: log) := by
  intro i
  cases i with
  | zero =>
    have hrest : (log.take n).Nodup := (h 0).sublist (List.take_sublist_take_left (Nat.le_succ n))
    rw [List.drop_zero, List.take_succ_cons]
    exact List.nodup_cons.mpr ⟨hx, hrest⟩
  | succ i => exact h i

end Meshrustic
