import Mathlib.Data.Nat.ModEq
import Mathlib.Logic.Function.Basic
import Mathlib.Tactic.Common

/-!
# Ring buffers

A queue of at most `n` items in an array that is read and written modulo `n`.
`toList` is what it holds, from the front on; each operation has its lemma in
these terms, and users of a ring need no other.

Frames are dropped from the middle by compacting in place: a read index walks
over the items and a write index trails it (`removeWhere`, and `removeWhereMut` for a
predicate that has a memory).
-/
namespace Meshrustic

structure Ring (n : Nat) (α : Type) where
  /-- only indexed below `n` -/
  buf : Nat → α
  head : Nat
  tail : Nat
  len : Nat
  len_le : len ≤ n
  head_lt : 0 < n → head < n
  tail_eq : tail = (head + len) % n

/-- Different offsets below `n` are different places. -/
theorem add_mod_ne {n i j : Nat} (h : Nat) (hi : i < n) (hj : j < n) (hij : i ≠ j) :
    (h + i) % n ≠ (h + j) % n := by
  intro heq
  have hcancel : i ≡ j [MOD n] := Nat.ModEq.add_left_cancel' h heq
  rw [Nat.ModEq, Nat.mod_eq_of_lt hi, Nat.mod_eq_of_lt hj] at hcancel
  exact hij hcancel

namespace Ring

variable {n : Nat} {α : Type} (r : Ring n α)

def new (blank : α) : Ring n α := ⟨fun _ => blank, 0, 0, 0, Nat.zero_le n, id, by simp⟩

def cell (i : Nat) : α := r.buf ((r.head + i) % n)

/-- The items, from the front on. -/
def toList : List α := (List.range r.len).map r.cell

def isFull : Bool := r.len == n

def isEmpty : Bool := r.len == 0

def front : Option α := if r.len == 0 then none else some (r.buf r.head)

/-- `none` when the ring is full. -/
def push (x : α) : Option (Ring n α) :=
  if h : r.len = n then none
  else
    some
      { buf := Function.update r.buf r.tail x
        head := r.head
        tail := (r.tail + 1) % n
        len := r.len + 1
        len_le := by have := r.len_le; omega
        head_lt := r.head_lt
        tail_eq := by rw [r.tail_eq, Nat.mod_add_mod, Nat.add_assoc] }

def pushFront (x : α) : Option (Ring n α) :=
  if h : r.len = n then none
  else
    some
      { buf := Function.update r.buf ((r.head + n - 1) % n) x
        head := (r.head + n - 1) % n
        tail := r.tail
        len := r.len + 1
        len_le := by have := r.len_le; omega
        head_lt := fun hn => Nat.mod_lt _ hn
        tail_eq := by
          have hlen := r.len_le
          have hback : r.head + n - 1 + (r.len + 1) = r.head + r.len + n := by omega
          rw [r.tail_eq, Nat.mod_add_mod, hback, Nat.add_mod_right] }

def pop : Option (α × Ring n α) :=
  if h : r.len = 0 then none
  else
    some (r.buf r.head,
      { buf := r.buf
        head := (r.head + 1) % n
        tail := r.tail
        len := r.len - 1
        len_le := by have := r.len_le; omega
        head_lt := fun hn => Nat.mod_lt _ hn
        tail_eq := by
          have hnext : r.head + 1 + (r.len - 1) = r.head + r.len := by omega
          rw [r.tail_eq, Nat.mod_add_mod, hnext] })

/-! ## Compaction -/

/-- The array, and how many items were kept and dropped so far. -/
structure Compaction (α : Type) where
  buf : Nat → α
  write : Nat
  removed : Nat

/-- The array after an item is kept: it goes to the write index. -/
def moveDown (n head write read : Nat) (buf : Nat → α) : Nat → α :=
  if write != read then Function.update buf ((head + write) % n) (buf ((head + read) % n)) else buf

/-- Reads one item. -/
def compactStep (n head : Nat) (drop : α → Bool) (c : Compaction α) (read : Nat) : Compaction α :=
  if drop (c.buf ((head + read) % n)) then { c with removed := c.removed + 1 }
  else ⟨moveDown n head c.write read c.buf, c.write + 1, c.removed⟩

def compact (drop : α → Bool) (k : Nat) : Compaction α :=
  (List.range k).foldl (compactStep n r.head drop) ⟨r.buf, 0, 0⟩

/-- Reads one item and asks a predicate that has a memory. -/
def askStep {σ : Type} (n head : Nat) (drop : σ → α → Bool × σ) (c : Compaction α × σ) (read : Nat) :
    Compaction α × σ :=
  let answer := drop c.2 (c.1.buf ((head + read) % n))
  (compactStep n head (fun _ => answer.1) c.1 read, answer.2)

def ask {σ : Type} (drop : σ → α → Bool × σ) (m : σ) (k : Nat) : Compaction α × σ :=
  (List.range k).foldl (askStep n r.head drop) (⟨r.buf, 0, 0⟩, m)

/-- The first `k` reads have left `kept`. -/
structure Compacted (kept : List α) (k : Nat) (c : Compaction α) : Prop where
  kept : (List.range c.write).map (fun j => c.buf ((r.head + j) % n)) = kept
  count : c.write + c.removed = k
  ahead : ∀ j, k ≤ j → j < n → c.buf ((r.head + j) % n) = r.cell j

theorem moveDown_write (n head write read : Nat) (buf : Nat → α) :
    moveDown n head write read buf ((head + write) % n) = buf ((head + read) % n) := by
  unfold moveDown
  split
  · rw [Function.update_self]
  · rename_i h
    have heq : write = read := by simpa using h
    rw [heq]

theorem moveDown_other {n head write read j : Nat} (buf : Nat → α) (hw : write < n) (hj : j < n)
    (hne : j ≠ write) :
    moveDown n head write read buf ((head + j) % n) = buf ((head + j) % n) := by
  unfold moveDown
  split
  · rw [Function.update_of_ne (add_mod_ne head hj hw hne)]
  · rfl

variable {r}

/-- The write index never passes the read index, so what is still ahead is not overwritten. -/
theorem Compacted.step {kept : List α} {k : Nat} {c : Compaction α} (h : r.Compacted kept k c)
    (hk : k < n) (drop : α → Bool) :
    r.Compacted (kept ++ if drop (r.cell k) then [] else [r.cell k]) (k + 1)
      (compactStep n r.head drop c k) := by
  have hread := h.ahead k (Nat.le_refl k) hk
  have hcount := h.count
  unfold compactStep
  rw [hread]
  split
  · refine ⟨?_, by dsimp only; omega, fun j hj hjn => h.ahead j (by omega) hjn⟩
    rw [List.append_nil]
    exact h.kept
  · refine ⟨?_, by dsimp only; omega, fun j hj hjn => ?_⟩
    · rw [← h.kept, List.range_succ, List.map_append]
      congr 1
      · refine List.map_congr_left fun j hj => moveDown_other _ (by omega) ?_ ?_
        · have := List.mem_range.mp hj
          omega
        · have := List.mem_range.mp hj
          omega
      · simp [moveDown_write, hread]
    · rw [← h.ahead j (by omega) hjn]
      exact moveDown_other _ (by omega) hjn (by omega)

theorem map_cell_succ (k : Nat) :
    (List.range (k + 1)).map r.cell = (List.range k).map r.cell ++ [r.cell k] := by
  rw [List.range_succ, List.map_append]
  rfl

theorem compact_spec (drop : α → Bool) {k : Nat} (hk : k ≤ n) :
    r.Compacted (((List.range k).map r.cell).filter fun x => !drop x) k (r.compact drop k) := by
  induction k with
  | zero => exact ⟨rfl, rfl, fun j _ _ => rfl⟩
  | succ k ih =>
    have hstep : r.compact drop (k + 1) = compactStep n r.head drop (r.compact drop k) k := by
      simp [compact, List.range_succ]
    rw [hstep, map_cell_succ, List.filter_append]
    have hnext := (ih (by omega)).step hk drop
    cases hdrop : drop (r.cell k) <;> simpa [hdrop] using hnext

/-- What a predicate with a memory leaves of a list when it is asked once for each
item, in their order, and its memory then. -/
def sieve {σ : Type} (drop : σ → α → Bool × σ) (m : σ) : List α → List α × σ
  | [] => ([], m)
  | x :: xs =>
    let answer := drop m x
    let rest := sieve drop answer.2 xs
    (if answer.1 then rest.1 else x :: rest.1, rest.2)

theorem sieve_snoc {σ : Type} (drop : σ → α → Bool × σ) (m : σ) (xs : List α) (x : α) :
    sieve drop m (xs ++ [x]) =
      ((sieve drop m xs).1 ++ (if (drop (sieve drop m xs).2 x).1 then [] else [x]),
        (drop (sieve drop m xs).2 x).2) := by
  induction xs generalizing m with
  | nil => rfl
  | cons y ys ih =>
    rw [List.cons_append, sieve, ih, sieve]
    cases (drop m y).1 with
    | true => simp only [if_true]
    | false => simp only [Bool.false_eq_true, if_false, List.cons_append]

theorem ask_spec {σ : Type} (drop : σ → α → Bool × σ) (m : σ) {k : Nat} (hk : k ≤ n) :
    r.Compacted (sieve drop m ((List.range k).map r.cell)).1 k (r.ask drop m k).1 ∧
      (r.ask drop m k).2 = (sieve drop m ((List.range k).map r.cell)).2 := by
  induction k with
  | zero => exact ⟨⟨rfl, rfl, fun j _ _ => rfl⟩, rfl⟩
  | succ k ih =>
    obtain ⟨hc, hm⟩ := ih (by omega)
    have hstep : r.ask drop m (k + 1) = askStep n r.head drop (r.ask drop m k) k := by
      simp [ask, List.range_succ]
    have hread := hc.ahead k (Nat.le_refl k) hk
    rw [hstep, map_cell_succ, sieve_snoc, askStep, hread, hm]
    exact ⟨hc.step hk fun _ => (drop (sieve drop m ((List.range k).map r.cell)).2 (r.cell k)).1, rfl⟩

variable (r)

/-- Drops the items that `drop` selects, and counts them. -/
def removeWhere (drop : α → Bool) : Ring n α × Nat :=
  let c := r.compact drop r.len
  if h : 0 < c.removed then
    ({ buf := c.buf
       head := r.head
       tail := (r.head + c.write) % n
       len := c.write
       len_le := by
        have hcount : c.write + c.removed = r.len := (compact_spec (r := r) drop r.len_le).count
        have := r.len_le
        omega
       head_lt := r.head_lt
       tail_eq := rfl }, c.removed)
  else ({ r with buf := c.buf }, c.removed)

/-- Drops the items that `drop`, asked in their order, selects, and counts them. -/
def removeWhereMut {σ : Type} (drop : σ → α → Bool × σ) (m : σ) : (Ring n α × Nat) × σ :=
  let c := r.ask drop m r.len
  if h : 0 < c.1.removed then
    (({ buf := c.1.buf
        head := r.head
        tail := (r.head + c.1.write) % n
        len := c.1.write
        len_le := by
          have hcount : c.1.write + c.1.removed = r.len := (ask_spec (r := r) drop m r.len_le).1.count
          have := r.len_le
          omega
        head_lt := r.head_lt
        tail_eq := rfl }, c.1.removed), c.2)
  else (({ r with buf := c.1.buf }, c.1.removed), c.2)

/-! ## What a ring holds -/

variable {r}

@[simp] theorem length_toList : r.toList.length = r.len := by simp [toList]

theorem toList_new (blank : α) : (new blank : Ring n α).toList = [] := rfl

theorem push_isSome {x : α} : (r.push x).isSome = !r.isFull := by
  unfold push isFull
  split <;> simp_all

theorem toList_push {x : α} {s : Ring n α} (h : r.push x = some s) : s.toList = r.toList ++ [x] := by
  unfold push at h
  split at h
  · cases h
  · rename_i hne
    have hlen := r.len_le
    cases h
    simp only [toList, List.range_succ, List.map_append, List.map_cons, List.map_nil, cell,
      r.tail_eq, Function.update_self]
    congr 1
    refine List.map_congr_left fun j hj => Function.update_of_ne ?_ _ _
    have := List.mem_range.mp hj
    exact add_mod_ne _ (by omega) (by omega) (by omega)

theorem cell_zero (hpos : 0 < r.len) : r.cell 0 = r.buf r.head := by
  have hlt := r.head_lt (by have := r.len_le; omega)
  rw [cell, Nat.add_zero, Nat.mod_eq_of_lt hlt]

theorem toList_eq_cons (hpos : 0 < r.len) :
    r.toList = r.buf r.head :: (List.range (r.len - 1)).map fun i => r.cell (i + 1) := by
  obtain ⟨k, hk⟩ : ∃ k, r.len = k + 1 := ⟨r.len - 1, by omega⟩
  rw [toList, hk, List.range_succ_eq_map, List.map_cons, cell_zero hpos, List.map_map]
  rfl

theorem front_eq_head? : r.front = r.toList.head? := by
  unfold front
  split
  · rename_i h
    have : r.len = 0 := by simpa using h
    simp [toList, this]
  · rename_i h
    have hpos : r.len ≠ 0 := by simpa using h
    rw [toList_eq_cons (Nat.pos_of_ne_zero hpos)]
    rfl

theorem toList_pop {x : α} {s : Ring n α} (h : r.pop = some (x, s)) : r.toList = x :: s.toList := by
  unfold pop at h
  split at h
  · cases h
  · rename_i hne
    cases h
    rw [toList_eq_cons (by omega)]
    congr 1
    refine List.map_congr_left fun j _ => ?_
    change r.buf _ = r.buf _
    rw [Nat.mod_add_mod, Nat.add_assoc, Nat.add_comm 1 j]

theorem pop_eq_none : r.pop = none ↔ r.toList = [] := by
  unfold pop toList
  split <;> simp_all

theorem pushFront_isSome {x : α} : (r.pushFront x).isSome = !r.isFull := by
  unfold pushFront isFull
  split <;> simp_all

theorem toList_pushFront {x : α} {s : Ring n α} (h : r.pushFront x = some s) :
    s.toList = x :: r.toList := by
  unfold pushFront at h
  split at h
  · cases h
  · rename_i hne
    have hlen := r.len_le
    cases h
    rw [toList_eq_cons (Nat.succ_pos _)]
    dsimp only
    rw [Function.update_self, toList]
    congr 1
    refine List.map_congr_left fun j hj => ?_
    have hj := List.mem_range.mp hj
    have hback : r.head + n - 1 + (j + 1) = r.head + j + n := by omega
    have hplace : (r.head + n - 1 + (j + 1)) % n = (r.head + j) % n := by
      rw [hback, Nat.add_mod_right]
    have hne' : (r.head + j) % n ≠ (r.head + n - 1) % n := by
      rw [← hplace]
      exact add_mod_ne (j := 0) _ (by omega) (by omega) (by omega)
    change Function.update r.buf _ x (((r.head + n - 1) % n + (j + 1)) % n) = r.buf _
    rw [Nat.mod_add_mod, hplace, Function.update_of_ne hne']

/-- Nothing dropped means nothing moved. -/
theorem Compacted.unmoved {kept : List α} {k : Nat} {c : Compaction α} (h : r.Compacted kept k c)
    (hnone : ¬ 0 < c.removed) : (List.range k).map (fun j => c.buf ((r.head + j) % n)) = kept := by
  have hcount := h.count
  have hall : c.write = k := by omega
  have hkept := h.kept
  rwa [hall] at hkept

/-- The others stay, in their order. -/
theorem toList_removeWhere (drop : α → Bool) :
    (r.removeWhere drop).1.toList = r.toList.filter fun x => !drop x := by
  have hspec := compact_spec (r := r) drop r.len_le
  unfold removeWhere
  dsimp only
  split
  · exact hspec.kept
  · rename_i hnone
    exact hspec.unmoved hnone

theorem removeWhereMut_spec {σ : Type} (drop : σ → α → Bool × σ) (m : σ) :
    (r.removeWhereMut drop m).1.1.toList = (sieve drop m r.toList).1 ∧
      (r.removeWhereMut drop m).1.2 + (sieve drop m r.toList).1.length = r.toList.length ∧
      (r.removeWhereMut drop m).2 = (sieve drop m r.toList).2 := by
  obtain ⟨hspec, hm⟩ := ask_spec (r := r) drop m r.len_le
  have hcount := hspec.count
  have hlen : (r.ask drop m r.len).1.write = (sieve drop m r.toList).1.length := by
    rw [toList, ← hspec.kept, List.length_map, List.length_range]
  unfold removeWhereMut
  dsimp only
  split
  · exact ⟨hspec.kept, by simp; omega, hm⟩
  · rename_i hnone
    exact ⟨hspec.unmoved hnone, by simp; omega, hm⟩

end Ring

end Meshrustic
