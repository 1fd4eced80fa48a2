import Mathlib.Data.List.Nodup
import Mathlib.Data.List.Perm.Basic
import Mathlib.Tactic.Common

/-!
# Fixed-capacity tables

The firmware keeps its tables as an array with a count of the rows in use.
`Table cap α` is the used part; the capacity is a field, so a table that
overflows cannot be built. Rows are appended while there is room, replaced
in place, and removed by moving the last row into the gap.
-/
namespace Meshrustic

structure Table (cap : Nat) (α : Type) where
  rows : List α
  le : rows.length ≤ cap
  deriving DecidableEq

namespace Table

variable {cap : Nat} {α : Type}

def empty : Table cap α := ⟨[], Nat.zero_le _⟩

/-- Appends a row, if there is room. -/
def push (t : Table cap α) (a : α) : Option (Table cap α) :=
  if h : t.rows.length < cap then
    some ⟨t.rows ++ [a], by rw [List.length_append, List.length_singleton]; exact h⟩
  else none

def set (t : Table cap α) (i : Nat) (a : α) : Table cap α :=
  ⟨t.rows.set i a, by rw [List.length_set]; exact t.le⟩

/-- Changes every row in place. -/
def map (t : Table cap α) (f : α → α) : Table cap α :=
  ⟨t.rows.map f, by rw [List.length_map]; exact t.le⟩

/-- Removes row `i`; the last row takes its place. -/
def swapRemove (t : Table cap α) (i : Nat) : Table cap α :=
  match t.rows.getLast? with
  | none => t
  | some last => ⟨(t.rows.set i last).dropLast, by
      rw [List.length_dropLast, List.length_set]
      exact Nat.le_trans (Nat.sub_le _ _) t.le⟩

/-- Removes the rows from `i` on that pass `p`, each by `swapRemove`, so the row
moved into a gap is looked at next; `fuel` is the number of rows from `i` on. -/
def swapOut (p : α → Bool) : Nat → Nat → Table cap α → Table cap α
  | 0, _, t => t
  | fuel + 1, i, t =>
    match t.rows[i]? with
    | none => t
    | some r => if p r then swapOut p fuel i (t.swapRemove i) else swapOut p fuel (i + 1) t

/-- Visits the rows from `i` on: each is changed by `f` in place and, where it then
passes `p`, removed by `swapRemove`, so the row moved into the gap is visited next;
`fuel` is the number of rows from `i` on. -/
def sweep (f : α → α) (p : α → Bool) : Nat → Nat → Table cap α → Table cap α
  | 0, _, t => t
  | fuel + 1, i, t =>
    match t.rows[i]? with
    | none => t
    | some r =>
      if p (f r) then sweep f p fuel i ((t.set i (f r)).swapRemove i)
      else sweep f p fuel (i + 1) (t.set i (f r))

/-- `iter().enumerate().filter(p).max_by_key(key)`: of the rows that pass `p`, the
last one whose key is greatest. -/
def lastMaxIdx (p : α → Bool) (key : α → UInt32) (t : Table cap α) : Option Nat :=
  (t.rows.zipIdx.foldl
    (fun (best : Option (Nat × UInt32)) (row : α × Nat) =>
      if !p row.1 then best
      else if best.all fun b => b.2 ≤ key row.1 then some (row.2, key row.1) else best)
    none).map (·.1)

theorem push_rows {t t' : Table cap α} {a : α} (h : t.push a = some t') :
    t'.rows = t.rows ++ [a] := by
  unfold push at h
  split at h
  · cases h; rfl
  · cases h

/-- A table that takes no row is full. -/
theorem push_none {t : Table cap α} {a : α} (h : t.push a = none) : t.rows.length = cap := by
  have := t.le
  unfold push at h
  split at h
  · cases h
  · omega

@[simp] theorem set_rows (t : Table cap α) (i : Nat) (a : α) :
    (t.set i a).rows = t.rows.set i a := rfl

/-- Up to order, moving the last row into the gap is leaving row `i` out. -/
theorem swapRemove_perm (t : Table cap α) {i : Nat} (hi : i < t.rows.length) :
    (t.swapRemove i).rows.Perm (t.rows.eraseIdx i) := by
  unfold swapRemove
  rcases List.eq_nil_or_concat t.rows with hnil | ⟨init, last, hrows⟩
  · rw [hnil] at hi
    exact absurd hi (Nat.not_lt_zero _)
  · rw [List.concat_eq_append] at hrows
    have hlast : t.rows.getLast? = some last := by simp [hrows]
    split
    · rename_i hnone
      rw [hnone] at hlast
      cases hlast
    · rename_i last' hsome
      rw [hsome, Option.some.injEq] at hlast
      subst hlast
      simp only [hrows]
      rw [hrows, List.length_append, List.length_singleton] at hi
      by_cases h : i < init.length
      · rw [List.set_append_left _ _ h, List.dropLast_concat,
          List.eraseIdx_append_of_lt_length h]
        exact (List.set_perm_cons_eraseIdx h last').trans (List.perm_append_singleton _ _).symm
      · have hlen : i = init.length := by omega
        subst hlen
        rw [List.set_append_right _ _ (Nat.le_refl _), Nat.sub_self, List.set_cons_zero,
          List.dropLast_concat, List.eraseIdx_append_of_length_le (Nat.le_refl _), Nat.sub_self]
        simp

/-- The row that is removed and those that are left are the rows there were. -/
theorem swapRemove_cons_perm (t : Table cap α) {i : Nat} {x : α} (hx : t.rows[i]? = some x) :
    (x :: (t.swapRemove i).rows).Perm t.rows := by
  obtain ⟨hi, hget⟩ := List.getElem?_eq_some_iff.mp hx
  exact ((t.swapRemove_perm hi).cons x).trans (hget ▸ List.getElem_cons_eraseIdx_perm hi)

/-- The rows in front of the gap stay where they are. -/
theorem swapRemove_getElem? (t : Table cap α) {i j : Nat} (hi : i < t.rows.length) (hj : j < i) :
    (t.swapRemove i).rows[j]? = t.rows[j]? := by
  unfold swapRemove
  split
  · rfl
  · rename_i last hlast
    change ((t.rows.set i last).dropLast)[j]? = _
    rw [List.getElem?_dropLast, List.length_set, if_pos (by omega), List.getElem?_set_ne (by omega)]

/-- A walk has gone by the first `i` rows: none of them passes `p`. -/
def Passed (p : α → Bool) (i : Nat) (t : Table cap α) : Prop :=
  ∀ j < i, ∀ r, t.rows[j]? = some r → p r = false

section

variable {p : α → Bool} {t : Table cap α} {i : Nat}

theorem Passed.start : t.Passed p 0 := fun j hj => absurd hj (Nat.not_lt_zero j)

theorem Passed.next (h : t.Passed p i) {x : α} (hrow : t.rows[i]? = some x) (hx : p x = false) :
    t.Passed p (i + 1) := by
  intro j hj r hr
  rcases Nat.lt_succ_iff_lt_or_eq.mp hj with hj | rfl
  · exact h j hj r hr
  · rw [hrow] at hr
    cases hr
    exact hx

theorem Passed.swapRemove (h : t.Passed p i) (hi : i < t.rows.length) :
    (t.swapRemove i).Passed p i := by
  intro j hj r hr
  rw [t.swapRemove_getElem? hi hj] at hr
  exact h j hj r hr

/-- A walk past the last row has gone by every row. -/
theorem Passed.mem (h : t.Passed p i) (hle : t.rows.length ≤ i) : ∀ r ∈ t.rows, p r = false := by
  intro r hr
  obtain ⟨j, hj, rfl⟩ := List.mem_iff_getElem.mp hr
  exact h j (by omega) _ (List.getElem?_eq_getElem hj)

theorem Passed.filter (h : t.Passed p i) (hle : t.rows.length ≤ i) :
    t.rows.Perm (t.rows.filter fun r => !p r) := by
  have hall : t.rows.filter (fun r => !p r) = t.rows :=
    List.filter_eq_self.mpr fun r hr => by rw [h.mem hle r hr]; rfl
  rw [hall]

/-- Up to order, `swapOut` leaves out the rows that pass, once it has gone by the
first `i` rows. -/
theorem swapOut_perm {fuel : Nat} (hfuel : t.rows.length ≤ fuel + i) (hpassed : t.Passed p i) :
    (swapOut p fuel i t).rows.Perm (t.rows.filter fun r => !p r) := by
  induction fuel generalizing i t with
  | zero =>
    rw [swapOut]
    exact hpassed.filter (by omega)
  | succ fuel ih =>
    rw [swapOut]
    cases hrow : t.rows[i]? with
    | none => exact hpassed.filter (List.getElem?_eq_none_iff.mp hrow)
    | some x =>
      obtain ⟨hi, -⟩ := List.getElem?_eq_some_iff.mp hrow
      dsimp only
      split
      · rename_i hpx
        have hperm := t.swapRemove_cons_perm hrow
        have hlen := hperm.length_eq
        rw [List.length_cons] at hlen
        have hrest := hperm.filter fun r => !p r
        rw [List.filter_cons_of_neg (by simp [hpx])] at hrest
        exact (ih (by omega) (hpassed.swapRemove hi)).trans hrest
      · rename_i hpx
        exact ih (by omega) (hpassed.next hrow (by simpa using hpx))

end

/-- `swapOut` over a whole table. -/
theorem swapOut_all {p : α → Bool} {t : Table cap α} :
    (swapOut p t.rows.length 0 t).rows.Perm (t.rows.filter fun r => !p r) :=
  swapOut_perm (Nat.le_refl _) .start

theorem mem_swapOut {p : α → Bool} {t : Table cap α} (r : α) :
    r ∈ (swapOut p t.rows.length 0 t).rows ↔ r ∈ t.rows ∧ p r = false := by
  rw [swapOut_all.mem_iff, List.mem_filter, Bool.not_eq_true']

/-- The rows in front of the visit stay; of the others, changed, those that pass `p`
are left out. -/
theorem sweep_perm {f : α → α} {p : α → Bool} {fuel : Nat} {t : Table cap α}
    {front back : List α} (hrows : t.rows = front ++ back) (hfuel : back.length ≤ fuel) :
    (sweep f p fuel front.length t).rows.Perm (front ++ (back.map f).filter fun r => !p r) := by
  induction fuel generalizing t front back with
  | zero =>
    have hback : back = [] := List.length_eq_zero_iff.mp (by omega)
    rw [sweep, hrows, hback, List.map_nil, List.filter_nil]
  | succ fuel ih =>
    rw [sweep]
    cases back with
    | nil =>
      have hrow : t.rows[front.length]? = none := by rw [hrows]; simp
      rw [hrow, hrows, List.map_nil, List.filter_nil]
    | cons r back =>
      have hrow : t.rows[front.length]? = some r := by rw [hrows]; simp
      have hset : (t.set front.length (f r)).rows = front ++ f r :: back := by
        rw [set_rows, hrows, List.set_append_right _ _ (Nat.le_refl _), Nat.sub_self,
          List.set_cons_zero]
      rw [List.length_cons] at hfuel
      rw [hrow, List.map_cons]
      dsimp only
      by_cases hp : p (f r) = true
      · have hi : front.length < (t.set front.length (f r)).rows.length := by rw [hset]; simp
        -- the rows in front are still there, so the others are the old ones in some order
        have hperm := swapRemove_perm (t.set front.length (f r)) hi
        have herase : (t.set front.length (f r)).rows.eraseIdx front.length = front ++ back := by
          rw [hset, List.eraseIdx_append_of_length_le (Nat.le_refl _), Nat.sub_self,
            List.eraseIdx_cons_zero]
        rw [herase] at hperm
        have htake : ((t.set front.length (f r)).swapRemove front.length).rows.take front.length =
            front := by
          apply List.ext_getElem?
          intro j
          rw [List.getElem?_take]
          split
          · rename_i hj
            rw [swapRemove_getElem? _ hi hj, hset, List.getElem?_append_left hj]
          · rename_i hj
            rw [List.getElem?_eq_none_iff.mpr (by omega)]
        have hsplit := (List.take_append_drop front.length
          ((t.set front.length (f r)).swapRemove front.length).rows).symm
        rw [htake] at hsplit
        rw [hsplit, List.perm_append_left_iff] at hperm
        rw [if_pos hp, List.filter_cons_of_neg (by simp [hp])]
        refine (ih hsplit (by rw [hperm.length_eq]; omega)).trans ?_
        exact ((hperm.map f).filter _).append_left front
      · have hnext : (t.set front.length (f r)).rows = (front ++ [f r]) ++ back := by
          rw [hset, List.append_assoc, List.singleton_append]
        have hrest := ih hnext (by omega)
        rw [List.length_append, List.length_singleton, List.append_assoc,
          List.singleton_append] at hrest
        rw [if_neg hp, List.filter_cons_of_pos (by simp [hp])]
        exact hrest

theorem sweep_all {f : α → α} {p : α → Bool} {t : Table cap α} :
    (sweep f p t.rows.length 0 t).rows.Perm ((t.rows.map f).filter fun r => !p r) :=
  @sweep_perm _ _ f p _ t [] t.rows rfl (Nat.le_refl _)

end Table

/-! ## Rows replaced -/

/-- Rows other than the one replaced and the one written stay. -/
theorem mem_set_other {α : Type} {rows : List α} {i : Nat} {a x r : α} (hx : rows[i]? = some x)
    (ha : r ≠ a) (hr : r ≠ x) : r ∈ rows.set i a ↔ r ∈ rows := by
  refine ⟨fun h => (List.mem_or_eq_of_mem_set h).resolve_right ha, fun h => ?_⟩
  obtain ⟨j, hj⟩ := List.mem_iff_getElem?.mp h
  have hij : i ≠ j := by
    rintro rfl
    rw [hx] at hj
    exact hr (Option.some.inj hj).symm
  refine List.mem_iff_getElem?.mpr ⟨j, ?_⟩
  rw [List.getElem?_set_ne hij, hj]

/-- An entry that is there once is gone where another takes its place. -/
theorem not_mem_set {α : Type} {rows : List α} {i : Nat} {a x : α} (hnodup : rows.Nodup)
    (hx : rows[i]? = some x) (hne : x ≠ a) : x ∉ rows.set i a := by
  intro hmem
  obtain ⟨j, hj⟩ := List.mem_iff_getElem?.mp hmem
  by_cases hij : i = j
  · subst hij
    obtain ⟨hi, -⟩ := List.getElem?_eq_some_iff.mp hx
    rw [List.getElem?_set_self hi] at hj
    exact hne (Option.some.inj hj).symm
  · rw [List.getElem?_set_ne hij, ← hx] at hj
    obtain ⟨hi, -⟩ := List.getElem?_eq_some_iff.mp hx
    exact hij ((List.getElem?_inj hi hnodup).mp hj.symm)

/-! ## Scans

A scan goes through the rows and remembers the best one so far, if any. -/

section Scan

variable {α β : Type} {step : Option β → α → Option β} {rows : List α} {best : Option β}

/-- What a scan remembers passes `P`, if each row it takes does. -/
theorem scan_some {P : β → Prop}
    (hstep : ∀ best, ∀ row ∈ rows, ∀ b, step best row = some b → best = some b ∨ P b)
    (hbest : ∀ b, best = some b → P b) {b : β} (h : rows.foldl step best = some b) : P b := by
  induction rows generalizing best with
  | nil => exact hbest b h
  | cons row rows ih =>
    rw [List.foldl_cons] at h
    refine ih (fun best r hr => hstep best r (List.mem_cons_of_mem _ hr)) (fun b' hb' => ?_) h
    rcases hstep best row List.mem_cons_self b' hb' with hb | hb
    · exact hbest b' hb
    · exact hb

/-- A scan that remembers nothing has left every row out. -/
theorem scan_none {P : α → Prop}
    (hstep : ∀ best, ∀ row ∈ rows, step best row = none → best = none ∧ P row)
    (h : rows.foldl step best = none) : best = none ∧ ∀ row ∈ rows, P row := by
  induction rows generalizing best with
  | nil => exact ⟨h, fun row hrow => absurd hrow List.not_mem_nil⟩
  | cons row rows ih =>
    rw [List.foldl_cons] at h
    obtain ⟨hnone, hrows⟩ := ih (fun best r hr => hstep best r (List.mem_cons_of_mem _ hr)) h
    obtain ⟨hbest, hrow⟩ := hstep best row List.mem_cons_self hnone
    exact ⟨hbest, List.forall_mem_cons.mpr ⟨hrow, hrows⟩⟩

/-- A scan that leaves every row out remembers nothing. -/
theorem scan_skips (hstep : ∀ best, ∀ row ∈ rows, step best row = best) :
    rows.foldl step best = best := by
  induction rows generalizing best with
  | nil => rfl
  | cons row rows ih =>
    rw [List.foldl_cons, hstep best row List.mem_cons_self]
    exact ih fun best r hr => hstep best r (List.mem_cons_of_mem _ hr)

/-- The row that is chosen is one that passes. -/
theorem Table.lastMaxIdx_some {cap : Nat} {p : α → Bool} {key : α → UInt32} {t : Table cap α}
    {i : Nat} (h : t.lastMaxIdx p key = some i) : ∃ r, t.rows[i]? = some r ∧ p r = true := by
  unfold Table.lastMaxIdx at h
  rw [Option.map_eq_some_iff] at h
  obtain ⟨best, hbest, rfl⟩ := h
  refine scan_some (P := fun b => ∃ r, t.rows[b.1]? = some r ∧ p r = true) ?_
    (fun b hb => by cases hb) hbest
  intro acc row hrow b hb
  have hindex : t.rows[row.2]? = some row.1 := List.mem_zipIdx_iff_getElem?.mp hrow
  cases hp : p row.1 with
  | false =>
    rw [hp] at hb
    exact .inl hb
  | true =>
    rw [hp] at hb
    simp only [Bool.not_true, Bool.false_eq_true, if_false] at hb
    split at hb
    · rw [Option.some.injEq] at hb
      exact .inr ⟨row.1, by rw [← hb]; exact hindex, hp⟩
    · exact .inl hb

theorem Table.lastMaxIdx_lt {cap : Nat} {p : α → Bool} {key : α → UInt32} {t : Table cap α}
    {i : Nat} (h : t.lastMaxIdx p key = some i) : i < t.rows.length := by
  obtain ⟨r, hr, -⟩ := lastMaxIdx_some h
  exact (List.getElem?_eq_some_iff.mp hr).1

/-- Where none is chosen, none passes. -/
theorem Table.lastMaxIdx_none {cap : Nat} {p : α → Bool} {key : α → UInt32} {t : Table cap α}
    (h : t.lastMaxIdx p key = none) : ∀ r ∈ t.rows, p r = false := by
  unfold Table.lastMaxIdx at h
  rw [Option.map_eq_none_iff] at h
  have hscan := scan_none (P := fun row : α × Nat => p row.1 = false) ?_ h
  · intro r hr
    obtain ⟨i, hi⟩ := List.mem_iff_getElem?.mp hr
    exact hscan.2 (r, i) (List.mem_zipIdx_iff_getElem?.mpr hi)
  · intro best row _ hnone
    cases hp : p row.1 with
    | false =>
      rw [hp] at hnone
      exact ⟨hnone, rfl⟩
    | true =>
      -- a row that passes is taken, or another one is kept
      rw [hp] at hnone
      cases best with
      | none => simp at hnone
      | some b =>
        simp only [Bool.not_true, Bool.false_eq_true, if_false] at hnone
        split at hnone <;> cases hnone

end Scan

/-! ## Keyed rows

Rows are found by a key; the first row with the key counts, and the keys of a
well-formed table are distinct. -/

section Keyed

variable {α κ : Type} [DecidableEq κ] (key : α → κ)

/-- The row with key `k`. -/
def lookup (rows : List α) (k : κ) : Option α := rows.find? fun r => key r == k

theorem lookup_key {rows : List α} {k : κ} {r : α} (h : lookup key rows k = some r) :
    key r = k := by
  have := List.find?_some h
  simpa using this

theorem lookup_eq_none {rows : List α} {k : κ} (h : lookup key rows k = none) :
    k ∉ rows.map key := by
  intro hmem
  obtain ⟨r, hr, rfl⟩ := List.mem_map.mp hmem
  have := List.find?_eq_none.mp h r hr
  simp at this

/-- With distinct keys every row is the one found by its key. -/
theorem lookup_of_mem {rows : List α} {r : α} (hnd : (rows.map key).Nodup) (h : r ∈ rows) :
    lookup key rows (key r) = some r := by
  induction rows with
  | nil => cases h
  | cons x xs ih =>
    rw [List.map_cons, List.nodup_cons] at hnd
    rw [lookup, List.find?_cons]
    rcases List.mem_cons.mp h with rfl | h
    · simp
    · have hx : key x ≠ key r := by
        intro hx
        exact hnd.1 (hx ▸ List.mem_map.mpr ⟨r, h, rfl⟩)
      rw [beq_false_of_ne hx]
      exact ih hnd.2 h

/-- With distinct keys, what is found is what is there. -/
theorem lookup_eq_some_iff {rows : List α} {k : κ} {r : α} (hnd : (rows.map key).Nodup) :
    lookup key rows k = some r ↔ r ∈ rows ∧ key r = k := by
  constructor
  · intro h
    exact ⟨List.mem_of_find?_eq_some h, lookup_key key h⟩
  · rintro ⟨hr, rfl⟩
    exact lookup_of_mem key hnd hr

/-- Where keys are distinct, the order of the rows does not matter. -/
theorem lookup_perm {rows rows' : List α} {k : κ} (hnd : (rows.map key).Nodup)
    (hp : rows.Perm rows') : lookup key rows k = lookup key rows' k := by
  have hnd' : (rows'.map key).Nodup := (hp.map key).nodup_iff.mp hnd
  refine Option.ext fun r => ?_
  rw [lookup_eq_some_iff key hnd, lookup_eq_some_iff key hnd', hp.mem_iff]

omit [DecidableEq κ] in
/-- What is made of some of the rows has their keys, in their order. -/
theorem filterMap_keys {β : Type} (key' : β → κ) (f : α → Option β) (rows : List α)
    (hf : ∀ a ∈ rows, ∀ b, f a = some b → key' b = key a) :
    ((rows.filterMap f).map key').Sublist (rows.map key) := by
  induction rows with
  | nil => exact List.Sublist.refl _
  | cons a rows ih =>
    have hrest := ih fun a ha => hf a (List.mem_cons_of_mem _ ha)
    cases hb : f a with
    | none =>
      rw [List.filterMap_cons_none hb]
      exact hrest.cons _
    | some b =>
      rw [List.filterMap_cons_some hb, List.map_cons, List.map_cons, hf a List.mem_cons_self b hb]
      exact hrest.cons_cons _

/-- The index of the row that `lookup` finds. -/
theorem findIdx_lookup {rows : List α} {k : κ} {i : Nat}
    (h : rows.findIdx? (fun r => key r == k) = some i) : rows[i]? = lookup key rows k := by
  induction rows generalizing i with
  | nil => cases h
  | cons x xs ih =>
    rw [List.findIdx?_cons] at h
    unfold lookup
    rw [List.find?_cons]
    cases hx : key x == k with
    | true =>
      simp only [hx, if_true, Option.some.injEq] at h
      subst h
      rfl
    | false =>
      simp only [hx, Bool.false_eq_true, if_false, Option.map_eq_some_iff] at h
      obtain ⟨j, hj, rfl⟩ := h
      exact ih hj

/-- A row that is found has an index. -/
theorem findIdx_of_lookup {rows : List α} {k : κ} {r : α} (h : lookup key rows k = some r) :
    ∃ i, rows.findIdx? (fun r => key r == k) = some i ∧ rows[i]? = some r := by
  cases hfind : rows.findIdx? (fun r => key r == k) with
  | none =>
    have hkey := List.findIdx?_eq_none_iff.mp hfind r (List.mem_of_find?_eq_some h)
    simp [lookup_key key h] at hkey
  | some i => exact ⟨i, rfl, (findIdx_lookup key hfind).trans h⟩

/-- Replacing the row that was found. -/
theorem lookup_set_found {rows : List α} {k : κ} {i : Nat} {a : α}
    (h : rows.findIdx? (fun r => key r == k) = some i) (ha : key a = k) :
    lookup key (rows.set i a) k = some a := by
  induction rows generalizing i with
  | nil => cases h
  | cons x xs ih =>
    rw [List.findIdx?_cons] at h
    cases hx : key x == k with
    | true =>
      simp only [hx, if_true, Option.some.injEq] at h
      subst h
      simp [lookup, ha]
    | false =>
      simp only [hx, Bool.false_eq_true, if_false, Option.map_eq_some_iff] at h
      obtain ⟨j, hj, rfl⟩ := h
      rw [List.set_cons_succ, lookup, List.find?_cons, hx]
      exact ih hj

/-- A new key in the place of some row. -/
theorem lookup_set_new {rows : List α} {k : κ} {i : Nat} {a : α} (h : lookup key rows k = none)
    (hi : i < rows.length) (ha : key a = k) : lookup key (rows.set i a) k = some a := by
  induction rows generalizing i with
  | nil => exact absurd hi (Nat.not_lt_zero _)
  | cons x xs ih =>
    rw [lookup, List.find?_cons] at h
    cases hx : key x == k with
    | true => simp [hx] at h
    | false =>
      simp only [hx] at h
      cases i with
      | zero => simp [lookup, ha]
      | succ j =>
        rw [List.set_cons_succ, lookup, List.find?_cons, hx]
        exact ih h (Nat.lt_of_succ_lt_succ hi)

/-- Another key in the place of some row: a row with key `k` stays, or was
the one replaced. -/
theorem lookup_set_other {rows : List α} {k : κ} {i : Nat} {a : α} (hnd : (rows.map key).Nodup)
    (ha : key a ≠ k) :
    lookup key (rows.set i a) k = lookup key rows k ∨ lookup key (rows.set i a) k = none := by
  induction rows generalizing i with
  | nil => exact .inl rfl
  | cons x xs ih =>
    rw [List.map_cons, List.nodup_cons] at hnd
    cases i with
    | zero =>
      rw [List.set_cons_zero, lookup, lookup, List.find?_cons, List.find?_cons,
        beq_false_of_ne ha]
      cases hx : key x == k with
      | false => exact .inl rfl
      | true =>
        right
        apply List.find?_eq_none.mpr
        intro r hr hk
        rw [beq_iff_eq] at hx hk
        exact hnd.1 (List.mem_map.mpr ⟨r, hr, hk.trans hx.symm⟩)
    | succ j =>
      rw [List.set_cons_succ, lookup, lookup, List.find?_cons, List.find?_cons]
      cases key x == k with
      | true => exact .inl rfl
      | false => exact ih hnd.2

/-- Replacing a row by one with the same key. -/
theorem lookup_set_same {rows : List α} {k : κ} {i : Nat} {a e : α} (he : rows[i]? = some e)
    (hkey : key a = key e) (ha : key a ≠ k) : lookup key (rows.set i a) k = lookup key rows k := by
  induction rows generalizing i with
  | nil => cases he
  | cons x xs ih =>
    cases i with
    | zero =>
      rw [List.getElem?_cons_zero, Option.some.injEq] at he
      subst he
      rw [List.set_cons_zero, lookup, lookup, List.find?_cons, List.find?_cons,
        beq_false_of_ne ha, beq_false_of_ne (hkey ▸ ha)]
    | succ j =>
      rw [List.set_cons_succ, lookup, lookup, List.find?_cons, List.find?_cons]
      cases key x == k with
      | true => rfl
      | false => exact ih he

omit [DecidableEq κ] in
theorem keys_set_same {rows : List α} {i : Nat} {a e : α} (he : rows[i]? = some e)
    (hkey : key a = key e) : (rows.set i a).map key = rows.map key := by
  obtain ⟨hi, rfl⟩ := List.getElem?_eq_some_iff.mp he
  rw [List.map_set, hkey]
  apply List.ext_getElem?
  intro j
  rw [List.getElem?_set]
  split
  · subst j
    simp [hi]
  · rfl

theorem lookup_append_other {rows : List α} {k : κ} {a : α} (ha : key a ≠ k) :
    lookup key (rows ++ [a]) k = lookup key rows k := by
  rw [lookup, lookup, List.find?_append, List.find?_cons, beq_false_of_ne ha]
  simp

theorem lookup_append_new {rows : List α} {k : κ} {a : α} (h : lookup key rows k = none)
    (ha : key a = k) : lookup key (rows ++ [a]) k = some a := by
  unfold lookup at h ⊢
  rw [List.find?_append, h]
  simp [ha]

end Keyed

end Meshrustic
