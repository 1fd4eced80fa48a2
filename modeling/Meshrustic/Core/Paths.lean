import Mathlib.Tactic.Common

/-!
# Walks in a weighted graph, and labels that bound them

A graph is given by its hop relation `hop m n w`: from `m` one reaches `n` at
price `w`. A walk ends in a fixed destination, passes only through nodes that
may be passed, and costs the sum of its prices.

* `Labels`: what a shortest-path search has to leave behind. The nodes it has
  settled are closed under hops, no node on the frontier is cheaper than the
  goal, and sums saturate at `top`; a node without a slot is not labelled.
* `Labels.le_walk`: then the goal's label bounds every walk whose nodes have
  a slot and which does not come back to the goal.
-/
namespace Meshrustic

variable {α : Type}

/-- `Walk hop ok dest m ns c`: from `m` through the nodes `ns` to `dest`, at
price `c`. The start may be any node, a node on the way must be `ok`. -/
inductive Walk (hop : α → α → Nat → Prop) (ok : α → Prop) (dest : α) :
    α → List α → Nat → Prop where
  | done : Walk hop ok dest dest [] 0
  | step {m n : α} {ns : List α} {c w : Nat} (hhop : hop m n w) (hok : n = dest ∨ ok n)
      (hw : Walk hop ok dest n ns c) : Walk hop ok dest m (n :: ns) (c + w)

namespace Walk

variable {hop : α → α → Nat → Prop} {ok : α → Prop} {dest m : α} {ns : List α} {c : Nat}

/-- A walk that takes a hop ends in the destination. -/
theorem dest_mem (hw : Walk hop ok dest m ns c) (hne : ns ≠ []) : dest ∈ ns := by
  induction hw with
  | done => exact absurd rfl hne
  | @step m n ns c w hhop hok hw ih =>
    cases hw with
    | done => exact List.mem_singleton.mpr rfl
    | step _ _ _ => exact List.mem_cons_of_mem _ (ih (List.cons_ne_nil _ _))

theorem eq_dest (hw : Walk hop ok dest m [] c) : m = dest := by
  cases hw with
  | done => rfl

/-- The first hop of a walk. -/
theorem head_hop {n : α} (hw : Walk hop ok dest m (n :: ns) c) : ∃ w, hop m n w := by
  cases hw with
  | step hhop _ _ => exact ⟨_, hhop⟩

/-- A walk without its first hop. -/
theorem tail {n : α} (hw : Walk hop ok dest m (n :: ns) c) :
    ∃ c' w, hop m n w ∧ Walk hop ok dest n ns c' ∧ c = c' + w := by
  cases hw with
  | step hhop _ hrest => exact ⟨_, _, hhop, hrest, rfl⟩

/-- A walk of one hop costs that hop. -/
theorem price_single {n : α} (hw : Walk hop ok dest m [n] c) : hop m n c := by
  obtain ⟨c', w, hhop, hrest, rfl⟩ := hw.tail
  cases hrest with
  | done => rwa [Nat.zero_add]

/-- A walk in a smaller graph is one in the larger. -/
theorem mono {hop' : α → α → Nat → Prop} {ok' : α → Prop} (h : ∀ m n w, hop m n w → hop' m n w)
    (hok : ∀ n, ok n → n = dest ∨ ok' n) (hw : Walk hop ok dest m ns c) :
    Walk hop' ok' dest m ns c := by
  induction hw with
  | done => exact .done
  | step hhop hn _ ih => exact .step (h _ _ _ hhop) (hn.elim .inl (hok _)) ih

end Walk

/-- The labels a search for `goal` leaves behind, over the nodes with a slot. -/
structure Labels (hop : α → α → Nat → Prop) (ok : α → Prop) (dest goal : α) (top : Nat)
    (slot : α → Prop) (label : α → Option Nat) (settled : α → Prop) : Prop where
  atDest : label dest = some 0
  closed : ∀ n ln m w, settled n → n ≠ goal → (n = dest ∨ ok n) → label n = some ln →
    hop m n w → slot m → ∃ lm, label m = some lm ∧ lm ≤ min (ln + w) top
  frontier : ∀ n ln, label n = some ln → ¬ settled n → ∃ lg, label goal = some lg ∧ lg ≤ ln

namespace Labels

variable {hop : α → α → Nat → Prop} {ok : α → Prop} {dest goal m : α} {top c : Nat}
  {slot : α → Prop} {label : α → Option Nat} {settled : α → Prop} {ns : List α}

/-- Along a walk either every node met is settled, and then its start is
labelled within the price, or the walk leaves the settled nodes, and then the
goal is. -/
theorem le_suffix (h : Labels hop ok dest goal top slot label settled)
    (hw : Walk hop ok dest m ns c) (hm : slot m) (hns : ∀ x ∈ ns, slot x) (hgoal : goal ∉ ns) :
    (∃ l, label m = some l ∧ l ≤ min c top) ∨ (∃ l, label goal = some l ∧ l ≤ min c top) := by
  induction hw with
  | done => exact .inl ⟨0, h.atDest, Nat.zero_le _⟩
  | @step m n ns c w hhop hok hw ih =>
    rw [List.mem_cons, not_or] at hgoal
    have hstep : min c top ≤ min (c + w) top := by omega
    rcases ih (hns n List.mem_cons_self) (fun x hx => hns x (List.mem_cons_of_mem _ hx)) hgoal.2
      with ⟨l, hl, hle⟩ | ⟨l, hl, hle⟩
    · by_cases hset : settled n
      · obtain ⟨lm, hlm, hlem⟩ := h.closed n l m w hset (Ne.symm hgoal.1) hok hl hhop hm
        exact .inl ⟨lm, hlm, by omega⟩
      · obtain ⟨lg, hlg, hleg⟩ := h.frontier n l hl hset
        exact .inr ⟨lg, hlg, by omega⟩
    · exact .inr ⟨l, hl, Nat.le_trans hle hstep⟩

theorem le_walk (h : Labels hop ok dest goal top slot label settled)
    (hw : Walk hop ok dest goal ns c) (hm : slot goal) (hns : ∀ x ∈ ns, slot x)
    (hgoal : goal ∉ ns) : ∃ l, label goal = some l ∧ l ≤ min c top :=
  (h.le_suffix hw hm hns hgoal).elim id id

end Labels

end Meshrustic
