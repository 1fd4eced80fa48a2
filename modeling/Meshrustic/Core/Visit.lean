import Mathlib.Data.List.Nodup
import Mathlib.Logic.Relation
import Mathlib.Tactic.Common

/-!
# Walks with a stack

A walk over a finite graph marks what it meets and puts it on a stack, then
takes the next entry from the stack until none is left. The stack may be a
bounded array: what finds no place on it is marked all the same and never
looked at.

* `Visiting`: what holds while the walk is under way.
* `visit_spec`: where the stack has a place for every node, the walk marks
  exactly what can be reached from its start.
-/
namespace Meshrustic

variable {α : Type} [DecidableEq α]

/-- The node is marked and put on the stack, unless it is marked already. -/
def mark (cap : Nat) (st : List α × List α) (a : α) : List α × List α :=
  if st.2.contains a then st
  else (if st.1.length < cap then a :: st.1 else st.1, a :: st.2)

/-- Takes nodes from the stack and marks what `next` says of each; `fuel` bounds
their number. -/
def visit (cap : Nat) (next : α → List α) : Nat → List α × List α → List α
  | 0, st => st.2
  | _ + 1, ([], marked) => marked
  | fuel + 1, (cur :: stack, marked) =>
    visit cap next fuel ((next cur).foldl (mark cap) (stack, marked))

/-- Reached along `next`. -/
def Reached (next : α → List α) : α → α → Prop := Relation.ReflTransGen fun a b => b ∈ next a

/-- The walk so far: the stack and the marks, each without repetition, all of
them nodes that the start reaches. -/
structure Visiting (next : α → List α) (nodes : List α) (root : α) (st : List α × List α) : Prop where
  stackNodup : st.1.Nodup
  nodup : st.2.Nodup
  onStack : ∀ a ∈ st.1, a ∈ st.2
  within : ∀ a ∈ st.2, a ∈ nodes
  sound : ∀ a ∈ st.2, Reached next root a

/-- The same nodes are added to the stack and to the marks. -/
def Grown (st st' : List α × List α) : Prop :=
  ∃ new, st'.1 = new ++ st.1 ∧ st'.2 = new ++ st.2

section

variable {cap : Nat} {next : α → List α} {nodes : List α} {root a : α} {st st' st'' : List α × List α}

omit [DecidableEq α] in
theorem Grown.refl (st : List α × List α) : Grown st st := ⟨[], rfl, rfl⟩

omit [DecidableEq α] in
theorem Grown.trans (h : Grown st st') (h' : Grown st' st'') : Grown st st'' := by
  obtain ⟨new, hstack, hmarks⟩ := h
  obtain ⟨new', hstack', hmarks'⟩ := h'
  exact ⟨new' ++ new, by rw [hstack', hstack, List.append_assoc],
    by rw [hmarks', hmarks, List.append_assoc]⟩

omit [DecidableEq α] in
theorem Grown.marked (h : Grown st st') (ha : a ∈ st.2) : a ∈ st'.2 := by
  obtain ⟨new, -, hmarks⟩ := h
  rw [hmarks]
  exact List.mem_append_right _ ha

/-- A marked node always finds its place: there are no more nodes than places. -/
theorem mark_spec (h : Visiting next nodes root st) (hcap : nodes.length ≤ cap) (ha : a ∈ nodes)
    (hreached : Reached next root a) :
    Visiting next nodes root (mark cap st a) ∧ Grown st (mark cap st a) ∧ a ∈ (mark cap st a).2 := by
  unfold mark
  split
  · rename_i hmarked
    exact ⟨h, .refl st, List.contains_iff_mem.mp hmarked⟩
  · rename_i hnew
    rw [List.contains_iff_mem] at hnew
    have hstack : st.1.length ≤ st.2.length := List.Nodup.length_le_of_subset h.stackNodup h.onStack
    have hmarks : (a :: st.2).length ≤ nodes.length :=
      List.Nodup.length_le_of_subset (List.nodup_cons.mpr ⟨hnew, h.nodup⟩)
        (List.cons_subset.mpr ⟨ha, h.within⟩)
    rw [List.length_cons] at hmarks
    rw [if_pos (by omega)]
    refine ⟨⟨?_, ?_, ?_, ?_, ?_⟩, ⟨[a], rfl, rfl⟩, List.mem_cons_self⟩
    · exact List.nodup_cons.mpr ⟨fun hmem => hnew (h.onStack a hmem), h.stackNodup⟩
    · exact List.nodup_cons.mpr ⟨hnew, h.nodup⟩
    · intro b hb
      rcases List.mem_cons.mp hb with rfl | hb
      · exact List.mem_cons_self
      · exact List.mem_cons_of_mem _ (h.onStack b hb)
    · exact List.forall_mem_cons.mpr ⟨ha, h.within⟩
    · exact List.forall_mem_cons.mpr ⟨hreached, h.sound⟩

theorem marks_spec (hcap : nodes.length ≤ cap) (as : List α) (h : Visiting next nodes root st)
    (ha : ∀ a ∈ as, a ∈ nodes ∧ Reached next root a) :
    Visiting next nodes root (as.foldl (mark cap) st) ∧ Grown st (as.foldl (mark cap) st) ∧
      ∀ a ∈ as, a ∈ (as.foldl (mark cap) st).2 := by
  induction as generalizing st with
  | nil => exact ⟨h, .refl st, fun a ha => absurd ha List.not_mem_nil⟩
  | cons a as ih =>
    obtain ⟨hin, hreached⟩ := ha a List.mem_cons_self
    obtain ⟨hvisiting, hgrown, hmarked⟩ := mark_spec h hcap hin hreached
    obtain ⟨hvisiting', hgrown', hall⟩ := ih hvisiting fun b hb => ha b (List.mem_cons_of_mem _ hb)
    exact ⟨hvisiting', hgrown.trans hgrown',
      List.forall_mem_cons.mpr ⟨hgrown'.marked hmarked, hall⟩⟩

/-- What has left the stack has been looked at. -/
def Looked (next : α → List α) (st : List α × List α) : Prop :=
  ∀ a ∈ st.2, a ∉ st.1 → ∀ b ∈ next a, b ∈ st.2

/-- The walk ends with marks that are sound and closed. -/
theorem visit_closed (hcap : nodes.length ≤ cap) (hnext : ∀ a ∈ nodes, ∀ b ∈ next a, b ∈ nodes)
    {fuel : Nat} (h : Visiting next nodes root st) (hlooked : Looked next st)
    (hfuel : nodes.length + st.1.length ≤ fuel + st.2.length) (hroot : root ∈ st.2) :
    root ∈ visit cap next fuel st ∧ (∀ a ∈ visit cap next fuel st, Reached next root a) ∧
      ∀ a ∈ visit cap next fuel st, ∀ b ∈ next a, b ∈ visit cap next fuel st := by
  induction fuel generalizing st with
  | zero =>
    -- every node has left the stack
    have hmarks : st.2.length ≤ nodes.length := List.Nodup.length_le_of_subset h.nodup h.within
    have hempty : st.1 = [] := List.length_eq_zero_iff.mp (by omega)
    rw [visit]
    exact ⟨hroot, h.sound, fun a ha => hlooked a ha (by rw [hempty]; exact List.not_mem_nil)⟩
  | succ fuel ih =>
    obtain ⟨stack, marked⟩ := st
    cases stack with
    | nil =>
      rw [visit]
      exact ⟨hroot, h.sound, fun a ha => hlooked a ha List.not_mem_nil⟩
    | cons cur stack =>
      rw [visit]
      have hmarked : cur ∈ marked := h.onStack cur List.mem_cons_self
      have hpopped : Visiting next nodes root (stack, marked) :=
        ⟨(List.nodup_cons.mp h.stackNodup).2, h.nodup,
          fun a ha => h.onStack a (List.mem_cons_of_mem _ ha), h.within, h.sound⟩
      obtain ⟨hvisiting, hgrown, hall⟩ := marks_spec hcap (next cur) hpopped fun b hb =>
        ⟨hnext cur (h.within cur hmarked) b hb, (h.sound cur hmarked).tail hb⟩
      obtain ⟨new, hstack, hmarks⟩ := id hgrown
      refine ih hvisiting (fun a ha hoff b hb => ?_) ?_ (hgrown.marked hroot)
      · rw [hmarks] at ha
        rw [hstack, List.mem_append, not_or] at hoff
        have hold : a ∈ marked := (List.mem_append.mp ha).resolve_left hoff.1
        by_cases hcur : a = cur
        · subst hcur
          exact hall b hb
        · have hoff' : a ∉ cur :: stack := by
            rw [List.mem_cons, not_or]
            exact ⟨hcur, hoff.2⟩
          exact hgrown.marked (hlooked a hold hoff' b hb)
      · rw [hstack, hmarks, List.length_append, List.length_append]
        dsimp only at hfuel ⊢
        rw [List.length_cons] at hfuel
        omega

/-- Where the stack has a place for every node, the walk marks what its start
reaches. -/
theorem visit_spec (hcap : nodes.length ≤ cap) (hnext : ∀ a ∈ nodes, ∀ b ∈ next a, b ∈ nodes)
    (hroot : root ∈ nodes) {fuel : Nat} (hfuel : nodes.length ≤ fuel) :
    a ∈ visit cap next fuel ([root], [root]) ↔ Reached next root a := by
  have hstart : Visiting next nodes root ([root], [root]) :=
    ⟨List.nodup_singleton _, List.nodup_singleton _, fun _ h => h,
      fun b hb => List.mem_singleton.mp hb ▸ hroot,
      fun b hb => List.mem_singleton.mp hb ▸ Relation.ReflTransGen.refl⟩
  obtain ⟨hmarked, hsound, hclosed⟩ := visit_closed hcap hnext hstart
    (fun b hb hoff => absurd hb hoff) (Nat.add_le_add_right hfuel 1) List.mem_cons_self
  refine ⟨hsound a, fun h => ?_⟩
  induction h with
  | refl => exact hmarked
  | tail _ hb ih => exact hclosed _ ih _ hb

end

end Meshrustic
