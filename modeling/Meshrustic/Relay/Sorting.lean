import Meshrustic.Core.Ranking
import Meshrustic.Relay.Plan

/-!
# The insertion sort of the planners (`broadcast_relay.rs:330-336`, `unicast_relay.rs:232-238`)

Both planners sort in place: an entry moves to the front while it is better
than the one before it. `bubble` does that to the sorted part, kept with its
last entry first. Where no two entries tie, the result is their ranking.
-/
namespace Meshrustic.Relay

variable {α : Type} {better : α → α → Bool}

theorem bubble_perm (x : α) (sorted : List α) : (bubble better x sorted).Perm (x :: sorted) := by
  induction sorted with
  | nil => exact List.Perm.refl _
  | cons y ys ih =>
    unfold bubble
    by_cases hxy : better x y = true
    · rw [if_pos hxy]
      exact (ih.cons y).trans (List.Perm.swap x y ys)
    · rw [if_neg hxy]

/-- A new entry finds its place in a ranking kept from its end. -/
theorem bubble_ranked (h : StrictRank better) {x : α} {sorted : List α}
    (hd : ∀ y ∈ sorted, better x y = true ∨ better y x = true)
    (hs : sorted.Pairwise fun a b => better b a = true) :
    (bubble better x sorted).Pairwise fun a b => better b a = true := by
  induction sorted with
  | nil => exact List.pairwise_singleton _ _
  | cons y ys ih =>
    obtain ⟨hy, hys⟩ := List.pairwise_cons.mp hs
    unfold bubble
    by_cases hxy : better x y = true
    · rw [if_pos hxy, List.pairwise_cons]
      refine ⟨fun z hz => ?_, ih (fun z hz => hd z (List.mem_cons_of_mem _ hz)) hys⟩
      rcases List.mem_cons.mp ((bubble_perm x ys).mem_iff.mp hz) with rfl | hz
      · exact hxy
      · exact hy z hz
    · rw [if_neg hxy, List.pairwise_cons]
      have hyx := (hd y List.mem_cons_self).resolve_left hxy
      refine ⟨fun z hz => ?_, hs⟩
      rcases List.mem_cons.mp hz with rfl | hz
      · exact hyx
      · exact h.trans z y x (hy z hz) hyx

/-- The sort is a ranking of what it was given. -/
theorem insertion_ranked (h : StrictRank better) {xs : List α} (hnd : xs.Nodup)
    (hd : Decides better xs) :
    Ranked better (xs.foldl (fun sorted x => bubble better x sorted) []).reverse ∧
      (xs.foldl (fun sorted x => bubble better x sorted) []).reverse.Perm xs := by
  have hfold : ∀ (xs sorted : List α), (sorted ++ xs).Nodup → Decides better (sorted ++ xs) →
      (sorted.Pairwise fun a b => better b a = true) →
      ((xs.foldl (fun sorted x => bubble better x sorted) sorted).Pairwise
          fun a b => better b a = true) ∧
        (xs.foldl (fun sorted x => bubble better x sorted) sorted).Perm (sorted ++ xs) := by
    intro xs
    induction xs with
    | nil =>
      intro sorted _ _ hs
      rw [List.append_nil]
      exact ⟨hs, List.Perm.refl _⟩
    | cons x xs ih =>
      intro sorted hnd hd hs
      -- `x` moves from behind the sorted part into it
      have hp : (bubble better x sorted ++ xs).Perm (sorted ++ x :: xs) :=
        ((bubble_perm x sorted).append_right xs).trans List.perm_middle.symm
      have hx : ∀ y ∈ sorted, better x y = true ∨ better y x = true := by
        intro y hy
        have hne : x ≠ y := fun heq => (List.nodup_append.mp hnd).2.2 y hy x List.mem_cons_self
          heq.symm
        exact hd x (List.mem_append_right _ List.mem_cons_self) y (List.mem_append_left _ hy) hne
      obtain ⟨hr, hperm⟩ := ih (bubble better x sorted) (hp.nodup_iff.mpr hnd) (hd.perm hp.symm)
        (bubble_ranked h hx hs)
      exact ⟨hr, hperm.trans hp⟩
  obtain ⟨hr, hperm⟩ := hfold xs [] hnd hd List.Pairwise.nil
  exact ⟨List.pairwise_reverse.mpr hr, (List.reverse_perm _).trans hperm⟩

end Meshrustic.Relay
