import Mathlib.Tactic.Common

/-!
# Rankings

An election puts its candidates in a strict order and acts on the result. The
code finds that order in several ways: by inserting one candidate after the
other, by picking the best that is left, or by keeping the best of one pass.
What they come to is the same: a list without ties has one ranking, whatever
order it was given in.

* `Ranked.unique`: two rankings of the same entries are equal.
* `Ranked.countP_ahead`: an entry's place is the number of entries ahead of
  it.
* `scanBest_spec`: one pass keeps the entry ahead of all others.
-/
namespace Meshrustic

variable {α : Type} {ahead : α → α → Bool} {xs ys : List α}

/-- A strict order, as a comparison that can be run. -/
structure StrictRank (ahead : α → α → Bool) : Prop where
  irrefl : ∀ a, ahead a a = false
  trans : ∀ a b c, ahead a b = true → ahead b c = true → ahead a c = true

theorem StrictRank.asymm (h : StrictRank ahead) {a b : α} (hab : ahead a b = true) :
    ahead b a = false := by
  rw [← Bool.not_eq_true]
  intro hba
  have haa := h.trans a b a hab hba
  rw [h.irrefl] at haa
  cases haa

/-- Each entry is ahead of all behind it. -/
def Ranked (ahead : α → α → Bool) (xs : List α) : Prop := xs.Pairwise fun a b => ahead a b = true

/-- No two entries tie. -/
def Decides (ahead : α → α → Bool) (xs : List α) : Prop :=
  ∀ a ∈ xs, ∀ b ∈ xs, a ≠ b → ahead a b = true ∨ ahead b a = true

theorem Decides.perm (h : Decides ahead xs) (hp : xs.Perm ys) : Decides ahead ys :=
  fun a ha b hb => h a (hp.mem_iff.mpr ha) b (hp.mem_iff.mpr hb)

theorem Ranked.nodup (h : StrictRank ahead) (hx : Ranked ahead xs) : xs.Nodup := by
  refine List.Pairwise.imp (fun {a b} hab heq => ?_) hx
  subst heq
  rw [h.irrefl] at hab
  cases hab

theorem Ranked.filter (p : α → Bool) (hx : Ranked ahead xs) : Ranked ahead (xs.filter p) :=
  List.Pairwise.filter p hx

theorem Ranked.unique (h : StrictRank ahead) (hx : Ranked ahead xs) (hy : Ranked ahead ys)
    (hp : xs.Perm ys) : xs = ys := by
  refine List.Perm.eq_of_pairwise (fun a b _ _ hab hba => ?_) hx hy hp
  rw [h.asymm hab] at hba
  cases hba

/-- The entries ahead of one of a ranking are those before it. -/
theorem Ranked.countP_ahead (h : StrictRank ahead) {pre post : List α} {c : α}
    (hx : Ranked ahead (pre ++ c :: post)) (p : α → Bool) :
    (pre ++ c :: post).countP (fun d => p d && ahead d c) = pre.countP p := by
  obtain ⟨-, hrest, hcross⟩ := List.pairwise_append.mp hx
  obtain ⟨hbehind, -⟩ := List.pairwise_cons.mp hrest
  have hpre : pre.countP (fun d => p d && ahead d c) = pre.countP p := by
    refine List.countP_congr fun d hd => ?_
    rw [hcross d hd c List.mem_cons_self, Bool.and_true]
  have hpost : (c :: post).countP (fun d => p d && ahead d c) = 0 := by
    rw [List.countP_eq_zero]
    intro d hd
    rcases List.mem_cons.mp hd with rfl | hd
    · simp [h.irrefl]
    · simp [h.asymm (hbehind d hd)]
  rw [List.countP_append, hpre, hpost, Nat.add_zero]

/-- Behind a counted entry more are counted than behind those ahead of it. -/
theorem StrictRank.countP_lt (h : StrictRank ahead) {p : α → Bool} {a b : α} (ha : a ∈ xs)
    (hp : p a = true) (hab : ahead a b = true) :
    xs.countP (fun d => p d && ahead d a) < xs.countP fun d => p d && ahead d b := by
  obtain ⟨pre, post, rfl⟩ := List.append_of_mem ha
  have hle : ∀ ys : List α, ys.countP (fun d => p d && ahead d a) ≤
      ys.countP fun d => p d && ahead d b := by
    intro ys
    refine List.countP_mono_left fun d _ hd => ?_
    rw [Bool.and_eq_true] at hd ⊢
    exact ⟨hd.1, h.trans d a b hd.2 hab⟩
  have hpre := hle pre
  have hpost := hle post
  rw [List.countP_append, List.countP_append,
    List.countP_cons_of_neg (by simp [h.irrefl]), List.countP_cons_of_pos (by simp [hp, hab])]
  omega

/-! ## One pass -/

/-- Keeps the better of two, the first one if neither is ahead. -/
def betterOf (ahead : α → α → Bool) : Option α → α → Option α
  | none, a => some a
  | some best, a => if ahead a best then some a else some best

/-- The best of a list, by one pass over it. -/
def scanBest (ahead : α → α → Bool) (xs : List α) : Option α := xs.foldl (betterOf ahead) none

theorem scanBest_from (h : StrictRank ahead) (xs : List α) (best : α)
    (hd : Decides ahead (best :: xs)) :
    ∃ b, xs.foldl (betterOf ahead) (some best) = some b ∧ b ∈ best :: xs ∧
      ∀ a ∈ best :: xs, a ≠ b → ahead b a = true := by
  induction xs generalizing best with
  | nil =>
    refine ⟨best, rfl, List.mem_cons_self, fun a ha hne => ?_⟩
    exact absurd (List.mem_singleton.mp ha) hne
  | cons x xs ih =>
    have hstep : betterOf ahead (some best) x = if ahead x best then some x else some best := rfl
    have hsub : ∀ y, y = x ∨ y = best → ∀ a ∈ y :: xs, a ∈ best :: x :: xs := by
      rintro y (rfl | rfl) a ha
      · exact List.mem_cons_of_mem _ ha
      · rcases List.mem_cons.mp ha with rfl | ha
        · exact List.mem_cons_self
        · exact List.mem_cons_of_mem _ (List.mem_cons_of_mem _ ha)
    have hdec : ∀ y, y = x ∨ y = best → Decides ahead (y :: xs) := fun y hy a ha b hb =>
      hd a (hsub y hy a ha) b (hsub y hy b hb)
    rw [List.foldl_cons, hstep]
    by_cases hx : ahead x best = true
    · rw [if_pos hx]
      obtain ⟨b, hb, hmem, hall⟩ := ih x (hdec x (.inl rfl))
      refine ⟨b, hb, hsub x (.inl rfl) b hmem, fun a ha hne => ?_⟩
      rcases List.mem_cons.mp ha with rfl | ha
      · -- the former best is behind `x`, which is `b` or behind it
        by_cases hxb : x = b
        · exact hxb ▸ hx
        · exact h.trans b x a (hall x List.mem_cons_self hxb) hx
      · exact hall a ha hne
    · rw [if_neg hx]
      obtain ⟨b, hb, hmem, hall⟩ := ih best (hdec best (.inr rfl))
      refine ⟨b, hb, hsub best (.inr rfl) b hmem, fun a ha hne => ?_⟩
      rcases List.mem_cons.mp ha with rfl | ha
      · exact hall a List.mem_cons_self hne
      · rcases List.mem_cons.mp ha with rfl | ha
        · by_cases heq : best = b
          · subst heq
            exact (hd best List.mem_cons_self a (List.mem_cons_of_mem _ List.mem_cons_self)
              (Ne.symm hne)).resolve_right hx
          · have hbest := hall best List.mem_cons_self heq
            by_cases hab : a = best
            · exact hab ▸ hbest
            · exact h.trans b best a hbest ((hd best List.mem_cons_self a
                (List.mem_cons_of_mem _ List.mem_cons_self) (Ne.symm hab)).resolve_right hx)
        · exact hall a (List.mem_cons_of_mem _ ha) hne

/-- One pass keeps the entry ahead of all others. -/
theorem scanBest_spec (h : StrictRank ahead) (hd : Decides ahead xs) :
    (xs = [] ∧ scanBest ahead xs = none) ∨
      ∃ b, scanBest ahead xs = some b ∧ b ∈ xs ∧ ∀ a ∈ xs, a ≠ b → ahead b a = true := by
  cases xs with
  | nil => exact .inl ⟨rfl, rfl⟩
  | cons x xs => exact .inr (scanBest_from h xs x hd)

/-- It does not matter in which order the entries come. -/
theorem scanBest_perm (h : StrictRank ahead) (hd : Decides ahead xs) (hp : xs.Perm ys) :
    scanBest ahead xs = scanBest ahead ys := by
  rcases scanBest_spec h hd with ⟨rfl, hx⟩ | ⟨b, hx, hb, hall⟩
  · rw [hp.nil_eq]
  rcases scanBest_spec h (hd.perm hp) with ⟨rfl, -⟩ | ⟨c, hy, hc, hall'⟩
  · rw [hp.eq_nil]
  · by_cases hbc : b = c
    · rw [hx, hy, hbc]
    · have hcb := hall' b (hp.mem_iff.mp hb) hbc
      rw [h.asymm (hall c (hp.mem_iff.mpr hc) (Ne.symm hbc))] at hcb
      cases hcb

/-- A pass that keeps its best in another form, with one value for "nobody yet". -/
theorem scan_form {β : Type} {form : Option α → β} {step : β → α → β} {good : α → Prop}
    (hstep : ∀ best, (∀ b ∈ best, good b) → ∀ a, good a →
      step (form best) a = form (betterOf ahead best a))
    (hgood : ∀ a ∈ xs, good a) : xs.foldl step (form none) = form (scanBest ahead xs) := by
  have hfrom : ∀ (ys : List α) (best : Option α), (∀ b ∈ best, good b) → (∀ a ∈ ys, good a) →
      ys.foldl step (form best) = form (ys.foldl (betterOf ahead) best) := by
    intro ys
    induction ys with
    | nil => exact fun _ _ _ => rfl
    | cons a ys ih =>
      intro best hbest hys
      have ha := hys a List.mem_cons_self
      rw [List.foldl_cons, List.foldl_cons, hstep best hbest a ha]
      refine ih _ (fun b hb => ?_) fun c hc => hys c (List.mem_cons_of_mem _ hc)
      cases best with
      | none =>
        obtain rfl := Option.some.inj hb
        exact ha
      | some best =>
        change b ∈ (if ahead a best = true then some a else some best) at hb
        split at hb
        · exact Option.some.inj hb ▸ ha
        · exact hbest b hb
  exact hfrom xs none (fun b hb => by cases hb) hgood

end Meshrustic
