import Mathlib.Data.List.Forall2
import Mathlib.Tactic.Common

/-!
# Arrays of slots

A fixed array whose cells are marked live or free by a flag of their own.
Code scans such an array from the front: it overwrites the first cell that
passes a test, changes the first cell with a given key, or walks on until a
cell stops the walk. Cells that died keep their contents, so a scan by key
can meet a stale cell.

Two orders of keys are kept by all of these:
* `Once`: no two live cells have the same key;
* `Leading`: a live cell is the first of its key, stale cells included, so a
  scan that ends at the first match finds it.

Walks may follow each other: a cell that would stop them all gets its turn
(`Slots.turn`).

A change in place that keeps keys and wakes no cell (`Calmer`) preserves both
(`Once.calm`, `Leading.calm`); filling a free cell does so if no live cell has
the new key (`Once.place`, `Leading.place`).
-/
namespace Meshrustic

structure Slots (n : Nat) (α : Type) where
  cells : List α
  size : cells.length = n
  deriving DecidableEq

/-- What a walk does at a cell: leave `x` there and go on, or stop with `b`. -/
inductive Visit (α β : Type) where
  | pass (x : α)
  | stop (x : α) (b : β)

def Visit.cell {α β : Type} : Visit α β → α
  | .pass x => x
  | .stop x _ => x

def Visit.stops {α β : Type} : Visit α β → Bool
  | .pass _ => false
  | .stop _ _ => true

theorem Visit.stop_of_stops {α β : Type} {v : Visit α β} (h : v.stops = true) :
    ∃ y b, v = .stop y b := by
  cases v with
  | pass y => cases h
  | stop y b => exact ⟨y, b, rfl⟩

theorem Visit.pass_of_not_stops {α β : Type} {v : Visit α β} (h : v.stops = false) :
    ∃ y, v = .pass y := by
  cases v with
  | pass y => exact ⟨y, rfl⟩
  | stop y b => cases h

/-- A walk from the front, up to the first cell that stops it. -/
def sweep {α β : Type} (visit : α → Visit α β) : List α → List α × Option β
  | [] => ([], none)
  | x :: xs =>
    match visit x with
    | .pass y => (y :: (sweep visit xs).1, (sweep visit xs).2)
    | .stop y b => (y :: xs, some b)

namespace Slots

variable {n : Nat} {α β : Type}

instance : Membership α (Slots n α) := ⟨fun s x => x ∈ s.cells⟩

instance (s : Slots n α) (x : α) [DecidableEq α] : Decidable (x ∈ s) :=
  inferInstanceAs (Decidable (x ∈ s.cells))

def all (a : α) : Slots n α := ⟨List.replicate n a, List.length_replicate⟩

def map (f : α → α) (s : Slots n α) : Slots n α :=
  ⟨s.cells.map f, by rw [List.length_map]; exact s.size⟩

def any (p : α → Bool) (s : Slots n α) : Bool := s.cells.any p

def find? (p : α → Bool) (s : Slots n α) : Option α := s.cells.find? p

def set (i : Nat) (a : α) (s : Slots n α) : Slots n α :=
  ⟨s.cells.set i a, by rw [List.length_set]; exact s.size⟩

/-- Overwrites the first cell that passes `free`. -/
def place (free : α → Bool) (a : α) (s : Slots n α) : Option (Slots n α) :=
  match s.cells.findIdx? free with
  | some i => some ⟨s.cells.set i a, by rw [List.length_set]; exact s.size⟩
  | none => none

/-- Changes the first cell that passes `p`. -/
def changeFirst (p : α → Bool) (f : α → α) (s : Slots n α) : Slots n α :=
  match s.cells.findIdx? p with
  | some i => ⟨s.cells.modify i f, by rw [List.length_modify]; exact s.size⟩
  | none => s

theorem length_sweep (visit : α → Visit α β) (xs : List α) :
    (Meshrustic.sweep visit xs).1.length = xs.length := by
  induction xs with
  | nil => rfl
  | cons x xs ih =>
    unfold Meshrustic.sweep
    split
    · simp [ih]
    · rfl

def sweep (visit : α → Visit α β) (s : Slots n α) : Slots n α × Option β :=
  (⟨(Meshrustic.sweep visit s.cells).1, by rw [length_sweep]; exact s.size⟩,
    (Meshrustic.sweep visit s.cells).2)

theorem mem_def {s : Slots n α} {x : α} : x ∈ s ↔ x ∈ s.cells := Iff.rfl

theorem mem_all {a x : α} (h : x ∈ (all a : Slots n α)) : x = a :=
  (List.mem_replicate.mp h).2

@[simp] theorem mem_map {f : α → α} {s : Slots n α} {y : α} : y ∈ s.map f ↔ ∃ x ∈ s, f x = y :=
  List.mem_map

@[simp] theorem any_eq_true {p : α → Bool} {s : Slots n α} :
    s.any p = true ↔ ∃ x ∈ s, p x = true := List.any_eq_true

@[simp] theorem any_eq_false {p : α → Bool} {s : Slots n α} :
    s.any p = false ↔ ∀ x ∈ s, p x = false := by
  rw [Bool.eq_false_iff, Ne, any_eq_true]
  simp

theorem find?_mem {p : α → Bool} {s : Slots n α} {x : α} (h : s.find? p = some x) : x ∈ s :=
  List.mem_of_find?_eq_some h

theorem split_at {s : List α} {p : α → Bool} {i : Nat} (h : s.findIdx? p = some i) :
    ∃ l x r, s = l ++ x :: r ∧ (∀ y ∈ l, p y = false) ∧ p x = true ∧ l.length = i := by
  obtain ⟨hi, hx, hl⟩ := List.findIdx?_eq_some_iff_getElem.mp h
  refine ⟨s.take i, s[i], s.drop (i + 1), ?_, ?_, hx, ?_⟩
  · rw [List.getElem_cons_drop, List.take_append_drop]
  · intro y hy
    obtain ⟨j, hj, rfl⟩ := List.getElem_of_mem hy
    rw [List.length_take] at hj
    have := hl j (by omega)
    rw [List.getElem_take]
    simpa using this
  · rw [List.length_take]
    omega

/-- The cells around the one that was overwritten. -/
theorem place_split {free : α → Bool} {a : α} {s t : Slots n α} (h : s.place free a = some t) :
    ∃ l x r, s.cells = l ++ x :: r ∧ (∀ y ∈ l, free y = false) ∧ free x = true ∧
      t.cells = l ++ a :: r := by
  unfold place at h
  split at h
  · rename_i i hi
    obtain ⟨l, x, r, hs, hl, hx, hlen⟩ := split_at hi
    cases h
    refine ⟨l, x, r, hs, hl, hx, ?_⟩
    change s.cells.set i a = l ++ a :: r
    rw [hs, List.set_append_right _ _ (by omega)]
    simp [hlen]
  · cases h

theorem place_none {free : α → Bool} {a : α} {s : Slots n α} (h : s.place free a = none) :
    ∀ x ∈ s, free x = false := by
  unfold place at h
  split at h
  · cases h
  · rename_i hnone
    intro x hx
    exact List.findIdx?_eq_none_iff.mp hnone x hx

/-- Either no cell matched, or exactly the first match was changed. -/
theorem changeFirst_split (p : α → Bool) (f : α → α) (s : Slots n α) :
    (s.changeFirst p f = s ∧ ∀ x ∈ s, p x = false) ∨
      ∃ l x r, s.cells = l ++ x :: r ∧ (∀ y ∈ l, p y = false) ∧ p x = true ∧
        (s.changeFirst p f).cells = l ++ f x :: r := by
  unfold changeFirst
  split
  · rename_i i hi
    obtain ⟨l, x, r, hs, hl, hx, hlen⟩ := split_at hi
    refine .inr ⟨l, x, r, hs, hl, hx, ?_⟩
    change s.cells.modify i f = l ++ f x :: r
    rw [hs, List.modify_eq_set_getElem?, ← hlen]
    simp
  · rename_i hnone
    exact .inl ⟨rfl, fun x hx => List.findIdx?_eq_none_iff.mp hnone x hx⟩

/-- Where one cell at most passes, each cell that passes is changed. -/
theorem getElem?_changeFirst {p : α → Bool} {f : α → α} {s : Slots n α}
    (honce : ∀ {i j : Nat} {x y : α}, s.cells[i]? = some x → s.cells[j]? = some y → p x = true →
      p y = true → i = j) (i : Nat) :
    (s.changeFirst p f).cells[i]? = s.cells[i]?.map fun x => if p x then f x else x := by
  unfold changeFirst
  split
  · rename_i k hk
    obtain ⟨hlt, hpass, -⟩ := List.findIdx?_eq_some_iff_getElem.mp hk
    have hfirst : s.cells[k]? = some s.cells[k] := List.getElem?_eq_getElem hlt
    change (s.cells.modify k f)[i]? = _
    rw [List.getElem?_modify]
    rcases hi : s.cells[i]? with - | x
    · rfl
    · by_cases hx : p x = true
      · simp [honce hfirst hi hpass hx, hx]
      · have hne : k ≠ i := by
          rintro rfl
          rw [hfirst] at hi
          cases hi
          exact hx hpass
        simp [hne, hx]
  · rename_i hnone
    rcases hi : s.cells[i]? with - | x
    · rfl
    · have := List.findIdx?_eq_none_iff.mp hnone x (List.mem_of_getElem? hi)
      simp [this]

/-- A cell that does not match is still there. -/
theorem mem_changeFirst {p : α → Bool} {f : α → α} {s : Slots n α} {x : α} (hx : x ∈ s)
    (hp : p x = false) : x ∈ s.changeFirst p f := by
  rcases changeFirst_split p f s with ⟨heq, _⟩ | ⟨l, y, r, hs, _, hy, ht⟩
  · rwa [heq]
  · rw [mem_def, hs, List.mem_append, List.mem_cons] at hx
    rw [mem_def, ht, List.mem_append, List.mem_cons]
    rcases hx with hx | rfl | hx
    · exact .inl hx
    · rw [hp] at hy
      cases hy
    · exact .inr (.inr hx)

theorem mem_of_place {free : α → Bool} {a : α} {s t : Slots n α} (h : s.place free a = some t)
    {x : α} (hx : x ∈ t) : x = a ∨ x ∈ s := by
  obtain ⟨l, y, r, hs, _, _, ht⟩ := place_split h
  rw [mem_def, ht, List.mem_append, List.mem_cons] at hx
  rw [mem_def, hs, List.mem_append, List.mem_cons]
  tauto

theorem placed_mem {free : α → Bool} {a : α} {s t : Slots n α} (h : s.place free a = some t) :
    a ∈ t := by
  obtain ⟨l, y, r, _, _, _, ht⟩ := place_split h
  rw [mem_def, ht]
  simp

/-- A cell that is not overwritten is still there. -/
theorem mem_place_of_not_free {free : α → Bool} {a : α} {s t : Slots n α}
    (h : s.place free a = some t) {x : α} (hx : x ∈ s) (hf : free x = false) : x ∈ t := by
  obtain ⟨l, y, r, hs, _, hy, ht⟩ := place_split h
  rw [mem_def, hs, List.mem_append, List.mem_cons] at hx
  rw [mem_def, ht, List.mem_append, List.mem_cons]
  rcases hx with hx | rfl | hx
  · exact .inl hx
  · rw [hf] at hy
    cases hy
  · exact .inr (.inr hx)

/-- The cells, seen through a function. -/
def image (f : α → β) (s : Slots n α) : Slots n β :=
  ⟨s.cells.map f, by rw [List.length_map]; exact s.size⟩

section

variable {f : α → β} {p : β → Bool} {g : α → α} {g' : β → β} {s : Slots n α}

theorem ext_cells {s t : Slots n α} (h : s.cells = t.cells) : s = t := by
  cases s
  cases t
  cases h
  rfl

theorem find?_image : (s.image f).find? p = (s.find? fun x => p (f x)).map f := List.find?_map

theorem image_map (h : ∀ x, f (g x) = g' (f x)) : (s.map g).image f = (s.image f).map g' :=
  ext_cells (by simp [image, map, h])

theorem image_place (a : α) :
    (s.place (fun x => p (f x)) a).map (image f) = (s.image f).place p (f a) := by
  have hidx : (s.cells.map f).findIdx? p = s.cells.findIdx? fun x => p (f x) := List.findIdx?_map
  unfold place image
  dsimp only
  rw [hidx]
  cases s.cells.findIdx? fun x => p (f x) with
  | none => rfl
  | some i => simp [List.map_set]

theorem map_modify (h : ∀ x, f (g x) = g' (f x)) (xs : List α) (i : Nat) :
    (xs.modify i g).map f = (xs.map f).modify i g' := by
  apply List.ext_getElem?
  intro j
  simp only [List.getElem?_map, List.getElem?_modify]
  cases xs[j]? with
  | none => simp
  | some x => by_cases hij : i = j <;> simp [hij, h]

theorem image_changeFirst (h : ∀ x, f (g x) = g' (f x)) :
    (s.changeFirst (fun x => p (f x)) g).image f = (s.image f).changeFirst p g' := by
  have hidx : (s.cells.map f).findIdx? p = s.cells.findIdx? fun x => p (f x) := List.findIdx?_map
  apply ext_cells
  unfold changeFirst image
  dsimp only
  rw [hidx]
  cases s.cells.findIdx? fun x => p (f x) with
  | none => rfl
  | some i => exact map_modify h s.cells i

/-- A change that does not show. -/
theorem image_changeFirst_same {q : α → Bool} (h : ∀ x, f (g x) = f x) :
    (s.changeFirst q g).image f = s.image f := by
  apply ext_cells
  unfold changeFirst image
  dsimp only
  cases s.cells.findIdx? q with
  | none => rfl
  | some i =>
    have hsame : ∀ x, f (g x) = id (f x) := h
    exact (map_modify hsame s.cells i).trans (List.modify_id ..)

end

end Slots

/-! ## Changes in place -/

theorem forall₂_origin {α : Type} {R : α → α → Prop} {xs ys : List α} (h : List.Forall₂ R xs ys)
    {y : α} (hy : y ∈ ys) : ∃ x ∈ xs, R x y := by
  induction h with
  | nil => cases hy
  | cons hxy _ ih =>
    rcases List.mem_cons.mp hy with rfl | hy
    · exact ⟨_, List.mem_cons_self, hxy⟩
    · obtain ⟨x, hx, hr⟩ := ih hy
      exact ⟨x, List.mem_cons_of_mem _ hx, hr⟩

/-- `t` is `s` with cells changed in place, each as `R` allows. -/
abbrev InPlace {n : Nat} {α : Type} (R : α → α → Prop) (s t : Slots n α) : Prop :=
  List.Forall₂ R s.cells t.cells

namespace InPlace

variable {n : Nat} {α β : Type} {R : α → α → Prop}

theorem refl (hR : ∀ x, R x x) (s : Slots n α) : InPlace R s s :=
  List.forall₂_same.mpr fun x _ => hR x

theorem map {f : α → α} {s : Slots n α} (h : ∀ x ∈ s, R x (f x)) : InPlace R s (s.map f) := by
  rw [InPlace, Slots.map, List.forall₂_map_right_iff, List.forall₂_same]
  exact h

theorem changeFirst {p : α → Bool} {f : α → α} {s : Slots n α} (hR : ∀ x, R x x)
    (h : ∀ x ∈ s, p x = true → R x (f x)) : InPlace R s (s.changeFirst p f) := by
  rcases Slots.changeFirst_split p f s with ⟨heq, _⟩ | ⟨l, x, r, hs, _, hx, ht⟩
  · rw [heq]
    exact refl hR s
  · have hrefl : ∀ xs : List α, List.Forall₂ R xs xs :=
      fun xs => List.forall₂_same.mpr fun x _ => hR x
    rw [InPlace, hs, ht]
    exact List.rel_append (hrefl l) (.cons (h x (by simp [Slots.mem_def, hs]) hx) (hrefl r))

theorem sweep {visit : α → Visit α β} {s : Slots n α} (hR : ∀ x, R x x)
    (h : ∀ x ∈ s, R x (visit x).cell) : InPlace R s (s.sweep visit).1 := by
  obtain ⟨xs, hxs⟩ := s
  simp only [InPlace, Slots.sweep, Slots.mem_def] at h ⊢
  clear hxs
  induction xs with
  | nil => exact .nil
  | cons x xs ih =>
    have hx := h x List.mem_cons_self
    unfold Meshrustic.sweep
    split <;> rename_i heq <;> rw [heq] at hx
    · exact .cons hx (ih fun y hy => h y (List.mem_cons_of_mem _ hy))
    · exact .cons hx (List.forall₂_same.mpr fun x _ => hR x)

theorem trans (hR : ∀ {x y z}, R x y → R y z → R x z) {s t u : Slots n α} (h : InPlace R s t)
    (h' : InPlace R t u) : InPlace R s u := by
  obtain ⟨xs, hxs⟩ := s
  obtain ⟨ys, hys⟩ := t
  obtain ⟨zs, hzs⟩ := u
  simp only [InPlace] at h h' ⊢
  clear hxs hys hzs
  induction h generalizing zs with
  | nil => cases h'; exact .nil
  | cons hxy _ ih =>
    cases h' with
    | cons hyz hrest => exact .cons (hR hxy hyz) (ih _ hrest)

/-- Every cell comes from a cell of the array before. -/
theorem origin {s t : Slots n α} (h : InPlace R s t) {y : α} (hy : y ∈ t) : ∃ x ∈ s, R x y :=
  forall₂_origin h hy

theorem getElem? {s t : Slots n α} (h : InPlace R s t) {i : Nat} {x : α}
    (hx : s.cells[i]? = some x) : ∃ y, t.cells[i]? = some y ∧ R x y := by
  obtain ⟨hi, hxi⟩ := List.getElem?_eq_some_iff.mp hx
  have hlen := h.length_eq
  refine ⟨t.cells[i], List.getElem?_eq_getElem (by omega), ?_⟩
  rw [← hxi]
  exact (List.forall₂_iff_get.mp h).2 i hi (by omega)

/-- The first cell that passes a test is found in the same place. -/
theorem find? {s t : Slots n α} (h : InPlace R s t) {p : α → Bool}
    (hp : ∀ x y, R x y → p y = p x) {x : α} (hx : s.find? p = some x) :
    ∃ y, t.find? p = some y ∧ R x y := by
  obtain ⟨xs, hxs⟩ := s
  obtain ⟨ys, hys⟩ := t
  simp only [InPlace, Slots.find?] at h hx ⊢
  clear hxs hys
  induction h with
  | nil => cases hx
  | @cons a b xs ys hab _ ih =>
    rw [List.find?_cons] at hx ⊢
    rw [hp a b hab]
    cases hpa : p a with
    | true =>
      simp only [hpa, Option.some.injEq] at hx ⊢
      exact ⟨b, rfl, hx ▸ hab⟩
    | false =>
      simp only [hpa] at hx ⊢
      exact ih hx

end InPlace

/-- A walk that stops, around the cell that stopped it. -/
theorem sweep_split {n : Nat} {α β : Type} {visit : α → Visit α β} {s : Slots n α} {b : β}
    (h : (s.sweep visit).2 = some b) :
    ∃ l x r y, s.cells = l ++ x :: r ∧ visit x = .stop y b ∧ (∀ a ∈ l, ∃ c, visit a = .pass c) ∧
      (s.sweep visit).1.cells = l.map (fun a => (visit a).cell) ++ y :: r := by
  obtain ⟨xs, hxs⟩ := s
  simp only [Slots.sweep] at h ⊢
  clear hxs
  induction xs with
  | nil => cases h
  | cons x xs ih =>
    unfold Meshrustic.sweep at h ⊢
    split at h <;> rename_i heq
    · obtain ⟨l, z, r, y, hxs, hz, hl, hsw⟩ := ih h
      refine ⟨x :: l, z, r, y, by rw [hxs]; rfl, hz, ?_, ?_⟩
      · exact List.forall_mem_cons.mpr ⟨⟨_, heq⟩, hl⟩
      · rw [hsw, List.map_cons, heq]
        rfl
    · cases h
      exact ⟨[], x, xs, _, rfl, heq, fun a ha => absurd ha List.not_mem_nil, rfl⟩

/-- A walk that stops has met the cell that stopped it. -/
theorem sweep_some {n : Nat} {α β : Type} {visit : α → Visit α β} {s : Slots n α} {b : β}
    (h : (s.sweep visit).2 = some b) : ∃ x ∈ s, ∃ y, visit x = .stop y b := by
  obtain ⟨l, x, r, y, hs, hx, _, _⟩ := sweep_split h
  exact ⟨x, by rw [Slots.mem_def, hs]; simp, y, hx⟩

/-- The walk ends at the first cell that stops it. -/
theorem sweep_of_split {n : Nat} {α β : Type} {visit : α → Visit α β} {s : Slots n α}
    {l r : List α} {x y : α} {b : β} (hs : s.cells = l ++ x :: r)
    (hl : ∀ a ∈ l, ∃ c, visit a = .pass c) (hx : visit x = .stop y b) :
    (s.sweep visit).2 = some b := by
  obtain ⟨xs, hxs⟩ := s
  simp only [Slots.sweep] at hs ⊢
  subst hs
  clear hxs
  induction l with
  | nil =>
    rw [List.nil_append, Meshrustic.sweep, hx]
  | cons a l ih =>
    obtain ⟨c, hc⟩ := hl a List.mem_cons_self
    rw [List.cons_append, Meshrustic.sweep, hc]
    exact ih fun a ha => hl a (List.mem_cons_of_mem _ ha)

/-- A cell that every visit leaves as it is. -/
theorem mem_sweep {n : Nat} {α β : Type} {visit : α → Visit α β} {s : Slots n α} {x : α}
    (hx : x ∈ s) (hv : visit x = .pass x) : x ∈ (s.sweep visit).1 := by
  obtain ⟨xs, hxs⟩ := s
  simp only [Slots.sweep, Slots.mem_def] at hx ⊢
  clear hxs
  induction xs with
  | nil => cases hx
  | cons y xs ih =>
    unfold Meshrustic.sweep
    rcases List.mem_cons.mp hx with rfl | hx
    · rw [hv]
      exact List.mem_cons_self
    · split
      · exact List.mem_cons_of_mem _ (ih hx)
      · exact List.mem_cons_of_mem _ hx

/-- A cell after a walk: behind its end, passed, or the one that stopped it. -/
theorem sweep_origin {n : Nat} {α β : Type} {visit : α → Visit α β} {s : Slots n α} {y : α}
    (h : y ∈ (s.sweep visit).1) :
    y ∈ s ∨ ∃ x ∈ s, visit x = .pass y ∨ ∃ b, visit x = .stop y b ∧ (s.sweep visit).2 = some b := by
  obtain ⟨xs, hxs⟩ := s
  simp only [Slots.sweep, Slots.mem_def] at h ⊢
  clear hxs
  induction xs with
  | nil => cases h
  | cons x xs ih =>
    unfold Meshrustic.sweep at h ⊢
    split at h <;> rename_i heq <;> rcases List.mem_cons.mp h with rfl | h
    · exact .inr ⟨x, List.mem_cons_self, .inl heq⟩
    · rcases ih h with h | ⟨z, hz, hv⟩
      · exact .inl (List.mem_cons_of_mem _ h)
      · exact .inr ⟨z, List.mem_cons_of_mem _ hz, hv⟩
    · exact .inr ⟨x, List.mem_cons_self, .inr ⟨_, heq, rfl⟩⟩
    · exact .inl (List.mem_cons_of_mem _ h)

/-! ## Walks in turn -/

section Turns

variable {n : Nat} {α β : Type}

/-- The cells after a walk that ends at `x`. -/
theorem sweep_cells_of_split {visit : α → Visit α β} {s : Slots n α} {l r : List α} {x y : α}
    {b : β}
    (hs : s.cells = l ++ x :: r) (hl : ∀ a ∈ l, ∃ c, visit a = .pass c) (hx : visit x = .stop y b) :
    (s.sweep visit).1.cells = l.map (fun a => (visit a).cell) ++ y :: r := by
  obtain ⟨xs, hxs⟩ := s
  simp only [Slots.sweep] at hs ⊢
  subst hs
  clear hxs
  induction l with
  | nil => rw [List.nil_append, Meshrustic.sweep, hx, List.map_nil, List.nil_append]
  | cons a l ih =>
    obtain ⟨c, hc⟩ := hl a List.mem_cons_self
    have hrest := ih fun a ha => hl a (List.mem_cons_of_mem _ ha)
    rw [List.cons_append, Meshrustic.sweep, hc, List.map_cons, hc, List.cons_append]
    exact congrArg (c :: ·) hrest

/-- Of several walks, which may differ, one ends at the cell `x` that would stop them
all: where a walk ends only at a cell that waits, this cell waits no more, and no cell
begins to, each walk that ends in front of `x` leaves one waiting cell fewer there. -/
theorem Slots.turn {ι : Type} (visit : ι → α → Visit α β) {waits : α → Bool} {walks : List ι}
    {l r : List α} {x : α} {s : Slots n α}
    (hstop : ∀ i ∈ walks, ∀ a y b, visit i a = .stop y b → waits a = true ∧ waits y = false)
    (hpass : ∀ i ∈ walks, ∀ a y, visit i a = .pass y → waits y = true → waits a = true)
    (hx : ∀ i ∈ walks, ∃ y b, visit i x = .stop y b) (hs : s.cells = l ++ x :: r)
    (hmany : l.countP waits < walks.length) :
    ∃ before i after y b, walks = before ++ i :: after ∧ visit i x = .stop y b ∧
      ((before.foldl (fun s i => (s.sweep (visit i)).1) s).sweep (visit i)).2 = some b := by
  induction walks generalizing l s with
  | nil => exact absurd hmany (Nat.not_lt_zero _)
  | cons i walks ih =>
    cases hfirst : l.findIdx? fun a => (visit i a).stops with
    | none =>
      obtain ⟨y, b, hxi⟩ := hx i List.mem_cons_self
      refine ⟨[], i, walks, y, b, rfl, hxi, sweep_of_split hs (fun a ha => ?_) hxi⟩
      exact Visit.pass_of_not_stops (List.findIdx?_eq_none_iff.mp hfirst a ha)
    | some j =>
      obtain ⟨l₁, z, l₂, rfl, hl₁, hz, -⟩ := Slots.split_at hfirst
      obtain ⟨z', b', hvisit⟩ := Visit.stop_of_stops hz
      obtain ⟨hwaits, hdone⟩ := hstop i List.mem_cons_self z z' b' hvisit
      rw [List.append_assoc, List.cons_append] at hs
      have hcells := sweep_cells_of_split hs
        (fun a ha => Visit.pass_of_not_stops (hl₁ a ha)) hvisit
      have hquiet : (l₁.map fun a => (visit i a).cell).countP waits ≤ l₁.countP waits := by
        rw [List.countP_map]
        refine List.countP_mono_left fun a ha hw => ?_
        obtain ⟨c, hc⟩ := Visit.pass_of_not_stops (hl₁ a ha)
        rw [Function.comp_apply, hc] at hw
        exact hpass i List.mem_cons_self a c hc hw
      have hleft : ((l₁.map fun a => (visit i a).cell) ++ z' :: l₂).countP waits <
          walks.length := by
        rw [List.countP_append, List.countP_cons_of_pos hwaits, List.length_cons] at hmany
        rw [List.countP_append, List.countP_cons_of_neg (by simp [hdone])]
        omega
      obtain ⟨before, k, after, y, b, rfl, hk, hturn⟩ := ih
        (fun k hk => hstop k (List.mem_cons_of_mem _ hk))
        (fun k hk => hpass k (List.mem_cons_of_mem _ hk))
        (fun k hk => hx k (List.mem_cons_of_mem _ hk))
        (s := (s.sweep (visit i)).1) (by rw [hcells]; simp) hleft
      exact ⟨i :: before, k, after, y, b, rfl, hk, hturn⟩

end Turns

/-! ## Keys of live cells -/

section Keys

variable {n : Nat} {α κ : Type} (live : α → Bool) (key : α → κ)

def Once (s : Slots n α) : Prop :=
  s.cells.Pairwise fun a b => live a = true → live b = true → key a ≠ key b

def Leading (s : Slots n α) : Prop := s.cells.Pairwise fun a b => live b = true → key a ≠ key b

/-- `y` has the key of `x` and is live only if `x` was. -/
def Calmer (x y : α) : Prop := key y = key x ∧ (live y = true → live x = true)

variable {live key}

theorem Calmer.refl (x : α) : Calmer live key x x := ⟨rfl, id⟩

theorem Calmer.trans {x y z : α} (h : Calmer live key x y) (h' : Calmer live key y z) :
    Calmer live key x z := ⟨h'.1.trans h.1, fun hz => h.2 (h'.2 hz)⟩

/-- Pairs that only liveness and keys decide survive a calmer array. -/
theorem pairwise_calm {P : Bool → κ → Bool → κ → Prop}
    (hP : ∀ {a a' b b' k k'}, (a' = true → a = true) → (b' = true → b = true) →
      P a k b k' → P a' k b' k')
    {xs ys : List α} (h : List.Forall₂ (Calmer live key) xs ys)
    (hxs : xs.Pairwise fun a b => P (live a) (key a) (live b) (key b)) :
    ys.Pairwise fun a b => P (live a) (key a) (live b) (key b) := by
  induction h with
  | nil => exact .nil
  | @cons x y xs ys hxy hrest ih =>
    rw [List.pairwise_cons] at hxs ⊢
    refine ⟨fun b hb => ?_, ih hxs.2⟩
    obtain ⟨a, ha, hab⟩ := forall₂_origin hrest hb
    have := hP hxy.2 hab.2 (hxs.1 a ha)
    rwa [hxy.1, hab.1]

theorem Once.calm {s t : Slots n α} (h : Once live key s) (ht : InPlace (Calmer live key) s t) :
    Once live key t :=
  pairwise_calm (P := fun a k b k' => a = true → b = true → k ≠ k')
    (fun ha hb h h1 h2 => h (ha h1) (hb h2)) ht h

/-- A key has one live cell. -/
theorem Once.eq {s : Slots n α} (h : Once live key s) {x y : α} (hx : x ∈ s) (hy : y ∈ s)
    (hlx : live x = true) (hly : live y = true) (hkey : key x = key y) : x = y := by
  obtain ⟨l, r, hs⟩ := List.append_of_mem hx
  unfold Once at h
  rw [Slots.mem_def, hs, List.mem_append, List.mem_cons] at hy
  rw [hs, List.pairwise_append, List.pairwise_cons] at h
  rcases hy with hy | rfl | hy
  · exact absurd hkey.symm (h.2.2 y hy x List.mem_cons_self hly hlx)
  · rfl
  · exact absurd hkey (h.2.1.1 y hy hlx hly)

theorem Leading.calm {s t : Slots n α} (h : Leading live key s)
    (ht : InPlace (Calmer live key) s t) : Leading live key t :=
  pairwise_calm (P := fun _ k b k' => b = true → k ≠ k') (fun _ hb h h2 => h (hb h2)) ht h

theorem Once.place {free : α → Bool} {a : α} {s t : Slots n α} (h : Once live key s)
    (hnew : ∀ x ∈ s, live x = true → key x ≠ key a) (ht : s.place free a = some t) :
    Once live key t := by
  obtain ⟨l, x, r, hs, _, _, htc⟩ := Slots.place_split ht
  unfold Once at h ⊢
  rw [hs, List.pairwise_append, List.pairwise_cons] at h
  rw [htc, List.pairwise_append, List.pairwise_cons]
  have hmem : ∀ y, y ∈ l ∨ y ∈ r → y ∈ s := by
    intro y hy
    rw [Slots.mem_def, hs]
    simp only [List.mem_append, List.mem_cons]
    tauto
  refine ⟨h.1, ⟨fun b hb _ hlb => (hnew b (hmem b (.inr hb)) hlb).symm, h.2.1.2⟩, ?_⟩
  intro y hy b hb hly hlb
  rcases List.mem_cons.mp hb with rfl | hb
  · exact hnew y (hmem y (.inl hy)) hly
  · exact h.2.2 y hy b (List.mem_cons_of_mem _ hb) hly hlb

/-- The cells in front of the first free one are live, so none of them is a
stale cell with the new key. -/
theorem Leading.place {free : α → Bool} {a : α} {s t : Slots n α} (h : Leading live key s)
    (hfree : ∀ x ∈ s, free x = false → live x = true)
    (hnew : ∀ x ∈ s, live x = true → key x ≠ key a) (ht : s.place free a = some t) :
    Leading live key t := by
  obtain ⟨l, x, r, hs, hl, _, htc⟩ := Slots.place_split ht
  unfold Leading at h ⊢
  rw [hs, List.pairwise_append, List.pairwise_cons] at h
  rw [htc, List.pairwise_append, List.pairwise_cons]
  have hmem : ∀ y, y ∈ l ∨ y ∈ r → y ∈ s := by
    intro y hy
    rw [Slots.mem_def, hs]
    simp only [List.mem_append, List.mem_cons]
    tauto
  refine ⟨h.1, ⟨fun b hb hlb => (hnew b (hmem b (.inr hb)) hlb).symm, h.2.1.2⟩, ?_⟩
  intro y hy b hb hlb
  rcases List.mem_cons.mp hb with rfl | hb
  · exact hnew y (hmem y (.inl hy)) (hfree y (hmem y (.inl hy)) (hl y hy))
  · exact h.2.2 y hy b (List.mem_cons_of_mem _ hb) hlb

theorem Once.all {a : α} (ha : live a = false) : Once live key (Slots.all a : Slots n α) := by
  unfold Once Slots.all
  exact List.pairwise_replicate.mpr (.inr fun h => by rw [ha] at h; cases h)

theorem Leading.all {a : α} (ha : live a = false) :
    Leading live key (Slots.all a : Slots n α) := by
  unfold Leading Slots.all
  exact List.pairwise_replicate.mpr (.inr fun h => by rw [ha] at h; cases h)

/-- The first match by key is the live cell of that key, if there is one. -/
theorem Leading.eq_first {s : Slots n α} (h : Leading live key s) {k : κ} {p : α → Bool}
    (hp : ∀ x, p x = true ↔ key x = k) {x y : α} (hx : s.find? p = some x) (hy : y ∈ s)
    (hlive : live y = true) (hkey : key y = k) : y = x := by
  obtain ⟨hpx, l, r, hs, hl⟩ := List.find?_eq_some_iff_append.mp hx
  unfold Leading at h
  rw [Slots.mem_def, hs, List.mem_append, List.mem_cons] at hy
  rw [hs, List.pairwise_append, List.pairwise_cons] at h
  rcases hy with hy | rfl | hy
  · have := hl y hy
    rw [(hp y).mpr hkey] at this
    cases this
  · rfl
  · exact absurd (((hp x).mp hpx).trans hkey.symm) (h.2.1.1 y hy hlive)

/-- A key has one place for its live cell. -/
theorem Leading.split_unique {xs l l' r r' : List α} {x x' : α}
    (h : xs.Pairwise fun a b => live b = true → key a ≠ key b) (hs : xs = l ++ x :: r)
    (hs' : xs = l' ++ x' :: r') (hx : live x = true) (hx' : live x' = true)
    (hkey : key x = key x') : l = l' := by
  subst hs
  induction l generalizing l' with
  | nil =>
    cases l' with
    | nil => rfl
    | cons a l' =>
      obtain ⟨rfl, hrest⟩ := List.cons.inj hs'
      rw [List.nil_append, List.pairwise_cons] at h
      exact absurd hkey (h.1 x' (by rw [hrest]; simp) hx')
  | cons b l ih =>
    cases l' with
    | nil =>
      obtain ⟨rfl, hrest⟩ := List.cons.inj hs'
      rw [List.cons_append, List.pairwise_cons] at h
      exact absurd hkey.symm (h.1 x (by simp) hx)
    | cons a l' =>
      obtain ⟨rfl, hrest⟩ := List.cons.inj hs'
      rw [List.cons_append, List.pairwise_cons] at h
      rw [ih h.2 hrest]

/-- The first match by key settles every live cell of that key. -/
theorem Leading.changeFirst {s : Slots n α} (h : Leading live key s) {k : κ} {p : α → Bool}
    {f : α → α} (hp : ∀ x, p x = true ↔ key x = k)
    (hf : ∀ x ∈ s, key x = k → live (f x) = false) :
    ∀ y ∈ s.changeFirst p f, live y = true → key y ≠ k := by
  intro y hy hlive hkey
  rcases Slots.changeFirst_split p f s with ⟨heq, hnone⟩ | ⟨l, x, r, hs, hl, hx, ht⟩
  · rw [heq] at hy
    have := hnone y hy
    rw [(hp y).mpr hkey] at this
    cases this
  · rw [Slots.mem_def, ht, List.mem_append, List.mem_cons] at hy
    unfold Leading at h
    rw [hs, List.pairwise_append, List.pairwise_cons] at h
    rcases hy with hy | rfl | hy
    · have := hl y hy
      rw [(hp y).mpr hkey] at this
      cases this
    · rw [hf x (by rw [Slots.mem_def, hs]; simp) ((hp x).mp hx)] at hlive
      cases hlive
    · exact h.2.1.1 y hy hlive (((hp x).mp hx).trans hkey.symm)

end Keys

end Meshrustic
