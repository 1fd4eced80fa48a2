import Mathlib.Tactic.Common

/-!
# Labelled transition systems

Every stateful component of the node is a transition system: its labels are
the calls the firmware makes on it, its states carry the component's own
fields and, where a property speaks of the past, ghost fields beside them.

* `LTS.Run`: a finite run, with the list of labels it took.
* `LTS.Inductive`: an invariant, given as its two proof obligations;
  `Inductive.reachable` is the induction over runs, done once here.
* `LTS.Inductive.and`: strengthening one invariant by another that is already
  known, so that large invariants are proved in parts.
* `answers_refine`: two systems that answer each call alike from related states answer
  every sequence of calls alike.
-/
namespace Meshrustic

/-- A transition system over states `S` and labels `L`. -/
structure LTS (S L : Type) where
  init : S → Prop
  step : S → L → S → Prop

namespace LTS

variable {S L : Type} {M : LTS S L}

/-- The runs all of whose steps meet a condition. -/
def restrict (M : LTS S L) (C : S → L → Prop) : LTS S L where
  init := M.init
  step s l t := C s l ∧ M.step s l t

/-- `Run M s ls t`: from `s`, the steps labelled `ls` lead to `t`. -/
inductive Run (M : LTS S L) : S → List L → S → Prop where
  | nil (s : S) : Run M s [] s
  | cons {s t u : S} {l : L} {ls : List L} (hs : M.step s l t) (hr : Run M t ls u) :
      Run M s (l :: ls) u

/-- Reached by some run from some initial state. -/
def Reachable (M : LTS S L) (t : S) : Prop := ∃ s ls, M.init s ∧ Run M s ls t

/-- The two obligations of an invariant. -/
structure Inductive (M : LTS S L) (I : S → Prop) : Prop where
  init : ∀ s, M.init s → I s
  step : ∀ s l t, I s → M.step s l t → I t

/-- A run keeps whatever each of its steps keeps. -/
theorem Run.preserves {I : S → Prop} (hstep : ∀ s l t, I s → M.step s l t → I t)
    {s t : S} {ls : List L} (hr : Run M s ls t) (hs : I s) : I t := by
  induction hr with
  | nil _ => exact hs
  | cons h _ ih => exact ih (hstep _ _ _ hs h)

/-- Along a run whose labels all satisfy `P`, an invariant of such steps gives
what it says about each of the labels. -/
theorem Run.labels {I : S → Prop} {P Q : L → Prop}
    (hstep : ∀ s l t, I s → P l → M.step s l t → I t ∧ Q l) {s t : S} {ls : List L}
    (hr : Run M s ls t) (hs : I s) (hP : ∀ l ∈ ls, P l) : I t ∧ ∀ l ∈ ls, Q l := by
  induction hr with
  | nil _ => exact ⟨hs, fun l hl => absurd hl List.not_mem_nil⟩
  | @cons s t u l ls h _ ih =>
    obtain ⟨ht, hl⟩ := hstep s l t hs (hP l List.mem_cons_self) h
    obtain ⟨hu, hls⟩ := ih ht fun l hl => hP l (List.mem_cons_of_mem _ hl)
    exact ⟨hu, List.forall_mem_cons.mpr ⟨hl, hls⟩⟩

theorem Inductive.reachable {I : S → Prop} (h : M.Inductive I) {t : S} (ht : M.Reachable t) :
    I t := by
  obtain ⟨s, ls, hi, hr⟩ := ht
  exact hr.preserves h.step (h.init s hi)

/-- `J` may be shown with `I` at hand on both sides of a step. -/
theorem Inductive.and {I J : S → Prop} (hI : M.Inductive I)
    (hinit : ∀ s, M.init s → J s)
    (hstep : ∀ s l t, I s → I t → J s → M.step s l t → J t) :
    M.Inductive (fun s => I s ∧ J s) where
  init s hs := ⟨hI.init s hs, hinit s hs⟩
  step s l t h hs := ⟨hI.step s l t h.1 hs, hstep s l t h.1 (hI.step s l t h.1 hs) h.2 hs⟩

theorem Run.snoc {s t u : S} {l : L} {ls : List L} (hr : Run M s ls t) (hs : M.step t l u) :
    Run M s (ls ++ [l]) u := by
  induction hr with
  | nil _ => exact .cons hs (.nil _)
  | cons h _ ih => exact .cons h (ih hs)

/-- Each label meets `C` when its turn comes. -/
def Along (next : S → L → S) (C : S → L → Prop) : S → List L → Prop
  | _, [] => True
  | s, l :: ls => C s l ∧ Along next C (next s l) ls

instance decidableAlong {next : S → L → S} {C : S → L → Prop} [∀ s l, Decidable (C s l)] :
    (s : S) → (ls : List L) → Decidable (Along next C s ls)
  | _, [] => isTrue trivial
  | s, l :: ls =>
    @instDecidableAnd (C s l) (Along next C (next s l) ls) inferInstance
      (decidableAlong (next s l) ls)

/-- The run of a system whose steps are a function. -/
theorem run_foldl {next : S → L → S} {C : S → L → Prop}
    (hstep : ∀ s l, C s l → M.step s l (next s l)) {s : S} {ls : List L}
    (h : Along next C s ls) : Run M s ls (ls.foldl next s) := by
  induction ls generalizing s with
  | nil => exact .nil s
  | cons l ls ih => exact .cons (hstep s l h.1) (ih h.2)

/-- And where no label is refused, its only run. -/
theorem run_iff_foldl {next : S → L → S} (hstep : ∀ s l t, M.step s l t ↔ t = next s l) {s t : S}
    {ls : List L} : Run M s ls t ↔ ls.foldl next s = t := by
  constructor
  · intro h
    induction h with
    | nil s => rfl
    | cons hs _ ih => rw [List.foldl_cons, ← (hstep _ _ _).mp hs, ih]
  · rintro rfl
    induction ls generalizing s with
    | nil => exact .nil s
    | cons l ls ih => exact .cons ((hstep s l _).mpr rfl) ih

theorem Run.append {s t u : S} {ls ls' : List L} (hr : Run M s ls t) (hr' : Run M t ls' u) :
    Run M s (ls ++ ls') u := by
  induction hr with
  | nil _ => exact hr'
  | cons h _ ih => exact .cons h (ih hr')

theorem Reachable.step {s t : S} {l : L} (h : M.Reachable s) (hs : M.step s l t) :
    M.Reachable t := by
  obtain ⟨s0, ls, hi, hr⟩ := h
  exact ⟨s0, ls ++ [l], hi, hr.snoc hs⟩

theorem Reachable.of_restrict {C : S → L → Prop} {t : S} (h : (M.restrict C).Reachable t) :
    M.Reachable t := by
  obtain ⟨s, ls, hi, hr⟩ := h
  refine ⟨s, ls, hi, ?_⟩
  clear hi
  induction hr with
  | nil s => exact .nil s
  | cons hs _ ih => exact .cons hs.2 ih

/-- A run given by a list of inputs, each of which is one step. -/
theorem Reachable.foldl {K : Type} {next : S → K → S} {C : S → K → Prop}
    (hstep : ∀ s k, C s k → ∃ l, M.step s l (next s k)) {s : S} (hs : M.Reachable s)
    {ks : List K} (h : Along next C s ks) : M.Reachable (ks.foldl next s) := by
  induction ks generalizing s with
  | nil => exact hs
  | cons k ks ih =>
    obtain ⟨l, hl⟩ := hstep s k h.1
    exact ih (hs.step hl) h.2

end LTS

/-! ## Calls that answer -/

/-- Calls one after the other, and what they answer. -/
def answers {S C A : Type} (next : S → C → A × S) : S → List C → List A × S
  | s, [] => ([], s)
  | s, c :: cs =>
    let first := next s c
    let rest := answers next first.2 cs
    (first.1 :: rest.1, rest.2)

/-- Two systems that answer alike from related states, over whole sequences of calls. -/
theorem answers_refine {S T C A : Type} {R : S → T → Prop} {next : S → C → A × S}
    {next' : T → C → A × T}
    (h : ∀ s t c, R s t → (next s c).1 = (next' t c).1 ∧ R (next s c).2 (next' t c).2)
    {s : S} {t : T} (hst : R s t) (cs : List C) :
    (answers next s cs).1 = (answers next' t cs).1 ∧
      R (answers next s cs).2 (answers next' t cs).2 := by
  induction cs generalizing s t with
  | nil => exact ⟨rfl, hst⟩
  | cons c cs ih =>
    obtain ⟨hanswer, hnext⟩ := h s t c hst
    obtain ⟨hrest, hlast⟩ := ih hnext
    exact ⟨by simp only [answers, hanswer, hrest], hlast⟩

end Meshrustic
