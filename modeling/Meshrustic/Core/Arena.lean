import Mathlib.Data.List.FinRange
import Mathlib.Logic.Function.Basic
import Mathlib.Tactic.Common
import Meshrustic.Core.LTS

/-!
# Arenas with generations

A fixed number of slots is handed out by handles. A handle names a slot and
the generation it was given out with; each allocation of a slot begins a new
generation, so a handle that outlived its slot's release is good for nothing
once the slot is given out again. Generations are 32-bit counters: this holds
as long as a slot is not given out 2^32 times over.

Results:
* `release_alloc`: giving back what was taken restores the slots in use.
* `run_generation`: a generation counts the allocations of its slot.
* `stale_handle`: a handle to a slot that was given out again finds nothing.
-/
namespace Meshrustic

structure Handle where
  index : Nat
  generation : UInt32
  deriving DecidableEq, Repr

structure Arena (n : Nat) (α : Type) where
  slots : Fin n → α
  used : Fin n → Bool
  generations : Fin n → UInt32

namespace Arena

variable {n : Nat} {α : Type}

def new (empty : α) : Arena n α := ⟨fun _ => empty, fun _ => false, fun _ => 0⟩

/-- The slot a handle is good for. -/
def locate (a : Arena n α) (h : Handle) : Option (Fin n) :=
  if hi : h.index < n then
    if a.used ⟨h.index, hi⟩ && a.generations ⟨h.index, hi⟩ == h.generation then some ⟨h.index, hi⟩
    else none
  else none

def get (a : Arena n α) (h : Handle) : Option α := (a.locate h).map a.slots

def put (a : Arena n α) (h : Handle) (x : α) : Arena n α :=
  match a.locate h with
  | some i => { a with slots := Function.update a.slots i x }
  | none => a

def release (a : Arena n α) (h : Handle) : Arena n α :=
  match a.locate h with
  | some i => { a with used := Function.update a.used i false }
  | none => a

def firstFree (a : Arena n α) : Option (Fin n) := (List.finRange n).find? fun i => !a.used i

/-- Takes slot `i`, emptied, and begins its next generation. -/
def take (a : Arena n α) (empty : α) (i : Fin n) : Handle × Arena n α :=
  (⟨i.val, a.generations i + 1⟩,
    { slots := Function.update a.slots i empty
      used := Function.update a.used i true
      generations := Function.update a.generations i (a.generations i + 1) })

def alloc (a : Arena n α) (empty : α) : Option (Handle × Arena n α) :=
  a.firstFree.map (a.take empty)

theorem locate_eq_some {a : Arena n α} {h : Handle} {i : Fin n} :
    a.locate h = some i ↔
      h.index = i.val ∧ a.used i = true ∧ a.generations i = h.generation := by
  unfold locate
  constructor
  · intro heq
    split at heq
    · split at heq
      · rename_i hok
        cases heq
        simpa using hok
      · cases heq
    · cases heq
  · rintro ⟨hi, hu, hg⟩
    have hlt : h.index < n := hi ▸ i.isLt
    have hfin : (⟨h.index, hlt⟩ : Fin n) = i := Fin.ext hi
    rw [dif_pos hlt, hfin]
    simp [hu, hg]

theorem firstFree_some {a : Arena n α} {i : Fin n} (h : a.firstFree = some i) : a.used i = false := by
  have := List.find?_some h
  simpa using this

/-- A handle is good for the slot that it was given out with. -/
theorem locate_take (a : Arena n α) (empty : α) (i : Fin n) :
    (a.take empty i).2.locate (a.take empty i).1 = some i := by
  rw [locate_eq_some]
  simp [take]

theorem locate_alloc {a b : Arena n α} {empty : α} {h : Handle}
    (halloc : a.alloc empty = some (h, b)) : ∃ i, b.locate h = some i ∧ a.used i = false ∧
      b.used = Function.update a.used i true := by
  obtain ⟨i, hfree, heq⟩ := Option.map_eq_some_iff.mp halloc
  have hloc := a.locate_take empty i
  rw [heq] at hloc
  cases heq
  exact ⟨i, hloc, firstFree_some hfree, rfl⟩

theorem locate_put (a : Arena n α) (h h' : Handle) (x : α) :
    (a.put h x).locate h' = a.locate h' := by
  unfold put
  split <;> rfl

theorem put_used (a : Arena n α) (h : Handle) (x : α) : (a.put h x).used = a.used := by
  unfold put
  split <;> rfl

theorem get_put {a : Arena n α} {h : Handle} {i : Fin n} (hl : a.locate h = some i) (x : α) :
    (a.put h x).get h = some x := by
  unfold get
  rw [locate_put, hl, put, hl]
  simp

/-- Giving back the slot just taken, used or not, restores the slots in use. -/
theorem release_alloc {a b : Arena n α} {empty : α} {h : Handle}
    (halloc : a.alloc empty = some (h, b)) (x : α) : ((b.put h x).release h).used = a.used := by
  obtain ⟨i, hloc, hfree, hused⟩ := locate_alloc halloc
  unfold release
  rw [locate_put, hloc]
  change Function.update (b.put h x).used i false = a.used
  rw [put_used, hused, Function.update_idem, ← hfree, Function.update_eq_self]

/-! ## Runs -/

inductive Call (α : Type) where
  | alloc (result : Option Handle)
  | release (h : Handle)
  | put (h : Handle) (x : α)

/-- An arena under any calls, with any handles. -/
def calls (n : Nat) (empty : α) : LTS (Arena n α) (Call α) where
  init a := a = .new empty
  step a c b := match c with
    | .alloc none => a.alloc empty = none ∧ b = a
    | .alloc (some h) => a.alloc empty = some (h, b)
    | .release h => b = a.release h
    | .put h x => b = a.put h x

/-- Gives out slot `i`. -/
def Call.gives (i : Fin n) : Call α → Bool
  | .alloc (some h) => h.index == i.val
  | _ => false

/-- How often slot `i` is given out. -/
def allocations (i : Fin n) (cs : List (Call α)) : Nat := cs.countP (Call.gives i)

theorem release_generations (a : Arena n α) (h : Handle) :
    (a.release h).generations = a.generations := by
  unfold release
  split <;> rfl

theorem put_generations (a : Arena n α) (h : Handle) (x : α) :
    (a.put h x).generations = a.generations := by
  unfold put
  split <;> rfl

theorem step_generation {empty : α} {a b : Arena n α} {c : Call α}
    (h : (calls n empty).step a c b) (i : Fin n) :
    b.generations i = a.generations i + if c.gives i then 1 else 0 := by
  match c, h with
  | .alloc none, h => rw [h.2]; simp [Call.gives]
  | .release g, h =>
    have hb : b = a.release g := h
    rw [hb, release_generations]
    simp [Call.gives]
  | .put g x, h =>
    have hb : b = a.put g x := h
    rw [hb, put_generations]
    simp [Call.gives]
  | .alloc (some g), h =>
    obtain ⟨j, _, heq⟩ := Option.map_eq_some_iff.mp (h : a.alloc empty = some (g, b))
    cases heq
    by_cases hij : j = i
    · subst hij
      simp [Call.gives]
    · have hval : ¬ (j.val = i.val) := fun h => hij (Fin.ext h)
      simp [Call.gives, Function.update_of_ne (Ne.symm hij), hval]

/-- A generation counts the allocations of its slot. -/
theorem run_generation {empty : α} {a b : Arena n α} {cs : List (Call α)}
    (hr : (calls n empty).Run a cs b) (i : Fin n) :
    b.generations i = a.generations i + UInt32.ofNat (allocations i cs) := by
  induction hr with
  | nil _ => simp [allocations]
  | @cons a b d c cs hs _ ih =>
    rw [ih, step_generation hs i, allocations, allocations, List.countP_cons]
    split
    · rw [UInt32.add_assoc, UInt32.add_comm 1, UInt32.ofNat_add]
      rfl
    · simp

/-- After its slot was given out again, a handle finds nothing, unless the
generations have gone full circle. -/
theorem stale_handle {empty : α} {a b d : Arena n α} {h : Handle} {i : Fin n} {cs : List (Call α)}
    (halloc : (calls n empty).step a (.alloc (some h)) b) (hr : (calls n empty).Run b cs d)
    (hi : h.index = i.val) (hpos : 0 < allocations i cs) (hlt : allocations i cs < UInt32.size) :
    d.locate h = none := by
  have hgen : b.generations i = h.generation := by
    obtain ⟨j, _, heq⟩ := Option.map_eq_some_iff.mp (halloc : a.alloc empty = some (h, b))
    cases heq
    have : j = i := Fin.ext hi
    subst this
    simp
  cases hl : d.locate h with
  | none => rfl
  | some j =>
    exfalso
    obtain ⟨hj, _, hgj⟩ := locate_eq_some.mp hl
    have : j = i := Fin.ext (hj.symm.trans hi)
    subst this
    rw [run_generation hr j, hgen] at hgj
    have hnat := congrArg UInt32.toNat hgj
    rw [UInt32.toNat_add, UInt32.toNat_ofNat_of_lt' hlt] at hnat
    have hbound := h.generation.toNat_lt
    have hsize : UInt32.size = 4294967296 := rfl
    omega

/-- What is not located is neither read, written nor given back. -/
theorem of_locate_none {a : Arena n α} {h : Handle} (hl : a.locate h = none) :
    a.get h = none ∧ a.release h = a ∧ ∀ x, a.put h x = a := by
  unfold get release put
  rw [hl]
  exact ⟨rfl, rfl, fun _ => rfl⟩

end Arena

end Meshrustic
