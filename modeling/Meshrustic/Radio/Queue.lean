import Meshrustic.Core.LTS
import Meshrustic.Radio.Slot

/-!
# The queues of a radio (`mesh-radio/src/queue.rs`)

Two rings of frames, one for what is to be sent and one for what was heard. Beside them
stands what they are for: a list that never holds more than `n` frames.

A caller drops queued frames by a predicate that may count, log or change its mind, so a
predicate is a function of a memory, which the calls hand on from one to the next.

Results:
* `TxQueue.next_refines`, `RxQueue.next_refines`: a call answers as the list does and
  leaves what the list leaves.
* `queues_refine_lists`: so does every sequence of calls.
-/
namespace Meshrustic.Radio

/-- mirrors crates/mesh-radio/src/queue.rs:6-10 -/
inductive QueueError where
  | full | empty
  deriving DecidableEq, Repr

/-- A call on the transmit queue; `σ` is the memory of the predicates. -/
inductive TxQueue.Call (σ : Type) where
  | push (frame : TxFrame)
  | pushFront (frame : TxFrame)
  | pop
  | front
  | removeWhere (drop : σ → TxFrame → Bool × σ)

inductive TxQueue.Answer where
  | pushed (result : Except QueueError Unit)
  | popped (result : Except QueueError TxFrame)
  | front (frame : Option TxFrame)
  | removed (count : Nat)

inductive RxQueue.Call where
  | push (frame : RxFrame)
  | pop

inductive RxQueue.Answer where
  | pushed (result : Except QueueError Unit)
  | popped (result : Except QueueError RxFrame)

section

variable {n : Nat} {σ : Type}

/-! ## The rings -/

/-- What a push answers, and the queue, which a refused push leaves as it was.
mirrors crates/mesh-radio/src/queue.rs:43-51, 114-132 -/
def pushedOr {α : Type} (q : Ring n α) : Option (Ring n α) → Except QueueError Unit × Ring n α
  | some q => (.ok (), q)
  | none => (.error .full, q)

/-- mirrors crates/mesh-radio/src/queue.rs:53-61, 165-173 -/
def poppedOr {α : Type} (q : Ring n α) : Option (α × Ring n α) → Except QueueError α × Ring n α
  | some (x, q) => (.ok x, q)
  | none => (.error .empty, q)

/-- mirrors crates/mesh-radio/src/queue.rs:64-174 -/
def TxQueue.next (s : Ring n TxFrame × σ) : TxQueue.Call σ → TxQueue.Answer × (Ring n TxFrame × σ)
  | .push frame =>
    let out := pushedOr s.1 (s.1.push frame)
    (.pushed out.1, out.2, s.2)
  | .pushFront frame =>
    let out := pushedOr s.1 (s.1.pushFront frame)
    (.pushed out.1, out.2, s.2)
  | .pop =>
    let out := poppedOr s.1 s.1.pop
    (.popped out.1, out.2, s.2)
  | .front => (.front s.1.front, s)
  | .removeWhere drop =>
    let out := s.1.removeWhereMut drop s.2
    (.removed out.1.2, out.1.1, out.2)

/-- mirrors crates/mesh-radio/src/queue.rs:12-62 -/
def RxQueue.next (q : Ring n RxFrame) : RxQueue.Call → RxQueue.Answer × Ring n RxFrame
  | .push frame =>
    let out := pushedOr q (q.push frame)
    (.pushed out.1, out.2)
  | .pop =>
    let out := poppedOr q q.pop
    (.popped out.1, out.2)

/-! ## Bounded lists -/

/-- A frame joins a list that has room for it. -/
def joined {α : Type} (n : Nat) (xs xs' : List α) : Except QueueError Unit × List α :=
  if xs.length = n then (.error .full, xs) else (.ok (), xs')

/-- The oldest frame leaves. -/
def left {α : Type} : List α → Except QueueError α × List α
  | [] => (.error .empty, [])
  | x :: xs => (.ok x, xs)

def TxList.next (n : Nat) (s : List TxFrame × σ) : TxQueue.Call σ → TxQueue.Answer × (List TxFrame × σ)
  | .push frame => (.pushed (joined n s.1 (s.1 ++ [frame])).1, (joined n s.1 (s.1 ++ [frame])).2, s.2)
  | .pushFront frame => (.pushed (joined n s.1 (frame :: s.1)).1, (joined n s.1 (frame :: s.1)).2, s.2)
  | .pop => (.popped (left s.1).1, (left s.1).2, s.2)
  | .front => (.front s.1.head?, s)
  | .removeWhere drop =>
    let kept := Ring.sieve drop s.2 s.1
    (.removed (s.1.length - kept.1.length), kept.1, kept.2)

def RxList.next (n : Nat) (xs : List RxFrame) : RxQueue.Call → RxQueue.Answer × List RxFrame
  | .push frame => (.pushed (joined n xs (xs ++ [frame])).1, (joined n xs (xs ++ [frame])).2)
  | .pop => (.popped (left xs).1, (left xs).2)

/-! ## The rings answer as the lists do -/

section Joins

variable {α : Type} {q : Ring n α}

theorem pushedOr_refines {xs : List α} {pushed : Option (Ring n α)}
    (hroom : pushed.isSome = !q.isFull) (hlist : ∀ q', pushed = some q' → q'.toList = xs) :
    (pushedOr q pushed).1 = (joined n q.toList xs).1 ∧
      (pushedOr q pushed).2.toList = (joined n q.toList xs).2 := by
  unfold joined
  rw [Ring.length_toList]
  cases pushed with
  | none =>
    have hfull : q.len = n := by simpa [Ring.isFull] using hroom.symm
    simp [pushedOr, hfull]
  | some q' =>
    have hfull : q.len ≠ n := by simpa [Ring.isFull] using hroom.symm
    simp [pushedOr, hfull, hlist q' rfl]

theorem poppedOr_refines :
    (poppedOr q q.pop).1 = (left q.toList).1 ∧ (poppedOr q q.pop).2.toList = (left q.toList).2 := by
  cases hpop : q.pop with
  | none =>
    rw [poppedOr, Ring.pop_eq_none.mp hpop]
    exact ⟨rfl, rfl⟩
  | some out =>
    obtain ⟨x, q'⟩ := out
    rw [Ring.toList_pop hpop]
    exact ⟨rfl, rfl⟩

end Joins

/-- The ring holds the list, and the predicates remember the same. -/
def TxQueue.Holds (s : Ring n TxFrame × σ) (t : List TxFrame × σ) : Prop :=
  s.1.toList = t.1 ∧ s.2 = t.2

theorem TxQueue.next_refines (s : Ring n TxFrame × σ) (t : List TxFrame × σ) (c : TxQueue.Call σ)
    (h : TxQueue.Holds s t) :
    (TxQueue.next s c).1 = (TxList.next n t c).1 ∧
      TxQueue.Holds (TxQueue.next s c).2 (TxList.next n t c).2 := by
  obtain ⟨q, m⟩ := s
  obtain ⟨xs, m'⟩ := t
  obtain ⟨rfl, rfl⟩ := h
  cases c with
  | push frame =>
    obtain ⟨hanswer, hlist⟩ := pushedOr_refines (Ring.push_isSome (x := frame)) fun _ => Ring.toList_push
    exact ⟨congrArg _ hanswer, hlist, rfl⟩
  | pushFront frame =>
    obtain ⟨hanswer, hlist⟩ :=
      pushedOr_refines (Ring.pushFront_isSome (x := frame)) fun _ => Ring.toList_pushFront
    exact ⟨congrArg _ hanswer, hlist, rfl⟩
  | pop =>
    obtain ⟨hanswer, hlist⟩ := poppedOr_refines (q := q)
    exact ⟨congrArg _ hanswer, hlist, rfl⟩
  | front => exact ⟨congrArg _ Ring.front_eq_head?, rfl, rfl⟩
  | removeWhere drop =>
    obtain ⟨hlist, hcount, hm⟩ := Ring.removeWhereMut_spec (r := q) drop m
    refine ⟨congrArg TxQueue.Answer.removed ?_, hlist, hm⟩
    exact Nat.eq_sub_of_add_eq hcount

theorem RxQueue.next_refines (q : Ring n RxFrame) (xs : List RxFrame) (c : RxQueue.Call)
    (h : q.toList = xs) :
    (RxQueue.next q c).1 = (RxList.next n xs c).1 ∧
      (RxQueue.next q c).2.toList = (RxList.next n xs c).2 := by
  subst h
  cases c with
  | push frame =>
    obtain ⟨hanswer, hlist⟩ := pushedOr_refines (Ring.push_isSome (x := frame)) fun _ => Ring.toList_push
    exact ⟨congrArg _ hanswer, hlist⟩
  | pop =>
    obtain ⟨hanswer, hlist⟩ := poppedOr_refines (q := q)
    exact ⟨congrArg _ hanswer, hlist⟩

end

/-- The two queues, from new on, are lists of at most `n` frames, wherever their heads
have come to stand. -/
theorem queues_refine_lists (n : Nat) :
    (∀ (σ : Type) (m : σ) (calls : List (TxQueue.Call σ)),
      let ring := answers TxQueue.next ((.new .empty : Ring n TxFrame), m) calls
      let list := answers (TxList.next n) ([], m) calls
      ring.1 = list.1 ∧ ring.2.1.toList = list.2.1 ∧ ring.2.2 = list.2.2 ∧ list.2.1.length ≤ n ∧
        ring.2.1.tail = (ring.2.1.head + list.2.1.length) % n) ∧
    ∀ calls : List RxQueue.Call,
      let ring := answers RxQueue.next (.new .empty : Ring n RxFrame) calls
      let list := answers (RxList.next n) [] calls
      ring.1 = list.1 ∧ ring.2.toList = list.2 ∧ list.2.length ≤ n ∧
        ring.2.tail = (ring.2.head + list.2.length) % n := by
  refine ⟨fun σ m calls => ?_, fun calls => ?_⟩
  · have hnew : TxQueue.Holds ((.new .empty : Ring n TxFrame), m) ([], m) := ⟨rfl, rfl⟩
    obtain ⟨hanswers, hlist, hm⟩ := answers_refine TxQueue.next_refines hnew calls
    refine ⟨hanswers, hlist, hm, ?_, ?_⟩
    · rw [← hlist, Ring.length_toList]
      exact Ring.len_le _
    · rw [← hlist, Ring.length_toList]
      exact Ring.tail_eq _
  · obtain ⟨hanswers, hlist⟩ := answers_refine (R := fun (q : Ring n RxFrame) xs => q.toList = xs) RxQueue.next_refines
      (Ring.toList_new RxFrame.empty (n := n)) calls
    refine ⟨hanswers, hlist, ?_, ?_⟩
    · rw [← hlist, Ring.length_toList]
      exact Ring.len_le _
    · rw [← hlist, Ring.length_toList]
      exact Ring.tail_eq _

end Meshrustic.Radio
