import Meshrustic.Topology.Stale
import Meshrustic.Core.LTS

/-!
# Reassembly of chunked lists

Four slots gather the ids of lists whose chunks are still coming. Chunks get
lost, repeat, overtake each other and mix with those of other senders; the
sweep must only run on a list that was heard from its first chunk to its last.

* `Gathers`: which of the calls so far make up the list in hand, by the order
  in which they came;
* `Slots.Inv`: every slot in use holds exactly such a list, and no sender has
  two;
* `sweep_after_whole_list`: over every run in which no first chunk is dropped
  beyond the horizon while a list of its sender is in hand, the sweep runs at
  the last chunk of a list that came whole and in order, with its ids.
-/
namespace Meshrustic.Topology

def Call.ids (c : Call) : List UInt32 := c.neighbors.map (·.nodeId)

/-! ## One chunk -/

section

variable {slots : Slots PENDING_LISTED_SLOTS PendingListed} {c : Call}

/-- A slot that is still valid has taken every id. -/
theorem foldl_add {p : PendingListed} {ids : List UInt32}
    (h : (ids.foldl PendingListed.add p).valid = true) :
    p.valid = true ∧ (ids.foldl PendingListed.add p).ids.rows = p.ids.rows ++ ids ∧
      (ids.foldl PendingListed.add p).sender = p.sender ∧
      (ids.foldl PendingListed.add p).version = p.version ∧
      (ids.foldl PendingListed.add p).nextChunk = p.nextChunk := by
  induction ids generalizing p with
  | nil => exact ⟨h, (List.append_nil _).symm, rfl, rfl, rfl⟩
  | cons id ids ih =>
    rw [List.foldl_cons] at h ⊢
    obtain ⟨hvalid, hrows, hsender, hversion, hnext⟩ := ih h
    cases hpush : p.ids.push id with
    | none =>
      have hadd : p.add id = { p with valid := false } := by
        unfold PendingListed.add
        rw [hpush]
      rw [hadd] at hvalid
      cases hvalid
    | some t =>
      have hadd : p.add id = { p with ids := t } := by
        unfold PendingListed.add
        rw [hpush]
      rw [hadd] at hvalid hrows hsender hversion hnext ⊢
      refine ⟨hvalid, ?_, hsender, hversion, hnext⟩
      rw [hrows, Table.push_rows hpush, List.append_assoc]
      rfl

/-- What `c` makes of a list: its first chunk, or the next one after those in a
slot; with the ids and the number of the chunk after it. -/
inductive Grows (slots : Slots PENDING_LISTED_SLOTS PendingListed) (c : Call) :
    List UInt32 → UInt8 → Prop where
  | first (hc : c.header.continuation = false) (hi : c.header.chunkIndex = 0) :
      Grows slots c c.ids 1
  | next {j : Nat} {p : PendingListed} (hc : c.header.continuation = true)
      (hj : slots.cells[j]? = some p) (hvalid : p.valid = true) (hsender : p.sender = c.sender)
      (hversion : p.version = c.received) (hi : c.header.chunkIndex = p.nextChunk) :
      Grows slots c (p.ids.rows ++ c.ids) (p.nextChunk + 1)

/-- Two slots in use are of two senders. -/
def OneEach (slots : Slots PENDING_LISTED_SLOTS PendingListed) : Prop :=
  ∀ (i j : Nat) (p q : PendingListed), slots.cells[i]? = some p → slots.cells[j]? = some q →
    p.valid = true → q.valid = true → p.sender = q.sender → i = j

/-- What a chunk leaves in the slots: slot `i` at most has changed, no other
slot in use is of its sender, and slot `i`, if still in use, has grown by it. -/
structure Filled (slots slots' : Slots PENDING_LISTED_SLOTS PendingListed) (c : Call) (i : Nat) :
    Prop where
  others : ∀ (j : Nat) (q : PendingListed), j ≠ i → slots'.cells[j]? = some q → q.valid = true →
    slots.cells[j]? = some q ∧ q.sender ≠ c.sender
  here : ∀ q : PendingListed, slots'.cells[i]? = some q → q.valid = true →
    q.sender = c.sender ∧ q.version = c.received ∧ c.header.moreChunks = true ∧
      Grows slots c q.ids.rows q.nextChunk

/-- The chunk is the next one of the list in slot `p`. -/
def Enters (p : PendingListed) (c : Call) : Prop :=
  p.valid = true ∧ p.sender = c.sender ∧ p.version = c.received ∧
    (c.header.continuation = true → c.header.chunkIndex = p.nextChunk)

theorem enters_iff (p : PendingListed) :
    (p.valid && p.sender == c.sender && p.version == c.received &&
      (!c.header.continuation || c.header.chunkIndex == p.nextChunk)) = true ↔ Enters p c := by
  unfold Enters
  cases c.header.continuation <;> simp [and_assoc]

/-- What `fillSlot` does to slot `i`, which holds `p`, and what it hands out. -/
theorem fillSlot_spec {i : Nat} {p : PendingListed} (hp : slots.cells[i]? = some p) :
    (∀ j, j ≠ i → (fillSlot slots i c).1.cells[j]? = slots.cells[j]?) ∧
    (∀ q, (fillSlot slots i c).1.cells[i]? = some q → q.valid = true →
      (Enters p c ∧ c.header.moreChunks = true ∧ q.sender = p.sender ∧ q.version = p.version ∧
        q.ids.rows = p.ids.rows ++ c.ids ∧
        q.nextChunk = if c.header.continuation then p.nextChunk + 1 else p.nextChunk) ∨
      (¬ Enters p c ∧ c.header.continuation = false ∧ q = p)) ∧
    (∀ ids, (fillSlot slots i c).2 = some ids →
      Enters p c ∧ c.header.moreChunks = false ∧ ids = p.ids.rows ++ c.ids) := by
  have hi : i < slots.cells.length := (List.getElem?_eq_some_iff.mp hp).1
  have hset : ∀ x : PendingListed, (slots.set i x).cells[i]? = some x :=
    fun x => List.getElem?_set_self hi
  have hother : ∀ (x : PendingListed) j, j ≠ i → (slots.set i x).cells[j]? = slots.cells[j]? :=
    fun x j hj => List.getElem?_set_ne hj.symm
  unfold fillSlot
  rw [hp]
  dsimp only
  by_cases henters : Enters p c
  · rw [if_pos ((enters_iff p).mpr henters)]
    generalize hp' : (if c.header.continuation = true then { p with nextChunk := p.nextChunk + 1 }
      else p) = p'
    have hfields : p'.valid = p.valid ∧ p'.ids = p.ids ∧ p'.sender = p.sender ∧
        p'.version = p.version ∧
        p'.nextChunk = if c.header.continuation then p.nextChunk + 1 else p.nextChunk := by
      rw [← hp']
      split <;> exact ⟨rfl, rfl, rfl, rfl, rfl⟩
    have hadd := @foldl_add p' (c.neighbors.map (·.nodeId))
    cases hmore : c.header.moreChunks with
    | true =>
      refine ⟨hother _, ?_, ?_⟩
      · intro q hq hvalid
        simp only [Bool.not_true, Bool.false_eq_true, if_false] at hq
        rw [hset, Option.some.injEq] at hq
        subst hq
        obtain ⟨-, hrows, hsender, hversion, hnext⟩ := hadd hvalid
        refine .inl ⟨henters, rfl, hsender.trans hfields.2.2.1, hversion.trans hfields.2.2.2.1, ?_,
          hnext.trans hfields.2.2.2.2⟩
        rw [hrows, hfields.2.1]
        rfl
      · intro ids hids
        cases hids
    | false =>
      refine ⟨hother _, ?_, ?_⟩
      · intro q hq hvalid
        simp only [Bool.not_false, if_true] at hq
        rw [hset, Option.some.injEq] at hq
        rw [← hq] at hvalid
        cases hvalid
      · intro ids hids
        simp only [Bool.not_false, if_true] at hids
        split at hids
        · rename_i hvalid
          rw [Option.some.injEq] at hids
          obtain ⟨-, hrows, -⟩ := hadd hvalid
          refine ⟨henters, rfl, ?_⟩
          rw [← hids, hrows, hfields.2.1]
          rfl
        · cases hids
  · rw [if_neg (fun h => henters ((enters_iff p).mp h))]
    cases hc : c.header.continuation with
    | true =>
      refine ⟨hother _, ?_, ?_⟩
      · intro q hq hvalid
        simp only [if_true] at hq
        rw [hset, Option.some.injEq] at hq
        rw [← hq] at hvalid
        cases hvalid
      · intro ids hids
        cases hids
    | false =>
      refine ⟨fun _ _ => rfl, ?_, ?_⟩
      · intro q hq _
        simp only [Bool.false_eq_true, if_false] at hq
        rw [hp, Option.some.injEq] at hq
        exact .inr ⟨henters, rfl, hq.symm⟩
      · intro ids hids
        cases hids

/-- The slot a first chunk takes is its sender's, if that has one. -/
theorem pendingListedSlot_own {j : Nat} {q : PendingListed} {sender : UInt32}
    (hone : OneEach slots) (hq : slots.cells[j]? = some q) (hvalid : q.valid = true)
    (hsender : q.sender = sender) : pendingListedSlot slots sender = j := by
  unfold pendingListedSlot
  cases hf : slots.cells.findIdx? fun p => p.valid && p.sender == sender with
  | none =>
    have hnone := List.findIdx?_eq_none_iff.mp hf q (List.mem_of_getElem? hq)
    rw [hvalid, hsender] at hnone
    simp at hnone
  | some i =>
    obtain ⟨hi, hp, -⟩ := List.findIdx?_eq_some_iff_getElem.mp hf
    rw [Bool.and_eq_true, beq_iff_eq] at hp
    exact hone i j _ q (List.getElem?_eq_getElem hi) hq hp.1 hvalid (hp.2.trans hsender.symm)

/-- What a chunk does to the slots, and what list it completes. -/
theorem reassemble_filled (hone : OneEach slots) :
    (∃ i, Filled slots (reassemble slots c).1 c i) ∧
      ∀ ids, (reassemble slots c).2 = some ids →
        c.header.moreChunks = false ∧ ∃ n, Grows slots c ids n := by
  unfold reassemble
  cases hc : c.header.continuation with
  | true =>
    rw [if_pos rfl]
    cases hf : slots.cells.findIdx? fun p => p.valid && p.sender == c.sender with
    | none =>
      refine ⟨⟨slots.cells.length, ?_, ?_⟩, ?_⟩
      · intro j q _ hq hvalid
        refine ⟨hq, ?_⟩
        intro hsender
        have hnone := List.findIdx?_eq_none_iff.mp hf q (List.mem_of_getElem? hq)
        rw [hvalid, hsender] at hnone
        simp at hnone
      · intro q hq
        rw [List.getElem?_eq_none (Nat.le_refl _)] at hq
        cases hq
      · intro ids hids
        cases hids
    | some i =>
      obtain ⟨hi, hp, -⟩ := List.findIdx?_eq_some_iff_getElem.mp hf
      rw [Bool.and_eq_true, beq_iff_eq] at hp
      have hget := List.getElem?_eq_getElem hi
      obtain ⟨hothers, hhere, hout⟩ := fillSlot_spec (c := c) hget
      refine ⟨⟨i, ?_, ?_⟩, ?_⟩
      · intro j q hj hq hvalid
        dsimp only at hq
        rw [hothers j hj] at hq
        refine ⟨hq, ?_⟩
        intro hsender
        exact hj (hone j i q _ hq hget hvalid hp.1 (hsender.trans hp.2.symm))
      · intro q hq hvalid
        rcases hhere q hq hvalid with ⟨⟨-, hs, hv, hidx⟩, hmore, hqs, hqv, hrows, hnext⟩ | ⟨-, h, -⟩
        · refine ⟨hqs.trans hs, hqv.trans hv, hmore, ?_⟩
          rw [hrows, hnext, hc, if_pos rfl]
          exact .next hc hget hp.1 hs hv (hidx hc)
        · rw [hc] at h
          cases h
      · intro ids hids
        obtain ⟨⟨-, hs, hv, hidx⟩, hmore, rfl⟩ := hout ids hids
        exact ⟨hmore, _, .next hc hget hp.1 hs hv (hidx hc)⟩
  | false =>
    rw [if_neg Bool.false_ne_true]
    dsimp only
    have hlt := pendingListedSlot_lt slots c.sender
    have hget : (slots.set (pendingListedSlot slots c.sender)
        ⟨c.sender, c.received, c.header.chunkIndex == 0, .empty, 1⟩).cells[
          pendingListedSlot slots c.sender]? = _ := List.getElem?_set_self hlt
    obtain ⟨hothers, hhere, hout⟩ := fillSlot_spec (c := c) hget
    refine ⟨⟨pendingListedSlot slots c.sender, ?_, ?_⟩, ?_⟩
    · intro j q hj hq hvalid
      rw [hothers j hj] at hq
      have hq' : slots.cells[j]? = some q := by
        rw [← hq]
        exact (List.getElem?_set_ne hj.symm).symm
      exact ⟨hq', fun hsender => hj (pendingListedSlot_own hone hq' hvalid hsender).symm⟩
    · intro q hq hvalid
      rcases hhere q hq hvalid with ⟨⟨hfirst, -⟩, hmore, hqs, hqv, hrows, hnext⟩ | ⟨hnot, -, rfl⟩
      · refine ⟨hqs, hqv, hmore, ?_⟩
        rw [hrows, hnext, hc, if_neg Bool.false_ne_true]
        exact .first hc (beq_iff_eq.mp hfirst)
      · refine absurd ⟨hvalid, rfl, rfl, ?_⟩ hnot
        intro h
        rw [hc] at h
        cases h
    · intro ids hids
      obtain ⟨⟨hfirst, -⟩, hmore, rfl⟩ := hout ids hids
      exact ⟨hmore, _, .first hc (beq_iff_eq.mp hfirst)⟩

end

/-! ## Chunks delivered in order -/

/-- `chunks` are chunks 0, 1, … of version `v` of `sender`, delivered in this
order among `calls`, with no other first chunk of the sender after the first
of them. -/
structure InOrder (calls : List Call) (sender : UInt32) (v : UInt8) (chunks : List Call) : Prop where
  order : ∃ before first rest later, calls = before ++ first :: rest ∧ chunks = first :: later ∧
    later.Sublist rest ∧ ∀ c ∈ rest, c.sender = sender → c.header.continuation = true
  chunk : ∀ i c, chunks[i]? = some c → c.sender = sender ∧ c.received = v ∧
    c.header.chunkIndex.toNat = i ∧ c.header.continuation = (i != 0)

namespace InOrder

variable {calls chunks : List Call} {sender : UInt32} {v : UInt8} {c : Call}

theorem first (hc : c.header.continuation = false) (hi : c.header.chunkIndex = 0) :
    InOrder (calls ++ [c]) c.sender c.received [c] where
  order := ⟨calls, c, [], [], rfl, rfl, .slnil, fun c hc => absurd hc List.not_mem_nil⟩
  chunk := by
    intro i d hd
    cases i with
    | succ j => cases hd
    | zero =>
      cases hd
      refine ⟨rfl, rfl, ?_, hc⟩
      rw [hi]
      rfl

theorem next (h : InOrder calls sender v chunks) (hsender : c.sender = sender)
    (hv : c.received = v) (hc : c.header.continuation = true)
    (hi : c.header.chunkIndex.toNat = chunks.length) :
    InOrder (calls ++ [c]) sender v (chunks ++ [c]) where
  order := by
    obtain ⟨before, first, rest, later, rfl, rfl, hsub, hrest⟩ := h.order
    refine ⟨before, first, rest ++ [c], later ++ [c], ?_, rfl, hsub.append (.refl _), ?_⟩
    · rw [List.append_assoc, List.cons_append]
    · intro d hd hds
      rcases List.mem_append.mp hd with hd | hd
      · exact hrest d hd hds
      · rw [List.mem_singleton.mp hd]
        exact hc
  chunk := by
    intro i d hd
    rcases Nat.lt_or_ge i chunks.length with hlt | hge
    · rw [List.getElem?_append_left hlt] at hd
      exact h.chunk i d hd
    · rw [List.getElem?_append_right hge, List.getElem?_singleton] at hd
      split at hd
      · cases hd
        have hlen : i = chunks.length := by omega
        obtain ⟨before, first, rest, later, -, rfl, -⟩ := h.order
        refine ⟨hsender, hv, hi.trans hlen.symm, ?_⟩
        rw [hc, hlen, List.length_cons]
        rfl
      · cases hd

/-- A call that is no first chunk of the sender passes by. -/
theorem pass (h : InOrder calls sender v chunks)
    (hc : c.sender = sender → c.header.continuation = true) :
    InOrder (calls ++ [c]) sender v chunks where
  order := by
    obtain ⟨before, first, rest, later, rfl, rfl, hsub, hrest⟩ := h.order
    refine ⟨before, first, rest ++ [c], later, ?_, rfl, hsub.trans (List.sublist_append_left _ _), ?_⟩
    · rw [List.append_assoc, List.cons_append]
    · intro d hd hds
      rcases List.mem_append.mp hd with hd | hd
      · exact hrest d hd hds
      · rw [List.mem_singleton.mp hd] at hds ⊢
        exact hc hds
  chunk := h.chunk

end InOrder

/-- The slots, after the accepted calls `calls`: no sender has two in use, and
each in use holds the ids of chunks that came in order. -/
structure Gathered (slots : Slots PENDING_LISTED_SLOTS PendingListed) (calls : List Call) : Prop where
  oneEach : OneEach slots
  inOrder : ∀ (i : Nat) (p : PendingListed), slots.cells[i]? = some p → p.valid = true →
    ∃ chunks, InOrder calls p.sender p.version chunks ∧ p.ids.rows = chunks.flatMap Call.ids ∧
      p.nextChunk.toNat = chunks.length

section

variable {slots : Slots PENDING_LISTED_SLOTS PendingListed} {calls : List Call} {c : Call}

/-- The chunks a call adds itself to. -/
theorem Gathered.grows (h : Gathered slots calls) (hindex : c.header.chunkIndex.toNat < 32)
    {ids : List UInt32} {n : UInt8} (hg : Grows slots c ids n) :
    ∃ chunks, InOrder (calls ++ [c]) c.sender c.received (chunks ++ [c]) ∧
      ids = (chunks ++ [c]).flatMap Call.ids ∧ n.toNat = (chunks ++ [c]).length := by
  cases hg with
  | first hc hi =>
    refine ⟨[], .first hc hi, ?_, rfl⟩
    rw [List.nil_append, List.flatMap_singleton]
  | @next j p hc hj hvalid hsender hversion hi =>
    obtain ⟨chunks, horder, hids, hlen⟩ := h.inOrder j p hj hvalid
    rw [hsender, hversion] at horder
    refine ⟨chunks, horder.next rfl rfl hc (by rw [hi, hlen]), ?_, ?_⟩
    · rw [List.flatMap_append, List.flatMap_singleton, hids]
    · rw [hi, hlen] at hindex
      rw [UInt8.toNat_add, hlen, List.length_append, List.length_singleton]
      show (chunks.length + 1) % 256 = _
      omega

/-- A chunk that is gathered keeps the slots as they should be. -/
theorem Gathered.reassemble (h : Gathered slots calls) (hindex : c.header.chunkIndex.toNat < 32) :
    Gathered (reassemble slots c).1 (calls ++ [c]) := by
  obtain ⟨i, hfilled⟩ := (reassemble_filled (c := c) h.oneEach).1
  constructor
  · intro j k p q hp hq hvp hvq hsender
    -- of two slots of one sender neither or both would be slot `i`
    by_cases hj : j = i
    · subst hj
      have hps := (hfilled.here p hp hvp).1
      by_contra hk
      exact (hfilled.others k q (fun h => hk h.symm) hq hvq).2 (hsender.symm.trans hps)
    · obtain ⟨hp', hps⟩ := hfilled.others j p hj hp hvp
      by_cases hk : k = i
      · subst hk
        exact absurd (hsender.trans (hfilled.here q hq hvq).1) hps
      · exact h.oneEach j k p q hp' (hfilled.others k q hk hq hvq).1 hvp hvq hsender
  · intro j p hp hvalid
    by_cases hj : j = i
    · subst hj
      obtain ⟨hsender, hversion, -, hgrows⟩ := hfilled.here p hp hvalid
      obtain ⟨chunks, horder, hids, hlen⟩ := h.grows hindex hgrows
      rw [hsender, hversion]
      exact ⟨_, horder, hids, hlen⟩
    · obtain ⟨hp', hsender⟩ := hfilled.others j p hj hp hvalid
      obtain ⟨chunks, horder, hids, hlen⟩ := h.inOrder j p hp' hvalid
      exact ⟨chunks, horder.pass fun hs => absurd hs.symm hsender, hids, hlen⟩

/-- A call that leaves the slots alone, and is no first chunk of a sender with
a list in hand. -/
theorem Gathered.pass (h : Gathered slots calls)
    (hc : ∀ p ∈ slots.cells, p.valid = true → p.sender = c.sender →
      c.header.continuation = true) : Gathered slots (calls ++ [c]) where
  oneEach := h.oneEach
  inOrder i p hp hvalid := by
    obtain ⟨chunks, horder, hids, hlen⟩ := h.inOrder i p hp hvalid
    refine ⟨chunks, horder.pass ?_, hids, hlen⟩
    intro hs
    exact hc p (List.mem_of_getElem? hp) hvalid hs.symm

theorem Gathered.unused (h : ∀ p ∈ slots.cells, p.valid = false) : Gathered slots calls where
  oneEach i j p q hp _ hvalid := by
    rw [h p (List.mem_of_getElem? hp)] at hvalid
    cases hvalid
  inOrder i p hp hvalid := by
    rw [h p (List.mem_of_getElem? hp)] at hvalid
    cases hvalid

end

/-! ## The merge and the slots -/

section

variable {Etx : Type} (F : F32 Etx) (g : NeighborGraph) (c : Call)

/-- What merging the contents of a list does not touch. -/
def frame : Slots PENDING_LISTED_SLOTS PendingListed × VersionTable :=
  (g.pendingListed, g.topoVersions)

theorem tryAdmit_frame (sender listed : UInt32) (senderIsDirect : Bool) (nowMs : UInt32) :
    frame (g.tryAdmitListedPublisher F sender listed senderIsDirect nowMs).1 = frame g := by
  unfold NeighborGraph.tryAdmitListedPublisher
  dsimp only
  repeat' split
  all_goals rfl

theorem mergeNeighbor_frame (senderIsDirect : Bool) (n : PackedNeighbor) :
    frame (g.mergeNeighbor F c senderIsDirect n) = frame g := by
  unfold NeighborGraph.mergeNeighbor NeighborGraph.recordMergeAsymmetricSkip
  dsimp only
  split
  · rfl
  · split
    · rfl
    · split
      · split <;> rfl
      · split
        · split <;> exact tryAdmit_frame F _ _ _ _ _
        · split
          · split <;> rfl
          · rfl

theorem mergeListed_frame : frame (g.mergeListed F c) = frame g := by
  have hfold : ∀ (b : Bool) (ns : List PackedNeighbor) (g : NeighborGraph),
      frame (ns.foldl (fun (g : NeighborGraph) n => g.mergeNeighbor F c b n) g) = frame g := by
    intro b ns
    induction ns with
    | nil => exact fun _ => rfl
    | cons n ns ih =>
      intro g
      rw [List.foldl_cons, ih, mergeNeighbor_frame]
  unfold NeighborGraph.mergeListed
  dsimp only
  show frame (List.foldl _ _ c.neighbors) = frame g
  rw [hfold]
  split
  · rfl
  · show frame (g.admitSender F c) = frame g
    unfold NeighborGraph.admitSender
    dsimp only
    repeat' split
    all_goals rfl

theorem sweepUnlisted_frame (sender : UInt32) (listed : List UInt32) (nowMs : UInt32) :
    frame (g.sweepUnlisted F sender listed nowMs) = frame g := by
  unfold NeighborGraph.sweepUnlisted
  dsimp only
  split <;> rfl

/-- The ids a call sweeps its sender's edges and flags by, if it does. -/
def swept : Option (List UInt32) :=
  if g.accepts c && !g.beyondHorizon F c && !c.bootReset then (reassemble g.pendingListed c).2
  else none

/-- An accepted list that is not dropped: it is merged and gathered, and then
the sweep runs if it is to. -/
theorem mergeTopology_swept (haccepted : g.accepts c = true) (hhorizon : g.beyondHorizon F c = false) :
    (g.mergeTopology F c).1 =
      let merged := { (g.noteAccepted F c).mergeListed F c with
        pendingListed := (reassemble g.pendingListed c).1 }
      match swept F g c with
      | none => merged
      | some ids => merged.sweepUnlisted F c.sender ids c.nowMs := by
  have hslots : ((g.noteAccepted F c).mergeListed F c).pendingListed = g.pendingListed :=
    congrArg Prod.fst (mergeListed_frame F (g.noteAccepted F c) c)
  rw [NeighborGraph.mergeTopology_accepted g F haccepted, hhorizon, if_neg Bool.false_ne_true]
  unfold swept NeighborGraph.completeList
  rw [haccepted, hhorizon, hslots]
  dsimp only
  cases hboot : c.bootReset with
  | true =>
    cases (reassemble g.pendingListed c).2 <;> rfl
  | false =>
    cases (reassemble g.pendingListed c).2 <;> rfl

/-- What a call leaves where no sweep follows. A list that is not taken leaves a note at most,
one from beyond the horizon goes no further; any other is merged and gathered. -/
def unswept : NeighborGraph :=
  if g.accepts c then
    if g.beyondHorizon F c then g.noteAccepted F c
    else
      { (g.noteAccepted F c).mergeListed F c with
        pendingListed := (reassemble g.pendingListed c).1 }
  else if !NeighborGraph.formatOk c then g
  else if !g.isActiveRoutingRole && !c.isDirect then
    { g with
      capability := g.capability.trackTopology c.sender c.header.signalRoutingActive c.nowMs }
  else { g with topoVersions := g.topoVersions.noteTopoVersionStale c.sender c.received }

/-- What is unlisted goes by the sweep. -/
theorem mergeTopology_eq :
    (g.mergeTopology F c).1 =
      (swept F g c).elim (unswept F g c) fun ids =>
        (unswept F g c).sweepUnlisted F c.sender ids c.nowMs := by
  unfold unswept
  cases haccepted : g.accepts c with
  | false =>
    have hswept : swept F g c = none := by simp [swept, haccepted]
    rw [hswept, Option.elim_none, if_neg Bool.false_ne_true]
    unfold NeighborGraph.accepts at haccepted
    unfold NeighborGraph.mergeTopology
    by_cases hformat : (!NeighborGraph.formatOk c) = true
    · rw [if_pos hformat, if_pos hformat]
    · rw [if_neg hformat, if_neg hformat]
      by_cases hrole : (!g.isActiveRoutingRole && !c.isDirect) = true
      · rw [if_pos hrole, if_pos hrole]
      · rw [if_neg hrole, if_neg hrole]
        have hversion : g.versionAccepted c = false := by
          rw [← Bool.not_or] at hrole
          rw [Bool.not_eq_true', Bool.not_eq_false] at hformat hrole
          simpa [hformat, hrole] using haccepted
        rw [hversion]
        rfl
  | true =>
    rw [if_pos rfl]
    cases hhorizon : g.beyondHorizon F c with
    | true =>
      have hswept : swept F g c = none := by simp [swept, hhorizon]
      rw [hswept, NeighborGraph.mergeTopology_accepted g F haccepted, hhorizon]
      rfl
    | false =>
      rw [mergeTopology_swept F g c haccepted hhorizon]
      cases swept F g c <;> rfl

/-- The slots after a call. -/
theorem mergeTopology_pendingListed :
    (g.mergeTopology F c).1.pendingListed =
      if g.accepts c && !g.beyondHorizon F c then (reassemble g.pendingListed c).1
      else g.pendingListed := by
  cases haccepted : g.accepts c with
  | false =>
    obtain ⟨capability, versions, hstate⟩ := g.mergeTopology_rejected F haccepted
    rw [hstate]
    rfl
  | true =>
    cases hhorizon : g.beyondHorizon F c with
    | true =>
      rw [NeighborGraph.mergeTopology_accepted g F haccepted, hhorizon]
      rfl
    | false =>
      rw [mergeTopology_swept F g c haccepted hhorizon]
      dsimp only
      split
      · rfl
      · exact congrArg Prod.fst (sweepUnlisted_frame F _ _ _ _)

end

/-! ## Runs -/

/-- The graph, and the calls it has accepted. -/
structure Hearing where
  graph : NeighborGraph
  accepted : List Call

/-- A call with a header that was read from a packet, or whatever else happens
to the graph between two calls. -/
inductive Event where
  | merge (c : Call)
  | other (g : NeighborGraph)

section

variable {Etx : Type} (F : F32 Etx)

/-- No first chunk is dropped beyond the horizon while a list of its sender is
in hand. -/
def Heeds (g : NeighborGraph) (c : Call) : Prop :=
  g.accepts c = true → c.header.continuation = false →
    (∃ p ∈ g.pendingListed, p.valid = true ∧ p.sender = c.sender) → g.beyondHorizon F c = false

/-- Calls from any senders in any order; nothing else writes the slots, but a
preset change empties them. -/
def hearing : LTS Hearing Event where
  init s := (∀ p ∈ s.graph.pendingListed, p.valid = false) ∧ s.accepted = []
  step s e t :=
    match e with
    | .merge c =>
      c.header.chunkIndex.toNat < 32 ∧ Heeds F s.graph c ∧
        t = ⟨(s.graph.mergeTopology F c).1,
          if s.graph.accepts c then s.accepted ++ [c] else s.accepted⟩
    | .other g =>
      (g.pendingListed = s.graph.pendingListed ∨ ∀ p ∈ g.pendingListed, p.valid = false) ∧
        t = ⟨g, s.accepted⟩

theorem gathered_merge {g : NeighborGraph} {calls : List Call} {c : Call}
    (h : Gathered g.pendingListed calls) (hindex : c.header.chunkIndex.toNat < 32)
    (hheeds : Heeds F g c) :
    Gathered (g.mergeTopology F c).1.pendingListed
      (if g.accepts c then calls ++ [c] else calls) := by
  rw [mergeTopology_pendingListed]
  cases haccepted : g.accepts c with
  | false => exact h
  | true =>
    cases hhorizon : g.beyondHorizon F c with
    | false => exact h.reassemble hindex
    | true =>
      refine h.pass ?_
      intro p hp hvalid hsender
      by_contra hc
      have hdropped := hheeds haccepted (Bool.eq_false_iff.mpr hc) ⟨p, hp, hvalid, hsender⟩
      rw [hhorizon] at hdropped
      cases hdropped

theorem gathered_inductive :
    (hearing F).Inductive fun s => Gathered s.graph.pendingListed s.accepted where
  init s hs := .unused hs.1
  step s e t h hstep := by
    cases e with
    | merge c =>
      obtain ⟨hindex, hheeds, rfl⟩ := hstep
      exact gathered_merge F h hindex hheeds
    | other g =>
      obtain ⟨hslots | hslots, rfl⟩ := hstep
      · show Gathered g.pendingListed s.accepted
        rw [hslots]
        exact h
      · exact .unused hslots

/-- In every run, no sender has two slots in use, a slot in use holds the ids of
chunks of its sender that came in order, and what is unlisted goes only at a call that
delivers the last chunk of a list, all of whose chunks came in order with no
other first chunk of the sender in between; it goes by exactly their ids. -/
theorem sweep_after_whole_list {s : Hearing} (hs : (hearing F).Reachable s) :
    OneEach s.graph.pendingListed ∧
    (∀ p ∈ s.graph.pendingListed, p.valid = true →
      ∃ chunks, InOrder s.accepted p.sender p.version chunks ∧
        p.ids.rows = chunks.flatMap Call.ids) ∧
    ∀ c : Call, c.header.chunkIndex.toNat < 32 →
      (swept F s.graph c = none ∧ (s.graph.mergeTopology F c).1 = unswept F s.graph c) ∨
      ∃ chunks, InOrder (s.accepted ++ [c]) c.sender c.received (chunks ++ [c]) ∧
        c.header.moreChunks = false ∧
        swept F s.graph c = some ((chunks ++ [c]).flatMap Call.ids) ∧
        (s.graph.mergeTopology F c).1 = (unswept F s.graph c).sweepUnlisted F c.sender
          ((chunks ++ [c]).flatMap Call.ids) c.nowMs := by
  have h := (gathered_inductive F).reachable hs
  refine ⟨h.oneEach, ?_, ?_⟩
  · intro p hp hvalid
    obtain ⟨i, hi⟩ := List.mem_iff_getElem?.mp hp
    obtain ⟨chunks, horder, hids, -⟩ := h.inOrder i p hi hvalid
    exact ⟨chunks, horder, hids⟩
  · intro c hindex
    have hmerge := mergeTopology_eq F s.graph c
    cases hswept : swept F s.graph c with
    | none =>
      rw [hswept] at hmerge
      exact .inl ⟨rfl, hmerge⟩
    | some ids =>
      rw [hswept] at hmerge
      have hlisted := hswept
      unfold swept at hlisted
      split at hlisted
      · obtain ⟨hmore, n, hgrows⟩ := (reassemble_filled h.oneEach).2 ids hlisted
        obtain ⟨chunks, horder, rfl, -⟩ := h.grows hindex hgrows
        exact .inr ⟨chunks, horder, hmore, rfl, hmerge⟩
      · cases hlisted

end

/-! ## A list in two chunks -/

/-- A chunk of node 2 that names one node. -/
def chunkOf (version : UInt8) (index : UInt8) (more : Bool) (named : UInt32) (isDirect : Bool)
    (nowMs : UInt32) : Call where
  sender := 2
  header := chunkHeader version true more (index != 0) index
  neighbors := [⟨named, -60, 10, true, false, 0⟩]
  isDirect := isDirect
  nowMs := nowMs
  heardOn := 0

/-- Node 1 with the first chunk of version 1 in hand. -/
def holdsFirst : NeighborGraph :=
  ((NeighborGraph.new 1).mergeTopology hundredths (chunkOf 1 0 true 3 true 1000)).1

/-- Node 1 hears node 2, which has listed node 5, and has the first chunk of version 2 in hand. -/
def besideTwo : NeighborGraph :=
  let edges := ((EdgeStore.empty.ensureLocalNode hundredths 1 0).updateEdge hundredths 1 1 2 105 0
    .reported true 0).1
  { NeighborGraph.new 1 with edges }

def secondList : Hearing :=
  [chunkOf 1 0 false 5 true 500, chunkOf 2 0 true 3 true 1000].foldl
    (fun s c => ⟨(s.graph.mergeTopology hundredths c).1, s.accepted ++ [c]⟩) ⟨besideTwo, []⟩

theorem secondList_reachable : (hearing hundredths).Reachable secondList := by
  have hstep : ∀ (s : Hearing) (c : Call), c.header.chunkIndex.toNat < 32 →
      s.graph.beyondHorizon hundredths c = false → s.graph.accepts c = true →
      (hearing hundredths).step s (.merge c)
        ⟨(s.graph.mergeTopology hundredths c).1, s.accepted ++ [c]⟩ :=
    fun s c hindex hhorizon haccepted => ⟨hindex, fun _ _ _ => hhorizon, by rw [if_pos haccepted]⟩
  refine ⟨⟨besideTwo, []⟩, _, ⟨fun p hp => ?_, rfl⟩,
    .cons (hstep _ _ (by decide) (by decide +kernel) (by decide +kernel))
      (.cons (hstep _ _ (by decide) (by decide +kernel) (by decide +kernel)) (.nil _))⟩
  rw [Slots.mem_all (α := PendingListed) hp]
  rfl

/-- The list of version 2 is whole, and node 5 is not in it. -/
theorem second_chunk_sweeps :
    let second := chunkOf 2 1 false 4 true 2000
    (secondList.graph.edges.edge 2 5).isSome ∧
      ((secondList.graph.mergeTopology hundredths second).1.edges.edge 2 5).isSome = false ∧
      ∃ chunks, InOrder (secondList.accepted ++ [second]) 2 2 (chunks ++ [second]) ∧
        (secondList.graph.mergeTopology hundredths second).1 =
          (unswept hundredths secondList.graph second).sweepUnlisted hundredths 2
            ((chunks ++ [second]).flatMap Call.ids) 2000 := by
  intro second
  refine ⟨by decide +kernel, by decide +kernel, ?_⟩
  rcases (sweep_after_whole_list hundredths secondList_reachable).2.2 second (by decide) with
    ⟨hnone, -⟩ | ⟨chunks, horder, -, -, hmerge⟩
  · have hsome : (swept hundredths secondList.graph second).isSome = true := by decide +kernel
    rw [hnone] at hsome
    cases hsome
  · exact ⟨chunks, horder, hmerge⟩

/-- A first chunk of version 101 comes through a relay and is dropped: node 2
is beyond the horizon, as node 1 has never measured it. The list of version 1
stays in hand, and its second chunk, 100 versions behind by then, is taken for
a restart and sweeps by a list that is not the last one begun. -/
theorem dropped_first_chunk_sweeps :
    let newer := chunkOf 101 0 true 5 false 2000
    let second := chunkOf 1 1 false 4 true 3000
    let g := (holdsFirst.mergeTopology hundredths newer).1
    (holdsFirst.accepts newer = true ∧ g.accepts second = true ∧
        swept hundredths g second = some [3, 4]) ∧
      ¬ ∃ chunks, InOrder [chunkOf 1 0 true 3 true 1000, newer, second] 2 1 (chunks ++ [second]) ∧
        [3, 4] = (chunks ++ [second]).flatMap Call.ids := by
  refine ⟨by decide +kernel, ?_⟩
  rintro ⟨chunks, horder, -⟩
  obtain ⟨before, first, rest, later, hcalls, hchunks, -, hrest⟩ := horder.order
  -- the first of the chunks is the first call: the others are of another version or continue
  have hzero := horder.chunk 0 first (by rw [hchunks]; rfl)
  match before, hcalls with
  | [], hcalls =>
    rw [List.nil_append, List.cons.injEq] at hcalls
    have hcont := hrest (chunkOf 101 0 true 5 false 2000) (by rw [← hcalls.2]; simp) rfl
    cases hcont
  | [_], hcalls =>
    simp only [List.cons_append, List.nil_append, List.cons.injEq] at hcalls
    rw [← hcalls.2.1] at hzero
    exact absurd hzero.2.1 (by decide)
  | [_, _], hcalls =>
    simp only [List.cons_append, List.nil_append, List.cons.injEq] at hcalls
    rw [← hcalls.2.2.1] at hzero
    exact absurd hzero.2.2.2 (by decide)
  | _ :: _ :: _ :: _, hcalls => simp at hcalls

end Meshrustic.Topology
