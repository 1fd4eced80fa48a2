import Mathlib.Algebra.GroupWithZero.Nat
import Meshrustic.Topology.Routes

/-!
# Downstream chains (`mesh-routing/src/graph/downstream.rs:65-150`)

A destination nobody can search for may still hang on a row that names its
relay, the relay on another row, and so on to a neighbour of ours. The walk
remembers the relays it has passed, so it does not go round; the node it
started from it does not remember.

Results:
* `cheapest_spec`: what the table answers is a live row and the cheapest one.
* `followChain_spec`: the walk names the rows it came along.
* `chain_simple_iff`: a chain is a simple path unless the rows lead back to
  the destination and the destination itself is accepted as the egress.
-/
namespace Meshrustic.Topology

open Meshrustic.Graph Meshrustic.Relay

variable {ds : DownstreamTable} {nowMs ttlMs : UInt32}

/-! ## The cheapest row -/

/-- `relay` and `cost` are those of a live row that passes `p`, and no live row
that does is cheaper. -/
def Cheapest (ds : DownstreamTable) (p : DownstreamRow → Bool) (nowMs ttlMs relay : UInt32)
    (cost : UInt16) : Prop :=
  (∃ r ∈ ds.entries.rows, p r = true ∧ nowMs - r.lastUpdateMs < ttlMs ∧ r.relay = relay ∧
      r.costFixed = cost) ∧
    ∀ r ∈ ds.entries.rows, p r = true → nowMs - r.lastUpdateMs < ttlMs → cost ≤ r.costFixed

/-- One turn of the scan. -/
def cheaperRow (p : DownstreamRow → Bool) (nowMs ttlMs : UInt32) (best : Option UInt32 × UInt16)
    (r : DownstreamRow) : Option UInt32 × UInt16 :=
  if !p r then best
  else if ttlMs ≤ nowMs - r.lastUpdateMs then best
  else if r.costFixed < best.2 then (some r.relay, r.costFixed) else best

theorem cheapest_eq (p : DownstreamRow → Bool) : ds.cheapest p nowMs ttlMs =
    (ds.entries.rows.foldl (cheaperRow p nowMs ttlMs) (none, 0xFFFF)).1.map fun relay =>
      (relay, (ds.entries.rows.foldl (cheaperRow p nowMs ttlMs) (none, 0xFFFF)).2) := rfl

/-- A turn keeps the best or takes a live row below it. -/
theorem cheaperRow_cases (p : DownstreamRow → Bool) (best : Option UInt32 × UInt16)
    (r : DownstreamRow) :
    (cheaperRow p nowMs ttlMs best r = best ∧
        (p r = true → nowMs - r.lastUpdateMs < ttlMs → best.2 ≤ r.costFixed)) ∨
      (cheaperRow p nowMs ttlMs best r = (some r.relay, r.costFixed) ∧ p r = true ∧
        nowMs - r.lastUpdateMs < ttlMs ∧ r.costFixed < best.2) := by
  unfold cheaperRow
  split
  · rename_i hp
    exact .inl ⟨rfl, fun h => by simp [h] at hp⟩
  · rename_i hp
    rw [Bool.not_eq_true, Bool.not_eq_false'] at hp
    split
    · rename_i hstale
      exact .inl ⟨rfl, fun _ hlive => absurd hlive (UInt32.not_lt.mpr hstale)⟩
    · rename_i hlive
      split
      · rename_i hlt
        exact .inr ⟨rfl, hp, UInt32.not_le.mp hlive, hlt⟩
      · rename_i hle
        exact .inl ⟨rfl, fun _ _ => UInt16.not_lt.mp hle⟩

theorem cheaperRows_spec (p : DownstreamRow → Bool) (rows : List DownstreamRow)
    (best : Option UInt32 × UInt16) :
    (rows.foldl (cheaperRow p nowMs ttlMs) best).2 ≤ best.2 ∧
      (∀ r ∈ rows, p r = true → nowMs - r.lastUpdateMs < ttlMs →
        (rows.foldl (cheaperRow p nowMs ttlMs) best).2 ≤ r.costFixed) ∧
      (rows.foldl (cheaperRow p nowMs ttlMs) best = best ∨
        ∃ r ∈ rows, p r = true ∧ nowMs - r.lastUpdateMs < ttlMs ∧
          rows.foldl (cheaperRow p nowMs ttlMs) best = (some r.relay, r.costFixed)) := by
  induction rows generalizing best with
  | nil => exact ⟨UInt16.le_refl _, fun r hr => absurd hr List.not_mem_nil, .inl rfl⟩
  | cons r rows ih =>
    rw [List.foldl_cons]
    obtain ⟨hle, hall, hfrom⟩ := ih (cheaperRow p nowMs ttlMs best r)
    rcases cheaperRow_cases p best r with ⟨hkeep, hbest⟩ | ⟨htake, hp, hlive, hlt⟩
    · rw [hkeep] at hle hall hfrom ⊢
      refine ⟨hle, fun x hx hpx hx' => ?_, ?_⟩
      · rcases List.mem_cons.mp hx with rfl | hx
        · exact UInt16.le_trans hle (hbest hpx hx')
        · exact hall x hx hpx hx'
      · rcases hfrom with hfrom | ⟨x, hx, hfrom⟩
        · exact .inl hfrom
        · exact .inr ⟨x, List.mem_cons_of_mem _ hx, hfrom⟩
    · rw [htake] at hle hall hfrom ⊢
      refine ⟨UInt16.le_trans hle (UInt16.le_of_lt hlt), fun x hx hpx hx' => ?_, ?_⟩
      · rcases List.mem_cons.mp hx with rfl | hx
        · exact hle
        · exact hall x hx hpx hx'
      · rcases hfrom with hfrom | ⟨x, hx, hfrom⟩
        · exact .inr ⟨r, List.mem_cons_self, hp, hlive, hfrom⟩
        · exact .inr ⟨x, List.mem_cons_of_mem _ hx, hfrom⟩

/-- What the table answers is a live row, and no live row is cheaper. -/
theorem cheapest_spec {p : DownstreamRow → Bool} {relay : UInt32} {cost : UInt16}
    (h : ds.cheapest p nowMs ttlMs = some (relay, cost)) : Cheapest ds p nowMs ttlMs relay cost := by
  rw [cheapest_eq, Option.map_eq_some_iff] at h
  obtain ⟨relay', hrelay, heq⟩ := h
  cases heq
  obtain ⟨-, hall, hfrom⟩ := @cheaperRows_spec nowMs ttlMs p ds.entries.rows (none, 0xFFFF)
  rcases hfrom with hfrom | ⟨r, hr, hp, hlive, hfrom⟩
  · rw [hfrom] at hrelay
    cases hrelay
  · rw [hfrom] at hrelay
    refine ⟨⟨r, hr, hp, hlive, Option.some.inj hrelay, ?_⟩, hall⟩
    rw [hfrom]

/-! ## The walk -/

/-- A relay, and what the row that named it costs. -/
abbrev ChainStep := UInt32 × UInt16

/-- Each step is what the table answers for the node before it. -/
def Follows (ds : DownstreamTable) (nowMs ttlMs : UInt32) : UInt32 → List ChainStep → Prop
  | _, [] => True
  | n, step :: steps =>
    ds.relayAndCost n nowMs ttlMs = some step ∧ Follows ds nowMs ttlMs step.1 steps

/-- The relay of each step is that of the cheapest live row for the node before
it. -/
def CheapestRows (ds : DownstreamTable) (nowMs ttlMs : UInt32) : UInt32 → List ChainStep → Prop
  | _, [] => True
  | n, step :: steps =>
    Cheapest ds (fun r => r.destination == n) nowMs ttlMs step.1 step.2 ∧
      CheapestRows ds nowMs ttlMs step.1 steps

theorem Follows.cheapestRows {n : UInt32} {steps : List ChainStep}
    (h : Follows ds nowMs ttlMs n steps) : CheapestRows ds nowMs ttlMs n steps := by
  induction steps generalizing n with
  | nil => trivial
  | cons step steps ih => exact ⟨cheapest_spec h.1, ih h.2⟩

/-- What the steps cost on top of `cost`. -/
def stepCosts (steps : List ChainStep) (cost : Nat) : Nat :=
  steps.foldl (fun c step => saturatingAdd16 c step.2.toNat) cost

theorem stepCosts_eq (steps : List ChainStep) {cost : Nat} (h : cost ≤ 0xFFFF) :
    stepCosts steps cost = min 0xFFFF (cost + (steps.map (·.2.toNat)).sum) := by
  unfold stepCosts
  induction steps generalizing cost with
  | nil =>
    simp only [List.foldl_nil, List.map_nil, List.sum_nil]
    omega
  | cons step steps ih =>
    have hstep : saturatingAdd16 cost step.2.toNat ≤ 0xFFFF := by
      unfold saturatingAdd16
      omega
    rw [List.foldl_cons, ih hstep, List.map_cons, List.sum_cons]
    unfold saturatingAdd16
    omega

/-- What a walk that found its egress has done. -/
structure Walked (ds : DownstreamTable) (nowMs ttlMs : UInt32) (isEgress : UInt32 → Bool)
    (cur : UInt32) (seen : List UInt32) (cost : Nat) (chain : DownstreamTable.ChainEgress)
    (passed : List ChainStep) (last : UInt16) : Prop where
  follows : Follows ds nowMs ttlMs cur (passed ++ [(chain.node, last)])
  passedBy : ∀ step ∈ passed, isEgress step.1 = false
  egress : isEgress chain.node = true
  fresh : ∀ step ∈ passed ++ [(chain.node, last)], step.1 ∉ seen ∧ step.1 ≠ 0
  distinct : ((passed ++ [(chain.node, last)]).map (·.1)).Nodup
  forward : ∀ step ∈ (passed ++ [(chain.node, last)]).head?, step.1 ≠ cur
  hops : chain.hops = seen.length + passed.length + 1
  costs : chain.costFixed = stepCosts (passed ++ [(chain.node, last)]) cost

theorem followChain_spec {isEgress : UInt32 → Bool} {chain : DownstreamTable.ChainEgress}
    {fuel : Nat} {cur : UInt32} {seen : List UInt32} {cost : Nat}
    (h : ds.followChain nowMs ttlMs isEgress fuel cur seen cost = some chain) :
    ∃ passed last, Walked ds nowMs ttlMs isEgress cur seen cost chain passed last ∧
      passed.length < fuel := by
  induction fuel generalizing cur seen cost with
  | zero => cases h
  | succ fuel ih =>
    rw [DownstreamTable.followChain] at h
    split at h
    · cases h
    rename_i relay hopCost hrow
    split at h
    · cases h
    rename_i hself
    split at h
    · cases h
    rename_i hseen
    simp only [Bool.or_eq_true, beq_iff_eq, not_or] at hself
    rw [List.contains_iff_mem] at hseen
    dsimp only at h
    split at h
    · rename_i hegress
      cases h
      refine ⟨[], hopCost, ⟨⟨hrow, trivial⟩, fun _ h => absurd h List.not_mem_nil, hegress, ?_,
        List.nodup_singleton _, ?_, rfl, rfl⟩, Nat.succ_pos _⟩
      · intro step hstep
        rw [List.mem_singleton.mp hstep]
        exact ⟨hseen, hself.1⟩
      · rintro step ⟨⟩
        exact hself.2
    · rename_i hegress
      obtain ⟨passed, last, hwalk, hlen⟩ := ih h
      refine ⟨(relay, hopCost) :: passed, last, ⟨⟨hrow, hwalk.follows⟩, ?_, hwalk.egress, ?_, ?_,
        ?_, ?_, hwalk.costs⟩, Nat.succ_lt_succ hlen⟩
      · intro step hstep
        rcases List.mem_cons.mp hstep with rfl | hstep
        · exact Bool.not_eq_true _ ▸ hegress
        · exact hwalk.passedBy step hstep
      · intro step hstep
        rcases List.mem_cons.mp hstep with rfl | hstep
        · exact ⟨hseen, hself.1⟩
        · obtain ⟨hfresh, hzero⟩ := hwalk.fresh step hstep
          exact ⟨fun hmem => hfresh (List.mem_cons_of_mem _ hmem), hzero⟩
      · rw [List.cons_append, List.map_cons, List.nodup_cons]
        refine ⟨fun hmem => ?_, hwalk.distinct⟩
        obtain ⟨step, hstep, heq⟩ := List.mem_map.mp hmem
        exact (hwalk.fresh step hstep).1 (heq ▸ List.mem_cons_self)
      · rintro step ⟨⟩
        exact hself.2
      · rw [hwalk.hops, List.length_cons, List.length_cons]
        omega

/-- And the walk takes every such way. -/
theorem followChain_complete {isEgress : UInt32 → Bool} {node : UInt32} {last : UInt16}
    {passed : List ChainStep} {fuel : Nat} {cur : UInt32} {seen : List UInt32} {cost : Nat}
    (hfollows : Follows ds nowMs ttlMs cur (passed ++ [(node, last)]))
    (hpassed : ∀ step ∈ passed, isEgress step.1 = false) (hegress : isEgress node = true)
    (hfresh : ∀ step ∈ passed ++ [(node, last)], step.1 ∉ seen ∧ step.1 ≠ 0)
    (hdistinct : ((passed ++ [(node, last)]).map (·.1)).Nodup)
    (hforward : ∀ step ∈ (passed ++ [(node, last)]).head?, step.1 ≠ cur)
    (hfuel : passed.length < fuel) :
    ∃ chain, ds.followChain nowMs ttlMs isEgress fuel cur seen cost = some chain ∧
      chain.node = node := by
  induction passed generalizing cur seen cost fuel with
  | nil =>
    obtain ⟨fuel, rfl⟩ : ∃ f, fuel = f + 1 := ⟨fuel - 1, by omega⟩
    obtain ⟨hseen, hzero⟩ := hfresh (node, last) List.mem_cons_self
    have hself : node ≠ cur := hforward (node, last) rfl
    refine ⟨⟨node, seen.length + 1, saturatingAdd16 cost last.toNat⟩, ?_, rfl⟩
    rw [DownstreamTable.followChain, hfollows.1]
    simp [hzero, hself, hseen, hegress]
  | cons step passed ih =>
    obtain ⟨fuel, rfl⟩ : ∃ f, fuel = f + 1 := ⟨fuel - 1, by omega⟩
    obtain ⟨hseen, hzero⟩ := hfresh step List.mem_cons_self
    have hself : step.1 ≠ cur := hforward step rfl
    have hno : isEgress step.1 = false := hpassed step List.mem_cons_self
    rw [List.cons_append, List.map_cons, List.nodup_cons] at hdistinct
    have hafter : ∀ s ∈ passed ++ [(node, last)], s.1 ≠ step.1 := fun s hs heq =>
      hdistinct.1 (heq ▸ List.mem_map_of_mem hs)
    obtain ⟨chain, hchain, hnode⟩ := @ih fuel step.1 (step.1 :: seen)
      (saturatingAdd16 cost step.2.toNat) hfollows.2
      (fun s hs => hpassed s (List.mem_cons_of_mem _ hs))
      (fun s hs => ⟨by
        rw [List.mem_cons, not_or]
        exact ⟨hafter s hs, (hfresh s (List.mem_cons_of_mem _ hs)).1⟩,
        (hfresh s (List.mem_cons_of_mem _ hs)).2⟩)
      hdistinct.2 (fun s hs => hafter s (List.mem_of_mem_head? hs)) (Nat.lt_of_succ_lt_succ hfuel)
    refine ⟨chain, ?_, hnode⟩
    rw [DownstreamTable.followChain, hfollows.1]
    simpa [hzero, hself, hseen, hno] using hchain

/-! ## Simple paths -/

theorem Follows.next {n : UInt32} {before behind : List ChainStep} {step after : ChainStep}
    (h : Follows ds nowMs ttlMs n (before ++ step :: after :: behind)) :
    ds.relayAndCost step.1 nowMs ttlMs = some after := by
  induction before generalizing n with
  | nil => exact h.2.1
  | cons s before ih => exact ih h.2

/-- Before its end the walk does not come back to where it started: it would go
on with its own first step. -/
theorem Walked.away {isEgress : UInt32 → Bool} {destination : UInt32}
    {chain : DownstreamTable.ChainEgress} {passed : List ChainStep} {last : UInt16}
    (h : Walked ds nowMs ttlMs isEgress destination [] 0 chain passed last) :
    ∀ step ∈ passed, step.1 ≠ destination := by
  intro step hstep hback
  obtain ⟨before, behind, rfl⟩ := List.append_of_mem hstep
  obtain ⟨after, rest, hrest⟩ : ∃ after rest, behind ++ [(chain.node, last)] = after :: rest :=
    List.exists_cons_of_ne_nil (by simp)
  have hsplit : before ++ step :: behind ++ [(chain.node, last)] =
      before ++ step :: after :: rest := by
    rw [List.append_assoc, List.cons_append, hrest]
  obtain ⟨hfollows, -, -, -, hdistinct, hforward, -, -⟩ := h
  rw [hsplit] at hfollows hdistinct hforward
  have hafter := hfollows.next
  rw [hback] at hafter
  cases before with
  | nil => exact hforward step rfl hback
  | cons first before =>
    have hfirst : some first = some after := hfollows.1.symm.trans hafter
    obtain rfl := Option.some.inj hfirst
    rw [List.cons_append, List.map_cons, List.nodup_cons] at hdistinct
    refine hdistinct.1 (List.mem_map_of_mem ?_)
    exact List.mem_append_right _ (List.mem_cons_of_mem _ List.mem_cons_self)

/-- The chain is a simple path along cheapest live rows, and ends at its first
egress. -/
structure SimpleChain (ds : DownstreamTable) (destination nowMs ttlMs : UInt32)
    (isEgress : UInt32 → Bool) (chain : DownstreamTable.ChainEgress)
    (passed : List ChainStep) (last : UInt16) : Prop where
  rows : CheapestRows ds nowMs ttlMs destination (passed ++ [(chain.node, last)])
  distinct : (destination :: (passed ++ [(chain.node, last)]).map (·.1)).Nodup
  hops : chain.hops = (passed ++ [(chain.node, last)]).length
  short : chain.hops ≤ MAX_DOWNSTREAM_CHAIN
  egress : isEgress chain.node = true
  first : ∀ step ∈ passed, isEgress step.1 = false
  costs : chain.costFixed = min 0xFFFF ((passed ++ [(chain.node, last)]).map (·.2.toNat)).sum

/-- The rows lead from the destination back to it, over other nodes none of
which is an egress, and the destination would be one. -/
def LeadsBack (ds : DownstreamTable) (destination nowMs ttlMs : UInt32)
    (isEgress : UInt32 → Bool) : Prop :=
  destination ≠ 0 ∧ isEgress destination = true ∧
    ∃ passed last, passed ≠ [] ∧ passed.length < MAX_DOWNSTREAM_CHAIN ∧
      Follows ds nowMs ttlMs destination (passed ++ [(destination, last)]) ∧
      (∀ step ∈ passed, step.1 ≠ 0 ∧ step.1 ≠ destination ∧ isEgress step.1 = false) ∧
      (passed.map (·.1)).Nodup

/-- A chain that does not end at its own destination is a simple path. -/
theorem Walked.simple {isEgress : UInt32 → Bool} {destination : UInt32}
    {chain : DownstreamTable.ChainEgress} {passed : List ChainStep} {last : UInt16}
    (h : Walked ds nowMs ttlMs isEgress destination [] 0 chain passed last)
    (hlen : passed.length < MAX_DOWNSTREAM_CHAIN) (hne : chain.node ≠ destination) :
    SimpleChain ds destination nowMs ttlMs isEgress chain passed last where
  rows := h.follows.cheapestRows
  distinct := by
    rw [List.nodup_cons]
    refine ⟨fun hmem => ?_, h.distinct⟩
    obtain ⟨step, hstep, hback⟩ := List.mem_map.mp hmem
    rcases List.mem_append.mp hstep with hstep | hstep
    · exact h.away step hstep hback
    · rw [List.mem_singleton.mp hstep] at hback
      exact hne hback
  hops := by
    rw [h.hops, List.length_append, List.length_singleton, List.length_nil, Nat.zero_add]
  short := by
    rw [h.hops, List.length_nil, Nat.zero_add]
    exact hlen
  egress := h.egress
  first := h.passedBy
  costs := by
    rw [h.costs, stepCosts_eq _ (Nat.zero_le _), Nat.zero_add]

/-- A chain is a simple path, unless the rows lead back to the destination and
it passes for its own egress. -/
theorem chain_simple_iff (ds : DownstreamTable) (destination nowMs ttlMs : UInt32)
    (isEgress : UInt32 → Bool) :
    (∀ chain, ds.chainEgress destination nowMs ttlMs isEgress = some chain →
      ∃ passed last, SimpleChain ds destination nowMs ttlMs isEgress chain passed last) ↔
      ¬LeadsBack ds destination nowMs ttlMs isEgress := by
  constructor
  · rintro hsimple ⟨hzero, hegress, passed, last, hne, hlen, hfollows, hpassed, hdistinct⟩
    obtain ⟨chain, hchain, hnode⟩ := @followChain_complete ds nowMs ttlMs isEgress destination last
      passed MAX_DOWNSTREAM_CHAIN destination [] 0 hfollows (fun s hs => (hpassed s hs).2.2) hegress
      (fun s hs => ⟨List.not_mem_nil, by
        rcases List.mem_append.mp hs with hs | hs
        · exact (hpassed s hs).1
        · exact List.mem_singleton.mp hs ▸ hzero⟩)
      (by
        rw [List.map_append, List.nodup_append]
        refine ⟨hdistinct, List.nodup_singleton _, ?_⟩
        rintro _ hmem _ hlast heq
        obtain ⟨s, hs, rfl⟩ := List.mem_map.mp hmem
        exact (hpassed s hs).2.1 (heq.trans (List.mem_singleton.mp hlast)))
      (by
        obtain ⟨s, rest, rfl⟩ := List.exists_cons_of_ne_nil hne
        rintro step ⟨⟩
        exact (hpassed s List.mem_cons_self).2.1)
      hlen
    have hresult : ds.chainEgress destination nowMs ttlMs isEgress = some chain := by
      unfold DownstreamTable.chainEgress
      rw [if_neg (by simpa using hzero), hchain]
    obtain ⟨passed', last', hpath⟩ := hsimple chain hresult
    refine (List.nodup_cons.mp hpath.distinct).1 ?_
    rw [← hnode]
    exact List.mem_map_of_mem (List.mem_append_right _ List.mem_cons_self)
  · intro hnot chain hchain
    unfold DownstreamTable.chainEgress at hchain
    split at hchain
    · cases hchain
    rename_i hzero
    obtain ⟨passed, last, hwalk, hlen⟩ := followChain_spec hchain
    refine ⟨passed, last, hwalk.simple hlen fun hback => hnot ?_⟩
    have hfollows := hwalk.follows
    rw [hback] at hfollows
    refine ⟨by simpa using hzero, hback ▸ hwalk.egress, passed, last, ?_, hlen, hfollows, ?_, ?_⟩
    · rintro rfl
      exact hwalk.forward _ rfl hback
    · intro step hstep
      exact ⟨(hwalk.fresh step (List.mem_append_left _ hstep)).2, hwalk.away step hstep,
        hwalk.passedBy step hstep⟩
    · have hdistinct := hwalk.distinct
      rw [List.map_append, List.nodup_append] at hdistinct
      exact hdistinct.1

/-- The row for a destination that hangs on a relay. -/
def hangs (destination relay : UInt32) : DownstreamRow where
  destination := destination
  relay := relay
  costFixed := 100
  lastUpdateMs := 1000
  viaRadio := 0
  listLearned := false

/-- Two nodes each of which hangs on the other. -/
def loopTable : DownstreamTable := ⟨⟨[hangs 0x22 0x11, hangs 0x11 0x22], by decide⟩⟩

/-- The way to node 0x22 goes to node 0x22. -/
theorem chain_ends_where_it_began :
    ∃ chain, loopTable.chainEgress 0x22 1500 10000 (fun n => n == 0x22) = some chain ∧
      chain.node = 0x22 ∧
      ¬∃ passed last, SimpleChain loopTable 0x22 1500 10000 (fun n => n == 0x22) chain passed
        last := by
  refine ⟨⟨0x22, 2, 200⟩, rfl, rfl, ?_⟩
  rintro ⟨passed, last, hpath⟩
  refine (List.nodup_cons.mp hpath.distinct).1 ?_
  exact List.mem_map_of_mem (List.mem_append_right _ List.mem_cons_self)

end Meshrustic.Topology
