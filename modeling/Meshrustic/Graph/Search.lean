import Meshrustic.Core.Paths
import Meshrustic.Core.Table

/-!
# The backward search loop (`mesh-routing/src/graph/route.rs:145-172, 461-605`)

`backward_search` runs Dijkstra from the destination over a working table of
fixed size. The loop is stated over `hops n`, the hops into `n` in the order
the code relaxes them, and `expands n`, whether a settled node is walked
through; `limit` is the size of the table. An id that finds the table full is
dropped (`find_or_add_node` returns `None`), and stays dropped.

Results:
* `relax_cases`: everything one relaxation can do to the table.
* `loop_labels`: the loop ends, for every table size, with the labels of a
  finished search over the ids that got a slot (`Labels`).
* `loop_sound`: every label is the price of a walk over such ids, whose first
  hop is the label's `prev`.
-/
namespace Meshrustic.Graph

def ROUTE_COST_UNKNOWN : Nat := 0xFFFF
/-- The largest price a hop or a path can have: `.min(0xFFFE)`. -/
def COST_MAX : Nat := 0xFFFE

/-- `u16::saturating_add` -/
def saturatingAdd16 (a b : Nat) : Nat := min (a + b) 0xFFFF

/-- mirrors crates/mesh-routing/src/graph/route.rs:145-150 -/
structure DNode where
  id : UInt32
  cost : Nat
  prev : UInt32
  visited : Bool
  deriving DecidableEq, Repr

/-- The used part of the table and the row of `id` in it.
mirrors crates/mesh-routing/src/graph/route.rs:152-172 -/
def findOrAddNode (limit : Nat) (id : UInt32) (nodes : List DNode) : Option (List DNode × Nat) :=
  match nodes.findIdx? fun n => n.id == id with
  | some i => some (nodes, i)
  | none =>
    if limit ≤ nodes.length then none
    else some (nodes ++ [⟨id, ROUTE_COST_UNKNOWN, 0, false⟩], nodes.length)

/-- mirrors crates/mesh-routing/src/graph/route.rs:461-481 -/
def relax (limit : Nat) (nodes : List DNode) (m via : UInt32) (cost edgeCost : Nat) : List DNode :=
  match findOrAddNode limit m nodes with
  | none => nodes
  | some (nodes, i) =>
    match nodes[i]? with
    | none => nodes
    | some node =>
      if node.visited then nodes
      else
        let newCost := min (saturatingAdd16 cost edgeCost) COST_MAX
        if newCost < node.cost then nodes.set i { node with cost := newCost, prev := via }
        else nodes

/-- The scan for the cheapest open row: the first one strictly below all
before it.
mirrors crates/mesh-routing/src/graph/route.rs:504-511 -/
def pick : List DNode → Nat → Option Nat × Nat → Option Nat × Nat
  | [], _, best => best
  | node :: rest, i, best =>
    pick rest (i + 1) (if !node.visited && node.cost < best.2 then (some i, node.cost) else best)

/-- Relaxes all hops into `n`, settled at `cost`. -/
def expand (limit : Nat) (hops : List (UInt32 × Nat)) (n : UInt32) (cost : Nat)
    (nodes : List DNode) : List DNode :=
  hops.foldl (fun nodes h => relax limit nodes h.1 n cost h.2) nodes

/-- One turn of the search, and whether another follows: settle the cheapest
open row, stop at `myNode`, relax the hops into it if it is walked through.
mirrors crates/mesh-routing/src/graph/route.rs:503-590 -/
def turn (limit : Nat) (hops : UInt32 → List (UInt32 × Nat)) (expands : UInt32 → Bool)
    (myNode : UInt32) (nodes : List DNode) : List DNode × Bool :=
  match pick nodes 0 (none, ROUTE_COST_UNKNOWN) with
  | (none, _) => (nodes, false)
  | (some i, cost) =>
    match nodes[i]? with
    | none => (nodes, false)
    | some u =>
      let nodes := nodes.set i { u with visited := true }
      if u.id == myNode then (nodes, false)
      else if !expands u.id then (nodes, true)
      else (expand limit (hops u.id) u.id cost nodes, true)

/-- mirrors crates/mesh-routing/src/graph/route.rs:502-591 -/
def loop (limit : Nat) (hops : UInt32 → List (UInt32 × Nat)) (expands : UInt32 → Bool)
    (myNode : UInt32) : Nat → List DNode → List DNode
  | 0, nodes => nodes
  | fuel + 1, nodes =>
    match turn limit hops expands myNode nodes with
    | (nodes, false) => nodes
    | (nodes, true) => loop limit hops expands myNode fuel nodes

/-! ## One relaxation -/

section

variable {limit : Nat} {nodes : List DNode} {m via x : UInt32} {cost edgeCost : Nat}

/-- The row of `x`. -/
def row (nodes : List DNode) (x : UInt32) : Option DNode := lookup DNode.id nodes x

/-- The ids that have a row. -/
def ids (nodes : List DNode) : List UInt32 := nodes.map DNode.id

/-- The price a relaxation offers. -/
def offer (cost edgeCost : Nat) : Nat := min (saturatingAdd16 cost edgeCost) COST_MAX

theorem offer_eq (cost edgeCost : Nat) : offer cost edgeCost = min (cost + edgeCost) COST_MAX := by
  unfold offer saturatingAdd16 COST_MAX
  omega

theorem row_id {d : DNode} (h : row nodes x = some d) : d.id = x := lookup_key DNode.id h

theorem row_mem {d : DNode} (h : row nodes x = some d) : d ∈ nodes := List.mem_of_find?_eq_some h

theorem row_of_mem {d : DNode} (hnd : (ids nodes).Nodup) (h : d ∈ nodes) :
    row nodes d.id = some d := lookup_of_mem DNode.id hnd h

theorem mem_ids_of_row {d : DNode} (h : row nodes x = some d) : x ∈ ids nodes :=
  List.mem_map.mpr ⟨d, row_mem h, row_id h⟩

theorem row_of_mem_ids (h : x ∈ ids nodes) : ∃ d, row nodes x = some d := by
  cases hr : row nodes x with
  | none => exact absurd h (lookup_eq_none DNode.id hr)
  | some d => exact ⟨d, rfl⟩

/-- What one relaxation does: the id finds the table full; or its row is
settled or already cheap enough; or the offer is written into its row, which
is a new one if it had none. -/
inductive Relaxed (limit : Nat) (nodes : List DNode) (m via : UInt32) (new : Nat)
    (nodes' : List DNode) : Prop where
  | refused (hrow : row nodes m = none) (hfull : limit ≤ nodes.length) (heq : nodes' = nodes)
  | kept (d : DNode) (hrow : row nodes m = some d) (hd : d.visited = true ∨ d.cost ≤ new)
      (heq : nodes' = nodes)
  | written (hopen : ∀ d, row nodes m = some d → d.visited = false ∧ new < d.cost)
      (hrow : row nodes' m = some ⟨m, new, via, false⟩)
      (hother : ∀ x, x ≠ m → row nodes' x = row nodes x)
      (hids : ids nodes' = ids nodes ∨
        m ∉ ids nodes ∧ nodes.length < limit ∧ ids nodes' = ids nodes ++ [m])
      (hcount : nodes'.countP (·.visited) = nodes.countP (·.visited))

theorem countP_set_visited {i : Nat} {d d' : DNode} (hd : nodes[i]? = some d)
    (hv : d'.visited = d.visited) :
    (nodes.set i d').countP (·.visited) = nodes.countP (·.visited) := by
  obtain ⟨hi, rfl⟩ := List.getElem?_eq_some_iff.mp hd
  rw [List.countP_set hi, hv]
  by_cases h : nodes[i].visited = true
  · have hpos : 0 < nodes.countP (·.visited) :=
      List.countP_pos_iff.mpr ⟨nodes[i], List.getElem_mem hi, h⟩
    rw [if_pos h]
    exact Nat.sub_add_cancel hpos
  · rw [if_neg h]
    rfl

theorem relax_cases (limit : Nat) (nodes : List DNode) (m via : UInt32) (cost edgeCost : Nat) :
    Relaxed limit nodes m via (offer cost edgeCost) (relax limit nodes m via cost edgeCost) := by
  unfold relax findOrAddNode
  cases hf : nodes.findIdx? fun n => n.id == m with
  | some i =>
    have hi : nodes[i]? = row nodes m := findIdx_lookup DNode.id hf
    cases hr : row nodes m with
    | none =>
      rw [hr] at hi
      have := (List.findIdx?_eq_some_iff_getElem.mp hf).1
      rw [List.getElem?_eq_none_iff] at hi
      omega
    | some d =>
      rw [hr] at hi
      have hid : d.id = m := row_id hr
      simp only [hi]
      by_cases hv : d.visited = true
      · rw [if_pos hv]
        exact .kept d hr (.inl hv) rfl
      · rw [if_neg hv]
        rw [Bool.not_eq_true] at hv
        change Relaxed limit nodes m via (offer cost edgeCost)
          (if offer cost edgeCost < d.cost then
            nodes.set i { d with cost := offer cost edgeCost, prev := via } else nodes)
        by_cases hc : offer cost edgeCost < d.cost
        · rw [if_pos hc]
          have hset : row (nodes.set i { d with cost := offer cost edgeCost, prev := via }) m =
              some { d with cost := offer cost edgeCost, prev := via } :=
            lookup_set_found DNode.id hf hid
          refine .written ?_ ?_ ?_ (.inl (keys_set_same DNode.id hi rfl))
            (countP_set_visited hi rfl)
          · intro e he
            cases he.symm.trans hr
            exact ⟨hv, hc⟩
          · rw [hset, hid, hv]
          · intro x hx
            exact lookup_set_same DNode.id hi rfl (fun h => hx (h.symm.trans hid))
        · rw [if_neg hc]
          exact .kept d hr (.inr (Nat.le_of_not_lt hc)) rfl
  | none =>
    have hr : row nodes m = none := by
      rw [List.findIdx?_eq_none_iff] at hf
      apply List.find?_eq_none.mpr
      intro d hd
      simp [hf d hd]
    by_cases hfull : limit ≤ nodes.length
    · simp only [if_pos hfull]
      exact .refused hr hfull rfl
    · simp only [if_neg hfull]
      have hm : m ∉ ids nodes := lookup_eq_none DNode.id hr
      have hlt : offer cost edgeCost < ROUTE_COST_UNKNOWN := by
        rw [offer_eq]
        unfold COST_MAX ROUTE_COST_UNKNOWN
        omega
      rw [List.getElem?_append_right (Nat.le_refl _), Nat.sub_self]
      change Relaxed limit nodes m via (offer cost edgeCost)
        (if offer cost edgeCost < ROUTE_COST_UNKNOWN then
          (nodes ++ [DNode.mk m ROUTE_COST_UNKNOWN 0 false]).set nodes.length
            ⟨m, offer cost edgeCost, via, false⟩
          else nodes ++ [⟨m, ROUTE_COST_UNKNOWN, 0, false⟩])
      rw [if_pos hlt, List.set_append_right _ _ (Nat.le_refl _), Nat.sub_self, List.set_cons_zero]
      have hids : ids (nodes ++ [⟨m, offer cost edgeCost, via, false⟩]) = ids nodes ++ [m] := by
        simp [ids]
      refine Relaxed.written ?_ (lookup_append_new DNode.id hr rfl) ?_
        (Or.inr ⟨hm, Nat.lt_of_not_le hfull, hids⟩) (by simp)
      · intro d hd
        cases hr.symm.trans hd
      · intro x hx
        exact lookup_append_other DNode.id (Ne.symm hx)

theorem Relaxed.ids_grow {new : Nat} {nodes' : List DNode}
    (h : Relaxed limit nodes m via new nodes') : ids nodes <+: ids nodes' := by
  cases h with
  | refused _ _ heq => exact heq ▸ List.prefix_rfl
  | kept _ _ _ heq => exact heq ▸ List.prefix_rfl
  | written _ _ _ hids _ =>
    rcases hids with hids | ⟨-, -, hids⟩
    · exact hids ▸ List.prefix_rfl
    · exact hids ▸ List.prefix_append _ _

/-- A settled row is never written again. -/
theorem Relaxed.settled_iff {new : Nat} {nodes' : List DNode} {d : DNode}
    (h : Relaxed limit nodes m via new nodes') (hv : d.visited = true) :
    row nodes' x = some d ↔ row nodes x = some d := by
  cases h with
  | refused _ _ heq => rw [heq]
  | kept _ _ _ heq => rw [heq]
  | written hopen hrow hother _ _ =>
    by_cases hx : x = m
    · subst hx
      constructor
      · intro hd
        rw [hrow, Option.some.injEq] at hd
        subst hd
        cases hv
      · intro hd
        have := (hopen d hd).1
        rw [hv] at this
        cases this
    · rw [hother x hx]

theorem Relaxed.countP_eq {new : Nat} {nodes' : List DNode}
    (h : Relaxed limit nodes m via new nodes') :
    nodes'.countP (·.visited) = nodes.countP (·.visited) := by
  cases h with
  | refused _ _ heq => rw [heq]
  | kept _ _ _ heq => rw [heq]
  | written _ _ _ _ hcount => exact hcount

end

/-! ## The scan -/

/-- The scan returns what it came with, or the first cheapest open row. -/
theorem pick_cases (nodes : List DNode) (i : Nat) (best : Option Nat × Nat) :
    (pick nodes i best = best ∧ ∀ d ∈ nodes, d.visited = false → best.2 ≤ d.cost) ∨
    ∃ j d, nodes[j]? = some d ∧ d.visited = false ∧ d.cost < best.2 ∧
      pick nodes i best = (some (i + j), d.cost) ∧
      ∀ e ∈ nodes, e.visited = false → d.cost ≤ e.cost := by
  induction nodes generalizing i best with
  | nil => exact .inl ⟨rfl, fun d hd => absurd hd List.not_mem_nil⟩
  | cons x xs ih =>
    rw [pick]
    by_cases hx : x.visited = false ∧ x.cost < best.2
    · rw [if_pos (by simp [hx.1, hx.2])]
      right
      rcases ih (i + 1) (some i, x.cost) with ⟨heq, hle⟩ | ⟨j, d, hj, hv, hlt, heq, hle⟩
      · refine ⟨0, x, rfl, hx.1, hx.2, heq, ?_⟩
        intro e he hev
        rcases List.mem_cons.mp he with rfl | he
        · exact Nat.le_refl _
        · exact hle e he hev
      · refine ⟨j + 1, d, hj, hv, Nat.lt_trans hlt hx.2, ?_, ?_⟩
        · rw [heq, Nat.add_assoc, Nat.add_comm 1]
        · intro e he hev
          rcases List.mem_cons.mp he with rfl | he
          · exact Nat.le_of_lt hlt
          · exact hle e he hev
    · have hx' : x.visited = false → best.2 ≤ x.cost := by
        intro hv
        exact Nat.le_of_not_lt fun hlt => hx ⟨hv, hlt⟩
      rw [if_neg (by simpa using hx)]
      rcases ih (i + 1) best with ⟨heq, hle⟩ | ⟨j, d, hj, hv, hlt, heq, hle⟩
      · refine .inl ⟨heq, ?_⟩
        intro d hd hdv
        rcases List.mem_cons.mp hd with rfl | hd
        · exact hx' hdv
        · exact hle d hd hdv
      · refine .inr ⟨j + 1, d, hj, hv, hlt, ?_, ?_⟩
        · rw [heq, Nat.add_assoc, Nat.add_comm 1]
        · intro e he hev
          rcases List.mem_cons.mp he with rfl | he
          · exact Nat.le_trans (Nat.le_of_lt hlt) (hx' hev)
          · exact hle e he hev

/-! ## The loop invariant -/

section

variable {limit : Nat} {hops : UInt32 → List (UInt32 × Nat)} {expands : UInt32 → Bool}
  {myNode dest : UInt32}

/-- From `m` one reaches `n` at price `w`: a hop the search relaxes. -/
def Hop (hops : UInt32 → List (UInt32 × Nat)) (m n : UInt32) (w : Nat) : Prop := (m, w) ∈ hops n

/-- The row carries the price of a walk over ids with a row, not through
`myNode`, and its first hop. -/
def Sound (hops : UInt32 → List (UInt32 × Nat)) (expands : UInt32 → Bool) (myNode dest : UInt32)
    (nodes : List DNode) (x : UInt32) (d : DNode) : Prop :=
  ∃ ns c, Walk (Hop hops) (fun n => expands n = true) dest x ns c ∧ d.cost = min c COST_MAX ∧
    (∀ y ∈ ns, y ∈ ids nodes) ∧ myNode ∉ ns ∧
    (ns = [] ∧ d.prev = 0 ∨ ns.head? = some d.prev)

/-- The price `c` has been offered to `m`: its row is as cheap, or it has none
because the table is full. -/
def Offered (limit : Nat) (nodes : List DNode) (m : UInt32) (c : Nat) : Prop :=
  (∃ e, row nodes m = some e ∧ e.cost ≤ c) ∨ (row nodes m = none ∧ limit ≤ nodes.length)

/-- The invariant. `todo` are the hops into `cur` that wait to be relaxed:
between two turns of the loop there are none. -/
structure Search (limit : Nat) (hops : UInt32 → List (UInt32 × Nat)) (expands : UInt32 → Bool)
    (myNode dest cur : UInt32) (todo : List (UInt32 × Nat)) (nodes : List DNode) : Prop where
  nodup : (ids nodes).Nodup
  size : nodes.length ≤ limit
  start : ∃ d, row nodes dest = some d ∧ d.cost = 0
  sound : ∀ x d, row nodes x = some d → Sound hops expands myNode dest nodes x d
  order : ∀ x y d e, row nodes x = some d → row nodes y = some e → d.visited = true →
    e.visited = false → d.cost ≤ e.cost
  closed : ∀ n d m w, row nodes n = some d → d.visited = true → n ≠ myNode → expands n = true →
    (m, w) ∈ hops n → ¬ (n = cur ∧ (m, w) ∈ todo) →
      Offered limit nodes m (min (d.cost + w) COST_MAX)

theorem Sound.mono {nodes nodes' : List DNode} {x : UInt32} {d : DNode}
    (h : Sound hops expands myNode dest nodes x d) (hids : ids nodes <+: ids nodes') :
    Sound hops expands myNode dest nodes' x d := by
  obtain ⟨ns, c, hw, hc, hns, hmy, hprev⟩ := h
  exact ⟨ns, c, hw, hc, fun y hy => hids.subset (hns y hy), hmy, hprev⟩

theorem Sound.cost_le {nodes : List DNode} {x : UInt32} {d : DNode}
    (h : Sound hops expands myNode dest nodes x d) : d.cost ≤ COST_MAX := by
  obtain ⟨ns, c, hw, hc, -⟩ := h
  omega

theorem length_ids (nodes : List DNode) : (ids nodes).length = nodes.length := List.length_map ..

/-- What was offered stays offered. -/
theorem Relaxed.offered {nodes nodes' : List DNode} {m via x : UInt32} {new c : Nat}
    (h : Relaxed limit nodes m via new nodes') (ho : Offered limit nodes x c) :
    Offered limit nodes' x c := by
  have hlen := h.ids_grow.length_le
  rw [length_ids, length_ids] at hlen
  cases h with
  | refused _ _ heq => rwa [heq]
  | kept _ _ _ heq => rwa [heq]
  | written hopen hrow hother hids _ =>
    by_cases hx : x = m
    · subst hx
      rcases ho with ⟨e, he, hle⟩ | ⟨hnone, hfull⟩
      · have := (hopen e he).2
        exact .inl ⟨_, hrow, by show new ≤ c; omega⟩
      · -- a full table takes no new id
        exfalso
        rcases hids with hids | ⟨-, hlt, -⟩
        · have hmem : x ∈ ids nodes := hids ▸ mem_ids_of_row hrow
          exact lookup_eq_none DNode.id hnone hmem
        · omega
    · unfold Offered
      rw [hother x hx]
      exact ho.imp_right fun h => ⟨h.1, Nat.le_trans h.2 hlen⟩

/-- Relaxing one hop into the settled node `cur` takes it off `todo`. -/
theorem Search.relax {cur m : UInt32} {w : Nat} {todo : List (UInt32 × Nat)} {nodes : List DNode}
    {d : DNode} (h : Search limit hops expands myNode dest cur ((m, w) :: todo) nodes)
    (hcur : row nodes cur = some d) (hne : cur ≠ myNode) (hexp : expands cur = true)
    (hhop : (m, w) ∈ hops cur)
    (hmax : ∀ x e, row nodes x = some e → e.visited = true → e.cost ≤ d.cost) :
    Search limit hops expands myNode dest cur todo (relax limit nodes m cur d.cost w) := by
  have hr := relax_cases limit nodes m cur d.cost w
  have hpre := hr.ids_grow
  have hcost : d.cost ≤ COST_MAX := (h.sound cur d hcur).cost_le
  -- the offer that is taken off `todo`
  have hnew : Offered limit (Graph.relax limit nodes m cur d.cost w) m
      (min (d.cost + w) COST_MAX) := by
    have heq := offer_eq d.cost w
    cases hr with
    | refused hrow hfull hn => exact .inr (by rw [hn]; exact ⟨hrow, hfull⟩)
    | kept e hrow he hn =>
      refine .inl ⟨e, by rw [hn]; exact hrow, ?_⟩
      rcases he with hv | hle
      · have := hmax m e hrow hv
        omega
      · omega
    | written _ hrow _ _ _ => exact .inl ⟨_, hrow, by show offer d.cost w ≤ _; omega⟩
  have hclosed : ∀ n e m' w', row (Graph.relax limit nodes m cur d.cost w) n = some e →
      e.visited = true → n ≠ myNode → expands n = true → (m', w') ∈ hops n →
      ¬ (n = cur ∧ (m', w') ∈ todo) →
      Offered limit (Graph.relax limit nodes m cur d.cost w) m' (min (e.cost + w') COST_MAX) := by
    intro n e m' w' hn hv hnmy hnexp hmem hpend
    rw [hr.settled_iff hv] at hn
    by_cases hthis : n = cur ∧ (m', w') = (m, w)
    · obtain ⟨rfl, heq⟩ := hthis
      cases heq
      cases hn.symm.trans hcur
      exact hnew
    · refine hr.offered (h.closed n e m' w' hn hv hnmy hnexp hmem ?_)
      rintro ⟨rfl, hin⟩
      rcases List.mem_cons.mp hin with heq | hin
      · exact hthis ⟨rfl, heq⟩
      · exact hpend ⟨rfl, hin⟩
  cases hr with
  | refused _ _ hn =>
    rw [hn] at hclosed ⊢
    exact ⟨h.nodup, h.size, h.start, h.sound, h.order, hclosed⟩
  | kept _ _ _ hn =>
    rw [hn] at hclosed ⊢
    exact ⟨h.nodup, h.size, h.start, h.sound, h.order, hclosed⟩
  | written hopen hrow hother hids hcount =>
    refine ⟨?_, ?_, ?_, ?_, ?_, hclosed⟩
    · rcases hids with hids | ⟨hm, -, hids⟩
      · rw [hids]; exact h.nodup
      · rw [hids, List.nodup_append]
        refine ⟨h.nodup, List.nodup_singleton m, ?_⟩
        intro a ha b hb hab
        rw [List.mem_singleton] at hb
        exact hm (hb ▸ hab ▸ ha)
    · rw [← length_ids]
      rcases hids with hids | ⟨-, hlt, hids⟩
      · rw [hids, length_ids]; exact h.size
      · rw [hids, List.length_append, length_ids]; exact hlt
    · obtain ⟨e, he, hzero⟩ := h.start
      have hdm : dest ≠ m := by
        rintro rfl
        have := (hopen e he).2
        omega
      exact ⟨e, (hother dest hdm).trans he, hzero⟩
    · intro x e hx
      by_cases hxm : x = m
      · subst hxm
        cases hrow.symm.trans hx
        obtain ⟨ns, c, hw, hc, hns, hmy, -⟩ := h.sound cur d hcur
        refine ⟨cur :: ns, c + w, .step hhop (.inr hexp) hw, ?_, ?_, ?_, .inr rfl⟩
        · show offer d.cost w = _
          rw [offer_eq]
          omega
        · intro y hy
          rcases List.mem_cons.mp hy with rfl | hy
          · exact hpre.subset (mem_ids_of_row hcur)
          · exact hpre.subset (hns y hy)
        · rw [List.mem_cons, not_or]
          exact ⟨Ne.symm hne, hmy⟩
      · rw [hother x hxm] at hx
        exact (h.sound x e hx).mono hpre
    · intro x y a b ha hb hav hbv
      have hxm : x ≠ m := by
        rintro rfl
        cases hrow.symm.trans ha
        cases hav
      rw [hother x hxm] at ha
      by_cases hym : y = m
      · subst hym
        cases hrow.symm.trans hb
        have := hmax x a ha hav
        show a.cost ≤ offer d.cost w
        rw [offer_eq]
        omega
      · rw [hother y hym] at hb
        exact h.order x y a b ha hb hav hbv

/-- Relaxing all hops into `cur`. -/
theorem Search.expand {cur : UInt32} {todo : List (UInt32 × Nat)} {nodes : List DNode} {d : DNode}
    (h : Search limit hops expands myNode dest cur todo nodes)
    (hcur : row nodes cur = some d) (hdv : d.visited = true) (hne : cur ≠ myNode)
    (hexp : expands cur = true) (htodo : ∀ t ∈ todo, t ∈ hops cur)
    (hmax : ∀ x e, row nodes x = some e → e.visited = true → e.cost ≤ d.cost) :
    Search limit hops expands myNode dest cur [] (expand limit todo cur d.cost nodes) ∧
      (Graph.expand limit todo cur d.cost nodes).countP (·.visited) =
        nodes.countP (·.visited) := by
  induction todo generalizing nodes with
  | nil => exact ⟨h, rfl⟩
  | cons t todo ih =>
    obtain ⟨m, w⟩ := t
    have hr := relax_cases limit nodes m cur d.cost w
    have hstep := h.relax hcur hne hexp (htodo (m, w) List.mem_cons_self) hmax
    obtain ⟨hsearch, hcount⟩ := ih hstep ((hr.settled_iff hdv).mpr hcur)
      (fun t ht => htodo t (List.mem_cons_of_mem _ ht))
      (fun x e hx hv => hmax x e ((hr.settled_iff hv).mp hx) hv)
    exact ⟨hsearch, hcount.trans hr.countP_eq⟩

/-- Settling the cheapest open row. -/
theorem Search.settle {cur : UInt32} {nodes : List DNode} {i : Nat} {u : DNode}
    (h : Search limit hops expands myNode dest cur [] nodes) (hi : nodes[i]? = some u)
    (hu : u.visited = false)
    (hmin : ∀ x e, row nodes x = some e → e.visited = false → u.cost ≤ e.cost) :
    Search limit hops expands myNode dest u.id (hops u.id)
        (nodes.set i { u with visited := true }) ∧
      row (nodes.set i { u with visited := true }) u.id = some { u with visited := true } ∧
      (∀ x, x ≠ u.id → row (nodes.set i { u with visited := true }) x = row nodes x) ∧
      (nodes.set i { u with visited := true }).countP (·.visited) =
        nodes.countP (·.visited) + 1 := by
  have hids : ids (nodes.set i { u with visited := true }) = ids nodes :=
    keys_set_same DNode.id hi rfl
  have hother : ∀ x, x ≠ u.id →
      row (nodes.set i { u with visited := true }) x = row nodes x := by
    intro x hx
    exact lookup_set_same DNode.id hi rfl (Ne.symm hx)
  have hmem : { u with visited := true } ∈ nodes.set i { u with visited := true } :=
    List.mem_set (List.getElem?_eq_some_iff.mp hi).1 _
  have hself : row (nodes.set i { u with visited := true }) u.id =
      some { u with visited := true } :=
    row_of_mem (hids ▸ h.nodup) hmem
  have hold : row nodes u.id = some u := row_of_mem h.nodup (List.mem_of_getElem? hi)
  -- every row of the new table is an old one, but for the flag
  have hback : ∀ x e, row (nodes.set i { u with visited := true }) x = some e →
      ∃ e', row nodes x = some e' ∧ e'.cost = e.cost ∧ e'.prev = e.prev ∧
        (e.visited = false → e'.visited = false) ∧ (e.visited = true → x ≠ u.id → e' = e) := by
    intro x e hx
    by_cases hxu : x = u.id
    · subst hxu
      cases hself.symm.trans hx
      exact ⟨u, hold, rfl, rfl, fun _ => hu, fun _ hne => absurd rfl hne⟩
    · rw [hother x hxu] at hx
      exact ⟨e, hx, rfl, rfl, id, fun _ _ => rfl⟩
  have hoffered : ∀ m c, Offered limit nodes m c →
      Offered limit (nodes.set i { u with visited := true }) m c := by
    intro m c ho
    unfold Offered
    rw [List.length_set]
    by_cases hm : m = u.id
    · subst hm
      rcases ho with ⟨e, he, hle⟩ | ⟨hnone, -⟩
      · cases he.symm.trans hold
        exact .inl ⟨_, hself, hle⟩
      · cases hnone.symm.trans hold
    · rw [hother m hm]
      exact ho
  refine ⟨⟨hids ▸ h.nodup, ?_, ?_, ?_, ?_, ?_⟩, hself, hother, ?_⟩
  · rw [List.length_set]; exact h.size
  · obtain ⟨d, hd, hzero⟩ := h.start
    by_cases hx : dest = u.id
    · rw [hx] at hd ⊢
      cases hd.symm.trans hold
      exact ⟨_, hself, hzero⟩
    · exact ⟨d, (hother dest hx).trans hd, hzero⟩
  · intro x e hx
    obtain ⟨e', he', hcost, hprev, -⟩ := hback x e hx
    obtain ⟨ns, c, hw, hc, hns, hmy, hp⟩ := h.sound x e' he'
    exact ⟨ns, c, hw, hcost ▸ hc, hids ▸ hns, hmy, hprev ▸ hp⟩
  · intro x y a b ha hb hav hbv
    obtain ⟨b', hb', hbc, -, hbo, -⟩ := hback y b hb
    by_cases hxu : x = u.id
    · subst hxu
      cases hself.symm.trans ha
      exact hbc ▸ hmin y b' hb' (hbo hbv)
    · obtain ⟨a', ha', -, -, -, hae⟩ := hback x a ha
      obtain rfl := hae hav hxu
      exact hbc ▸ h.order x y a' b' ha' hb' hav (hbo hbv)
  · intro n d m w hn hv hnmy hnexp hmem hpend
    by_cases hnu : n = u.id
    · subst hnu
      exact absurd ⟨rfl, hmem⟩ hpend
    · obtain ⟨d', hd', -, -, -, hde⟩ := hback n d hn
      obtain rfl := hde hv hnu
      exact hoffered _ _ (h.closed n d' m w hd' hv hnmy hnexp hmem (fun h => List.not_mem_nil h.2))
  · obtain ⟨hlt, rfl⟩ := List.getElem?_eq_some_iff.mp hi
    rw [List.countP_set hlt, hu]
    simp

/-- The loop is over: an open row is no cheaper than the row of `myNode`. -/
structure Finished (limit : Nat) (hops : UInt32 → List (UInt32 × Nat)) (expands : UInt32 → Bool)
    (myNode dest : UInt32) (nodes : List DNode) : Prop where
  search : ∃ cur, Search limit hops expands myNode dest cur [] nodes
  frontier : ∀ x e, row nodes x = some e → e.visited = false →
    ∃ g, row nodes myNode = some g ∧ g.cost ≤ e.cost

/-- Rows that are not walked through have no hops to wait for. -/
theorem Search.skip {cur n : UInt32} {todo : List (UInt32 × Nat)} {nodes : List DNode}
    (h : Search limit hops expands myNode dest cur todo nodes)
    (hcur : cur = myNode ∨ expands cur = false) :
    Search limit hops expands myNode dest n [] nodes := by
  refine ⟨h.nodup, h.size, h.start, h.sound, h.order, ?_⟩
  intro x d m w hx hv hne hexp hmem _
  refine h.closed x d m w hx hv hne hexp hmem ?_
  rintro ⟨rfl, -⟩
  rcases hcur with rfl | hcur
  · exact hne rfl
  · rw [hcur] at hexp
    cases hexp

/-- A turn settles one more row and keeps the invariant, or it is the last. -/
theorem Search.turn {cur : UInt32} {nodes nodes' : List DNode} {more : Bool}
    (h : Search limit hops expands myNode dest cur [] nodes)
    (hturn : turn limit hops expands myNode nodes = (nodes', more)) :
    (more = false ∧ Finished limit hops expands myNode dest nodes') ∨
    (more = true ∧ (∃ cur', Search limit hops expands myNode dest cur' [] nodes') ∧
      nodes'.countP (·.visited) = nodes.countP (·.visited) + 1) := by
  unfold Graph.turn at hturn
  rcases pick_cases nodes 0 (none, ROUTE_COST_UNKNOWN) with
    ⟨heq, hle⟩ | ⟨i, u, hi, hu, hlt, heq, hmin⟩
  · rw [heq] at hturn
    cases hturn
    refine .inl ⟨rfl, ⟨cur, h⟩, ?_⟩
    intro x e hx hv
    -- a row is never left at the unknown price
    have hcost := (h.sound x e hx).cost_le
    have := hle e (row_mem hx) hv
    simp only [ROUTE_COST_UNKNOWN, COST_MAX] at this hcost
    omega
  · rw [heq, Nat.zero_add] at hturn
    simp only [hi] at hturn
    obtain ⟨hset, hself, hother, hcount⟩ :=
      h.settle hi hu fun x e hx hv => hmin e (row_mem hx) hv
    by_cases hmy : u.id = myNode
    · rw [if_pos (beq_iff_eq.mpr hmy)] at hturn
      cases hturn
      refine .inl ⟨rfl, ⟨u.id, hset.skip (.inl hmy)⟩, ?_⟩
      intro x e hx hv
      by_cases hxu : x = u.id
      · subst hxu
        cases hself.symm.trans hx
        cases hv
      · rw [hother x hxu] at hx
        exact ⟨{ u with visited := true }, by rw [← hmy]; exact hself, hmin e (row_mem hx) hv⟩
    · rw [if_neg (fun hb => hmy (beq_iff_eq.mp hb))] at hturn
      by_cases hexp : expands u.id = true
      · rw [if_neg (by simp [hexp])] at hturn
        cases hturn
        have hmax : ∀ x e, row (nodes.set i { u with visited := true }) x = some e →
            e.visited = true → e.cost ≤ u.cost := by
          intro x e hx hv
          by_cases hxu : x = u.id
          · subst hxu
            cases hself.symm.trans hx
            exact Nat.le_refl _
          · rw [hother x hxu] at hx
            exact h.order x u.id e u hx (row_of_mem h.nodup (List.mem_of_getElem? hi)) hv hu
        obtain ⟨hsearch, hcount'⟩ := hset.expand hself rfl hmy hexp (fun _ ht => ht) hmax
        exact .inr ⟨rfl, ⟨u.id, hsearch⟩, hcount'.trans hcount⟩
      · rw [if_pos (by simpa using hexp)] at hturn
        cases hturn
        have hnot : expands u.id = false := by simpa using hexp
        exact .inr ⟨rfl, ⟨u.id, hset.skip (.inr hnot)⟩, hcount⟩

/-- Each turn settles one row, so a turn for every row of the table is
enough. -/
theorem Search.loop {cur : UInt32} {fuel : Nat} {nodes : List DNode}
    (h : Search limit hops expands myNode dest cur [] nodes)
    (hfuel : limit < fuel + nodes.countP (·.visited)) :
    Finished limit hops expands myNode dest (loop limit hops expands myNode fuel nodes) := by
  induction fuel generalizing cur nodes with
  | zero =>
    have hle : nodes.countP (·.visited) ≤ nodes.length := List.countP_le_length
    have := h.size
    omega
  | succ fuel ih =>
    rw [Graph.loop]
    cases hturn : Graph.turn limit hops expands myNode nodes with
    | mk nodes' more =>
      rcases h.turn hturn with ⟨rfl, hfin⟩ | ⟨rfl, ⟨cur', hnext⟩, hcount⟩
      · exact hfin
      · exact ih hnext (by omega)

/-- The labels of the finished search, over the ids that got a row; a table
that never filled up had one for every id it met. -/
theorem Finished.labels {nodes : List DNode} (hdest : expands dest = true)
    (h : Finished limit hops expands myNode dest nodes) :
    Labels (Hop hops) (fun n => expands n = true) dest myNode COST_MAX
      (fun x => x ∈ ids nodes ∨ nodes.length < limit)
      (fun x => (row nodes x).map (·.cost))
      (fun x => ∃ d, row nodes x = some d ∧ d.visited = true) := by
  obtain ⟨cur, hs⟩ := h.search
  refine ⟨?_, ?_, ?_⟩
  · obtain ⟨d, hd, hzero⟩ := hs.start
    simp [hd, hzero]
  · rintro n ln m w ⟨d, hd, hv⟩ hne hok hl hhop hslot
    have hexp : expands n = true := hok.elim (fun h => h ▸ hdest) id
    simp only [hd, Option.map_some, Option.some.injEq] at hl
    subst hl
    rcases hs.closed n d m w hd hv hne hexp hhop (fun h => List.not_mem_nil h.2) with
      ⟨e, he, hle⟩ | ⟨hnone, hfull⟩
    · exact ⟨e.cost, by simp [he], hle⟩
    · rcases hslot with hslot | hroom
      · exact absurd hslot (lookup_eq_none DNode.id hnone)
      · omega
  · intro n ln hl hopen
    rw [Option.map_eq_some_iff] at hl
    obtain ⟨e, he, rfl⟩ := hl
    have hv : e.visited = false := by
      cases hv : e.visited with
      | false => rfl
      | true => exact absurd ⟨e, he, hv⟩ hopen
    obtain ⟨g, hg, hle⟩ := h.frontier n e he hv
    exact ⟨g.cost, by simp [hg], hle⟩

/-- The destination in the empty table, at price 0.
mirrors crates/mesh-routing/src/graph/route.rs:492-500 -/
def seed (dest : UInt32) : List DNode := [⟨dest, 0, 0, false⟩]

theorem Search.init (hlimit : 0 < limit) :
    Search limit hops expands myNode dest dest [] (seed dest) := by
  have hrow : ∀ x d, row (seed dest) x = some d → x = dest ∧ d = ⟨dest, 0, 0, false⟩ := by
    intro x d h
    have hd := List.mem_singleton.mp (row_mem h)
    exact ⟨by rw [← row_id h, hd], hd⟩
  refine ⟨List.nodup_singleton _, hlimit, ⟨⟨dest, 0, 0, false⟩, by simp [row, seed, lookup], rfl⟩,
    ?_, ?_, ?_⟩
  · intro x d h
    obtain ⟨rfl, rfl⟩ := hrow x d h
    exact ⟨[], 0, .done, rfl, fun _ h => absurd h List.not_mem_nil, List.not_mem_nil,
      .inl ⟨rfl, rfl⟩⟩
  · intro x y d e hd _ hv _
    obtain ⟨-, rfl⟩ := hrow x d hd
    cases hv
  · intro n d m w hd hv
    obtain ⟨-, rfl⟩ := hrow n d hd
    cases hv

/-- The search from `dest`, with as many turns as the table has rows. -/
def table (limit : Nat) (hops : UInt32 → List (UInt32 × Nat)) (expands : UInt32 → Bool)
    (myNode dest : UInt32) : List DNode :=
  loop limit hops expands myNode (limit + 1) (seed dest)

theorem table_finished (hlimit : 0 < limit) :
    Finished limit hops expands myNode dest (table limit hops expands myNode dest) :=
  (Search.init hlimit).loop (by omega)

/-! ## The first offer

The destination is settled first, so the nodes with a hop into it get this
hop's offer before any other; only a cheaper one takes its place. -/

/-- The row of `x` carries the offer `c` from `via`, or a cheaper one; or it has
none because the table is full. -/
def Held (limit : Nat) (nodes : List DNode) (x via : UInt32) (c : Nat) : Prop :=
  (∃ e, row nodes x = some e ∧ (e.cost < c ∨ e.cost = c ∧ e.prev = via)) ∨
    (row nodes x = none ∧ limit ≤ nodes.length)

theorem Relaxed.held {nodes nodes' : List DNode} {m via x first : UInt32} {new c : Nat}
    (h : Relaxed limit nodes m via new nodes') (hheld : Held limit nodes x first c) :
    Held limit nodes' x first c := by
  have hlen := h.ids_grow.length_le
  rw [length_ids, length_ids] at hlen
  cases h with
  | refused _ _ heq => rwa [heq]
  | kept _ _ _ heq => rwa [heq]
  | written hopen hrow hother hids _ =>
    by_cases hx : x = m
    · subst hx
      rcases hheld with ⟨e, he, hle⟩ | ⟨hnone, hfull⟩
      · -- what is written is cheaper than what was there
        have hlt := (hopen e he).2
        exact .inl ⟨_, hrow, .inl (show new < c by omega)⟩
      · exfalso
        rcases hids with hids | ⟨-, hlt, -⟩
        · have hmem : x ∈ ids nodes := hids ▸ mem_ids_of_row hrow
          exact lookup_eq_none DNode.id hnone hmem
        · omega
    · unfold Held
      rw [hother x hx]
      exact hheld.imp_right fun h => ⟨h.1, Nat.le_trans h.2 hlen⟩

theorem expand_held {nodes : List DNode} {x first cur : UInt32} {c cost : Nat}
    (hs : List (UInt32 × Nat)) (h : Held limit nodes x first c) :
    Held limit (expand limit hs cur cost nodes) x first c := by
  induction hs generalizing nodes with
  | nil => exact h
  | cons t hs ih => exact ih ((relax_cases limit nodes t.1 cur cost t.2).held h)

/-- A node without a row is offered the hop into `cur` when that is expanded. -/
theorem expand_offers {nodes : List DNode} {x cur : UInt32} {w cost : Nat}
    {hs : List (UInt32 × Nat)} (hx : (x, w) ∈ hs) (hone : ∀ w', (x, w') ∈ hs → w' = w)
    (hnone : row nodes x = none) :
    Held limit (expand limit hs cur cost nodes) x cur (offer cost w) := by
  induction hs generalizing nodes with
  | nil => cases hx
  | cons t hs ih =>
    obtain ⟨m, w'⟩ := t
    have hr := relax_cases limit nodes m cur cost w'
    change Held limit (expand limit hs cur cost (relax limit nodes m cur cost w')) x cur _
    by_cases hm : m = x
    · subst hm
      obtain rfl := hone w' List.mem_cons_self
      refine expand_held hs ?_
      cases hr with
      | refused _ hfull heq => exact .inr (by rw [heq]; exact ⟨hnone, hfull⟩)
      | kept d hrow _ _ => cases hrow.symm.trans hnone
      | written _ hrow _ _ _ => exact .inl ⟨_, hrow, .inr ⟨rfl, rfl⟩⟩
    · have hmem : (x, w) ∈ hs := by
        rcases List.mem_cons.mp hx with heq | hx
        · cases heq
          exact absurd rfl hm
        · exact hx
      refine ih hmem (fun w' hw' => hone w' (List.mem_cons_of_mem _ hw')) ?_
      cases hr with
      | refused _ _ heq => rw [heq]; exact hnone
      | kept _ _ _ heq => rw [heq]; exact hnone
      | written _ _ hother _ _ => rw [hother x (Ne.symm hm)]; exact hnone

theorem Search.turn_held {cur x first : UInt32} {c : Nat} {nodes : List DNode}
    (h : Search limit hops expands myNode dest cur [] nodes) (hheld : Held limit nodes x first c) :
    Held limit (Graph.turn limit hops expands myNode nodes).1 x first c := by
  unfold Graph.turn
  split
  · exact hheld
  · split
    · exact hheld
    · rename_i i cost _ _ u hi
      -- settling a row changes its flag alone
      have hset : Held limit (nodes.set i { u with visited := true }) x first c := by
        have hmem : { u with visited := true } ∈ nodes.set i { u with visited := true } :=
          List.mem_set (List.getElem?_eq_some_iff.mp hi).1 _
        have hids : ids (nodes.set i { u with visited := true }) = ids nodes :=
          keys_set_same DNode.id hi rfl
        unfold Held
        rw [List.length_set]
        by_cases hx : x = u.id
        · subst hx
          have hself : row (nodes.set i { u with visited := true }) u.id =
              some { u with visited := true } := row_of_mem (hids ▸ h.nodup) hmem
          rcases hheld with ⟨e, he, hle⟩ | ⟨hnone, -⟩
          · cases he.symm.trans (row_of_mem h.nodup (List.mem_of_getElem? hi))
            exact .inl ⟨_, hself, hle⟩
          · cases hnone.symm.trans (row_of_mem h.nodup (List.mem_of_getElem? hi))
        · rw [show row (nodes.set i { u with visited := true }) x = row nodes x from
            lookup_set_same DNode.id hi rfl (Ne.symm hx)]
          exact hheld
      dsimp only
      split
      · exact hset
      · split
        · exact hset
        · exact expand_held _ hset

theorem Search.loop_held {cur x first : UInt32} {c fuel : Nat} {nodes : List DNode}
    (h : Search limit hops expands myNode dest cur [] nodes) (hheld : Held limit nodes x first c) :
    Held limit (Graph.loop limit hops expands myNode fuel nodes) x first c := by
  induction fuel generalizing cur nodes with
  | zero => exact hheld
  | succ fuel ih =>
    have hnext := h.turn_held hheld
    rw [Graph.loop]
    cases hturn : Graph.turn limit hops expands myNode nodes with
    | mk nodes' more =>
      rw [hturn] at hnext
      rcases h.turn hturn with ⟨rfl, -⟩ | ⟨rfl, ⟨cur', hsearch⟩, -⟩
      · exact hnext
      · exact ih hsearch hnext

/-- A node with a hop into the destination ends with this hop, unless there is a
cheaper way for it. -/
theorem table_held {x : UInt32} {w : Nat} (hlimit : 0 < limit) (hexp : expands dest = true)
    (hmy : dest ≠ myNode) (hx : x ≠ dest) (hhop : (x, w) ∈ hops dest)
    (hone : ∀ w', (x, w') ∈ hops dest → w' = w) :
    Held limit (table limit hops expands myNode dest) x dest (offer 0 w) := by
  have hturn : Graph.turn limit hops expands myNode (seed dest) =
      (expand limit (hops dest) dest 0 [⟨dest, 0, 0, true⟩], true) := by
    unfold Graph.turn
    rw [show pick (seed dest) 0 (none, ROUTE_COST_UNKNOWN) = (some 0, 0) from rfl]
    simp [seed, hmy, hexp]
  have hinit : Search limit hops expands myNode dest dest [] (seed dest) := .init hlimit
  have hfirst : Held limit (expand limit (hops dest) dest 0 [⟨dest, 0, 0, true⟩]) x dest
      (offer 0 w) :=
    expand_offers hhop hone (by simp [row, lookup, Ne.symm hx])
  rcases hinit.turn hturn with ⟨hfalse, -⟩ | ⟨-, ⟨cur, hsearch⟩, -⟩
  · cases hfalse
  · unfold table
    rw [Graph.loop, hturn]
    exact hsearch.loop_held hfirst

/-! ## The order of arrival

Ids get their rows in the order in which the search meets them. A smaller
table holds the first of them, and nothing else. -/

theorem relax_ids (limit : Nat) (nodes : List DNode) (m via : UInt32) (c w : Nat) :
    ids (relax limit nodes m via c w) =
      if m ∈ ids nodes ∨ limit ≤ nodes.length then ids nodes else ids nodes ++ [m] := by
  unfold relax findOrAddNode
  cases hf : nodes.findIdx? fun n => n.id == m with
  | some i =>
    obtain ⟨hi, hm, -⟩ := List.findIdx?_eq_some_iff_getElem.mp hf
    have hmem : m ∈ ids nodes :=
      List.mem_map.mpr ⟨nodes[i], List.getElem_mem hi, beq_iff_eq.mp hm⟩
    refine Eq.trans ?_ (if_pos (.inl hmem)).symm
    simp only [List.getElem?_eq_getElem hi]
    split
    · rfl
    · split
      · have hget : nodes[i]? = some nodes[i] := List.getElem?_eq_getElem hi
        exact keys_set_same DNode.id hget rfl
      · rfl
  | none =>
    have hmem : m ∉ ids nodes := by
      rw [List.findIdx?_eq_none_iff] at hf
      intro hmem
      obtain ⟨d, hd, rfl⟩ := List.mem_map.mp hmem
      simpa using hf d hd
    by_cases hfull : limit ≤ nodes.length
    · refine Eq.trans ?_ (if_pos (.inr hfull)).symm
      simp only [if_pos hfull]
    · refine Eq.trans ?_ (if_neg (not_or.mpr ⟨hmem, hfull⟩)).symm
      simp only [if_neg hfull]
      rw [List.getElem?_append_right (Nat.le_refl _), Nat.sub_self]
      simp only [List.getElem?_cons_zero, Bool.false_eq_true, if_false]
      split
      · rw [List.set_append_right _ _ (Nat.le_refl _), Nat.sub_self, List.set_cons_zero]
        simp [ids]
      · simp [ids]

/-- Both tables have room, or the id is known: the relaxation is the same. -/
theorem relax_limit_congr {limit limit' : Nat} {nodes : List DNode} {m : UInt32} (via : UInt32)
    (c w : Nat) (hm : m ∈ ids nodes ∨ nodes.length < limit ∧ nodes.length < limit') :
    relax limit nodes m via c w = relax limit' nodes m via c w := by
  unfold relax findOrAddNode
  cases hf : nodes.findIdx? fun n => n.id == m with
  | some i => rfl
  | none =>
    rcases hm with hm | ⟨h, h'⟩
    · rw [List.findIdx?_eq_none_iff] at hf
      obtain ⟨d, hd, rfl⟩ := List.mem_map.mp hm
      have := hf d hd
      simp at this
    · rw [if_neg (Nat.not_le_of_lt h), if_neg (Nat.not_le_of_lt h')]

theorem relax_ids_grow (limit : Nat) (nodes : List DNode) (m via : UInt32) (c w : Nat) :
    ids nodes <+: ids (relax limit nodes m via c w) := by
  rw [relax_ids]
  split
  · exact List.prefix_rfl
  · exact List.prefix_append _ _

theorem expand_ids_grow (limit : Nat) (hs : List (UInt32 × Nat)) (n : UInt32) (c : Nat)
    (nodes : List DNode) : ids nodes <+: ids (expand limit hs n c nodes) := by
  induction hs generalizing nodes with
  | nil => exact List.prefix_rfl
  | cons t hs ih => exact (relax_ids_grow limit nodes t.1 n c t.2).trans (ih _)

theorem expand_ids_full {limit : Nat} {nodes : List DNode} (hs : List (UInt32 × Nat)) (n : UInt32)
    (c : Nat) (hfull : limit ≤ nodes.length) : ids (expand limit hs n c nodes) = ids nodes := by
  induction hs generalizing nodes with
  | nil => rfl
  | cons t hs ih =>
    have hids : ids (relax limit nodes t.1 n c t.2) = ids nodes := by
      rw [relax_ids, if_pos (.inr hfull)]
    have hlen : limit ≤ (relax limit nodes t.1 n c t.2).length := by
      rw [← length_ids, hids, length_ids]; exact hfull
    exact (ih hlen).trans hids

/-- The smaller table has filled up, with the ids the larger one met first. -/
def Truncated (limit : Nat) (nodes nodes' : List DNode) : Prop :=
  nodes.length = limit ∧ ids nodes <+: ids nodes'

theorem expand_truncated {limit limit' : Nat} {nodes : List DNode} (hs : List (UInt32 × Nat))
    (n : UInt32) (c : Nat) (hsize : nodes.length ≤ limit) (hlimit : limit ≤ limit') :
    expand limit hs n c nodes = expand limit' hs n c nodes ∨
      Truncated limit (expand limit hs n c nodes) (expand limit' hs n c nodes) := by
  induction hs generalizing nodes with
  | nil => exact .inl rfl
  | cons t hs ih =>
    by_cases hfull : t.1 ∉ ids nodes ∧ nodes.length = limit
    · -- the first refusal: from here on the smaller table keeps its ids
      right
      have hids := expand_ids_full (t :: hs) n c (Nat.le_of_eq hfull.2.symm)
      refine ⟨?_, ?_⟩
      · rw [← length_ids, hids, length_ids]; exact hfull.2
      · rw [hids]; exact expand_ids_grow limit' (t :: hs) n c nodes
    · have hroom : t.1 ∈ ids nodes ∨ nodes.length < limit ∧ nodes.length < limit' := by
        by_cases hm : t.1 ∈ ids nodes
        · exact .inl hm
        · have : nodes.length ≠ limit := fun h => hfull ⟨hm, h⟩
          omega
      have hsame := relax_limit_congr n c t.2 hroom
      have hsize' : (relax limit nodes t.1 n c t.2).length ≤ limit := by
        rw [← length_ids, relax_ids]
        split
        · rw [length_ids]; exact hsize
        · rename_i h
          rw [not_or] at h
          rw [List.length_append, length_ids, List.length_singleton]
          omega
      have := ih hsize'
      rw [hsame] at this
      simp only [expand, List.foldl_cons, hsame]
      exact this

theorem turn_ids_grow (limit : Nat) (hops : UInt32 → List (UInt32 × Nat))
    (expands : UInt32 → Bool) (myNode : UInt32) (nodes : List DNode) :
    ids nodes <+: ids (turn limit hops expands myNode nodes).1 := by
  unfold turn
  split
  · exact List.prefix_rfl
  · split
    · exact List.prefix_rfl
    · rename_i i cost _ _ u hu
      have hids : ids (nodes.set i { u with visited := true }) = ids nodes :=
        keys_set_same DNode.id hu rfl
      split
      · exact hids ▸ List.prefix_rfl
      · split
        · exact hids ▸ List.prefix_rfl
        · exact hids ▸ expand_ids_grow limit (hops u.id) u.id cost _

theorem loop_ids_grow (limit : Nat) (hops : UInt32 → List (UInt32 × Nat))
    (expands : UInt32 → Bool) (myNode : UInt32) (fuel : Nat) (nodes : List DNode) :
    ids nodes <+: ids (loop limit hops expands myNode fuel nodes) := by
  induction fuel generalizing nodes with
  | zero => exact List.prefix_rfl
  | succ fuel ih =>
    have hturn := turn_ids_grow limit hops expands myNode nodes
    rw [loop]
    split
    · rename_i h
      rw [h] at hturn
      exact hturn
    · rename_i nodes' h
      rw [h] at hturn
      exact hturn.trans (ih nodes')

theorem turn_loop_grow (limit : Nat) (hops : UInt32 → List (UInt32 × Nat))
    (expands : UInt32 → Bool) (myNode : UInt32) (fuel : Nat) (nodes : List DNode) :
    ids (turn limit hops expands myNode nodes).1 <+:
      ids (loop limit hops expands myNode (fuel + 1) nodes) := by
  rw [loop]
  split
  · rename_i nodes' h
    have hnodes : (turn limit hops expands myNode nodes).1 = nodes' := congrArg Prod.fst h
    exact hnodes ▸ List.prefix_rfl
  · rename_i nodes' h
    rw [h]
    exact loop_ids_grow limit hops expands myNode fuel nodes'

/-- One turn of both tables. -/
theorem turn_truncated {limit limit' : Nat} {nodes : List DNode}
    (hops : UInt32 → List (UInt32 × Nat)) (expands : UInt32 → Bool) (myNode : UInt32)
    (hsize : nodes.length ≤ limit) (hlimit : limit ≤ limit') :
    turn limit hops expands myNode nodes = turn limit' hops expands myNode nodes ∨
      Truncated limit (turn limit hops expands myNode nodes).1
        (turn limit' hops expands myNode nodes).1 := by
  unfold turn
  split
  · exact .inl rfl
  · split
    · exact .inl rfl
    · rename_i i cost _ _ u hu
      split
      · exact .inl rfl
      · split
        · exact .inl rfl
        · have hlen : (nodes.set i { u with visited := true }).length ≤ limit := by
            rw [List.length_set]; exact hsize
          rcases expand_truncated (hops u.id) u.id cost hlen hlimit with heq | htr
          · exact .inl (congrArg (fun t => (t, true)) heq)
          · exact .inr htr

/-- A table with a larger limit meets the same ids first. -/
theorem Search.loop_ids_take {limit limit' cur fuel fuel'} {nodes : List DNode}
    (h : Search limit hops expands myNode dest cur [] nodes) (hlimit : limit ≤ limit')
    (hfuel : limit < fuel + nodes.countP (·.visited))
    (hfuel' : limit' < fuel' + nodes.countP (·.visited)) :
    ids (Graph.loop limit hops expands myNode fuel nodes) =
      (ids (Graph.loop limit' hops expands myNode fuel' nodes)).take limit := by
  induction fuel generalizing cur fuel' nodes with
  | zero =>
    have hle : nodes.countP (·.visited) ≤ nodes.length := List.countP_le_length
    have := h.size
    omega
  | succ fuel ih =>
    have hle : nodes.countP (·.visited) ≤ nodes.length := List.countP_le_length
    have hsize := h.size
    obtain ⟨k, rfl⟩ : ∃ k, fuel' = k + 1 := ⟨fuel' - 1, by omega⟩
    obtain ⟨cur', hfinal⟩ := (h.loop hfuel).search
    rcases turn_truncated hops expands myNode hsize hlimit with heq | ⟨hlen, hpre⟩
    · rw [Graph.loop, Graph.loop, ← heq]
      cases hturn : Graph.turn limit hops expands myNode nodes with
      | mk nodes' more =>
        rcases h.turn hturn with ⟨rfl, hfin⟩ | ⟨rfl, ⟨cur', hnext⟩, hcount⟩
        · obtain ⟨_, hs⟩ := hfin.search
          exact (List.take_of_length_le (by rw [length_ids]; exact hs.size)).symm
        · exact ih hnext (by omega) (by omega)
    · -- full: the ids of the smaller table are final, and lead those of the larger
      have hmine := turn_loop_grow limit hops expands myNode fuel nodes
      have hfixed := hmine.eq_of_length_le (by rw [length_ids, length_ids, hlen]; exact hfinal.size)
      have htheirs := hpre.trans (turn_loop_grow limit' hops expands myNode k nodes)
      rw [← hfixed, List.prefix_iff_eq_take.mp htheirs, length_ids, hlen]

theorem table_ids_take {limit limit' : Nat} (hlimit : 0 < limit) (hle : limit ≤ limit') :
    ids (table limit hops expands myNode dest) =
      (ids (table limit' hops expands myNode dest)).take limit :=
  (Search.init hlimit).loop_ids_take hle (by omega) (by omega)

end

end Meshrustic.Graph
