import Meshrustic.Graph.Capability
import Meshrustic.Graph.Edge
import Meshrustic.Graph.Search

/-!
# Route search (`mesh-routing/src/graph/route.rs`)

`backward_search` asks for the cheapest path from `my_node` to a destination.
A hop from `m` to `n` exists when `n` lists `m`, or when `m` lists `n` and `n`
publishes no topology of its own (`Reaches`), at the price `hopPrice`; the
nodes on the way must be routable. Prices are `u16` sums that saturate at
`0xFFFE`.

Results:
* `mem_hopsInto`: the hops the code relaxes are these hops at these prices.
* `backwardSearch_correct_iff`: the search is complete and optimal exactly
  when every path is matched by one, no dearer, over the first
  `MAX_GRAPH_NODES` ids the search meets. The working table has that many
  rows, for publishers and for all the leaves their lists mention.
* `Query.correct_of_room`: with a row for every id it would be so always.
* `backwardSearch_known_iff`, `backwardSearch_direct_iff`: when the search
  answers, and when its first hop is the destination, by the paths over these
  ids.
* `dense_list_hides_route`: one long list is enough to lose a route.
-/
namespace Meshrustic.Graph

open Meshrustic.Admin

def TOPOLOGY_BROADCAST_MS : Nat := 900000
def UNVERIFIED_HOP_COST_FACTOR : Nat := 4

/-- mirrors crates/mesh-routing/src/graph/route.rs:14-19 -/
structure RoutableFilter where
  capability : CapabilityCache
  myNode : UInt32
  deviceRole : UInt32
  excluded : List UInt32

/-- mirrors crates/mesh-routing/src/graph/route.rs:21-36 -/
def isNodeRoutable (filter : RoutableFilter) (nodeId : UInt32) : Bool :=
  if nodeId == 0 then false
  else if filter.excluded.contains nodeId then false
  else if filter.deviceRole == DEVICE_ROLE_CLIENT_MUTE && nodeId == filter.myNode then false
  else
    match filter.capability.status nodeId with
    | .legacy => filter.capability.isLegacyRouter nodeId
    | .passive => false
    | _ => true

/-- mirrors crates/mesh-routing/src/graph/route.rs:208-213 -/
def publishesTopology (capability : Option CapabilityCache) (node : UInt32) : Bool :=
  match capability with
  | none => false
  | some c => c.publishesTopology node

/-- mirrors crates/mesh-routing/src/graph/route.rs:234-250 -/
def pricedHopCostFixed (edge : Edge) (listOwner myNode nowMs : UInt32) (unverified : Bool) : Nat :=
  let etx :=
    if unverified then min (edge.etxFixed.toNat * UNVERIFIED_HOP_COST_FACTOR) 0xFFFF
    else edge.etxFixed.toNat
  let ourRx := listOwner == myNode && edge.source == .reported
  let varByte := effectiveVarianceByte edge nowMs TOPOLOGY_BROADCAST_MS ourRx
  let weight := if ourRx then 10 else 5
  min (saturatingAdd16 etx (varByte * weight)) COST_MAX

/-- The price `relax_priced` hands to `relax`: a hop out of `my_node` is at
least as dear as our own reception of the node it goes to.
mirrors crates/mesh-routing/src/graph/route.rs:252-276 -/
def relaxPrice (edges : EdgeStore) (myNode nowMs m via listOwner : UInt32) (edge : Edge)
    (unverified : Bool) : Nat :=
  let edgeCost := pricedHopCostFixed edge listOwner myNode nowMs unverified
  if m == myNode then
    match edges.edge myNode via with
    | none => edgeCost
    | some rx =>
      if rx.source == .reported && rx.lastHeardMs != 0 then
        max edgeCost (pricedHopCostFixed rx myNode myNode nowMs false)
      else edgeCost
  else edgeCost

/-- The hops into `n`, in the order the code relaxes them: the list of `n`,
then the stored nodes that list `n` and are not listed by it.
mirrors crates/mesh-routing/src/graph/route.rs:531-590 -/
def hopsInto (edges : EdgeStore) (capability : Option CapabilityCache) (myNode nowMs : UInt32)
    (allowUnverified : Bool) (n : UInt32) : List (UInt32 × Nat) :=
  (edges.listed n).map (fun edge =>
    (edge.toNode, relaxPrice edges myNode nowMs edge.toNode n n edge false)) ++
  edges.nodeIds.filterMap fun m =>
    if m == n then none
    else if (edges.edge n m).isSome then none
    else
      match edges.edge m n with
      | none => none
      | some edge =>
        if !publishesTopology capability n then
          some (m, relaxPrice edges myNode nowMs m n m edge false)
        else if allowUnverified then some (m, relaxPrice edges myNode nowMs m n m edge true)
        else none

/-- A node on the way: the destination, or one the filter lets pass.
mirrors crates/mesh-routing/src/graph/route.rs:523-529 -/
def walksThrough (routable : Option RoutableFilter) (destination n : UInt32) : Bool :=
  n == destination ||
    match routable with
    | none => true
    | some filter => isNodeRoutable filter n

/-- mirrors crates/mesh-routing/src/graph/route.rs:174-179 -/
def prevOf (nodes : List DNode) (id : UInt32) : UInt32 :=
  match row nodes id with
  | none => 0
  | some n => n.prev

/-- The hop count, read off the `prev` chain.
mirrors crates/mesh-routing/src/graph/route.rs:597-602 -/
def countHops (nodes : List DNode) (destination : UInt32) : Nat → UInt32 → Nat → Nat
  | 0, _, hops => hops
  | fuel + 1, cur, hops =>
    if cur != destination && cur != 0 && hops < MAX_GRAPH_NODES then
      countHops nodes destination fuel (prevOf nodes cur) (hops + 1)
    else hops

/-- What the search reads off its table: price, next hop, hop count.
mirrors crates/mesh-routing/src/graph/route.rs:593-603 -/
def routeOf (nodes : List DNode) (myNode destination : UInt32) : Option (Nat × UInt32 × Nat) :=
  match row nodes myNode with
  | none => none
  | some me =>
    if me.cost == ROUTE_COST_UNKNOWN || me.prev == 0 then none
    else some (me.cost, me.prev, countHops nodes destination MAX_GRAPH_NODES me.prev 1)

/-- The working table at the end of a search, for a table of `limit` rows. -/
def searchTable (limit : Nat) (edges : EdgeStore) (myNode destination nowMs : UInt32)
    (routable : Option RoutableFilter) (allowUnverified : Bool) : List DNode :=
  table limit
    (hopsInto edges (routable.map (·.capability)) myNode nowMs allowUnverified)
    (walksThrough routable destination) myNode destination

/-- mirrors crates/mesh-routing/src/graph/route.rs:483-605 -/
def backwardSearch (edges : EdgeStore) (myNode destination nowMs : UInt32)
    (routable : Option RoutableFilter) (allowUnverified : Bool) : Option (Nat × UInt32 × Nat) :=
  routeOf (searchTable MAX_GRAPH_NODES edges myNode destination nowMs routable allowUnverified)
    myNode destination

/-! ## Paths -/

/-- `m` reaches `n`: `n` lists `m`, or `m` lists `n` and `n` publishes no list. -/
def Reaches (edges : EdgeStore) (capability : Option CapabilityCache) (m n : UInt32) : Prop :=
  (edges.edge n m).isSome = true ∨
    (edges.edge m n).isSome = true ∧ publishesTopology capability n = false

/-- The price of a hop from `m` to `n`: what `n` measured, else what `m` did. -/
def hopPrice (edges : EdgeStore) (myNode nowMs m n : UInt32) : Nat :=
  match edges.edge n m with
  | some edge => relaxPrice edges myNode nowMs m n n edge false
  | none =>
    match edges.edge m n with
    | some edge => relaxPrice edges myNode nowMs m n m edge false
    | none => 0

/-- What a search is asked. -/
structure Query where
  edges : EdgeStore
  myNode : UInt32
  destination : UInt32
  nowMs : UInt32
  routable : Option RoutableFilter

namespace Query

variable (q : Query)

def capability : Option CapabilityCache := q.routable.map (·.capability)

def Hop (m n : UInt32) (w : Nat) : Prop :=
  Reaches q.edges q.capability m n ∧ w = hopPrice q.edges q.myNode q.nowMs m n

def Routable (n : UInt32) : Prop :=
  match q.routable with
  | none => True
  | some filter => isNodeRoutable filter n = true

/-- A path from `my_node`: the nodes behind it, at least one, ending in the
destination; it does not come back to `my_node`. -/
structure Path (ns : List UInt32) (c : Nat) : Prop where
  walk : Walk q.Hop q.Routable q.destination q.myNode ns c
  hops : ns ≠ []
  away : q.myNode ∉ ns

/-- The price of a path as a `u16`. -/
def priceOf (c : Nat) : Nat := min c COST_MAX

/-- Complete and optimal: no answer only without a path; otherwise the least
price of a path, and the first hop of one that has it. -/
def Correct : Option (Nat × UInt32 × Nat) → Prop
  | none => ∀ ns c, ¬ q.Path ns c
  | some (cost, nextHop, _) =>
    (∃ ns c, q.Path ns c ∧ cost = priceOf c ∧ ns.head? = some nextHop) ∧
      ∀ ns c, q.Path ns c → cost ≤ priceOf c

/-- All ids a search can ever meet: the destination, the stored nodes and
the entries of their lists. -/
def SEARCH_IDS : Nat := 1 + MAX_GRAPH_NODES + MAX_GRAPH_NODES * MAX_EDGES_PER_NODE

/-- The ids in the order in which the search meets them, had it a row for
each. -/
def met : List UInt32 :=
  ids (searchTable (SEARCH_IDS + 1) q.edges q.myNode q.destination q.nowMs q.routable false)

/-- A path over the ids the search meets first, of which the code has rows. -/
def Known (ns : List UInt32) (c : Nat) : Prop :=
  q.Path ns c ∧ ∀ x ∈ q.myNode :: ns, x ∈ q.met.take MAX_GRAPH_NODES

/-- Our own hop is a way to the destination, and no other is cheaper. -/
def NextDoor : Prop :=
  ∃ w, q.Known [q.destination] w ∧ ∀ ns c, q.Known ns c → priceOf w ≤ priceOf c

end Query

/-! ## The hops the code relaxes -/

section

variable {edges : EdgeStore} {capability : Option CapabilityCache} {myNode nowMs m n : UInt32}
  {w : Nat}

theorem mem_nodeIds_of_edge {e : Edge} (h : edges.edge m n = some e) : m ∈ edges.nodeIds := by
  unfold EdgeStore.edge at h
  rw [Option.bind_eq_some_iff] at h
  obtain ⟨node, hnode, -⟩ := h
  exact List.mem_map.mpr ⟨node, List.mem_of_find?_eq_some hnode, EdgeStore.findNode_nodeId hnode⟩

/-- No hop goes into node 0. -/
theorem Reaches.ne_zero (h : Reaches edges capability m n) : n ≠ 0 := by
  rcases h with h | ⟨h, -⟩
  · obtain ⟨e, he⟩ := Option.isSome_iff_exists.mp h
    exact (EdgeStore.listed_ids (EdgeStore.edge_mem he).1).1
  · obtain ⟨e, he⟩ := Option.isSome_iff_exists.mp h
    obtain ⟨hmem, rfl⟩ := EdgeStore.edge_mem he
    exact (EdgeStore.listed_ids hmem).2.1

theorem mem_hopsInto :
    (m, w) ∈ hopsInto edges capability myNode nowMs false n ↔
      Reaches edges capability m n ∧ w = hopPrice edges myNode nowMs m n := by
  unfold hopsInto Reaches hopPrice
  rw [List.mem_append, List.mem_map, List.mem_filterMap]
  constructor
  · rintro (⟨e, he, heq⟩ | ⟨m', hm', heq⟩)
    · cases heq
      rw [EdgeStore.edge_of_mem he]
      exact ⟨.inl rfl, rfl⟩
    · by_cases hmn : m' = n
      · simp [hmn] at heq
      rw [if_neg (by simpa using hmn)] at heq
      cases hnm : edges.edge n m' with
      | some e => simp [hnm] at heq
      | none =>
        cases hmn' : edges.edge m' n with
        | none => simp [hnm, hmn'] at heq
        | some e =>
          cases hp : publishesTopology capability n with
          | true => simp [hnm, hmn', hp] at heq
          | false =>
            simp only [hnm, hmn', hp, Option.isSome_none, Bool.false_eq_true, if_false,
              Bool.not_false, if_true, Option.some.injEq, Prod.mk.injEq] at heq
            obtain ⟨rfl, rfl⟩ := heq
            rw [hnm, hmn']
            exact ⟨.inr ⟨rfl, rfl⟩, rfl⟩
  · rintro ⟨hreach, rfl⟩
    cases hnm : edges.edge n m with
    | some e =>
      obtain ⟨hmem, rfl⟩ := EdgeStore.edge_mem hnm
      exact .inl ⟨e, hmem, rfl⟩
    | none =>
      rw [hnm] at hreach
      rcases hreach with hreach | ⟨hreach, hp⟩
      · cases hreach
      · obtain ⟨e, he⟩ := Option.isSome_iff_exists.mp hreach
        have hne : m ≠ n := by
          rintro rfl
          obtain ⟨hmem, hto⟩ := EdgeStore.edge_mem he
          exact (EdgeStore.listed_ids hmem).2.2 hto
        refine .inr ⟨m, mem_nodeIds_of_edge he, ?_⟩
        simp [hne, hnm, he, hp]

end

/-! ## What a search over `limit` rows finds -/

namespace Query

variable {q : Query} {limit : Nat}

/-- The table of the search with `limit` rows. -/
def rows (q : Query) (limit : Nat) : List DNode :=
  searchTable limit q.edges q.myNode q.destination q.nowMs q.routable false

theorem rows_finished (hlimit : 0 < limit) :
    Finished limit (hopsInto q.edges q.capability q.myNode q.nowMs false)
      (walksThrough q.routable q.destination) q.myNode q.destination (q.rows limit) :=
  table_finished hlimit

theorem walksThrough_iff {n : UInt32} :
    walksThrough q.routable q.destination n = true ↔ n = q.destination ∨ q.Routable n := by
  unfold walksThrough Routable
  cases q.routable with
  | none => simp
  | some filter => simp

theorem walk_iff {m : UInt32} {ns : List UInt32} {c : Nat} :
    Walk (Graph.Hop (hopsInto q.edges q.capability q.myNode q.nowMs false))
        (fun n => walksThrough q.routable q.destination n = true) q.destination m ns c ↔
      Walk q.Hop q.Routable q.destination m ns c := by
  constructor
  · exact fun h => h.mono (fun _ _ _ => mem_hopsInto.mp) (fun _ => walksThrough_iff.mp)
  · exact fun h => h.mono (fun _ _ _ => mem_hopsInto.mpr)
      (fun _ hn => .inr (walksThrough_iff.mpr (.inr hn)))

/-- An answer is the price and the first hop of a path over ids with a row. -/
theorem routeOf_sound {cost hops : Nat} {nextHop : UInt32} (hlimit : 0 < limit)
    (h : routeOf (q.rows limit) q.myNode q.destination = some (cost, nextHop, hops)) :
    ∃ ns c, q.Path ns c ∧ cost = priceOf c ∧ ns.head? = some nextHop ∧
      ∀ x ∈ q.myNode :: ns, x ∈ ids (q.rows limit) := by
  obtain ⟨cur, hs⟩ := (q.rows_finished hlimit).search
  unfold routeOf at h
  cases hrow : row (q.rows limit) q.myNode with
  | none => rw [hrow] at h; cases h
  | some me =>
    simp only [hrow] at h
    split at h
    · cases h
    · rename_i hne
      cases h
      simp only [Bool.or_eq_true, beq_iff_eq, not_or] at hne
      obtain ⟨ns, c, hw, hc, hns, haway, hprev⟩ := hs.sound _ me hrow
      rcases hprev with ⟨-, hprev⟩ | hprev
      · exact absurd hprev hne.2
      · refine ⟨ns, c, ⟨walk_iff.mp hw, ?_, haway⟩, hc, hprev, ?_⟩
        · rintro rfl
          cases hprev
        · intro x hx
          rcases List.mem_cons.mp hx with rfl | hx
          · exact mem_ids_of_row hrow
          · exact hns x hx

/-- A path over ids with a row is answered, at no higher price. -/
theorem routeOf_complete {ns : List UInt32} {c : Nat} (hlimit : 0 < limit) (hpath : q.Path ns c)
    (hslot : (∀ x ∈ q.myNode :: ns, x ∈ ids (q.rows limit)) ∨ (q.rows limit).length < limit) :
    ∃ cost nextHop hops,
      routeOf (q.rows limit) q.myNode q.destination = some (cost, nextHop, hops) ∧
        cost ≤ priceOf c := by
  have hfin := q.rows_finished hlimit
  have hslot' : ∀ x ∈ q.myNode :: ns, x ∈ ids (q.rows limit) ∨ (q.rows limit).length < limit :=
    fun x hx => hslot.imp_left fun h => h x hx
  obtain ⟨l, hl, hle⟩ :=
    (hfin.labels (walksThrough_iff.mpr (.inl rfl))).le_walk (walk_iff.mpr hpath.walk)
      (hslot' _ List.mem_cons_self) (fun x hx => hslot' x (List.mem_cons_of_mem _ hx)) hpath.away
  rw [Option.map_eq_some_iff] at hl
  obtain ⟨me, hme, rfl⟩ := hl
  obtain ⟨cur, hs⟩ := hfin.search
  have hsound := hs.sound _ me hme
  have hcost : me.cost ≠ ROUTE_COST_UNKNOWN := by
    have := hsound.cost_le
    unfold COST_MAX at this
    unfold ROUTE_COST_UNKNOWN
    omega
  have hprev : me.prev ≠ 0 := by
    obtain ⟨ns', c', hw, -, -, -, hp⟩ := hsound
    rcases hp with ⟨rfl, -⟩ | hp
    · -- only the destination's row has no hop, and the path does not start there
      have hdest : q.myNode = q.destination := hw.eq_dest
      exact absurd (hdest ▸ hpath.walk.dest_mem hpath.hops) hpath.away
    · cases ns' with
      | nil => cases hp
      | cons n ns' =>
        cases hp
        obtain ⟨w, hhop⟩ := (walk_iff.mp hw).head_hop
        exact hhop.1.ne_zero
  refine ⟨me.cost, me.prev, countHops (q.rows limit) q.destination MAX_GRAPH_NODES me.prev 1, ?_,
    hle⟩
  unfold routeOf
  simp only [hme]
  rw [if_neg (by simp [hcost, hprev])]

/-- Answering every path, at no higher price, is being correct. -/
theorem correct_of_answer (hlimit : 0 < limit)
    (h : ∀ ns c, q.Path ns c → ∃ cost nextHop hops,
      routeOf (q.rows limit) q.myNode q.destination = some (cost, nextHop, hops) ∧
        cost ≤ priceOf c) :
    q.Correct (routeOf (q.rows limit) q.myNode q.destination) := by
  cases hr : routeOf (q.rows limit) q.myNode q.destination with
  | none =>
    intro ns c hpath
    obtain ⟨_, _, _, hs, -⟩ := h ns c hpath
    cases hr.symm.trans hs
  | some r =>
    obtain ⟨cost, nextHop, hops⟩ := r
    refine ⟨?_, ?_⟩
    · obtain ⟨ns, c, hpath, hc, hhead, -⟩ := routeOf_sound hlimit hr
      exact ⟨ns, c, hpath, hc, hhead⟩
    · intro ns c hpath
      obtain ⟨_, _, _, hs, hle⟩ := h ns c hpath
      cases hr.symm.trans hs
      exact hle

/-! ## The ids a search meets -/

/-- The ids the store mentions, and the destination. -/
def mentioned (q : Query) : List UInt32 :=
  q.destination :: (q.edges.nodeIds ++
    q.edges.nodes.rows.flatMap fun n => n.edges.rows.map (·.toNode))

theorem mentioned_length : q.mentioned.length ≤ SEARCH_IDS := by
  have hentries : ∀ ns : List NodeEdges,
      (ns.flatMap fun n => n.edges.rows.map (·.toNode)).length ≤
        ns.length * MAX_EDGES_PER_NODE := by
    intro ns
    induction ns with
    | nil => simp
    | cons n ns ih =>
      have := n.edges.le
      rw [List.flatMap_cons, List.length_append, List.length_map, List.length_cons, Nat.succ_mul]
      omega
  have hnodes := q.edges.nodes.le
  have := hentries q.edges.nodes.rows
  have := Nat.mul_le_mul_right MAX_EDGES_PER_NODE hnodes
  simp only [mentioned, EdgeStore.nodeIds, List.length_cons, List.length_append, List.length_map,
    SEARCH_IDS]
  omega

theorem mem_mentioned_of_reaches {m n : UInt32} (h : Reaches q.edges q.capability m n) :
    m ∈ q.mentioned := by
  refine List.mem_cons_of_mem _ (List.mem_append.mpr ?_)
  rcases h with h | ⟨h, -⟩
  · right
    obtain ⟨e, he⟩ := Option.isSome_iff_exists.mp h
    unfold EdgeStore.edge at he
    rw [Option.bind_eq_some_iff] at he
    obtain ⟨node, hnode, he⟩ := he
    exact List.mem_flatMap.mpr ⟨node, List.mem_of_find?_eq_some hnode,
      List.mem_map.mpr ⟨e, List.mem_of_find?_eq_some he, NodeEdges.findEdge_toNode he⟩⟩
  · left
    obtain ⟨e, he⟩ := Option.isSome_iff_exists.mp h
    exact mem_nodeIds_of_edge he

/-- A row for every id is never one too few. -/
theorem rows_roomy : (q.rows (SEARCH_IDS + 1)).length < SEARCH_IDS + 1 := by
  obtain ⟨cur, hs⟩ := (q.rows_finished (Nat.succ_pos SEARCH_IDS)).search
  have hsub : ids (q.rows (SEARCH_IDS + 1)) ⊆ q.mentioned := by
    intro x hx
    obtain ⟨d, hd⟩ := row_of_mem_ids hx
    obtain ⟨ns, c, hw, -⟩ := hs.sound x d hd
    cases ns with
    | nil => exact hw.eq_dest ▸ List.mem_cons_self
    | cons n ns =>
      obtain ⟨w, hhop⟩ := (walk_iff.mp hw).head_hop
      exact mem_mentioned_of_reaches hhop.1
  have := hs.nodup.length_le_of_subset hsub
  rw [length_ids] at this
  exact Nat.lt_succ_of_le (Nat.le_trans this mentioned_length)

/-- With a row for every id the search is complete and optimal. -/
theorem correct_of_room : q.Correct (routeOf (q.rows (SEARCH_IDS + 1)) q.myNode q.destination) :=
  correct_of_answer (Nat.succ_pos _) fun _ _ hpath =>
    routeOf_complete (Nat.succ_pos _) hpath (.inr rows_roomy)

/-- The rows of the code's table are the ids met first. -/
theorem ids_rows : ids (q.rows MAX_GRAPH_NODES) = q.met.take MAX_GRAPH_NODES :=
  table_ids_take (by decide) (by decide)

/-! ## What the code's search answers, known paths only -/

/-- The code's table has rows for a path exactly if it is a known one. -/
theorem known_iff {ns : List UInt32} {c : Nat} :
    q.Known ns c ↔ q.Path ns c ∧ ∀ x ∈ q.myNode :: ns, x ∈ ids (q.rows MAX_GRAPH_NODES) := by
  rw [ids_rows]
  rfl

/-- The cheapest known path is answered, at its price. -/
theorem backwardSearch_least {cost hops : Nat} {nextHop : UInt32}
    (h : backwardSearch q.edges q.myNode q.destination q.nowMs q.routable false =
      some (cost, nextHop, hops)) :
    (∃ ns c, q.Known ns c ∧ cost = priceOf c ∧ ns.head? = some nextHop) ∧
      ∀ ns c, q.Known ns c → cost ≤ priceOf c := by
  obtain ⟨ns, c, hpath, hc, hhead, hslot⟩ := routeOf_sound (q := q) (by decide) h
  refine ⟨⟨ns, c, known_iff.mpr ⟨hpath, hslot⟩, hc, hhead⟩, ?_⟩
  intro ns c hknown
  obtain ⟨hpath, hslot⟩ := known_iff.mp hknown
  obtain ⟨_, _, _, hs, hle⟩ := routeOf_complete (by decide) hpath (.inl hslot)
  cases h.symm.trans hs
  exact hle

/-- The search answers below a price exactly if a known path is below it. -/
theorem backwardSearch_known_iff (q : Query) (limit : Nat) :
    (∃ cost nextHop hops, cost < limit ∧
      backwardSearch q.edges q.myNode q.destination q.nowMs q.routable false =
        some (cost, nextHop, hops)) ↔ ∃ ns c, q.Known ns c ∧ priceOf c < limit := by
  constructor
  · rintro ⟨cost, nextHop, hops, hlt, h⟩
    obtain ⟨⟨ns, c, hknown, rfl, -⟩, -⟩ := backwardSearch_least h
    exact ⟨ns, c, hknown, hlt⟩
  · rintro ⟨ns, c, hknown, hlt⟩
    obtain ⟨hpath, hslot⟩ := known_iff.mp hknown
    obtain ⟨cost, nextHop, hops, h, hle⟩ := routeOf_complete (by decide) hpath (.inl hslot)
    exact ⟨cost, nextHop, hops, Nat.lt_of_le_of_lt hle hlt, h⟩

/-- The answer's first hop is the destination exactly if that is next door: the
destination is settled first, so of two ways at one price its own hop wins. -/
theorem backwardSearch_direct_iff :
    (∃ cost hops, backwardSearch q.edges q.myNode q.destination q.nowMs q.routable false =
      some (cost, q.destination, hops)) ↔ q.NextDoor := by
  constructor
  · rintro ⟨cost, hops, h⟩
    obtain ⟨⟨ns, c, hknown, rfl, hhead⟩, hleast⟩ := backwardSearch_least h
    cases ns with
    | nil => cases hhead
    | cons n ns =>
      cases hhead
      obtain ⟨⟨hwalk, -, haway⟩, hslot⟩ := hknown
      obtain ⟨c', w, hhop, -, rfl⟩ := hwalk.tail
      -- whatever the way goes on with, the first hop alone is no dearer
      rw [List.mem_cons, not_or] at haway
      have hdirect : q.Known [q.destination] (0 + w) := by
        refine ⟨⟨.step hhop (.inl rfl) .done, List.cons_ne_nil _ _, ?_⟩, ?_⟩
        · simpa using haway.1
        · intro x hx
          refine hslot x ?_
          rcases List.mem_cons.mp hx with rfl | hx
          · exact List.mem_cons_self
          · rw [List.mem_singleton.mp hx]
            exact List.mem_cons_of_mem _ List.mem_cons_self
      refine ⟨0 + w, hdirect, fun ns c hknown => ?_⟩
      have hle := hleast ns c hknown
      have hmono : priceOf (0 + w) ≤ priceOf (c' + w) := by
        unfold priceOf
        omega
      exact Nat.le_trans hmono hle
  · rintro ⟨w, hknown, hleast⟩
    obtain ⟨hpath, hslot⟩ := known_iff.mp hknown
    obtain ⟨cost, nextHop, hops, h, hle⟩ := routeOf_complete (by decide) hpath (.inl hslot)
    obtain ⟨⟨ns, c, hway, hc, -⟩, -⟩ := backwardSearch_least (q := q) h
    have hcost : cost = priceOf w := Nat.le_antisymm hle (hc ▸ hleast ns c hway)
    have haway : q.destination ≠ q.myNode := by
      intro heq
      exact hpath.away (heq ▸ List.mem_singleton.mpr rfl)
    have hhop := hpath.walk.price_single
    have hw : priceOf w = offer 0 w := by rw [offer_eq, Nat.zero_add, priceOf]
    have hheld : Held MAX_GRAPH_NODES (q.rows MAX_GRAPH_NODES) q.myNode q.destination
        (offer 0 w) :=
      table_held (by decide) (walksThrough_iff.mpr (.inl rfl)) haway (Ne.symm haway)
        (mem_hopsInto.mpr hhop) fun w'' h'' => (mem_hopsInto.mp h'').2.trans hhop.2.symm
    have hmine := hslot q.myNode List.mem_cons_self
    obtain ⟨me, hme⟩ := row_of_mem_ids hmine
    -- our row has the direct offer: the answer is no cheaper
    have hrow : me.cost = cost ∧ me.prev = nextHop := by
      change routeOf (q.rows MAX_GRAPH_NODES) q.myNode q.destination = _ at h
      unfold routeOf at h
      simp only [hme] at h
      split at h
      · cases h
      · cases h
        exact ⟨rfl, rfl⟩
    rcases hheld with ⟨e, he, hlt | ⟨-, hprev⟩⟩ | ⟨hnone, -⟩
    · cases he.symm.trans hme
      rw [hrow.1, hcost, hw] at hlt
      exact absurd hlt (Nat.lt_irrefl _)
    · cases he.symm.trans hme
      rw [← hrow.2, hprev] at h
      exact ⟨cost, hops, h⟩
    · cases hnone.symm.trans hme

/-- A search over `limit` rows is complete and optimal exactly when every path
is matched, at no higher price, by one over ids with a row. -/
theorem correct_iff_matched (hlimit : 0 < limit) :
    q.Correct (routeOf (q.rows limit) q.myNode q.destination) ↔
      ∀ ns c, q.Path ns c → ∃ ns' c', q.Path ns' c' ∧ priceOf c' ≤ priceOf c ∧
        ∀ x ∈ q.myNode :: ns', x ∈ ids (q.rows limit) := by
  constructor
  · intro hcorrect ns c hpath
    cases hr : routeOf (q.rows limit) q.myNode q.destination with
    | none =>
      rw [hr] at hcorrect
      exact absurd hpath (hcorrect ns c)
    | some r =>
      obtain ⟨cost, nextHop, hops⟩ := r
      rw [hr] at hcorrect
      obtain ⟨ns', c', hpath', hc, -, hslot⟩ := routeOf_sound hlimit hr
      exact ⟨ns', c', hpath', hc ▸ hcorrect.2 ns c hpath, hslot⟩
  · intro hmatched
    have hanswer : ∀ ns c, q.Path ns c → ∃ cost nextHop hops,
        routeOf (q.rows limit) q.myNode q.destination = some (cost, nextHop, hops) ∧
          cost ≤ priceOf c := by
      intro ns c hpath
      obtain ⟨ns', c', hpath', hle, hslot⟩ := hmatched ns c hpath
      obtain ⟨cost, nextHop, hops, h, hle'⟩ := routeOf_complete hlimit hpath' (.inl hslot)
      exact ⟨cost, nextHop, hops, h, Nat.le_trans hle' hle⟩
    exact correct_of_answer hlimit hanswer

end Query

/-- `backward_search` is complete and optimal exactly when every path is
matched by one that is no dearer and stays within the first
`MAX_GRAPH_NODES` ids the search meets. -/
theorem backwardSearch_correct_iff (q : Query) :
    q.Correct (backwardSearch q.edges q.myNode q.destination q.nowMs q.routable false) ↔
      ∀ ns c, q.Path ns c → ∃ ns' c', q.Path ns' c' ∧ Query.priceOf c' ≤ Query.priceOf c ∧
        ∀ x ∈ q.myNode :: ns', x ∈ q.met.take MAX_GRAPH_NODES := by
  rw [← Query.ids_rows]
  exact Query.correct_iff_matched (by decide)

/-! ## A dense neighbourhood

Node 2 lists 31 leaves and then node 3, which hears us (node 1). The table
is full before the search meets node 3. -/

def denseEdge (n : UInt32) : Edge := { toNode := n, etxFixed := 100, source := .reported }

def denseStore : EdgeStore where
  nodes := ⟨[
    ⟨1, 0, ⟨[denseEdge 3], by decide⟩, by decide, by decide⟩,
    ⟨3, 0, ⟨[denseEdge 1], by decide⟩, by decide, by decide⟩,
    ⟨2, 0, ⟨(List.range 31).map (fun i => denseEdge (100 + UInt32.ofNat i)) ++ [denseEdge 3],
      by decide +kernel⟩, by decide +kernel, by decide +kernel⟩], by decide⟩
  nodup := by decide +kernel

def denseQuery : Query := ⟨denseStore, 1, 2, 0, none⟩

theorem dense_list_hides_route :
    ¬ denseQuery.Correct (backwardSearch denseQuery.edges denseQuery.myNode
      denseQuery.destination denseQuery.nowMs denseQuery.routable false) := by
  have hnone : backwardSearch denseQuery.edges denseQuery.myNode denseQuery.destination
      denseQuery.nowMs denseQuery.routable false = none := by decide +kernel
  have hfirst : denseQuery.Hop 1 3 (hopPrice denseStore 1 0 1 3) := ⟨.inl (by decide +kernel), rfl⟩
  have hlast : denseQuery.Hop 3 2 (hopPrice denseStore 1 0 3 2) := ⟨.inl (by decide +kernel), rfl⟩
  have hwalk : Walk denseQuery.Hop denseQuery.Routable 2 1 [3, 2]
      (0 + hopPrice denseStore 1 0 3 2 + hopPrice denseStore 1 0 1 3) :=
    .step hfirst (.inr trivial) (.step hlast (.inl rfl) .done)
  rw [hnone]
  intro h
  exact h _ _ ⟨hwalk, List.cons_ne_nil _ _, by decide⟩

end Meshrustic.Graph
