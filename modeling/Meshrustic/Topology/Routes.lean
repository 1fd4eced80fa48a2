import Meshrustic.Topology.Ageing
import Meshrustic.Topology.Merge
import Meshrustic.Graph.Route

/-!
# Routes and their cache (`mesh-routing/src/graph/route.rs`, `downstream.rs`)

`calculate_route` tries the edges first, then a row of the downstream table whose
relay the edges lead to, the parent of the destination, a chain of downstream rows
that ends in a neighbour, and at last the edges again with links that were never
confirmed. `get_route` remembers what it finds.

Results:
* `backwardSearch_link`: the first hop of a search is one of our links;
* `calculateRoute_link`: so is the next hop of every route;
* `DownstreamTable.getRelay_planned`: the plan of a broadcast reads the same table.
-/
namespace Meshrustic.Topology

open Meshrustic.Graph Meshrustic.Relay

def ROUTE_CACHE_TIMEOUT_MS : UInt32 := 300000
def MAX_DOWNSTREAM_CHAIN : Nat := 16
/-- Costs from here on are no costs. -/
def COST_LIMIT : Nat := 0xFFF0

/-! ## Downstream rows -/

namespace DownstreamTable

variable (ds : DownstreamTable)

/-- The cheapest of the fresh rows that pass `p`: the first with the least cost.
mirrors crates/mesh-routing/src/graph/downstream.rs:70-87, 89-111 -/
def cheapest (p : DownstreamRow → Bool) (nowMs ttlMs : UInt32) : Option (UInt32 × UInt16) :=
  let best := ds.entries.rows.foldl
    (fun (best : Option UInt32 × UInt16) r =>
      if !p r then best
      else if ttlMs ≤ nowMs - r.lastUpdateMs then best
      else if r.costFixed < best.2 then (some r.relay, r.costFixed) else best)
    (none, 0xFFFF)
  best.1.map fun relay => (relay, best.2)

/-- mirrors crates/mesh-routing/src/graph/downstream.rs:70-87 -/
def relayAndCost (destination nowMs ttlMs : UInt32) : Option (UInt32 × UInt16) :=
  ds.cheapest (fun r => r.destination == destination) nowMs ttlMs

/-- mirrors crates/mesh-routing/src/graph/downstream.rs:65-68 -/
def getRelay (destination nowMs ttlMs : UInt32) : Option UInt32 :=
  (ds.relayAndCost destination nowMs ttlMs).map (·.1)

/-- The rows as the plan of a broadcast reads them. -/
def planned : Table MAX_DOWNSTREAM DownstreamEntry :=
  ⟨ds.entries.rows.map (·.toDownstreamEntry), by rw [List.length_map]; exact ds.entries.le⟩

/-- The plan finds the relay that the table has. -/
theorem getRelay_planned (destination nowMs ttlMs : UInt32) :
    Relay.getRelay ds.planned destination nowMs ttlMs.toNat =
      ds.getRelay destination nowMs ttlMs := by
  unfold Relay.getRelay planned getRelay relayAndCost cheapest
  dsimp only
  rw [List.foldl_map, Option.map_map]
  have hsame : ∀ (rows : List DownstreamRow) (best : Option UInt32 × UInt16),
      (rows.foldl (fun (best : Option UInt32 × Nat) r =>
        if r.destination != destination then best
        else if ttlMs.toNat ≤ (nowMs - r.lastUpdateMs).toNat then best
        else if r.costFixed.toNat < best.2 then (some r.relay, r.costFixed.toNat) else best)
        (best.1, best.2.toNat)).1 =
      (rows.foldl (fun (best : Option UInt32 × UInt16) r =>
        if !(r.destination == destination) then best
        else if ttlMs ≤ nowMs - r.lastUpdateMs then best
        else if r.costFixed < best.2 then (some r.relay, r.costFixed) else best) best).1 := by
    intro rows
    induction rows with
    | nil => exact fun _ => rfl
    | cons r rows ih =>
      intro best
      rw [List.foldl_cons, List.foldl_cons, ← ih]
      congr 2
      simp only [bne, UInt32.le_iff_toNat_le, UInt16.lt_iff_toNat_lt]
      split
      · rfl
      · split
        · rfl
        · split <;> rfl
  exact (hsame ds.entries.rows (none, 0xFFFF)).trans Option.map_id'.symm

/-- mirrors crates/mesh-routing/src/graph/downstream.rs:89-111 -/
def listDownstream (destination nowMs ttlMs : UInt32) : Option (UInt32 × UInt16) :=
  ds.cheapest (fun r => r.destination == destination && r.listLearned) nowMs ttlMs

/-- mirrors crates/mesh-routing/src/graph/downstream.rs:7-12 -/
structure ChainEgress where
  node : UInt32
  hops : Nat
  costFixed : Nat

/-- From `cur`, over the relays `seen` so far; `fuel` is what is left of the chain's
greatest length.
mirrors crates/mesh-routing/src/graph/downstream.rs:123-149 -/
def followChain (nowMs ttlMs : UInt32) (isEgress : UInt32 → Bool) :
    Nat → UInt32 → List UInt32 → Nat → Option ChainEgress
  | 0, _, _, _ => none
  | fuel + 1, cur, seen, costFixed =>
    match ds.relayAndCost cur nowMs ttlMs with
    | none => none
    | some (relay, hopCost) =>
      if relay == 0 || relay == cur then none
      else if seen.contains relay then none
      else
        let costFixed := saturatingAdd16 costFixed hopCost.toNat
        if isEgress relay then some ⟨relay, seen.length + 1, costFixed⟩
        else followChain nowMs ttlMs isEgress fuel relay (relay :: seen) costFixed

/-- mirrors crates/mesh-routing/src/graph/downstream.rs:113-150 -/
def chainEgress (destination nowMs ttlMs : UInt32) (isEgress : UInt32 → Bool) :
    Option ChainEgress :=
  if destination == 0 then none
  else ds.followChain nowMs ttlMs isEgress MAX_DOWNSTREAM_CHAIN destination [] 0

/-- mirrors crates/mesh-routing/src/graph/downstream.rs:186-197 -/
def isRelayFor (relay destination nowMs ttlMs : UInt32) : Bool :=
  ds.entries.rows.any fun r =>
    r.destination == destination && r.relay == relay && decide (nowMs - r.lastUpdateMs < ttlMs)

/-- mirrors crates/mesh-routing/src/graph/downstream.rs:355-385 -/
def updateExclusive {Etx : Type} (F : F32 Etx) (myNode destination relay : UInt32) (totalCost : Etx)
    (nowMs : UInt32) (relayHasDirectEdge : Bool) (viaRadio : UInt8) : DownstreamTable :=
  (ds.clearForDestination destination).updateInner F myNode destination relay totalCost nowMs
    relayHasDirectEdge viaRadio false

/-- mirrors crates/mesh-routing/src/graph/downstream.rs:415-434 -/
def age (nowMs ttlMs : UInt32) (relayInGraph : UInt32 → Bool) : DownstreamTable × Bool :=
  let gone := fun (r : DownstreamRow) =>
    decide (ttlMs < nowMs - r.lastUpdateMs) || !relayInGraph r.relay
  let ds' : DownstreamTable := ⟨ds.entries.swapOut gone ds.entries.rows.length 0⟩
  (ds', ds'.entries.rows.length != ds.entries.rows.length)

end DownstreamTable

/-! ## The cache -/

section

variable (cache : Table MAX_CACHED_ROUTES CachedRoute)

/-- mirrors crates/mesh-routing/src/graph/route.rs:105-116 -/
def cacheGet (destination nowMs : UInt32) : Option CachedRoute :=
  cache.rows.find? fun r =>
    r.destination == destination && decide (nowMs - r.timestampMs < ROUTE_CACHE_TIMEOUT_MS) &&
      r.nextHop != 0

/-- mirrors crates/mesh-routing/src/graph/route.rs:118-142 -/
def cacheInsert (route : CachedRoute) : Table MAX_CACHED_ROUTES CachedRoute :=
  if route.nextHop == 0 then cache
  else
    match cache.rows.findIdx? fun r => r.destination == route.destination with
    | some i => cache.set i route
    | none =>
      match cache.push route with
      | some cache => cache
      | none =>
        cache.set ((cache.lastMaxIdx (fun _ => true)
          (fun r => route.timestampMs - r.timestampMs)).getD 0) route

theorem mem_cacheInsert {route r : CachedRoute} (h : r ∈ (cacheInsert cache route).rows) :
    r ∈ cache.rows ∨ r = route ∧ route.nextHop ≠ 0 := by
  unfold cacheInsert at h
  split at h
  · exact .inl h
  · rename_i hhop
    have hne : route.nextHop ≠ 0 := by simpa using hhop
    split at h
    · exact (List.mem_or_eq_of_mem_set h).imp_right fun h => ⟨h, hne⟩
    · split at h
      · rename_i hpush
        rw [Table.push_rows hpush] at h
        exact (List.mem_append.mp h).imp_right fun h => ⟨List.mem_singleton.mp h, hne⟩
      · exact (List.mem_or_eq_of_mem_set h).imp_right fun h => ⟨h, hne⟩

end

/-! ## Routes -/

section

variable (edges : EdgeStore) (downstream : DownstreamTable) (myNode destination nowMs : UInt32)
  (routable : Option RoutableFilter)

/-- Where the radio heard the neighbour last. -/
def egressRadio (nextHop : UInt32) : UInt8 :=
  match edges.edge myNode nextHop with
  | none => 0
  | some e => e.heardOn

/-- The route to a relay that the edges lead to, and its price for the last hop.
mirrors crates/mesh-routing/src/graph/route.rs:607-639 -/
def tryComposeViaParent (parent : UInt32) (hopCost : Nat) (verified : Bool) : Option CachedRoute :=
  if (edges.findNode parent).isNone then none
  else
    match backwardSearch edges.graph myNode parent nowMs routable false with
    | none => none
    | some (costToM, nextHop, hops) =>
      if nextHop == 0 || COST_LIMIT ≤ costToM then none
      else some {
        destination := destination
        nextHop := nextHop
        egressRadio := egressRadio edges myNode nextHop
        costFixed := UInt16.ofNat (saturatingAdd16 costToM hopCost)
        timestampMs := nowMs
        hops := UInt8.ofNat (min (hops + 1) 255)
        verified := verified
        mode := .listDownstream }

/-- The route the edges give, with or without links that were never confirmed.
mirrors crates/mesh-routing/src/graph/route.rs:674-694, 762-777 -/
def routeOverEdges (allowUnverified : Bool) : Option CachedRoute :=
  match backwardSearch edges.graph myNode destination nowMs routable allowUnverified with
  | none => none
  | some (cost, nextHop, hops) => some {
      destination := destination
      nextHop := nextHop
      egressRadio := egressRadio edges myNode nextHop
      costFixed := UInt16.ofNat cost
      timestampMs := nowMs
      hops := UInt8.ofNat hops
      verified := !allowUnverified
      mode := .ball }

/-- The route over the parent that the destination was learned from.
mirrors crates/mesh-routing/src/graph/route.rs:711-735 -/
def routeOverHint : Option CachedRoute :=
  let hint := match edges.findNode destination with
    | none => 0
    | some n => n.parentHint
  if hint != 0 && hint != destination && hint != myNode then
    match edges.edge hint destination with
    | none => none
    | some e =>
      if e.source.isMeasured then
        tryComposeViaParent edges myNode destination nowMs routable hint e.etxFixed.toNat e.hearsUs
      else none
  else none

/-- The route along downstream rows to one of our neighbours.
mirrors crates/mesh-routing/src/graph/route.rs:737-760 -/
def routeOverChain : Option CachedRoute :=
  let isEgress := fun n => n != 0 && n != myNode && (edges.edge myNode n).isSome &&
    !(routable.any fun f => f.excluded.contains n)
  match downstream.chainEgress destination nowMs 0xFFFFFFFF isEgress with
  | none => none
  | some chain =>
    let costToEgress := match edges.edge myNode chain.node with
      | none => ROUTE_COST_UNKNOWN
      | some e => e.etxFixed.toNat
    if costToEgress < COST_LIMIT && chain.costFixed < COST_LIMIT then some {
      destination := destination
      nextHop := chain.node
      egressRadio := egressRadio edges myNode chain.node
      costFixed := UInt16.ofNat (saturatingAdd16 costToEgress chain.costFixed)
      timestampMs := nowMs
      hops := UInt8.ofNat chain.hops
      verified := false
      mode := .orphanGateway }
    else none

/-- No route. -/
def noRoute : CachedRoute where
  destination := destination
  nextHop := 0
  egressRadio := 0
  costFixed := UInt16.ofNat ROUTE_COST_UNKNOWN
  timestampMs := nowMs
  hops := 0
  verified := false
  mode := .ball

/-- mirrors crates/mesh-routing/src/graph/route.rs:641-780 -/
def calculateRoute : CachedRoute :=
  if myNode == 0 || destination == 0 || destination == myNode then noRoute destination nowMs
  else
    let listDs := downstream.listDownstream destination nowMs 0xFFFFFFFF
    let dsRelay := downstream.getRelay destination nowMs 0xFFFFFFFF
    let skipDijkstraToDest := ((listDs.map (·.1)).or dsRelay).any fun m => (edges.findNode m).isSome
    let ball := if (edges.findNode destination).isSome || !skipDijkstraToDest then
        routeOverEdges edges myNode destination nowMs routable false
      else none
    let listed := listDs.bind fun m =>
      tryComposeViaParent edges myNode destination nowMs routable m.1 m.2.toNat true
    let found := ball.or (listed.or ((routeOverHint edges myNode destination nowMs routable).or
      ((routeOverChain edges downstream myNode destination nowMs routable).or
        (routeOverEdges edges myNode destination nowMs routable true))))
    found.getD (noRoute destination nowMs)

end

/-! ## Next hops are links -/

/-- There is an edge between us and the neighbour, in one direction at least. -/
def Linked (edges : EdgeStore) (myNode n : UInt32) : Prop :=
  (edges.edge myNode n).isSome = true ∨ (edges.edge n myNode).isSome = true

section

variable {edges : EdgeStore} {downstream : DownstreamTable} {myNode destination nowMs : UInt32}
  {routable : Option RoutableFilter}

/-- The store the search reads has the same edges. -/
theorem graph_edge (a b : UInt32) : edges.graph.edge a b = edges.edge a b := by
  unfold Graph.EdgeStore.edge EdgeStore.edge Graph.EdgeStore.findNode EdgeStore.findNode
    EdgeStore.graph
  rw [List.find?_map]
  change ((edges.nodes.rows.find? fun n => n.nodeId == a).map _).bind _ = _
  cases edges.nodes.rows.find? fun n => n.nodeId == a <;> rfl

/-- A hop that the search relaxes is an edge, of one end or the other. -/
theorem hop_edge {g : Graph.EdgeStore} {capability : Option CapabilityCache} {allow : Bool}
    {m n : UInt32} {w : Nat} (h : (m, w) ∈ hopsInto g capability myNode nowMs allow n) :
    (g.edge n m).isSome = true ∨ (g.edge m n).isSome = true := by
  unfold hopsInto at h
  rcases List.mem_append.mp h with h | h
  · obtain ⟨e, he, heq⟩ := List.mem_map.mp h
    cases heq
    rw [Graph.EdgeStore.edge_of_mem he]
    exact .inl rfl
  · obtain ⟨m', -, heq⟩ := List.mem_filterMap.mp h
    split at heq
    · cases heq
    split at heq
    · cases heq
    split at heq
    · cases heq
    · rename_i e he
      right
      split at heq
      · cases heq
        rw [he]
        rfl
      · split at heq
        · cases heq
          rw [he]
          rfl
        · cases heq

/-- The label of our own row is the price of a walk that starts with the first hop
of the search. -/
theorem backwardSearch_walk {allow : Bool} {cost hops : Nat} {nextHop : UInt32}
    (h : backwardSearch edges.graph myNode destination nowMs routable allow =
      some (cost, nextHop, hops)) :
    nextHop ≠ 0 ∧ ∃ ns c, Walk (Hop (hopsInto edges.graph (routable.map (·.capability)) myNode nowMs
      allow)) (fun n => walksThrough routable destination n = true) destination myNode
      (nextHop :: ns) c := by
  unfold backwardSearch routeOf at h
  split at h
  · cases h
  rename_i me hme
  split at h
  · cases h
  rename_i hlabel
  cases h
  have hprev : me.prev ≠ 0 := by
    intro hzero
    exact hlabel (by simp [hzero])
  refine ⟨hprev, ?_⟩
  obtain ⟨cur, hsearch⟩ := (table_finished (by decide) : Finished MAX_GRAPH_NODES _ _ myNode destination
    (searchTable MAX_GRAPH_NODES edges.graph myNode destination nowMs routable allow)).search
  obtain ⟨ns, c, hwalk, -, -, -, hhead⟩ := hsearch.sound myNode me hme
  rcases hhead with ⟨-, hzero⟩ | hhead
  · exact absurd hzero hprev
  · cases ns with
    | nil => cases hhead
    | cons n ns =>
      cases hhead
      exact ⟨ns, c, hwalk⟩

/-- The first hop of a search is one of our links. -/
theorem backwardSearch_link {allow : Bool} {cost hops : Nat} {nextHop : UInt32}
    (h : backwardSearch edges.graph myNode destination nowMs routable allow =
      some (cost, nextHop, hops)) : nextHop ≠ 0 ∧ Linked edges myNode nextHop := by
  obtain ⟨hne, ns, c, hwalk⟩ := backwardSearch_walk h
  obtain ⟨w, hhop⟩ := hwalk.head_hop
  have hedge := hop_edge hhop
  rw [graph_edge, graph_edge] at hedge
  exact ⟨hne, hedge.symm⟩

theorem tryComposeViaParent_link {parent : UInt32} {hopCost : Nat} {verified : Bool}
    {r : CachedRoute} (h : tryComposeViaParent edges myNode destination nowMs routable parent hopCost
      verified = some r) : Linked edges myNode r.nextHop := by
  unfold tryComposeViaParent at h
  split at h
  · cases h
  split at h
  · cases h
  · rename_i hsearch
    split at h
    · cases h
    · cases h
      exact (backwardSearch_link hsearch).2

theorem routeOverEdges_link {allow : Bool} {r : CachedRoute}
    (h : routeOverEdges edges myNode destination nowMs routable allow = some r) :
    Linked edges myNode r.nextHop := by
  unfold routeOverEdges at h
  split at h
  · cases h
  · rename_i hsearch
    cases h
    exact (backwardSearch_link hsearch).2

theorem routeOverHint_link {r : CachedRoute}
    (h : routeOverHint edges myNode destination nowMs routable = some r) :
    Linked edges myNode r.nextHop := by
  unfold routeOverHint at h
  extract_lets hint at h
  split at h
  · split at h
    · cases h
    · split at h
      · exact tryComposeViaParent_link h
      · cases h
  · cases h

/-- The chain ends where it was told to. -/
theorem followChain_egress {ttlMs : UInt32} {isEgress : UInt32 → Bool}
    {chain : DownstreamTable.ChainEgress} {fuel : Nat} {cur : UInt32} {seen : List UInt32}
    {cost : Nat} (h : downstream.followChain nowMs ttlMs isEgress fuel cur seen cost = some chain) :
    isEgress chain.node = true := by
  induction fuel generalizing cur seen cost with
  | zero => cases h
  | succ fuel ih =>
    rw [DownstreamTable.followChain] at h
    split at h
    · cases h
    split at h
    · cases h
    split at h
    · cases h
    dsimp only at h
    split at h
    · rename_i hegress
      cases h
      exact hegress
    · exact ih h

theorem routeOverChain_link {r : CachedRoute}
    (h : routeOverChain edges downstream myNode destination nowMs routable = some r) :
    Linked edges myNode r.nextHop := by
  unfold routeOverChain at h
  extract_lets isEgress at h
  split at h
  · cases h
  · rename_i chain hchain
    unfold DownstreamTable.chainEgress at hchain
    split at hchain
    · cases hchain
    have hegress := followChain_egress hchain
    simp only [isEgress, Bool.and_eq_true] at hegress
    extract_lets cost at h
    split at h
    · cases h
      exact .inl hegress.1.2
    · cases h

/-- The next hop of a route is one of our links. -/
theorem calculateRoute_link
    (h : (calculateRoute edges downstream myNode destination nowMs routable).nextHop ≠ 0) :
    Linked edges myNode (calculateRoute edges downstream myNode destination nowMs routable).nextHop := by
  unfold calculateRoute at h ⊢
  split
  · rename_i hends
    rw [if_pos hends] at h
    exact absurd rfl h
  rename_i hends
  rw [if_neg hends] at h
  have hgetD : ∀ found : Option CachedRoute, (∀ r, found = some r → Linked edges myNode r.nextHop) →
      (found.getD (noRoute destination nowMs)).nextHop ≠ 0 →
      Linked edges myNode (found.getD (noRoute destination nowMs)).nextHop := by
    intro found hlinked hhop
    cases found with
    | none => exact absurd rfl hhop
    | some r => exact hlinked r rfl
  refine hgetD _ (fun r hfound => ?_) h
  simp only [Option.or_eq_some_iff] at hfound
  rcases hfound with hball | ⟨-, hlisted | ⟨-, hhint | ⟨-, hchain | ⟨-, hedges⟩⟩⟩⟩
  · split at hball
    · exact routeOverEdges_link hball
    · cases hball
  · obtain ⟨m, -, hm⟩ := Option.bind_eq_some_iff.mp hlisted
    exact tryComposeViaParent_link hm
  · exact routeOverHint_link hhint
  · exact routeOverChain_link hchain
  · exact routeOverEdges_link hedges

end

end Meshrustic.Topology
