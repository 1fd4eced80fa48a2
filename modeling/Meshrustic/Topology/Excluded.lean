import Meshrustic.Topology.Observe

/-!
# Routes past excluded hops (`neighbor_graph.rs:2185-2200`, `graph/route.rs:607-780`)

A retry asks for a route that does not begin with the hop that was silent. The
filter stands before every node of a search but its destination, and a route
over a parent is a search with the parent as its destination.

Results:
* `backwardSearch_head`: the first hop of a search is its destination or
  passes the filter.
* `route_excluding_iff`: no excluded hop is chosen unless no known way leads to
  the destination and the parent it is then looked for over is excluded and next
  door (`Parent`, `Query.NextDoor`).
-/
namespace Meshrustic.Topology

open Meshrustic.Graph Meshrustic.Relay

section

variable {edges : EdgeStore} {downstream : DownstreamTable} {myNode destination nowMs : UInt32}
  {filter : RoutableFilter}

theorem not_excluded_of_routable {n : UInt32} (h : isNodeRoutable filter n = true) :
    n ∉ filter.excluded := by
  unfold isNodeRoutable at h
  split at h
  · cases h
  split at h
  · cases h
  · rename_i hex
    simpa using hex

/-- The first hop of a search is its destination or passes the filter. -/
theorem backwardSearch_head {dest : UInt32} {allow : Bool} {cost hops : Nat} {nextHop : UInt32}
    (h : backwardSearch edges.graph myNode dest nowMs (some filter) allow =
      some (cost, nextHop, hops)) : nextHop = dest ∨ nextHop ∉ filter.excluded := by
  obtain ⟨-, ns, c, hwalk⟩ := backwardSearch_walk h
  cases hwalk with
  | step _ hok _ =>
    unfold walksThrough at hok
    rcases hok with hdest | hok
    · exact .inl hdest
    · rcases Bool.or_eq_true_iff.mp hok with hdest | hok
      · exact .inl (beq_iff_eq.mp hdest)
      · exact .inr (not_excluded_of_routable hok)

/-- A route over a parent begins as the search for the parent does. -/
theorem tryComposeViaParent_search {routable : Option RoutableFilter} {parent : UInt32}
    {hopCost : Nat} {verified : Bool} {r : CachedRoute}
    (h : tryComposeViaParent edges myNode destination nowMs routable parent hopCost verified =
      some r) :
    r.nextHop ≠ 0 ∧ ∃ cost hops, backwardSearch edges.graph myNode parent nowMs routable false =
      some (cost, r.nextHop, hops) := by
  unfold tryComposeViaParent at h
  split at h
  · cases h
  split at h
  · cases h
  · rename_i cost nextHop hops hsearch
    split at h
    · cases h
    · rename_i hlimit
      cases h
      rw [Bool.or_eq_true, not_or] at hlimit
      exact ⟨by simpa using hlimit.1, cost, hops, hsearch⟩

theorem routeOverEdges_head {allow : Bool} {r : CachedRoute}
    (h : routeOverEdges edges myNode destination nowMs (some filter) allow = some r) :
    r.nextHop = destination ∨ r.nextHop ∉ filter.excluded := by
  unfold routeOverEdges at h
  split at h
  · cases h
  · rename_i hsearch
    cases h
    exact backwardSearch_head hsearch

theorem routeOverChain_head {r : CachedRoute}
    (h : routeOverChain edges downstream myNode destination nowMs (some filter) = some r) :
    r.nextHop ∉ filter.excluded := by
  unfold routeOverChain at h
  extract_lets isEgress at h
  split at h
  · cases h
  · rename_i chain hchain
    unfold DownstreamTable.chainEgress at hchain
    split at hchain
    · cases hchain
    have hegress := followChain_egress hchain
    simp only [isEgress, Bool.and_eq_true] at hegress
    extract_lets cost at h
    split at h
    · cases h
      simpa using hegress.2
    · cases h

end

/-! ## The order of the attempts -/

section

variable (edges : EdgeStore) (downstream : DownstreamTable) (myNode destination nowMs : UInt32)
  (routable : Option RoutableFilter)

/-- The node no route is asked for. -/
def noEnds : Bool := myNode == 0 || destination == 0 || destination == myNode

/-- The first search, which is left out where a relay is stored and the
destination is not. -/
def ballRoute : Option CachedRoute :=
  if (edges.findNode destination).isSome ||
      !(((downstream.listDownstream destination nowMs 0xFFFFFFFF).map (·.1)).or
        (downstream.getRelay destination nowMs 0xFFFFFFFF)).any fun m =>
          (edges.findNode m).isSome then
    routeOverEdges edges myNode destination nowMs routable false
  else none

/-- The route over the parent whose list names the destination. -/
def listedRoute : Option CachedRoute :=
  (downstream.listDownstream destination nowMs 0xFFFFFFFF).bind fun m =>
    tryComposeViaParent edges myNode destination nowMs routable m.1 m.2.toNat true

def parentHintOf : UInt32 :=
  match edges.findNode destination with
  | none => 0
  | some n => n.parentHint

theorem calculateRoute_eq (h : noEnds myNode destination = false) :
    calculateRoute edges downstream myNode destination nowMs routable =
      ((ballRoute edges downstream myNode destination nowMs routable).or
        ((listedRoute edges downstream myNode destination nowMs routable).or
          ((routeOverHint edges myNode destination nowMs routable).or
            ((routeOverChain edges downstream myNode destination nowMs routable).or
              (routeOverEdges edges myNode destination nowMs routable true))))).getD
        (noRoute destination nowMs) := by
  unfold noEnds at h
  unfold calculateRoute
  rw [h]
  rfl

end

/-! ## Ways, and the parents of the destination -/

section

variable (edges : EdgeStore) (downstream : DownstreamTable) (myNode destination nowMs : UInt32)
  (filter : RoutableFilter)

/-- A search for `n`. -/
def queryFor (n : UInt32) : Query := ⟨edges.graph, myNode, n, nowMs, some filter⟩

/-- No search for the destination is made, because it is not stored and a relay
for it is, or no known way leads there. -/
def Wayless : Prop :=
  ((edges.findNode destination).isNone = true ∧
      (((downstream.listDownstream destination nowMs 0xFFFFFFFF).map (·.1)).or
        (downstream.getRelay destination nowMs 0xFFFFFFFF)).any
          (fun m => (edges.findNode m).isSome) = true) ∨
    ∀ ns c, ¬ (queryFor edges myNode nowMs filter destination).Known ns c

/-- A known way below the limit leads to `n`, which is stored. -/
def LeadsTo (n : UInt32) : Prop :=
  (edges.findNode n).isSome = true ∧
    ∃ ns c, (queryFor edges myNode nowMs filter n).Known ns c ∧ Query.priceOf c < COST_LIMIT

/-- The list of `p` names the destination, by the downstream rows. -/
def ListedParent (p : UInt32) : Prop :=
  ∃ hopCost, downstream.listDownstream destination nowMs 0xFFFFFFFF = some (p, hopCost)

/-- The destination was learned from `p`, which has measured it. -/
def HintedParent (p : UInt32) : Prop :=
  p = parentHintOf edges destination ∧ p ≠ 0 ∧ p ≠ destination ∧ p ≠ myNode ∧
    ∃ e, edges.edge p destination = some e ∧ e.source.isMeasured = true

/-- The parent over which a destination without a way is looked for. -/
structure Parent (p : UInt32) : Prop where
  ends : noEnds myNode destination = false
  wayless : Wayless edges downstream myNode destination nowMs filter
  leads : LeadsTo edges myNode nowMs filter p
  which : ListedParent downstream destination nowMs p ∨
    HintedParent edges myNode destination p ∧
      ∀ m, ListedParent downstream destination nowMs m → ¬ LeadsTo edges myNode nowMs filter m

end

section

variable {edges : EdgeStore} {downstream : DownstreamTable} {myNode destination nowMs : UInt32}
  {filter : RoutableFilter}

theorem ballRoute_edges {routable : Option RoutableFilter} {r : CachedRoute}
    (h : ballRoute edges downstream myNode destination nowMs routable = some r) :
    routeOverEdges edges myNode destination nowMs routable false = some r := by
  unfold ballRoute at h
  split at h
  · exact h
  · cases h

theorem routeOverHint_compose {routable : Option RoutableFilter} {r : CachedRoute}
    (h : routeOverHint edges myNode destination nowMs routable = some r) :
    ∃ hopCost verified, tryComposeViaParent edges myNode destination nowMs routable
      (parentHintOf edges destination) hopCost verified = some r := by
  unfold routeOverHint at h
  extract_lets hint at h
  split at h
  · split at h
    · cases h
    · split at h
      · exact ⟨_, _, h⟩
      · cases h
  · cases h

/-- A route is composed over a parent exactly if a way leads to that. -/
theorem tryComposeViaParent_isSome {parent : UInt32} {hopCost : Nat} {verified : Bool} :
    (tryComposeViaParent edges myNode destination nowMs (some filter) parent hopCost
      verified).isSome = true ↔ LeadsTo edges myNode nowMs filter parent := by
  have hknown :=
    (queryFor edges myNode nowMs filter parent).backwardSearch_known_iff COST_LIMIT
  unfold LeadsTo
  rw [← hknown]
  unfold tryComposeViaParent queryFor
  dsimp only
  by_cases hstored : (edges.findNode parent).isNone = true
  · rw [if_pos hstored]
    simp only [Option.isNone_iff_eq_none] at hstored
    simp [hstored]
  · rw [if_neg hstored]
    have hsome : (edges.findNode parent).isSome = true := by
      simpa [Option.isSome_iff_ne_none] using hstored
    rw [hsome]
    cases hsearch : backwardSearch edges.graph myNode parent nowMs (some filter) false with
    | none => simp
    | some r =>
      obtain ⟨cost, nextHop, hops⟩ := r
      have hne : nextHop ≠ 0 := (backwardSearch_walk hsearch).1
      by_cases hlimit : COST_LIMIT ≤ cost
      · simp [hlimit]
      · simp [hne, hlimit, Nat.lt_of_not_le hlimit]

theorem listedRoute_isSome :
    (listedRoute edges downstream myNode destination nowMs (some filter)).isSome = true ↔
      ∃ m, ListedParent downstream destination nowMs m ∧ LeadsTo edges myNode nowMs filter m := by
  unfold listedRoute ListedParent
  cases downstream.listDownstream destination nowMs 0xFFFFFFFF with
  | none => simp
  | some m =>
    rw [Option.bind_some, tryComposeViaParent_isSome]
    constructor
    · exact fun h => ⟨m.1, ⟨m.2, rfl⟩, h⟩
    · rintro ⟨p, ⟨hopCost, heq⟩, h⟩
      cases heq
      exact h

theorem routeOverHint_isSome :
    (routeOverHint edges myNode destination nowMs (some filter)).isSome = true ↔
      HintedParent edges myNode destination (parentHintOf edges destination) ∧
        LeadsTo edges myNode nowMs filter (parentHintOf edges destination) := by
  have hunfold : routeOverHint edges myNode destination nowMs (some filter) =
      if parentHintOf edges destination != 0 && parentHintOf edges destination != destination &&
          parentHintOf edges destination != myNode then
        (edges.edge (parentHintOf edges destination) destination).bind fun e =>
          if e.source.isMeasured then
            tryComposeViaParent edges myNode destination nowMs (some filter)
              (parentHintOf edges destination) e.etxFixed.toNat e.hearsUs
          else none
      else none := by
    unfold routeOverHint parentHintOf
    cases edges.findNode destination with
    | none => rfl
    | some n => cases hedge : edges.edge n.parentHint destination <;> simp [hedge]
  rw [hunfold]
  unfold HintedParent
  generalize parentHintOf edges destination = hint
  by_cases hends : (hint != 0 && hint != destination && hint != myNode) = true
  · rw [if_pos hends]
    simp only [Bool.and_eq_true, bne_iff_ne, ne_eq] at hends
    cases edges.edge hint destination with
    | none => simp
    | some e =>
      rw [Option.bind_some]
      cases hmeasured : e.source.isMeasured with
      | false => simp [hmeasured]
      | true =>
        rw [if_pos rfl, tryComposeViaParent_isSome]
        simp [hmeasured, hends.1.1, hends.1.2, hends.2]
  · rw [if_neg hends]
    simp only [Bool.and_eq_true, bne_iff_ne, ne_eq] at hends
    simp only [Option.isSome_none, Bool.false_eq_true, false_iff]
    rintro ⟨⟨-, h0, h1, h2, -⟩, -⟩
    exact hends ⟨⟨h0, h1⟩, h2⟩

theorem ballRoute_isNone :
    (ballRoute edges downstream myNode destination nowMs (some filter)).isSome = false ↔
      Wayless edges downstream myNode destination nowMs filter := by
  have hknown :=
    (queryFor edges myNode nowMs filter destination).backwardSearch_known_iff (COST_MAX + 1)
  have hprice : ∀ c, Query.priceOf c < COST_MAX + 1 := fun c => by
    unfold Query.priceOf
    omega
  have hedges : (routeOverEdges edges myNode destination nowMs (some filter) false).isSome = true ↔
      ∃ ns c, (queryFor edges myNode nowMs filter destination).Known ns c := by
    simp only [hprice, and_true] at hknown
    rw [← hknown]
    unfold routeOverEdges queryFor
    dsimp only
    cases hsearch : backwardSearch edges.graph myNode destination nowMs (some filter) false with
    | none => simp
    | some r =>
      obtain ⟨cost, nextHop, hops⟩ := r
      obtain ⟨⟨ns, c, -, hc, -⟩, -⟩ := Query.backwardSearch_least
        (q := queryFor edges myNode nowMs filter destination) hsearch
      exact ⟨fun _ => ⟨cost, nextHop, hops, hc ▸ hprice c, rfl⟩, fun _ => rfl⟩
  have hnone : (routeOverEdges edges myNode destination nowMs (some filter) false).isSome = false ↔
      ∀ ns c, ¬ (queryFor edges myNode nowMs filter destination).Known ns c := by
    rw [← Bool.not_eq_true, hedges]
    simp only [not_exists]
  unfold ballRoute Wayless
  rw [← hnone]
  generalize ((downstream.listDownstream destination nowMs 0xFFFFFFFF).map (·.1)).or
    (downstream.getRelay destination nowMs 0xFFFFFFFF) = relay
  cases edges.findNode destination with
  | some n => simp
  | none => cases relay.any fun m => (edges.findNode m).isSome <;> simp

/-- A composed route begins with an excluded hop only if that is its parent. -/
theorem composed_head {parent : UInt32} {hopCost : Nat} {verified : Bool} {r : CachedRoute}
    (h : tryComposeViaParent edges myNode destination nowMs (some filter) parent hopCost verified =
      some r) :
    (r.nextHop = 0 ∨ r.nextHop = destination ∨ r.nextHop ∉ filter.excluded) ↔
      (parent = destination ∨ parent ∉ filter.excluded ∨
        ¬(queryFor edges myNode nowMs filter parent).NextDoor) := by
  obtain ⟨hzero, cost, hops, hsearch⟩ := tryComposeViaParent_search h
  rw [← Query.backwardSearch_direct_iff]
  change _ ↔ (parent = destination ∨ parent ∉ filter.excluded ∨
    ¬∃ cost hops, backwardSearch edges.graph myNode parent nowMs (some filter) false =
      some (cost, parent, hops))
  rw [hsearch]
  constructor
  · rintro hhop
    by_cases heq : r.nextHop = parent
    · rw [heq] at hhop hzero
      exact (hhop.resolve_left hzero).imp_right .inl
    · right; right
      rintro ⟨_, _, hone⟩
      cases hone
      exact heq rfl
  · intro hcond
    rcases backwardSearch_head hsearch with hparent | hfree
    · rcases hcond with hdest | hfree | hnot
      · exact .inr (.inl (hparent.trans hdest))
      · exact .inr (.inr (hparent ▸ hfree))
      · exact absurd ⟨cost, hops, by rw [hparent]⟩ hnot
    · exact .inr (.inr hfree)

end

namespace NeighborGraph

/-- mirrors crates/mesh-routing/src/neighbor_graph.rs:2185-2200 -/
def excludingFilter (g : NeighborGraph) (excluded : List UInt32) : RoutableFilter :=
  ⟨g.capability, g.myNode, g.deviceRole, excluded⟩

/-- mirrors crates/mesh-routing/src/neighbor_graph.rs:2185-2200 -/
def routeExcluding (g : NeighborGraph) (destination nowMs : UInt32) (excluded : List UInt32) :
    CachedRoute :=
  calculateRoute g.edges g.downstream g.myNode destination nowMs
    (some (g.excludingFilter excluded))

end NeighborGraph

/-- The next hop is none, the destination or a node that is not excluded,
exactly if the parent over which a destination without a way is looked for, if
there is one, is the destination, not excluded, or not next door. -/
theorem route_excluding_iff (g : NeighborGraph) (destination nowMs : UInt32)
    (excluded : List UInt32) :
    ((g.routeExcluding destination nowMs excluded).nextHop = 0 ∨
        (g.routeExcluding destination nowMs excluded).nextHop = destination ∨
        (g.routeExcluding destination nowMs excluded).nextHop ∉ excluded) ↔
      ∀ parent, Parent g.edges g.downstream g.myNode destination nowMs
          (g.excludingFilter excluded) parent →
        parent = destination ∨ parent ∉ excluded ∨
          ¬(queryFor g.edges g.myNode nowMs (g.excludingFilter excluded) parent).NextDoor := by
  unfold NeighborGraph.routeExcluding
  have hfree : (g.excludingFilter excluded).excluded = excluded := rfl
  generalize g.excludingFilter excluded = filter at hfree
  subst hfree
  cases hends : noEnds g.myNode destination with
  | true =>
    have hnone : calculateRoute g.edges g.downstream g.myNode destination nowMs (some filter) =
        noRoute destination nowMs := by
      unfold noEnds at hends
      unfold calculateRoute
      rw [if_pos hends]
    rw [hnone]
    exact ⟨fun _ _ h => Bool.noConfusion (hends.symm.trans h.ends), fun _ => .inl rfl⟩
  | false =>
    rw [calculateRoute_eq _ _ _ _ _ _ hends]
    cases hball : ballRoute g.edges g.downstream g.myNode destination nowMs (some filter) with
    | some r =>
      have hhead := routeOverEdges_head (ballRoute_edges hball)
      refine ⟨fun _ parent h => ?_, fun _ => .inr hhead⟩
      have hnone := ballRoute_isNone.mpr h.wayless
      rw [hball] at hnone
      cases hnone
    | none =>
      have hwayless := ballRoute_isNone.mp (congrArg Option.isSome hball)
      rw [Option.none_or]
      cases hlisted : listedRoute g.edges g.downstream g.myNode destination nowMs
          (some filter) with
      | some r =>
        obtain ⟨m, hm, hcompose⟩ := Option.bind_eq_some_iff.mp hlisted
        have hleads := tryComposeViaParent_isSome.mp (Option.isSome_iff_exists.mpr ⟨r, hcompose⟩)
        rw [Option.some_or, Option.getD_some, composed_head hcompose]
        refine ⟨fun h parent hp => ?_, fun h => h m.1 ⟨hends, hwayless, hleads, .inl ⟨m.2, hm⟩⟩⟩
        rcases hp.which with ⟨hopCost, heq⟩ | ⟨-, hnone⟩
        · cases hm.symm.trans heq
          exact h
        · exact absurd hleads (hnone m.1 ⟨m.2, hm⟩)
      | none =>
        have hunlisted : ∀ m, ListedParent g.downstream destination nowMs m →
            ¬ LeadsTo g.edges g.myNode nowMs filter m := by
          intro m hm hleads
          have hsome := listedRoute_isSome.mpr ⟨m, hm, hleads⟩
          rw [hlisted] at hsome
          cases hsome
        have hwhich : ∀ parent, Parent g.edges g.downstream g.myNode destination nowMs filter
            parent → HintedParent g.edges g.myNode destination parent := by
          intro parent hp
          rcases hp.which with hm | ⟨hhint, -⟩
          · exact absurd hp.leads (hunlisted parent hm)
          · exact hhint
        rw [Option.none_or]
        cases hhint : routeOverHint g.edges g.myNode destination nowMs (some filter) with
        | some r =>
          obtain ⟨hopCost, verified, hcompose⟩ := routeOverHint_compose hhint
          obtain ⟨hparent, hleads⟩ :=
            routeOverHint_isSome.mp (Option.isSome_iff_exists.mpr ⟨r, hhint⟩)
          rw [Option.some_or, Option.getD_some, composed_head hcompose]
          refine ⟨fun h parent hp => ?_,
            fun h => h _ ⟨hends, hwayless, hleads, .inr ⟨hparent, hunlisted⟩⟩⟩
          rw [(hwhich parent hp).1]
          exact h
        | none =>
          rw [Option.none_or]
          constructor
          · intro _ parent hp
            have heq := (hwhich parent hp).1
            have hsome := routeOverHint_isSome.mpr ⟨heq ▸ hwhich parent hp, heq ▸ hp.leads⟩
            rw [hhint] at hsome
            cases hsome
          · intro _
            cases hchain : routeOverChain g.edges g.downstream g.myNode destination nowMs
                (some filter) with
            | some r => exact .inr (.inr (routeOverChain_head hchain))
            | none =>
              rw [Option.none_or]
              cases hedges : routeOverEdges g.edges g.myNode destination nowMs (some filter)
                  true with
              | some r => exact .inr (routeOverEdges_head hedges)
              | none => exact .inl rfl

/-! ## A parent next door -/

/-- A node whose list names one neighbour that hears it. -/
def pairedWith (nodeId neighbor : UInt32) (h : nodeId ≠ 0 ∧ neighbor ≠ 0 ∧ neighbor ≠ nodeId) :
    NodeEdges where
  nodeId := nodeId
  lastFullUpdateMs := 1000
  edges := ⟨[{ toNode := neighbor, etxFixed := 100, source := .reported, hearsUs := true }],
    Nat.le_add_left 1 39⟩
  ids e he := by
    obtain rfl := List.mem_singleton.mp he
    exact h
  nodup := List.nodup_singleton _
  cls := .l1
  parentHint := 0

/-- Node 9 was learned from the list of node 2, our neighbour. -/
def parentGraph : NeighborGraph :=
  { NeighborGraph.new 1 with
    edges := {
      nodes := ⟨[pairedWith 1 2 (by decide), pairedWith 2 1 (by decide)], by decide⟩
      nodup := by decide
      pendingDemotion := none }
    downstream := ⟨⟨[{
      destination := 9
      relay := 2
      costFixed := 100
      lastUpdateMs := 1000
      viaRadio := 0
      listLearned := true }], by decide⟩⟩ }

/-- The retry that is to avoid node 2 goes to node 2. -/
theorem excluded_parent_is_chosen :
    (parentGraph.routeExcluding 9 2000 [2]).nextHop = 2 ∧
      ¬((parentGraph.routeExcluding 9 2000 [2]).nextHop = 0 ∨
        (parentGraph.routeExcluding 9 2000 [2]).nextHop = 9 ∨
        (parentGraph.routeExcluding 9 2000 [2]).nextHop ∉ [2]) := by
  have hhop : (parentGraph.routeExcluding 9 2000 [2]).nextHop = 2 := by decide +kernel
  rw [hhop]
  simp

end Meshrustic.Topology
