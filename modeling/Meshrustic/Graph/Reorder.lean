import Meshrustic.Core.Ranking
import Meshrustic.Graph.Coverage

/-!
# The graph in another order

Node table and lists are arrays, filled in the order things were heard and
closed up by moving the last entry into a gap. Two stores that hold the same
lists may so hold them in different orders. What is looked up by id does not
depend on it; what is scanned comes in another order. The scan for the owner of
a target keeps the best candidate, which is the same in any order.
-/
namespace Meshrustic.Graph

open Meshrustic.Admin

/-! ## The scan for an owner -/

section

variable {edges : EdgeStore} {capability : CapabilityCache} {me target : UInt32} {meRelays : Bool}

/-- The lower tier first, then the lower cost bucket, then the lower id.
mirrors crates/mesh-routing/src/graph/route.rs:419 -/
def ownerAhead (a b : (Nat × Nat) × UInt32) : Bool :=
  a.1.1 < b.1.1 || (a.1.1 == b.1.1 && (a.1.2 < b.1.2 || (a.1.2 == b.1.2 && a.2 < b.2)))

theorem ownerAhead_iff {a b : (Nat × Nat) × UInt32} :
    ownerAhead a b = true ↔ a.1.1 < b.1.1 ∨
      a.1.1 = b.1.1 ∧ (a.1.2 < b.1.2 ∨ a.1.2 = b.1.2 ∧ a.2.toNat < b.2.toNat) := by
  unfold ownerAhead
  simp only [Bool.or_eq_true, Bool.and_eq_true, decide_eq_true_eq, beq_iff_eq,
    UInt32.lt_iff_toNat_lt]

theorem ownerAhead_strict : StrictRank ownerAhead where
  irrefl a := by
    unfold ownerAhead
    simp
  trans a b c := by
    rw [ownerAhead_iff, ownerAhead_iff, ownerAhead_iff]
    omega

/-- The nodes that may own `target`, with their keys. -/
def ownerCandidates (edges : EdgeStore) (capability : CapabilityCache) (me : UInt32)
    (meRelays : Bool) (target : UInt32) : List ((Nat × Nat) × UInt32) :=
  edges.nodeIds.filterMap fun c =>
    (ownerKey edges capability me meRelays target c).map fun key => (key, c)

theorem mem_ownerCandidates {a : (Nat × Nat) × UInt32} :
    a ∈ ownerCandidates edges capability me meRelays target ↔
      a.2 ∈ edges.nodeIds ∧ ownerKey edges capability me meRelays target a.2 = some a.1 := by
  unfold ownerCandidates
  rw [List.mem_filterMap]
  constructor
  · rintro ⟨c, hc, hkey⟩
    obtain ⟨key, hown, rfl⟩ := Option.map_eq_some_iff.mp hkey
    exact ⟨hc, hown⟩
  · rintro ⟨hc, hkey⟩
    exact ⟨a.2, hc, by rw [hkey]; rfl⟩

/-- A node has one key, so no two candidates tie. -/
theorem ownerCandidates_decides :
    Decides ownerAhead (ownerCandidates edges capability me meRelays target) := by
  intro a ha b hb hne
  have hid : a.2 ≠ b.2 := by
    intro hid
    have hka := (mem_ownerCandidates.mp ha).2
    rw [hid, (mem_ownerCandidates.mp hb).2] at hka
    exact hne (Prod.ext (Option.some.inj hka).symm hid)
  have hnat : a.2.toNat ≠ b.2.toNat := fun h => hid (UInt32.toNat_inj.mp h)
  rw [ownerAhead_iff, ownerAhead_iff]
  omega

/-- There are two tiers, and the scan starts from a worse one. -/
theorem ownerKey_tier {c : UInt32} {key : Nat × Nat}
    (h : ownerKey edges capability me meRelays target c = some key) : key.1 ≤ 1 := by
  unfold ownerKey at h
  obtain ⟨-, h⟩ := Option.ite_none_left_eq_some.mp h
  obtain ⟨-, h⟩ := Option.ite_none_left_eq_some.mp h
  cases hedge : measuredEdge edges c target with
  | none =>
    rw [hedge] at h
    cases h
  | some edge =>
    rw [hedge] at h
    obtain ⟨-, h⟩ := Option.ite_none_left_eq_some.mp h
    dsimp only at h
    split at h
    · obtain ⟨-, h⟩ := Option.ite_none_left_eq_some.mp h
      obtain rfl := Option.some.inj h
      exact Nat.le_refl 1
    · split at h
      · obtain rfl := Option.some.inj h
        exact Nat.zero_le 1
      · obtain ⟨-, h⟩ := Option.ite_none_right_eq_some.mp h
        obtain rfl := Option.some.inj h
        exact Nat.le_refl 1

/-- The pick of a scan that has come to this best candidate. -/
def pickOf : Option ((Nat × Nat) × UInt32) → OwnerPick
  | none => ⟨(255, 65535), 0⟩
  | some a => ⟨a.1, a.2⟩

theorem offer_better {best : Option ((Nat × Nat) × UInt32)} {a : (Nat × Nat) × UInt32}
    (ha : a.1.1 ≤ 1) : (pickOf best).offer (some a.1) a.2 = pickOf (betterOf ownerAhead best a) := by
  cases best with
  | none =>
    have hlt : a.1.1 < 255 := Nat.lt_of_le_of_lt ha (by decide)
    exact if_pos (.inl hlt)
  | some b =>
    have hiff : (a.1.1 < b.1.1 ∨ a.1.1 = b.1.1 ∧ a.1.2 < b.1.2 ∨ a.1 = b.1 ∧ a.2 < b.2) ↔
        ownerAhead a b = true := by
      rw [ownerAhead_iff, Prod.ext_iff, UInt32.lt_iff_toNat_lt]
      omega
    change (pickOf (some b)).offer (some a.1) a.2 =
      pickOf (if ownerAhead a b = true then some a else some b)
    by_cases h : ownerAhead a b = true
    · rw [if_pos h]
      exact if_pos (hiff.mpr h)
    · rw [if_neg h]
      exact if_neg (hiff.not.mpr h)

/-- The running minimum is one pass over the candidates. -/
theorem coverageOwner_scan : coverageOwner edges capability me meRelays target =
    if target == 0 || isPlaceholderNode target || publishesTopology (some capability) target then 0
    else
      (pickOf (scanBest ownerAhead (ownerCandidates edges capability me meRelays target))).owner := by
  have hfold := @scan_form _ ownerAhead (ownerCandidates edges capability me meRelays target) _
    pickOf (fun p a => p.offer (some a.1) a.2) (fun a => a.1.1 ≤ 1)
    (fun best _ a ha => offer_better ha) fun a ha => ownerKey_tier (mem_ownerCandidates.mp ha).2
  rw [← hfold]
  unfold ownerCandidates coverageOwner
  rw [List.foldl_filterMap]
  by_cases hnamed : (target == 0 || isPlaceholderNode target) = true
  · rw [if_pos hnamed, hnamed]
    rfl
  rw [if_neg hnamed]
  rw [Bool.not_eq_true] at hnamed
  rw [hnamed, Bool.false_or]
  split
  · rfl
  · congr 2
    funext p c
    cases ownerKey edges capability me meRelays target c with
    | none => rfl
    | some key => rfl

/-- The owner is the candidate ahead of all others; 0 says there is none. -/
theorem coverageOwner_least (hzero : target ≠ 0) (hnamed : isPlaceholderNode target = false)
    (hlist : publishesTopology (some capability) target = false) :
    (coverageOwner edges capability me meRelays target = 0 ∧
        ownerCandidates edges capability me meRelays target = []) ∨
      ∃ key, (key, coverageOwner edges capability me meRelays target) ∈
          ownerCandidates edges capability me meRelays target ∧
        ∀ a ∈ ownerCandidates edges capability me meRelays target,
          a.2 ≠ coverageOwner edges capability me meRelays target →
            ownerAhead (key, coverageOwner edges capability me meRelays target) a = true := by
  rw [coverageOwner_scan, beq_false_of_ne hzero, hnamed, hlist, if_neg (by simp)]
  rcases scanBest_spec ownerAhead_strict
    (@ownerCandidates_decides edges capability me target meRelays) with ⟨hnil, hscan⟩ |
      ⟨best, hscan, hmem, hahead⟩
  · rw [hscan]
    exact .inl ⟨rfl, hnil⟩
  · rw [hscan]
    exact .inr ⟨best.1, hmem, fun a ha hne => hahead a ha fun heq => hne (heq ▸ rfl)⟩

end

/-! ## Two orders -/

/-- The same lists, nodes and entries in any order. -/
structure Reordered (s t : EdgeStore) : Prop where
  nodes : s.nodeIds.Perm t.nodeIds
  lists : ∀ m ∈ s.nodes.rows, ∃ n ∈ t.nodes.rows, n.nodeId = m.nodeId ∧
    n.lastFullUpdateMs = m.lastFullUpdateMs ∧ m.edges.rows.Perm n.edges.rows

namespace Reordered

variable {s t : EdgeStore}

/-- The list of a node, in both stores. -/
theorem findNode (h : Reordered s t) (a : UInt32) :
    (s.findNode a = none ∧ t.findNode a = none) ∨
      ∃ m n, s.findNode a = some m ∧ t.findNode a = some n ∧
        n.lastFullUpdateMs = m.lastFullUpdateMs ∧ m.edges.rows.Perm n.edges.rows := by
  cases hs : s.findNode a with
  | some m =>
    have hm : m ∈ s.nodes.rows := List.mem_of_find?_eq_some hs
    obtain ⟨n, hn, hid, htime, hperm⟩ := h.lists m hm
    have ht : t.findNode a = some n := by
      have hlookup := lookup_of_mem (fun n : NodeEdges => n.nodeId) t.nodup hn
      rwa [hid, EdgeStore.findNode_nodeId hs] at hlookup
    exact .inr ⟨m, n, rfl, ht, htime, hperm⟩
  | none =>
    left
    refine ⟨rfl, ?_⟩
    cases ht : t.findNode a with
    | none => rfl
    | some n =>
      have hmem : a ∈ t.nodeIds :=
        List.mem_map.mpr ⟨n, List.mem_of_find?_eq_some ht, EdgeStore.findNode_nodeId ht⟩
      obtain ⟨m, hm, hid⟩ := List.mem_map.mp (h.nodes.mem_iff.mpr hmem)
      have hlookup := lookup_of_mem (fun n : NodeEdges => n.nodeId) s.nodup hm
      rw [hid] at hlookup
      exact absurd (hs.symm.trans hlookup) (by simp)

theorem listed (h : Reordered s t) (a : UInt32) : (s.listed a).Perm (t.listed a) := by
  unfold EdgeStore.listed
  rcases h.findNode a with ⟨hs, ht⟩ | ⟨m, n, hs, ht, -, hperm⟩
  · rw [hs, ht]
  · rw [hs, ht]
    exact hperm

theorem edge (h : Reordered s t) : s.edge = t.edge := by
  funext a b
  unfold EdgeStore.edge
  rcases h.findNode a with ⟨hs, ht⟩ | ⟨m, n, hs, ht, -, hperm⟩
  · rw [hs, ht]
  · rw [hs, ht]
    exact lookup_perm (fun e : Edge => e.toNode) m.nodup hperm

/-! ## What the graph answers -/

section

variable {capability : Option CapabilityCache}

theorem knownToHear (h : Reordered s t) : Graph.knownToHear s = Graph.knownToHear t := by
  funext a b
  unfold Graph.knownToHear
  rw [h.edge]

theorem canDeliver (h : Reordered s t) :
    Graph.canDeliver s capability = Graph.canDeliver t capability := by
  funext a b
  unfold Graph.canDeliver
  rw [h.knownToHear]

theorem measuredEdge (h : Reordered s t) : Graph.measuredEdge s = Graph.measuredEdge t := by
  funext a b
  unfold Graph.measuredEdge
  rw [h.edge]

theorem hopCostFixed (h : Reordered s t) : Graph.hopCostFixed s = Graph.hopCostFixed t := by
  funext a b
  unfold Graph.hopCostFixed measuredEtx
  rw [h.measuredEdge]

theorem deliveryHopCostFixed (h : Reordered s t) :
    Graph.deliveryHopCostFixed s capability = Graph.deliveryHopCostFixed t capability := by
  funext a b nowMs myNode
  unfold Graph.deliveryHopCostFixed deliveryDirectionCostFixed
  rw [h.canDeliver, h.measuredEdge]

theorem acknowledgementPriceFixed (h : Reordered s t) :
    Graph.acknowledgementPriceFixed s = Graph.acknowledgementPriceFixed t := by
  funext candidate source
  unfold Graph.acknowledgementPriceFixed
  rw [h.measuredEdge, h.hopCostFixed]

theorem covers (h : Reordered s t) : Graph.covers s capability = Graph.covers t capability := by
  funext a b
  unfold Graph.covers
  rw [h.knownToHear, h.edge, h.hopCostFixed]

theorem isSilentPublisher (h : Reordered s t) :
    Graph.isSilentPublisher s capability = Graph.isSilentPublisher t capability := by
  funext node nowMs
  unfold Graph.isSilentPublisher
  rcases h.findNode node with ⟨hs, ht⟩ | ⟨m, n, hs, ht, htime, -⟩
  · rw [hs, ht]
  · rw [hs, ht]
    dsimp only
    rw [htime]

theorem hasDirectReportedEdgeTo (h : Reordered s t) :
    s.hasDirectReportedEdgeTo = t.hasDirectReportedEdgeTo := by
  funext a b
  unfold EdgeStore.hasDirectReportedEdgeTo
  rw [h.edge]

theorem coverageOwner (h : Reordered s t) : Graph.coverageOwner s = Graph.coverageOwner t := by
  funext capability me meRelays target
  have hcandidates : (ownerCandidates s capability me meRelays target).Perm
      (ownerCandidates t capability me meRelays target) := by
    have hkey : Graph.ownerKey s = Graph.ownerKey t := by
      funext capability me meRelays target candidate
      unfold Graph.ownerKey
      rw [h.hasDirectReportedEdgeTo, h.measuredEdge]
    unfold ownerCandidates
    rw [hkey]
    exact h.nodes.filterMap _
  rw [coverageOwner_scan, coverageOwner_scan,
    scanBest_perm ownerAhead_strict ownerCandidates_decides hcandidates]

end

end Reordered

end Meshrustic.Graph
