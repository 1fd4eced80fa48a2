import Meshrustic.Relay.Agreement

/-!
# Every admitted target has a price (`broadcast_relay.rs:424-450`, `graph/route.rs:181-308`)

The ranking averages over the prices of the targets it has admitted, and asserts that
there is one. Admission asks for evidence and a measurement in either direction; the
price asks whether the hop can be delivered, and for a measurement again.

Results:
* `coverageOwner_key`: whoever owns a target has measured it.
* `admitted_target_has_price`: an admitted target of a relay that is not node 0 has a
  price, and so has everything a candidate counts.
* `nobody_owns_for_node_zero`: for node 0, the answer of `coverage_owner` that there is no
  owner is taken for an ownership.
-/
namespace Meshrustic.Relay

open Meshrustic.Graph

section

variable {edges : EdgeStore} {capability : CapabilityCache} {a b nowMs myNode : UInt32}

/-! ## Evidence and price -/

/-- A measurement in either direction prices the hop. -/
theorem deliveryDirectionCost_of_measured
    (h : (measuredEdge edges b a).isSome = true ∨ (measuredEdge edges a b).isSome = true) :
    (deliveryDirectionCostFixed edges (some capability) a b nowMs myNode).isSome = true := by
  unfold deliveryDirectionCostFixed
  cases hback : measuredEdge edges b a with
  | some edge => rfl
  | none =>
    rw [hback] at h
    simpa using h

theorem hopCost_measured {cost : Nat} (h : hopCostFixed edges a b = some cost) :
    (measuredEdge edges b a).isSome = true ∨ (measuredEdge edges a b).isSome = true := by
  unfold hopCostFixed measuredEtx at h
  cases hback : measuredEdge edges b a with
  | some edge => exact .inl rfl
  | none =>
    rw [hback] at h
    cases hforth : measuredEdge edges a b with
    | some edge => exact .inr rfl
    | none =>
      rw [hforth] at h
      cases h

/-- What is covered can be delivered, at a price. -/
theorem covered_has_price (h : covers edges (some capability) a b = true) :
    (deliveryHopCostFixed edges (some capability) a b nowMs myNode).isSome = true := by
  unfold covers at h
  obtain ⟨hevidence, hprice⟩ := Bool.and_eq_true_iff.mp h
  have hdeliver : canDeliver edges (some capability) a b = true := by
    unfold canDeliver
    cases hpub : publishesTopology (some capability) b with
    | false => rw [Bool.not_false, Bool.or_true]
    | true =>
      rw [hpub, if_pos rfl] at hevidence
      rw [hevidence, Bool.true_or]
  have hmeasured : (measuredEdge edges b a).isSome = true ∨ (measuredEdge edges a b).isSome = true := by
    cases hcost : hopCostFixed edges a b with
    | none =>
      rw [hcost] at hprice
      cases hprice
    | some cost => exact hopCost_measured hcost
  unfold deliveryHopCostFixed
  rw [hdeliver]
  exact deliveryDirectionCost_of_measured hmeasured

/-! ## Ownership -/

/-- The key of an owner comes from its measurement of the target. -/
theorem ownerKey_measured {me candidate target : UInt32} {meRelays : Bool} {key : Nat × Nat}
    (h : ownerKey edges capability me meRelays target candidate = some key) :
    (measuredEdge edges candidate target).isSome = true := by
  cases hedge : measuredEdge edges candidate target with
  | some edge => rfl
  | none => simp [ownerKey, hedge] at h

/-- Whoever the scan names has a key, unless the scan started with it. -/
theorem offers_key {key : UInt32 → Option (Nat × Nat)} {start : OwnerPick} (ids : List UInt32) :
    (ids.foldl (fun (p : OwnerPick) c => p.offer (key c) c) start).owner = start.owner ∨
      (key (ids.foldl (fun (p : OwnerPick) c => p.offer (key c) c) start).owner).isSome = true := by
  induction ids generalizing start with
  | nil => exact .inl rfl
  | cons c ids ih =>
    rw [List.foldl_cons]
    rcases @ih (start.offer (key c) c) with hsame | hkey
    · rw [hsame]
      unfold OwnerPick.offer
      cases hc : key c with
      | none => exact .inl rfl
      | some k =>
        dsimp only
        split
        · refine .inr ?_
          dsimp only
          rw [hc]
          rfl
        · exact .inl rfl
    · exact .inr hkey

/-- The owner of a target is a node that has measured it, and the target does not say who
hears it. -/
theorem coverageOwner_key {me target : UInt32} {meRelays : Bool}
    (h : coverageOwner edges capability me meRelays target ≠ 0) :
    publishesTopology (some capability) target = false ∧
      (measuredEdge edges (coverageOwner edges capability me meRelays target) target).isSome =
        true := by
  unfold coverageOwner at h ⊢
  by_cases hname : (target == 0 || isPlaceholderNode target) = true
  · rw [if_pos hname] at h
    exact absurd rfl h
  rw [if_neg hname] at h ⊢
  by_cases hpub : publishesTopology (some capability) target = true
  · rw [if_pos hpub] at h
    exact absurd rfl h
  rw [if_neg hpub] at h ⊢
  refine ⟨by simpa using hpub, ?_⟩
  rcases @offers_key (ownerKey edges capability me meRelays target) ⟨(255, 65535), 0⟩
    edges.nodeIds with hnobody | hkey
  · exact absurd hnobody h
  · obtain ⟨key, hkey⟩ := Option.isSome_iff_exists.mp hkey
    exact ownerKey_measured hkey

theorem owned_has_price {me relay target : UInt32} {meRelays : Bool}
    (howner : coverageOwner edges capability me meRelays target = relay) (hrelay : relay ≠ 0) :
    (deliveryHopCostFixed edges (some capability) relay target nowMs myNode).isSome = true := by
  subst howner
  obtain ⟨hpub, hmeasured⟩ := coverageOwner_key hrelay
  have hdeliver : canDeliver edges (some capability)
      (coverageOwner edges capability me meRelays target) target = true := by
    unfold canDeliver
    rw [hpub, Bool.not_false, Bool.or_true]
  unfold deliveryHopCostFixed
  rw [hdeliver]
  exact deliveryDirectionCost_of_measured (.inr hmeasured)

end

/-! ## Admission -/

section

variable (ctx : BroadcastRelayContext)

theorem admitted_has_price {relay target nowMs : UInt32} (hrelay : relay ≠ 0)
    (h : admitsCoverage ctx relay target nowMs = true) :
    (deliveryHopCostFixed ctx.edges (some ctx.capability) relay target nowMs
      ctx.myNode).isSome = true := by
  rcases (admitsCoverage_iff.mp h).2.2 with hcovers | howner
  · exact covered_has_price hcovers
  · exact owned_has_price howner hrelay

/-- What a relay would newly cover has been admitted. -/
theorem uniqueTargets_admitted {covered : NodeSet MAX_COVERED} {relay target nowMs : UInt32}
    (h : target ∈ uniqueTargets ctx covered relay nowMs) :
    admitsCoverage ctx relay target nowMs = true := by
  unfold uniqueTargets getCoverageIfRelays at h
  obtain ⟨edge, -, hedge⟩ := List.mem_filterMap.mp (List.mem_of_mem_filter h)
  unfold coveredTarget at hedge
  dsimp only at hedge
  split at hedge
  · cases hedge
  · split at hedge
    · cases hedge
    · split at hedge
      · cases hedge
      · split at hedge
        · cases hedge
        · rename_i hadmitted
          cases hedge
          simpa using hadmitted

/-- The prices that the average of a candidate is taken over. -/
def targetPrices (covered : NodeSet MAX_COVERED) (candidate nowMs : UInt32) : List Nat :=
  (uniqueTargets ctx covered candidate nowMs).filterMap fun target =>
    deliveryHopCostFixed ctx.edges (some ctx.capability) candidate target nowMs ctx.myNode

theorem targetPrices_length (covered : NodeSet MAX_COVERED) {candidate nowMs : UInt32}
    (h : candidate ≠ 0) :
    (targetPrices ctx covered candidate nowMs).length =
      (uniqueTargets ctx covered candidate nowMs).length := by
  unfold targetPrices
  rw [List.filterMap_length_eq_length]
  intro target htarget
  exact admitted_has_price ctx h (uniqueTargets_admitted ctx htarget)

/-- An admitted target has a price for every relay but node 0. No set of candidates
holds node 0, so each target that is counted there is priced, and the average is over as
many prices as there are targets. -/
theorem admitted_target_has_price (nowMs : UInt32) :
    (∀ relay target, relay ≠ 0 → admitsCoverage ctx relay target nowMs = true →
        (deliveryHopCostFixed ctx.edges (some ctx.capability) relay target nowMs
          ctx.myNode).isSome = true) ∧
      ∀ (candidates : NodeSet MAX_CANDIDATES) (covered : NodeSet MAX_COVERED),
        ∀ candidate ∈ candidates,
          (targetPrices ctx covered candidate nowMs).length =
              (uniqueTargets ctx covered candidate nowMs).length ∧
            (uniqueTargets ctx covered candidate nowMs ≠ [] →
              targetPrices ctx covered candidate nowMs ≠ []) := by
  refine ⟨fun relay target hrelay h => admitted_has_price ctx hrelay h, ?_⟩
  intro candidates covered candidate hmem
  have hlength : (targetPrices ctx covered candidate nowMs).length =
      (uniqueTargets ctx covered candidate nowMs).length :=
    targetPrices_length ctx covered (candidates.nonzero _ hmem)
  refine ⟨hlength, fun hne hnone => hne ?_⟩
  rw [hnone] at hlength
  exact List.length_eq_zero_iff.mp hlength.symm

end

/-- Node 4 owns node 3, which does not say whom it hears, and has a price to it. -/
theorem admitted_target_sample :
    (stockContext false).owner 3 = 4 ∧
      (deliveryHopCostFixed (stockContext false).edges (some (stockContext false).capability) 4 3
        1000 (stockContext false).myNode).isSome = true :=
  ⟨by decide +kernel,
    (admitted_target_has_price (stockContext false) 1000).1 4 3 (by decide) (by decide +kernel)⟩

/-- A graph that knows nobody. -/
def emptyContext : BroadcastRelayContext where
  myNode := 1
  myNodeRelays := true
  edges := ⟨.empty, List.nodup_nil⟩
  capability := .empty
  droppedCoverage := .empty
  downstream := .empty

/-- Nobody owns node 5, which is read as node 0 owning it. -/
theorem nobody_owns_for_node_zero :
    admitsCoverage emptyContext 0 5 0 = true ∧
      deliveryHopCostFixed emptyContext.edges (some emptyContext.capability) 0 5 0
        emptyContext.myNode = none := by
  decide

end Meshrustic.Relay
