import Meshrustic.Core.Clock
import Meshrustic.Core.LTS
import Meshrustic.Graph.Capability
import Mathlib.Logic.Function.Basic

/-!
# How long a node counts as a publisher (`mesh-routing/src/capability.rs`)

A node that sends its list of neighbours is a publisher until `CAPABILITY_TTL_MS` have passed. Its
record is the evidence; roles, which write to the same cache, leave it alone, a full cache gives
up only other records for a new one, and `prune` and the readers each decide by the age whether it
still counts.

The abstract view is a map: for each node its last list that was accepted, and when.

Results:
* `trackTopology_cases`, `trackRole_cases`: what the two writers can do;
* `mem_prune`: the nodes that `prune` names are those whose evidence it removes;
* `History.Kept`: the records agree with the map for as long as the evidence counts;
* `evidence_lasts`: so whether a node is a publisher is decided by its last list, and its age.
-/
namespace Meshrustic.Graph

namespace CapabilityCache

/-- mirrors crates/mesh-routing/src/capability.rs:66-82 -/
def statusAt (c : CapabilityCache) (nodeId myNode nowMs : UInt32) : CapabilityStatus :=
  match c.find nodeId with
  | none => .unknown
  | some rec =>
    if rec.nodeId == myNode && myNode != 0 then rec.status
    else if nowMs != 0 && (decide (CAPABILITY_TTL_MS < nowMs - rec.lastUpdatedMs) &&
        decide (nowMs - rec.lastUpdatedMs < 0x80000000)) then .unknown
    else rec.status

/-- No two records of one node. -/
def Distinct (c : CapabilityCache) : Prop := (c.records.rows.map (·.nodeId)).Nodup

variable {c c' : CapabilityCache}

theorem find_nodeId {n : UInt32} {r : CapabilityRecord} (h : c.find n = some r) : r.nodeId = n :=
  lookup_key _ h

theorem Distinct.find_iff (hd : c.Distinct) {n : UInt32} {r : CapabilityRecord} :
    c.find n = some r ↔ r ∈ c.records.rows ∧ r.nodeId = n := lookup_eq_some_iff _ hd

/-! ## The writers -/

/-- A record is written, at the expense of at most one other, which is no publisher's. -/
structure Writes (c c' : CapabilityCache) (new : CapabilityRecord) : Prop where
  distinct : c'.Distinct
  own : c'.find new.nodeId = some new
  others : ∀ n, n ≠ new.nodeId → c'.find n = c.find n ∨
    c'.find n = none ∧ ∀ r, c.find n = some r → isSignalRouting r.status = false

/-- A publisher's record stays where another node's is written. -/
theorem Writes.keeps {new : CapabilityRecord} (h : c.Writes c' new) {n : UInt32}
    {r : CapabilityRecord} (hn : n ≠ new.nodeId) (hr : c.find n = some r)
    (hpublisher : isSignalRouting r.status = true) : c'.find n = some r := by
  rcases h.others n hn with hsame | ⟨-, hquiet⟩
  · exact hsame.trans hr
  · rw [hquiet r hr] at hpublisher
    cases hpublisher

/-- What stands of another node was there before. -/
theorem Writes.before {new : CapabilityRecord} (h : c.Writes c' new) {n : UInt32}
    {r : CapabilityRecord} (hn : n ≠ new.nodeId) (hr : c'.find n = some r) : c.find n = some r := by
  rcases h.others n hn with hsame | ⟨hnone, -⟩
  · exact hsame ▸ hr
  · rw [hnone] at hr
    cases hr

/-- The record of a node that has one is replaced. -/
theorem writes_known (hd : c.Distinct) {i : Nat} {r new : CapabilityRecord}
    (hfind : c.records.rows.findIdx? (fun r => r.nodeId == new.nodeId) = some i)
    (hr : c.records.rows[i]? = some r) : c.Writes ⟨c.records.set i new⟩ new := by
  have hkey : r.nodeId = new.nodeId :=
    lookup_key _ ((findIdx_lookup CapabilityRecord.nodeId hfind).symm.trans hr)
  refine ⟨?_, lookup_set_found _ hfind rfl, fun n hn => .inl ?_⟩
  · change (((c.records.rows.set i new)).map (·.nodeId)).Nodup
    rw [keys_set_same CapabilityRecord.nodeId hr hkey.symm]
    exact hd
  · exact lookup_set_same _ hr hkey.symm hn.symm

/-- Where the record of a new node goes, at the time it carries. -/
def place (c : CapabilityCache) (new : CapabilityRecord) : CapabilityCache :=
  match c.records.push new with
  | some records => ⟨records⟩
  | none =>
    match c.records.lastMaxIdx (fun r => !isSignalRouting r.status)
        (fun r => new.lastUpdatedMs - r.lastUpdatedMs) with
    | none => c
    | some i => ⟨c.records.set i new⟩

/-- It is written, unless the cache is full of publishers. -/
theorem place_cases (hd : c.Distinct) (new : CapabilityRecord) (hnew : c.find new.nodeId = none) :
    c.Writes (c.place new) new ∨ c.place new = c ∧
      c.records.rows.length = MAX_CAPABILITY_RECORDS ∧
      ∀ r ∈ c.records.rows, isSignalRouting r.status = true := by
  have hfresh : new.nodeId ∉ c.records.rows.map (·.nodeId) := lookup_eq_none _ hnew
  unfold place
  cases hpush : c.records.push new with
  | some records =>
    have hrows := Table.push_rows hpush
    refine .inl ⟨?_, ?_, fun n hn => .inl ?_⟩
    · change (records.rows.map _).Nodup
      rw [hrows, List.map_append, List.map_singleton]
      exact List.nodup_append_comm.mp (List.nodup_cons.mpr ⟨hfresh, hd⟩)
    · change lookup _ records.rows _ = _
      rw [hrows]
      exact lookup_append_new _ hnew rfl
    · change lookup _ records.rows _ = _
      rw [hrows]
      exact lookup_append_other _ hn.symm
  | none =>
    have hfull := Table.push_none hpush
    dsimp only
    cases hvictim : c.records.lastMaxIdx (fun r => !isSignalRouting r.status)
        (fun r => new.lastUpdatedMs - r.lastUpdatedMs) with
    | none =>
      refine .inr ⟨rfl, hfull, fun r hr => ?_⟩
      simpa using Table.lastMaxIdx_none hvictim r hr
    | some i =>
      obtain ⟨victim, hi, hquiet⟩ := Table.lastMaxIdx_some hvictim
      have hdistinct : (⟨c.records.set i new⟩ : CapabilityCache).Distinct := by
        change ((c.records.rows.set i new).map _).Nodup
        rw [List.map_set]
        exact List.Nodup.set hd hfresh
      refine .inl ⟨hdistinct, ?_, fun n hn => ?_⟩
      · exact lookup_set_new _ hnew (List.getElem?_eq_some_iff.mp hi).1 rfl
      · refine (lookup_set_other _ hd hn.symm).imp id fun hnone => ⟨hnone, fun r hr => ?_⟩
        -- a record that is gone is the victim
        by_cases hr' : r = victim
        · rw [hr']
          simpa using hquiet
        · have hmem : r ∈ c.records.rows.set i new :=
            (mem_set_other hi (fun h => hn (by rw [← find_nodeId hr, h])) hr').mpr
              (hd.find_iff.mp hr).1
          have hfound := hdistinct.find_iff.mpr ⟨hmem, find_nodeId hr⟩
          rw [show (⟨c.records.set i new⟩ : CapabilityCache).find n = none from hnone] at hfound
          cases hfound

/-- What a list says of its sender. -/
def said (signalRoutingActive : Bool) : CapabilityStatus :=
  if signalRoutingActive then .srActive else .passive

theorem said_publisher (active : Bool) : isSignalRouting (said active) = true := by
  cases active <;> rfl

/-- A node has a record, which the writers find, or it is new. -/
theorem known_or_new (c : CapabilityCache) (n : UInt32) :
    (∃ i r, c.records.rows.findIdx? (fun r => r.nodeId == n) = some i ∧
      c.records.rows[i]? = some r ∧ c.find n = some r) ∨
    c.records.rows.findIdx? (fun r => r.nodeId == n) = none ∧ c.find n = none := by
  cases hfind : c.find n with
  | some r =>
    obtain ⟨i, hi, hr⟩ := findIdx_of_lookup CapabilityRecord.nodeId hfind
    exact .inl ⟨i, r, hi, hr, rfl⟩
  | none =>
    refine .inr ⟨List.findIdx?_eq_none_iff.mpr fun r hr => ?_, rfl⟩
    simpa using List.find?_eq_none.mp hfind r hr

/-- What a list can do: it is the newest evidence, or it is refused. -/
theorem trackTopology_cases (hd : c.Distinct) {n : UInt32} (hn : n ≠ 0) (active : Bool)
    (nowMs : UInt32) :
    (∃ new : CapabilityRecord, new.nodeId = n ∧ new.status = said active ∧
      new.lastUpdatedMs = nowMs ∧ c.Writes (c.trackTopology n active nowMs) new) ∨
    c.trackTopology n active nowMs = c ∧ c.find n = none ∧
      c.records.rows.length = MAX_CAPABILITY_RECORDS ∧
      ∀ r ∈ c.records.rows, isSignalRouting r.status = true := by
  unfold trackTopology
  rw [if_neg (by simpa using hn)]
  rcases c.known_or_new n with ⟨i, r, hi, hr, hfind⟩ | ⟨hi, hnone⟩
  · have hnode := find_nodeId hfind
    simp only [hi, hr]
    rw [← hnode] at hi
    exact .inl ⟨{ r with status := said active, lastUpdatedMs := nowMs }, hnode, rfl, rfl,
      writes_known hd hi hr⟩
  · simp only [hi]
    rcases place_cases hd ⟨n, said active, 0, nowMs⟩ hnone with hwrites | ⟨hsame, hfull⟩
    · exact .inl ⟨_, rfl, rfl, rfl, hwrites⟩
    · exact .inr ⟨hsame, hnone, hfull⟩

theorem capabilityFromRole_quiet (role : UInt32) :
    isSignalRouting (capabilityFromRole role) = false := by
  unfold capabilityFromRole
  split <;> rfl

/-- What a role can do: to evidence, nothing but that it is noted beside it. -/
theorem trackRole_cases (hd : c.Distinct) {n : UInt32} (hn : n ≠ 0) (role nowMs : UInt32) :
    (∃ r, c.find n = some r ∧ isSignalRouting r.status = true ∧
      c.Writes (c.trackRole n role nowMs) { r with role := role }) ∨
    (∃ new : CapabilityRecord, new.nodeId = n ∧ isSignalRouting new.status = false ∧
      new.lastUpdatedMs = nowMs ∧ (∀ r, c.find n = some r → isSignalRouting r.status = false) ∧
      c.Writes (c.trackRole n role nowMs) new) ∨
    c.trackRole n role nowMs = c ∧ c.find n = none := by
  unfold trackRole
  rw [if_neg (by simpa using hn)]
  rcases c.known_or_new n with ⟨i, r, hi, hr, hfind⟩ | ⟨hi, hnone⟩
  · have hnode := find_nodeId hfind
    simp only [hi, hr]
    rw [← hnode] at hi
    cases hpublisher : isSignalRouting r.status with
    | true => exact .inl ⟨r, hfind, hpublisher, writes_known hd hi hr⟩
    | false =>
      refine .inr (.inl ⟨{ r with role := role, lastUpdatedMs := nowMs, status := capabilityFromRole role },
        hnode, capabilityFromRole_quiet role, rfl, fun r' hr' => ?_, writes_known hd hi hr⟩)
      rw [hfind, Option.some.injEq] at hr'
      rw [← hr']
      exact hpublisher
  · simp only [hi]
    rcases place_cases hd ⟨n, capabilityFromRole role, role, nowMs⟩ hnone with
      hwrites | ⟨hsame, -⟩
    · refine .inr (.inl ⟨_, rfl, capabilityFromRole_quiet role, rfl, fun r hr => ?_, hwrites⟩)
      rw [hnone] at hr
      cases hr
    · exact .inr (.inr ⟨hsame, hnone⟩)

/-! ## Pruning -/

section Prune

variable {nowMs myNode : UInt32}

theorem pruneFrom_records (fuel i : Nat) (c : CapabilityCache) (gone : List UInt32) :
    (pruneFrom nowMs myNode fuel i c gone).1.records =
      Table.swapOut (expired nowMs myNode) fuel i c.records := by
  induction fuel generalizing i c gone with
  | zero => rfl
  | succ fuel ih =>
    unfold pruneFrom Table.swapOut
    cases c.records.rows[i]? with
    | none => rfl
    | some r =>
      dsimp only
      split
      · exact ih _ _ _
      · exact ih _ _ _

/-- Of the records that go, those of publishers are told. -/
theorem pruneFrom_gone {fuel i : Nat} {c : CapabilityCache} {gone : List UInt32}
    (hfuel : c.records.rows.length ≤ fuel + i)
    (hpassed : c.records.Passed (expired nowMs myNode) i) :
    (pruneFrom nowMs myNode fuel i c gone).2.Perm (gone ++
      ((c.records.rows.filter fun r => expired nowMs myNode r && isSignalRouting r.status).map
        (·.nodeId))) := by
  have hnone (c : CapabilityCache) (h : ∀ r ∈ c.records.rows, expired nowMs myNode r = false) :
      (c.records.rows.filter fun r => expired nowMs myNode r && isSignalRouting r.status) = [] := by
    refine List.filter_eq_nil_iff.mpr fun r hr => ?_
    rw [h r hr]
    exact Bool.false_ne_true
  induction fuel generalizing i c gone with
  | zero =>
    unfold pruneFrom
    rw [hnone c (hpassed.mem (by omega)), List.map_nil, List.append_nil]
  | succ fuel ih =>
    unfold pruneFrom
    cases hrow : c.records.rows[i]? with
    | none =>
      dsimp only
      rw [hnone c (hpassed.mem (List.getElem?_eq_none_iff.mp hrow)), List.map_nil,
        List.append_nil]
    | some x =>
      obtain ⟨hi, -⟩ := List.getElem?_eq_some_iff.mp hrow
      dsimp only
      split
      · rename_i hx
        have hperm := c.records.swapRemove_cons_perm hrow
        have hlen := hperm.length_eq
        rw [List.length_cons] at hlen
        have hrest := (hperm.filter fun r => expired nowMs myNode r && isSignalRouting r.status).map
          (·.nodeId)
        -- the record that goes is the first of those that are told, if it is a publisher's
        have hless : (c.records.swapRemove i).rows.length ≤ fuel + i := by omega
        refine (ih hless (hpassed.swapRemove hi)).trans ?_
        cases hpublisher : isSignalRouting x.status with
        | true =>
          rw [List.filter_cons_of_pos (by rw [hx, hpublisher]; rfl), List.map_cons] at hrest
          rw [if_pos rfl, List.append_assoc, List.singleton_append]
          exact hrest.append_left gone
        | false =>
          rw [List.filter_cons_of_neg (by rw [hx, hpublisher]; exact Bool.false_ne_true)] at hrest
          rw [if_neg Bool.false_ne_true]
          exact hrest.append_left gone
      · rename_i hx
        exact ih (by omega) (hpassed.next hrow (by simpa using hx))

theorem prune_records (c : CapabilityCache) :
    (c.prune nowMs myNode).1.records =
      Table.swapOut (expired nowMs myNode) c.records.rows.length 0 c.records :=
  pruneFrom_records _ _ _ _

theorem Distinct.prune (hd : c.Distinct) : (c.prune nowMs myNode).1.Distinct := by
  unfold Distinct
  rw [prune_records]
  refine ((Table.swapOut_all.map _).nodup_iff).mpr ?_
  exact hd.sublist (List.filter_sublist.map _)

/-- The records that are left. -/
theorem find_prune (hd : c.Distinct) {n : UInt32} {r : CapabilityRecord} :
    (c.prune nowMs myNode).1.find n = some r ↔
      c.find n = some r ∧ expired nowMs myNode r = false := by
  rw [hd.prune.find_iff, hd.find_iff, prune_records, Table.mem_swapOut]
  exact and_right_comm

/-- Whose evidence is removed, is told. -/
theorem mem_prune (hd : c.Distinct) :
    (c.prune nowMs myNode).2.Nodup ∧ ∀ n, n ∈ (c.prune nowMs myNode).2 ↔
      (∃ r, c.find n = some r ∧ isSignalRouting r.status = true) ∧
        (c.prune nowMs myNode).1.find n = none := by
  have hgone : (c.prune nowMs myNode).2.Perm _ :=
    pruneFrom_gone (Nat.le_refl _) .start
  rw [List.nil_append] at hgone
  refine ⟨hgone.nodup_iff.mpr (hd.sublist (List.filter_sublist.map _)), fun n => ?_⟩
  rw [hgone.mem_iff, List.mem_map]
  constructor
  · rintro ⟨r, hr, rfl⟩
    obtain ⟨hmem, htold⟩ := List.mem_filter.mp hr
    rw [Bool.and_eq_true] at htold
    have hfind := hd.find_iff.mpr ⟨hmem, rfl⟩
    refine ⟨⟨r, hfind, htold.2⟩, Option.eq_none_iff_forall_ne_some.mpr fun r' hr' => ?_⟩
    obtain ⟨hbefore, hfresh⟩ := (find_prune hd).mp hr'
    rw [hfind, Option.some.injEq] at hbefore
    rw [← hbefore, htold.1] at hfresh
    cases hfresh
  · rintro ⟨⟨r, hfind, hpublisher⟩, hnone⟩
    obtain ⟨hmem, hnode⟩ := hd.find_iff.mp hfind
    refine ⟨r, List.mem_filter.mpr ⟨hmem, ?_⟩, hnode⟩
    rw [hpublisher, Bool.and_true]
    by_contra hfresh
    rw [(find_prune hd).mpr ⟨hfind, by simpa using hfresh⟩] at hnone
    cases hnone

end Prune

/-! ## Ages -/

/-- A record that seems overdue is overdue. -/
theorem overdue_past {t u : Nat} (hle : u ≤ t) (h : CAPABILITY_TTL_MS < clock t - clock u) :
    u + CAPABILITY_TTL_MS.toNat < t := by
  rw [UInt32.lt_iff_toNat_lt, clock_sub hle] at h
  have hmod := Nat.mod_le (t - u) CLOCK_PERIOD
  omega

/-- Less than half a turn after its update, a record seems as old as it is. -/
theorem overdue_iff {t u : Nat} (hle : u ≤ t) (hsoon : t < u + 2147483648) :
    (decide (CAPABILITY_TTL_MS < clock t - clock u) && decide (clock t - clock u < 0x80000000)) = true ↔
      u + CAPABILITY_TTL_MS.toNat < t := by
  have hpast := (clock_half (by omega) (by omega)).mpr hle
  have hage := clock_sub hle
  rw [Nat.mod_eq_of_lt (by simp only [CLOCK_PERIOD]; omega)] at hage
  rw [Bool.and_eq_true, decide_eq_true_iff, decide_eq_true_iff, UInt32.lt_iff_toNat_lt, hage]
  constructor
  · intro h
    omega
  · intro h
    exact ⟨by omega, hpast⟩

end CapabilityCache

/-! ## Calls at real times -/

/-- The last list of a node that was accepted. -/
structure Evidence where
  active : Bool
  atMs : Nat
  deriving DecidableEq

inductive CapabilityCall where
  | trackRole (nodeId role : UInt32)
  | trackTopology (nodeId : UInt32) (signalRoutingActive : Bool)
  | prune (myNode : UInt32)

/-- The node a call is about; `prune` is about none. -/
def CapabilityCall.About : CapabilityCall → UInt32 → Prop
  | .trackRole nodeId _, n | .trackTopology nodeId _, n => nodeId = n
  | .prune _, _ => False

/-- The cache, the time of the last call, for each node its last list that was accepted, and when
its record was last updated. -/
structure History where
  cache : CapabilityCache
  nowMs : Nat
  evidence : UInt32 → Option Evidence
  updatedMs : UInt32 → Nat

namespace History

/-- A list is accepted where the cache then holds a record of its sender. A role updates a record
that is no publisher's. -/
def next (s : History) (call : Nat × CapabilityCall) : History :=
  match call.2 with
  | .trackRole nodeId role =>
    let cache := s.cache.trackRole nodeId role (clock call.1)
    { s with
      cache := cache
      nowMs := call.1
      updatedMs := if cache.publishesTopology nodeId then s.updatedMs
        else Function.update s.updatedMs nodeId call.1 }
  | .trackTopology nodeId signalRoutingActive =>
    let cache := s.cache.trackTopology nodeId signalRoutingActive (clock call.1)
    if (cache.find nodeId).isSome then
      { cache := cache
        nowMs := call.1
        evidence := Function.update s.evidence nodeId (some ⟨signalRoutingActive, call.1⟩)
        updatedMs := Function.update s.updatedMs nodeId call.1 }
    else { s with cache := cache, nowMs := call.1 }
  | .prune myNode => { s with cache := (s.cache.prune (clock call.1) myNode).1, nowMs := call.1 }

end History

/-- Calls for nodes with an id, at times that do not go back. -/
def historyLTS : LTS History (Nat × CapabilityCall) where
  init s := s.cache = .empty ∧ ∀ n, s.evidence n = none
  step s call t := s.nowMs ≤ call.1 ∧ ¬ call.2.About 0 ∧ t = s.next call

namespace History

open CapabilityCache

/-- The records of publishers are the lists that still count. -/
structure Kept (s : History) : Prop where
  distinct : s.cache.Distinct
  stamped : ∀ n r, s.cache.find n = some r →
    r.lastUpdatedMs = clock (s.updatedMs n) ∧ s.updatedMs n ≤ s.nowMs
  published : ∀ n r, s.cache.find n = some r → isSignalRouting r.status = true →
    ∃ active, r.status = said active ∧ s.evidence n = some ⟨active, s.updatedMs n⟩
  lost : ∀ n e, s.evidence n = some e →
    (∃ r, s.cache.find n = some r ∧ isSignalRouting r.status = true) ∨
      e.atMs + CAPABILITY_TTL_MS.toNat < s.nowMs

variable {s : History} {t : Nat}

/-- Time passes. -/
theorem Kept.later (h : s.Kept) (ht : s.nowMs ≤ t) : Kept { s with nowMs := t } where
  distinct := h.distinct
  stamped n r hr := by
    obtain ⟨hstamp, hle⟩ := h.stamped n r hr
    exact ⟨hstamp, Nat.le_trans hle ht⟩
  published := h.published
  lost n e he := (h.lost n e he).imp id fun hlost => Nat.lt_of_lt_of_le hlost ht

theorem publishesTopology_find {c : CapabilityCache} {n : UInt32} {r : CapabilityRecord}
    (h : c.find n = some r) : c.publishesTopology n = isSignalRouting r.status := by
  unfold publishesTopology status
  rw [h]
  rfl

/-- A record is written at time `t`, and what is known of its node with it. -/
theorem Kept.writes (h : s.Kept) (ht : s.nowMs ≤ t) {cache : CapabilityCache}
    {new : CapabilityRecord} (hwrites : s.cache.Writes cache new) {evidence : UInt32 → Option Evidence}
    {updatedMs : UInt32 → Nat}
    (hothers : ∀ n, n ≠ new.nodeId → evidence n = s.evidence n ∧ updatedMs n = s.updatedMs n)
    (hstamp : new.lastUpdatedMs = clock (updatedMs new.nodeId) ∧ updatedMs new.nodeId ≤ t)
    (hpublished : isSignalRouting new.status = true → ∃ active, new.status = said active ∧
      evidence new.nodeId = some ⟨active, updatedMs new.nodeId⟩)
    (hlost : ∀ e, evidence new.nodeId = some e →
      isSignalRouting new.status = true ∨ e.atMs + CAPABILITY_TTL_MS.toNat < t) :
    Kept ⟨cache, t, evidence, updatedMs⟩ := by
  refine ⟨hwrites.distinct, fun n r hr => ?_, fun n r hr hpublisher => ?_, fun n e he => ?_⟩
  · by_cases hn : n = new.nodeId
    · subst hn
      rw [hwrites.own, Option.some.injEq] at hr
      rw [← hr]
      exact hstamp
    · dsimp only
      rw [(hothers n hn).2]
      exact (h.later ht).stamped n r (hwrites.before hn hr)
  · by_cases hn : n = new.nodeId
    · subst hn
      rw [hwrites.own, Option.some.injEq] at hr
      rw [← hr] at hpublisher ⊢
      exact hpublished hpublisher
    · dsimp only
      rw [(hothers n hn).1, (hothers n hn).2]
      exact h.published n r (hwrites.before hn hr) hpublisher
  · by_cases hn : n = new.nodeId
    · subst hn
      exact (hlost e he).imp (fun hpublisher => ⟨new, hwrites.own, hpublisher⟩) id
    · dsimp only at he
      rw [(hothers n hn).1] at he
      refine ((h.later ht).lost n e he).imp (fun hstill => ?_) id
      obtain ⟨r, hr, hpublisher⟩ := hstill
      exact ⟨r, hwrites.keeps hn hr hpublisher, hpublisher⟩

theorem Kept.topology (h : s.Kept) (ht : s.nowMs ≤ t) {n : UInt32} (hn : n ≠ 0) (active : Bool) :
    (s.next (t, .trackTopology n active)).Kept := by
  rcases trackTopology_cases h.distinct hn active (clock t) with
    ⟨new, rfl, hstatus, hstamp, hwrites⟩ | ⟨hsame, hnone, -⟩
  · have hnext : s.next (t, .trackTopology new.nodeId active) =
        ⟨s.cache.trackTopology new.nodeId active (clock t), t,
          Function.update s.evidence new.nodeId (some ⟨active, t⟩),
          Function.update s.updatedMs new.nodeId t⟩ := by
      unfold next
      dsimp only
      rw [if_pos (by rw [hwrites.own]; rfl)]
    rw [hnext]
    refine h.writes ht hwrites (fun m hm => ?_) ?_ (fun _ => ⟨active, hstatus, ?_⟩) fun e _ => ?_
    · exact ⟨Function.update_of_ne hm _ _, Function.update_of_ne hm _ _⟩
    · rw [Function.update_self]
      exact ⟨hstamp, Nat.le_refl t⟩
    · rw [Function.update_self, Function.update_self]
    · rw [hstatus]
      exact .inl (said_publisher active)
  · have hnext : s.next (t, .trackTopology n active) = { s with nowMs := t } := by
      unfold next
      dsimp only
      rw [hsame, if_neg (by rw [hnone]; exact Bool.false_ne_true)]
    rw [hnext]
    exact h.later ht

theorem Kept.role (h : s.Kept) (ht : s.nowMs ≤ t) {n : UInt32} (hn : n ≠ 0) (role : UInt32) :
    (s.next (t, .trackRole n role)).Kept := by
  rcases trackRole_cases h.distinct hn role (clock t) with
    ⟨old, hold, hpublisher, hwrites⟩ | ⟨new, rfl, hquiet, hstamp, hbefore, hwrites⟩ | ⟨hsame, hnone⟩
  · -- evidence: only the role beside it is new
    have hnode := find_nodeId hold
    subst hnode
    have hnext : s.next (t, .trackRole old.nodeId role) =
        ⟨s.cache.trackRole old.nodeId role (clock t), t, s.evidence, s.updatedMs⟩ := by
      unfold next
      dsimp only
      rw [publishesTopology_find hwrites.own, if_pos hpublisher]
    rw [hnext]
    refine h.writes ht hwrites (fun _ _ => ⟨rfl, rfl⟩) ?_ (fun _ => ?_) fun e _ => .inl hpublisher
    · exact (h.later ht).stamped old.nodeId old hold
    · exact h.published old.nodeId old hold hpublisher
  · have hnext : s.next (t, .trackRole new.nodeId role) =
        ⟨s.cache.trackRole new.nodeId role (clock t), t, s.evidence,
          Function.update s.updatedMs new.nodeId t⟩ := by
      unfold next
      dsimp only
      rw [publishesTopology_find hwrites.own, hquiet, if_neg Bool.false_ne_true]
    rw [hnext]
    refine h.writes ht hwrites (fun m hm => ⟨rfl, Function.update_of_ne hm _ _⟩) ?_ (fun hr => ?_)
      fun e he => ?_
    · rw [Function.update_self]
      exact ⟨hstamp, Nat.le_refl t⟩
    · rw [hquiet] at hr
      cases hr
    · rcases (h.later ht).lost new.nodeId e he with ⟨r, hr, hpublisher⟩ | hlost
      · rw [hbefore r hr] at hpublisher
        cases hpublisher
      · exact .inr hlost
  · have hnext : s.next (t, .trackRole n role) =
        ⟨s.cache, t, s.evidence, Function.update s.updatedMs n t⟩ := by
      unfold next
      dsimp only
      rw [hsame, if_neg]
      unfold publishesTopology status
      rw [hnone]
      exact Bool.false_ne_true
    rw [hnext]
    have hother (m : UInt32) (r : CapabilityRecord) (hr : s.cache.find m = some r) :
        Function.update s.updatedMs n t m = s.updatedMs m := by
      refine Function.update_of_ne ?_ _ _
      rintro rfl
      rw [hnone] at hr
      cases hr
    refine ⟨h.distinct, fun m r hr => ?_, fun m r hr hr' => ?_, (h.later ht).lost⟩
    · dsimp only
      rw [hother m r hr]
      exact (h.later ht).stamped m r hr
    · dsimp only
      rw [hother m r hr]
      exact h.published m r hr hr'

theorem Kept.prune (h : s.Kept) (ht : s.nowMs ≤ t) (myNode : UInt32) :
    (s.next (t, .prune myNode)).Kept where
  distinct := h.distinct.prune
  stamped n r hr := (h.later ht).stamped n r ((find_prune h.distinct).mp hr).1
  published n r hr := h.published n r ((find_prune h.distinct).mp hr).1
  lost n e he := by
    rcases (h.later ht).lost n e he with ⟨r, hr, hpublisher⟩ | hlost
    · cases hexpired : expired (clock t) myNode r with
      | false => exact .inl ⟨r, (find_prune h.distinct).mpr ⟨hr, hexpired⟩, hpublisher⟩
      | true =>
        right
        obtain ⟨hstamp, hle⟩ := (h.later ht).stamped n r hr
        obtain ⟨active, -, hevidence⟩ := h.published n r hr hpublisher
        change s.evidence n = some e at he
        rw [hevidence, Option.some.injEq] at he
        unfold expired at hexpired
        simp only [Bool.and_eq_true, decide_eq_true_iff] at hexpired
        rw [hstamp] at hexpired
        rw [← he]
        exact overdue_past hle hexpired.1.2
    · exact .inr hlost

end History

/-- Every call keeps the records and the map together. -/
theorem historyLTS_kept : historyLTS.Inductive History.Kept where
  init s hs := by
    obtain ⟨hcache, hevidence⟩ := hs
    have hempty (n : UInt32) : s.cache.find n = none := by rw [hcache]; rfl
    refine ⟨?_, fun n r hr => ?_, fun n r hr => ?_, fun n e he => ?_⟩
    · rw [hcache]
      exact List.nodup_nil
    · rw [hempty] at hr
      cases hr
    · rw [hempty] at hr
      cases hr
    · rw [hevidence] at he
      cases he
  step s call t h hs := by
    obtain ⟨atMs, call⟩ := call
    obtain ⟨ht, habout, rfl⟩ := hs
    cases call with
    | trackRole nodeId role => exact h.role ht habout role
    | trackTopology nodeId active => exact h.topology ht habout active
    | prune myNode => exact h.prune ht myNode

namespace CapabilityCache

theorem said_inj {a b : Bool} : said a = said b ↔ a = b := by
  cases a <;> cases b <;> decide

/-- What is read of a node with a record, by its age. -/
theorem statusAt_record {c : CapabilityCache} {n myNode : UInt32} {r : CapabilityRecord}
    (hr : c.find n = some r) (hmine : n ≠ myNode) {t u : Nat} (hzero : clock t ≠ 0) (hle : u ≤ t)
    (hsoon : t < u + 2147483648) (hstamp : r.lastUpdatedMs = clock u) :
    c.statusAt n myNode (clock t) =
      if u + CAPABILITY_TTL_MS.toNat < t then .unknown else r.status := by
  have hmine' : (r.nodeId == myNode) = false := by
    rw [find_nodeId hr]
    exact beq_eq_false_iff_ne.mpr hmine
  have hclock : (clock t != 0) = true := bne_iff_ne.mpr hzero
  unfold statusAt
  rw [hr]
  dsimp only
  rw [hmine', Bool.false_and, if_neg Bool.false_ne_true, hclock, Bool.true_and, hstamp]
  exact if_congr (overdue_iff hle hsoon) rfl rfl

end CapabilityCache

open CapabilityCache

/-- Whether a node counts as a publisher. -/
theorem History.Kept.statusAt {s : History} (h : s.Kept) {n myNode : UInt32} {t : Nat}
    (hmine : n ≠ myNode) (hzero : clock t ≠ 0) (ht : s.nowMs ≤ t)
    (hsoon : ∀ r, s.cache.find n = some r → t < s.updatedMs n + 2147483648) (active : Bool) :
    s.cache.statusAt n myNode (clock t) = said active ↔
      ∃ e, s.evidence n = some e ∧ e.active = active ∧ t ≤ e.atMs + CAPABILITY_TTL_MS.toNat := by
  -- without a publisher's record, no evidence counts any more
  have hnone (hquiet : ∀ r, s.cache.find n = some r → isSignalRouting r.status = false) :
      ¬ ∃ e, s.evidence n = some e ∧ e.active = active ∧ t ≤ e.atMs + CAPABILITY_TTL_MS.toNat := by
    rintro ⟨e, he, -, hlast⟩
    rcases (h.later ht).lost n e he with ⟨r, hr, hpublisher⟩ | hlost
    · rw [hquiet r hr] at hpublisher
      cases hpublisher
    · exact absurd hlost (Nat.not_lt.mpr hlast)
  cases hfind : s.cache.find n with
  | none =>
    have hstatus : s.cache.statusAt n myNode (clock t) = .unknown := by
      unfold CapabilityCache.statusAt
      rw [hfind]
    rw [hstatus]
    refine ⟨fun heq => ?_, fun he => absurd he (hnone fun r hr => ?_)⟩
    · cases active <;> cases heq
    · rw [hfind] at hr
      cases hr
  | some r =>
    obtain ⟨hstamp, hle⟩ := (h.later ht).stamped n r hfind
    rw [statusAt_record hfind hmine hzero hle (hsoon r hfind) hstamp]
    cases hpublisher : isSignalRouting r.status with
    | false =>
      refine ⟨fun heq => ?_, fun he => absurd he (hnone fun r' hr' => ?_)⟩
      · have hsaid := said_publisher active
        rw [← heq] at hsaid
        split at hsaid
        · cases hsaid
        · rw [hpublisher] at hsaid
          cases hsaid
      · rw [hfind, Option.some.injEq] at hr'
        rw [← hr']
        exact hpublisher
    | true =>
      obtain ⟨last, hstatus, hevidence⟩ := h.published n r hfind hpublisher
      rw [hevidence, hstatus]
      by_cases hover : s.updatedMs n + CAPABILITY_TTL_MS.toNat < t
      · rw [if_pos hover]
        refine ⟨fun heq => ?_, fun he => ?_⟩
        · cases active <;> cases heq
        · obtain ⟨e, he, -, hlast⟩ := he
          rw [Option.some.injEq] at he
          rw [← he] at hlast
          exact absurd hover (Nat.not_lt.mpr hlast)
      · rw [if_neg hover, said_inj]
        refine ⟨fun heq => ⟨_, rfl, heq, Nat.le_of_not_lt hover⟩, fun he => ?_⟩
        obtain ⟨e, he, hactive, -⟩ := he
        rw [Option.some.injEq] at he
        rw [← he] at hactive
        exact hactive

/-- A role, whoever it is of: evidence stays as it is, but for the role noted beside it. -/
theorem CapabilityCache.trackRole_evidence {c : CapabilityCache} (hd : c.Distinct) {n : UInt32}
    (hn : n ≠ 0) (role nowMs : UInt32) {m : UInt32} {r : CapabilityRecord} (hr : c.find m = some r)
    (hpublisher : isSignalRouting r.status = true) :
    (c.trackRole n role nowMs).find m = some (if m = n then { r with role := role } else r) := by
  rcases trackRole_cases hd hn role nowMs with
    ⟨old, hold, -, hwrites⟩ | ⟨new, rfl, -, -, hquiet, hwrites⟩ | ⟨hsame, hnone⟩
  · by_cases hm : m = n
    · have hnode := find_nodeId hr
      subst hm hnode
      rw [hr, Option.some.injEq] at hold
      subst hold
      rw [if_pos rfl]
      exact hwrites.own
    · rw [if_neg hm]
      exact hwrites.keeps (by rw [find_nodeId hold]; exact hm) hr hpublisher
  · have hm : m ≠ new.nodeId := by
      rintro rfl
      rw [hquiet r hr] at hpublisher
      cases hpublisher
    rw [if_neg hm]
    exact hwrites.keeps hm hr hpublisher
  · have hm : m ≠ n := by
      rintro rfl
      rw [hnone] at hr
      cases hr
    rw [hsame, if_neg hm]
    exact hr

/-- A list of another node. -/
theorem CapabilityCache.trackTopology_evidence {c : CapabilityCache} (hd : c.Distinct) {n : UInt32}
    (hn : n ≠ 0) (active : Bool) (nowMs : UInt32) {m : UInt32} (hm : m ≠ n) {r : CapabilityRecord}
    (hr : c.find m = some r) (hpublisher : isSignalRouting r.status = true) :
    (c.trackTopology n active nowMs).find m = some r := by
  rcases trackTopology_cases hd hn active nowMs with ⟨new, rfl, -, -, hwrites⟩ | ⟨hsame, -⟩
  · exact hwrites.keeps hm hr hpublisher
  · rw [hsame]
    exact hr

/-- A list that is refused. -/
theorem CapabilityCache.trackTopology_refused {c : CapabilityCache} (hd : c.Distinct) {n : UInt32}
    (hn : n ≠ 0) (active : Bool) (nowMs : UInt32)
    (hrefused : (c.trackTopology n active nowMs).find n = none) :
    c.records.rows.length = MAX_CAPABILITY_RECORDS ∧
      ∀ r ∈ c.records.rows, isSignalRouting r.status = true := by
  rcases trackTopology_cases hd hn active nowMs with ⟨new, rfl, -, -, hwrites⟩ | ⟨-, -, hfull⟩
  · rw [hwrites.own] at hrefused
    cases hrefused
  · exact hfull

/-- Whatever was called, evidence lasts for its lifetime, and no longer. -/
theorem evidence_lasts {s : History} (hs : historyLTS.Reachable s) :
    s.cache.Distinct ∧ s.cache.records.rows.length ≤ MAX_CAPABILITY_RECORDS ∧
    (∀ n role nowMs, n ≠ 0 → ∀ m r, s.cache.find m = some r → isSignalRouting r.status = true →
      (s.cache.trackRole n role nowMs).find m =
        some (if m = n then { r with role := role } else r)) ∧
    (∀ n active nowMs, n ≠ 0 → ∀ m r, m ≠ n → s.cache.find m = some r →
      isSignalRouting r.status = true → (s.cache.trackTopology n active nowMs).find m = some r) ∧
    (∀ n active nowMs, n ≠ 0 → (s.cache.trackTopology n active nowMs).find n = none →
      ∀ r ∈ s.cache.records.rows, isSignalRouting r.status = true) ∧
    (∀ nowMs myNode, (s.cache.prune nowMs myNode).2.Nodup ∧
      ∀ n, n ∈ (s.cache.prune nowMs myNode).2 ↔
        (∃ r, s.cache.find n = some r ∧ isSignalRouting r.status = true) ∧
          (s.cache.prune nowMs myNode).1.find n = none) ∧
    (∀ n myNode t, n ≠ myNode → clock t ≠ 0 → s.nowMs ≤ t →
      (∀ r, s.cache.find n = some r → t < s.updatedMs n + 2147483648) → ∀ active,
        (s.cache.statusAt n myNode (clock t) = (if active then .srActive else .passive) ↔
          ∃ e, s.evidence n = some e ∧ e.active = active ∧
            t ≤ e.atMs + CAPABILITY_TTL_MS.toNat)) := by
  have h := historyLTS_kept.reachable hs
  refine ⟨h.distinct, s.cache.records.le, ?_, ?_, ?_, ?_, ?_⟩
  · intro n role nowMs hn m r hr hpublisher
    exact trackRole_evidence h.distinct hn role nowMs hr hpublisher
  · intro n active nowMs hn m r hm hr hpublisher
    exact trackTopology_evidence h.distinct hn active nowMs hm hr hpublisher
  · intro n active nowMs hn hrefused
    exact (trackTopology_refused h.distinct hn active nowMs hrefused).2
  · intro nowMs myNode
    exact mem_prune h.distinct
  · intro n myNode t hmine hzero ht hsoon active
    exact h.statusAt hmine hzero ht hsoon active

def unheard : History := ⟨.empty, 0, fun _ => none, fun _ => 0⟩

/-- One node has sent a list. -/
def listed : History := unheard.next (10, .trackTopology 2 true)

theorem listed_reachable : historyLTS.Reachable listed := by
  refine ⟨unheard, [(10, .trackTopology 2 true)], ⟨rfl, fun _ => rfl⟩, .cons ⟨?_, ?_, rfl⟩ (.nil _)⟩
  · exact Nat.zero_le 10
  · change ¬ (2 : UInt32) = 0
    decide

/-- It counts as a publisher to the last millisecond. -/
theorem evidence_lasts_listed :
    listed.cache.statusAt 2 1 (clock 2720010) = .srActive ∧
      listed.cache.statusAt 2 1 (clock 2720011) ≠ .srActive := by
  have hlasts := (evidence_lasts listed_reachable).2.2.2.2.2.2
  constructor
  · refine (hlasts 2 1 2720010 (by decide) (by decide) (by decide) (fun _ _ => by decide) true).mpr ?_
    exact ⟨⟨true, 10⟩, by decide, rfl, by decide⟩
  · intro hstatus
    obtain ⟨e, he, -, hlast⟩ := (hlasts 2 1 2720011 (by decide) (by decide) (by decide)
      (fun _ _ => by decide) true).mp hstatus
    have hevidence : listed.evidence 2 = some ⟨true, 10⟩ := by decide
    rw [hevidence, Option.some.injEq] at he
    rw [← he] at hlast
    exact absurd hlast (by decide)

/-- A role changes the record of a publisher: it is noted in it. -/
theorem role_changes_record :
    historyLTS.Reachable listed ∧ listed.cache.find 2 = some ⟨2, .srActive, 0, 10⟩ ∧
      isSignalRouting .srActive = true ∧
      (listed.cache.trackRole 2 Admin.DEVICE_ROLE_ROUTER (clock 20)).find 2 ≠
        listed.cache.find 2 :=
  ⟨listed_reachable, by decide, rfl, by decide⟩

end Meshrustic.Graph
