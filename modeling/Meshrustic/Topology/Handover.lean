import Meshrustic.Topology.Representation
import Meshrustic.Topology.Transfer

/-!
# Parked demotions (`mesh-routing/src/graph/edge.rs`)

An eviction for capacity that finds an L1 parent owes a downstream row for its
victim. With the table at hand it writes the row at once; without, it parks the
demotion in a slot that `flush_pending_demotion` empties. The slot holds one
demotion: a second eviction writes over it, and every demotion that is applied,
whichever it is, clears it.

Results:
* `parked_demotion_delivered`: no demotion is lost in a run that leaves the slot
  alone while it is taken;
* `second_eviction_loses_first`: two evictions before the flush.
-/
namespace Meshrustic.Topology

open Meshrustic.Graph Meshrustic.Relay

namespace EdgeRows

/-! ## What evictions owe -/

section

variable {Etx : Type} (F : F32 Etx) (s : EdgeRows) (me nowMs : UInt32)

/-- The demotion that the next eviction for capacity owes. -/
def evictionOwes : Option PendingDemotion :=
  match s.selectEvictionVictim me nowMs with
  | none => none
  | some idx =>
    match s.nodes[idx]? with
    | none => none
    | some n => (s.pickL1Parent n.nodeId me).map fun p => ⟨n.nodeId, p.1, p.2⟩

/-- What `findOrCreateNode` owes: it evicts where the node is new and the store full. -/
def createOwes (nodeId : UInt32) : Option PendingDemotion :=
  if (s.findNode nodeId).isSome then none
  else if s.nodes.length < MAX_GRAPH_NODES then none
  else s.evictionOwes me nowMs

/-- What `updateEdge` owes, for the owner of the edge and for its target. -/
def updateOwes (a b : UInt32) (etx : Etx) : List PendingDemotion :=
  if b == 0 || a == 0 || a == b || !F.positive etx then []
  else
    match s.admitOwner F a nowMs me with
    | none => []
    | some t =>
      let admitted := if a == me || !isPlaceholderNode a then none else s.createOwes me nowMs a
      let target := match t.findOrCreateNode F a nowMs me with
        | none => none
        | some u => if a == me then u.createOwes me nowMs b else none
      admitted.toList ++ (t.createOwes me nowMs a).toList ++ target.toList

def publisherOwes (nodeId : UInt32) (cls : NodeClass) : Option PendingDemotion :=
  if nodeId == 0 || nodeId == me || !classWithinDepth cls then none
  else s.createOwes me nowMs nodeId

/-- Some victim of the list has an L1 parent when its turn comes. -/
def anyDemoted : EdgeRows → List UInt32 → Bool
  | _, [] => false
  | s, v :: vs => (s.pickL1Parent v me).isSome || anyDemoted (s.removeNode v).1 vs

/-- Pruning applies a demotion. -/
def pruneDemotes : Bool :=
  (s.findNode me).isSome &&
    s.anyDemoted me (s.ids.filter fun id =>
      !(s.reachableFrom s.nodes.length ([me], [me])).contains id && id != me)

/-- Ageing applies a demotion, itself or in the pruning that follows. -/
def ageDemotes (ttlMs : UInt32) : Bool :=
  let t := (s.dropOldEdges nowMs ttlMs).1
  t.anyDemoted me ((t.nodes.filter (t.ages me nowMs ttlMs)).map (·.nodeId)) ||
    let (u, _, changed) := s.ageEdges F me nowMs ttlMs none
    changed && u.pruneDemotes me

/-- The demotions that an operation owes. -/
def owes : StoreOp Etx → List PendingDemotion
  | .ensureLocalNode nowMs => (s.createOwes me nowMs me).toList
  | .updateEdge a b etx nowMs _ _ _ => s.updateOwes F me nowMs a b etx
  | .updateEdgeFromObservation a b rssi snr nowMs _ _ modemPreset =>
    s.updateOwes F me nowMs a b (F.calculateEtx rssi.toInt32 snr modemPreset)
  | .ensurePublisher nodeId cls _ nowMs _ => (s.publisherOwes me nowMs nodeId cls).toList
  | .demoteForCapacity nowMs _ => (s.evictionOwes me nowMs).toList
  | _ => []

end

/-! ### The slot -/

section

variable {Etx : Type} {F : F32 Etx} {s : EdgeRows} {me nowMs : UInt32}

/-- Without the table, an eviction parks what it owes. -/
theorem evictForCapacity_parks {r : EdgeRows × Option DownstreamTable}
    (h : s.evictForCapacity F nowMs me none = some r) :
    r.1.pendingDemotion = (s.evictionOwes me nowMs).or s.pendingDemotion := by
  unfold evictForCapacity at h
  unfold evictionOwes
  cases hi : s.selectEvictionVictim me nowMs with
  | none =>
    rw [hi] at h
    cases h
  | some idx =>
    rw [hi] at h
    dsimp only at h ⊢
    cases hn : s.nodes[idx]? with
    | none =>
      rw [hn] at h
      cases h
    | some n =>
      rw [hn] at h
      dsimp only at h ⊢
      cases hp : s.pickL1Parent n.nodeId me with
      | none =>
        rw [hp] at h
        cases h
        rfl
      | some p =>
        rw [hp] at h
        cases h
        rfl

/-- An eviction that fails owes nothing. -/
theorem evictForCapacity_fails (h : s.evictForCapacity F nowMs me none = none) :
    s.evictionOwes me nowMs = none := by
  unfold evictForCapacity at h
  unfold evictionOwes
  cases hi : s.selectEvictionVictim me nowMs with
  | none => rfl
  | some idx =>
    rw [hi] at h
    dsimp only at h ⊢
    cases hn : s.nodes[idx]? with
    | none => rfl
    | some n =>
      rw [hn] at h
      dsimp only at h ⊢
      cases hp : s.pickL1Parent n.nodeId me with
      | none => rfl
      | some p =>
        rw [hp] at h
        cases h

/-- With the table, an eviction applies what it owes, and takes place only then. -/
theorem evictForCapacity_applies (ds : DownstreamTable) :
    (s.evictionOwes me nowMs = none ∧ s.evictForCapacity F nowMs me (some ds) = none) ∨
      ∃ d idx, s.evictionOwes me nowMs = some d ∧ s.evictForCapacity F nowMs me (some ds) =
        some ((s.applyDemotion F me d nowMs ds).1.removeNodeAt idx,
          some (s.applyDemotion F me d nowMs ds).2) := by
  unfold evictForCapacity evictionOwes
  cases hi : s.selectEvictionVictim me nowMs with
  | none => exact .inl ⟨rfl, rfl⟩
  | some idx =>
    dsimp only
    cases hn : s.nodes[idx]? with
    | none => exact .inl ⟨rfl, rfl⟩
    | some n =>
      dsimp only
      cases hp : s.pickL1Parent n.nodeId me with
      | none => exact .inl ⟨rfl, rfl⟩
      | some p => exact .inr ⟨_, idx, rfl, rfl⟩

theorem findOrCreateNode_parks (a : UInt32) :
    ((s.findOrCreateNode F a nowMs me).getD s).pendingDemotion =
      (s.createOwes me nowMs a).or s.pendingDemotion := by
  unfold findOrCreateNode createOwes
  by_cases hfound : (s.findNode a).isSome = true
  · rw [if_pos hfound, if_pos hfound]
    rfl
  rw [if_neg hfound, if_neg hfound]
  by_cases hroom : s.nodes.length < MAX_GRAPH_NODES
  · rw [if_pos hroom, if_pos hroom]
    rfl
  rw [if_neg hroom, if_neg hroom]
  cases hevict : s.evictForCapacity F nowMs me none with
  | none =>
    rw [evictForCapacity_fails hevict]
    rfl
  | some r => exact evictForCapacity_parks hevict

theorem admitOwner_parks {t : EdgeRows} {a : UInt32} (h : s.admitOwner F a nowMs me = some t) :
    t.pendingDemotion =
      (if a == me || !isPlaceholderNode a then none else s.createOwes me nowMs a).or
        s.pendingDemotion := by
  unfold admitOwner at h
  split at h
  · rename_i hfound
    cases h
    have howes : a ≠ me → s.createOwes me nowMs a = none := by
      intro hne
      have : (s.findNode a).isSome = true := by simpa [hne] using hfound
      unfold createOwes
      rw [if_pos this]
    split
    · rfl
    · rename_i hplace
      rw [howes fun heq => hplace (by simp [heq])]
      rfl
  rename_i hfound
  have hne : (a == me) = false := by
    cases heq : a == me with
    | true => exact absurd (by rw [heq]; rfl) hfound
    | false => rfl
  split at h
  · rename_i hplace
    cases h
    rw [hne, hplace]
    exact findOrCreateNode_parks a
  · rename_i hplace
    have hother : (a == me || !isPlaceholderNode a) = true := by simp [hplace]
    rw [if_pos hother]
    split at h
    · cases h
    · split at h
      · cases h
        rfl
      · cases h

theorem classifyEnds_parks (a b : UInt32) (source : EdgeSource) :
    (s.classifyEnds F me a b nowMs source).pendingDemotion =
      (if a == me then s.createOwes me nowMs b else none).or s.pendingDemotion := by
  unfold classifyEnds
  split
  · dsimp only
    split <;> exact findOrCreateNode_parks b
  · dsimp only
    split <;> rfl

theorem getLast?_toLists {α : Type} (x y z : Option α) :
    (x.toList ++ y.toList ++ z.toList).getLast? = z.or (y.or x) := by
  cases x <;> cases y <;> cases z <;> rfl

/-- The last demotion that an update owes is the one it leaves in the slot. -/
theorem updateEdge_parks (a b : UInt32) (etx : Etx) (source : EdgeSource) (updateTimestamp : Bool)
    (heardOn : UInt8) :
    (s.updateEdge F me a b etx nowMs source updateTimestamp heardOn).1.pendingDemotion =
      (s.updateOwes F me nowMs a b etx).getLast?.or s.pendingDemotion := by
  unfold updateEdge updateOwes
  split
  · rfl
  cases hadmitted : s.admitOwner F a nowMs me with
  | none => rfl
  | some t =>
    have hadmitted := admitOwner_parks hadmitted
    have howner := @findOrCreateNode_parks _ F t me nowMs a
    dsimp only
    rw [getLast?_toLists, Option.or_assoc, Option.or_assoc, ← hadmitted]
    cases hcreate : t.findOrCreateNode F a nowMs me with
    | none =>
      rw [hcreate] at howner
      exact howner
    | some u =>
      rw [hcreate] at howner
      dsimp only [Option.getD_some] at howner ⊢
      rw [← howner, ← classifyEnds_parks a b source]
      split <;> rfl

end

/-! ### What is owed makes sense -/

/-- Neither node 0 is the victim nor the parent, nor are we the victim. -/
structure Proper (me : UInt32) (d : PendingDemotion) : Prop where
  victim : d.victim ≠ 0
  parent : d.parent ≠ 0
  other : d.victim ≠ me

section

variable {Etx : Type} {F : F32 Etx} {s : EdgeRows} {me nowMs : UInt32} {d : PendingDemotion}

theorem reportedTo_nonzero {e : Edge} (h : e ∈ s.reportedTo me) : e.toNode ≠ 0 := by
  unfold reportedTo at h
  split at h
  · cases h
  · have hkept := (List.mem_filter.mp h).2
    simp only [Bool.and_eq_true, bne_iff_ne] at hkept
    exact hkept.1

/-- A parent is the hint, or a neighbour that we reported. -/
theorem pickL1Parent_nonzero {victim : UInt32} {p : UInt32 × UInt16}
    (h : s.pickL1Parent victim me = some p) : p.1 ≠ 0 := by
  unfold pickL1Parent at h
  extract_lets hint at h
  split at h
  · rename_i hdirect
    have hne : hint ≠ 0 := by simpa using (Bool.and_eq_true_iff.mp hdirect).1
    split at h <;> cases h <;> exact hne
  · refine scan_some (P := fun q => q.1 ≠ 0) ?_ (fun q hq => by cases hq) h
    intro best l1 hl1 q hq
    dsimp only at hq
    split at hq
    · exact .inl hq
    · split at hq
      · cases hq
        exact .inr (reportedTo_nonzero hl1)
      · exact .inl hq

theorem evictionOwes_proper (hs : s.Inv) (h : s.evictionOwes me nowMs = some d) : Proper me d := by
  unfold evictionOwes at h
  cases hi : s.selectEvictionVictim me nowMs with
  | none =>
    rw [hi] at h
    cases h
  | some idx =>
    obtain ⟨v, hv, hid, -⟩ := selectEvictionVictim_spec hi
    rw [hi] at h
    dsimp only at h
    rw [hv] at h
    obtain ⟨p, hp, rfl⟩ := Option.map_eq_some_iff.mp h
    exact ⟨(hs.rows v (List.mem_of_getElem? hv)).nonzero, pickL1Parent_nonzero hp, hid⟩

theorem createOwes_proper {a : UInt32} (hs : s.Inv) (h : s.createOwes me nowMs a = some d) :
    Proper me d := by
  unfold createOwes at h
  split at h
  · cases h
  · split at h
    · cases h
    · exact evictionOwes_proper hs h

theorem updateOwes_proper {a b : UInt32} {etx : Etx} (hs : s.Inv)
    (h : d ∈ s.updateOwes F me nowMs a b etx) : Proper me d := by
  unfold updateOwes at h
  split at h
  · cases h
  rename_i hends
  have ha : a ≠ 0 := fun h => hends (by simp [h])
  cases hadmitted : s.admitOwner F a nowMs me with
  | none =>
    rw [hadmitted] at h
    cases h
  | some t =>
    rw [hadmitted] at h
    have ht : t.Inv := (admitOwner_kept ha hadmitted hs).1
    simp only [List.mem_append, Option.mem_toList] at h
    rcases h with (h | h) | h
    · split at h
      · cases h
      · exact createOwes_proper hs h
    · exact createOwes_proper ht h
    · split at h
      · cases h
      · rename_i u hu
        split at h
        · exact createOwes_proper (findOrCreateNode_kept ha hu ht).1 h
        · cases h

theorem owes_proper {op : StoreOp Etx} (hs : s.Inv) (h : d ∈ s.owes F me op) : Proper me d := by
  cases op with
  | ensureLocalNode nowMs => exact createOwes_proper hs (Option.mem_toList.mp h)
  | updateEdge => exact updateOwes_proper hs h
  | updateEdgeFromObservation => exact updateOwes_proper hs h
  | ensurePublisher nodeId cls parentHint nowMs ds =>
    have h := Option.mem_toList.mp h
    unfold publisherOwes at h
    split at h
    · cases h
    · exact createOwes_proper hs h
  | demoteForCapacity => exact evictionOwes_proper hs (Option.mem_toList.mp h)
  | _ => cases h

end

/-! ### Operations with the table -/

section

variable {Etx : Type} {F : F32 Etx} {s t : EdgeRows} {me nowMs : UInt32} {d : PendingDemotion}
  {ds : DownstreamTable}

/-- From `s` and `ds`, the demotions `owed` have been applied, at most one of them, and
nothing else has become of the slot or of the table. -/
def Applied (F : F32 Etx) (me : UInt32) (s : EdgeRows) (ds : DownstreamTable)
    (owed : Option PendingDemotion) (t : EdgeRows) (ds' : DownstreamTable) : Prop :=
  (owed = none → t.pendingDemotion = s.pendingDemotion ∧ ds' = ds) ∧
    ∀ d, owed = some d → t.pendingDemotion = none ∧
      ∃ nowMs, ds' = (s.applyDemotion F me d nowMs ds).2

theorem Applied.none (ht : t.pendingDemotion = s.pendingDemotion) :
    Applied F me s ds none t ds :=
  ⟨fun _ => ⟨ht, rfl⟩, fun _ hd => absurd hd.symm (Option.some_ne_none _)⟩

theorem Applied.some (ht : t.pendingDemotion = Option.none) :
    Applied F me s ds (some d) t (s.applyDemotion F me d nowMs ds).2 := by
  refine ⟨fun hd => absurd hd (Option.some_ne_none d), fun d' hd => ?_⟩
  cases hd
  exact ⟨ht, nowMs, rfl⟩

/-- A slot that is empty, or that is left alone. -/
theorem Applied.slot {owed : Option PendingDemotion} {ds' : DownstreamTable}
    (h : Applied F me s ds owed t ds') (hslot : s.pendingDemotion = Option.none ∨ owed = Option.none) :
    t.pendingDemotion = s.pendingDemotion := by
  cases howed : owed with
  | none => exact (h.1 howed).1
  | some d =>
    rcases hslot with hslot | hslot
    · exact (h.2 d howed).1.trans hslot.symm
    · rw [hslot] at howed
      cases howed

theorem demoteForCapacity_applied (ds : DownstreamTable) :
    Applied F me s ds (s.evictionOwes me nowMs) (s.demoteForCapacity F nowMs me ds).1
      (s.demoteForCapacity F nowMs me ds).2.1 := by
  unfold demoteForCapacity
  rcases @evictForCapacity_applies _ F s me nowMs ds with ⟨howes, hevict⟩ | ⟨d, idx, howes, hevict⟩
  · rw [howes, hevict]
    exact .none rfl
  · rw [howes, hevict]
    exact .some rfl

theorem ensurePublisher_applied (nodeId : UInt32) (cls : NodeClass) (parentHint : UInt32)
    (ds : DownstreamTable) :
    Applied F me s ds (s.publisherOwes me nowMs nodeId cls)
      (s.ensurePublisher F nodeId cls parentHint nowMs me ds).1
      (s.ensurePublisher F nodeId cls parentHint nowMs me ds).2.1 := by
  unfold ensurePublisher publisherOwes createOwes
  by_cases hids : (nodeId == 0 || nodeId == me) = true
  · rw [if_pos hids, hids]
    exact .none rfl
  rw [if_neg hids, (Bool.not_eq_true _).mp hids, Bool.false_or]
  by_cases hdepth : (!classWithinDepth cls) = true
  · rw [if_pos hdepth, if_pos hdepth]
    exact .none rfl
  rw [if_neg hdepth, if_neg hdepth]
  by_cases hfound : (s.findNode nodeId).isSome = true
  · rw [if_pos hfound, if_pos hfound]
    exact .none rfl
  rw [if_neg hfound, if_neg hfound]
  by_cases hroom : s.nodes.length < MAX_GRAPH_NODES
  · rw [if_pos hroom, if_pos hroom]
    exact .none rfl
  rw [if_neg hroom, if_neg hroom]
  rcases @evictForCapacity_applies _ F s me nowMs ds with ⟨howes, hevict⟩ | ⟨d, idx, howes, hevict⟩
  · rw [howes, hevict]
    exact .none rfl
  · rw [howes, hevict]
    exact .some rfl

theorem removeNode_slot (a : UInt32) : (s.removeNode a).1.pendingDemotion = s.pendingDemotion := by
  unfold removeNode
  split
  · rfl
  · dsimp only
    split <;> rfl

/-- An empty slot stays empty. -/
theorem dropVictims_none (victims : List UInt32) :
    ∀ st : EdgeRows × DownstreamTable × Bool, st.1.pendingDemotion = none →
      (victims.foldl (dropVictim F me nowMs) st).1.pendingDemotion = none := by
  induction victims with
  | nil => exact fun st hst => hst
  | cons v victims ih =>
    intro st hst
    rw [List.foldl_cons]
    refine ih _ ?_
    unfold dropVictim
    cases st.1.pickL1Parent v me with
    | none => exact (removeNode_slot v).trans hst
    | some p => exact removeNode_slot v

/-- Where no victim has a parent, the nodes just go. -/
theorem dropVictims_plain (victims : List UInt32) :
    ∀ (s : EdgeRows) (ds : DownstreamTable) (changed : Bool), s.anyDemoted me victims = false →
      let st := victims.foldl (dropVictim F me nowMs) (s, ds, changed)
      (st.1, st.2.2) = victims.foldl
        (fun (st : EdgeRows × Bool) victim =>
          let (s, removed) := st.1.removeNode victim
          (s, removed || st.2)) (s, changed) := by
  induction victims with
  | nil => exact fun _ _ _ _ => rfl
  | cons v victims ih =>
    intro s ds changed h
    rw [anyDemoted, Bool.or_eq_false_iff] at h
    have hpick : s.pickL1Parent v me = none := Option.isSome_eq_false_iff.mp h.1 |> Option.isNone_iff_eq_none.mp
    dsimp only
    rw [List.foldl_cons, List.foldl_cons]
    have hturn : dropVictim F me nowMs (s, ds, changed) v =
        ((s.removeNode v).1, (ds.clearForRelay v).clearForDestination v,
          (s.removeNode v).2 || changed) := by
      unfold dropVictim
      rw [hpick]
    rw [hturn]
    exact ih _ _ _ h.2

theorem removeNodes_slot (victims : List UInt32) (st : EdgeRows × Bool) :
    (victims.foldl
      (fun (st : EdgeRows × Bool) victim =>
        let (s, removed) := st.1.removeNode victim
        (s, removed || st.2)) st).1.pendingDemotion = st.1.pendingDemotion := by
  induction victims generalizing st with
  | nil => rfl
  | cons v victims ih =>
    rw [List.foldl_cons, ih]
    exact removeNode_slot v

theorem pruneUnreachableFromRoot_slot (ds : DownstreamTable)
    (h : s.pendingDemotion = none ∨ s.pruneDemotes me = false) :
    (s.pruneUnreachableFromRoot F me nowMs ds).1.pendingDemotion = s.pendingDemotion := by
  unfold pruneUnreachableFromRoot
  split
  · rfl
  rename_i hroot
  dsimp only
  rcases h with h | h
  · rw [h]
    exact dropVictims_none _ _ h
  · unfold pruneDemotes at h
    rw [Bool.not_eq_true, Option.isNone_eq_false_iff] at hroot
    rw [hroot, Bool.true_and] at h
    have hplain := @dropVictims_plain _ F me nowMs _ s ds false h
    dsimp only at hplain
    rw [show _ = _ from congrArg Prod.fst hplain]
    exact removeNodes_slot _ _

theorem ageEdges_slot (ttlMs : UInt32) (ds : DownstreamTable)
    (h : s.pendingDemotion = none ∨ s.ageDemotes F me nowMs ttlMs = false) :
    (s.ageEdges F me nowMs ttlMs (some ds)).1.pendingDemotion = s.pendingDemotion := by
  have hold : (s.dropOldEdges nowMs ttlMs).1.pendingDemotion = s.pendingDemotion := rfl
  unfold ageDemotes at h
  unfold ageEdges at h ⊢
  generalize s.dropOldEdges nowMs ttlMs = old at h hold ⊢
  obtain ⟨t, changed⟩ := old
  dsimp only at h hold ⊢
  generalize (t.nodes.filter (t.ages me nowMs ttlMs)).map (·.nodeId) = victims at h ⊢
  rcases h with h | h
  · have hdrop := @dropVictims_none _ F me nowMs victims (t, ds, changed) (hold.trans h)
    split
    · exact (pruneUnreachableFromRoot_slot _ (.inl hdrop)).trans (hdrop.trans h.symm)
    · exact hdrop.trans h.symm
  · rw [Bool.or_eq_false_iff] at h
    have hplain := @dropVictims_plain _ F me nowMs victims t ds changed h.1
    have hslot := removeNodes_slot victims (t, changed)
    dsimp only at hplain hslot
    rw [← hplain] at h hslot
    dsimp only at h hslot
    split
    · rename_i hchanged
      rw [hchanged, Bool.true_and] at h
      exact (pruneUnreachableFromRoot_slot _ (.inr h.2)).trans (hslot.trans hold)
    · exact hslot.trans hold

theorem removeEdge_slot (a b : UInt32) : (s.removeEdge a b).1.pendingDemotion = s.pendingDemotion := by
  unfold removeEdge
  split <;> rfl

theorem removeEdgeAndPrune_slot (a b : UInt32) (ds : DownstreamTable)
    (h : s.pendingDemotion = none ∨
      ((s.removeEdge a b).2 && (s.removeEdge a b).1.pruneDemotes me) = false) :
    (s.removeEdgeAndPrune F a b me nowMs ds).1.pendingDemotion = s.pendingDemotion := by
  have hremove := @removeEdge_slot s a b
  unfold removeEdgeAndPrune
  generalize s.removeEdge a b = r at h hremove
  obtain ⟨t, removed⟩ := r
  dsimp only at h hremove
  cases removed with
  | false => rfl
  | true =>
    rw [Bool.true_and, ← hremove] at h
    exact (pruneUnreachableFromRoot_slot ds h).trans hremove

end

end EdgeRows

/-! ## The store and the table together -/

/-- The store and the downstream table of the neighbour graph, with the demotions
that are owed, and those that a flush has passed over. -/
structure Horizon where
  store : EdgeRows
  downstream : DownstreamTable
  owed : List PendingDemotion
  lost : List PendingDemotion

/-- An operation of the store, on the table at hand, or whatever the neighbour graph
does to the table otherwise. -/
inductive HorizonOp (Etx : Type) where
  | store (op : EdgeRows.StoreOp Etx)
  | downstream (ds : DownstreamTable)

namespace EdgeRows.StoreOp

variable {Etx : Type}

/-- The operation, on the table at hand. -/
def withTable (ds : DownstreamTable) : StoreOp Etx → StoreOp Etx
  | .ensurePublisher nodeId cls parentHint nowMs _ => .ensurePublisher nodeId cls parentHint nowMs ds
  | .flushPendingDemotion nowMs _ => .flushPendingDemotion nowMs ds
  | .demoteForCapacity nowMs _ => .demoteForCapacity nowMs ds
  | .pruneUnreachableFromRoot nowMs _ => .pruneUnreachableFromRoot nowMs ds
  | .removeEdgeAndPrune a b nowMs _ => .removeEdgeAndPrune a b nowMs ds
  | .ageEdges nowMs ttlMs (some _) => .ageEdges nowMs ttlMs (some ds)
  | op => op

/-- `flush_pending_demotion` -/
def flushes : StoreOp Etx → Bool
  | .flushPendingDemotion _ _ => true
  | _ => false

/-- The operations that evict with the table at hand. -/
def evictsWithTable : StoreOp Etx → Bool
  | .ensurePublisher _ _ _ _ _ => true
  | .demoteForCapacity _ _ => true
  | _ => false

end EdgeRows.StoreOp

namespace Horizon

open EdgeRows (StoreOp)

section

variable {Etx : Type} (F : F32 Etx) (me : UInt32) (h : Horizon)

/-- What the operation makes of the table. -/
def tableAfter (s : EdgeRows) (ds : DownstreamTable) : StoreOp Etx → DownstreamTable
  | .ensurePublisher nodeId cls parentHint nowMs _ =>
    (s.ensurePublisher F nodeId cls parentHint nowMs me ds).2.1
  | .flushPendingDemotion nowMs _ => (s.flushPendingDemotion F me nowMs ds).2
  | .demoteForCapacity nowMs _ => (s.demoteForCapacity F nowMs me ds).2.1
  | .pruneUnreachableFromRoot nowMs _ => (s.pruneUnreachableFromRoot F me nowMs ds).2.1
  | .removeEdgeAndPrune a b nowMs _ => (s.removeEdgeAndPrune F a b me nowMs ds).2.1
  | .ageEdges nowMs ttlMs (some _) => ((s.ageEdges F me nowMs ttlMs (some ds)).2.1).getD ds
  | _ => ds

/-- The demotions that have to be in the table after the step: a flush is the last
chance for all that are owed, an eviction with the table for its own. -/
def due (op : StoreOp Etx) : List PendingDemotion :=
  if op.flushes then h.owed else if op.evictsWithTable then h.store.owes F me op else []

def owedAfter (op : StoreOp Etx) : List PendingDemotion :=
  if op.flushes then [] else if op.evictsWithTable then h.owed else h.owed ++ h.store.owes F me op

def next : HorizonOp Etx → Horizon
  | .downstream ds => { h with downstream := ds }
  | .store op =>
    let ds := tableAfter F me h.store h.downstream op
    { store := h.store.apply F me (op.withTable h.downstream)
      downstream := ds
      owed := h.owedAfter F me op
      lost := h.lost ++ (h.due F me op).filter fun d => ¬ HandedOver d h.downstream ds }

end

/-- mirrors crates/mesh-routing/src/graph/edge.rs:191-214 -/
def new : Horizon := ⟨.new, ⟨.empty⟩, [], []⟩

/-- The store and the table under any sequence of operations. -/
def horizon {Etx : Type} (F : F32 Etx) (me : UInt32) : LTS Horizon (HorizonOp Etx) where
  init h := h = new
  step h op t := t = h.next F me op

/-! ## Steps that lose nothing -/

section

variable {Etx : Type} (F : F32 Etx) (me : UInt32)

/-- The operation clears the slot, or writes over what it holds. -/
def touchesSlot (s : EdgeRows) : StoreOp Etx → Bool
  | .clear => true
  | .takePendingDemotion => true
  | .pruneUnreachableFromRoot _ _ => s.pruneDemotes me
  | .removeEdgeAndPrune a b _ _ => (s.removeEdge a b).2 && (s.removeEdge a b).1.pruneDemotes me
  | .ageEdges nowMs ttlMs (some _) => s.ageDemotes F me nowMs ttlMs
  | op => !(s.owes F me op).isEmpty

/-- The demotions that the operation applies: the parked one, or its own. -/
def applied (s : EdgeRows) (op : StoreOp Etx) : List PendingDemotion :=
  if op.flushes then s.pendingDemotion.toList
  else if op.evictsWithTable then s.owes F me op else []

/-- The demotion can be carried out: its parent is another node, its price is
positive, and its rows fit. -/
structure Deliverable (ds : DownstreamTable) (d : PendingDemotion) : Prop where
  parent : d.parent ≠ d.victim
  price : F.positive (F.ofFixed d.costFixed) = true
  fits : Fits d ds

instance (ds : DownstreamTable) (d : PendingDemotion) : Decidable (Deliverable F ds d) :=
  decidable_of_iff (d.parent ≠ d.victim ∧ F.positive (F.ofFixed d.costFixed) = true ∧ Fits d ds)
    ⟨fun h => ⟨h.1, h.2.1, h.2.2⟩, fun h => ⟨h.parent, h.price, h.fits⟩⟩

/-- The operation leaves the slot alone while it is taken, parks no two demotions at
once, and those that it applies can be carried out. -/
def Careful (h : Horizon) : HorizonOp Etx → Prop
  | .downstream _ => True
  | .store op =>
    (h.store.pendingDemotion.isSome → touchesSlot F me h.store op = false) ∧
      (h.store.owes F me op).length ≤ 1 ∧
      ∀ d ∈ applied F me h.store op, Deliverable F h.downstream d

instance (h : Horizon) : (op : HorizonOp Etx) → Decidable (Careful F me h op)
  | .downstream _ => isTrue trivial
  | .store _ => inferInstanceAs (Decidable (_ ∧ _ ∧ _))

end

/-! ## The invariant -/

section

variable {Etx : Type} {F : F32 Etx} {me : UInt32} {s : EdgeRows} {op : StoreOp Etx}

/-- The writes that neither evict nor demote leave the slot as it is. -/
theorem updateNodeActivity_slot (nodeId nowMs : UInt32) :
    (s.updateNodeActivity nodeId nowMs me).1.pendingDemotion = s.pendingDemotion := by
  unfold EdgeRows.updateNodeActivity
  split <;> rfl

theorem retainListedEdges_slot (sender : UInt32) (listed : List UInt32) :
    (s.retainListedEdges sender listed).1.pendingDemotion = s.pendingDemotion := by
  unfold EdgeRows.retainListedEdges
  split <;> rfl

theorem ensureLocalNode_slot (nowMs : UInt32) :
    (s.ensureLocalNode F me nowMs).pendingDemotion =
      (s.createOwes me nowMs me).or s.pendingDemotion := by
  unfold EdgeRows.ensureLocalNode
  split
  · exact EdgeRows.findOrCreateNode_parks me
  · rename_i hfound
    have hsome : (s.findNode me).isSome = true := by
      simpa [Option.isSome_iff_ne_none] using hfound
    unfold EdgeRows.createOwes
    rw [if_pos hsome]
    rfl

theorem isEmpty_owed {owed : Option PendingDemotion} (h : (!owed.toList.isEmpty) = false) :
    owed = none := by
  cases owed with
  | none => rfl
  | some d => cases h

/-- What has no table writes to the slot what it owes. -/
theorem apply_parks (ds : DownstreamTable) (hflush : op.flushes = false)
    (h : s.pendingDemotion = none ∨ touchesSlot F me s op = false) :
    (s.apply F me (op.withTable ds)).pendingDemotion =
      (if op.evictsWithTable then none else (s.owes F me op).getLast?).or s.pendingDemotion := by
  cases op with
  | clear =>
    rcases h with h | h
    · exact h.symm
    · cases h
  | takePendingDemotion =>
    rcases h with h | h
    · exact h.symm
    · cases h
  | flushPendingDemotion => cases hflush
  | ensureLocalNode nowMs =>
    have hlast : (s.createOwes me nowMs me).toList.getLast? = s.createOwes me nowMs me := by
      cases s.createOwes me nowMs me <;> rfl
    exact (ensureLocalNode_slot nowMs).trans (congrArg (·.or s.pendingDemotion) hlast.symm)
  | updateEdge => exact EdgeRows.updateEdge_parks ..
  | updateEdgeFromObservation => exact EdgeRows.updateEdge_parks ..
  | updateNodeActivity nodeId nowMs => exact updateNodeActivity_slot nodeId nowMs
  | retainListedEdges sender listed => exact retainListedEdges_slot sender listed
  | removeEdge a b => exact EdgeRows.removeEdge_slot a b
  | removeNode nodeId => exact EdgeRows.removeNode_slot nodeId
  | ensurePublisher nodeId cls parentHint nowMs ds' =>
    exact (EdgeRows.ensurePublisher_applied nodeId cls parentHint ds).slot (h.imp_right isEmpty_owed)
  | demoteForCapacity nowMs ds' =>
    exact (EdgeRows.demoteForCapacity_applied ds).slot (h.imp_right isEmpty_owed)
  | pruneUnreachableFromRoot nowMs ds' => exact EdgeRows.pruneUnreachableFromRoot_slot ds h
  | removeEdgeAndPrune a b nowMs ds' => exact EdgeRows.removeEdgeAndPrune_slot a b ds h
  | ageEdges nowMs ttlMs downstream =>
    cases downstream with
    | some ds' => exact EdgeRows.ageEdges_slot ttlMs ds h
    | none => exact EdgeRows.removeNodes_slot _ _
  | _ => rfl

/-- What leaves the slot alone owes nothing. -/
theorem owes_of_untouched (h : touchesSlot F me s op = false) : s.owes F me op = [] := by
  cases op with
  | ensureLocalNode => simpa [touchesSlot] using h
  | updateEdge => simpa [touchesSlot] using h
  | updateEdgeFromObservation => simpa [touchesSlot] using h
  | ensurePublisher => simpa [touchesSlot] using h
  | demoteForCapacity => simpa [touchesSlot] using h
  | _ => rfl

theorem flush_slot (nowMs : UInt32) (ds : DownstreamTable) :
    (s.flushPendingDemotion F me nowMs ds).1.pendingDemotion = none := by
  unfold EdgeRows.flushPendingDemotion
  split
  · assumption
  · rfl

/-- Every owed demotion is the one in the slot, and none has been lost. -/
structure Sound (me : UInt32) (h : Horizon) : Prop where
  inv : h.store.Inv
  owed : h.owed = h.store.pendingDemotion.toList
  proper : ∀ d ∈ h.owed, EdgeRows.Proper me d
  lost : h.lost = []

variable {h : Horizon}

/-- A demotion that is applied is handed over. -/
theorem applied_handedOver {d : PendingDemotion} {nowMs : UInt32} {ds : DownstreamTable}
    (hproper : EdgeRows.Proper me d) (hdeliverable : Deliverable F ds d) :
    HandedOver d ds (s.applyDemotion F me d nowMs ds).2 :=
  applyDemotion_handsOver hproper.victim hproper.parent hproper.other hdeliverable.parent
    hdeliverable.price hdeliverable.fits

/-- What a careful step has to deliver, it delivers. -/
theorem due_handedOver (hs : Sound me h) (hcareful : Careful F me h (.store op)) :
    ∀ d ∈ h.due F me op, HandedOver d h.downstream (tableAfter F me h.store h.downstream op) := by
  obtain ⟨-, -, hdeliverable⟩ := hcareful
  intro d hd
  cases op with
  | flushPendingDemotion nowMs ds =>
    have hmem : d ∈ h.store.pendingDemotion.toList := hs.owed ▸ hd
    have hslot : h.store.pendingDemotion = some d := Option.mem_toList.mp hmem
    have htable : tableAfter F me h.store h.downstream (.flushPendingDemotion nowMs ds) =
        (h.store.applyDemotion F me d nowMs h.downstream).2 := by
      unfold tableAfter EdgeRows.flushPendingDemotion
      dsimp only
      rw [hslot]
    rw [htable]
    exact applied_handedOver (hs.proper d hd) (hdeliverable d hmem)
  | ensurePublisher nodeId cls parentHint nowMs ds =>
    have hmem : d ∈ h.store.owes F me (.ensurePublisher nodeId cls parentHint nowMs ds) := hd
    have hproper := EdgeRows.owes_proper hs.inv hmem
    obtain ⟨-, nowMs', htable⟩ := (@EdgeRows.ensurePublisher_applied _ F h.store me nowMs nodeId cls
      parentHint h.downstream).2 d (Option.mem_toList.mp hd)
    change HandedOver d _ (EdgeRows.ensurePublisher ..).2.1
    rw [htable]
    exact applied_handedOver hproper (hdeliverable d hd)
  | demoteForCapacity nowMs ds =>
    have hmem : d ∈ h.store.owes F me (.demoteForCapacity nowMs ds) := hd
    have hproper := EdgeRows.owes_proper hs.inv hmem
    obtain ⟨-, nowMs', htable⟩ := (@EdgeRows.demoteForCapacity_applied _ F h.store me nowMs
      h.downstream).2 d (Option.mem_toList.mp hd)
    change HandedOver d _ (EdgeRows.demoteForCapacity ..).2.1
    rw [htable]
    exact applied_handedOver hproper (hdeliverable d hd)
  | _ => cases hd

/-- A careful step keeps the debts and the slot together. -/
theorem owedAfter_slot (hs : Sound me h) (hcareful : Careful F me h (.store op)) :
    h.owedAfter F me op =
      (h.store.apply F me (op.withTable h.downstream)).pendingDemotion.toList := by
  obtain ⟨huntouched, hone, -⟩ := hcareful
  cases hflush : op.flushes with
  | true =>
    unfold owedAfter
    rw [if_pos hflush]
    cases op with
    | flushPendingDemotion nowMs ds =>
      exact (congrArg Option.toList (@flush_slot _ F me h.store nowMs h.downstream)).symm
    | _ => cases hflush
  | false =>
    have hfree : h.store.pendingDemotion = none ∨ touchesSlot F me h.store op = false := by
      cases hslot : h.store.pendingDemotion with
      | none => exact .inl rfl
      | some d => exact .inr (huntouched (by rw [hslot]; rfl))
    rw [apply_parks h.downstream hflush hfree]
    unfold owedAfter
    rw [hflush, if_neg Bool.false_ne_true]
    split
    · exact hs.owed
    · rcases hfree with hempty | huntouched
      · rw [hs.owed, hempty, Option.or_none]
        generalize h.store.owes F me op = owes at hone
        cases owes with
        | nil => rfl
        | cons d rest =>
          have hrest : rest = [] := List.length_eq_zero_iff.mp (by rw [List.length_cons] at hone; omega)
          rw [hrest]
          rfl
      · rw [owes_of_untouched huntouched, List.append_nil]
        exact hs.owed

theorem next_sound (hme : me ≠ 0) {op : HorizonOp Etx} (hs : Sound me h)
    (hcareful : Careful F me h op) : Sound me (h.next F me op) := by
  cases op with
  | downstream ds => exact ⟨hs.inv, hs.owed, hs.proper, hs.lost⟩
  | store op =>
    refine ⟨EdgeRows.apply_inv hme _ hs.inv, owedAfter_slot hs hcareful, fun d hd => ?_, ?_⟩
    · change d ∈ h.owedAfter F me op at hd
      unfold owedAfter at hd
      split at hd
      · cases hd
      · split at hd
        · exact hs.proper d hd
        · exact (List.mem_append.mp hd).elim (hs.proper d) (EdgeRows.owes_proper hs.inv)
    · change h.lost ++ _ = []
      rw [hs.lost, List.nil_append, List.filter_eq_nil_iff]
      intro d hd
      simpa using due_handedOver hs hcareful d hd

/-- In every run that leaves the slot alone while it is taken, no demotion is lost: by
the next flush the table says that the parent serves the victim, and all that the victim
served. -/
theorem parked_demotion_delivered (hme : me ≠ 0)
    (hrun : ((horizon F me).restrict (Careful F me)).Reachable h) : h.lost = [] := by
  have hsound : ((horizon F me).restrict (Careful F me)).Inductive (Sound me) := by
    refine ⟨fun h hnew => ?_, fun h op t hs hstep => ?_⟩
    · rw [show h = new from hnew]
      exact ⟨EdgeRows.inv_new, rfl, fun d hd => absurd hd List.not_mem_nil, rfl⟩
    · obtain ⟨hcareful, hnext⟩ := hstep
      rw [show t = h.next F me op from hnext]
      exact next_sound hme hs hcareful
  exact (hsound.reachable hrun).lost

end

/-! ## A full store -/

/-- We are node 1, with 29 neighbours that we hear, and two publishers behind the first
of them; every other column of the store is taken. -/
def fullStore : List (HorizonOp UInt16) :=
  [.store (.ensureLocalNode 0)] ++
    ((List.range 29).map fun i =>
      .store (.updateEdge 1 (UInt32.ofNat (2 + i)) 100 0 .reported true 0)) ++
    [.store (.ensurePublisher 50 .l2 2 0 ⟨.empty⟩), .store (.ensurePublisher 51 .l2 2 0 ⟨.empty⟩)]

/-- A new neighbour is heard. -/
def heard (nodeId : UInt32) : HorizonOp UInt16 := .store (.updateEdge 1 nodeId 100 5 .reported true 0)

def flush : HorizonOp UInt16 := .store (.flushPendingDemotion 6 ⟨.empty⟩)

def after (ops : List (HorizonOp UInt16)) : Horizon := ops.foldl (fun h op => h.next hundredths 1 op) new

/-- One new neighbour costs a publisher its place, and the flush tells where it went. -/
theorem one_eviction_delivered :
    (50, 2) ∈ (after (fullStore ++ [heard 60, flush])).downstream.keys ∧
      (after (fullStore ++ [heard 60, flush])).lost = [] := by
  have hcareful : LTS.Along (fun h op => h.next hundredths 1 op) (Careful hundredths 1) new
      (fullStore ++ [heard 60, flush]) := by decide +kernel
  have hstep : ∀ h op, Careful hundredths 1 h op →
      ((horizon hundredths 1).restrict (Careful hundredths 1)).step h op (h.next hundredths 1 op) :=
    fun h op hop => ⟨hop, rfl⟩
  exact ⟨by decide +kernel,
    parked_demotion_delivered (by decide) ⟨new, _, rfl, LTS.run_foldl hstep hcareful⟩⟩

/-- Two new neighbours before the flush cost two publishers theirs; the demotion of the
second is written over that of the first, which no row mentions any more. -/
theorem second_eviction_loses_first :
    let h := after (fullStore ++ [heard 60, heard 61, flush])
    (horizon hundredths 1).Reachable h ∧ h.lost.map (fun d => (d.victim, d.parent)) = [(50, 2)] ∧
      h.owed.length = 0 ∧ ∀ k ∈ h.downstream.keys, k.1 ≠ 50 := by
  have hall : LTS.Along (fun h op => h.next hundredths 1 op) (fun _ _ => True) new
      (fullStore ++ [heard 60, heard 61, flush]) := by decide +kernel
  have hlost : let h := after (fullStore ++ [heard 60, heard 61, flush])
      h.lost.map (fun d => (d.victim, d.parent)) = [(50, 2)] ∧ h.owed.length = 0 ∧
        (h.downstream.keys.all fun k => k.1 != 50) = true := by decide +kernel
  refine ⟨⟨new, _, rfl, LTS.run_foldl (fun _ _ _ => rfl) hall⟩, hlost.1, hlost.2.1, fun k hk => ?_⟩
  simpa using List.all_eq_true.mp hlost.2.2 k hk

end Horizon

end Meshrustic.Topology
