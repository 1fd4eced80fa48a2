import Meshrustic.Topology.Merge

/-!
# Refused lists

A list that is refused, for its version or for its format, moves nothing: the
edges, the downstream rows, the cached routes and every tracked version stay.

Delayed copies of a sender's earlier lists are refused as long as none of them
is newer than the one refused just before it. A copy that is newer climbs, and
climbing versions are how a receiver tells a restarted sender whose boot
broadcast it missed.
-/
namespace Meshrustic.Topology

open Meshrustic.Graph

/-- Nothing a route is calculated from has changed. -/
structure Unmoved (g g' : NeighborGraph) : Prop where
  edges : g'.edges = g.edges
  downstream : g'.downstream = g.downstream
  routeCache : g'.routeCache = g.routeCache
  versions : ∀ n, g'.topoVersions.topoVersionEntry n = g.topoVersions.topoVersionEntry n

theorem Unmoved.refl (g : NeighborGraph) : Unmoved g g := ⟨rfl, rfl, rfl, fun _ => rfl⟩

theorem Unmoved.trans {g g' g'' : NeighborGraph} (h : Unmoved g g') (h' : Unmoved g' g'') :
    Unmoved g g'' :=
  ⟨h'.edges.trans h.edges, h'.downstream.trans h.downstream, h'.routeCache.trans h.routeCache,
    fun n => (h'.versions n).trans (h.versions n)⟩

section

variable {Etx : Type} (F : F32 Etx)

/-- One call after the other, with the answers. -/
def mergeAll (g : NeighborGraph) : List Call → NeighborGraph × List TopologyMergeResult
  | [] => (g, [])
  | c :: cs =>
    let (g, r) := g.mergeTopology F c
    let (g, rs) := mergeAll g cs
    (g, r :: rs)

theorem refused_unmoved {g : NeighborGraph} {c : Call} (h : (g.mergeTopology F c).2.refused = true) :
    Unmoved g (g.mergeTopology F c).1 := by
  unfold NeighborGraph.mergeTopology at h ⊢
  dsimp only at h ⊢
  split at h
  · rw [if_pos (by assumption)]
    exact .refl g
  · rename_i hformat
    rw [if_neg hformat]
    split at h
    · rw [if_pos (by assumption)]
      exact ⟨rfl, rfl, rfl, fun _ => rfl⟩
    · rename_i hrole
      rw [if_neg hrole]
      split at h
      · rw [if_pos (by assumption)]
        exact ⟨rfl, rfl, rfl, fun n => VersionTable.entry_noteTopoVersionStale n⟩
      · split at h <;> cases h

/-! ## Delayed copies -/

/-- `c` is a relayed copy of a list that `sender` made at most
`TOPOLOGY_DELAYED_BEHIND_MAX` versions before `v`, which was accepted at `t`,
less than `TOPOLOGY_RESYNC_MS` ago; and it is no boot broadcast. -/
structure Delayed (sender : UInt32) (v : UInt8) (t : UInt32) (c : Call) : Prop where
  sender : c.sender = sender
  format : NeighborGraph.formatOk c = true
  relayed : c.isDirect = false
  behind : DelayedBehind c.received v
  recent : c.nowMs - t < TOPOLOGY_RESYNC_MS
  list : c.bootReset = false

/-- None of the versions climbs above the one refused before it. -/
def NeverClimbs : Option UInt8 → List UInt8 → Prop
  | _, [] => True
  | note, v :: vs =>
    (∀ n, note = some n → topologyVersionClimbing v n = false) ∧ NeverClimbs (some v) vs

/-- A delayed copy is refused. -/
theorem delayed_not_accepted {g : NeighborGraph} {sender : UInt32} {v : UInt8} {t : UInt32}
    {c : Call} (hentry : g.topoVersions.topoVersionEntry sender = (v, t)) (hv : v ≠ 0) (ht : t ≠ 0)
    (hc : Delayed sender v t c)
    (hnote : ∀ n, g.topoVersions.staleNote sender = some n →
      topologyVersionClimbing c.received n = false) :
    g.versionAccepted c = false := by
  have hwindow : g.inWindow c = false := by
    unfold NeighborGraph.inWindow
    rw [hc.sender, hentry]
    dsimp only
    rw [behind_not_accepted hc.behind hv, Bool.or_false]
    simpa using ht
  have hsilence : g.silence c = false := by
    unfold NeighborGraph.silence
    rw [hc.sender, hentry]
    have : ¬ TOPOLOGY_RESYNC_MS ≤ c.nowMs - t := UInt32.not_le.mpr hc.recent
    dsimp only
    rw [decide_eq_false this, Bool.and_false, Bool.false_and]
  have hclimb : g.topoVersions.topoVersionClimbsAfterStale c.sender c.received = false := by
    rw [Bool.eq_false_iff, Ne, VersionTable.climbs_iff]
    rintro ⟨n, hn, hclimb⟩
    rw [hc.sender] at hn
    rw [hnote n hn] at hclimb
    cases hclimb
  unfold NeighborGraph.versionAccepted
  rw [hwindow, hsilence, hclimb, hc.list, hc.relayed, hc.sender, hentry]
  dsimp only
  rw [behind_not_far hc.behind]
  rfl

/-- What refusing a delayed copy does: the version is noted. -/
theorem mergeTopology_refused {g : NeighborGraph} {c : Call} (hformat : NeighborGraph.formatOk c = true)
    (hactive : g.isActiveRoutingRole = true) (h : g.versionAccepted c = false) :
    g.mergeTopology F c =
      ({ g with topoVersions := g.topoVersions.noteTopoVersionStale c.sender c.received },
        .stale c.received (g.topoVersions.topoVersionEntry c.sender).1) := by
  unfold NeighborGraph.mergeTopology
  rw [hformat, hactive, h]
  rfl

theorem find_of_entry {t : VersionTable} {sender : UInt32} {v : UInt8} {ms : UInt32}
    (h : t.topoVersionEntry sender = (v, ms)) (hms : ms ≠ 0) : (t.find sender).isSome := by
  unfold VersionTable.topoVersionEntry at h
  cases hf : t.find sender with
  | none =>
    rw [hf] at h
    exact absurd (Prod.mk.inj h).2.symm hms
  | some e => rfl

/-- Any number of delayed copies, none of which climbs. -/
theorem mergeAll_delayed {sender : UInt32} {v : UInt8} {t : UInt32} (hv : v ≠ 0) (ht : t ≠ 0)
    {cs : List Call} {g : NeighborGraph} (hactive : g.isActiveRoutingRole = true)
    (hentry : g.topoVersions.topoVersionEntry sender = (v, t))
    (hcs : ∀ c ∈ cs, Delayed sender v t c)
    (horder : NeverClimbs (g.topoVersions.staleNote sender) (cs.map Call.received)) :
    (mergeAll F g cs).2 = cs.map (fun c => .stale c.received v) ∧
      Unmoved g (mergeAll F g cs).1 ∧ (mergeAll F g cs).1.capability = g.capability := by
  induction cs generalizing g with
  | nil => exact ⟨rfl, .refl g, rfl⟩
  | cons c cs ih =>
    have hc := hcs c List.mem_cons_self
    have hrefused := mergeTopology_refused F hc.format hactive
      (delayed_not_accepted hentry hv ht hc horder.1)
    rw [hc.sender, hentry] at hrefused
    -- the copy leaves its version as the note, and the tracked one as it was
    have hnext := ih (g := { g with
        topoVersions := g.topoVersions.noteTopoVersionStale sender c.received })
      hactive ((VersionTable.entry_noteTopoVersionStale sender).trans hentry)
      (fun c hc => hcs c (List.mem_cons_of_mem _ hc))
      (by
        show NeverClimbs ((g.topoVersions.noteTopoVersionStale sender c.received).staleNote sender) _
        rw [VersionTable.staleNote_noteTopoVersionStale (find_of_entry hentry ht)]
        exact horder.2)
    unfold mergeAll
    rw [hrefused]
    dsimp only
    have hnoted : Unmoved g { g with
        topoVersions := g.topoVersions.noteTopoVersionStale sender c.received } :=
      ⟨rfl, rfl, rfl, fun n => VersionTable.entry_noteTopoVersionStale n⟩
    refine ⟨?_, hnoted.trans hnext.2.1, hnext.2.2⟩
    rw [hnext.1, List.map_cons]

/-- A refused list moves nothing. Copies of a sender's earlier lists that come
late, through relays, to a receiver that tracks a newer version are all
refused, in any order in which none climbs above the one refused before it,
and move neither the graph nor what is known of the sender. -/
theorem delayed_lists_move_nothing :
    (∀ (g : NeighborGraph) (c : Call), (g.mergeTopology F c).2.refused = true →
      Unmoved g (g.mergeTopology F c).1) ∧
    ∀ (g : NeighborGraph) (sender : UInt32) (v : UInt8) (t : UInt32) (cs : List Call),
      g.isActiveRoutingRole = true → g.topoVersions.topoVersionEntry sender = (v, t) → v ≠ 0 →
      t ≠ 0 → (∀ c ∈ cs, Delayed sender v t c) →
      NeverClimbs (g.topoVersions.staleNote sender) (cs.map Call.received) →
      (mergeAll F g cs).2 = cs.map (fun c => .stale c.received v) ∧
        Unmoved g (mergeAll F g cs).1 ∧ (mergeAll F g cs).1.capability = g.capability := by
  refine ⟨?_, ?_⟩
  · intro g c h
    exact refused_unmoved F h
  · intro g sender v t cs hactive hentry hv ht hcs horder
    exact mergeAll_delayed F hv ht hactive hentry hcs horder

end

/-! ## A receiver of one sender -/

/-- A complete list that names nobody, from node 2. -/
def headerOnly (version : UInt8) (isDirect : Bool) (nowMs : UInt32) : Call where
  sender := 2
  header := chunkHeader version true false false 0
  neighbors := []
  isDirect := isDirect
  nowMs := nowMs
  heardOn := 0

/-- Node 1 once it has accepted version 10 of node 2. -/
def tracksTen : NeighborGraph :=
  ((NeighborGraph.new 1).mergeTopology hundredths (headerOnly 10 true 1000)).1

theorem delayed_seven_then_five :
    (mergeAll hundredths tracksTen [headerOnly 7 false 2000, headerOnly 5 false 3000]).2 =
      [.stale 7 10, .stale 5 10] := by
  have h := (delayed_lists_move_nothing hundredths).2 tracksTen 2 10 1000
    [headerOnly 7 false 2000, headerOnly 5 false 3000] (by decide +kernel) (by decide +kernel)
    (by decide) (by decide)
    (by
      intro c hc
      rcases List.mem_cons.mp hc with rfl | hc
      · exact ⟨rfl, by decide, rfl, by decide, by decide, by decide⟩
      · rw [List.mem_singleton.mp hc]
        exact ⟨rfl, by decide, rfl, by decide, by decide, by decide⟩)
    (by
      rw [show tracksTen.topoVersions.staleNote 2 = none by decide +kernel]
      refine ⟨?_, ?_, trivial⟩
      · intro n hn
        cases hn
      · intro n hn
        cases hn
        decide)
  exact h.1

/-- The other way round the second copy is accepted: version 7 climbs above
the refused 5, and the receiver goes back from 10 to it. -/
theorem delayed_five_then_seven :
    let cs := [headerOnly 5 false 2000, headerOnly 7 false 3000]
    tracksTen.isActiveRoutingRole = true ∧
      tracksTen.topoVersions.topoVersionEntry 2 = (10, 1000) ∧
      (cs.all fun c => !c.isDirect && decide (DelayedBehind c.received 10) &&
        decide (c.nowMs - 1000 < TOPOLOGY_RESYNC_MS)) = true ∧
      (mergeAll hundredths tracksTen cs).2 = [.stale 5 10, .applied 0 7] ∧
      (mergeAll hundredths tracksTen cs).1.topoVersions.topoVersionEntry 2 = (7, 3000) := by
  decide +kernel

end Meshrustic.Topology
