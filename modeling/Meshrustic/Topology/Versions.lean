import Meshrustic.Core.Table

/-!
# Tracked list versions (`mesh-routing/src/neighbor_graph.rs`)

A sender numbers its lists modulo 256. A receiver tracks the last version it
accepted of each sender and when; a version that moves forward by 1 to 127,
or repeats, is in the window. The version refused last is noted: one that
climbs 1 to 7 above the note is taken as a restarted counter.

Results:
* `behind_not_accepted`, `behind_not_far`: a version 1 to
  `TOPOLOGY_DELAYED_BEHIND_MAX` behind the tracked one is outside the window,
  and not far enough behind to be a restart;
* `entry_noteTopoVersionStale`: a refusal changes no tracked version;
* `staleNote_noteTopoVersionStale`: and leaves its version as the note.
-/
namespace Meshrustic.Topology

def MAX_TOPOLOGY_VERSION_ENTRIES : Nat := 40
def TOPOLOGY_RESYNC_MS : UInt32 := 1820000
def TOPOLOGY_DELAYED_BEHIND_MAX : UInt8 := 7

/-- mirrors crates/mesh-routing/src/neighbor_graph.rs:1186-1195 -/
def topologyVersionAccept (received last : UInt8) : Bool :=
  if last == 0 then true
  else if received == last then true
  else decide (0 < received - last) && decide (received - last < 128)

/-- mirrors crates/mesh-routing/src/neighbor_graph.rs:1197-1199 -/
def topologyVersionBehind (received last : UInt8) : UInt8 := last - received

/-- mirrors crates/mesh-routing/src/neighbor_graph.rs:1201-1204 -/
def topologyVersionLargeBehind (received last : UInt8) : Bool :=
  let behind := topologyVersionBehind received last
  received != last && decide (TOPOLOGY_DELAYED_BEHIND_MAX < behind) && decide (behind < 128)

/-- mirrors crates/mesh-routing/src/neighbor_graph.rs:1206-1209 -/
def topologyVersionClimbing (received staleVersion : UInt8) : Bool :=
  decide (1 ≤ received - staleVersion) &&
    decide (received - staleVersion ≤ TOPOLOGY_DELAYED_BEHIND_MAX)

/-- mirrors crates/mesh-routing/src/neighbor_graph.rs:70-78 -/
structure TopologyVersionEntry where
  nodeId : UInt32
  version : UInt8
  lastAcceptMs : UInt32
  staleVersion : UInt8
  staleValid : Bool

/-- `topo_versions` up to `topo_version_count`, one row for each sender. -/
structure VersionTable where
  rows : Table MAX_TOPOLOGY_VERSION_ENTRIES TopologyVersionEntry
  nodup : (rows.rows.map (·.nodeId)).Nodup

namespace VersionTable

def empty : VersionTable := ⟨.empty, List.nodup_nil⟩

variable (t : VersionTable)

def find (nodeId : UInt32) : Option TopologyVersionEntry :=
  lookup (fun e : TopologyVersionEntry => e.nodeId) t.rows.rows nodeId

/-- mirrors crates/mesh-routing/src/neighbor_graph.rs:1556-1566 -/
def topoVersionEntry (nodeId : UInt32) : UInt8 × UInt32 :=
  match t.find nodeId with
  | none => (0, 0)
  | some e => (e.version, e.lastAcceptMs)

/-- Overwrites row `i`, if its sender stays or is new to the table. -/
def setRow (i : Nat) (e : TopologyVersionEntry) : VersionTable :=
  if h : ((t.rows.set i e).rows.map (·.nodeId)).Nodup then ⟨t.rows.set i e, h⟩ else t

/-- mirrors crates/mesh-routing/src/neighbor_graph.rs:1568-1600 -/
def setTopoVersion (nodeId : UInt32) (version : UInt8) (nowMs : UInt32) : VersionTable :=
  let nowMs := if nowMs == 0 then 1 else nowMs
  let new : TopologyVersionEntry := ⟨nodeId, version, nowMs, 0, false⟩
  match t.rows.rows.findIdx? fun e => e.nodeId == nodeId with
  | some i =>
    match t.rows.rows[i]? with
    | none => t
    | some e =>
      t.setRow i { e with
        version := version
        lastAcceptMs := nowMs
        staleValid := e.staleValid && e.version == version }
  | none =>
    match t.rows.push new with
    | some rows =>
      if h : (rows.rows.map (·.nodeId)).Nodup then ⟨rows, h⟩ else t
    | none =>
      t.setRow ((t.rows.lastMaxIdx (fun _ => true) fun e => nowMs - e.lastAcceptMs).getD 0) new

/-- mirrors crates/mesh-routing/src/neighbor_graph.rs:1602-1610 -/
def topoVersionClimbsAfterStale (nodeId : UInt32) (received : UInt8) : Bool :=
  t.rows.rows.any fun e =>
    e.nodeId == nodeId && e.staleValid && topologyVersionClimbing received e.staleVersion

/-- mirrors crates/mesh-routing/src/neighbor_graph.rs:1612-1620 -/
def noteTopoVersionStale (nodeId : UInt32) (received : UInt8) : VersionTable :=
  match t.rows.rows.findIdx? fun e => e.nodeId == nodeId with
  | none => t
  | some i =>
    match t.rows.rows[i]? with
    | none => t
    | some e => t.setRow i { e with staleVersion := received, staleValid := true }

/-- The version of `nodeId` refused last, while it stands. -/
def staleNote (nodeId : UInt32) : Option UInt8 :=
  (t.find nodeId).bind fun e => if e.staleValid then some e.staleVersion else none

end VersionTable

/-! ## Versions behind the tracked one -/

/-- `received` is a list the sender made 1 to `TOPOLOGY_DELAYED_BEHIND_MAX`
versions before `last`. -/
def DelayedBehind (received last : UInt8) : Prop :=
  1 ≤ topologyVersionBehind received last ∧
    topologyVersionBehind received last ≤ TOPOLOGY_DELAYED_BEHIND_MAX

instance (received last : UInt8) : Decidable (DelayedBehind received last) :=
  inferInstanceAs (Decidable (_ ∧ _))

theorem behind_not_accepted {received last : UInt8} (h : DelayedBehind received last)
    (h0 : last ≠ 0) : topologyVersionAccept received last = false := by
  obtain ⟨h1, h7⟩ := h
  unfold topologyVersionBehind TOPOLOGY_DELAYED_BEHIND_MAX at *
  rw [UInt8.le_iff_toNat_le] at h1 h7
  rw [UInt8.toNat_sub] at h1 h7
  have hr := received.toNat_lt
  have hl := last.toNat_lt
  have h1' : (1 : UInt8).toNat = 1 := rfl
  have h7' : (7 : UInt8).toNat = 7 := rfl
  rw [h1'] at h1
  rw [h7'] at h7
  have hne : received ≠ last := by
    intro he
    subst he
    omega
  unfold topologyVersionAccept
  rw [if_neg (by simpa using h0), if_neg (by simpa using hne), Bool.and_eq_false_iff]
  right
  rw [decide_eq_false_iff_not, UInt8.lt_iff_toNat_lt, UInt8.toNat_sub]
  have h128 : (128 : UInt8).toNat = 128 := rfl
  rw [h128]
  omega

theorem behind_not_far {received last : UInt8} (h : DelayedBehind received last) :
    topologyVersionLargeBehind received last = false := by
  unfold topologyVersionLargeBehind
  dsimp only
  have hnot : ¬ TOPOLOGY_DELAYED_BEHIND_MAX < topologyVersionBehind received last :=
    UInt8.not_lt.mpr h.2
  rw [decide_eq_false hnot, Bool.and_false, Bool.false_and]

/-! ## The table -/

namespace VersionTable

variable {t : VersionTable} {nodeId : UInt32} {received : UInt8}

theorem setRow_rows {i : Nat} {e old : TopologyVersionEntry} (hi : t.rows.rows[i]? = some old)
    (hid : e.nodeId = old.nodeId) : (t.setRow i e).rows.rows = t.rows.rows.set i e := by
  unfold setRow
  rw [dif_pos]
  · rfl
  · rw [Table.set_rows, keys_set_same (fun e : TopologyVersionEntry => e.nodeId) hi hid]
    exact t.nodup

theorem find_setRow {i : Nat} {e : TopologyVersionEntry}
    (hi : t.rows.rows.findIdx? (fun e => e.nodeId == nodeId) = some i) (hid : e.nodeId = nodeId) :
    (t.setRow i e).find nodeId = some e := by
  obtain ⟨hlt, hold, -⟩ := List.findIdx?_eq_some_iff_getElem.mp hi
  rw [beq_iff_eq] at hold
  unfold find
  rw [setRow_rows (List.getElem?_eq_getElem hlt) (hid.trans hold.symm)]
  exact lookup_set_found _ hi hid

/-- What a refusal does to the row of its sender, if there is one. -/
theorem note_rows (received : UInt8) (h : (t.find nodeId).isSome) :
    ∃ i e, t.rows.rows[i]? = some e ∧ t.find nodeId = some e ∧ e.nodeId = nodeId ∧
      t.rows.rows.findIdx? (fun e => e.nodeId == nodeId) = some i ∧
      (t.noteTopoVersionStale nodeId received).rows.rows =
        t.rows.rows.set i { e with staleVersion := received, staleValid := true } := by
  obtain ⟨e, he⟩ := Option.isSome_iff_exists.mp h
  cases hi : t.rows.rows.findIdx? (fun e => e.nodeId == nodeId) with
  | none =>
    rw [List.findIdx?_eq_none_iff] at hi
    have := hi e (List.mem_of_find?_eq_some he)
    rw [lookup_key _ he] at this
    simp at this
  | some i =>
    have hrow := (findIdx_lookup (fun e : TopologyVersionEntry => e.nodeId) hi).trans he
    refine ⟨i, e, hrow, he, lookup_key _ he, rfl, ?_⟩
    unfold noteTopoVersionStale
    rw [hi]
    dsimp only
    rw [hrow]
    exact setRow_rows hrow rfl

theorem note_untracked (h : t.find nodeId = none) : t.noteTopoVersionStale nodeId received = t := by
  unfold noteTopoVersionStale
  cases hi : t.rows.rows.findIdx? (fun e => e.nodeId == nodeId) with
  | none => rfl
  | some i =>
    have hrow := findIdx_lookup (fun e : TopologyVersionEntry => e.nodeId) hi
    rw [show lookup _ t.rows.rows nodeId = none from h] at hrow
    dsimp only
    rw [hrow]

theorem find_noteTopoVersionStale_other {n : UInt32} (hn : n ≠ nodeId) :
    (t.noteTopoVersionStale nodeId received).find n = t.find n := by
  cases hf : t.find nodeId with
  | none => rw [note_untracked hf]
  | some e =>
    obtain ⟨i, e, hrow, -, hid, -, hrows⟩ := note_rows received (by rw [hf]; rfl)
    unfold find
    rw [hrows]
    exact lookup_set_same _ hrow rfl (by rw [hid]; exact hn.symm)

theorem find_noteTopoVersionStale {e : TopologyVersionEntry} (h : t.find nodeId = some e) :
    (t.noteTopoVersionStale nodeId received).find nodeId =
      some { e with staleVersion := received, staleValid := true } := by
  obtain ⟨i, e', -, he', hid, hi, hrows⟩ := note_rows received (by rw [h]; rfl)
  rw [h, Option.some.injEq] at he'
  subst he'
  unfold find
  rw [hrows]
  exact lookup_set_found _ hi hid

/-- A refusal changes no tracked version. -/
theorem entry_noteTopoVersionStale (n : UInt32) :
    (t.noteTopoVersionStale nodeId received).topoVersionEntry n = t.topoVersionEntry n := by
  unfold topoVersionEntry
  by_cases hn : n = nodeId
  · subst hn
    cases hf : t.find n with
    | some e => rw [find_noteTopoVersionStale hf]
    | none => rw [note_untracked hf, hf]
  · rw [find_noteTopoVersionStale_other hn]

/-- A refused version is the note, if its sender is tracked. -/
theorem staleNote_noteTopoVersionStale (h : (t.find nodeId).isSome) :
    (t.noteTopoVersionStale nodeId received).staleNote nodeId = some received := by
  obtain ⟨e, he⟩ := Option.isSome_iff_exists.mp h
  unfold staleNote
  rw [find_noteTopoVersionStale he]
  rfl

/-- Only the note can be climbed. -/
theorem climbs_iff :
    t.topoVersionClimbsAfterStale nodeId received = true ↔
      ∃ v, t.staleNote nodeId = some v ∧ topologyVersionClimbing received v = true := by
  unfold topoVersionClimbsAfterStale
  rw [List.any_eq_true]
  constructor
  · rintro ⟨e, he, h⟩
    simp only [Bool.and_eq_true, beq_iff_eq] at h
    obtain ⟨⟨hid, hvalid⟩, hclimb⟩ := h
    refine ⟨e.staleVersion, ?_, hclimb⟩
    have hfind := lookup_of_mem (fun e : TopologyVersionEntry => e.nodeId) t.nodup he
    rw [hid] at hfind
    unfold staleNote find
    rw [hfind]
    simp [hvalid]
  · rintro ⟨v, hnote, hclimb⟩
    unfold staleNote at hnote
    rw [Option.bind_eq_some_iff] at hnote
    obtain ⟨e, he, hv⟩ := hnote
    split at hv
    · rename_i hvalid
      rw [Option.some.injEq] at hv
      subst hv
      refine ⟨e, List.mem_of_find?_eq_some he, ?_⟩
      rw [lookup_key _ he, hvalid, hclimb]
      simp
    · cases hv

/-- The version that is set is the one tracked, from now on. -/
theorem entry_setTopoVersion (version : UInt8) (nowMs : UInt32) :
    (t.setTopoVersion nodeId version nowMs).topoVersionEntry nodeId =
      (version, if nowMs == 0 then 1 else nowMs) := by
  suffices h : ∃ e, (t.setTopoVersion nodeId version nowMs).find nodeId = some e ∧
      e.version = version ∧ e.lastAcceptMs = if nowMs == 0 then 1 else nowMs by
    obtain ⟨e, he, hv, hms⟩ := h
    unfold topoVersionEntry
    rw [he]
    dsimp only
    rw [hv, hms]
  unfold setTopoVersion
  dsimp only
  cases hi : t.rows.rows.findIdx? (fun e => e.nodeId == nodeId) with
  | some i =>
    obtain ⟨hlt, hid, -⟩ := List.findIdx?_eq_some_iff_getElem.mp hi
    rw [beq_iff_eq] at hid
    have hrow := List.getElem?_eq_getElem hlt
    dsimp only
    rw [hrow]
    exact ⟨_, find_setRow hi hid, rfl, rfl⟩
  | none =>
    have hnone : lookup (fun e : TopologyVersionEntry => e.nodeId) t.rows.rows nodeId = none :=
      List.find?_eq_none.mpr fun e he => by
        have := List.findIdx?_eq_none_iff.mp hi e he
        simpa using this
    have hfresh := lookup_eq_none _ hnone
    refine ⟨⟨nodeId, version, if nowMs == 0 then 1 else nowMs, 0, false⟩, ?_, rfl, rfl⟩
    dsimp only
    cases hpush : t.rows.push ⟨nodeId, version, if nowMs == 0 then 1 else nowMs, 0, false⟩ with
    | some rows =>
      dsimp only
      have hrows := Table.push_rows hpush
      rw [dif_pos]
      · unfold find
        dsimp only
        rw [hrows]
        exact lookup_append_new _ hnone rfl
      · rw [hrows, List.map_append]
        refine List.nodup_append.mpr ⟨t.nodup, List.nodup_singleton _, ?_⟩
        intro a ha b hb hab
        rw [List.map_singleton, List.mem_singleton] at hb
        rw [hab, hb] at ha
        exact hfresh ha
    | none =>
      have hfull := Table.push_none hpush
      have hlt : (t.rows.lastMaxIdx (fun _ => true) fun e =>
          (if nowMs == 0 then 1 else nowMs) - e.lastAcceptMs).getD 0 < t.rows.rows.length := by
        cases hidx : t.rows.lastMaxIdx (fun _ => true) fun e =>
            (if nowMs == 0 then 1 else nowMs) - e.lastAcceptMs with
        | none =>
          rw [hfull]
          decide
        | some i => exact Table.lastMaxIdx_lt hidx
      dsimp only
      unfold setRow
      rw [dif_pos]
      · exact lookup_set_new _ hnone hlt rfl
      · rw [Table.set_rows, List.map_set]
        exact List.Nodup.set t.nodup hfresh

end VersionTable

end Meshrustic.Topology
