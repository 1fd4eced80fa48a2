import Meshrustic.RateLimit.Youth

/-!
# The coverage gate (`mesh-routing/src/rate_limit.rs`)

While the young bucket is limited, the relay planner leaves young nodes out of
its coverage. It asks a snapshot: a deny list of the young rows, or, when all
the rows of the young table are age-active, an allow list of the established
ids.

Results:
* `coverageGate_blocks`: in every reachable state the gate blocks exactly the
  nodes that are young while the young bucket is limited, and the two tables
  hold each id once.
-/
namespace Meshrustic.RateLimit

open Meshrustic.Graph (YoungCoverageGate)

namespace NodeRateLimiter

/-- The ids of the young rows. -/
def activeIds (nowMs : UInt32) (rows : List YoungSighting) : List UInt32 :=
  (rows.filter fun y => (youngAgeActive y nowMs).2).map YoungSighting.nodeId

/-- The ids of the rows that have aged and are still in the young table. -/
def parkedIds (nowMs : UInt32) (rows : List YoungSighting) : List UInt32 :=
  (rows.filter fun y => !(youngAgeActive y nowMs).2).map YoungSighting.nodeId

theorem length_activeIds (nowMs : UInt32) (young : Table MAX_YOUNG YoungSighting) :
    (activeIds nowMs young.rows).length ≤ MAX_YOUNG := by
  unfold activeIds
  rw [List.length_map]
  exact Nat.le_trans (List.length_filter_le _ _) young.le

theorem length_established (nowMs : UInt32) (alumni : Table MAX_ALUMNI UInt32)
    (young : Table MAX_YOUNG YoungSighting) :
    (alumni.rows ++ parkedIds nowMs young.rows).length ≤ MAX_ALUMNI + MAX_YOUNG := by
  unfold parkedIds
  rw [List.length_append, List.length_map]
  exact Nat.add_le_add alumni.le (Nat.le_trans (List.length_filter_le _ _) young.le)

/-- mirrors crates/mesh-routing/src/rate_limit.rs:429-431 -/
def youngTableFull (l : NodeRateLimiter) (nowMs : UInt32) : NodeRateLimiter × Bool :=
  let (l, n) := l.activeYoungCount nowMs
  (l, MAX_YOUNG ≤ n)

/-- mirrors crates/mesh-routing/src/rate_limit.rs:433-473 -/
def coverageGate (l : NodeRateLimiter) (nowMs : UInt32) : NodeRateLimiter × YoungCoverageGate :=
  if !l.enabled then (l, .empty)
  else
    let (l, warmed) := l.warmedUp nowMs
    if !warmed || !l.youngBucket.limitedAt nowMs YOUNG_CLEAR then (l, .empty)
    else
      let (seen, full) := l.youngTableFull nowMs
      (seen, {
        active := true
        tableFull := full
        ids := ⟨activeIds nowMs l.young.rows, length_activeIds nowMs l.young⟩
        established := ⟨l.alumni.rows ++ parkedIds nowMs l.young.rows,
          length_established nowMs l.alumni l.young⟩ })

section

variable (l : NodeRateLimiter) (nodeId nowMs : UInt32)

theorem youngTableFull_same : SameKnown l (l.youngTableFull nowMs).1 :=
  l.activeYoungCount_same nowMs

theorem coverageGate_same : SameKnown l (l.coverageGate nowMs).1 := by
  unfold coverageGate
  dsimp only
  split
  · exact .rfl
  · split
    · exact l.warmedUp_same nowMs
    · exact (l.warmedUp_same nowMs).trans (youngTableFull_same _ nowMs)

theorem mem_activeIds {rows : List YoungSighting} :
    nodeId ∈ activeIds nowMs rows ↔
      ∃ y ∈ rows, y.nodeId = nodeId ∧ (youngAgeActive y nowMs).2 = true := by
  simp only [activeIds, List.mem_map, List.mem_filter, and_assoc]
  exact ⟨fun ⟨y, hy, ha, hid⟩ => ⟨y, hy, hid, ha⟩, fun ⟨y, hy, hid, ha⟩ => ⟨y, hy, ha, hid⟩⟩

/-- A full table has no parked row. -/
theorem full_active (h : (l.youngTableFull nowMs).2 = true) :
    ∀ y ∈ l.young.rows, (youngAgeActive y nowMs).2 = true := by
  have hcount : MAX_YOUNG ≤ (l.young.rows.filter fun y => (youngAgeActive y nowMs).2).length :=
    of_decide_eq_true h
  have hle := List.length_filter_le (fun y => (youngAgeActive y nowMs).2) l.young.rows
  have hcap := l.young.le
  exact List.length_filter_eq_length_iff.mp (by omega)

theorem parkedIds_nil {rows : List YoungSighting}
    (h : ∀ y ∈ rows, (youngAgeActive y nowMs).2 = true) : parkedIds nowMs rows = [] := by
  unfold parkedIds
  rw [List.map_eq_nil_iff, List.filter_eq_nil_iff]
  intro y hy
  simp [h y hy]

/-- The young rule, said of the two tables. -/
theorem isYoung_iff (h : l.OnceKnown) :
    (l.isYoung nodeId nowMs).2 = true ↔
      nodeId ∈ activeIds nowMs l.young.rows ∨
        nodeId ∉ l.knownIds ∧ (l.youngTableFull nowMs).2 = true := by
  unfold OnceKnown at h
  unfold isYoung
  cases hfind : l.findYoung nodeId with
  | some i =>
    obtain ⟨y, hy, hid⟩ := l.findYoung_row nodeId hfind
    have hmem : nodeId ∈ l.youngIds := by
      rw [youngIds_eq]
      exact List.mem_map.mpr ⟨y, List.mem_of_getElem? hy, hid⟩
    simp only [hy]
    have hknown : nodeId ∈ l.knownIds := List.mem_append_left _ hmem
    simp only [hknown, not_true_eq_false, false_and, or_false]
    rw [mem_activeIds]
    refine ⟨fun ha => ⟨y, List.mem_of_getElem? hy, hid, ha⟩, fun ⟨z, hz, hzid, ha⟩ => ?_⟩
    -- the ids of the young rows are distinct, so the two rows are one
    have hnd : (l.young.rows.map YoungSighting.nodeId).Nodup := by
      rw [← youngIds_eq]
      exact (List.nodup_append.mp h).1
    have hzy : z = y := List.inj_on_of_nodup_map hnd hz (List.mem_of_getElem? hy) (hzid.trans hid.symm)
    rw [← hzy]
    exact ha
  | none =>
    have hnot := (l.findYoung_eq_none_iff nodeId).mp hfind
    have hinactive : nodeId ∉ activeIds nowMs l.young.rows := by
      intro hmem
      obtain ⟨y, hy, hid, -⟩ := (mem_activeIds _ _).mp hmem
      apply hnot
      rw [youngIds_eq]
      exact List.mem_map.mpr ⟨y, hy, hid⟩
    dsimp only
    cases hin : l.inAlumni nodeId with
    | true =>
      have hknown : nodeId ∈ l.knownIds :=
        List.mem_append_right _ ((l.inAlumni_eq_true_iff nodeId).mp hin)
      simp [hknown, hinactive]
    | false =>
      have hnew : nodeId ∉ l.knownIds := by
        unfold knownIds
        rw [List.mem_append, not_or, ← l.inAlumni_eq_true_iff, hin]
        exact ⟨hnot, Bool.false_ne_true⟩
      simp only [Bool.false_eq_true, if_false, hinactive, hnew, not_false_eq_true, true_and,
        false_or]
      rfl

/-- What the gate blocks in a limiter that holds each id once. -/
theorem coverageGate_blocks_of (h : l.OnceKnown) (hid : nodeId ≠ 0) :
    (l.coverageGate nowMs).2.blocks nodeId =
      (l.enabled && (l.warmedUp nowMs).2 && l.youngBucket.limitedAt nowMs YOUNG_CLEAR &&
        (l.isYoung nodeId nowMs).2) := by
  rw [Bool.eq_iff_iff]
  simp only [Bool.and_eq_true]
  rw [l.isYoung_iff nodeId nowMs h]
  unfold coverageGate
  dsimp only
  cases l.enabled with
  | false => simp [YoungCoverageGate.blocks, YoungCoverageGate.empty]
  | true =>
    have hbucket : (l.warmedUp nowMs).1.youngBucket = l.youngBucket := rfl
    have hyoung : (l.warmedUp nowMs).1.young = l.young := rfl
    have halumni : (l.warmedUp nowMs).1.alumni = l.alumni := rfl
    have hfull : ((l.warmedUp nowMs).1.youngTableFull nowMs).2 = (l.youngTableFull nowMs).2 := rfl
    rw [hbucket, hfull]
    cases (l.warmedUp nowMs).2 with
    | false => simp [YoungCoverageGate.blocks, YoungCoverageGate.empty]
    | true =>
      cases l.youngBucket.limitedAt nowMs YOUNG_CLEAR with
      | false => simp [YoungCoverageGate.blocks, YoungCoverageGate.empty]
      | true =>
        have hzero : (nodeId == 0) = false := beq_false_of_ne hid
        simp only [Bool.not_true, Bool.or_self, Bool.false_eq_true, if_false,
          YoungCoverageGate.blocks, hzero, true_and, hyoung, halumni]
        cases hcase : (l.youngTableFull nowMs).2 with
        | false => simp
        | true =>
          -- every row is active, so who is not an alumnus is young
          have hall := l.full_active nowMs hcase
          have hids : activeIds nowMs l.young.rows = l.youngIds := by
            unfold activeIds
            rw [List.filter_eq_self.mpr hall, youngIds_eq]
          rw [parkedIds_nil nowMs hall, List.append_nil, if_pos rfl, hids]
          unfold OnceKnown knownIds at h
          unfold knownIds
          simp only [Bool.not_eq_true', List.contains_eq_mem, decide_eq_false_iff_not, and_true,
            List.mem_append, not_or]
          refine ⟨fun hnot => ?_, fun hor hmem => ?_⟩
          · by_cases hy : nodeId ∈ l.youngIds
            · exact .inl hy
            · exact .inr ⟨hy, hnot⟩
          · rcases hor with hy | ⟨-, hnot⟩
            · exact (List.nodup_append.mp h).2.2 nodeId hy nodeId hmem rfl
            · exact hnot hmem

end

end NodeRateLimiter

/-! ## Over whole runs -/

/-- Every call of the firmware on the limiter: packets and settings, the
queries that set flags, and the events taken out. -/
inductive Call where
  | op (o : Op)
  | warmedUp (nowMs : UInt32)
  | youngTableFull (nowMs : UInt32)
  | coverageGate (nowMs : UInt32)
  | takeEvent
  | takeAnnounce
  | setAnnounceBroadcast (enabled : Bool)

/-- A call carries the time at which it is made. -/
def Call.At (c : Call) (t : Nat) : Prop :=
  match c with
  | .op o => o.At t
  | .warmedUp nowMs | .youngTableFull nowMs | .coverageGate nowMs => nowMs = clock t
  | _ => True

/-- The limiter after a call. -/
def Call.run (l : NodeRateLimiter) : Call → NodeRateLimiter
  | .op o => o.run l
  | .warmedUp nowMs => (l.warmedUp nowMs).1
  | .youngTableFull nowMs => (l.youngTableFull nowMs).1
  | .coverageGate nowMs => (l.coverageGate nowMs).1
  | .takeEvent => { l with lastEvent := none }
  | .takeAnnounce => { l with pendingAnnounce := none }
  | .setAnnounceBroadcast enabled => { l with announceBroadcast := enabled }

/-- A limiter in real time. -/
structure Timed where
  lim : NodeRateLimiter
  now : Nat

/-- The limiter from its start, under calls at nondecreasing real times. -/
def calls : LTS Timed (Call × Nat) where
  init s := ∃ nodeNum, s.lim = .withNodeNum nodeNum
  step s c s' := s.now ≤ c.2 ∧ c.1.At c.2 ∧ s' = ⟨c.1.run s.lim, c.2⟩

open NodeRateLimiter in
/-- Only packets move nodes between the tables. -/
theorem Call.known (c : Call) (l : NodeRateLimiter) :
    ((∀ pkt proximity, c ≠ .op (.shouldDrop pkt proximity)) ∧ SameKnown l (c.run l)) ∨
      ∃ pkt proximity, c = .op (.shouldDrop pkt proximity) := by
  cases c with
  | op o =>
    cases o with
    | shouldDrop pkt proximity => exact .inr ⟨pkt, proximity, rfl⟩
    | wouldDrop pkt => exact .inl ⟨by simp, l.wouldDrop_same pkt⟩
    | setEnabled enabled => exact .inl ⟨by simp, rfl, rfl⟩
    | setNodeNum nodeNum => exact .inl ⟨by simp, rfl, rfl⟩
    | setBootMs bootMs => exact .inl ⟨by simp, rfl, rfl⟩
  | warmedUp nowMs => exact .inl ⟨by simp, l.warmedUp_same nowMs⟩
  | youngTableFull nowMs => exact .inl ⟨by simp, l.youngTableFull_same nowMs⟩
  | coverageGate nowMs => exact .inl ⟨by simp, l.coverageGate_same nowMs⟩
  | takeEvent => exact .inl ⟨by simp, rfl, rfl⟩
  | takeAnnounce => exact .inl ⟨by simp, rfl, rfl⟩
  | setAnnounceBroadcast enabled => exact .inl ⟨by simp, rfl, rfl⟩

open NodeRateLimiter in
/-- A call keeps each id in one place. -/
theorem Call.onceKnown (c : Call) {l : NodeRateLimiter} (h : l.OnceKnown) : (c.run l).OnceKnown := by
  rcases c.known l with ⟨-, hsame⟩ | ⟨pkt, proximity, rfl⟩
  · exact h.same hsame
  · rcases l.shouldDrop_known pkt proximity with hsame | ⟨m, m', hm, hnoted, hm'⟩
    · exact h.same hsame
    · exact ((h.same hm).noted hnoted).same hm'

theorem onceKnown_inductive : calls.Inductive fun s => s.lim.OnceKnown where
  init := by
    rintro s ⟨nodeNum, hl⟩
    rw [hl]
    exact List.nodup_nil
  step := by
    rintro s c s' h ⟨-, -, rfl⟩
    exact c.1.onceKnown h

/-- In every run: the gate blocks a node exactly when the limiter is enabled
and warmed up, the young bucket is limited and the node is young; and no id is
twice in the young table, twice in the alumni, or in both. -/
theorem coverageGate_blocks {s : Timed} (hr : calls.Reachable s) :
    (∀ nowMs nodeId, nodeId ≠ 0 →
      (s.lim.coverageGate nowMs).2.blocks nodeId =
        (s.lim.enabled && (s.lim.warmedUp nowMs).2 &&
          s.lim.youngBucket.limitedAt nowMs YOUNG_CLEAR && (s.lim.isYoung nodeId nowMs).2)) ∧
      s.lim.youngIds.Nodup ∧ s.lim.alumni.rows.Nodup ∧
        ∀ id, id ∈ s.lim.youngIds → id ∉ s.lim.alumni.rows := by
  have h := onceKnown_inductive.reachable hr
  obtain ⟨hyoung, halumni, hdisjoint⟩ := List.nodup_append.mp h
  exact ⟨fun nowMs nodeId hid => s.lim.coverageGate_blocks_of nodeId nowMs h hid, hyoung, halumni,
    fun id hid hmem => hdisjoint id hid id hmem rfl⟩

/-- Node 5 is heard during the warm-up: it is no young node later. -/
def heardEarly : NodeRateLimiter :=
  ((NodeRateLimiter.withNodeNum 1).shouldDrop (samplePacket 0) noGraph).1

/-- Three texts of each of sixteen new nodes, once the limiter is warmed up. -/
def crowdCalls : List (Call × Nat) :=
  (List.range 48).map fun k =>
    let pkt := { samplePacket 1800000 with
      fromNode := UInt32.ofNat (100 + k / 3), decodedPortnum := some TEXT_MESSAGE_APP }
    (.op (.shouldDrop pkt noGraph), 1800000)

def crowded : Timed := crowdCalls.foldl (fun s c => ⟨c.1.run s.lim, c.2⟩) ⟨heardEarly, 0⟩

/-- Calls at one time are a run. -/
theorem run_at_once {cs : List (Call × Nat)} {s : Timed} {t : Nat}
    (hcalls : ∀ c ∈ cs, c.2 = t ∧ c.1.At t) (hs : s.now ≤ t) :
    LTS.Run calls s cs (cs.foldl (fun s c => ⟨c.1.run s.lim, c.2⟩) s) := by
  induction cs generalizing s with
  | nil => exact .nil s
  | cons c cs ih =>
    obtain ⟨⟨htime, hat⟩, hrest⟩ := List.forall_mem_cons.mp hcalls
    exact .cons ⟨htime ▸ hs, htime ▸ hat, rfl⟩ (ih hrest (Nat.le_of_eq htime))

theorem crowded_reachable : calls.Reachable crowded := by
  have hfirst : calls.step ⟨.withNodeNum 1, 0⟩ (.op (.shouldDrop (samplePacket 0) noGraph), 0)
      ⟨heardEarly, 0⟩ := ⟨Nat.le_refl 0, rfl, rfl⟩
  refine ⟨_, _, ⟨1, rfl⟩, .cons hfirst (run_at_once (fun c hc => ?_) (Nat.zero_le 1800000))⟩
  obtain ⟨k, -, rfl⟩ := List.mem_map.mp hc
  exact ⟨rfl, rfl⟩

/-- The young bucket is tripped: the gate blocks the new nodes, and neither the node of the
warm-up nor one that was never heard. -/
theorem coverageGate_blocks_sample :
    (crowded.lim.coverageGate 1800100).2.blocks 100 = true ∧
      (crowded.lim.coverageGate 1800100).2.blocks 5 = false ∧
      (crowded.lim.coverageGate 1800100).2.blocks 200 = false ∧
      crowded.lim.youngIds.Nodup ∧ 5 ∈ crowded.lim.alumni.rows := by
  have h := coverageGate_blocks crowded_reachable
  refine ⟨(h.1 1800100 100 (by decide)).trans ?_, (h.1 1800100 5 (by decide)).trans ?_,
    (h.1 1800100 200 (by decide)).trans ?_, h.2.1, ?_⟩
  all_goals decide +kernel

end Meshrustic.RateLimit
