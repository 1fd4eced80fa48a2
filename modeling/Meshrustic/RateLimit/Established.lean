import Meshrustic.RateLimit.Charges

/-!
# Established nodes (`mesh-routing/src/rate_limit.rs`)

Once a node is in the alumni, no packet of it is charged to the young bucket,
and while the alumni have room nobody leaves them. For one node the history of
its packets is kept beside the limiter: whether one was noted yet, when the
young table first recorded it, and whether it has since been noted as an aged
one, or was first noted before the warm-up ended.

Results:
* `established_not_charged`: in every run in which the alumni never fill up, a
  node that is established is never charged to the young bucket again.
* `unrecorded_sighting_charged`: a first sighting that found 32 young nodes is
  not recorded; half an hour later the node is charged as a young one.
-/
namespace Meshrustic.RateLimit

namespace NodeRateLimiter

/-! ## One node -/

section

variable {m l : NodeRateLimiter} {nodeId nowMs : UInt32}

/-- With distinct ids the row of an id is the one that is found. -/
theorem OnceKnown.row (h : m.OnceKnown) {first : UInt32} (hrow : (nodeId, first) ∈ m.sightings) :
    ∃ i y, m.findYoung nodeId = some i ∧ m.young.rows[i]? = some y ∧ y.nodeId = nodeId ∧
      y.firstSeenMs = first := by
  have hmem : nodeId ∈ m.youngIds := List.mem_map.mpr ⟨_, hrow, rfl⟩
  cases hfind : m.findYoung nodeId with
  | none => exact absurd hmem ((m.findYoung_eq_none_iff nodeId).mp hfind)
  | some i =>
    obtain ⟨y, hy, hid⟩ := m.findYoung_row nodeId hfind
    refine ⟨i, y, rfl, hy, hid, ?_⟩
    have hyrow : (y.nodeId, y.firstSeenMs) ∈ m.sightings :=
      List.mem_of_getElem? (m.sightings_getElem? hy)
    have hnd : (m.sightings.map Prod.fst).Nodup := (List.nodup_append.mp h).1
    have heq := List.inj_on_of_nodup_map hnd hyrow hrow hid
    exact congrArg Prod.snd heq

/-- A node that has aged is enrolled when it is noted. -/
theorem noteOriginator_aged (h : m.OnceKnown) {first : UInt32}
    (hrow : (nodeId, first) ∈ m.sightings) (haged : YOUNG_AGE_MS ≤ nowMs - first)
    (hroom : m.alumni.rows.length < MAX_ALUMNI) :
    nodeId ∈ (m.noteOriginator nodeId nowMs).alumni.rows := by
  obtain ⟨i, y, hfind, hy, -, hfirst⟩ := h.row hrow
  have hinactive : (youngAgeActive y nowMs).2 = false := by
    unfold youngAgeActive
    simp [hfirst, haged]
  have hexpired : nodeId ∈ (m.expireIfOld nodeId nowMs).alumni.rows := by
    unfold expireIfOld
    simp only [hfind, hy, hinactive, Bool.false_eq_true, if_false]
    generalize hk : ({ m with young := m.young.set i (youngAgeActive y nowMs).1 } :
      NodeRateLimiter) = k
    have hadded : (k.addAlumni nodeId).2 = true := addAlumni_room (by rw [← hk]; exact hroom)
    rw [if_pos hadded]
    exact addAlumni_added hadded
  unfold noteOriginator
  dsimp only
  rw [(inAlumni_eq_true_iff _ _).mpr hexpired, Bool.or_true, if_pos rfl]
  exact hexpired

/-- A node that is first noted during the warm-up is enrolled. -/
theorem noteOriginator_early (hnew : nodeId ∉ m.youngIds) (hwarm : (m.warmedUp nowMs).2 = false)
    (hroom : m.alumni.rows.length < MAX_ALUMNI) :
    nodeId ∈ (m.noteOriginator nodeId nowMs).alumni.rows := by
  have hfind := (m.findYoung_eq_none_iff nodeId).mpr hnew
  have hexpire : m.expireIfOld nodeId nowMs = m := by
    unfold expireIfOld
    rw [hfind]
  unfold noteOriginator
  rw [hexpire]
  dsimp only
  rw [hfind, Option.isSome_none, Bool.false_or, hwarm]
  cases hin : m.inAlumni nodeId with
  | true => exact (m.inAlumni_eq_true_iff nodeId).mp hin
  | false =>
    have hadded : ((m.warmedUp nowMs).1.addAlumni nodeId).2 = true := addAlumni_room hroom
    exact addAlumni_added hadded

/-- Nobody leaves the alumni. -/
theorem Noted.alumni_subset (h : Noted m nodeId nowMs l) : m.alumni.rows ⊆ l.alumni.rows := by
  cases h with
  | kept hs ha => rw [ha]; exact fun _ hx => hx
  | graduated first hs ha => exact ha.subset
  | early hnew hs ha => exact ha.subset
  | inserted hnew hs ha => rw [ha]; exact fun _ hx => hx
  | reclaimed old rest hnew hold hs ha => exact ha.subset

/-- A row of the young table stays, or its node is enrolled. -/
theorem Noted.keeps (h : Noted m nodeId nowMs l) (hroom : m.alumni.rows.length < MAX_ALUMNI)
    {row : UInt32 × UInt32} (hrow : row ∈ m.sightings) :
    row ∈ l.sightings ∨ row.1 ∈ l.alumni.rows := by
  cases h with
  | kept hs ha => rw [hs]; exact .inl hrow
  | graduated first hs ha =>
    rcases List.mem_cons.mp (hs.subset hrow) with rfl | hmem
    · exact .inr (ha.mem hroom)
    · exact .inl hmem
  | early hnew hs ha => rw [hs]; exact .inl hrow
  | inserted hnew hs ha =>
    rw [hs]
    exact .inl (List.mem_append_left _ hrow)
  | reclaimed old rest hnew hold hs ha =>
    rcases List.mem_cons.mp (hold.subset hrow) with rfl | hmem
    · exact .inr (ha.mem hroom)
    · rw [hs]
      exact .inl (List.mem_append_left _ hmem)

/-- A row that was not there is one of the noted node, recorded now. -/
theorem Noted.recorded (h : Noted m nodeId nowMs l) {row : UInt32 × UInt32}
    (hrow : row ∈ l.sightings) : row ∈ m.sightings ∨ row = (nodeId, nowMs) := by
  cases h with
  | kept hs ha => rw [← hs]; exact .inl hrow
  | graduated first hs ha => exact .inl (hs.symm.subset (List.mem_cons_of_mem _ hrow))
  | early hnew hs ha => rw [← hs]; exact .inl hrow
  | inserted hnew hs ha =>
    rw [hs] at hrow
    simpa using hrow
  | reclaimed old rest hnew hold hs ha =>
    rw [hs] at hrow
    rcases List.mem_append.mp hrow with hrow | hrow
    · exact .inl (hold.symm.subset (List.mem_cons_of_mem _ hrow))
    · exact .inr (List.mem_singleton.mp hrow)

/-- An alumnus is not young. -/
theorem isYoung_alumnus (h : m.OnceKnown) (hmem : nodeId ∈ m.alumni.rows) :
    (m.isYoung nodeId nowMs).2 = false := by
  rw [← Bool.not_eq_true, m.isYoung_iff nodeId nowMs h, not_or]
  refine ⟨fun hactive => ?_, fun hnew => hnew.1 (List.mem_append_right _ hmem)⟩
  obtain ⟨y, hy, hid, -⟩ := (mem_activeIds _ _).mp hactive
  have hyoung : nodeId ∈ m.youngIds := by
    rw [youngIds_eq]
    exact List.mem_map.mpr ⟨y, hy, hid⟩
  exact (List.nodup_append.mp h).2.2 nodeId hyoung nodeId hmem rfl

theorem SameKnown.onceKnown (h : SameKnown m l) (hm : m.OnceKnown) : l.OnceKnown := hm.same h

end

/-- No packet of an alumnus is charged to the young bucket. -/
theorem chargesYoung_alumnus {l : NodeRateLimiter} {pkt : RateLimitPacket} (h : l.OnceKnown)
    (hmem : pkt.fromNode ∈ l.alumni.rows) (proximity : UInt32 → GraphProximity) :
    l.chargesYoung pkt proximity = false := by
  unfold chargesYoung
  cases hreach : l.reachesSource pkt proximity with
  | false => rfl
  | true =>
    rw [Bool.true_and]
    unfold countsAsYoung
    dsimp only
    cases hdecoded : rateLimitBucket pkt.decodedPortnum == .unknown with
    | true => rfl
    | false =>
      have hnotes : l.notes pkt proximity = true := by
        unfold notes
        rw [hreach, bne, hdecoded]
        rfl
      obtain ⟨m, hm, hnoted, -⟩ := l.shouldDrop_noted pkt hnotes
      have hboot : SameKnown l m := (l.noteBoot_same pkt.nowMs).trans (.of_youth hm)
      have hspec := m.noteOriginator_noted pkt.fromNode pkt.nowMs
      have honce : (l.sourceNoted pkt proximity).OnceKnown := ((h.same hboot).noted hspec).same hnoted
      have halumnus : pkt.fromNode ∈ (l.sourceNoted pkt proximity).alumni.rows := by
        rw [hnoted.alumni]
        apply hspec.alumni_subset
        rw [hboot.alumni]
        exact hmem
      simp only [Bool.false_eq_true, if_false]
      split
      · rw [isYoung_warmedUp]
        exact isYoung_alumnus honce halumnus
      · rfl

end NodeRateLimiter

/-! ## Over whole runs -/

open NodeRateLimiter

/-- The history of the packets of one node. -/
structure Watch where
  noted : Bool
  recordedAt : Option Nat
  established : Bool

/-- At `t` the node has been on record for `YOUNG_AGE_MS`, by less than one
turn of the clock. -/
def Watch.aged (w : Watch) (t : Nat) : Bool :=
  w.recordedAt.any fun r => YOUNG_AGE_MS.toNat ≤ t - r && t - r < CLOCK_PERIOD

/-- The history after a packet of the node is noted at `t`. -/
def Watch.note (w : Watch) (nodeId : UInt32) (l : NodeRateLimiter) (pkt : RateLimitPacket)
    (proximity : UInt32 → GraphProximity) (t : Nat) : Watch where
  noted := true
  recordedAt := w.recordedAt.or
    (if (l.sourceNoted pkt proximity).youngIds.contains nodeId then some t else none)
  established := w.established || w.aged t || (!w.noted && !(l.warmedUp pkt.nowMs).2)

/-- A limiter in real time with the history of one node. -/
structure Watched where
  lim : NodeRateLimiter
  now : Nat
  watch : Watch

def Watched.follow (s : Watched) (nodeId : UInt32) (c : Call) (t : Nat) : Watch :=
  match c with
  | .op (.shouldDrop pkt proximity) =>
    if s.lim.notes pkt proximity && pkt.fromNode == nodeId then
      s.watch.note nodeId s.lim pkt proximity t
    else s.watch
  | _ => s.watch

theorem Watched.follow_other (s : Watched) {nodeId : UInt32} {c : Call} {t : Nat}
    (h : ∀ pkt proximity, c ≠ .op (.shouldDrop pkt proximity)) : s.follow nodeId c t = s.watch := by
  unfold Watched.follow
  split
  · exact absurd rfl (h _ _)
  · rfl

/-- The runs in which the alumni never fill up. -/
def watching (nodeId : UInt32) : LTS Watched (Call × Nat) where
  init s := (∃ nodeNum, s.lim = .withNodeNum nodeNum) ∧ s.watch = ⟨false, none, false⟩
  step s c s' := s.now ≤ c.2 ∧ c.1.At c.2 ∧
    s' = ⟨c.1.run s.lim, c.2, s.follow nodeId c.1 c.2⟩ ∧ s'.lim.alumni.rows.length < MAX_ALUMNI

/-- The history and the tables agree. -/
structure Watched.Agrees (nodeId : UInt32) (s : Watched) : Prop where
  once : s.lim.OnceKnown
  room : s.lim.alumni.rows.length < MAX_ALUMNI
  unnoted : s.watch.noted = false → s.watch.recordedAt = none
  unrecorded : s.watch.recordedAt = none → nodeId ∉ s.lim.youngIds
  recorded : ∀ r, s.watch.recordedAt = some r → r ≤ s.now ∧
    ((nodeId, clock r) ∈ s.lim.sightings ∨ nodeId ∈ s.lim.alumni.rows)
  established : s.watch.established = true → nodeId ∈ s.lim.alumni.rows

section

variable {nodeId : UInt32} {s : Watched}

/-- A call that moves nobody. -/
theorem Watched.Agrees.same (h : s.Agrees nodeId) {l : NodeRateLimiter} {t : Nat}
    (hsame : SameKnown s.lim l) (hle : s.now ≤ t) : Watched.Agrees nodeId ⟨l, t, s.watch⟩ where
  once := h.once.same hsame
  room := by
    rw [show l.alumni = s.lim.alumni from hsame.alumni]
    exact h.room
  unnoted := h.unnoted
  unrecorded hr := by
    rw [show Watched.lim ⟨l, t, s.watch⟩ = l from rfl, youngIds, hsame.sightings]
    exact h.unrecorded hr
  recorded r hr := by
    rw [show Watched.lim ⟨l, t, s.watch⟩ = l from rfl, hsame.sightings, hsame.alumni]
    exact ⟨Nat.le_trans (h.recorded r hr).1 hle, (h.recorded r hr).2⟩
  established he := by
    rw [show Watched.lim ⟨l, t, s.watch⟩ = l from rfl, hsame.alumni]
    exact h.established he

/-- A packet of another node. -/
theorem Watched.Agrees.other (h : s.Agrees nodeId) {m l : NodeRateLimiter} {id nowMs : UInt32}
    {t : Nat} (hm : SameKnown s.lim m) (hnoted : Noted m id nowMs l) (hne : id ≠ nodeId)
    (hle : s.now ≤ t) (hroom : l.alumni.rows.length < MAX_ALUMNI) :
    Watched.Agrees nodeId ⟨l, t, s.watch⟩ where
  once := (h.once.same hm).noted hnoted
  room := hroom
  unnoted := h.unnoted
  unrecorded hr hmem := by
    obtain ⟨row, hrow, hid⟩ := List.mem_map.mp hmem
    rcases hnoted.recorded hrow with hold | rfl
    · rw [hm.sightings] at hold
      exact h.unrecorded hr (List.mem_map.mpr ⟨row, hold, hid⟩)
    · exact hne hid
  recorded r hr := by
    obtain ⟨hr', hwhere⟩ := h.recorded r hr
    refine ⟨Nat.le_trans hr' hle, ?_⟩
    rw [← hm.sightings, ← hm.alumni] at hwhere
    rcases hwhere with hrow | hmem
    · exact hnoted.keeps (by rw [hm.alumni]; exact h.room) hrow
    · exact .inr (hnoted.alumni_subset hmem)
  established he := by
    have hmem := h.established he
    rw [← hm.alumni] at hmem
    exact hnoted.alumni_subset hmem

/-- A packet of the node itself. -/
theorem Watched.Agrees.own {pkt : RateLimitPacket} {proximity : UInt32 → GraphProximity} {t : Nat}
    (h : s.Agrees pkt.fromNode) (hnotes : s.lim.notes pkt proximity = true)
    (hnow : pkt.nowMs = clock t) (hle : s.now ≤ t)
    (hroom : (s.lim.shouldDrop pkt proximity).1.alumni.rows.length < MAX_ALUMNI) :
    Watched.Agrees pkt.fromNode ⟨(s.lim.shouldDrop pkt proximity).1, t,
      s.watch.note pkt.fromNode s.lim pkt proximity t⟩ := by
  obtain ⟨m, hyouth, hnoted, hlast⟩ := s.lim.shouldDrop_noted pkt hnotes
  have hm : SameKnown s.lim m := (s.lim.noteBoot_same pkt.nowMs).trans (.of_youth hyouth)
  have hspec := m.noteOriginator_noted pkt.fromNode pkt.nowMs
  have honce := h.once.same hm
  have hmroom : m.alumni.rows.length < MAX_ALUMNI := by
    rw [hm.alumni]
    exact h.room
  have hend : SameKnown (m.noteOriginator pkt.fromNode pkt.nowMs)
      (s.lim.shouldDrop pkt proximity).1 := hnoted.trans hlast
  refine ⟨(honce.noted hspec).same hend, hroom, fun hn => (by cases hn), fun hr => ?_,
    fun r hr => ?_, fun he => ?_⟩
  · simp only [Watch.note, Option.or_eq_none_iff, ite_eq_right_iff, reduceCtorEq, imp_false,
      List.contains_eq_mem, decide_eq_true_eq] at hr
    rw [youngIds, hlast.sightings]
    exact hr.2
  · change s.watch.recordedAt.or _ = some r at hr
    cases hold : s.watch.recordedAt with
    | some r' =>
      rw [hold, Option.some_or, Option.some.injEq] at hr
      subst hr
      obtain ⟨hr', hwhere⟩ := h.recorded r' hold
      refine ⟨Nat.le_trans hr' hle, ?_⟩
      change (pkt.fromNode, clock r') ∈ (s.lim.shouldDrop pkt proximity).1.sightings ∨ _
      rw [hend.sightings, show Watched.lim ⟨(s.lim.shouldDrop pkt proximity).1, t, _⟩ =
        (s.lim.shouldDrop pkt proximity).1 from rfl, hend.alumni]
      rw [← hm.sightings, ← hm.alumni] at hwhere
      rcases hwhere with hrow | hmem
      · exact hspec.keeps hmroom hrow
      · exact .inr (hspec.alumni_subset hmem)
    | none =>
      -- the row is new, so it was recorded by this packet
      rw [hold, Option.none_or] at hr
      split at hr
      · rename_i hyoung
        rw [Option.some.injEq] at hr
        subst hr
        refine ⟨Nat.le_refl t, .inl ?_⟩
        rw [List.contains_eq_mem, decide_eq_true_eq] at hyoung
        obtain ⟨row, hrow, hid⟩ := List.mem_map.mp hyoung
        have hrow' := hrow
        rw [hnoted.sightings] at hrow'
        rcases hspec.recorded hrow' with hbefore | rfl
        · rw [hm.sightings] at hbefore
          exact absurd (List.mem_map.mpr ⟨row, hbefore, hid⟩) (h.unrecorded hold)
        · change (pkt.fromNode, clock t) ∈ (s.lim.shouldDrop pkt proximity).1.sightings
          rw [hlast.sightings, ← hnow]
          exact hrow
      · cases hr
  · change pkt.fromNode ∈ (s.lim.shouldDrop pkt proximity).1.alumni.rows
    rw [hend.alumni]
    simp only [Watch.note, Bool.or_eq_true, Bool.and_eq_true, Bool.not_eq_true'] at he
    rcases he with (hbefore | haged) | ⟨hfirst, hwarm⟩
    · apply hspec.alumni_subset
      rw [hm.alumni]
      exact h.established hbefore
    · unfold Watch.aged at haged
      rw [Option.any_eq_true] at haged
      obtain ⟨r, hr, hage⟩ := haged
      rw [Bool.and_eq_true, decide_eq_true_eq, decide_eq_true_eq] at hage
      obtain ⟨hr', hwhere⟩ := h.recorded r hr
      rw [← hm.sightings, ← hm.alumni] at hwhere
      rcases hwhere with hrow | hmem
      · refine noteOriginator_aged honce hrow ?_ hmroom
        rw [UInt32.le_iff_toNat_le, hnow, clock_sub (Nat.le_trans hr' hle), Nat.mod_eq_of_lt hage.2]
        exact hage.1
      · exact hspec.alumni_subset hmem
    · refine noteOriginator_early ?_ ?_ hmroom
      · rw [youngIds, hm.sightings]
        exact h.unrecorded (h.unnoted hfirst)
      · rw [warmedUp_of_youth hyouth, warmedUp_noteBoot]
        exact hwarm

end

theorem agrees_step {nodeId : UInt32} (s : Watched) (c : Call × Nat) (s' : Watched)
    (h : s.Agrees nodeId) (hs : (watching nodeId).step s c s') : s'.Agrees nodeId := by
  obtain ⟨c, t⟩ := c
  obtain ⟨hle, hat, rfl, hroom⟩ := hs
  rcases c.known s.lim with ⟨hother, hsame⟩ | ⟨pkt, proximity, rfl⟩
  · rw [s.follow_other hother]
    exact h.same hsame hle
  · unfold Watched.follow
    dsimp only
    cases hnotes : s.lim.notes pkt proximity with
    | false => exact h.same (s.lim.shouldDrop_unnoted pkt hnotes) hle
    | true =>
      by_cases hfrom : pkt.fromNode = nodeId
      · subst hfrom
        simp only [beq_self_eq_true, Bool.and_self, if_true]
        exact h.own hnotes hat hle hroom
      · rw [beq_false_of_ne hfrom, Bool.and_false, if_neg Bool.false_ne_true]
        obtain ⟨m, hm, hnoted, hlast⟩ := s.lim.shouldDrop_noted pkt hnotes
        have hend := hnoted.trans hlast
        have hroom' : (m.noteOriginator pkt.fromNode pkt.nowMs).alumni.rows.length < MAX_ALUMNI := by
          rw [← hend.alumni]
          exact hroom
        have hagrees := h.other ((s.lim.noteBoot_same pkt.nowMs).trans (.of_youth hm))
          (m.noteOriginator_noted pkt.fromNode pkt.nowMs) hfrom hle hroom'
        exact hagrees.same hend (Nat.le_refl t)

theorem agrees_inductive (nodeId : UInt32) : (watching nodeId).Inductive (Watched.Agrees nodeId) where
  init := by
    rintro s ⟨⟨nodeNum, hl⟩, hw⟩
    refine ⟨?_, ?_, fun _ => ?_, fun _ => ?_, fun r hr => ?_, fun he => ?_⟩
    · rw [hl]
      exact List.nodup_nil
    · rw [hl]
      exact Nat.succ_pos _
    · rw [hw]
    · rw [hl]
      exact List.not_mem_nil
    · rw [hw] at hr
      cases hr
    · rw [hw] at he
      cases he
  step := agrees_step

/-- In every run in which the alumni never fill up: once a node is established
no packet of it is charged to the young bucket, whatever comes in between. -/
theorem established_not_charged {nodeId : UInt32} {s : Watched}
    (hr : (watching nodeId).Reachable s) (he : s.watch.established = true)
    (pkt : RateLimitPacket) (hfrom : pkt.fromNode = nodeId) (proximity : UInt32 → GraphProximity) :
    s.lim.chargesYoung pkt proximity = false ∧
      (s.lim.shouldDrop pkt proximity).1.youngBucket = s.lim.youngBucket := by
  have h := (agrees_inductive nodeId).reachable hr
  have hfree : s.lim.chargesYoung pkt proximity = false :=
    chargesYoung_alumnus h.once (hfrom ▸ h.established he) proximity
  refine ⟨hfree, ?_⟩
  rw [s.lim.shouldDrop_youngBucket pkt proximity, hfree]
  rfl

/-! ## A sighting that is not recorded -/

/-- Telemetry of node `id`, broadcast, at real time `t`. -/
def telemetry (id : UInt32) (t : Nat) : RateLimitPacket := { samplePacket t with fromNode := id }

/-- The history of node 7 while telemetry of a node is heard. -/
def hear (s : Watched) (p : UInt32 × Nat) : Watched :=
  let c : Call := .op (.shouldDrop (telemetry p.1 p.2) noGraph)
  ⟨c.run s.lim, p.2, s.follow 7 c p.2⟩

def heardAll (ps : List (UInt32 × Nat)) : Watched :=
  ps.foldl hear ⟨.withNodeNum 1, 0, ⟨false, none, false⟩⟩

/-- Times do not decrease and the alumni have room. -/
def Hears (s : Watched) (p : UInt32 × Nat) : Prop :=
  s.now ≤ p.2 ∧ (hear s p).lim.alumni.rows.length < MAX_ALUMNI

instance instDecidableHears (s : Watched) (p : UInt32 × Nat) : Decidable (Hears s p) :=
  @instDecidableAnd _ _ (Nat.decLe _ _) (Nat.decLt _ _)

theorem heardAll_reachable {ps : List (UInt32 × Nat)}
    (h : LTS.Along hear Hears ⟨.withNodeNum 1, 0, ⟨false, none, false⟩⟩ ps) :
    (watching 7).Reachable (heardAll ps) := by
  have hstep : ∀ s p, Hears s p → ∃ l, (watching 7).step s l (hear s p) := fun s p hp =>
    ⟨(.op (.shouldDrop (telemetry p.1 p.2) noGraph), p.2), hp.1, rfl, rfl, hp.2⟩
  exact LTS.Reachable.foldl hstep ⟨_, [], ⟨⟨1, rfl⟩, rfl⟩, .nil _⟩ h

/-- Node 7 is heard during the warm-up, and once after it. -/
def earlyRun : List (UInt32 × Nat) := [(7, 0), (7, 1800000)]

theorem established_not_charged_sample :
    (heardAll earlyRun).lim.chargesYoung (telemetry 7 1900000) noGraph = false ∧
      ((heardAll earlyRun).lim.shouldDrop (telemetry 7 1900000) noGraph).1.youngBucket =
        (heardAll earlyRun).lim.youngBucket :=
  established_not_charged (heardAll_reachable (by decide +kernel)) (by decide +kernel)
    (telemetry 7 1900000) rfl noGraph

/-- The warm-up ends with 32 new nodes; node 7 is first heard right after. -/
def flood : List (UInt32 × Nat) :=
  (5, 0) :: (List.range 32).map fun i => (UInt32.ofNat (100 + i), 1800000)

/-- The first packet of node 7 finds a full table and is not recorded. The one
half an hour later is recorded as the first, and the next one is charged to
the young bucket. -/
theorem unrecorded_sighting_charged :
    (watching 7).Reachable (heardAll (flood ++ [(7, 1800001), (7, 3600001)])) ∧
      (heardAll flood).lim.notes (telemetry 7 1800001) noGraph = true ∧
      (heardAll (flood ++ [(7, 1800001)])).lim.notes (telemetry 7 3600001) noGraph = true ∧
      (heardAll (flood ++ [(7, 1800001), (7, 3600001)])).lim.chargesYoung (telemetry 7 3600002)
        noGraph = true :=
  ⟨heardAll_reachable (by decide +kernel), by decide +kernel, by decide +kernel, by decide +kernel⟩

end Meshrustic.RateLimit
