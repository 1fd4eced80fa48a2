import Meshrustic.Graph.Coverage
import Meshrustic.RateLimit.Runs

/-!
# Young and established nodes (`mesh-routing/src/rate_limit.rs`)

An originator that is first heard after the warm-up is young for
`YOUNG_AGE_MS`: a row of the young table. One that has aged, or was heard
before the warm-up ended, is in the alumni. The coverage gate is a snapshot of
this rule: a deny list of the young rows, or an allow list of the established
ids once every row of the young table is age-active.

`Youth` is the part of the limiter that the rule reads; the charges of the
other tables leave it alone. `noteOriginator_cases` says once what a decoded
packet does to the two tables.
-/
namespace Meshrustic.RateLimit

open Meshrustic.Graph (YoungCoverageGate)

/-- What tells young nodes from established ones. -/
structure Youth where
  young : Table MAX_YOUNG YoungSighting
  alumni : Table MAX_ALUMNI UInt32
  youngBucket : BucketState
  bootMs : UInt32
  bootKnown : Bool
  bootWarmed : Bool

namespace NodeRateLimiter

def youth (l : NodeRateLimiter) : Youth where
  young := l.young
  alumni := l.alumni
  youngBucket := l.youngBucket
  bootMs := l.bootMs
  bootKnown := l.bootKnown
  bootWarmed := l.bootWarmed

/-! ## Charges that leave the young part alone -/

section

variable (l : NodeRateLimiter) (nodeId nowMs : UInt32) (pkt : RateLimitPacket)
  (proximity : UInt32 → GraphProximity)

theorem getOrCreateOriginator_youth {r : NodeRateLimiter × Nat}
    (h : l.getOrCreateOriginator nodeId nowMs proximity = some r) : r.1.youth = l.youth := by
  unfold getOrCreateOriginator at h
  split at h
  · obtain ⟨e, -, rfl⟩ := Option.map_eq_some_iff.mp h
    rfl
  · obtain ⟨q, -, rfl⟩ := Option.map_eq_some_iff.mp h
    rfl

theorem getOrCreateDest_youth {r : NodeRateLimiter × Nat}
    (h : l.getOrCreateDest nodeId nowMs proximity = some r) : r.1.youth = l.youth := by
  unfold getOrCreateDest at h
  split at h
  · cases h
    rfl
  · obtain ⟨q, -, rfl⟩ := Option.map_eq_some_iff.mp h
    rfl

theorem getOrCreateRelay_youth {r : NodeRateLimiter × Nat}
    (h : l.getOrCreateRelay nodeId nowMs proximity = some r) : r.1.youth = l.youth := by
  unfold getOrCreateRelay at h
  split at h
  · cases h
    rfl
  · obtain ⟨q, -, rfl⟩ := Option.map_eq_some_iff.mp h
    rfl

theorem chargeOriginator_youth : (l.chargeOriginator pkt proximity).1.youth = l.youth := by
  unfold chargeOriginator
  dsimp only
  split
  · rfl
  · rename_i h
    rw [← getOrCreateOriginator_youth _ _ _ _ h]
    split <;> rfl

theorem chargeDestVolume_youth : (l.chargeDestVolume pkt proximity).1.youth = l.youth := by
  unfold chargeDestVolume
  split
  · rfl
  · split
    · split
      · rfl
      · rename_i h
        rw [← getOrCreateDest_youth _ _ _ _ h]
        split <;> rfl
    · split
      · rfl
      · split <;> rfl

theorem chargeRelay_youth : (l.chargeRelay pkt proximity).1.youth = l.youth := by
  have hinit : (if l.unresolvedRelay.windowStartMs == 0 && l.unresolvedRelay.count == 0 &&
      !l.unresolvedRelay.limited then
        { l with unresolvedRelay := { l.unresolvedRelay with windowStartMs := pkt.nowMs } }
      else l).youth = l.youth := by
    split <;> rfl
  rw [← hinit]
  unfold chargeRelay
  dsimp only
  split
  · split
    · rfl
    · rename_i h
      rw [← getOrCreateRelay_youth _ _ _ _ h]
      split <;> rfl
  · split <;> rfl

theorem chargedDest_youth : (l.chargedDest pkt proximity).1.youth = (l.noteBoot pkt.nowMs).youth := by
  unfold chargedDest
  rw [chargeDestVolume_youth]
  unfold noteBoot
  split <;> rfl

/-- The limiter when a packet that reaches its buckets is asked whether it is
one of a young node. -/
def sourceNoted : NodeRateLimiter :=
  let l := (l.chargedDest pkt proximity).1
  let l := if rateLimitBucket pkt.decodedPortnum != .unknown then
      l.noteOriginator pkt.fromNode pkt.nowMs else l
  (l.chargeOriginator pkt proximity).1

/-- The packet is charged to the young bucket. -/
def chargesYoung : Bool :=
  l.reachesSource pkt proximity && ((l.sourceNoted pkt proximity).countsAsYoung pkt).2

/-- What a packet does to the young part. -/
theorem shouldDrop_youth :
    (l.shouldDrop pkt proximity).1.youth =
      if l.ignores pkt then l.youth
      else if l.reachesSource pkt proximity then
        ((l.sourceNoted pkt proximity).chargeYoung pkt).1.youth
      else (l.noteBoot pkt.nowMs).youth := by
  unfold shouldDrop reachesSource
  dsimp only
  cases l.ignores pkt with
  | true => rfl
  | false =>
    have hdest := l.chargedDest_youth pkt proximity
    unfold sourceNoted
    generalize l.chargedDest pkt proximity = r at hdest ⊢
    by_cases hdrop : (r.2 || r.1.shouldDropToLimitedDest pkt) = true
    · simp only [hdrop, Bool.not_true, Bool.and_false, Bool.false_eq_true, if_false, if_true]
      split <;> exact hdest
    · simp only [hdrop, Bool.not_false, Bool.and_true, Bool.false_eq_true, if_false, if_true]
      unfold chargeSource
      dsimp only
      generalize (if rateLimitBucket pkt.decodedPortnum != .unknown then
        r.1.noteOriginator pkt.fromNode pkt.nowMs else r.1).chargeOriginator pkt proximity = q
      split
      · exact chargeRelay_youth _ _ _
      · rfl

end

/-! ## The two tables

The flags of the young rows are set by every look at them; who is in the table
and since when is not. -/

/-- Who is in the young table, and since when. -/
def sightings (l : NodeRateLimiter) : List (UInt32 × UInt32) :=
  l.young.rows.map fun y => (y.nodeId, y.firstSeenMs)

def youngIds (l : NodeRateLimiter) : List UInt32 := l.sightings.map Prod.fst

/-- The ids that the limiter remembers the age of. -/
def knownIds (l : NodeRateLimiter) : List UInt32 := l.youngIds ++ l.alumni.rows

@[simp] theorem youngAgeActive_nodeId (y : YoungSighting) (nowMs : UInt32) :
    (youngAgeActive y nowMs).1.nodeId = y.nodeId := rfl

@[simp] theorem youngAgeActive_firstSeenMs (y : YoungSighting) (nowMs : UInt32) :
    (youngAgeActive y nowMs).1.firstSeenMs = y.firstSeenMs := rfl

theorem youngIds_eq (l : NodeRateLimiter) : l.youngIds = l.young.rows.map YoungSighting.nodeId := by
  simp [youngIds, sightings]

theorem sightings_of_youth {l m : NodeRateLimiter} (h : l.youth = m.youth) :
    l.sightings = m.sightings :=
  congrArg (fun y => y.young.rows.map fun r => (r.nodeId, r.firstSeenMs)) h

theorem alumni_of_youth {l m : NodeRateLimiter} (h : l.youth = m.youth) : l.alumni = m.alumni :=
  congrArg Youth.alumni h

section

variable (l : NodeRateLimiter) (nodeId nowMs : UInt32)

theorem findYoung_eq_none_iff : l.findYoung nodeId = none ↔ nodeId ∉ l.youngIds := by
  unfold findYoung
  rw [List.findIdx?_eq_none_iff, youngIds_eq, List.mem_map]
  simp only [beq_eq_false_iff_ne, ne_eq, not_exists, not_and]

theorem inAlumni_eq_true_iff : l.inAlumni nodeId = true ↔ nodeId ∈ l.alumni.rows := by
  simp [inAlumni]

/-- The row that `findYoung` finds. -/
theorem findYoung_row {i : Nat} (h : l.findYoung nodeId = some i) :
    ∃ y, l.young.rows[i]? = some y ∧ y.nodeId = nodeId := by
  obtain ⟨hi, hid, -⟩ := List.findIdx?_eq_some_iff_getElem.mp h
  exact ⟨l.young.rows[i], List.getElem?_eq_getElem hi, by simpa using hid⟩

/-- A look at one row. -/
theorem look_sightings {i : Nat} {y : YoungSighting} (h : l.young.rows[i]? = some y) :
    (l.young.rows.set i (youngAgeActive y nowMs).1).map (fun y => (y.nodeId, y.firstSeenMs)) =
      l.sightings :=
  keys_set_same (fun y : YoungSighting => (y.nodeId, y.firstSeenMs)) h rfl

theorem sightings_getElem? {i : Nat} {y : YoungSighting} (h : l.young.rows[i]? = some y) :
    l.sightings[i]? = some (y.nodeId, y.firstSeenMs) := by
  simp [sightings, h]

theorem noteBoot_sightings : (l.noteBoot nowMs).sightings = l.sightings := by
  unfold noteBoot
  split <;> rfl

theorem noteBoot_alumni : (l.noteBoot nowMs).alumni = l.alumni := by
  unfold noteBoot
  split <;> rfl

/-- A row of the young table taken out. -/
theorem removeYoungAt_perm {i : Nat} {s : UInt32 × UInt32} (h : l.sightings[i]? = some s) :
    l.sightings.Perm (s :: (l.removeYoungAt i).sightings) := by
  obtain ⟨hi, hs⟩ := List.getElem?_eq_some_iff.mp h
  have hlen : i < l.young.rows.length := by simpa [sightings] using hi
  have hperm := (l.young.swapRemove_perm hlen).map fun y : YoungSighting => (y.nodeId, y.firstSeenMs)
  rw [← List.eraseIdx_map] at hperm
  have hcons : (s :: l.sightings.eraseIdx i).Perm l.sightings := hs ▸ List.getElem_cons_eraseIdx_perm hi
  exact hcons.symm.trans (hperm.symm.cons s)

end

/-- The alumni after an id is added: it was there, or there was no room, or it
is the last one. -/
def Enrols (alumni : List UInt32) (id : UInt32) (alumni' : List UInt32) : Prop :=
  (alumni' = alumni ∧ (id ∈ alumni ∨ alumni.length = MAX_ALUMNI)) ∨
    (id ∉ alumni ∧ alumni' = alumni ++ [id])

theorem Enrols.mem {alumni alumni' : List UInt32} {id : UInt32} (h : Enrols alumni id alumni')
    (hroom : alumni.length < MAX_ALUMNI) : id ∈ alumni' := by
  rcases h with ⟨rfl, hmem | hfull⟩ | ⟨-, rfl⟩
  · exact hmem
  · omega
  · exact List.mem_append_right _ List.mem_cons_self

theorem Enrols.subset {alumni alumni' : List UInt32} {id : UInt32} (h : Enrols alumni id alumni') :
    alumni ⊆ alumni' := by
  rcases h with ⟨rfl, -⟩ | ⟨-, rfl⟩
  · exact fun _ hx => hx
  · exact List.subset_append_left _ _

theorem addAlumni_enrols (l : NodeRateLimiter) (id : UInt32) :
    Enrols l.alumni.rows id (l.addAlumni id).1.alumni.rows := by
  unfold addAlumni
  split
  · rename_i h
    exact .inl ⟨rfl, .inl ((l.inAlumni_eq_true_iff id).mp h)⟩
  · rename_i h
    rw [l.inAlumni_eq_true_iff id] at h
    cases hpush : l.alumni.push id with
    | none => exact .inl ⟨rfl, .inr (Table.push_none hpush)⟩
    | some t => exact .inr ⟨h, Table.push_rows hpush⟩

/-- An id is added unless there is no room. -/
theorem addAlumni_added {l : NodeRateLimiter} {id : UInt32} (h : (l.addAlumni id).2 = true) :
    id ∈ (l.addAlumni id).1.alumni.rows := by
  unfold addAlumni at h ⊢
  split
  · rename_i hin
    exact (l.inAlumni_eq_true_iff id).mp hin
  · rename_i hin
    rw [if_neg hin] at h
    cases hpush : l.alumni.push id with
    | none => simp [hpush] at h
    | some t =>
      simp only
      rw [Table.push_rows hpush]
      exact List.mem_append_right _ List.mem_cons_self

theorem addAlumni_room {l : NodeRateLimiter} {id : UInt32} (h : l.alumni.rows.length < MAX_ALUMNI) :
    (l.addAlumni id).2 = true := by
  unfold addAlumni
  split
  · rfl
  · cases hpush : l.alumni.push id with
    | none =>
      have hfull := Table.push_none hpush
      omega
    | some t => rfl

/-- An id that is not added changes nothing. -/
theorem addAlumni_refused {l : NodeRateLimiter} {id : UInt32} (h : (l.addAlumni id).2 = false) :
    (l.addAlumni id).1 = l := by
  unfold addAlumni at h ⊢
  split
  · rfl
  · rename_i hin
    rw [if_neg hin] at h
    cases hpush : l.alumni.push id with
    | none => rfl
    | some t => simp [hpush] at h

theorem addAlumni_sightings (l : NodeRateLimiter) (id : UInt32) :
    (l.addAlumni id).1.sightings = l.sightings := by
  unfold addAlumni
  split
  · rfl
  · split <;> rfl

/-! ## A decoded packet -/

/-- What a decoded packet of `nodeId` does to the two tables. -/
inductive Noted (l : NodeRateLimiter) (nodeId nowMs : UInt32) (l' : NodeRateLimiter) : Prop where
  | kept (hs : l'.sightings = l.sightings) (ha : l'.alumni = l.alumni)
  | graduated (first : UInt32) (hs : l.sightings.Perm ((nodeId, first) :: l'.sightings))
      (ha : Enrols l.alumni.rows nodeId l'.alumni.rows)
  | early (hnew : nodeId ∉ l.knownIds) (hs : l'.sightings = l.sightings)
      (ha : Enrols l.alumni.rows nodeId l'.alumni.rows)
  | inserted (hnew : nodeId ∉ l.knownIds) (hs : l'.sightings = l.sightings ++ [(nodeId, nowMs)])
      (ha : l'.alumni = l.alumni)
  | reclaimed (old : UInt32 × UInt32) (rest : List (UInt32 × UInt32)) (hnew : nodeId ∉ l.knownIds)
      (hold : l.sightings.Perm (old :: rest)) (hs : l'.sightings = rest ++ [(nodeId, nowMs)])
      (ha : Enrols l.alumni.rows old.1 l'.alumni.rows)

/-- What `expire_if_old` does: at most a look, or the row moves to the alumni. -/
theorem expireIfOld_cases (l : NodeRateLimiter) (nodeId nowMs : UInt32) :
    ((l.expireIfOld nodeId nowMs).sightings = l.sightings ∧
        (l.expireIfOld nodeId nowMs).alumni = l.alumni) ∨
      ∃ first, l.sightings.Perm ((nodeId, first) :: (l.expireIfOld nodeId nowMs).sightings) ∧
        Enrols l.alumni.rows nodeId (l.expireIfOld nodeId nowMs).alumni.rows ∧
        nodeId ∈ (l.expireIfOld nodeId nowMs).alumni.rows := by
  unfold expireIfOld
  cases hfind : l.findYoung nodeId with
  | none => exact .inl ⟨rfl, rfl⟩
  | some i =>
    obtain ⟨y, hy, hid⟩ := l.findYoung_row nodeId hfind
    simp only [hy]
    have hlook := l.look_sightings nowMs hy
    split
    · exact .inl ⟨hlook, rfl⟩
    · generalize hm : ({ l with young := l.young.set i (youngAgeActive y nowMs).1 } :
        NodeRateLimiter) = m
      have hms : m.sightings = l.sightings := by rw [← hm]; exact hlook
      have hma : m.alumni = l.alumni := by rw [← hm]
      split
      · rename_i hadded
        have hget : (m.addAlumni nodeId).1.sightings[i]? = some (nodeId, y.firstSeenMs) := by
          rw [addAlumni_sightings, hms, l.sightings_getElem? hy, hid]
        have hperm := removeYoungAt_perm _ hget
        rw [addAlumni_sightings, hms] at hperm
        have henrols := m.addAlumni_enrols nodeId
        rw [hma] at henrols
        exact .inr ⟨y.firstSeenMs, hperm, henrols, addAlumni_added hadded⟩
      · rename_i hrefused
        rw [Bool.not_eq_true] at hrefused
        rw [addAlumni_refused hrefused]
        exact .inl ⟨hms, hma⟩

theorem insertYoung_spec (l : NodeRateLimiter) (nodeId nowMs : UInt32)
    (hroom : l.young.rows.length < MAX_YOUNG) :
    (l.insertYoung nodeId nowMs).sightings = l.sightings ++ [(nodeId, nowMs)] ∧
      (l.insertYoung nodeId nowMs).alumni = l.alumni := by
  unfold insertYoung
  cases hpush : l.young.push ⟨nodeId, nowMs, false⟩ with
  | none =>
    have hfull := Table.push_none hpush
    omega
  | some t => exact ⟨by simp [sightings, Table.push_rows hpush], rfl⟩

/-- A search for an aged row looks at rows; the one it names is there. -/
theorem findAgedYoung_spec (l : NodeRateLimiter) (nowMs : UInt32) :
    (l.findAgedYoung nowMs).1.sightings = l.sightings ∧
      (l.findAgedYoung nowMs).1.alumni = l.alumni := by
  refine ⟨?_, rfl⟩
  unfold findAgedYoung sightings
  dsimp only
  apply List.ext_getElem?
  intro j
  simp only [List.getElem?_map, List.getElem?_mapIdx]
  cases l.young.rows[j]? with
  | none => rfl
  | some y =>
    simp only [Option.map_some]
    split <;> rfl

theorem noteOriginator_noted (l : NodeRateLimiter) (nodeId nowMs : UInt32) :
    Noted l nodeId nowMs (l.noteOriginator nodeId nowMs) := by
  unfold noteOriginator
  dsimp only
  rcases l.expireIfOld_cases nodeId nowMs with ⟨hs, ha⟩ | ⟨first, hs, ha, hmem⟩
  · generalize l.expireIfOld nodeId nowMs = m at hs ha ⊢
    split
    · exact .kept hs ha
    · rename_i hknown
      rw [Bool.or_eq_true, m.inAlumni_eq_true_iff, Option.isSome_iff_ne_none, ne_eq,
        m.findYoung_eq_none_iff, not_or, not_not] at hknown
      have hnew : nodeId ∉ l.knownIds := by
        unfold knownIds youngIds
        rw [List.mem_append, not_or, ← hs, ← ha]
        exact hknown
      split
      · refine .early hnew ?_ ?_
        · rw [addAlumni_sightings]
          exact hs
        · rw [← ha]
          exact addAlumni_enrols _ _
      · split
        · rename_i hroom
          obtain ⟨hs', ha'⟩ := insertYoung_spec _ nodeId nowMs hroom
          exact .inserted hnew (hs'.trans (congrArg (· ++ [(nodeId, nowMs)]) hs)) (ha'.trans ha)
        · obtain ⟨hs', ha'⟩ := findAgedYoung_spec (m.warmedUp nowMs).1 nowMs
          have hsl := hs'.trans hs
          have hal := ha'.trans ha
          generalize (m.warmedUp nowMs).1.findAgedYoung nowMs = r at hsl hal ⊢
          split
          · exact .kept hsl hal
          · rename_i i _
            split
            · exact .kept hsl hal
            · rename_i old hold
              have hget : (r.1.addAlumni old.nodeId).1.sightings[i]? =
                  some (old.nodeId, old.firstSeenMs) := by
                rw [addAlumni_sightings]
                exact r.1.sightings_getElem? hold
              have hperm := removeYoungAt_perm _ hget
              rw [addAlumni_sightings, hsl] at hperm
              have henrols := r.1.addAlumni_enrols old.nodeId
              rw [hal] at henrols
              generalize hm' : (r.1.addAlumni old.nodeId).1.removeYoungAt i = m' at hperm
              have halumni : m'.alumni = (r.1.addAlumni old.nodeId).1.alumni := by rw [← hm']; rfl
              have hlen : m'.young.rows.length < MAX_YOUNG := by
                have hle := l.young.le
                have hcount := hperm.length_eq
                simp only [sightings, List.length_cons, List.length_map] at hcount
                omega
              obtain ⟨hs', ha'⟩ := insertYoung_spec m' nodeId nowMs hlen
              refine .reclaimed (old.nodeId, old.firstSeenMs) m'.sightings hnew hperm hs' ?_
              rw [ha', halumni]
              exact henrols
  · generalize l.expireIfOld nodeId nowMs = m at hs ha hmem ⊢
    rw [if_pos]
    · exact .graduated first hs ha
    · rw [(m.inAlumni_eq_true_iff nodeId).mpr hmem, Bool.or_true]

/-! ## Looks

Queries set flags; they move nobody. -/

/-- Nobody enters or leaves the two tables. -/
structure SameKnown (l l' : NodeRateLimiter) : Prop where
  sightings : l'.sightings = l.sightings
  alumni : l'.alumni = l.alumni

theorem SameKnown.rfl {l : NodeRateLimiter} : SameKnown l l := ⟨Eq.refl _, Eq.refl _⟩

theorem SameKnown.trans {l m k : NodeRateLimiter} (h : SameKnown l m) (h' : SameKnown m k) :
    SameKnown l k :=
  ⟨h'.sightings.trans h.sightings, h'.alumni.trans h.alumni⟩

theorem SameKnown.of_youth {l m : NodeRateLimiter} (h : m.youth = l.youth) : SameKnown l m :=
  ⟨sightings_of_youth h, alumni_of_youth h⟩

section

variable (l : NodeRateLimiter) (nodeId nowMs : UInt32) (pkt : RateLimitPacket)

theorem noteBoot_same : SameKnown l (l.noteBoot nowMs) :=
  ⟨l.noteBoot_sightings nowMs, l.noteBoot_alumni nowMs⟩

theorem warmedUp_same : SameKnown l (l.warmedUp nowMs).1 := ⟨rfl, rfl⟩

theorem activeYoungCount_same : SameKnown l (l.activeYoungCount nowMs).1 := by
  refine ⟨?_, rfl⟩
  simp [activeYoungCount, sightings, Table.map]

theorem isYoung_same : SameKnown l (l.isYoung nodeId nowMs).1 := by
  unfold isYoung
  cases hfind : l.findYoung nodeId with
  | none =>
    dsimp only
    split
    · exact .rfl
    · exact l.activeYoungCount_same nowMs
  | some i =>
    obtain ⟨y, hy, -⟩ := l.findYoung_row nodeId hfind
    simp only [hy]
    exact ⟨l.look_sightings nowMs hy, rfl⟩

theorem announceIds_sightings :
    ∀ (rows : List YoungSighting) (room : Nat),
      (announceIds nowMs room rows).1.map (fun y => (y.nodeId, y.firstSeenMs)) =
        rows.map fun y => (y.nodeId, y.firstSeenMs)
  | [], 0 => rfl
  | [], _ + 1 => rfl
  | _ :: _, 0 => rfl
  | y :: rows, room + 1 => by
    simp only [announceIds, List.map_cons, youngAgeActive_nodeId, youngAgeActive_firstSeenMs]
    rw [announceIds_sightings rows]

theorem maybeAnnounce_same (util : Float32) : SameKnown l (l.maybeAnnounce nowMs util) := by
  unfold maybeAnnounce
  split
  · exact .rfl
  · split
    · exact .rfl
    · exact ⟨announceIds_sightings nowMs _ _, rfl⟩

theorem countsAsYoung_same : SameKnown l (l.countsAsYoung pkt).1 := by
  unfold countsAsYoung
  dsimp only
  split
  · exact .rfl
  · split
    · exact (l.warmedUp_same pkt.nowMs).trans (isYoung_same _ _ _)
    · exact l.warmedUp_same pkt.nowMs

theorem chargeYoung_same : SameKnown l (l.chargeYoung pkt).1 := by
  refine (l.countsAsYoung_same pkt).trans ?_
  unfold chargeYoung
  dsimp only
  split
  · exact .rfl
  · split
    · exact ⟨(maybeAnnounce_same _ _ _).sightings, (maybeAnnounce_same _ _ _).alumni⟩
    · exact ⟨rfl, rfl⟩

theorem wouldDrop_same : SameKnown l (l.wouldDrop pkt).1 := by
  unfold wouldDrop
  dsimp only
  split
  · exact .rfl
  · split
    · exact .rfl
    · split
      · exact .rfl
      · split
        · exact l.countsAsYoung_same pkt
        · split <;> exact l.countsAsYoung_same pkt

/-- The packet is noted as one of its originator. -/
def notes (proximity : UInt32 → GraphProximity) : Bool :=
  l.reachesSource pkt proximity && rateLimitBucket pkt.decodedPortnum != .unknown

/-- A packet that is noted: `noteOriginator` is all that moves a node. -/
theorem shouldDrop_noted {proximity : UInt32 → GraphProximity} (h : l.notes pkt proximity = true) :
    ∃ m : NodeRateLimiter, m.youth = (l.noteBoot pkt.nowMs).youth ∧
      SameKnown (m.noteOriginator pkt.fromNode pkt.nowMs) (l.sourceNoted pkt proximity) ∧
      SameKnown (l.sourceNoted pkt proximity) (l.shouldDrop pkt proximity).1 := by
  unfold notes at h
  obtain ⟨hreach, hdecoded⟩ := Bool.and_eq_true_iff.mp h
  have hign : l.ignores pkt = false := by
    unfold reachesSource at hreach
    simp only [Bool.and_eq_true, Bool.not_eq_true'] at hreach
    exact hreach.1
  have hyouth := l.shouldDrop_youth pkt proximity
  rw [hign, hreach, if_pos rfl, if_neg Bool.false_ne_true] at hyouth
  refine ⟨_, l.chargedDest_youth pkt proximity, ?_,
    SameKnown.trans (chargeYoung_same _ pkt) (.of_youth hyouth)⟩
  unfold sourceNoted
  dsimp only
  rw [if_pos hdecoded]
  exact .of_youth (chargeOriginator_youth _ pkt proximity)

/-- Any other packet moves nobody. -/
theorem shouldDrop_unnoted {proximity : UInt32 → GraphProximity}
    (h : l.notes pkt proximity = false) : SameKnown l (l.shouldDrop pkt proximity).1 := by
  have hyouth := l.shouldDrop_youth pkt proximity
  have hboot := l.noteBoot_same pkt.nowMs
  cases hreach : l.reachesSource pkt proximity with
  | false =>
    rw [hreach, if_neg Bool.false_ne_true] at hyouth
    split at hyouth
    · exact .of_youth hyouth
    · exact hboot.trans (.of_youth hyouth)
  | true =>
    unfold notes at h
    rw [hreach, Bool.true_and] at h
    have hnoted : SameKnown l (l.sourceNoted pkt proximity) := by
      refine SameKnown.trans (hboot.trans (.of_youth (l.chargedDest_youth pkt proximity))) ?_
      unfold sourceNoted
      dsimp only
      rw [h, if_neg Bool.false_ne_true]
      exact .of_youth (chargeOriginator_youth _ pkt proximity)
    rw [hreach, if_pos rfl] at hyouth
    split at hyouth
    · exact .of_youth hyouth
    · exact (hnoted.trans (chargeYoung_same _ pkt)).trans (.of_youth hyouth)

/-- What a packet does to the two tables: nothing, or what `noteOriginator` does
for its originator. -/
theorem shouldDrop_known (proximity : UInt32 → GraphProximity) :
    SameKnown l (l.shouldDrop pkt proximity).1 ∨
      ∃ m m', SameKnown l m ∧ Noted m pkt.fromNode pkt.nowMs m' ∧
        SameKnown m' (l.shouldDrop pkt proximity).1 := by
  cases hnotes : l.notes pkt proximity with
  | false => exact .inl (l.shouldDrop_unnoted pkt hnotes)
  | true =>
    obtain ⟨m, hm, hnoted, hlast⟩ := l.shouldDrop_noted pkt hnotes
    exact .inr ⟨m, _, (l.noteBoot_same pkt.nowMs).trans (.of_youth hm),
      m.noteOriginator_noted pkt.fromNode pkt.nowMs, hnoted.trans hlast⟩

end

/-! ## The same young part, the same answers -/

section

variable {l m : NodeRateLimiter}

theorem isYoung_of (hyoung : m.young = l.young) (halumni : m.alumni = l.alumni)
    (nodeId nowMs : UInt32) : (m.isYoung nodeId nowMs).2 = (l.isYoung nodeId nowMs).2 := by
  unfold isYoung findYoung inAlumni activeYoungCount
  rw [hyoung, halumni]
  split
  · split <;> rfl
  · split <;> rfl

theorem isYoung_warmedUp (l : NodeRateLimiter) (nodeId nowMs : UInt32) :
    ((l.warmedUp nowMs).1.isYoung nodeId nowMs).2 = (l.isYoung nodeId nowMs).2 :=
  @isYoung_of l (l.warmedUp nowMs).1 rfl rfl nodeId nowMs

theorem warmedUp_again (l : NodeRateLimiter) (nowMs : UInt32) :
    ((l.warmedUp nowMs).1.warmedUp nowMs).2 = (l.warmedUp nowMs).2 := by
  unfold warmedUp
  dsimp only
  rw [Bool.or_assoc]
  exact congrArg (l.bootWarmed || ·) (Bool.or_self _)

theorem warmedUp_of_youth (h : m.youth = l.youth) (nowMs : UInt32) :
    (m.warmedUp nowMs).2 = (l.warmedUp nowMs).2 :=
  congrArg (fun y : Youth => y.bootWarmed || (y.bootKnown && WARMUP_MS ≤ nowMs - y.bootMs)) h

/-- Noting the boot does not end the warm-up, and does not bring it back. -/
theorem warmedUp_noteBoot (l : NodeRateLimiter) (nowMs : UInt32) :
    ((l.noteBoot nowMs).warmedUp nowMs).2 = (l.warmedUp nowMs).2 := by
  unfold noteBoot
  split
  · rename_i hknown
    rw [Bool.not_eq_true'] at hknown
    have hpos : WARMUP_MS ≠ 0 := by decide
    unfold warmedUp
    simp [hknown, hpos]
  · rfl

end

/-! ## No id twice -/

/-- The two tables share no id and hold no duplicates. -/
def OnceKnown (l : NodeRateLimiter) : Prop := l.knownIds.Nodup

theorem OnceKnown.same {l l' : NodeRateLimiter} (h : l.OnceKnown) (hs : SameKnown l l') :
    l'.OnceKnown := by
  unfold OnceKnown knownIds youngIds at h ⊢
  rw [hs.sightings, hs.alumni]
  exact h

/-- An id that is enrolled where it is not yet known. -/
theorem Enrols.nodup {ids alumni alumni' : List UInt32} {id : UInt32} (h : Enrols alumni id alumni')
    (hnd : (id :: (ids ++ alumni)).Nodup ∨ (ids ++ alumni).Nodup ∧ id ∉ ids) :
    (ids ++ alumni').Nodup := by
  have hold : (ids ++ alumni).Nodup ∧ id ∉ ids := by
    rcases hnd with hnd | hnd
    · rw [List.nodup_cons, List.mem_append, not_or] at hnd
      exact ⟨hnd.2, hnd.1.1⟩
    · exact hnd
  rcases h with ⟨rfl, -⟩ | ⟨hnew, rfl⟩
  · exact hold.1
  · rw [← List.append_assoc, List.nodup_append_comm, List.singleton_append, List.nodup_cons,
      List.mem_append, not_or]
    exact ⟨⟨hold.2, hnew⟩, hold.1⟩

theorem OnceKnown.noted {l l' : NodeRateLimiter} {nodeId nowMs : UInt32} (h : l.OnceKnown)
    (hn : Noted l nodeId nowMs l') : l'.OnceKnown := by
  unfold OnceKnown at h ⊢
  cases hn with
  | kept hs ha => exact OnceKnown.same h ⟨hs, ha⟩
  | graduated first hs ha =>
    have hids : l.youngIds.Perm (nodeId :: l'.youngIds) := hs.map Prod.fst
    exact ha.nodup (.inl ((hids.append_right l.alumni.rows).nodup_iff.mp h))
  | early hnew hs ha =>
    have hids : l'.youngIds = l.youngIds := congrArg (List.map Prod.fst) hs
    unfold knownIds at h hnew ⊢
    rw [hids]
    exact ha.nodup (.inr ⟨h, fun hmem => hnew (List.mem_append_left _ hmem)⟩)
  | inserted hnew hs ha =>
    have hids : l'.youngIds = l.youngIds ++ [nodeId] := by simp [youngIds, hs]
    unfold knownIds at h hnew ⊢
    rw [hids, ha, List.append_assoc, List.singleton_append]
    exact List.nodup_middle.mpr (List.nodup_cons.mpr ⟨hnew, h⟩)
  | reclaimed old rest hnew hold hs ha =>
    have hids : l'.youngIds = rest.map Prod.fst ++ [nodeId] := by simp [youngIds, hs]
    have hrest : l.youngIds.Perm (old.1 :: rest.map Prod.fst) := hold.map Prod.fst
    have hperm := hrest.append_right l.alumni.rows
    have hnd := ha.nodup (.inl (hperm.nodup_iff.mp h))
    unfold knownIds at hnew ⊢
    rw [hids, List.append_assoc, List.singleton_append]
    refine List.nodup_middle.mpr (List.nodup_cons.mpr ⟨?_, hnd⟩)
    rw [hperm.mem_iff, List.cons_append, List.mem_cons, List.mem_append, not_or, not_or] at hnew
    rw [List.mem_append, not_or]
    refine ⟨hnew.2.1, ?_⟩
    rcases ha with ⟨hsame, -⟩ | ⟨-, happend⟩
    · rw [hsame]
      exact hnew.2.2
    · rw [happend, List.mem_append, List.mem_singleton, not_or]
      exact ⟨hnew.2.2, hnew.1⟩

end NodeRateLimiter

end Meshrustic.RateLimit
