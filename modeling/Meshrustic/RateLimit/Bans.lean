import Mathlib.Data.List.Dedup
import Meshrustic.RateLimit.Charges

/-!
# Bans under table pressure (`mesh-routing/src/rate_limit.rs`)

The tables of originators, relays and destinations make room the same way: a
new row goes to the end, or into the place of a row that is not limited.
`Slotted` says what a charge does to the ids of such a table.

A destination is banned for its volume when enough packets of at least
`DEST_MIN_SENDERS` senders went to it in one window; with fewer senders the
trip threshold is the largest count there is. For one destination the senders
charged to it in its current window are kept beside the limiter.

Results:
* `bans_survive`: in every run whose packets leave the count of their
  destination below the largest one, ids are unique, limited rows stay, and a
  destination trips only on enough senders.
* `one_sender_trips`: a single sender that sends 2^32 - 1 packets in one window
  trips its destination.
-/
namespace Meshrustic.RateLimit

section Slots

variable {α : Type} {key : α → UInt32} {limited : α → Bool} {id : UInt32} {rows rows' : List α}

/-- What a charge to `id` does to the ids of a table. -/
inductive Slotted (key : α → UInt32) (limited : α → Bool) (id : UInt32) (rows rows' : List α) :
    Prop where
  | same (h : rows'.map key = rows.map key)
  | appended (hnew : id ∉ rows.map key) (h : rows'.map key = rows.map key ++ [id])
  | replaced (i : Nat) (e : α) (hnew : id ∉ rows.map key) (he : rows[i]? = some e)
      (hfree : limited e = false) (h : rows'.map key = (rows.map key).set i id)

theorem Slotted.nodup (h : Slotted key limited id rows rows') (hnd : (rows.map key).Nodup) :
    (rows'.map key).Nodup := by
  cases h with
  | same h => rw [h]; exact hnd
  | appended hnew h =>
    rw [h]
    exact List.nodup_append_comm.mp (List.nodup_cons.mpr ⟨hnew, hnd⟩)
  | replaced i e hnew he hfree h =>
    rw [h]
    exact hnd.set hnew

/-- A limited row keeps its slot. -/
theorem Slotted.keeps (h : Slotted key limited id rows rows') {i : Nat} {e : α}
    (he : rows[i]? = some e) (hlimited : limited e = true) :
    ∃ e', rows'[i]? = some e' ∧ key e' = key e := by
  have hkey : (rows.map key)[i]? = some (key e) := by simp [he]
  have hkept : (rows'.map key)[i]? = some (key e) := by
    cases h with
    | same h => rw [h]; exact hkey
    | appended hnew h =>
      obtain ⟨hi, -⟩ := List.getElem?_eq_some_iff.mp hkey
      rw [h, List.getElem?_append_left hi]
      exact hkey
    | replaced j e' hnew he' hfree h =>
      have hne : j ≠ i := by
        intro heq
        rw [heq, he, Option.some.injEq] at he'
        rw [← he', hlimited] at hfree
        cases hfree
      rw [h, List.getElem?_set_ne hne]
      exact hkey
  simpa [List.getElem?_map] using hkept

/-- Rows changed in place. -/
theorem Slotted.update {rows'' : List α} (h : Slotted key limited id rows rows')
    (hkeys : rows''.map key = rows'.map key) : Slotted key limited id rows rows'' := by
  cases h with
  | same h => exact .same (hkeys.trans h)
  | appended hnew h => exact .appended hnew (hkeys.trans h)
  | replaced i e hnew he hfree h => exact .replaced i e hnew he hfree (hkeys.trans h)

/-- The victim of a full table is a row that is not limited. -/
theorem evictionCandidate_free {entries : List (UInt32 × Bool × UInt32)}
    {proximity : UInt32 → GraphProximity} {i : Nat}
    (h : evictionCandidate entries proximity = some i) :
    ∃ id age, entries[i]? = some (id, false, age) := by
  unfold evictionCandidate at h
  obtain ⟨best, hbest, rfl⟩ := Option.map_eq_some_iff.mp h
  refine scan_some (P := fun b : Nat × Rank => ∃ id age, entries[b.1]? = some (id, false, age))
    ?_ (fun b hb => by cases hb) hbest
  rintro best ⟨⟨id, limited, age⟩, j⟩ hmem b hb
  have hj : entries[j]? = some (id, limited, age) := List.mem_zipIdx_iff_getElem?.mp hmem
  dsimp only at hb
  cases limited with
  | true => exact .inl hb
  | false =>
    simp only [Bool.false_eq_true, if_false] at hb
    split at hb
    · rw [Option.some.injEq] at hb
      subst hb
      exact .inr ⟨id, age, hj⟩
    · split at hb
      · rw [Option.some.injEq] at hb
        subst hb
        exact .inr ⟨id, age, hj⟩
      · exact .inl hb

/-- A new row in a table whose victim is not limited. -/
theorem slotFor_slotted {cap : Nat} {t : Table cap α} {row : α} {victim : Option Nat}
    {r : Table cap α × Nat} (h : slotFor t row victim = some r) (hrow : key row = id)
    (hnew : id ∉ t.rows.map key)
    (hvictim : ∀ i, victim = some i → ∃ e, t.rows[i]? = some e ∧ limited e = false) :
    Slotted key limited id t.rows r.1.rows ∧ r.1.rows[r.2]? = some row := by
  unfold slotFor at h
  cases hpush : t.push row with
  | some t' =>
    simp only [hpush, Option.some.injEq] at h
    subst h
    rw [Table.push_rows hpush]
    refine ⟨.appended hnew ?_, by simp⟩
    rw [List.map_append, List.map_singleton, hrow]
  | none =>
    simp only [hpush, Option.map_eq_some_iff] at h
    obtain ⟨i, hi, rfl⟩ := h
    obtain ⟨e, he, hfree⟩ := hvictim i hi
    obtain ⟨hlt, -⟩ := List.getElem?_eq_some_iff.mp he
    refine ⟨.replaced i e hnew he hfree ?_, ?_⟩
    · rw [Table.set_rows, List.map_set, hrow]
    · rw [Table.set_rows, List.getElem?_set]
      simp [hlt]

end Slots

namespace NodeRateLimiter

/-! ## The three tables -/

/-- A row of an originator with a bucket that is limited at `nowMs`. -/
def originatorRowLimited (nowMs : UInt32) (e : OriginatorEntry) : Bool :=
  [RateLimitBucket.text, .routing, .other, .unknown].any fun b =>
    (e.bucket b).limitedAt nowMs (originatorClear b.trip)

def relayRowLimited (nowMs : UInt32) (e : RelayEntry) : Bool :=
  e.relay.limitedAt nowMs (UInt32.ofNat RELAY_CLEAR_FLOOR_MS)

def destRowLimited (nowMs : UInt32) (e : DestEntry) : Bool := e.dest.limitedAt nowMs DEST_CLEAR

/-- Each id has one row in each table. -/
structure DistinctRows (l : NodeRateLimiter) : Prop where
  originators : (l.originators.rows.map OriginatorEntry.nodeId).Nodup
  relays : (l.relays.rows.map RelayEntry.nodeId).Nodup
  dests : (l.dests.rows.map DestEntry.nodeId).Nodup

section

variable {l : NodeRateLimiter} (pkt : RateLimitPacket) (proximity : UInt32 → GraphProximity)

theorem keys_of_findIdx {α : Type} {rows : List α} {key : α → UInt32} {id : UInt32}
    (h : rows.findIdx? (fun e => key e == id) = none) : id ∉ rows.map key := by
  intro hmem
  obtain ⟨e, he, hkey⟩ := List.mem_map.mp hmem
  have hne := List.findIdx?_eq_none_iff.mp h e he
  simp [hkey] at hne

/-- What a victim of a scan over `rows` says about its row. -/
theorem victim_free {α : Type} {rows : List α} {row : α → UInt32 × Bool × UInt32}
    {limited : α → Bool} (hlimited : ∀ e ∈ rows, (row e).2.1 = limited e) {i : Nat}
    (h : evictionCandidate (rows.map row) proximity = some i) :
    ∃ e, rows[i]? = some e ∧ limited e = false := by
  obtain ⟨id, age, hi⟩ := evictionCandidate_free h
  rw [List.getElem?_map, Option.map_eq_some_iff] at hi
  obtain ⟨e, he, hrow⟩ := hi
  refine ⟨e, he, ?_⟩
  rw [← hlimited e (List.mem_of_getElem? he), hrow]

theorem originatorLimitedAt_row (hnd : (l.originators.rows.map OriginatorEntry.nodeId).Nodup)
    {e : OriginatorEntry} (he : e ∈ l.originators.rows) (nowMs : UInt32) :
    l.originatorLimitedAt e.nodeId nowMs = originatorRowLimited nowMs e := by
  have hfind : l.originators.rows.find? (·.nodeId == e.nodeId) = some e :=
    lookup_of_mem OriginatorEntry.nodeId hnd he
  unfold originatorLimitedAt originatorBucketLimitedAt originatorRowLimited
  rw [hfind]

theorem getOrCreateOriginator_slotted
    (hnd : (l.originators.rows.map OriginatorEntry.nodeId).Nodup) {nodeId nowMs : UInt32}
    {r : NodeRateLimiter × Nat} (h : l.getOrCreateOriginator nodeId nowMs proximity = some r) :
    Slotted OriginatorEntry.nodeId (originatorRowLimited nowMs) nodeId l.originators.rows
      r.1.originators.rows := by
  unfold getOrCreateOriginator at h
  split at h
  · obtain ⟨e, he, rfl⟩ := Option.map_eq_some_iff.mp h
    exact .same (keys_set_same OriginatorEntry.nodeId he rfl)
  · rename_i hfind
    obtain ⟨q, hq, rfl⟩ := Option.map_eq_some_iff.mp h
    refine (slotFor_slotted hq rfl (keys_of_findIdx hfind) fun i hi => ?_).1
    exact victim_free proximity (fun e he => originatorLimitedAt_row hnd he nowMs) hi

theorem chargeOriginator_slotted
    (hnd : (l.originators.rows.map OriginatorEntry.nodeId).Nodup) :
    Slotted OriginatorEntry.nodeId (originatorRowLimited pkt.nowMs) pkt.fromNode
      l.originators.rows (l.chargeOriginator pkt proximity).1.originators.rows := by
  unfold chargeOriginator
  dsimp only
  split
  · exact .same rfl
  · rename_i h
    have hslot := getOrCreateOriginator_slotted proximity hnd h
    split
    · exact hslot
    · rename_i he
      exact hslot.update (keys_set_same OriginatorEntry.nodeId he (setBucket_nodeId _ _ _))

theorem getOrCreateRelay_slotted {nodeId nowMs : UInt32} {r : NodeRateLimiter × Nat}
    (h : l.getOrCreateRelay nodeId nowMs proximity = some r) :
    Slotted RelayEntry.nodeId (relayRowLimited nowMs) nodeId l.relays.rows r.1.relays.rows := by
  unfold getOrCreateRelay at h
  split at h
  · cases h
    exact .same rfl
  · rename_i hfind
    obtain ⟨q, hq, rfl⟩ := Option.map_eq_some_iff.mp h
    refine (slotFor_slotted hq rfl (keys_of_findIdx hfind) fun i hi => ?_).1
    exact victim_free proximity (fun e _ => rfl) hi

theorem chargeRelay_slotted :
    ∃ id, Slotted RelayEntry.nodeId (relayRowLimited pkt.nowMs) id l.relays.rows
      (l.chargeRelay pkt proximity).1.relays.rows := by
  have hinit : (if l.unresolvedRelay.windowStartMs == 0 && l.unresolvedRelay.count == 0 &&
      !l.unresolvedRelay.limited then
        { l with unresolvedRelay := { l.unresolvedRelay with windowStartMs := pkt.nowMs } }
      else l).relays = l.relays := by
    split <;> rfl
  rw [← hinit]
  unfold chargeRelay
  dsimp only
  generalize (if l.unresolvedRelay.windowStartMs == 0 && l.unresolvedRelay.count == 0 &&
      !l.unresolvedRelay.limited then
        { l with unresolvedRelay := { l.unresolvedRelay with windowStartMs := pkt.nowMs } }
      else l) = k
  split
  · rename_i id _
    refine ⟨id, ?_⟩
    split
    · exact .same rfl
    · rename_i h
      have hslot := getOrCreateRelay_slotted proximity h
      split
      · exact hslot
      · rename_i he
        exact hslot.update (keys_set_same RelayEntry.nodeId he rfl)
  · refine ⟨0, .same ?_⟩
    split <;> rfl

theorem getOrCreateDest_slotted {nodeId nowMs : UInt32} {r : NodeRateLimiter × Nat}
    (h : l.getOrCreateDest nodeId nowMs proximity = some r) :
    Slotted DestEntry.nodeId (destRowLimited nowMs) nodeId l.dests.rows r.1.dests.rows := by
  unfold getOrCreateDest at h
  split at h
  · cases h
    exact .same rfl
  · rename_i hfind
    obtain ⟨q, hq, rfl⟩ := Option.map_eq_some_iff.mp h
    refine (slotFor_slotted hq rfl (keys_of_findIdx hfind) fun i hi => ?_).1
    exact victim_free proximity (fun e _ => rfl) hi

theorem chargeDestVolume_slotted :
    Slotted DestEntry.nodeId (destRowLimited pkt.nowMs) pkt.toNode l.dests.rows
      (l.chargeDestVolume pkt proximity).1.dests.rows := by
  unfold chargeDestVolume
  split
  · exact .same rfl
  · split
    · split
      · exact .same rfl
      · rename_i h
        have hslot := getOrCreateDest_slotted proximity h
        split
        · exact hslot
        · rename_i he
          refine hslot.update (keys_set_same DestEntry.nodeId he ?_)
          exact (noteDestSender_nodeId _ _).trans (rollDestSenders_nodeId _ _)
    · split
      · exact .same rfl
      · split
        · exact .same rfl
        · rename_i he
          exact .same (keys_set_same DestEntry.nodeId he (rollDestSenders_nodeId _ _))

/-- What a packet does to the ids of the three tables. -/
structure Pressed (nowMs : UInt32) (l l' : NodeRateLimiter) : Prop where
  originators : ∃ id, Slotted OriginatorEntry.nodeId (originatorRowLimited nowMs) id
    l.originators.rows l'.originators.rows
  relays : ∃ id, Slotted RelayEntry.nodeId (relayRowLimited nowMs) id l.relays.rows l'.relays.rows
  dests : ∃ id, Slotted DestEntry.nodeId (destRowLimited nowMs) id l.dests.rows l'.dests.rows

theorem Pressed.distinct {nowMs : UInt32} {l' : NodeRateLimiter} (h : Pressed nowMs l l')
    (hnd : l.DistinctRows) : l'.DistinctRows := by
  obtain ⟨⟨_, ho⟩, ⟨_, hr⟩, ⟨_, hd⟩⟩ := h
  exact ⟨ho.nodup hnd.originators, hr.nodup hnd.relays, hd.nodup hnd.dests⟩

theorem shouldDrop_pressed (hnd : l.DistinctRows) :
    Pressed pkt.nowMs l (l.shouldDrop pkt proximity).1 where
  originators := by
    obtain ⟨m, hm, horig⟩ := l.shouldDrop_originators pkt proximity
    rw [horig]
    split
    · have hrows := hnd.originators
      rw [← hm] at hrows ⊢
      exact ⟨pkt.fromNode, chargeOriginator_slotted pkt proximity hrows⟩
    · exact ⟨0, .same rfl⟩
  relays := by
    rcases l.shouldDrop_relayPart pkt proximity with hsame | ⟨m, hm, hcharge⟩
    · rw [show (l.shouldDrop pkt proximity).1.relays = l.relays from congrArg RelayPart.relays hsame]
      exact ⟨0, .same rfl⟩
    · have hrelays : m.relays = l.relays := congrArg RelayPart.relays hm
      rw [show (l.shouldDrop pkt proximity).1.relays = (m.chargeRelay pkt proximity).1.relays from
        congrArg RelayPart.relays hcharge, ← hrelays]
      exact chargeRelay_slotted pkt proximity
  dests := by
    rw [l.shouldDrop_dests pkt proximity]
    split
    · exact ⟨0, .same rfl⟩
    · have hboot : (({ l with lastEvent := none } : NodeRateLimiter).noteBoot pkt.nowMs).dests =
          l.dests := dests_of_ledgers (noteBoot_ledgers _ _)
      rw [← hboot]
      exact ⟨pkt.toNode, chargeDestVolume_slotted pkt proximity⟩

end

/-! ## One destination -/

/-- The row of a destination. -/
def destination (l : NodeRateLimiter) (id : UInt32) : Option DestEntry :=
  lookup DestEntry.nodeId l.dests.rows id

def newDest (nodeId nowMs : UInt32) : DestEntry := ⟨nodeId, .fresh nowMs, .empty⟩

/-- What a packet counts for its destination. -/
def destCharge (pkt : RateLimitPacket) : UInt32 := if chargesDestVolume pkt then 1 else 0

/-- The row with its senders rolled, and the sender of the packet noted. -/
def sentRow (e : DestEntry) (pkt : RateLimitPacket) : DestEntry :=
  if chargesDestVolume pkt then noteDestSender (rollDestSenders e pkt.nowMs) pkt.fromNode
  else rollDestSenders e pkt.nowMs

/-- The charge of a row. -/
def checkedDest (e : DestEntry) (pkt : RateLimitPacket) :
    BucketState × Bool × Option RateLimitEvent :=
  (sentRow e pkt).dest.checkAndUpdateBucket
    (if (sentRow e pkt).dest.limited || DEST_MIN_SENDERS ≤ (sentRow e pkt).senders.rows.length then
      DEST_TRIP
    else 0xFFFFFFFF) DEST_CLEAR (destCharge pkt) pkt.nowMs (sentRow e pkt).nodeId .dest

/-- The row after the charge. -/
def chargedDestRow (e : DestEntry) (pkt : RateLimitPacket) : DestEntry :=
  { sentRow e pkt with dest := (checkedDest e pkt).1 }

theorem sentRow_dest (e : DestEntry) (pkt : RateLimitPacket) : (sentRow e pkt).dest = e.dest := by
  unfold sentRow
  split
  · rw [noteDestSender_dest, rollDestSenders_dest]
  · exact rollDestSenders_dest _ _

theorem sentRow_nodeId (e : DestEntry) (pkt : RateLimitPacket) :
    (sentRow e pkt).nodeId = e.nodeId := by
  unfold sentRow
  split
  · rw [noteDestSender_nodeId, rollDestSenders_nodeId]
  · exact rollDestSenders_nodeId _ _

theorem chargedDestRow_nodeId (e : DestEntry) (pkt : RateLimitPacket) :
    (chargedDestRow e pkt).nodeId = e.nodeId :=
  sentRow_nodeId e pkt

/-- The packet gets to the table of destinations. -/
def touchesDest (l : NodeRateLimiter) (pkt : RateLimitPacket) : Bool :=
  !l.ignores pkt && isUnicastDest pkt.toNode && pkt.onDefaultChannel

section

variable {l : NodeRateLimiter} {pkt : RateLimitPacket} {proximity : UInt32 → GraphProximity}

/-- A row that is there is charged in place. -/
theorem chargeDestVolume_found (hopen : (isUnicastDest pkt.toNode && pkt.onDefaultChannel) = true)
    {i : Nat} {e : DestEntry} (hfind : l.findDest pkt.toNode = some i)
    (he : l.dests.rows[i]? = some e) :
    (l.chargeDestVolume pkt proximity).1.dests.rows = l.dests.rows.set i (chargedDestRow e pkt) ∧
      (l.chargeDestVolume pkt proximity).1.lastEvent = (checkedDest e pkt).2.2.or l.lastEvent := by
  rw [Bool.and_eq_true] at hopen
  unfold chargeDestVolume
  rw [hopen.1, hopen.2]
  simp only [Bool.not_true, Bool.or_self, Bool.false_eq_true, if_false]
  unfold chargedDestRow checkedDest sentRow destCharge
  split
  · unfold getOrCreateDest
    simp only [hfind, he]
    exact ⟨rfl, rfl⟩
  · simp only [hfind, he]
    exact ⟨rfl, rfl⟩

/-- A destination that has no row: there is room for it, or there is not. -/
theorem chargeDestVolume_new (hopen : (isUnicastDest pkt.toNode && pkt.onDefaultChannel) = true)
    (hfind : l.findDest pkt.toNode = none) :
    ((l.chargeDestVolume pkt proximity).1.dests.rows = l.dests.rows ∧
        (l.chargeDestVolume pkt proximity).1.lastEvent = l.lastEvent) ∨
      ((l.chargeDestVolume pkt proximity).1.dests.rows =
            l.dests.rows ++ [chargedDestRow (newDest pkt.toNode pkt.nowMs) pkt] ∨
          ∃ i, i < l.dests.rows.length ∧ (l.chargeDestVolume pkt proximity).1.dests.rows =
            l.dests.rows.set i (chargedDestRow (newDest pkt.toNode pkt.nowMs) pkt)) ∧
        (l.chargeDestVolume pkt proximity).1.lastEvent =
          (checkedDest (newDest pkt.toNode pkt.nowMs) pkt).2.2.or l.lastEvent := by
  rw [Bool.and_eq_true] at hopen
  unfold chargeDestVolume
  rw [hopen.1, hopen.2]
  simp only [Bool.not_true, Bool.or_self, Bool.false_eq_true, if_false]
  by_cases hcharges : chargesDestVolume pkt = true
  · rw [if_pos hcharges]
    unfold chargedDestRow checkedDest sentRow destCharge
    simp only [hcharges, if_true]
    unfold getOrCreateDest slotFor
    simp only [hfind]
    cases hpush : l.dests.push ⟨pkt.toNode, .fresh pkt.nowMs, .empty⟩ with
    | some t =>
      have hrows := Table.push_rows hpush
      right
      simp only [Option.map_some, hrows, List.getElem?_concat_length]
      unfold checkDest
      simp only [Table.set_rows, hrows, List.set_append_right _ _ (Nat.le_refl _), Nat.sub_self,
        List.set_cons_zero]
      exact ⟨.inl rfl, rfl⟩
    | none =>
      cases hvictim : l.findDestEvictionCandidate pkt.nowMs proximity with
      | none => exact .inl ⟨rfl, rfl⟩
      | some i =>
        have hfree : ∃ e, l.dests.rows[i]? = some e ∧ destRowLimited pkt.nowMs e = false :=
          victim_free proximity (fun e _ => rfl) hvictim
        obtain ⟨e, he, -⟩ := hfree
        obtain ⟨hi, -⟩ := List.getElem?_eq_some_iff.mp he
        have hrow : (l.dests.rows.set i ⟨pkt.toNode, .fresh pkt.nowMs, .empty⟩)[i]? =
            some ⟨pkt.toNode, .fresh pkt.nowMs, .empty⟩ := by
          rw [List.getElem?_set]
          simp [hi]
        right
        simp only [Option.map_some, Table.set_rows, hrow]
        unfold checkDest
        simp only [Table.set_rows, List.set_set]
        exact ⟨.inr ⟨i, hi, rfl⟩, rfl⟩
  · rw [if_neg hcharges]
    left
    simp only [hfind, and_self]

/-- What a packet does to the row of a destination. -/
theorem chargeDestVolume_spec (hnd : (l.dests.rows.map DestEntry.nodeId).Nodup) :
    (∀ id, id ≠ pkt.toNode →
        (l.chargeDestVolume pkt proximity).1.destination id = l.destination id ∨
          (l.chargeDestVolume pkt proximity).1.destination id = none) ∧
      ((l.chargeDestVolume pkt proximity).1.destination pkt.toNode = l.destination pkt.toNode ∧
          (l.chargeDestVolume pkt proximity).1.lastEvent = l.lastEvent ∧
          ((isUnicastDest pkt.toNode && pkt.onDefaultChannel) = true →
            l.destination pkt.toNode = none) ∨
        ∃ e, e = (l.destination pkt.toNode).getD (newDest pkt.toNode pkt.nowMs) ∧
          (isUnicastDest pkt.toNode && pkt.onDefaultChannel) = true ∧
          (l.chargeDestVolume pkt proximity).1.destination pkt.toNode =
            some (chargedDestRow e pkt) ∧
          (l.chargeDestVolume pkt proximity).1.lastEvent = (checkedDest e pkt).2.2.or l.lastEvent) := by
  unfold destination
  by_cases hopen : (isUnicastDest pkt.toNode && pkt.onDefaultChannel) = true
  · cases hfind : l.findDest pkt.toNode with
    | some i =>
      have hget := findIdx_lookup DestEntry.nodeId hfind
      obtain ⟨hi, -⟩ := List.findIdx?_eq_some_iff_getElem.mp hfind
      have he : l.dests.rows[i]? = some l.dests.rows[i] := List.getElem?_eq_getElem hi
      obtain ⟨hrows, hevent⟩ := @chargeDestVolume_found l pkt proximity hopen i _ hfind he
      have hid : l.dests.rows[i].nodeId = pkt.toNode :=
        lookup_key DestEntry.nodeId (hget.symm.trans he)
      rw [hrows]
      refine ⟨fun id hne => .inl ?_, .inr ⟨l.dests.rows[i], ?_, hopen, ?_, hevent⟩⟩
      · apply lookup_set_same DestEntry.nodeId he (chargedDestRow_nodeId _ _)
        rw [chargedDestRow_nodeId, hid]
        exact hne.symm
      · rw [← hget, he]
        rfl
      · exact lookup_set_found DestEntry.nodeId hfind ((chargedDestRow_nodeId _ _).trans hid)
    | none =>
      have hnone : lookup DestEntry.nodeId l.dests.rows pkt.toNode = none := by
        refine List.find?_eq_none.mpr fun r hr => ?_
        rw [List.findIdx?_eq_none_iff.mp hfind r hr]
        exact Bool.false_ne_true
      have hkey : (chargedDestRow (newDest pkt.toNode pkt.nowMs) pkt).nodeId = pkt.toNode :=
        chargedDestRow_nodeId _ _
      rcases @chargeDestVolume_new l pkt proximity hopen hfind with
        ⟨hsame, hevent⟩ | ⟨happend | ⟨i, hi, hset⟩, hevent⟩
      · rw [hsame]
        exact ⟨fun _ _ => .inl rfl, .inl ⟨rfl, hevent, fun _ => hnone⟩⟩
      · rw [happend]
        refine ⟨fun id hne => .inl (lookup_append_other _ (by rw [hkey]; exact hne.symm)),
          .inr ⟨_, rfl, hopen, ?_, ?_⟩⟩
        · rw [hnone]
          exact lookup_append_new _ hnone hkey
        · rw [hnone]
          exact hevent
      · rw [hset]
        refine ⟨fun id hne => lookup_set_other _ hnd (by rw [hkey]; exact hne.symm),
          .inr ⟨_, rfl, hopen, ?_, ?_⟩⟩
        · rw [hnone]
          exact lookup_set_new _ hnone hi hkey
        · rw [hnone]
          exact hevent
  · have hskip : l.chargeDestVolume pkt proximity = (l, false) := by
      rw [Bool.and_eq_true, not_and_or, Bool.not_eq_true, Bool.not_eq_true] at hopen
      unfold chargeDestVolume
      rcases hopen with h | h <;> simp [h]
    rw [hskip]
    exact ⟨fun _ _ => .inl rfl, .inl ⟨rfl, rfl, fun h => absurd h hopen⟩⟩

end

/-! ## Trips of a destination -/

/-- The packet trips the bucket of its destination. -/
def destTrips (l : NodeRateLimiter) (pkt : RateLimitPacket) (proximity : UInt32 → GraphProximity) :
    Bool :=
  l.touchesDest pkt &&
    (l.chargedDest pkt proximity).1.lastEvent == some (.trip pkt.toNode .dest)

/-- The packet brings the count of a destination that has too few senders to the
largest one. -/
def overcounts (l : NodeRateLimiter) (pkt : RateLimitPacket) : Bool :=
  l.touchesDest pkt && (l.destination pkt.toNode).any fun e =>
    !e.dest.limited && e.dest.windows pkt.nowMs == 0 &&
      (sentRow e pkt).senders.rows.length < DEST_MIN_SENDERS &&
        4294967295 ≤ e.dest.count.toNat + (destCharge pkt).toNat

theorem saturatingAdd_toNat (a b : UInt32) :
    (BucketState.saturatingAdd a b).toNat = min (a.toNat + b.toNat) 4294967295 := by
  unfold BucketState.saturatingAdd
  split
  · rename_i h
    rw [UInt32.toNat_add, Nat.mod_eq_of_lt h]
    omega
  · rw [Nat.min_eq_right (by omega)]
    rfl

section

variable {e : DestEntry} {pkt : RateLimitPacket}

theorem destCharge_le (pkt : RateLimitPacket) : (destCharge pkt).toNat ≤ 1 := by
  unfold destCharge
  split <;> decide

/-- A window that is over counts from nothing. -/
theorem roll_over {b : BucketState} {nowMs clear : UInt32} (h : b.windows nowMs ≠ 0) :
    (b.roll nowMs clear).1.count = 0 := by
  unfold BucketState.roll
  dsimp only
  rw [if_neg h]

theorem roll_current {b : BucketState} {nowMs clear : UInt32} (h : b.windows nowMs = 0) :
    b.roll nowMs clear = (b, false) := by
  unfold BucketState.roll
  dsimp only
  rw [if_pos h]

/-- When a bucket trips. -/
theorem charge_tripped {b : BucketState} {trip clear charge nowMs nodeId : UInt32}
    {kind : RateLimitKind}
    (h : (b.checkAndUpdateBucket trip clear charge nowMs nodeId kind).2.2 =
      some (.trip nodeId kind)) :
    (({ b with clearThreshold := clear } : BucketState).roll nowMs clear).1.limited = false ∧
      trip.toNat ≤ min ((({ b with clearThreshold := clear } : BucketState).roll nowMs
        clear).1.count.toNat + charge.toNat) 4294967295 ∧
      (b.checkAndUpdateBucket trip clear charge nowMs nodeId kind).1.limited = true := by
  rw [← saturatingAdd_toNat]
  unfold BucketState.checkAndUpdateBucket at h ⊢
  dsimp only at h ⊢
  split at h
  · rename_i hcond
    rw [if_pos hcond]
    rw [Bool.and_eq_true, Bool.not_eq_true', decide_eq_true_eq, UInt32.le_iff_toNat_le] at hcond
    exact ⟨hcond.1, hcond.2, rfl⟩
  · split at h <;> simp at h

/-- When a charge trips: the window is still on, and there are enough senders
or the count is the largest one. -/
theorem checkedDest_trips (h : (checkedDest e pkt).2.2 = some (.trip e.nodeId .dest)) :
    e.dest.limited = false ∧ e.dest.windows pkt.nowMs = 0 ∧
      (DEST_MIN_SENDERS ≤ (sentRow e pkt).senders.rows.length ∨
        4294967295 ≤ e.dest.count.toNat + (destCharge pkt).toNat) ∧
      (checkedDest e pkt).1.limited = true := by
  rw [← sentRow_nodeId e pkt] at h
  have htripped := charge_tripped h
  rw [sentRow_dest] at htripped
  obtain ⟨hfree, hle, hlimited⟩ := htripped
  have hcharge := destCharge_le pkt
  generalize hn : (sentRow e pkt).senders.rows.length = n at hle ⊢
  by_cases hwin : e.dest.windows pkt.nowMs = 0
  · rw [roll_current (show ({ e.dest with clearThreshold := DEST_CLEAR } : BucketState).windows
      pkt.nowMs = 0 from hwin)] at hfree hle
    have hfree' : e.dest.limited = false := hfree
    refine ⟨hfree', hwin, ?_, ?_⟩
    · rw [hfree', Bool.false_or] at hle
      by_cases hmany : DEST_MIN_SENDERS ≤ n
      · exact .inl hmany
      · right
        simp only [hmany, decide_false, Bool.false_eq_true, if_false] at hle
        change 4294967295 ≤ min (e.dest.count.toNat + (destCharge pkt).toNat) 4294967295 at hle
        omega
    · unfold checkedDest
      rw [sentRow_dest]
      exact hlimited
  · -- a window that is over counts at most this packet
    rw [roll_over (show ({ e.dest with clearThreshold := DEST_CLEAR } : BucketState).windows
      pkt.nowMs ≠ 0 from hwin)] at hle
    rw [show (0 : UInt32).toNat = 0 from rfl] at hle
    have htrip : 20 ≤ (if e.dest.limited || decide (DEST_MIN_SENDERS ≤ n) then DEST_TRIP
        else (0xFFFFFFFF : UInt32)).toNat := by
      split <;> decide
    omega

/-- A ban of the current window stays. -/
theorem checkedDest_limited (hlimited : e.dest.limited = true)
    (hwin : e.dest.windows pkt.nowMs = 0) : (checkedDest e pkt).1.limited = true := by
  unfold checkedDest BucketState.checkAndUpdateBucket
  rw [sentRow_dest, roll_current (show ({ e.dest with clearThreshold := DEST_CLEAR } :
    BucketState).windows pkt.nowMs = 0 from hwin)]
  dsimp only
  rw [hlimited]
  rfl

/-! ## The senders of a row -/

theorem noteDestSender_nodup (h : e.senders.rows.Nodup) (sender : UInt32) :
    (noteDestSender e sender).senders.rows.Nodup := by
  unfold noteDestSender
  split
  · exact h
  · rename_i hnew
    rw [Bool.or_eq_true, not_or, List.contains_eq_mem, decide_eq_true_eq] at hnew
    cases hpush : e.senders.push sender with
    | none => exact h
    | some t =>
      simp only [Table.push_rows hpush]
      exact List.nodup_append_comm.mp (List.nodup_cons.mpr ⟨hnew.2, h⟩)

theorem mem_noteDestSender {sender x : UInt32} (h : x ∈ (noteDestSender e sender).senders.rows) :
    x ∈ e.senders.rows ∨ x = sender := by
  unfold noteDestSender at h
  split at h
  · exact .inl h
  · cases hpush : e.senders.push sender with
    | none =>
      simp only [hpush] at h
      exact .inl h
    | some t =>
      simp only [hpush, Table.push_rows hpush] at h
      simpa using h

theorem rollDestSenders_over (h : e.dest.windows pkt.nowMs ≠ 0) :
    (rollDestSenders e pkt.nowMs).senders.rows = [] := by
  unfold rollDestSenders
  rw [if_pos]
  · rfl
  · unfold BucketState.windows at h
    by_contra hlt
    exact h (Nat.div_eq_of_lt (Nat.lt_of_not_le hlt))

theorem rollDestSenders_current (h : e.dest.windows pkt.nowMs = 0) :
    rollDestSenders e pkt.nowMs = e := by
  unfold rollDestSenders
  rw [if_neg]
  unfold BucketState.windows at h
  intro hle
  have := Nat.div_pos hle (show 0 < WINDOW_MS by decide)
  omega

theorem rollDestSenders_nodup (h : e.senders.rows.Nodup) (nowMs : UInt32) :
    (rollDestSenders e nowMs).senders.rows.Nodup := by
  unfold rollDestSenders
  split
  · exact List.nodup_nil
  · exact h

theorem sentRow_nodup (h : e.senders.rows.Nodup) : (sentRow e pkt).senders.rows.Nodup := by
  unfold sentRow
  split
  · exact noteDestSender_nodup (rollDestSenders_nodup h _) _
  · exact rollDestSenders_nodup h _

end

end NodeRateLimiter

/-! ## Over whole runs -/

open NodeRateLimiter

/-- A limiter with the senders that were charged to one destination in its
current window. -/
structure Targeted where
  lim : NodeRateLimiter
  senders : List UInt32

namespace Targeted

/-- The senders of the window that a packet falls in, before it. -/
def window (s : Targeted) (dest nowMs : UInt32) : List UInt32 :=
  match s.lim.destination dest with
  | none => []
  | some e => if e.dest.windows nowMs = 0 then s.senders else []

/-- The senders of the window that a packet falls in, with its own. -/
def charged (s : Targeted) (dest : UInt32) (pkt : RateLimitPacket) : List UInt32 :=
  if chargesDestVolume pkt then pkt.fromNode :: s.window dest pkt.nowMs
  else s.window dest pkt.nowMs

/-- The senders after a call: a trip starts the window anew, and an evicted row
has none. -/
def follow (s : Targeted) (dest : UInt32) (c : Call) : List UInt32 :=
  match c with
  | .op (.shouldDrop pkt proximity) =>
    if ((s.lim.shouldDrop pkt proximity).1.destination dest).isNone then []
    else if s.lim.touchesDest pkt && pkt.toNode == dest then
      if s.lim.destTrips pkt proximity then [] else s.charged dest pkt
    else s.senders
  | _ => s.senders

/-- The rows and the history agree. -/
structure Agrees (dest : UInt32) (s : Targeted) : Prop where
  distinct : s.lim.DistinctRows
  nodup : ∀ e, s.lim.destination dest = some e → e.senders.rows.Nodup
  senders : ∀ e, s.lim.destination dest = some e → e.dest.limited = false →
    ∀ x ∈ e.senders.rows, x ∈ s.senders

end Targeted

/-- The limiter from its start, under any calls. -/
def targeted (dest : UInt32) : LTS Targeted Call where
  init s := (∃ nodeNum, s.lim = .withNodeNum nodeNum) ∧ s.senders = []
  step s c s' := s' = ⟨c.run s.lim, s.follow dest c⟩

/-- The packets that leave the count of their destination below the largest
one, or have enough senders. -/
def Call.Bounded (s : Targeted) (c : Call) : Prop :=
  ∀ pkt proximity, c = .op (.shouldDrop pkt proximity) → s.lim.overcounts pkt = false

section

variable (l : NodeRateLimiter) (pkt : RateLimitPacket) (proximity : UInt32 → GraphProximity)

/-- The limiter whose destinations are charged: nothing has happened to them. -/
theorem chargedDest_before :
    ∃ m : NodeRateLimiter, m.dests = l.dests ∧ m.lastEvent = none ∧
      l.chargedDest pkt proximity = m.chargeDestVolume pkt proximity := by
  refine ⟨_, dests_of_ledgers (noteBoot_ledgers { l with lastEvent := none } pkt.nowMs), ?_, rfl⟩
  unfold noteBoot
  split <;> rfl

/-- A destination that a packet is not for keeps its row or loses it. -/
theorem shouldDrop_destination_other (hnd : l.DistinctRows) {dest : UInt32}
    (hother : (l.touchesDest pkt && pkt.toNode == dest) = false) :
    (l.shouldDrop pkt proximity).1.destination dest = l.destination dest ∨
      (l.shouldDrop pkt proximity).1.destination dest = none := by
  have hdests := l.shouldDrop_dests pkt proximity
  unfold destination
  rw [hdests]
  split
  · exact .inl rfl
  · rename_i hign
    obtain ⟨m, hm, -, hcharge⟩ := chargedDest_before l pkt proximity
    have hmnd : (m.dests.rows.map DestEntry.nodeId).Nodup := by
      rw [hm]
      exact hnd.dests
    obtain ⟨hothers, hown⟩ := @chargeDestVolume_spec m pkt proximity hmnd
    unfold destination at hothers hown
    rw [hcharge]
    rw [hm] at hothers hown
    by_cases hdest : dest = pkt.toNode
    · rcases hown with ⟨hsame, -⟩ | ⟨e, -, hopen, -⟩
      · rw [hdest]
        exact .inl hsame
      · rw [Bool.not_eq_true] at hign
        unfold touchesDest at hother
        simp [hign, hdest, hopen] at hother
    · exact hothers dest hdest

/-- The row of the destination of a packet: there is none, or it is charged. -/
theorem shouldDrop_destination (hnd : l.DistinctRows) (htouch : l.touchesDest pkt = true) :
    ((l.destination pkt.toNode = none ∧
        (l.shouldDrop pkt proximity).1.destination pkt.toNode = none) ∧
        l.destTrips pkt proximity = false) ∨
      ∃ e, e = (l.destination pkt.toNode).getD (newDest pkt.toNode pkt.nowMs) ∧
        e.nodeId = pkt.toNode ∧
        (l.shouldDrop pkt proximity).1.destination pkt.toNode = some (chargedDestRow e pkt) ∧
        (l.destTrips pkt proximity = true ↔
          (checkedDest e pkt).2.2 = some (.trip e.nodeId .dest)) := by
  have hdests := l.shouldDrop_dests pkt proximity
  have hparts : l.ignores pkt = false ∧ (isUnicastDest pkt.toNode && pkt.onDefaultChannel) = true := by
    unfold touchesDest at htouch
    simpa [and_assoc] using htouch
  rw [hparts.1, if_neg Bool.false_ne_true] at hdests
  obtain ⟨m, hm, hevent, hcharge⟩ := chargedDest_before l pkt proximity
  have hmnd : (m.dests.rows.map DestEntry.nodeId).Nodup := by
    rw [hm]
    exact hnd.dests
  have hrow : ∀ id, m.destination id = l.destination id := by
    intro id
    unfold destination
    rw [hm]
  have hafter : ∀ id, (l.shouldDrop pkt proximity).1.destination id =
      (m.chargeDestVolume pkt proximity).1.destination id := by
    intro id
    unfold destination
    rw [hdests, hcharge]
  obtain ⟨-, hown⟩ := @chargeDestVolume_spec m pkt proximity hmnd
  rw [hrow, ← hafter] at hown
  unfold destTrips
  rw [hcharge, htouch, Bool.true_and]
  rcases hown with ⟨hsame, hnone, hgone⟩ | ⟨e, he, -, hsome, hlast⟩
  · left
    rw [hsame, hgone hparts.2, hnone, hevent]
    exact ⟨⟨rfl, rfl⟩, rfl⟩
  · have hid : e.nodeId = pkt.toNode := by
      rw [he]
      cases hold : l.destination pkt.toNode with
      | none => rfl
      | some e' => exact lookup_key DestEntry.nodeId hold
    refine .inr ⟨e, he, hid, hsome, ?_⟩
    rw [hlast, hevent, Option.or_none, beq_iff_eq, hid]

end

section

variable {dest : UInt32} {s : Targeted}

/-- The senders of a row after a packet are senders of its window. -/
theorem Targeted.Agrees.sentRow_mem (h : s.Agrees dest) {e : DestEntry} {pkt : RateLimitPacket}
    (he : e = (s.lim.destination dest).getD (newDest dest pkt.nowMs))
    (hfree : e.dest.windows pkt.nowMs = 0 → e.dest.limited = false) {x : UInt32}
    (hx : x ∈ (sentRow e pkt).senders.rows) : x ∈ s.charged dest pkt := by
  have hrolled : ∀ y ∈ (rollDestSenders e pkt.nowMs).senders.rows, y ∈ s.window dest pkt.nowMs := by
    intro y hy
    by_cases hwin : e.dest.windows pkt.nowMs = 0
    · rw [rollDestSenders_current hwin] at hy
      unfold Targeted.window
      cases hrow : s.lim.destination dest with
      | none =>
        rw [hrow] at he
        subst he
        cases hy
      | some e' =>
        rw [hrow, Option.getD_some] at he
        subst he
        simp only [hwin, if_true]
        exact h.senders e hrow (hfree hwin) y hy
    · rw [rollDestSenders_over hwin] at hy
      cases hy
  unfold sentRow at hx
  unfold Targeted.charged
  split at hx
  · rename_i hcharges
    rw [if_pos hcharges]
    rcases mem_noteDestSender hx with hx | rfl
    · exact List.mem_cons_of_mem _ (hrolled x hx)
    · exact List.mem_cons_self
  · rename_i hcharges
    rw [if_neg hcharges]
    exact hrolled x hx

/-- The row of a destination is a new one, or has distinct senders. -/
theorem Targeted.Agrees.row_nodup (h : s.Agrees dest) {e : DestEntry} {nowMs : UInt32}
    (he : e = (s.lim.destination dest).getD (newDest dest nowMs)) : e.senders.rows.Nodup := by
  cases hrow : s.lim.destination dest with
  | none =>
    rw [hrow] at he
    subst he
    exact List.nodup_nil
  | some e' =>
    rw [hrow, Option.getD_some] at he
    subst he
    exact h.nodup e hrow

/-- A call that leaves the row alone, or takes it away. -/
theorem Targeted.Agrees.keep (h : s.Agrees dest) {l : NodeRateLimiter} {senders : List UInt32}
    (hnd : l.DistinctRows)
    (hrow : l.destination dest = s.lim.destination dest ∨ l.destination dest = none)
    (hsenders : (l.destination dest).isNone = false → senders = s.senders) :
    Targeted.Agrees dest ⟨l, senders⟩ := by
  refine ⟨hnd, fun e he => ?_, fun e he hfree x hx => ?_⟩
  · rcases hrow with hsame | hnone
    · exact h.nodup e (hsame ▸ he)
    · rw [show Targeted.lim ⟨l, senders⟩ = l from rfl, hnone] at he
      cases he
  · change l.destination dest = some e at he
    rcases hrow with hsame | hnone
    · rw [show Targeted.senders ⟨l, senders⟩ = senders from rfl, hsenders (by rw [he]; rfl)]
      exact h.senders e (hsame ▸ he) hfree x hx
    · rw [hnone] at he
      cases he

theorem Targeted.Agrees.shouldDrop (h : s.Agrees dest) (pkt : RateLimitPacket)
    (proximity : UInt32 → GraphProximity) :
    Targeted.Agrees dest ⟨(s.lim.shouldDrop pkt proximity).1,
      s.follow dest (.op (.shouldDrop pkt proximity))⟩ := by
  have hnd := (shouldDrop_pressed pkt proximity h.distinct).distinct h.distinct
  cases htouch : s.lim.touchesDest pkt && pkt.toNode == dest with
  | false =>
    refine h.keep hnd (shouldDrop_destination_other _ pkt proximity h.distinct htouch) fun hsome => ?_
    unfold Targeted.follow
    simp only [hsome, htouch, Bool.false_eq_true, if_false]
  | true =>
    have hboth := Bool.and_eq_true_iff.mp htouch
    have hdest : pkt.toNode = dest := beq_iff_eq.mp hboth.2
    subst hdest
    rcases shouldDrop_destination s.lim pkt proximity h.distinct hboth.1 with
      ⟨⟨-, hgone⟩, -⟩ | ⟨e, he, hid, hrow, htrips⟩
    · refine ⟨hnd, fun e he => ?_, fun e he => ?_⟩
      · rw [show (s.lim.shouldDrop pkt proximity).1.destination pkt.toNode = none from hgone] at he
        cases he
      · rw [show (s.lim.shouldDrop pkt proximity).1.destination pkt.toNode = none from hgone] at he
        cases he
    · have hsenders : s.follow pkt.toNode (.op (.shouldDrop pkt proximity)) =
          if s.lim.destTrips pkt proximity then [] else s.charged pkt.toNode pkt := by
        unfold Targeted.follow
        simp only [hrow, htouch, Option.isNone_some, Bool.false_eq_true, if_false, if_true]
      have heq : ∀ e', (s.lim.shouldDrop pkt proximity).1.destination pkt.toNode = some e' →
          chargedDestRow e pkt = e' := by
        intro e' he'
        rw [hrow, Option.some.injEq] at he'
        exact he'
      refine ⟨hnd, fun e' he' => ?_, fun e' he' hfree x hx => ?_⟩
      · rw [← heq e' he']
        exact sentRow_nodup (h.row_nodup he)
      · rw [← heq e' he'] at hfree hx
        have hnotrip : s.lim.destTrips pkt proximity = false := by
          rw [← Bool.not_eq_true, htrips]
          intro htrip
          rw [show (chargedDestRow e pkt).dest.limited = (checkedDest e pkt).1.limited from rfl,
            (checkedDest_trips htrip).2.2.2] at hfree
          cases hfree
        rw [show Targeted.senders ⟨_, s.follow pkt.toNode (.op (.shouldDrop pkt proximity))⟩ =
          s.follow pkt.toNode (.op (.shouldDrop pkt proximity)) from rfl, hsenders, hnotrip]
        refine h.sentRow_mem he (fun hwin => ?_) hx
        cases hlim : e.dest.limited with
        | false => rfl
        | true =>
          rw [show (chargedDestRow e pkt).dest.limited = (checkedDest e pkt).1.limited from rfl,
            checkedDest_limited hlim hwin] at hfree
          cases hfree

/-- A call that is no packet leaves the tables alone. -/
theorem Call.ledgers (c : Call) (l : NodeRateLimiter) :
    (∃ pkt proximity, c = .op (.shouldDrop pkt proximity)) ∨
      (∀ pkt proximity, c ≠ .op (.shouldDrop pkt proximity)) ∧
        (c.run l).originators = l.originators ∧ (c.run l).relays = l.relays ∧
          (c.run l).dests = l.dests := by
  have hof : ∀ {k : NodeRateLimiter}, k.ledgers = l.ledgers →
      k.originators = l.originators ∧ k.relays = l.relays ∧ k.dests = l.dests := fun h =>
    ⟨congrArg Ledgers.originators h, congrArg Ledgers.relays h, congrArg Ledgers.dests h⟩
  cases c with
  | op o =>
    cases o with
    | shouldDrop pkt proximity => exact .inl ⟨pkt, proximity, rfl⟩
    | wouldDrop pkt => exact .inr ⟨by simp, hof (l.wouldDrop_ledgers pkt)⟩
    | setEnabled enabled => exact .inr ⟨by simp, rfl, rfl, rfl⟩
    | setNodeNum nodeNum => exact .inr ⟨by simp, rfl, rfl, rfl⟩
    | setBootMs bootMs => exact .inr ⟨by simp, rfl, rfl, rfl⟩
  | warmedUp nowMs => exact .inr ⟨by simp, rfl, rfl, rfl⟩
  | youngTableFull nowMs => exact .inr ⟨by simp, rfl, rfl, rfl⟩
  | coverageGate nowMs => exact .inr ⟨by simp, hof (l.coverageGate_ledgers nowMs)⟩
  | takeEvent => exact .inr ⟨by simp, rfl, rfl, rfl⟩
  | takeAnnounce => exact .inr ⟨by simp, rfl, rfl, rfl⟩
  | setAnnounceBroadcast enabled => exact .inr ⟨by simp, rfl, rfl, rfl⟩

theorem targeted_inductive (dest : UInt32) :
    (targeted dest).Inductive (Targeted.Agrees dest) where
  init := by
    rintro s ⟨⟨nodeNum, hl⟩, -⟩
    refine ⟨?_, fun e he => ?_, fun e he => ?_⟩
    · rw [hl]
      exact ⟨List.nodup_nil, List.nodup_nil, List.nodup_nil⟩
    · rw [hl] at he
      cases he
    · rw [hl] at he
      cases he
  step := by
    rintro s c s' h rfl
    rcases c.ledgers s.lim with ⟨pkt, proximity, rfl⟩ | ⟨hother, horig, hrelays, hdests⟩
    · exact h.shouldDrop pkt proximity
    · refine h.keep ?_ (.inl ?_) fun _ => ?_
      · have hnd := h.distinct
        exact ⟨horig ▸ hnd.originators, hrelays ▸ hnd.relays, hdests ▸ hnd.dests⟩
      · unfold destination
        rw [hdests]
      · unfold Targeted.follow
        split
        · exact absurd rfl (hother _ _)
        · rfl

/-- A packet that trips its destination. -/
theorem Targeted.Agrees.trips (h : s.Agrees dest) {pkt : RateLimitPacket}
    {proximity : UInt32 → GraphProximity} (hdest : pkt.toNode = dest)
    (hbounded : s.lim.overcounts pkt = false) (htrips : s.lim.destTrips pkt proximity = true) :
    DEST_MIN_SENDERS ≤ (s.charged dest pkt).dedup.length := by
  subst hdest
  have htouch : s.lim.touchesDest pkt = true := by
    unfold destTrips at htrips
    exact (Bool.and_eq_true_iff.mp htrips).1
  rcases shouldDrop_destination s.lim pkt proximity h.distinct htouch with
    ⟨-, hnot⟩ | ⟨e, he, -, -, hiff⟩
  · rw [hnot] at htrips
    cases htrips
  · obtain ⟨hfree, hwin, henough, -⟩ := checkedDest_trips (hiff.mp htrips)
    have hmany : DEST_MIN_SENDERS ≤ (sentRow e pkt).senders.rows.length := by
      rcases henough with hmany | hcount
      · exact hmany
      · -- the largest count takes a row that has been charged before
        by_contra hfew
        cases hrow : s.lim.destination pkt.toNode with
        | none =>
          rw [hrow, Option.getD_none] at he
          have hle := destCharge_le pkt
          rw [he, show (newDest pkt.toNode pkt.nowMs).dest.count.toNat = 0 from rfl] at hcount
          omega
        | some e' =>
          rw [hrow, Option.getD_some] at he
          unfold overcounts at hbounded
          rw [htouch, hrow, Option.any_some, ← he, hfree, hwin] at hbounded
          simp [Nat.lt_of_not_le hfew, hcount] at hbounded
    refine Nat.le_trans hmany ?_
    refine (List.subperm_of_subset (sentRow_nodup (h.row_nodup he)) fun x hx => ?_).length_le
    rw [List.mem_dedup]
    exact h.sentRow_mem he (fun _ => hfree) hx

end

/-- In every run whose packets leave the count of their destination below the
largest one (or have enough senders): no id has two rows; a row that is limited
when a packet comes keeps its slot; and a packet trips its destination only
when enough distinct senders were charged to it in its current window. -/
theorem bans_survive {dest : UInt32} {s : Targeted}
    (hr : ((targeted dest).restrict Call.Bounded).Reachable s) (pkt : RateLimitPacket)
    (hbounded : s.lim.overcounts pkt = false) (proximity : UInt32 → GraphProximity) :
    s.lim.DistinctRows ∧
      (∀ (i : Nat) e, s.lim.originators.rows[i]? = some e → originatorRowLimited pkt.nowMs e = true →
        ∃ e' : OriginatorEntry, (s.lim.shouldDrop pkt proximity).1.originators.rows[i]? = some e' ∧
          e'.nodeId = e.nodeId) ∧
      (∀ (i : Nat) e, s.lim.relays.rows[i]? = some e → relayRowLimited pkt.nowMs e = true →
        ∃ e' : RelayEntry, (s.lim.shouldDrop pkt proximity).1.relays.rows[i]? = some e' ∧
          e'.nodeId = e.nodeId) ∧
      (∀ (i : Nat) e, s.lim.dests.rows[i]? = some e → destRowLimited pkt.nowMs e = true →
        ∃ e' : DestEntry, (s.lim.shouldDrop pkt proximity).1.dests.rows[i]? = some e' ∧
          e'.nodeId = e.nodeId) ∧
      (pkt.toNode = dest → s.lim.destTrips pkt proximity = true →
        DEST_MIN_SENDERS ≤ (s.charged dest pkt).dedup.length) := by
  have h : s.Agrees dest := by
    obtain ⟨s₀, cs, hinit, hrun⟩ := hr
    refine hrun.preserves (fun s c t hs hstep => ?_) ((targeted_inductive dest).init s₀ hinit)
    exact (targeted_inductive dest).step s c t hs hstep.2
  obtain ⟨⟨_, horig⟩, ⟨_, hrelays⟩, ⟨_, hdests⟩⟩ := shouldDrop_pressed pkt proximity h.distinct
  exact ⟨h.distinct, fun i e he hl => horig.keeps he hl, fun i e he hl => hrelays.keeps he hl,
    fun i e he hl => hdests.keeps he hl, fun hdest htrips => h.trips hdest hbounded htrips⟩

/-! ## One sender -/

/-- A position of node `id` for node 9. -/
def positionTo9 (id : UInt32) : RateLimitPacket :=
  { samplePacket 0 with
    fromNode := id, toNode := 9, decodedPortnum := some POSITION_APP, rebroadcastCandidate := true }

/-- The senders of node 9 when a position is heard. -/
def sendTo9 (s : Targeted) (id : UInt32) : Targeted :=
  let c : Call := .op (.shouldDrop (positionTo9 id) noGraph)
  ⟨c.run s.lim, s.follow 9 c⟩

def startTo9 : Targeted := ⟨.withNodeNum 1, []⟩

/-- Nineteen positions of three senders. -/
def threeSenders : List UInt32 := (List.range 19).map fun i => UInt32.ofNat (2 + i % 3)

theorem threeSenders_reachable :
    ((targeted 9).restrict Call.Bounded).Reachable (threeSenders.foldl sendTo9 startTo9) := by
  have hstep : ∀ (s : Targeted) (id : UInt32), s.lim.overcounts (positionTo9 id) = false →
      ∃ c, ((targeted 9).restrict Call.Bounded).step s c (sendTo9 s id) := by
    intro s id h
    refine ⟨.op (.shouldDrop (positionTo9 id) noGraph), ?_, rfl⟩
    intro pkt proximity heq
    simp only [Call.op.injEq, Op.shouldDrop.injEq] at heq
    rw [← heq.1]
    exact h
  have hstart : ((targeted 9).restrict Call.Bounded).Reachable startTo9 :=
    ⟨startTo9, [], ⟨⟨1, rfl⟩, rfl⟩, .nil _⟩
  exact LTS.Reachable.foldl hstep hstart (by decide +kernel)

/-- The twentieth position trips the bucket, with three senders on record. -/
theorem bans_survive_sample :
    (threeSenders.foldl sendTo9 startTo9).lim.destTrips (positionTo9 2) noGraph = true ∧
      DEST_MIN_SENDERS ≤
        ((threeSenders.foldl sendTo9 startTo9).charged 9 (positionTo9 2)).dedup.length := by
  have htrips : (threeSenders.foldl sendTo9 startTo9).lim.destTrips (positionTo9 2) noGraph = true := by
    decide +kernel
  exact ⟨htrips, (bans_survive threeSenders_reachable (positionTo9 2) (by decide +kernel)
    noGraph).2.2.2.2 rfl htrips⟩

/-- The row of node 9 after `k` positions of node 2 alone. -/
def countedRow (k : Nat) : DestEntry := ⟨9, ⟨0, UInt32.ofNat k, false, DEST_CLEAR⟩, ⟨[2], by decide⟩⟩

/-- Node 2 has sent `k` positions to node 9, all in one window. -/
structure Counted (k : Nat) (s : Targeted) : Prop where
  reachable : (targeted 9).Reachable s
  row : s.lim.destination 9 = some (countedRow k)
  node : s.lim.nodeNum = 1 ∧ s.lim.enabled = true
  senders : ∀ x ∈ s.senders, x = 2

/-- The window of the first position is still on. -/
theorem windows_counted : ((positionTo9 2).nowMs - 0).toNat / WINDOW_MS = 0 := by decide

theorem sentRow_counted (k : Nat) : sentRow (countedRow k) (positionTo9 2) = countedRow k := by
  have hwin : (countedRow k).dest.windows (positionTo9 2).nowMs = 0 := windows_counted
  unfold sentRow
  rw [if_pos (by decide), rollDestSenders_current hwin]
  rfl

/-- One more position, below the largest count. -/
theorem chargedDestRow_counted {k : Nat} (hk : k + 1 < 4294967295) :
    (checkedDest (countedRow k) (positionTo9 2)).2.2 = none ∧
      chargedDestRow (countedRow k) (positionTo9 2) = countedRow (k + 1) := by
  have hwin : ({ (countedRow k).dest with clearThreshold := DEST_CLEAR } : BucketState).windows
      (positionTo9 2).nowMs = 0 := windows_counted
  have hnat : ∀ m, m < 4294967296 → (UInt32.ofNat m).toNat = m := fun m hm => Nat.mod_eq_of_lt hm
  have hcount : BucketState.saturatingAdd (UInt32.ofNat k) 1 = UInt32.ofNat (k + 1) := by
    apply UInt32.toNat_inj.mp
    rw [saturatingAdd_toNat, hnat k (by omega), UInt32.toNat_one, hnat (k + 1) (by omega)]
    omega
  have hbelow : decide ((0xFFFFFFFF : UInt32) ≤ UInt32.ofNat (k + 1)) = false := by
    rw [decide_eq_false_iff_not, UInt32.le_iff_toNat_le, hnat (k + 1) (by omega), Nat.not_le]
    exact hk
  have hchecked : checkedDest (countedRow k) (positionTo9 2) =
      (⟨0, UInt32.ofNat (k + 1), false, DEST_CLEAR⟩, false, none) := by
    unfold checkedDest BucketState.checkAndUpdateBucket
    rw [sentRow_counted, roll_current hwin]
    have hcharge : destCharge (positionTo9 2) = 1 := by decide
    have htrip : (if (countedRow k).dest.limited ||
        decide (DEST_MIN_SENDERS ≤ (countedRow k).senders.rows.length) then DEST_TRIP
        else (0xFFFFFFFF : UInt32)) = 0xFFFFFFFF := rfl
    rw [htrip, hcharge]
    change (if (!false && decide ((0xFFFFFFFF : UInt32) ≤
      BucketState.saturatingAdd (UInt32.ofNat k) 1)) = true then _ else _) = _
    rw [hcount, hbelow, if_neg (by decide)]
    dsimp only
    rw [show (countedRow k).dest.count = UInt32.ofNat k from rfl, hcount]
    rfl
  refine ⟨by rw [hchecked], ?_⟩
  unfold chargedDestRow
  rw [hchecked, sentRow_counted]
  rfl

/-- The position that reaches the largest count trips the bucket. -/
theorem checkedDest_counted :
    (checkedDest (countedRow 4294967294) (positionTo9 2)).2.2 = some (.trip 9 .dest) := by
  decide +kernel

theorem touches_counted {k : Nat} {s : Targeted} (h : Counted k s) :
    s.lim.touchesDest (positionTo9 2) = true := by
  unfold touchesDest ignores
  rw [h.node.1, h.node.2]
  decide

/-- Another position of the same sender. -/
theorem Counted.next {k : Nat} {s : Targeted} (h : Counted k s) (hk : k + 1 < 4294967295) :
    Counted (k + 1) (sendTo9 s 2) := by
  have hagrees := (targeted_inductive 9).reachable h.reachable
  have hreach : (targeted 9).Reachable (sendTo9 s 2) := h.reachable.step rfl
  obtain ⟨hnotrip, hrow⟩ := chargedDestRow_counted hk
  have hafter : (s.lim.shouldDrop (positionTo9 2) noGraph).1.destination 9 =
      some (countedRow (k + 1)) := by
    rcases shouldDrop_destination s.lim (positionTo9 2) noGraph hagrees.distinct
        (touches_counted h) with ⟨⟨hnone, -⟩, -⟩ | ⟨e, he, -, hsome, -⟩
    · rw [show (positionTo9 2).toNode = 9 from rfl, h.row] at hnone
      cases hnone
    · rw [show (positionTo9 2).toNode = 9 from rfl, h.row, Option.getD_some] at he
      rw [he, hrow] at hsome
      exact hsome
  refine ⟨hreach, hafter, ?_, fun x hx => ?_⟩
  · obtain ⟨hnode, henabled⟩ := s.lim.shouldDrop_who (positionTo9 2) noGraph
    exact ⟨hnode.trans h.node.1, henabled.trans h.node.2⟩
  · change x ∈ s.follow 9 (.op (.shouldDrop (positionTo9 2) noGraph)) at hx
    unfold Targeted.follow at hx
    simp only [hafter, Option.isNone_some, Bool.false_eq_true, if_false] at hx
    have hwindow : ∀ y ∈ s.window 9 (positionTo9 2).nowMs, y = 2 := by
      intro y hy
      unfold Targeted.window at hy
      split at hy
      · cases hy
      · split at hy
        · exact h.senders y hy
        · cases hy
    split at hx
    · split at hx
      · cases hx
      · unfold Targeted.charged at hx
        split at hx
        · rcases List.mem_cons.mp hx with rfl | hx
          · rfl
          · exact hwindow x hx
        · exact hwindow x hx
    · exact h.senders x hx

theorem counted_exists : ∀ k, k < 4294967294 → ∃ s, Counted (k + 1) s
  | 0, _ => by
    have hreach : (targeted 9).Reachable (sendTo9 startTo9 2) :=
      LTS.Reachable.step ⟨startTo9, [], ⟨⟨1, rfl⟩, rfl⟩, .nil _⟩ rfl
    have hsenders : (sendTo9 startTo9 2).senders = [2] := by decide +kernel
    refine ⟨sendTo9 startTo9 2, hreach, by decide +kernel, by decide +kernel, fun x hx => ?_⟩
    rw [hsenders] at hx
    exact List.mem_singleton.mp hx
  | k + 1, hk => by
    obtain ⟨s, hs⟩ := counted_exists k (by omega)
    exact ⟨sendTo9 s 2, hs.next (by omega)⟩

/-- Node 2 alone trips the bucket of node 9 with its 4294967295th position. -/
theorem one_sender_trips :
    ∃ s : Targeted, (targeted 9).Reachable s ∧
      s.lim.destTrips (positionTo9 2) noGraph = true ∧
      (s.charged 9 (positionTo9 2)).dedup.length < DEST_MIN_SENDERS := by
  obtain ⟨s, hs⟩ := counted_exists 4294967293 (by decide)
  have hagrees := (targeted_inductive 9).reachable hs.reachable
  refine ⟨s, hs.reachable, ?_, ?_⟩
  · rcases shouldDrop_destination s.lim (positionTo9 2) noGraph hagrees.distinct
        (touches_counted hs) with ⟨⟨hnone, -⟩, -⟩ | ⟨e, he, hid, -, hiff⟩
    · rw [show (positionTo9 2).toNode = 9 from rfl, hs.row] at hnone
      cases hnone
    · rw [show (positionTo9 2).toNode = 9 from rfl, hs.row, Option.getD_some] at he
      rw [hiff, he]
      exact checkedDest_counted
  · have hall : ∀ x ∈ s.charged 9 (positionTo9 2), x = 2 := by
      intro x hx
      unfold Targeted.charged at hx
      rw [if_pos (by decide)] at hx
      rcases List.mem_cons.mp hx with rfl | hx
      · rfl
      · unfold Targeted.window at hx
        split at hx
        · cases hx
        · split at hx
          · exact hs.senders x hx
          · cases hx
    have hsub : (s.charged 9 (positionTo9 2)).dedup ⊆ [2] := by
      intro x hx
      rw [List.mem_dedup] at hx
      rw [hall x hx]
      exact List.mem_cons_self
    have hle := (List.subperm_of_subset (List.nodup_dedup _) hsub).length_le
    exact Nat.lt_of_le_of_lt hle (by decide)

end Meshrustic.RateLimit
