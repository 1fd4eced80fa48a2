import Meshrustic.Core.LTS
import Meshrustic.Topology.Observe

/-!
# Who a relay byte names (`mesh-routing/src/relay_identity.rs`)

A relayed frame names its relayer by the low byte of its id. The cache remembers
the nodes heard under each byte: up to sixteen buckets of up to four entries. A
bucket that has no room for a fifth node notes the time, and while that mark is
fresh the byte names nobody; entries expire after `RELAY_ID_CACHE_TTL_MS`.

`remember_relay_identity` and `prune_relay_identity_cache` are the labels of
`identityCalls`; a ghost list keeps what was passed.

Results:
* `identityCalls_tracks`: as long as no call loses a node, each node that was
  passed lately under a byte has an entry in its bucket, or the mark of the bucket
  is at least as recent.
* `resolve_unambiguous`: then a byte resolves to the only node passed lately.
* `resolve_misnames`: the two ways of losing one. A bucket whose entries have all
  expired is dropped with its mark, and a cache whose sixteen buckets are taken
  forgets the node at once; the next node that ends in the byte is then taken for the
  only one.

The price of the received frame comes from the `F32` oracle; `packetEtxFixed`
stands for `(etx * 100.0).clamp(1.0, 65535.0) as u16`.
-/
namespace Meshrustic.Topology

open Meshrustic.Graph

def MAX_RELAY_IDENTITY_ENTRIES : Nat := 16
def RELAY_ID_CACHE_TTL_MS : UInt32 := 600000
def MAX_CANDIDATES_PER_BUCKET : Nat := 4

/-- mirrors crates/mesh-routing/src/relay_identity.rs:11-15 -/
structure RelayIdentityEntry where
  nodeId : UInt32
  lastHeardMs : UInt32
  deriving DecidableEq

/-- mirrors crates/mesh-routing/src/relay_identity.rs:17-23 -/
structure RelayIdentityBucket where
  relayId : UInt8
  entries : Table MAX_CANDIDATES_PER_BUCKET RelayIdentityEntry
  overflowAt : Option UInt32
  deriving DecidableEq

/-- mirrors crates/mesh-routing/src/relay_identity.rs:25-28 -/
structure RelayIdentityCache where
  buckets : Table MAX_RELAY_IDENTITY_ENTRIES RelayIdentityBucket

namespace RelayIdentityBucket

def fresh (relayByte : UInt8) : RelayIdentityBucket where
  relayId := relayByte
  entries := .empty
  overflowAt := none

variable (b : RelayIdentityBucket)

/-- mirrors crates/mesh-routing/src/relay_identity.rs:221-234 -/
def pruneBucketEntries (nowMs : UInt32) : RelayIdentityBucket :=
  { b with
    entries := Table.swapOut (fun e => RELAY_ID_CACHE_TTL_MS < nowMs - e.lastHeardMs)
      b.entries.rows.length 0 b.entries }

/-- The node's entry is brought up to date or added; where there is no room for it,
the bucket notes the time.
mirrors crates/mesh-routing/src/relay_identity.rs:83-99 -/
def note (nodeId nowMs : UInt32) : RelayIdentityBucket :=
  match b.entries.rows.findIdx? fun e => e.nodeId == nodeId with
  | some i => { b with entries := b.entries.set i ⟨nodeId, nowMs⟩ }
  | none =>
    match b.entries.push ⟨nodeId, nowMs⟩ with
    | some entries => { b with entries := entries }
    | none => { b with overflowAt := some nowMs }

/-- The mark still says that a node was left out. -/
def marked (nowMs : UInt32) : Bool :=
  b.overflowAt.any fun mark => nowMs - mark ≤ RELAY_ID_CACHE_TTL_MS

/-- The one node whose entry has not expired; with two of them, none.
mirrors crates/mesh-routing/src/relay_identity.rs:168-179 -/
def onlyFresh (nowMs : UInt32) : List RelayIdentityEntry → Option UInt32 → Option UInt32
  | [], found => found
  | entry :: entries, found =>
    if RELAY_ID_CACHE_TTL_MS < nowMs - entry.lastHeardMs then onlyFresh nowMs entries found
    else if found.any fun id => id != entry.nodeId then none
    else onlyFresh nowMs entries (some entry.nodeId)

end RelayIdentityBucket

namespace RelayIdentityCache

/-- mirrors crates/mesh-routing/src/relay_identity.rs:37-50 -/
def new : RelayIdentityCache := ⟨.empty⟩

variable (c : RelayIdentityCache)

/-- mirrors crates/mesh-routing/src/relay_identity.rs:217-219 -/
def findBucket (relayByte : UInt8) : Option Nat :=
  c.buckets.rows.findIdx? fun b => b.relayId == relayByte

/-- `iter().find(|b| b.relay_id == relay_byte)` -/
def bucketOf (relayByte : UInt8) : Option RelayIdentityBucket :=
  lookup RelayIdentityBucket.relayId c.buckets.rows relayByte

/-- The index of the byte's bucket, which is added if there is room for it.
mirrors crates/mesh-routing/src/relay_identity.rs:65-79 -/
def bucketFor (relayByte : UInt8) :
    Option (Nat × Table MAX_RELAY_IDENTITY_ENTRIES RelayIdentityBucket) :=
  match c.findBucket relayByte with
  | some i => some (i, c.buckets)
  | none => (c.buckets.push (.fresh relayByte)).map fun buckets => (c.buckets.rows.length, buckets)

/-- mirrors crates/mesh-routing/src/relay_identity.rs:56-100 -/
def rememberRelayIdentity (nodeId : UInt32) (relayByte : UInt8) (nowMs : UInt32) :
    RelayIdentityCache :=
  if relayByte == 0 || nodeId == 0 || isPlaceholderNode nodeId || lowByte nodeId != relayByte then c
  else
    match c.bucketFor relayByte with
    | none => c
    | some (i, buckets) =>
      match buckets.rows[i]? with
      | none => c
      | some b => ⟨buckets.set i ((b.pruneBucketEntries nowMs).note nodeId nowMs)⟩

/-- mirrors crates/mesh-routing/src/relay_identity.rs:102-116 -/
def pruneRelayIdentityCache (nowMs : UInt32) : RelayIdentityCache :=
  ⟨Table.sweep (fun b => b.pruneBucketEntries nowMs) (fun b => b.entries.rows.isEmpty)
    c.buckets.rows.length 0 c.buckets⟩

end RelayIdentityCache

section Resolve

variable {Etx : Type} (F : F32 Etx) (packetEtxFixed : Etx → UInt16)

/-- Which of several neighbours is as strong as the received frame; at equal
distances nobody is (id 0).
mirrors crates/mesh-routing/src/relay_identity.rs:236-276 -/
def pickBestDirectCandidate (direct : List Edge) (rssi : Int16) (snr : Int8) (modemPreset : UInt8) :
    UInt32 :=
  match direct with
  | [] => 0
  | [only] => only.toNode
  | first :: _ =>
    match normalizeRxSignal rssi snr with
    | none => 0
    | some (rssi, snr) =>
      let packetEtx := packetEtxFixed (F.calculateEtx rssi.toInt32 snr modemPreset)
      let picked := direct.foldl
        (fun (best : UInt32 × UInt16 × Bool) e =>
          let diff := if packetEtx ≤ e.etxFixed then e.etxFixed - packetEtx else packetEtx - e.etxFixed
          if diff < best.2.1 then (e.toNode, diff, false)
          else if diff == best.2.1 && e.toNode != best.1 then (best.1, best.2.1, true)
          else best)
        (first.toNode, 0xFFFF, false)
      if picked.2.2 then 0 else picked.1

/-- Our measured links to nodes that end in the byte. -/
def directCandidates (relayByte : UInt8) (edges : EdgeStore) (myNode : UInt32) : List Edge :=
  match edges.findNode myNode with
  | none => []
  | some me => me.edges.rows.filter fun e =>
      lowByte e.toNode == relayByte && !isPlaceholderNode e.toNode && e.source == .reported

/-- mirrors crates/mesh-routing/src/relay_identity.rs:118-181 -/
def RelayIdentityCache.resolveRelayIdentity (c : RelayIdentityCache) (relayByte : UInt8)
    (rssi : Int16) (snr : Int8) (edges : EdgeStore) (myNode nowMs : UInt32) (modemPreset : UInt8) :
    Option UInt32 :=
  if relayByte == 0 then none
  else
    let bucket := c.bucketOf relayByte
    if bucket.any fun b => b.marked nowMs then none
    else
      let direct := directCandidates relayByte edges myNode
      if MAX_CANDIDATES_PER_BUCKET < direct.length then none
      else if !direct.isEmpty then
        let best := pickBestDirectCandidate F packetEtxFixed direct rssi snr modemPreset
        if best != 0 then some best else none
      else bucket.bind fun b => RelayIdentityBucket.onlyFresh nowMs b.entries.rows none

end Resolve

/-! ## The calls -/

/-- What is passed to `remember_relay_identity`. -/
structure Remembered where
  nodeId : UInt32
  relayByte : UInt8
  nowMs : UInt32
  deriving DecidableEq

inductive IdentityCall where
  | remember (r : Remembered)
  | prune (nowMs : UInt32)

def IdentityCall.nowMs : IdentityCall → UInt32
  | .remember r => r.nowMs
  | .prune nowMs => nowMs

structure IdentityState where
  cache : RelayIdentityCache
  nowMs : UInt32
  /-- ghost: what was passed to `remember_relay_identity`, the last first -/
  passed : List Remembered

def IdentityState.next (s : IdentityState) : IdentityCall → IdentityState
  | .remember r => {
      cache := s.cache.rememberRelayIdentity r.nodeId r.relayByte r.nowMs
      nowMs := r.nowMs
      passed := r :: s.passed }
  | .prune nowMs => { s with cache := s.cache.pruneRelayIdentityCache nowMs, nowMs := nowMs }

/-- The calls on a new cache, at nondecreasing times. -/
def identityCalls : LTS IdentityState IdentityCall where
  init s := s.cache = .new ∧ s.passed = []
  step s l t := s.nowMs ≤ l.nowMs ∧ t = s.next l

/-- `τ` lies at most the lifetime of an entry before `t`. -/
def Within (t τ : UInt32) : Prop := τ ≤ t ∧ t - τ ≤ RELAY_ID_CACHE_TTL_MS

instance (t τ : UInt32) : Decidable (Within t τ) := inferInstanceAs (Decidable (_ ∧ _))

/-- The call loses no node that ends in `byte`: one that is passed comes with that byte
and has a bucket to go to, and no bucket is dropped while its mark is fresh. -/
def Keeps (byte : UInt8) (s : IdentityState) : IdentityCall → Prop
  | .remember r => byte ≠ 0 → lowByte r.nodeId = byte →
      r.relayByte = byte ∧ isPlaceholderNode r.nodeId = false ∧
        ((s.cache.findBucket byte).isSome ∨
          s.cache.buckets.rows.length < MAX_RELAY_IDENTITY_ENTRIES)
  | .prune nowMs => ∀ b, s.cache.bucketOf byte = some b →
      (∀ e ∈ b.entries.rows, RELAY_ID_CACHE_TTL_MS < nowMs - e.lastHeardMs) →
        b.marked nowMs = false

/-- What is later than a moment within the lifetime is within it too, and so was the moment then. -/
theorem Within.between {t u τ : UInt32} (h : Within t τ) (hτ : τ ≤ u) (hu : u ≤ t) :
    Within t u ∧ Within u τ := by
  obtain ⟨hle, hage⟩ := h
  simp only [Within, UInt32.le_iff_toNat_le, UInt32.toNat_sub_of_le _ _ hle,
    UInt32.toNat_sub_of_le _ _ hτ, UInt32.toNat_sub_of_le _ _ hu] at *
  omega

/-! ## Buckets -/

namespace RelayIdentityBucket

variable {b : RelayIdentityBucket} {m nowMs τ : UInt32}

/-- The bucket accounts for a node passed at `τ`: its entry, or the mark, is no older. -/
def Covers (b : RelayIdentityBucket) (m τ : UInt32) : Prop :=
  (∃ mark, b.overflowAt = some mark ∧ τ ≤ mark) ∨
    ∃ e ∈ b.entries.rows, e.nodeId = m ∧ τ ≤ e.lastHeardMs

@[simp] theorem pruneBucketEntries_relayId : (b.pruneBucketEntries nowMs).relayId = b.relayId := rfl

@[simp] theorem pruneBucketEntries_overflowAt :
    (b.pruneBucketEntries nowMs).overflowAt = b.overflowAt := rfl

theorem mem_pruneBucketEntries {e : RelayIdentityEntry} :
    e ∈ (b.pruneBucketEntries nowMs).entries.rows ↔
      e ∈ b.entries.rows ∧ ¬ RELAY_ID_CACHE_TTL_MS < nowMs - e.lastHeardMs := by
  unfold pruneBucketEntries
  rw [Table.mem_swapOut, decide_eq_false_iff_not]

/-- What a bucket accounts for lately outlives the pruning. -/
theorem Covers.prune (h : b.Covers m τ) (hτ : Within nowMs τ)
    (hpast : ∀ e ∈ b.entries.rows, e.lastHeardMs ≤ nowMs) :
    (b.pruneBucketEntries nowMs).Covers m τ := by
  rcases h with hmark | ⟨e, he, hm, hle⟩
  · exact .inl hmark
  · have hfresh := (hτ.between hle (hpast e he)).1.2
    exact .inr ⟨e, mem_pruneBucketEntries.mpr ⟨he, UInt32.not_lt.mpr hfresh⟩, hm, hle⟩

@[simp] theorem note_relayId : (b.note m nowMs).relayId = b.relayId := by
  unfold note
  cases b.entries.rows.findIdx? fun e => e.nodeId == m with
  | some i => rfl
  | none => cases b.entries.push ⟨m, nowMs⟩ <;> rfl

/-- A call overwrites the node's entry, adds one, or marks the bucket. -/
theorem note_cases (b : RelayIdentityBucket) (m nowMs : UInt32) :
    (∃ i x, b.entries.rows[i]? = some x ∧ x.nodeId = m ∧
      (b.note m nowMs).overflowAt = b.overflowAt ∧
        (b.note m nowMs).entries.rows = b.entries.rows.set i ⟨m, nowMs⟩) ∨
    ((b.note m nowMs).overflowAt = b.overflowAt ∧
      (b.note m nowMs).entries.rows = b.entries.rows ++ [⟨m, nowMs⟩]) ∨
    ((b.note m nowMs).overflowAt = some nowMs ∧
      (b.note m nowMs).entries.rows = b.entries.rows) := by
  unfold note
  cases hfind : b.entries.rows.findIdx? fun e => e.nodeId == m with
  | some i =>
    obtain ⟨hi, hm, -⟩ := List.findIdx?_eq_some_iff_getElem.mp hfind
    exact .inl ⟨i, _, List.getElem?_eq_getElem hi, by simpa using hm, rfl, rfl⟩
  | none =>
    right
    dsimp only
    cases hpush : b.entries.push ⟨m, nowMs⟩ with
    | some entries => exact .inl ⟨rfl, Table.push_rows hpush⟩
    | none => exact .inr ⟨rfl, rfl⟩

theorem mem_note {e : RelayIdentityEntry} (he : e ∈ (b.note m nowMs).entries.rows) :
    e ∈ b.entries.rows ∨ e = ⟨m, nowMs⟩ := by
  obtain ⟨i, x, -, -, -, hrows⟩ | ⟨-, hrows⟩ | ⟨-, hrows⟩ := note_cases b m nowMs <;>
    rw [hrows] at he
  · exact List.mem_or_eq_of_mem_set he
  · simpa using he
  · exact .inl he

theorem note_mark {mark : UInt32} (h : (b.note m nowMs).overflowAt = some mark) :
    b.overflowAt = some mark ∨ mark = nowMs := by
  obtain ⟨i, x, -, -, hmark, -⟩ | ⟨hmark, -⟩ | ⟨hmark, -⟩ := note_cases b m nowMs <;>
    rw [hmark] at h
  · exact .inl h
  · exact .inl h
  · exact .inr (Option.some.inj h).symm

/-- The node just passed is accounted for. -/
theorem note_covers_self : (b.note m nowMs).Covers m nowMs := by
  obtain ⟨i, x, hx, -, -, hrows⟩ | ⟨-, hrows⟩ | ⟨hmark, -⟩ := note_cases b m nowMs
  · obtain ⟨hi, -⟩ := List.getElem?_eq_some_iff.mp hx
    exact .inr ⟨⟨m, nowMs⟩, hrows ▸ List.mem_set hi _, rfl, UInt32.le_refl _⟩
  · exact .inr ⟨⟨m, nowMs⟩, by simp [hrows], rfl, UInt32.le_refl _⟩
  · exact .inl ⟨nowMs, hmark, UInt32.le_refl _⟩

/-- The others stay accounted for. -/
theorem Covers.note {m' : UInt32} (h : b.Covers m τ) (hτ : τ ≤ nowMs) :
    (b.note m' nowMs).Covers m τ := by
  obtain ⟨i, x, hx, hxm, hmark, hrows⟩ | ⟨hmark, hrows⟩ | ⟨hmark, hrows⟩ := note_cases b m' nowMs
  · rcases h with hold | ⟨e, he, hm, hle⟩
    · exact .inl (hmark ▸ hold)
    · obtain ⟨hi, -⟩ := List.getElem?_eq_some_iff.mp hx
      have hnew : (⟨m', nowMs⟩ : RelayIdentityEntry) ∈ (b.note m' nowMs).entries.rows :=
        hrows ▸ List.mem_set hi _
      by_cases hex : e = x
      -- its own entry was brought up to date
      · exact .inr ⟨⟨m', nowMs⟩, hnew, by rw [← hm, hex, hxm], hτ⟩
      · by_cases hen : e = ⟨m', nowMs⟩
        · exact .inr ⟨e, hen ▸ hnew, hm, hle⟩
        · exact .inr ⟨e, hrows ▸ (mem_set_other hx hen hex).mpr he, hm, hle⟩
  · rcases h with hold | ⟨e, he, hm, hle⟩
    · exact .inl (hmark ▸ hold)
    · exact .inr ⟨e, by simp [hrows, he], hm, hle⟩
  · exact .inl ⟨nowMs, hmark, hτ⟩

end RelayIdentityBucket

/-! ## The cache -/

namespace RelayIdentityCache

variable {c : RelayIdentityCache} {nodeId nowMs : UInt32} {relayByte k : UInt8}

/-- Each byte has one bucket. -/
def Distinct (c : RelayIdentityCache) : Prop := (c.buckets.rows.map (·.relayId)).Nodup

/-- The code accepts the node under this byte. -/
def Accepted (nodeId : UInt32) (relayByte : UInt8) : Prop :=
  relayByte ≠ 0 ∧ isPlaceholderNode nodeId = false ∧ lowByte nodeId = relayByte

theorem accepted_nonzero (h : Accepted nodeId relayByte) : nodeId ≠ 0 := by
  rintro rfl
  exact h.1 h.2.2.symm

/-- A call the code does not accept changes nothing. -/
theorem remember_refused (h : ¬ Accepted nodeId relayByte) :
    c.rememberRelayIdentity nodeId relayByte nowMs = c := by
  unfold rememberRelayIdentity
  rw [if_pos]
  by_contra hguard
  simp only [Bool.or_eq_true, not_or, beq_iff_eq, bne_iff_ne, ne_eq, Bool.not_eq_true,
    Decidable.not_not] at hguard
  obtain ⟨⟨⟨hbyte, -⟩, hplaceholder⟩, hlow⟩ := hguard
  exact h ⟨hbyte, hplaceholder, hlow⟩

/-- An accepted call writes the byte's bucket in place, or behind the others; or there is
no room for it. -/
theorem remember_cases (h : Accepted nodeId relayByte) :
    (∃ i b, c.buckets.rows.findIdx? (fun b => b.relayId == relayByte) = some i ∧
      c.buckets.rows[i]? = some b ∧ c.bucketOf relayByte = some b ∧
      (c.rememberRelayIdentity nodeId relayByte nowMs).buckets.rows =
        c.buckets.rows.set i ((b.pruneBucketEntries nowMs).note nodeId nowMs)) ∨
    (c.bucketOf relayByte = none ∧ c.buckets.rows.length < MAX_RELAY_IDENTITY_ENTRIES ∧
      (c.rememberRelayIdentity nodeId relayByte nowMs).buckets.rows =
        c.buckets.rows ++
          [((RelayIdentityBucket.fresh relayByte).pruneBucketEntries nowMs).note nodeId nowMs]) ∨
    (c.bucketOf relayByte = none ∧ ¬ c.buckets.rows.length < MAX_RELAY_IDENTITY_ENTRIES ∧
      c.rememberRelayIdentity nodeId relayByte nowMs = c) := by
  have hnode := accepted_nonzero h
  obtain ⟨hbyte, hplaceholder, hlow⟩ := h
  unfold rememberRelayIdentity
  rw [if_neg (by simp [hbyte, hnode, hplaceholder, hlow])]
  unfold bucketFor findBucket bucketOf
  cases hfind : c.buckets.rows.findIdx? fun b => b.relayId == relayByte with
  | some i =>
    left
    obtain ⟨hi, -, -⟩ := List.findIdx?_eq_some_iff_getElem.mp hfind
    have hrow := List.getElem?_eq_getElem hi
    have hlookup := findIdx_lookup RelayIdentityBucket.relayId hfind
    refine ⟨i, _, rfl, hrow, hlookup.symm.trans hrow, ?_⟩
    dsimp only
    rw [hrow]
    rfl
  | none =>
    right
    have hlookup : lookup RelayIdentityBucket.relayId c.buckets.rows relayByte = none := by
      refine List.find?_eq_none.mpr fun b hb => ?_
      simpa using List.findIdx?_eq_none_iff.mp hfind b hb
    dsimp only
    cases hpush : c.buckets.push (.fresh relayByte) with
    | some buckets =>
      have hrows := Table.push_rows hpush
      have hle := buckets.le
      rw [hrows, List.length_append, List.length_singleton] at hle
      refine .inl ⟨hlookup, by omega, ?_⟩
      simp [hrows]
    | none =>
      have hfull := Table.push_none hpush
      exact .inr ⟨hlookup, by omega, rfl⟩

theorem remember_distinct (hc : c.Distinct) :
    (c.rememberRelayIdentity nodeId relayByte nowMs).Distinct := by
  by_cases h : Accepted nodeId relayByte
  · unfold Distinct
    obtain ⟨i, b, -, hrow, -, hrows⟩ | ⟨hnone, -, hrows⟩ | ⟨-, -, hsame⟩ :=
      @remember_cases c nodeId nowMs relayByte h
    · rw [hrows, keys_set_same RelayIdentityBucket.relayId hrow (by simp)]
      exact hc
    · have habsent := lookup_eq_none RelayIdentityBucket.relayId hnone
      rw [hrows, List.map_append, List.map_singleton]
      refine List.Nodup.append hc (List.nodup_singleton _) ?_
      rw [List.disjoint_singleton]
      simpa [RelayIdentityBucket.fresh] using habsent
    · rw [hsame]
      exact hc
  · rw [remember_refused h]
    exact hc

/-- The bucket of the byte after an accepted call there is room for. -/
theorem bucketOf_remember (h : Accepted nodeId relayByte)
    (hroom : (c.findBucket relayByte).isSome ∨ c.buckets.rows.length < MAX_RELAY_IDENTITY_ENTRIES) :
    (c.rememberRelayIdentity nodeId relayByte nowMs).bucketOf relayByte =
      some ((((c.bucketOf relayByte).getD (.fresh relayByte)).pruneBucketEntries nowMs).note
        nodeId nowMs) := by
  obtain ⟨i, b, hfind, -, hbucket, hrows⟩ | ⟨hnone, -, hrows⟩ | ⟨hnone, hfull, -⟩ :=
    @remember_cases c nodeId nowMs relayByte h
  · have hkey := lookup_key RelayIdentityBucket.relayId hbucket
    rw [hbucket, bucketOf, hrows]
    exact lookup_set_found RelayIdentityBucket.relayId hfind (by simpa using hkey)
  · rw [hnone, bucketOf, hrows]
    exact lookup_append_new RelayIdentityBucket.relayId hnone (by simp [RelayIdentityBucket.fresh])
  · rcases hroom with hsome | hlt
    · obtain ⟨i, hi⟩ := Option.isSome_iff_exists.mp hsome
      have := findIdx_lookup RelayIdentityBucket.relayId hi
      rw [bucketOf] at hnone
      obtain ⟨hlt, -, -⟩ := List.findIdx?_eq_some_iff_getElem.mp hi
      rw [hnone, List.getElem?_eq_none_iff] at this
      omega
    · exact absurd hlt hfull

theorem bucketOf_remember_other (hk : k ≠ relayByte) :
    (c.rememberRelayIdentity nodeId relayByte nowMs).bucketOf k = c.bucketOf k := by
  by_cases h : Accepted nodeId relayByte
  · obtain ⟨i, b, -, hrow, hbucket, hrows⟩ | ⟨-, -, hrows⟩ | ⟨-, -, hsame⟩ :=
      @remember_cases c nodeId nowMs relayByte h
    · have hkey := lookup_key RelayIdentityBucket.relayId hbucket
      rw [bucketOf, hrows]
      refine lookup_set_same RelayIdentityBucket.relayId hrow (by simp) ?_
      rw [RelayIdentityBucket.note_relayId, RelayIdentityBucket.pruneBucketEntries_relayId, hkey]
      exact hk.symm
    · rw [bucketOf, hrows]
      exact lookup_append_other RelayIdentityBucket.relayId (by simpa [RelayIdentityBucket.fresh] using hk.symm)
    · rw [hsame]
  · rw [remember_refused h]

/-- Up to order, pruning leaves the buckets that still have an entry. -/
theorem prune_perm : (c.pruneRelayIdentityCache nowMs).buckets.rows.Perm
    ((c.buckets.rows.map fun b => b.pruneBucketEntries nowMs).filter
      fun b => !b.entries.rows.isEmpty) := Table.sweep_all

theorem prune_distinct (hc : c.Distinct) : (c.pruneRelayIdentityCache nowMs).Distinct := by
  unfold Distinct
  rw [(prune_perm.map (·.relayId)).nodup_iff]
  refine (List.Sublist.map _ List.filter_sublist).nodup ?_
  rw [List.map_map]
  exact hc

theorem bucketOf_prune (hc : c.Distinct) {b : RelayIdentityBucket} :
    (c.pruneRelayIdentityCache nowMs).bucketOf k = some b ↔
      ∃ b', c.bucketOf k = some b' ∧ b = b'.pruneBucketEntries nowMs ∧ b.entries.rows ≠ [] := by
  unfold bucketOf
  rw [lookup_eq_some_iff RelayIdentityBucket.relayId (prune_distinct hc), prune_perm.mem_iff, List.mem_filter,
    List.mem_map]
  constructor
  · rintro ⟨⟨⟨b', hb', rfl⟩, hne⟩, hkey⟩
    exact ⟨b', (lookup_eq_some_iff RelayIdentityBucket.relayId hc).mpr ⟨hb', hkey⟩, rfl, by simpa using hne⟩
  · rintro ⟨b', hb', rfl, hne⟩
    obtain ⟨hmem, hkey⟩ := (lookup_eq_some_iff RelayIdentityBucket.relayId hc).mp hb'
    exact ⟨⟨⟨b', hmem, rfl⟩, by simpa using hne⟩, hkey⟩

end RelayIdentityCache

/-! ## Runs -/

/-- What a bucket of the byte holds was passed, and is not ahead of the clock. -/
structure RelayIdentityBucket.Known (byte : UInt8) (s : IdentityState) (b : RelayIdentityBucket) :
    Prop where
  named : ∀ e ∈ b.entries.rows, lowByte e.nodeId = byte ∧ isPlaceholderNode e.nodeId = false
  passed : ∀ e ∈ b.entries.rows, ∃ r ∈ s.passed, r.nodeId = e.nodeId ∧ r.nowMs = e.lastHeardMs
  past : ∀ mark, b.overflowAt = some mark → mark ≤ s.nowMs

/-- The bucket of `byte` accounts for what was passed lately. -/
structure IdentityState.Tracks (byte : UInt8) (s : IdentityState) : Prop where
  distinct : s.cache.Distinct
  past : ∀ r ∈ s.passed, r.nowMs ≤ s.nowMs
  known : ∀ b, s.cache.bucketOf byte = some b → b.Known byte s
  covered : byte ≠ 0 → ∀ r ∈ s.passed, lowByte r.nodeId = byte → Within s.nowMs r.nowMs →
    ∃ b, s.cache.bucketOf byte = some b ∧ b.Covers r.nodeId r.nowMs

namespace IdentityState

variable {byte : UInt8} {s : IdentityState}

/-- Entries are no later than the clock. -/
theorem Tracks.entry_past (h : s.Tracks byte) {b : RelayIdentityBucket} (hb : b.Known byte s)
    {e : RelayIdentityEntry} (he : e ∈ b.entries.rows) : e.lastHeardMs ≤ s.nowMs := by
  obtain ⟨r, hr, -, htime⟩ := hb.passed e he
  exact htime ▸ h.past r hr

/-- A node the code does not accept, or of another byte: the bucket is as it was. -/
theorem Tracks.remember_other {r : Remembered} (h : s.Tracks byte) (htime : s.nowMs ≤ r.nowMs)
    (hsame : (s.next (.remember r)).cache.bucketOf byte = s.cache.bucketOf byte)
    (hlow : byte ≠ 0 → lowByte r.nodeId ≠ byte) : (s.next (.remember r)).Tracks byte where
  distinct := RelayIdentityCache.remember_distinct h.distinct
  past r' hr' := by
    rcases List.mem_cons.mp hr' with rfl | hr'
    · exact UInt32.le_refl _
    · exact UInt32.le_trans (h.past r' hr') htime
  known b hb := by
    have hb := h.known b (hsame ▸ hb)
    refine ⟨hb.named, fun e he => ?_, fun mark hm => UInt32.le_trans (hb.past mark hm) htime⟩
    obtain ⟨r', hr', heq⟩ := hb.passed e he
    exact ⟨r', List.mem_cons_of_mem _ hr', heq⟩
  covered hbyte r' hr' hlow' hwithin := by
    rcases List.mem_cons.mp hr' with rfl | hr'
    · exact absurd hlow' (hlow hbyte)
    · rw [hsame]
      exact h.covered hbyte r' hr' hlow' (hwithin.between (h.past r' hr') htime).2

/-- A node of the byte goes into its bucket. -/
theorem Tracks.remember_into {r : Remembered} (h : s.Tracks byte) (htime : s.nowMs ≤ r.nowMs)
    (hr : RelayIdentityCache.Accepted r.nodeId byte) (hbyte : r.relayByte = byte)
    (hroom : (s.cache.findBucket byte).isSome ∨
      s.cache.buckets.rows.length < MAX_RELAY_IDENTITY_ENTRIES) :
    (s.next (.remember r)).Tracks byte := by
  obtain ⟨m, relayByte, now⟩ := r
  dsimp only at hbyte hr htime
  subst hbyte
  have hbucket := @RelayIdentityCache.bucketOf_remember s.cache m now relayByte hr hroom
  -- what the bucket was before, if there was one
  have hold : ((s.cache.bucketOf relayByte).getD (.fresh relayByte)).Known relayByte s := by
    cases hb : s.cache.bucketOf relayByte with
    | some b => exact h.known b hb
    | none =>
      exact ⟨fun e he => absurd he List.not_mem_nil, fun e he => absurd he List.not_mem_nil,
        fun mark hm => by cases hm⟩
  refine ⟨RelayIdentityCache.remember_distinct h.distinct, fun r' hr' => ?_, fun b hb => ?_,
    fun hne r' hr' hlow hwithin => ?_⟩
  · rcases List.mem_cons.mp hr' with rfl | hr'
    · exact UInt32.le_refl _
    · exact UInt32.le_trans (h.past r' hr') htime
  · cases hbucket.symm.trans hb
    refine ⟨fun e he => ?_, fun e he => ?_, fun mark hm => ?_⟩
    · rcases RelayIdentityBucket.mem_note he with he | rfl
      · exact hold.named e (RelayIdentityBucket.mem_pruneBucketEntries.mp he).1
      · exact ⟨hr.2.2, hr.2.1⟩
    · rcases RelayIdentityBucket.mem_note he with he | rfl
      · obtain ⟨r', hr', heq⟩ := hold.passed e (RelayIdentityBucket.mem_pruneBucketEntries.mp he).1
        exact ⟨r', List.mem_cons_of_mem _ hr', heq⟩
      · exact ⟨_, List.mem_cons_self, rfl, rfl⟩
    · rcases RelayIdentityBucket.note_mark hm with hm | rfl
      · exact UInt32.le_trans (hold.past mark hm) htime
      · exact UInt32.le_refl _
  · refine ⟨_, hbucket, ?_⟩
    rcases List.mem_cons.mp hr' with rfl | hr'
    · exact RelayIdentityBucket.note_covers_self
    · obtain ⟨b, hb, hcovers⟩ :=
        h.covered hne r' hr' hlow (hwithin.between (h.past r' hr') htime).2
      rw [hb] at hold ⊢
      exact (hcovers.prune hwithin fun e he =>
        UInt32.le_trans (h.entry_past hold he) htime).note hwithin.1

theorem Tracks.remember {r : Remembered} (h : s.Tracks byte) (htime : s.nowMs ≤ r.nowMs)
    (hkeeps : Keeps byte s (.remember r)) : (s.next (.remember r)).Tracks byte := by
  by_cases hlow : byte ≠ 0 ∧ lowByte r.nodeId = byte
  · obtain ⟨hrelay, hplaceholder, hroom⟩ := hkeeps hlow.1 hlow.2
    exact h.remember_into htime ⟨hlow.1, hplaceholder, hlow.2⟩ hrelay hroom
  · refine h.remember_other htime ?_ fun hne heq => hlow ⟨hne, heq⟩
    by_cases haccepted : RelayIdentityCache.Accepted r.nodeId r.relayByte
    · refine RelayIdentityCache.bucketOf_remember_other fun heq => hlow ?_
      rw [heq]
      exact ⟨haccepted.1, haccepted.2.2⟩
    · exact congrArg (·.bucketOf byte) (RelayIdentityCache.remember_refused haccepted)

/-- Pruning drops no bucket that still accounts for a node. -/
theorem Tracks.prune {nowMs : UInt32} (h : s.Tracks byte) (htime : s.nowMs ≤ nowMs)
    (hkeeps : Keeps byte s (.prune nowMs)) : (s.next (.prune nowMs)).Tracks byte where
  distinct := RelayIdentityCache.prune_distinct h.distinct
  past r hr := UInt32.le_trans (h.past r hr) htime
  known b hb := by
    obtain ⟨b', hb', rfl, -⟩ := (RelayIdentityCache.bucketOf_prune h.distinct).mp hb
    have hold := h.known b' hb'
    refine ⟨fun e he => ?_, fun e he => ?_, fun mark hm => UInt32.le_trans (hold.past mark hm) htime⟩
    · exact hold.named e (RelayIdentityBucket.mem_pruneBucketEntries.mp he).1
    · exact hold.passed e (RelayIdentityBucket.mem_pruneBucketEntries.mp he).1
  covered hne r hr hlow hwithin := by
    change Within nowMs r.nowMs at hwithin
    obtain ⟨b, hb, hcovers⟩ := h.covered hne r hr hlow (hwithin.between (h.past r hr) htime).2
    have hkept := hcovers.prune hwithin fun e he =>
      UInt32.le_trans (h.entry_past (h.known b hb) he) htime
    refine ⟨_, (RelayIdentityCache.bucketOf_prune h.distinct).mpr ⟨b, hb, rfl, fun hnil => ?_⟩, hkept⟩
    rcases hkept with ⟨mark, hmark, hle⟩ | ⟨e, he, -⟩
    -- every entry has expired, so the mark has, too
    · have hstale := hkeeps b hb fun e he => by
        by_contra hfresh
        have := RelayIdentityBucket.mem_pruneBucketEntries.mpr ⟨he, hfresh⟩
        rw [hnil] at this
        cases this
      have hpast := UInt32.le_trans ((h.known b hb).past mark hmark) htime
      have hfresh := (hwithin.between hle hpast).1.2
      rw [RelayIdentityBucket.pruneBucketEntries_overflowAt] at hmark
      simp [RelayIdentityBucket.marked, hmark, hfresh] at hstale
    · rw [hnil] at he
      cases he

end IdentityState

/-- As long as no call loses a node of the byte, its bucket accounts for those passed lately. -/
theorem identityCalls_tracks (byte : UInt8) :
    (identityCalls.restrict (Keeps byte)).Inductive (IdentityState.Tracks byte) where
  init s hs := by
    obtain ⟨hcache, hpassed⟩ := hs
    refine ⟨?_, ?_, ?_, ?_⟩
    · rw [hcache]
      exact List.nodup_nil
    · rw [hpassed]
      simp
    · rw [hcache]
      rintro b ⟨⟩
    · rw [hpassed]
      simp
  step s l t h hs := by
    obtain ⟨hkeeps, htime, rfl⟩ := hs
    cases l with
    | remember r => exact h.remember htime hkeeps
    | prune nowMs => exact h.prune htime hkeeps

/-! ## Resolution -/

theorem RelayIdentityBucket.onlyFresh_some {nowMs n : UInt32} {entries : List RelayIdentityEntry}
    {found : Option UInt32} (h : onlyFresh nowMs entries found = some n) :
    (found = some n ∨ ∃ e ∈ entries, e.nodeId = n ∧ nowMs - e.lastHeardMs ≤ RELAY_ID_CACHE_TTL_MS) ∧
      (∀ id, found = some id → id = n) ∧
      ∀ e ∈ entries, nowMs - e.lastHeardMs ≤ RELAY_ID_CACHE_TTL_MS → e.nodeId = n := by
  induction entries generalizing found with
  | nil =>
    rw [onlyFresh] at h
    subst h
    simp
  | cons entry entries ih =>
    rw [onlyFresh] at h
    split at h
    · rename_i hexpired
      obtain ⟨hfound, hid, hall⟩ := ih h
      refine ⟨hfound.imp_right ?_, hid, ?_⟩
      · rintro ⟨e, he, heq⟩
        exact ⟨e, List.mem_cons_of_mem _ he, heq⟩
      · refine List.forall_mem_cons.mpr ⟨fun hfresh => ?_, hall⟩
        exact absurd hfresh (UInt32.not_le.mpr hexpired)
    · rename_i hfresh
      split at h
      · cases h
      · rename_i hsame
        obtain ⟨-, hid, hall⟩ := ih h
        have hentry : entry.nodeId = n := hid _ rfl
        refine ⟨.inr ⟨entry, List.mem_cons_self, hentry, UInt32.not_lt.mp hfresh⟩, ?_,
          List.forall_mem_cons.mpr ⟨fun _ => hentry, hall⟩⟩
        rintro id rfl
        simpa [hentry] using hsame

section

variable {Etx : Type} {F : F32 Etx} {packetEtxFixed : Etx → UInt16}

/-- Without a measured link of ours to decide by, the bucket decides. -/
theorem resolve_by_bucket {c : RelayIdentityCache} {byte : UInt8} {rssi : Int16} {snr : Int8}
    {edges : EdgeStore} {myNode t n : UInt32} {modemPreset : UInt8}
    (hedges : directCandidates byte edges myNode = [])
    (h : c.resolveRelayIdentity F packetEtxFixed byte rssi snr edges myNode t modemPreset = some n) :
    byte ≠ 0 ∧ ∃ b, c.bucketOf byte = some b ∧ b.marked t = false ∧
      RelayIdentityBucket.onlyFresh t b.entries.rows none = some n := by
  unfold RelayIdentityCache.resolveRelayIdentity at h
  rw [hedges] at h
  split at h
  · cases h
  · rename_i hbyte
    refine ⟨by simpa using hbyte, ?_⟩
    cases hb : c.bucketOf byte with
    | none => simp [hb] at h
    | some b =>
      cases hmarked : b.marked t with
      | true => simp [hb, hmarked] at h
      | false => exact ⟨b, rfl, hmarked, by simpa [hb, hmarked] using h⟩

/-- A byte resolves to the one node that was passed lately, where none was lost and no
measured link of ours goes to a node of that byte. -/
theorem resolve_unambiguous {byte : UInt8} {s : IdentityState}
    (hs : (identityCalls.restrict (Keeps byte)).Reachable s) {t : UInt32} (ht : s.nowMs ≤ t)
    {edges : EdgeStore} {myNode : UInt32}
    (hedges : ∀ me, edges.findNode myNode = some me →
      ∀ e ∈ me.edges.rows, lowByte e.toNode = byte → e.source ≠ .reported)
    {rssi : Int16} {snr : Int8} {modemPreset : UInt8} {n : UInt32}
    (h : s.cache.resolveRelayIdentity F packetEtxFixed byte rssi snr edges myNode t modemPreset =
      some n) :
    lowByte n = byte ∧ isPlaceholderNode n = false ∧
      (∃ r ∈ s.passed, r.nodeId = n ∧ Within t r.nowMs) ∧
      ∀ r ∈ s.passed, r.nodeId ≠ n → lowByte r.nodeId = byte → ¬ Within t r.nowMs := by
  have htracks := (identityCalls_tracks byte).reachable hs
  have hnodirect : directCandidates byte edges myNode = [] := by
    unfold directCandidates
    cases hme : edges.findNode myNode with
    | none => rfl
    | some me =>
      refine List.filter_eq_nil_iff.mpr fun e he => ?_
      have := hedges me hme e he
      simp only [Bool.and_eq_true, beq_iff_eq, not_and]
      exact fun hlow hsource => this hlow.1 hsource
  obtain ⟨hbyte, b, hb, hunmarked, honly⟩ := resolve_by_bucket hnodirect h
  have hknown := htracks.known b hb
  obtain ⟨hfound, -, hall⟩ := RelayIdentityBucket.onlyFresh_some honly
  obtain ⟨e, he, rfl, hfresh⟩ := hfound.resolve_left (by simp)
  obtain ⟨hlow, hplaceholder⟩ := hknown.named e he
  obtain ⟨r, hr, hnode, htime⟩ := hknown.passed e he
  have hpast := UInt32.le_trans (htracks.entry_past hknown he) ht
  refine ⟨hlow, hplaceholder, ⟨r, hr, hnode, htime ▸ ⟨hpast, hfresh⟩⟩, ?_⟩
  intro r' hr' hne hlow' hwithin
  obtain ⟨b', hb', hcovers⟩ :=
    htracks.covered hbyte r' hr' hlow' (hwithin.between (htracks.past r' hr') ht).2
  rw [hb, Option.some.injEq] at hb'
  subst hb'
  rcases hcovers with ⟨mark, hmark, hle⟩ | ⟨e', he', hnode', hle⟩
  -- a mark as recent as the call would still be fresh
  · have := (hwithin.between hle (UInt32.le_trans (hknown.past mark hmark) ht)).1.2
    simp [RelayIdentityBucket.marked, hmark, this] at hunmarked
  -- an entry as recent as the call would be a second fresh one
  · have := (hwithin.between hle (UInt32.le_trans (htracks.entry_past hknown he') ht)).1.2
    exact hne (hnode' ▸ hall e' he' this)

end

/-! ## Concrete runs -/

def IdentityState.start : IdentityState := ⟨.new, 0, []⟩

/-- One node, heard and pruned around. -/
def heardOnce : List IdentityCall := [.remember ⟨0x6CD, 0xCD, 0⟩, .prune 1]

theorem heardOnce_reachable : (identityCalls.restrict (Keeps 0xCD)).Reachable
    (heardOnce.foldl IdentityState.next .start) := by
  refine ⟨.start, heardOnce, ⟨rfl, rfl⟩, .cons ⟨?_, by decide, rfl⟩ (.cons ⟨?_, by decide, rfl⟩ (.nil _))⟩
  · exact fun _ _ => by decide
  · intro b hb hexpired
    have hentry : (⟨0x6CD, 0⟩ : RelayIdentityEntry) ∈ b.entries.rows := by
      cases hb
      decide
    exact absurd (hexpired _ hentry) (by decide)

theorem resolve_unambiguous_heardOnce :
    (heardOnce.foldl IdentityState.next .start).cache.resolveRelayIdentity hundredths id 0xCD (-70) 5
      .empty 1 2 0 = some 0x6CD ∧
    ∀ r ∈ (heardOnce.foldl IdentityState.next .start).passed, r.nodeId ≠ 0x6CD →
      lowByte r.nodeId = 0xCD → ¬ Within 2 r.nowMs := by
  have hresolves : (heardOnce.foldl IdentityState.next .start).cache.resolveRelayIdentity hundredths
      id 0xCD (-70) 5 .empty 1 2 0 = some 0x6CD := by
    decide +kernel
  have h := @resolve_unambiguous UInt16 hundredths id 0xCD _ heardOnce_reachable 2 (by decide) .empty 1
    (fun me hme => by cases hme) (-70) 5 0 0x6CD hresolves
  exact ⟨hresolves, h.2.2.2⟩

/-- Four nodes fill the bucket of `0xCD`, a fifth marks it, and pruning drops it with
the mark as the four expire. -/
def droppedMark : List IdentityCall :=
  [.remember ⟨0x1CD, 0xCD, 0⟩, .remember ⟨0x2CD, 0xCD, 0⟩, .remember ⟨0x3CD, 0xCD, 0⟩,
    .remember ⟨0x4CD, 0xCD, 0⟩, .remember ⟨0x5CD, 0xCD, 600000⟩, .prune 600001,
    .remember ⟨0x6CD, 0xCD, 600001⟩]

/-- Sixteen other bytes take every bucket, so the node of `0xCD` is forgotten at once. -/
def crowdedOut : List IdentityCall :=
  ((List.range 16).map fun i => .remember ⟨0x101 + i.toUInt32, 1 + i.toUInt8, 0⟩) ++
    [.remember ⟨0x5CD, 0xCD, 600000⟩, .prune 600001, .remember ⟨0x6CD, 0xCD, 600001⟩]

/-- After the calls `0xCD` resolves to one node two milliseconds after another was passed. -/
def Misnames (calls : List IdentityCall) : Prop :=
  identityCalls.Reachable (calls.foldl IdentityState.next .start) ∧
    (calls.foldl IdentityState.next .start).cache.resolveRelayIdentity hundredths id 0xCD (-70) 5
      .empty 1 600002 0 = some 0x6CD ∧
    ⟨0x5CD, 0xCD, 600000⟩ ∈ (calls.foldl IdentityState.next .start).passed ∧
    lowByte 0x5CD = 0xCD ∧ Within 600002 600000

theorem resolve_misnames : Misnames droppedMark ∧ Misnames crowdedOut := by
  have hrun : ∀ calls, LTS.Along IdentityState.next (fun s l => s.nowMs ≤ l.nowMs) .start calls →
      identityCalls.Reachable (calls.foldl IdentityState.next .start) := by
    intro calls h
    have hstep : ∀ s l, s.nowMs ≤ l.nowMs → identityCalls.step s l (s.next l) :=
      fun s l hl => ⟨hl, rfl⟩
    exact ⟨.start, calls, ⟨rfl, rfl⟩, LTS.run_foldl hstep h⟩
  constructor
  · refine ⟨hrun _ ?_, ?_, ?_, ?_⟩ <;> decide +kernel
  · refine ⟨hrun _ ?_, ?_, ?_, ?_⟩ <;> decide +kernel

end Meshrustic.Topology
