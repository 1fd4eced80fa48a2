import Meshrustic.Topology.Reassembly

/-!
# Publishing the neighbour list (`mesh-routing/src/neighbor_graph.rs`)

A node publishes the neighbours it measured, those that hear it first. The
list is built and sorted anew for every chunk, so the chunks fit together only
because both are functions of the graph; the sort exchanges entries in place.

Results:
* `sortedNeighbors_perm`: the sort loses and adds nothing, whatever prices
  compare to;
* `buildTopologyChunk_decode`: chunk `i` decodes to entries `28 i` and on of the
  sorted list, with a header that says which chunk it is and whether more come;
* `topology_round_trip`: together the chunks are the list, and a receiver that
  hears them in order completes one reassembly, with the ids of the list.
-/
namespace Meshrustic.Topology

open Meshrustic.Graph

/-- mirrors crates/mesh-routing/src/neighbor_graph.rs:41-48 -/
structure NeighborEntry where
  nodeId : UInt32
  rssi : Int16
  snr : Int8
  lastSeenMs : UInt32
  signalRoutingActive : Bool
  hearsUs : Bool

/-- mirrors crates/mesh-routing/src/neighbor_graph.rs:943-945 -/
def clampTopologyRssi (rssi : Int16) : Int8 := (max (-128) (min rssi 127)).toInt8

/-- mirrors crates/mesh-routing/src/neighbor_graph.rs:947-949 -/
def clampTopologySnr (snr : Int8) : Int8 := max (-20) (min snr 20)

/-- `for i in 0..n { for j in i + 1..n { if swap { out.swap(i, j) } } }` -/
def exchangeSort {α : Type} (swap : α → α → Bool) (xs : List α) : List α :=
  (List.range xs.length).foldl
    (fun xs i =>
      (List.range' (i + 1) (xs.length - (i + 1))).foldl
        (fun xs j =>
          match xs[i]?, xs[j]? with
          | some a, some b => if swap a b then (xs.set i b).set j a else xs
          | _, _ => xs)
        xs)
    xs

namespace NeighborGraph

variable (g : NeighborGraph)

/-- mirrors crates/mesh-routing/src/neighbor_graph.rs:987-994 -/
def lookupDirectSignal (nodeId : UInt32) : Option DirectNeighborSignal :=
  g.directSignals.rows.find? fun s => s.nodeId == nodeId

/-- What one of our edges publishes, if it does.
mirrors crates/mesh-routing/src/neighbor_graph.rs:1043-1066 -/
def neighborEntry (e : Edge) : Option NeighborEntry :=
  if e.source != .reported || e.toNode == 0 || e.toNode == g.myNode then none
  else if isPlaceholderNode e.toNode then none
  else
    (g.lookupDirectSignal e.toNode).map fun signal =>
      { nodeId := e.toNode
        rssi := signal.rssi
        snr := signal.snr
        lastSeenMs := e.lastUpdateMs
        signalRoutingActive := g.capability.status e.toNode == .srActive
        hearsUs := e.hearsUs }

/-- mirrors crates/mesh-routing/src/neighbor_graph.rs:1036-1070 -/
def fillNeighborEntries : List NeighborEntry :=
  match g.edges.findNode g.myNode with
  | none => []
  | some node => (node.edges.rows.filterMap g.neighborEntry).take MAX_NEIGHBORS

/-- mirrors crates/mesh-routing/src/neighbor_graph.rs:1174-1184 -/
def topologyPacketCount : Nat :=
  let total := g.fillNeighborEntries.length
  if total == 0 then 1 else (total + MAX_NEIGHBORS_PER_PACKET - 1) / MAX_NEIGHBORS_PER_PACKET

/-- The bytes of an entry, before they are written.
mirrors crates/mesh-routing/src/neighbor_graph.rs:1147-1168 -/
def pack (entry : NeighborEntry) : PackedNeighbor where
  nodeId := entry.nodeId
  rssi := clampTopologyRssi entry.rssi
  snr := clampTopologySnr entry.snr
  signalRoutingActive := entry.signalRoutingActive
  hearsUs := entry.hearsUs
  etxVariance :=
    match g.edges.edge g.myNode entry.nodeId with
    | some e => e.etxVariance
    | none => 0

section

variable {Etx : Type} (F : F32 Etx)

/-- mirrors crates/mesh-routing/src/neighbor_graph.rs:1090-1103 -/
def etxTo (nodeId : UInt32) : Etx :=
  match g.edges.edge g.myNode nodeId with
  | some e => F.ofFixed e.etxFixed
  | none => F.greatest

/-- mirrors crates/mesh-routing/src/neighbor_graph.rs:1081-1105 -/
def swapsNeighbors (a b : NeighborEntry) : Bool :=
  if a.hearsUs != b.hearsUs then b.hearsUs
  else if a.signalRoutingActive != b.signalRoutingActive then b.signalRoutingActive
  else F.below (g.etxTo F b.nodeId) (g.etxTo F a.nodeId)

/-- mirrors crates/mesh-routing/src/neighbor_graph.rs:1076-1112 -/
def sortedNeighbors : List NeighborEntry :=
  exchangeSort (g.swapsNeighbors F) g.fillNeighborEntries

/-- The bytes written to `out`, of length `outLen`.
mirrors crates/mesh-routing/src/neighbor_graph.rs:1113-1172 -/
def buildTopologyChunk (chunkIndex topologyVersion : UInt8) (outLen : Nat) : Option Bytes :=
  let sorted := g.sortedNeighbors F
  let total := sorted.length
  if total == 0 then
    if chunkIndex != 0 then none
    else if outLen < PACKED_NEIGHBOR_HEADER_SIZE then none
    else some (packedHeaderChunk topologyVersion g.signalRoutingActive false false 0)
  else
    let start := chunkIndex.toNat * MAX_NEIGHBORS_PER_PACKET
    if total ≤ start then none
    else
      let count := min (total - start) MAX_NEIGHBORS_PER_PACKET
      if outLen < PACKED_NEIGHBOR_HEADER_SIZE + count * PACKED_NEIGHBOR_ENTRY_SIZE then none
      else
        some (packedHeaderChunk topologyVersion g.signalRoutingActive (start + count < total)
            (chunkIndex != 0) chunkIndex ++
          (((sorted.drop start).take count).map g.pack).flatMap packedNeighborEntry)

end

end NeighborGraph

/-! ## The sorted list -/

theorem exchange_perm {α : Type} (swap : α → α → Bool) (xs : List α) (i j : Nat) :
    (match xs[i]?, xs[j]? with
      | some a, some b => if swap a b then (xs.set i b).set j a else xs
      | _, _ => xs).Perm xs := by
  cases hi : xs[i]? with
  | none => exact .refl _
  | some a =>
    cases hj : xs[j]? with
    | none => exact .refl _
    | some b =>
      obtain ⟨hi', rfl⟩ := List.getElem?_eq_some_iff.mp hi
      obtain ⟨hj', rfl⟩ := List.getElem?_eq_some_iff.mp hj
      dsimp only
      split
      · exact List.set_set_perm hi' hj'
      · exact .refl _

theorem foldl_perm {α β : Type} {step : List α → β → List α} (h : ∀ xs b, (step xs b).Perm xs)
    (bs : List β) (xs : List α) : (bs.foldl step xs).Perm xs := by
  induction bs generalizing xs with
  | nil => exact .refl _
  | cons b bs ih => exact (ih _).trans (h xs b)

theorem exchangeSort_perm {α : Type} (swap : α → α → Bool) (xs : List α) :
    (exchangeSort swap xs).Perm xs := by
  unfold exchangeSort
  apply foldl_perm
  intro xs i
  apply foldl_perm
  intro xs j
  exact exchange_perm swap xs i j

section

variable {Etx : Type} (F : F32 Etx) (g : NeighborGraph)

theorem sortedNeighbors_perm : (g.sortedNeighbors F).Perm g.fillNeighborEntries :=
  exchangeSort_perm _ _

theorem fillNeighborEntries_length : g.fillNeighborEntries.length ≤ MAX_NEIGHBORS := by
  unfold NeighborGraph.fillNeighborEntries
  split
  · exact Nat.zero_le _
  · exact List.length_take_le _ _

theorem neighborEntry_nodeId {e : Edge} {n : NeighborEntry} (h : g.neighborEntry e = some n) :
    n.nodeId = e.toNode := by
  unfold NeighborGraph.neighborEntry at h
  split at h
  · cases h
  · split at h
    · cases h
    · obtain ⟨signal, -, rfl⟩ := Option.map_eq_some_iff.mp h
      rfl

/-- No neighbour is published twice. -/
theorem fillNeighborEntries_nodup : (g.fillNeighborEntries.map (·.nodeId)).Nodup := by
  unfold NeighborGraph.fillNeighborEntries
  split
  · exact List.nodup_nil
  · rename_i node _
    have hsub : ((node.edges.rows.filterMap g.neighborEntry).map (·.nodeId)).Sublist
        (node.edges.rows.map (·.toNode)) := by
      generalize node.edges.rows = rows
      induction rows with
      | nil => exact .slnil
      | cons e es ih =>
        rw [List.filterMap_cons, List.map_cons]
        cases hn : g.neighborEntry e with
        | none => exact ih.cons _
        | some n =>
          dsimp only
          rw [List.map_cons, neighborEntry_nodeId g hn]
          exact ih.cons_cons _
    exact (node.nodup.sublist hsub).sublist ((List.take_sublist _ _).map _)

/-! ## Chunks -/

theorem sortedNeighbors_length :
    (g.sortedNeighbors F).length = g.fillNeighborEntries.length := (sortedNeighbors_perm F g).length_eq

/-- There are as many chunks as the list fills. -/
theorem packetCount_covers :
    (g.sortedNeighbors F).length ≤ g.topologyPacketCount * MAX_NEIGHBORS_PER_PACKET ∧
      0 < g.topologyPacketCount ∧ g.topologyPacketCount < 32 ∧
      ∀ i, i < g.topologyPacketCount → (g.sortedNeighbors F).length ≠ 0 →
        i * MAX_NEIGHBORS_PER_PACKET < (g.sortedNeighbors F).length := by
  have hlen := sortedNeighbors_length F g
  have hmax := fillNeighborEntries_length g
  have h40 : MAX_NEIGHBORS = 40 := rfl
  have h28 : MAX_NEIGHBORS_PER_PACKET = 28 := rfl
  unfold NeighborGraph.topologyPacketCount
  dsimp only
  rw [hlen, h28]
  by_cases h0 : g.fillNeighborEntries.length = 0
  · rw [h0]
    exact ⟨by decide, by decide, by decide, fun _ _ h => absurd rfl h⟩
  · rw [if_neg (by simpa using h0)]
    refine ⟨by omega, by omega, by omega, ?_⟩
    intro i hi _
    omega

/-- The entries of chunk `i`. -/
def listChunk (i : Nat) : List PackedNeighbor :=
  chunk MAX_NEIGHBORS_PER_PACKET i ((g.sortedNeighbors F).map g.pack)

/-- The header of chunk `i`. -/
def listHeader (v : UInt8) (i : Nat) : PackedHeader :=
  chunkHeader v g.signalRoutingActive (decide (i + 1 < g.topologyPacketCount)) (i != 0)
    (UInt8.ofNat i)

theorem listChunk_length (i : Nat) : (listChunk F g i).length ≤ MAX_NEIGHBORS_PER_PACKET :=
  List.length_take_le _ _

theorem buildTopologyChunk_eq (v : UInt8) {i outLen : Nat} (hi : i < g.topologyPacketCount)
    (hout : PACKED_NEIGHBOR_HEADER_SIZE + MAX_NEIGHBORS_PER_PACKET * PACKED_NEIGHBOR_ENTRY_SIZE ≤
      outLen) :
    g.buildTopologyChunk F (UInt8.ofNat i) v outLen =
      some (packedChunk v g.signalRoutingActive (decide (i + 1 < g.topologyPacketCount)) i
        (listChunk F g i)) := by
  obtain ⟨hcover, hpos, hsmall, hstart⟩ := packetCount_covers F g
  have hlen := sortedNeighbors_length F g
  have hidx : (UInt8.ofNat i).toNat = i := by
    rw [UInt8.toNat_ofNat']
    omega
  have hne : (UInt8.ofNat i != 0) = (i != 0) := by
    rw [Bool.eq_iff_iff, bne_iff_ne, bne_iff_ne, Ne, Ne, ← UInt8.toNat_inj, hidx]
    rfl
  unfold NeighborGraph.buildTopologyChunk
  dsimp only
  by_cases h0 : (g.sortedNeighbors F).length = 0
  · have hcount : g.topologyPacketCount = 1 := by
      unfold NeighborGraph.topologyPacketCount
      rw [← hlen, h0]
      rfl
    have hi0 : i = 0 := by omega
    subst hi0
    rw [if_pos (by simpa using h0), if_neg (by decide), if_neg (by omega), hcount]
    unfold listChunk packedChunk
    rw [List.length_eq_zero_iff.mp h0]
    rfl
  · have hlt := hstart i hi h0
    rw [if_neg (by simpa using h0), hidx, if_neg (by omega), hne]
    have h28 : MAX_NEIGHBORS_PER_PACKET = 28 := rfl
    have hfits : min ((g.sortedNeighbors F).length - i * MAX_NEIGHBORS_PER_PACKET)
        MAX_NEIGHBORS_PER_PACKET * PACKED_NEIGHBOR_ENTRY_SIZE ≤
        MAX_NEIGHBORS_PER_PACKET * PACKED_NEIGHBOR_ENTRY_SIZE :=
      Nat.mul_le_mul_right _ (Nat.min_le_right _ _)
    rw [if_neg (by omega)]
    have hmore : decide (i * MAX_NEIGHBORS_PER_PACKET +
        min ((g.sortedNeighbors F).length - i * MAX_NEIGHBORS_PER_PACKET)
          MAX_NEIGHBORS_PER_PACKET < (g.sortedNeighbors F).length) =
        decide (i + 1 < g.topologyPacketCount) := by
      rw [decide_eq_decide]
      unfold NeighborGraph.topologyPacketCount
      dsimp only
      rw [← hlen, if_neg (by simpa using h0)]
      rw [h28] at hlt ⊢
      omega
    have hentries : (((g.sortedNeighbors F).drop (i * MAX_NEIGHBORS_PER_PACKET)).take
        (min ((g.sortedNeighbors F).length - i * MAX_NEIGHBORS_PER_PACKET)
          MAX_NEIGHBORS_PER_PACKET)).map g.pack = listChunk F g i := by
      unfold listChunk chunk
      rw [List.map_take, List.map_drop, List.take_eq_take_iff, List.length_drop, List.length_map]
      omega
    rw [hmore, hentries]
    rfl

/-- Chunk `i` decodes to its header and its part of the list. -/
theorem buildTopologyChunk_decode (v : UInt8) {i outLen : Nat} (hi : i < g.topologyPacketCount)
    (hout : PACKED_NEIGHBOR_HEADER_SIZE + MAX_NEIGHBORS_PER_PACKET * PACKED_NEIGHBOR_ENTRY_SIZE ≤
      outLen) :
    ∃ bytes, g.buildTopologyChunk F (UInt8.ofNat i) v outLen = some bytes ∧
      decodePackedHeader bytes = some (listHeader g v i) ∧
      decodePackedNeighbors bytes MAX_NEIGHBORS_PER_PACKET =
        some (listHeader g v i, listChunk F g i) := by
  have hsmall := (packetCount_covers F g).2.2.1
  refine ⟨_, buildTopologyChunk_eq F g v hi hout, ?_, ?_⟩
  · exact decodePackedHeader_chunk v _ _ (by omega) _
  · refine decodePackedNeighbors_encode v _ _ (by omega) ?_
    have := listChunk_length F g i
    have h28 : MAX_NEIGHBORS_PER_PACKET = 28 := rfl
    omega

/-- One behind the other, the chunks are the list. -/
theorem listChunks_flatten :
    (List.range g.topologyPacketCount).flatMap (listChunk F g) =
      (g.sortedNeighbors F).map g.pack := by
  have hcover := (packetCount_covers F g).1
  unfold listChunk
  rw [flatten_chunks, List.take_of_length_le]
  rw [List.length_map]
  exact hcover

end

/-! ## Gathering chunks that come in order -/

/-- The slot a continuation of `sender` goes to holds `ids` of version `v`, with
chunk `n` to come. -/
def Carries (slots : Slots PENDING_LISTED_SLOTS PendingListed) (sender : UInt32) (v : UInt8)
    (ids : List UInt32) (n : UInt8) : Prop :=
  ∃ j p, slots.cells.findIdx? (fun p => p.valid && p.sender == sender) = some j ∧
    slots.cells[j]? = some p ∧ p.valid = true ∧ p.sender = sender ∧ p.version = v ∧
    p.ids.rows = ids ∧ p.nextChunk = n

section

variable {slots : Slots PENDING_LISTED_SLOTS PendingListed} {c : Call}

/-- A slot with room takes every id. -/
theorem foldl_add_valid {p : PendingListed} {ids : List UInt32} (hvalid : p.valid = true)
    (hroom : p.ids.rows.length + ids.length ≤ MAX_NEIGHBORS) :
    (ids.foldl PendingListed.add p).valid = true := by
  induction ids generalizing p with
  | nil => exact hvalid
  | cons id ids ih =>
    rw [List.length_cons] at hroom
    rw [List.foldl_cons]
    cases hpush : p.ids.push id with
    | none =>
      have := Table.push_none hpush
      omega
    | some t =>
      have hadd : p.add id = { p with ids := t } := by
        unfold PendingListed.add
        rw [hpush]
      rw [hadd]
      refine ih hvalid ?_
      rw [Table.push_rows hpush, List.length_append, List.length_singleton]
      omega

/-- What `fillSlot` makes of a chunk that is the next one, with room for it. -/
theorem fillSlot_enters {i : Nat} {p : PendingListed} (hp : slots.cells[i]? = some p)
    (henters : Enters p c) (hroom : p.ids.rows.length + c.ids.length ≤ MAX_NEIGHBORS) :
    ∃ p', p'.valid = true ∧ p'.sender = p.sender ∧ p'.version = p.version ∧
      p'.ids.rows = p.ids.rows ++ c.ids ∧
      p'.nextChunk = (if c.header.continuation then p.nextChunk + 1 else p.nextChunk) ∧
      fillSlot slots i c =
        if c.header.moreChunks then (slots.set i p', none)
        else (slots.set i { p' with valid := false }, some (p.ids.rows ++ c.ids)) := by
  unfold fillSlot
  rw [hp]
  dsimp only
  rw [if_pos ((enters_iff p).mpr henters)]
  generalize hopen : (if c.header.continuation = true then { p with nextChunk := p.nextChunk + 1 }
    else p) = p₀
  have hfields : p₀.valid = true ∧ p₀.ids = p.ids ∧ p₀.sender = p.sender ∧
      p₀.version = p.version ∧
      p₀.nextChunk = if c.header.continuation then p.nextChunk + 1 else p.nextChunk := by
    rw [← hopen]
    split <;> exact ⟨henters.1, rfl, rfl, rfl, rfl⟩
  have hvalid : ((c.neighbors.map (·.nodeId)).foldl PendingListed.add p₀).valid = true :=
    foldl_add_valid hfields.1 (by rw [hfields.2.1]; exact hroom)
  obtain ⟨-, hrows, hsender, hversion, hnext⟩ := foldl_add hvalid
  rw [hfields.2.1] at hrows
  refine ⟨_, hvalid, hsender.trans hfields.2.2.1, hversion.trans hfields.2.2.2.1, hrows,
    hnext.trans hfields.2.2.2.2, ?_⟩
  rw [if_pos hvalid, hrows]
  cases c.header.moreChunks <;> rfl

theorem findIdx?_set_first {α : Type} {f : α → Bool} {xs : List α} {i : Nat} {a : α}
    (hi : i < xs.length) (hbefore : ∀ j x, j < i → xs[j]? = some x → f x = false)
    (ha : f a = true) : (xs.set i a).findIdx? f = some i := by
  induction xs generalizing i with
  | nil => exact absurd hi (Nat.not_lt_zero _)
  | cons x xs ih =>
    cases i with
    | zero => rw [List.set_cons_zero, List.findIdx?_cons, ha, if_pos rfl]
    | succ k =>
      have hx := hbefore 0 x (Nat.succ_pos k) rfl
      rw [List.set_cons_succ, List.findIdx?_cons, hx, if_neg Bool.false_ne_true,
        ih (Nat.lt_of_succ_lt_succ hi) (fun j y hj hy => hbefore (j + 1) y (Nat.succ_lt_succ hj) hy)]
      rfl

/-- A valid cell that is the first of its sender is where the sender's chunks
go. -/
theorem carries_set (cells : Slots PENDING_LISTED_SLOTS PendingListed) {i : Nat}
    {p : PendingListed} (hi : i < cells.cells.length)
    (hothers : ∀ j q, j < i → cells.cells[j]? = some q → (q.valid && q.sender == p.sender) = false)
    (hvalid : p.valid = true) :
    Carries (cells.set i p) p.sender p.version p.ids.rows p.nextChunk := by
  refine ⟨i, p, findIdx?_set_first hi hothers ?_, List.getElem?_set_self hi, hvalid, rfl, rfl, rfl,
    rfl⟩
  rw [hvalid, beq_self_eq_true]
  rfl

/-- The first chunk, at a receiver with no list of its sender in hand. -/
theorem reassemble_first (hnone : ∀ p ∈ slots.cells, p.valid = true → p.sender ≠ c.sender)
    (hc : c.header.continuation = false) (hi : c.header.chunkIndex = 0)
    (hroom : c.ids.length ≤ MAX_NEIGHBORS) :
    (c.header.moreChunks = false → (reassemble slots c).2 = some c.ids) ∧
      (c.header.moreChunks = true → (reassemble slots c).2 = none ∧
        Carries (reassemble slots c).1 c.sender c.received c.ids 1) := by
  have hlt := pendingListedSlot_lt slots c.sender
  unfold reassemble
  rw [hc, hi]
  simp only [Bool.false_eq_true, if_false, beq_self_eq_true]
  generalize pendingListedSlot slots c.sender = i at hlt ⊢
  have hget : (slots.set i ⟨c.sender, c.received, true, .empty, 1⟩).cells[i]? =
      some ⟨c.sender, c.received, true, .empty, 1⟩ := List.getElem?_set_self hlt
  have henters : Enters ⟨c.sender, c.received, true, .empty, 1⟩ c :=
    ⟨rfl, rfl, rfl, fun h => by rw [hc] at h; cases h⟩
  obtain ⟨p', hvalid, hsender, hversion, hrows, hnext, hfill⟩ := fillSlot_enters hget henters
    (by
      show 0 + c.ids.length ≤ MAX_NEIGHBORS
      omega)
  rw [hfill]
  constructor
  · intro hmore
    rw [hmore]
    rfl
  · intro hmore
    rw [hmore]
    refine ⟨rfl, ?_⟩
    rw [hc] at hnext
    have hcarries := carries_set (slots.set i ⟨c.sender, c.received, true, .empty, 1⟩)
      (i := i) (p := p') (by
        show i < (slots.cells.set i _).length
        rw [List.length_set]
        exact hlt)
      (by
        intro j q hj hq
        have hq' : slots.cells[j]? = some q := by
          rw [← hq]
          exact (List.getElem?_set_ne (by omega)).symm
        cases hv : q.valid with
        | false => rfl
        | true =>
          have := hnone q (List.mem_of_getElem? hq') hv
          rw [hsender]
          simpa using this) hvalid
    rw [hsender, hversion, hrows, hnext] at hcarries
    exact hcarries

/-- The next chunk. -/
theorem reassemble_next {ids : List UInt32} {n : UInt8}
    (h : Carries slots c.sender c.received ids n) (hc : c.header.continuation = true)
    (hi : c.header.chunkIndex = n) (hroom : ids.length + c.ids.length ≤ MAX_NEIGHBORS) :
    (c.header.moreChunks = false → (reassemble slots c).2 = some (ids ++ c.ids)) ∧
      (c.header.moreChunks = true → (reassemble slots c).2 = none ∧
        Carries (reassemble slots c).1 c.sender c.received (ids ++ c.ids) (n + 1)) := by
  obtain ⟨j, p, hidx, hp, hvalid, hsender, hversion, rfl, rfl⟩ := h
  have henters : Enters p c := ⟨hvalid, hsender, hversion, fun _ => hi⟩
  obtain ⟨p', hvalid', hsender', hversion', hrows, hnext, hfill⟩ := fillSlot_enters hp henters hroom
  unfold reassemble
  rw [hc, if_pos rfl, hidx]
  dsimp only
  rw [hfill]
  constructor
  · intro hmore
    rw [hmore]
    rfl
  · intro hmore
    rw [hmore]
    refine ⟨rfl, ?_⟩
    rw [hc] at hnext
    obtain ⟨hlt, -, hbefore⟩ := List.findIdx?_eq_some_iff_getElem.mp hidx
    have hcarries := carries_set slots (i := j) (p := p') hlt
      (by
        intro k q hk hq
        obtain ⟨hk', rfl⟩ := List.getElem?_eq_some_iff.mp hq
        rw [hsender', hsender]
        exact Bool.eq_false_iff.mpr (hbefore k hk)) hvalid'
    rw [hsender', hversion', hrows, hnext, hsender, hversion] at hcarries
    exact hcarries

end

/-! ## A receiver of the whole list -/

section

variable {Etx : Type} (F : F32 Etx)

/-- The ids of the list a call completes, if it does. -/
def completed (g : NeighborGraph) (c : Call) : Option (List UInt32) :=
  if g.accepts c && !g.beyondHorizon F c then (reassemble g.pendingListed c).2 else none

/-- What each call of a sequence completes. -/
def completions : NeighborGraph → List Call → List (Option (List UInt32))
  | _, [] => []
  | g, c :: cs => completed F g c :: completions (g.mergeTopology F c).1 cs

/-- The call is heard from the sender itself, or the node takes an active role
and finds the sender within its horizon. -/
def Heard (g : NeighborGraph) (c : Call) : Prop :=
  c.isDirect = true ∨
    (g.isActiveRoutingRole = true ∧ (g.noteAccepted F c).senderHorizonOk c = true)

def AllHeard : NeighborGraph → List Call → Prop
  | _, [] => True
  | g, c :: cs => Heard F g c ∧ AllHeard (g.mergeTopology F c).1 cs

/-- `c` delivers chunk `k` of version `v` of `sender`. -/
structure Delivers (sender : UInt32) (v : UInt8) (k : Nat) (more : Bool) (c : Call) : Prop where
  sender : c.sender = sender
  format : NeighborGraph.formatOk c = true
  version : c.received = v
  index : c.header.chunkIndex = UInt8.ofNat k
  continuation : c.header.continuation = (k != 0)
  more : c.header.moreChunks = more

variable {F} {g : NeighborGraph} {c : Call}

theorem Heard.role (h : Heard F g c) : (g.isActiveRoutingRole || c.isDirect) = true := by
  rcases h with h | ⟨h, -⟩
  · rw [h, Bool.or_true]
  · rw [h, Bool.true_or]

theorem Heard.horizon (h : Heard F g c) : g.beyondHorizon F c = false := by
  unfold NeighborGraph.beyondHorizon
  rcases h with h | ⟨-, h⟩
  · unfold NeighborGraph.senderHorizonOk
    rw [h]
    simp
  · rw [h]
    rfl

/-- Chunks that come from the sender itself are all heard. -/
theorem allHeard_direct {cs : List Call} (h : ∀ c ∈ cs, c.isDirect = true) : AllHeard F g cs := by
  induction cs generalizing g with
  | nil => trivial
  | cons c cs ih =>
    exact ⟨.inl (h c List.mem_cons_self), ih fun d hd => h d (List.mem_cons_of_mem _ hd)⟩

/-- A call that is heard and in the window: what it completes, and what it
leaves. -/
theorem merge_inWindow (hformat : NeighborGraph.formatOk c = true) (hheard : Heard F g c)
    (hwindow : g.inWindow c = true) :
    completed F g c = (reassemble g.pendingListed c).2 ∧
      (g.mergeTopology F c).1.pendingListed = (reassemble g.pendingListed c).1 ∧
      (g.mergeTopology F c).1.topoVersions.topoVersionEntry c.sender =
        (c.received, if c.nowMs == 0 then 1 else c.nowMs) := by
  have haccepted : g.accepts c = true := by
    unfold NeighborGraph.accepts NeighborGraph.versionAccepted
    dsimp only
    rw [hformat, hheard.role, hwindow]
    rfl
  have hversion : (if c.bootReset then 0 else c.received) = c.received := by
    split
    · rename_i hboot
      unfold Call.bootReset at hboot
      simp only [Bool.and_eq_true, beq_iff_eq] at hboot
      exact hboot.1.2.symm
    · rfl
  refine ⟨?_, ?_, ?_⟩
  · unfold completed
    rw [haccepted, hheard.horizon]
    rfl
  · rw [mergeTopology_pendingListed, haccepted, hheard.horizon]
    rfl
  · have hversions : (g.mergeTopology F c).1.topoVersions =
        g.topoVersions.setTopoVersion c.sender (if c.bootReset then 0 else c.received) c.nowMs := by
      rw [mergeTopology_swept F g c haccepted hheard.horizon]
      dsimp only
      have hmerged := congrArg Prod.snd (mergeListed_frame F (g.noteAccepted F c) c)
      split
      · exact hmerged
      · exact (congrArg Prod.snd (sweepUnlisted_frame F _ _ _ _)).trans hmerged
    rw [hversions, VersionTable.entry_setTopoVersion, hversion]

theorem inWindow_repeat {t : UInt32}
    (hentry : g.topoVersions.topoVersionEntry c.sender = (c.received, t)) : g.inWindow c = true := by
  unfold NeighborGraph.inWindow topologyVersionAccept
  rw [hentry]
  simp

theorem delivers_tail {sender : UInt32} {v : UInt8} {k : Nat} {cs : List Call}
    (h : ∀ j d, (c :: cs)[j]? = some d →
      Delivers sender v (k + j) (decide (j + 1 < (c :: cs).length)) d) :
    ∀ j d, cs[j]? = some d → Delivers sender v (k + 1 + j) (decide (j + 1 < cs.length)) d := by
  intro j d hd
  have hd' := h (j + 1) d hd
  have hlen : decide (j + 1 + 1 < (c :: cs).length) = decide (j + 1 < cs.length) := by
    rw [decide_eq_decide, List.length_cons]
    omega
  rw [hlen, show k + (j + 1) = k + 1 + j by omega] at hd'
  exact hd'

/-- The chunks after the first. -/
theorem completions_rest {sender : UInt32} {v : UInt8} {cs : List Call} {k : Nat}
    {ids : List UInt32} {t : UInt32} (hk : 0 < k) (hne : cs ≠ [])
    (hcarries : Carries g.pendingListed sender v ids (UInt8.ofNat k))
    (hentry : g.topoVersions.topoVersionEntry sender = (v, t))
    (hcs : ∀ j c, cs[j]? = some c → Delivers sender v (k + j) (decide (j + 1 < cs.length)) c)
    (hroom : ids.length + (cs.flatMap Call.ids).length ≤ MAX_NEIGHBORS) (hheard : AllHeard F g cs) :
    completions F g cs =
      List.replicate (cs.length - 1) none ++ [some (ids ++ cs.flatMap Call.ids)] := by
  induction cs generalizing g k ids t with
  | nil => exact absurd rfl hne
  | cons c cs ih =>
    have hc := hcs 0 c rfl
    rw [List.flatMap_cons, List.length_append] at hroom
    obtain ⟨hheard, hrest⟩ := hheard
    rw [← hc.sender, ← hc.version] at hcarries hentry
    obtain ⟨hcompleted, hslots, hversion⟩ := merge_inWindow hc.format hheard (inWindow_repeat hentry)
    have hcont : c.header.continuation = true := by
      rw [hc.continuation, bne_iff_ne]
      omega
    obtain ⟨hlast, hmore⟩ := reassemble_next hcarries hcont hc.index (by omega)
    unfold completions
    rw [hcompleted]
    cases cs with
    | nil =>
      rw [hlast (by rw [hc.more]; rfl)]
      simp [completions]
    | cons d ds =>
      obtain ⟨hnone, hcarries'⟩ := hmore (by rw [hc.more]; simp)
      rw [← hslots] at hcarries'
      have hsucc : (UInt8.ofNat k + 1 : UInt8) = UInt8.ofNat (k + 1) := by
        rw [UInt8.ofNat_add]
        rfl
      rw [hsucc] at hcarries'
      rw [hc.sender, hc.version] at hcarries' hversion
      have htail := ih (Nat.succ_pos k) (List.cons_ne_nil _ _) hcarries' hversion
        (delivers_tail hcs)
        (by rw [List.length_append]; omega) hrest
      rw [hnone, htail, List.flatMap_cons, List.append_assoc]
      rfl

/-- A list that is heard chunk by chunk, by a node that tracks no version of its
sender and has no list of it in hand, is completed once, by its last chunk. -/
theorem completions_whole {sender : UInt32} {v : UInt8} {cs : List Call} (hne : cs ≠ [])
    (huntracked : g.topoVersions.find sender = none)
    (hslots : ∀ p ∈ g.pendingListed, p.valid = true → p.sender ≠ sender)
    (hcs : ∀ j c, cs[j]? = some c → Delivers sender v (0 + j) (decide (j + 1 < cs.length)) c)
    (hroom : (cs.flatMap Call.ids).length ≤ MAX_NEIGHBORS) (hheard : AllHeard F g cs) :
    completions F g cs = List.replicate (cs.length - 1) none ++ [some (cs.flatMap Call.ids)] := by
  cases cs with
  | nil => exact absurd rfl hne
  | cons c cs =>
    have hc := hcs 0 c rfl
    rw [List.flatMap_cons, List.length_append] at hroom
    obtain ⟨hheard, hrest⟩ := hheard
    have hwindow : g.inWindow c = true := by
      unfold NeighborGraph.inWindow VersionTable.topoVersionEntry
      rw [hc.sender, huntracked]
      rfl
    obtain ⟨hcompleted, hafter, hversion⟩ := merge_inWindow hc.format hheard hwindow
    rw [← hc.sender] at hslots
    obtain ⟨hlast, hmore⟩ := reassemble_first hslots hc.continuation hc.index (by omega)
    unfold completions
    rw [hcompleted]
    cases cs with
    | nil =>
      rw [hlast (by rw [hc.more]; rfl)]
      simp [completions]
    | cons d ds =>
      obtain ⟨hnone, hcarries⟩ := hmore (by rw [hc.more]; simp)
      rw [← hafter, hc.sender, hc.version] at hcarries
      rw [hc.sender, hc.version] at hversion
      have htail := completions_rest Nat.one_pos (List.cons_ne_nil d ds) hcarries hversion
        (delivers_tail hcs)
        (by omega) hrest
      rw [hnone, htail, List.flatMap_cons]
      rfl

end

/-! ## The round trip -/

section

variable {Etx : Type} (F : F32 Etx) (g : NeighborGraph) (v : UInt8)

/-- The header and the neighbours of each chunk. -/
def publishedLists : List (PackedHeader × List PackedNeighbor) :=
  (List.range g.topologyPacketCount).map fun i => (listHeader g v i, listChunk F g i)

/-- What the parsers make of the chunks that are built. -/
def decodedLists (outLen : Nat) : List (Option (PackedHeader × List PackedNeighbor)) :=
  (List.range g.topologyPacketCount).map fun i =>
    (g.buildTopologyChunk F (UInt8.ofNat i) v outLen).bind fun bytes =>
      decodePackedNeighbors bytes MAX_NEIGHBORS_PER_PACKET

theorem publishedLists_getElem? {i : Nat} {l : PackedHeader × List PackedNeighbor}
    (h : (publishedLists F g v)[i]? = some l) :
    i < g.topologyPacketCount ∧ l = (listHeader g v i, listChunk F g i) := by
  unfold publishedLists at h
  rw [List.getElem?_map, Option.map_eq_some_iff] at h
  obtain ⟨j, hj, rfl⟩ := h
  rw [List.getElem?_eq_some_iff] at hj
  obtain ⟨hlt, rfl⟩ := hj
  rw [List.length_range] at hlt
  rw [List.getElem_range]
  exact ⟨hlt, rfl⟩

theorem publishedLists_flatMap :
    (publishedLists F g v).flatMap (·.2) = (g.sortedNeighbors F).map g.pack := by
  unfold publishedLists
  rw [List.flatMap_map]
  exact listChunks_flatten F g

/-- Calls that deliver the published lists. -/
theorem delivers_published {sender : UInt32} {cs : List Call}
    (hcs : cs.map (fun c => (c.header, c.neighbors)) = publishedLists F g v)
    (hsender : ∀ c ∈ cs, c.sender = sender) :
    cs.length = g.topologyPacketCount ∧
      cs.flatMap Call.ids = (g.sortedNeighbors F).map (·.nodeId) ∧
      ∀ j c, cs[j]? = some c → Delivers sender v (0 + j) (decide (j + 1 < cs.length)) c := by
  have hlen : cs.length = g.topologyPacketCount := by
    have := congrArg List.length hcs
    unfold publishedLists at this
    rwa [List.length_map, List.length_map, List.length_range] at this
  refine ⟨hlen, ?_, ?_⟩
  · have hflat : (cs.flatMap fun c => c.neighbors) = (g.sortedNeighbors F).map g.pack := by
      rw [← publishedLists_flatMap F g v, ← hcs, List.flatMap_map]
    have hids : cs.flatMap Call.ids = (cs.flatMap fun c => c.neighbors).map (·.nodeId) := by
      rw [List.map_flatMap]
      rfl
    rw [hids, hflat, List.map_map]
    rfl
  · intro j c hc
    have hget : (publishedLists F g v)[j]? = some (c.header, c.neighbors) := by
      rw [← hcs, List.getElem?_map, hc]
      rfl
    obtain ⟨-, heq⟩ := publishedLists_getElem? F g v hget
    rw [Prod.mk.injEq] at heq
    have hheader := heq.1
    rw [hlen, Nat.zero_add]
    constructor
    · exact hsender c (List.mem_of_getElem? hc)
    · unfold NeighborGraph.formatOk
      rw [hheader]
      rfl
    · unfold Call.received
      rw [hheader]
      rfl
    all_goals rw [hheader]; rfl

/-- The chunks of a list decode to parts of the sorted list that together are
the list, each neighbour once; the header of each says which chunk it is and
whether more come; and a node that knows nothing of the sender, and hears the
chunks in order, completes one reassembly, at the last chunk, with the ids of
the list. -/
theorem topology_round_trip (outLen : Nat)
    (hout : PACKED_NEIGHBOR_HEADER_SIZE + MAX_NEIGHBORS_PER_PACKET * PACKED_NEIGHBOR_ENTRY_SIZE ≤
      outLen) :
    decodedLists F g v outLen = (publishedLists F g v).map some ∧
    (publishedLists F g v).length = g.topologyPacketCount ∧
    (publishedLists F g v).flatMap (·.2) = (g.sortedNeighbors F).map g.pack ∧
    (g.sortedNeighbors F).Perm g.fillNeighborEntries ∧
    ((g.sortedNeighbors F).map (·.nodeId)).Nodup ∧
    (∀ i h ns, (publishedLists F g v)[i]? = some (h, ns) →
      h.topologyVersion = v ∧ h.moreChunks = decide (i + 1 < g.topologyPacketCount) ∧
        h.continuation = (i != 0) ∧ h.chunkIndex.toNat = i) ∧
    ∀ (receiver : NeighborGraph) (sender : UInt32) (cs : List Call),
      receiver.topoVersions.find sender = none →
      (∀ p ∈ receiver.pendingListed, p.valid = true → p.sender ≠ sender) →
      cs.map (fun c => (c.header, c.neighbors)) = publishedLists F g v →
      (∀ c ∈ cs, c.sender = sender) → AllHeard F receiver cs →
      completions F receiver cs = List.replicate (g.topologyPacketCount - 1) none ++
        [some ((g.sortedNeighbors F).map (·.nodeId))] := by
  obtain ⟨-, hpos, hsmall, -⟩ := packetCount_covers F g
  have hperm := sortedNeighbors_perm F g
  refine ⟨?_, ?_, publishedLists_flatMap F g v, hperm, ?_, ?_, ?_⟩
  · unfold decodedLists publishedLists
    rw [List.map_map]
    apply List.map_congr_left
    intro i hi
    obtain ⟨bytes, hbytes, -, hlist⟩ :=
      buildTopologyChunk_decode F g v (List.mem_range.mp hi) hout
    rw [hbytes, Option.bind_some, hlist]
    rfl
  · unfold publishedLists
    rw [List.length_map, List.length_range]
  · exact ((hperm.map (·.nodeId)).nodup_iff).mpr (fillNeighborEntries_nodup g)
  · intro i h ns hget
    obtain ⟨hi, heq⟩ := publishedLists_getElem? F g v hget
    rw [Prod.mk.injEq] at heq
    rw [heq.1]
    refine ⟨rfl, rfl, rfl, ?_⟩
    show (UInt8.ofNat i).toNat = i
    rw [UInt8.toNat_ofNat']
    omega
  · intro receiver sender cs huntracked hslots hcs hsender hheard
    obtain ⟨hlen, hids, hdelivers⟩ := delivers_published F g v hcs hsender
    have hne : cs ≠ [] := by
      rintro rfl
      rw [List.length_nil] at hlen
      omega
    have hroom : (cs.flatMap Call.ids).length ≤ MAX_NEIGHBORS := by
      rw [hids, List.length_map, sortedNeighbors_length]
      exact fillNeighborEntries_length g
    rw [completions_whole hne huntracked hslots hdelivers hroom hheard, hlen, hids]

end

/-! ## A list of one neighbour -/

/-- Node 1, which has measured node 2. -/
def publisher : NeighborGraph :=
  { NeighborGraph.new 1 with
    edges := (EdgeStore.empty.updateEdge hundredths 1 1 2 105 500 .reported true 0).1
    directSignals := ⟨[⟨2, -60, 10, 500⟩], by decide⟩ }

/-- Its list of version 5, as node 9 hears it. -/
def publishedCalls (isDirect : Bool) : List Call :=
  (publishedLists hundredths publisher 5).map fun l =>
    { sender := 1, header := l.1, neighbors := l.2, isDirect := isDirect, nowMs := 1000
      heardOn := 0 }

theorem direct_list_completes :
    completions hundredths (NeighborGraph.new 9) (publishedCalls true) =
      List.replicate (publisher.topologyPacketCount - 1) none ++
        [some ((publisher.sortedNeighbors hundredths).map (·.nodeId))] := by
  have h := topology_round_trip hundredths publisher 5 256 (by decide)
  refine h.2.2.2.2.2.2 (NeighborGraph.new 9) 1 (publishedCalls true) rfl ?_ ?_ ?_ ?_
  · intro p hp hvalid
    rw [Slots.mem_all hp] at hvalid
    cases hvalid
  · unfold publishedCalls
    rw [List.map_map]
    exact List.map_id _
  · intro c hc
    obtain ⟨l, -, rfl⟩ := List.mem_map.mp hc
    rfl
  · refine allHeard_direct ?_
    intro c hc
    obtain ⟨l, -, rfl⟩ := List.mem_map.mp hc
    rfl

/-- A relay carries the same list to node 9, which has not heard of node 1 or
its neighbours: the list is accepted and dropped, and none is completed. -/
theorem relayed_list_dropped :
    (publishedCalls false).map (fun c => (c.header, c.neighbors)) =
        publishedLists hundredths publisher 5 ∧
      ((publishedCalls false).map fun c => ((NeighborGraph.new 9).mergeTopology hundredths c).2) =
        [.applied 0 5] ∧
      completions hundredths (NeighborGraph.new 9) (publishedCalls false) = [none] := by
  decide +kernel

end Meshrustic.Topology
