import Meshrustic.Core.Bytes
import Mathlib.Data.List.TakeWhile

/-!
# Packed neighbour lists (`mesh-routing/src/topology.rs`)

A list travels as chunks: five header bytes, then eight bytes for each
neighbour. The last header byte holds three flags and, above them, the index
of the chunk; a first chunk has index 0 and a later one is flagged as a
continuation, so an index without that flag is refused.

Results:
* `decodePackedHeader_chunk`: the header of a chunk reads back, the flags and
  the index not disturbing each other;
* `decodePackedNeighbors_encode`: a whole chunk reads back;
* `flatten_chunks`: the chunks of a list, one behind the other, are the list
  up to where the last of them ends.
-/
namespace Meshrustic.Topology

def SIGNAL_ROUTING_VERSION : UInt8 := 3
def PACKED_NEIGHBOR_FORMAT_VERSION : UInt8 := 1
def PACKED_NEIGHBOR_ENTRY_SIZE : Nat := 8
def PACKED_NEIGHBOR_HEADER_SIZE : Nat := 5
def PACKED_NEIGHBOR_FLAG_SR_ACTIVE : UInt8 := 0x01
def PACKED_NEIGHBOR_FLAG_HEARS_US : UInt8 := 0x02
def PACKED_HEADER_FLAG_SR_ACTIVE : UInt8 := 0x01
def PACKED_HEADER_FLAG_MORE_CHUNKS : UInt8 := 0x02
def PACKED_HEADER_FLAG_CONTINUATION : UInt8 := 0x04
def MAX_NEIGHBORS_PER_PACKET : Nat := 28

/-- mirrors crates/mesh-routing/src/topology.rs:57-67 -/
structure PackedHeader where
  formatVersion : UInt8
  entrySize : UInt8
  routingVersion : UInt8
  topologyVersion : UInt8
  signalRoutingActive : Bool
  moreChunks : Bool
  continuation : Bool
  chunkIndex : UInt8
  deriving DecidableEq, Repr

/-- mirrors crates/mesh-routing/src/topology.rs:70-72 -/
def PackedHeader.isCompleteList (h : PackedHeader) : Bool :=
  !h.moreChunks && !h.continuation && h.chunkIndex == 0

/-- mirrors crates/mesh-routing/src/topology.rs:75-83 -/
structure PackedNeighbor where
  nodeId : UInt32
  rssi : Int8
  snr : Int8
  signalRoutingActive : Bool
  hearsUs : Bool
  etxVariance : UInt8
  deriving DecidableEq, Repr

/-! ## Writing -/

def flag (b : Bool) (mask : UInt8) : UInt8 := if b then mask else 0

/-- The header byte with the flags.
mirrors crates/mesh-routing/src/topology.rs:111-121 -/
def headerFlags (signalRoutingActive moreChunks continuation : Bool) : UInt8 :=
  flag signalRoutingActive PACKED_HEADER_FLAG_SR_ACTIVE |||
    flag moreChunks PACKED_HEADER_FLAG_MORE_CHUNKS |||
    flag continuation PACKED_HEADER_FLAG_CONTINUATION

/-- `write_packed_header_chunk`, and the chunk index put above the flags.
mirrors crates/mesh-routing/src/topology.rs:97-122 -/
def packedHeaderChunk (topologyVersion : UInt8) (signalRoutingActive moreChunks continuation : Bool)
    (chunkIndex : UInt8) : Bytes :=
  [PACKED_NEIGHBOR_FORMAT_VERSION, UInt8.ofNat PACKED_NEIGHBOR_ENTRY_SIZE, SIGNAL_ROUTING_VERSION,
    topologyVersion,
    headerFlags signalRoutingActive moreChunks continuation ||| (chunkIndex <<< 3)]

/-- The eight bytes of one neighbour. -/
def packedNeighborEntry (n : PackedNeighbor) : Bytes :=
  le32 n.nodeId ++ [n.rssi.toUInt8, n.snr.toUInt8,
    flag n.signalRoutingActive PACKED_NEIGHBOR_FLAG_SR_ACTIVE |||
      flag n.hearsUs PACKED_NEIGHBOR_FLAG_HEARS_US,
    n.etxVariance]

/-! ## Reading -/

/-- mirrors crates/mesh-routing/src/topology.rs:124-141 -/
def decodePackedHeader (data : Bytes) : Option PackedHeader :=
  if data.length < PACKED_NEIGHBOR_HEADER_SIZE then none
  else if byteAt data 4 >>> 3 != 0 && byteAt data 4 &&& PACKED_HEADER_FLAG_CONTINUATION == 0 then
    none
  else some {
    formatVersion := byteAt data 0
    entrySize := byteAt data 1
    routingVersion := byteAt data 2
    topologyVersion := byteAt data 3
    signalRoutingActive := byteAt data 4 &&& PACKED_HEADER_FLAG_SR_ACTIVE != 0
    moreChunks := byteAt data 4 &&& PACKED_HEADER_FLAG_MORE_CHUNKS != 0
    continuation := byteAt data 4 &&& PACKED_HEADER_FLAG_CONTINUATION != 0
    chunkIndex := byteAt data 4 >>> 3 }

/-- mirrors crates/mesh-routing/src/topology.rs:169-183 -/
def packedNeighborAt (data : Bytes) (base : Nat) : PackedNeighbor :=
  let e := slice data base PACKED_NEIGHBOR_ENTRY_SIZE
  { nodeId := ofLe32 e
    rssi := Int8.ofUInt8 (byteAt e 4)
    snr := Int8.ofUInt8 (byteAt e 5)
    signalRoutingActive := byteAt e 6 &&& PACKED_NEIGHBOR_FLAG_SR_ACTIVE != 0
    hearsUs := byteAt e 6 &&& PACKED_NEIGHBOR_FLAG_HEARS_US != 0
    etxVariance := byteAt e 7 }

/-- mirrors crates/mesh-routing/src/topology.rs:143-186 -/
def decodePackedNeighbors (data : Bytes) (maxEntries : Nat) :
    Option (PackedHeader × List PackedNeighbor) :=
  match decodePackedHeader data with
  | none => none
  | some header =>
    let entrySize := header.entrySize.toNat
    let base := fun i => PACKED_NEIGHBOR_HEADER_SIZE + i * entrySize
    if header.formatVersion != PACKED_NEIGHBOR_FORMAT_VERSION then none
    else if entrySize < PACKED_NEIGHBOR_ENTRY_SIZE || entrySize == 0 then none
    else if (data.length - PACKED_NEIGHBOR_HEADER_SIZE) % entrySize != 0 then none
    else
      let count := (data.length - PACKED_NEIGHBOR_HEADER_SIZE) / entrySize
      if min maxEntries 32 < count then none
      else some (header,
        ((List.range count).takeWhile fun i =>
          base i + PACKED_NEIGHBOR_ENTRY_SIZE ≤ data.length).map fun i =>
            packedNeighborAt data (base i))

/-! ## Round trip -/

/-- The header that a chunk carries. -/
def chunkHeader (topologyVersion : UInt8) (signalRoutingActive moreChunks continuation : Bool)
    (chunkIndex : UInt8) : PackedHeader where
  formatVersion := PACKED_NEIGHBOR_FORMAT_VERSION
  entrySize := UInt8.ofNat PACKED_NEIGHBOR_ENTRY_SIZE
  routingVersion := SIGNAL_ROUTING_VERSION
  topologyVersion := topologyVersion
  signalRoutingActive := signalRoutingActive
  moreChunks := moreChunks
  continuation := continuation
  chunkIndex := chunkIndex

@[simp] theorem length_packedHeaderChunk (v : UInt8) (sr more cont : Bool) (i : UInt8) :
    (packedHeaderChunk v sr more cont i).length = PACKED_NEIGHBOR_HEADER_SIZE := rfl

@[simp] theorem length_packedNeighborEntry (n : PackedNeighbor) :
    (packedNeighborEntry n).length = PACKED_NEIGHBOR_ENTRY_SIZE := rfl

/-- The flags read back, and the index above them, for each of the 32 indexes
five bits hold. -/
theorem headerFlags_read (i : Fin 32) (sr more cont : Bool) :
    let b := headerFlags sr more cont ||| (UInt8.ofNat i.val <<< 3)
    (b &&& PACKED_HEADER_FLAG_SR_ACTIVE != 0) = sr ∧
      (b &&& PACKED_HEADER_FLAG_MORE_CHUNKS != 0) = more ∧
      (b &&& PACKED_HEADER_FLAG_CONTINUATION != 0) = cont ∧ b >>> 3 = UInt8.ofNat i.val := by
  revert i sr more cont
  decide

theorem decodePackedHeader_chunk (v : UInt8) (sr more : Bool) {i : Nat} (hi : i < 32)
    (rest : Bytes) :
    decodePackedHeader (packedHeaderChunk v sr more (i != 0) (UInt8.ofNat i) ++ rest) =
      some (chunkHeader v sr more (i != 0) (UInt8.ofNat i)) := by
  obtain ⟨hsr, hmore, hcont, hidx⟩ := headerFlags_read ⟨i, hi⟩ sr more (i != 0)
  have hbyte : byteAt (packedHeaderChunk v sr more (i != 0) (UInt8.ofNat i) ++ rest) 4 =
      headerFlags sr more (i != 0) ||| (UInt8.ofNat i <<< 3) := rfl
  have hrefused : (UInt8.ofNat i != 0 &&
      (headerFlags sr more (i != 0) ||| (UInt8.ofNat i <<< 3)) &&&
        PACKED_HEADER_FLAG_CONTINUATION == 0) = false := by
    by_cases h0 : i = 0
    · subst h0
      rfl
    · have hne : (i != 0) = true := by simpa using h0
      rw [hne] at hcont ⊢
      rw [bne, Bool.not_eq_true'] at hcont
      rw [hcont, Bool.and_false]
  unfold decodePackedHeader
  rw [if_neg (by rw [List.length_append, length_packedHeaderChunk]; omega), hbyte, hidx, hsr, hmore,
    hcont, hrefused]
  rfl

/-- The flags of an entry read back. -/
theorem entryFlags_read (sr hears : Bool) :
    let b := flag sr PACKED_NEIGHBOR_FLAG_SR_ACTIVE ||| flag hears PACKED_NEIGHBOR_FLAG_HEARS_US
    (b &&& PACKED_NEIGHBOR_FLAG_SR_ACTIVE != 0) = sr ∧
      (b &&& PACKED_NEIGHBOR_FLAG_HEARS_US != 0) = hears := by
  revert sr hears
  decide

/-- A neighbour reads back from where its entry stands. -/
theorem packedNeighborAt_entry {data : Bytes} {base : Nat} {n : PackedNeighbor}
    (h : slice data base PACKED_NEIGHBOR_ENTRY_SIZE = packedNeighborEntry n) :
    packedNeighborAt data base = n := by
  obtain ⟨hsr, hhears⟩ := entryFlags_read n.signalRoutingActive n.hearsUs
  have hid : ofLe32 (packedNeighborEntry n) = ofLe32 (le32 n.nodeId) := rfl
  have hflags : byteAt (packedNeighborEntry n) 6 =
      flag n.signalRoutingActive PACKED_NEIGHBOR_FLAG_SR_ACTIVE |||
        flag n.hearsUs PACKED_NEIGHBOR_FLAG_HEARS_US := rfl
  unfold packedNeighborAt
  dsimp only
  rw [h, hid, ofLe32_le32, hflags, hsr, hhears]
  rfl

/-- The entries of a chunk lie one behind the other. -/
theorem slice_entries {ns : List PackedNeighbor} {i : Nat} {n : PackedNeighbor}
    (hn : ns[i]? = some n) (rest : Bytes) :
    slice (ns.flatMap packedNeighborEntry ++ rest) (i * PACKED_NEIGHBOR_ENTRY_SIZE)
      PACKED_NEIGHBOR_ENTRY_SIZE = packedNeighborEntry n := by
  induction ns generalizing i with
  | nil => cases hn
  | cons m ms ih =>
    rw [List.flatMap_cons, List.append_assoc]
    cases i with
    | zero =>
      rw [List.getElem?_cons_zero, Option.some.injEq] at hn
      subst hn
      rw [Nat.zero_mul]
      exact slice_zero_self (packedNeighborEntry m) _
    | succ j =>
      rw [List.getElem?_cons_succ] at hn
      have hoff : (j + 1) * PACKED_NEIGHBOR_ENTRY_SIZE =
          (packedNeighborEntry m).length + j * PACKED_NEIGHBOR_ENTRY_SIZE := by
        rw [length_packedNeighborEntry, Nat.succ_mul, Nat.add_comm]
      rw [hoff, slice_append_right]
      exact ih hn

theorem length_entries (ns : List PackedNeighbor) :
    (ns.flatMap packedNeighborEntry).length = ns.length * PACKED_NEIGHBOR_ENTRY_SIZE := by
  induction ns with
  | nil => rfl
  | cons m ms ih =>
    rw [List.flatMap_cons, List.length_append, ih, length_packedNeighborEntry, List.length_cons,
      Nat.succ_mul, Nat.add_comm]

/-- The bytes of a chunk. -/
def packedChunk (v : UInt8) (sr more : Bool) (i : Nat) (ns : List PackedNeighbor) : Bytes :=
  packedHeaderChunk v sr more (i != 0) (UInt8.ofNat i) ++ ns.flatMap packedNeighborEntry

theorem length_packedChunk (v : UInt8) (sr more : Bool) (i : Nat) (ns : List PackedNeighbor) :
    (packedChunk v sr more i ns).length =
      PACKED_NEIGHBOR_HEADER_SIZE + ns.length * PACKED_NEIGHBOR_ENTRY_SIZE := by
  rw [packedChunk, List.length_append, length_packedHeaderChunk, length_entries]

/-- A chunk of no more neighbours than asked for reads back. -/
theorem decodePackedNeighbors_encode (v : UInt8) (sr more : Bool) {i maxEntries : Nat}
    {ns : List PackedNeighbor} (hi : i < 32) (hmax : ns.length ≤ min maxEntries 32) :
    decodePackedNeighbors (packedChunk v sr more i ns) maxEntries =
      some (chunkHeader v sr more (i != 0) (UInt8.ofNat i), ns) := by
  have hdata := length_packedChunk v sr more i ns
  have hsize : (chunkHeader v sr more (i != 0) (UInt8.ofNat i)).entrySize.toNat =
      PACKED_NEIGHBOR_ENTRY_SIZE := rfl
  have hpayload : (packedChunk v sr more i ns).length - PACKED_NEIGHBOR_HEADER_SIZE =
      ns.length * PACKED_NEIGHBOR_ENTRY_SIZE := by omega
  have hcount : ns.length * PACKED_NEIGHBOR_ENTRY_SIZE / PACKED_NEIGHBOR_ENTRY_SIZE = ns.length :=
    Nat.mul_div_cancel _ (by decide)
  have hmod : ns.length * PACKED_NEIGHBOR_ENTRY_SIZE % PACKED_NEIGHBOR_ENTRY_SIZE = 0 :=
    Nat.mul_mod_left _ _
  unfold decodePackedNeighbors
  rw [show decodePackedHeader (packedChunk v sr more i ns) = _ from
    decodePackedHeader_chunk v sr more hi _]
  dsimp only
  rw [hsize, hpayload, hcount, hmod]
  have hformat : (chunkHeader v sr more (i != 0) (UInt8.ofNat i)).formatVersion =
      PACKED_NEIGHBOR_FORMAT_VERSION := rfl
  rw [hformat, if_neg (by decide), if_neg (by decide), if_neg (by decide), if_neg (by omega),
    hdata]
  have hall : ((List.range ns.length).takeWhile fun j =>
      decide (PACKED_NEIGHBOR_HEADER_SIZE + j * PACKED_NEIGHBOR_ENTRY_SIZE +
        PACKED_NEIGHBOR_ENTRY_SIZE ≤
          PACKED_NEIGHBOR_HEADER_SIZE + ns.length * PACKED_NEIGHBOR_ENTRY_SIZE)) =
      List.range ns.length := by
    rw [List.takeWhile_eq_self_iff]
    intro j hj
    rw [List.mem_range] at hj
    have := Nat.mul_le_mul_right PACKED_NEIGHBOR_ENTRY_SIZE hj
    rw [Nat.succ_mul] at this
    rw [decide_eq_true_iff]
    omega
  rw [hall]
  congr 2
  apply List.ext_getElem?
  intro j
  rw [List.getElem?_map]
  by_cases hj : j < ns.length
  · rw [List.getElem?_range hj, List.getElem?_eq_getElem hj]
    have hslice := slice_entries (List.getElem?_eq_getElem hj) []
    rw [List.append_nil] at hslice
    have hbase : slice (packedChunk v sr more i ns)
        (PACKED_NEIGHBOR_HEADER_SIZE + j * PACKED_NEIGHBOR_ENTRY_SIZE) PACKED_NEIGHBOR_ENTRY_SIZE =
        packedNeighborEntry ns[j] := by
      rw [packedChunk, ← length_packedHeaderChunk v sr more (i != 0) (UInt8.ofNat i),
        slice_append_right]
      exact hslice
    rw [Option.map_some, packedNeighborAt_entry hbase]
  · rw [List.getElem?_eq_none (by simpa using hj), List.getElem?_eq_none (by omega)]
    rfl

/-! ## Chunks of a list -/

/-- Chunk `i` of a list cut into chunks of `width`. -/
def chunk {α : Type} (width i : Nat) (xs : List α) : List α := (xs.drop (i * width)).take width

/-- The first `count` chunks are the list up to where the last of them ends. -/
theorem flatten_chunks {α : Type} (width count : Nat) (xs : List α) :
    (List.range count).flatMap (fun i => chunk width i xs) = xs.take (count * width) := by
  induction count with
  | zero => rw [Nat.zero_mul, List.take_zero, List.range_zero, List.flatMap_nil]
  | succ count ih =>
    rw [List.range_succ, List.flatMap_append, ih, List.flatMap_singleton, chunk, Nat.succ_mul,
      List.take_add]

end Meshrustic.Topology
