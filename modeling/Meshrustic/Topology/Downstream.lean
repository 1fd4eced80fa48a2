import Meshrustic.Relay.Plan

/-!
# Downstream rows (`mesh-routing/src/graph/downstream.rs`)

Nodes beyond the stored graph are remembered as rows "`destination` is served
by `relay`". A full table gives up its oldest row; rows are removed by moving
the last one into the gap.

Prices are `f32` in the firmware. What the tables ask of that arithmetic is
the oracle `F32`, one field for each computation of the source, so that no
result depends on how it rounds.
-/
namespace Meshrustic.Topology

open Meshrustic.Relay

/-- The `f32` computations on prices. -/
structure F32 (Etx : Type) where
  /-- `calculate_etx(rssi, snr, preset)` -/
  calculateEtx : Int32 → Int8 → UInt8 → Etx
  /-- `x.is_finite() && x > 0.0` -/
  positive : Etx → Bool
  /-- `fixed as f32 / 100.0` -/
  ofFixed : UInt16 → Etx
  etxToFixed : Etx → UInt16
  /-- `(cost * 100.0).min(65535.0) as u16` -/
  costToFixed : Etx → UInt16
  /-- `a < b` -/
  below : Etx → Etx → Bool
  /-- `f32::MIN`, below every price -/
  least : Etx
  /-- `f32::MAX` -/
  greatest : Etx
  /-- the variance byte after a change from the fixed price to the new one -/
  updateEtxVariance : UInt8 → UInt16 → Etx → UInt8
  /-- the variance byte after a change of so many hundredths,
  `0.75 * cur + 0.25 * change` -/
  varianceAfter : UInt8 → UInt16 → UInt8
  /-- `x * n as f32` -/
  times : Etx → UInt8 → Etx
  /-- the change exceeds `etx_change_threshold` and the variance -/
  significant : UInt8 → UInt16 → Etx → Bool
  /-- the price of an edge with its age added, `etx + age_s / 300.0` -/
  score : UInt16 → UInt32 → Etx

/-- Prices in whole hundredths, every link being as strong as the table of
delivery probabilities knows (0.95); for runs on fixed lists. -/
def hundredths : F32 UInt16 where
  calculateEtx _ _ _ := 105
  positive x := x != 0
  ofFixed x := x
  etxToFixed x := x
  costToFixed x := x
  below a b := a < b
  least := 0
  greatest := 0xFFFF
  updateEtxVariance var _ _ := var
  varianceAfter var _ := var
  times x n := x * n.toUInt16
  significant _ _ _ := false
  score x _ := x

/-- mirrors crates/mesh-routing/src/graph/downstream.rs:14-21 -/
structure DownstreamRow extends DownstreamEntry where
  viaRadio : UInt8
  listLearned : Bool

/-- mirrors crates/mesh-routing/src/graph/downstream.rs:24-27 -/
structure DownstreamTable where
  entries : Table MAX_DOWNSTREAM DownstreamRow

namespace DownstreamTable

variable (ds : DownstreamTable)

/-- The first row of the greatest age.
mirrors crates/mesh-routing/src/graph/downstream.rs:258-265 -/
def oldestIdx (rows : List DownstreamRow) (nowMs : UInt32) : Nat :=
  (rows.zipIdx.foldl
    (fun (best : Nat × UInt32) (row : DownstreamRow × Nat) =>
      if best.2 < nowMs - row.1.lastUpdateMs then (row.2, nowMs - row.1.lastUpdateMs) else best)
    (0, 0)).1

/-- mirrors crates/mesh-routing/src/graph/downstream.rs:222-275 -/
def upsertEntry (row : DownstreamRow) : DownstreamTable :=
  match ds.entries.rows.findIdx? fun r => r.destination == row.destination && r.relay == row.relay
  with
  | some i =>
    match ds.entries.rows[i]? with
    | none => ds
    | some r => ⟨ds.entries.set i { row with listLearned := row.listLearned || r.listLearned }⟩
  | none =>
    match ds.entries.push row with
    | some entries => ⟨entries⟩
    | none => ⟨ds.entries.set (oldestIdx ds.entries.rows row.lastUpdateMs) row⟩

/-- mirrors crates/mesh-routing/src/graph/downstream.rs:321-357 -/
def updateInner {Etx : Type} (F : F32 Etx) (myNode destination relay : UInt32) (totalCost : Etx)
    (nowMs : UInt32) (relayHasDirectEdge : Bool) (viaRadio : UInt8) (listLearned : Bool) :
    DownstreamTable :=
  if destination == 0 || relay == 0 || destination == relay || destination == myNode ||
      !F.positive totalCost then ds
  else if relayHasDirectEdge then ds
  else ds.upsertEntry ⟨⟨destination, relay, F.costToFixed totalCost, nowMs⟩, viaRadio, listLearned⟩

/-- mirrors crates/mesh-routing/src/graph/downstream.rs:393-405 -/
def clearForRelay (relay : UInt32) : DownstreamTable :=
  ⟨ds.entries.swapOut (·.relay == relay) ds.entries.rows.length 0⟩

/-- mirrors crates/mesh-routing/src/graph/downstream.rs:407-419 -/
def clearForDestination (destination : UInt32) : DownstreamTable :=
  ⟨ds.entries.swapOut (·.destination == destination) ds.entries.rows.length 0⟩

/-- The rows of `oldRelay`, as they stand when the loop meets them, are written
again under `newRelay`; then the old ones go.
mirrors crates/mesh-routing/src/graph/downstream.rs:193-220 -/
def transferDownstream (oldRelay newRelay nowMs : UInt32) : DownstreamTable :=
  if oldRelay == 0 || newRelay == 0 || oldRelay == newRelay then ds
  else
    ((List.range ds.entries.rows.length).foldl
      (fun (ds : DownstreamTable) i =>
        match ds.entries.rows[i]? with
        | none => ds
        | some r =>
          if r.relay != oldRelay then ds
          else ds.upsertEntry { r with relay := newRelay, lastUpdateMs := nowMs })
      ds).clearForRelay oldRelay

end DownstreamTable

end Meshrustic.Topology
