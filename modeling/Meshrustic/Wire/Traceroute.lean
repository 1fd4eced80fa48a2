import Meshrustic.RateLimit.Limiter
import Meshrustic.Wire.Frame
import Meshrustic.Wire.RouteDiscovery

/-!
# What a relay adds to a trace (`mesh-routing/src/traceroute.rs:137-203`)

A relay appends its id and the SNR it heard the packet with, on two lists with a test of
the room for each. Before that, relays that left no trace, of which the hop fields of the
header tell, get a pair of their own. The destination adds its SNR alone.

The hop fields are three bits, so the pairs that are filled in never take the last place
(`hopsAway_le`): what is appended after them stands at one index on both lists.

Results:
* `Relaying.alter_appends`: what one call appends;
* `traceroute_aligned`: the lists after any chain of relays.
-/
namespace Meshrustic.Wire

open Meshrustic.RateLimit (NODENUM_BROADCAST)
open Meshrustic.Routing (ParsedPacket hopsAway)

/-- `i8::MIN` -/
def SNR_UNKNOWN : Int32 := -128

/-- Pushes until the list is full. -/
def pushTimes {cap : Nat} {α : Type} (v : α) : Nat → Table cap α → Table cap α
  | 0, t => t
  | n + 1, t =>
    match t.push v with
    | none => t
    | some t => pushTimes v n t

/-- mirrors crates/mesh-routing/src/traceroute.rs:151-178 -/
def insertUnknownHops (rd : RouteDiscovery) (parsed : ParsedPacket) (hopStartKnown back : Bool) :
    RouteDiscovery :=
  match hopsAway parsed.hopStart parsed.hopLimit hopStartKnown with
  | none => rd
  | some hopsTaken =>
    let routeLen := UInt8.ofNat (rd.ids back).rows.length
    let route :=
      if routeLen < hopsTaken then
        pushTimes NODENUM_BROADCAST (hopsTaken.toNat - routeLen.toNat) (rd.ids back)
      else rd.ids back
    let snrList := pushTimes SNR_UNKNOWN (route.rows.length - (rd.snrs back).rows.length) (rd.snrs back)
    (rd.setIds back route).setSnrs back snrList

/-- Four times an `i8` fits, so `saturating_mul` is the product.
mirrors crates/mesh-routing/src/traceroute.rs:180-203 -/
def appendIdAndSnr (rd : RouteDiscovery) (nodeNum : UInt32) (snr : Int8) (back snrOnly : Bool) :
    RouteDiscovery :=
  let rd := rd.setSnrs back (((rd.snrs back).push (snr.toInt32 * 4)).getD (rd.snrs back))
  if snrOnly then rd
  else rd.setIds back (((rd.ids back).push nodeNum).getD (rd.ids back))

/-- mirrors crates/mesh-routing/src/traceroute.rs:137-149 -/
def alterOnRelay (rd : RouteDiscovery) (parsed : ParsedPacket) (hopStartKnown : Bool)
    (nodeNum : UInt32) (snr : Int8) (requestId : UInt32) : RouteDiscovery :=
  let back := requestId != 0
  let rd := insertUnknownHops rd parsed hopStartKnown back
  appendIdAndSnr rd nodeNum snr back (parsed.toNode == nodeNum)

/-! ## Calls -/

/-- A node that heard the packet, with any header. -/
structure Relaying where
  header : PacketHeader
  hopStartKnown : Bool
  nodeNum : UInt32
  snr : Int8
  requestId : UInt32

namespace Relaying

def back (c : Relaying) : Bool := c.requestId != 0

/-- The node is the one the packet is for. -/
def isDestination (c : Relaying) : Bool := c.header.toNode == c.nodeNum

def alter (rd : RouteDiscovery) (c : Relaying) : RouteDiscovery :=
  alterOnRelay rd c.header.parse c.hopStartKnown c.nodeNum c.snr c.requestId

/-- The relays that the hop fields tell of and the trace does not have. -/
def unrecorded (c : Relaying) (rd : RouteDiscovery) : Nat :=
  match hopsAway c.header.hopStart c.header.hopLimit c.hopStartKnown with
  | none => 0
  | some hopsTaken => hopsTaken.toNat - (rd.ids c.back).rows.length

/-- What a call makes of a trace: its own pair behind those of the relays that left none; nothing
when the lists are full. -/
structure Appends (c : Relaying) (rd rd' : RouteDiscovery) : Prop where
  full : (rd.ids c.back).rows.length = ROUTE_SIZE → rd' = rd
  ids : (rd.ids c.back).rows.length < ROUTE_SIZE →
    (rd'.ids c.back).rows = (rd.ids c.back).rows ++
      List.replicate (c.unrecorded rd) NODENUM_BROADCAST ++ if c.isDestination then [] else [c.nodeNum]
  snrs : (rd.ids c.back).rows.length < ROUTE_SIZE →
    (rd'.snrs c.back).rows = (rd.snrs c.back).rows ++
      List.replicate (c.unrecorded rd) SNR_UNKNOWN ++ [c.snr.toInt32 * 4]
  others : rd'.ids (!c.back) = rd.ids (!c.back) ∧ rd'.snrs (!c.back) = rd.snrs (!c.back)

end Relaying

/-- As many SNRs as ids. -/
def Aligned (rd : RouteDiscovery) (back : Bool) : Prop :=
  (rd.ids back).rows.length = (rd.snrs back).rows.length

instance (rd : RouteDiscovery) (back : Bool) : Decidable (Aligned rd back) :=
  inferInstanceAs (Decidable (_ = _))

/-! ## What one call appends -/

theorem pushTimes_rows {cap : Nat} {α : Type} (v : α) {n : Nat} {t : Table cap α}
    (h : t.rows.length + n ≤ cap) : (pushTimes v n t).rows = t.rows ++ List.replicate n v := by
  induction n generalizing t with
  | zero => simp [pushTimes]
  | succ n ih =>
    obtain ⟨t', hpush, hrows⟩ := push_of_room (show t.rows.length + 1 ≤ cap by omega) v
    simp only [pushTimes, hpush]
    rw [ih (by rw [hrows]; simp; omega), hrows, List.append_assoc]
    rfl

theorem push_getD_rows {cap : Nat} {α : Type} {t : Table cap α} (h : t.rows.length < cap) (v : α) :
    ((t.push v).getD t).rows = t.rows ++ [v] := by
  obtain ⟨t', hpush, hrows⟩ := push_of_room h v
  rw [hpush, Option.getD_some, hrows]

theorem push_getD_full {cap : Nat} {α : Type} {t : Table cap α} (h : t.rows.length = cap) (v : α) :
    (t.push v).getD t = t := by
  rw [Table.push, dif_neg (by omega)]
  rfl

/-- The hop fields are three bits. -/
theorem hopStart_lt (h : PacketHeader) : h.hopStart.toNat < ROUTE_SIZE := by
  have hflags := (h.flags &&& PACKET_FLAGS_HOP_START_MASK).toNat_lt
  unfold PacketHeader.hopStart PACKET_FLAGS_HOP_START_SHIFT
  rw [UInt8.toNat_shiftRight]
  change _ >>> 5 < 8
  rw [Nat.shiftRight_eq_div_pow]
  omega

theorem hopsAway_lt {h : PacketHeader} {known : Bool} {hops : UInt8}
    (hh : hopsAway h.hopStart h.hopLimit known = some hops) : hops.toNat < ROUTE_SIZE := by
  have hstart := hopStart_lt h
  unfold hopsAway at hh
  split at hh
  · cases hh
  · split at hh
    · cases hh
    · rename_i hle
      rw [Option.some.injEq] at hh
      rw [UInt8.lt_iff_toNat_lt, Nat.not_lt] at hle
      rw [← hh, UInt8.toNat_sub_of_le _ _ (UInt8.le_iff_toNat_le.mpr hle)]
      omega

namespace Relaying

variable {rd : RouteDiscovery} {c : Relaying}

/-- There is a place left for the pair of the relay itself. -/
theorem unrecorded_lt (h : (rd.ids c.back).rows.length < ROUTE_SIZE) :
    (rd.ids c.back).rows.length + c.unrecorded rd < ROUTE_SIZE := by
  unfold unrecorded
  split
  · exact h
  · rename_i hops hhops
    have := hopsAway_lt hhops
    omega

/-- The pairs of the relays that left no trace. -/
theorem insertUnknownHops_rows (haligned : Aligned rd c.back) :
    (((insertUnknownHops rd c.header.parse c.hopStartKnown c.back).ids c.back).rows =
        (rd.ids c.back).rows ++ List.replicate (c.unrecorded rd) NODENUM_BROADCAST) ∧
      (((insertUnknownHops rd c.header.parse c.hopStartKnown c.back).snrs c.back).rows =
        (rd.snrs c.back).rows ++ List.replicate (c.unrecorded rd) SNR_UNKNOWN) := by
  have haway : hopsAway c.header.parse.hopStart c.header.parse.hopLimit c.hopStartKnown =
      hopsAway c.header.hopStart c.header.hopLimit c.hopStartKnown := rfl
  unfold insertUnknownHops unrecorded
  rw [haway]
  rcases hhops : hopsAway c.header.hopStart c.header.hopLimit c.hopStartKnown with - | hops
  · simp
  · have hlt := hopsAway_lt hhops
    have hle := (rd.ids c.back).le
    have hlen : (UInt8.ofNat (rd.ids c.back).rows.length).toNat = (rd.ids c.back).rows.length := by
      rw [UInt8.toNat_ofNat']
      exact Nat.mod_eq_of_lt (Nat.lt_of_le_of_lt hle (by decide))
    have hroute : (if UInt8.ofNat (rd.ids c.back).rows.length < hops then
          pushTimes NODENUM_BROADCAST (hops.toNat - (rd.ids c.back).rows.length) (rd.ids c.back)
        else rd.ids c.back).rows =
        (rd.ids c.back).rows ++
          List.replicate (hops.toNat - (rd.ids c.back).rows.length) NODENUM_BROADCAST := by
      simp only [UInt8.lt_iff_toNat_lt, hlen]
      split
      · exact pushTimes_rows _ (by omega)
      · rw [Nat.sub_eq_zero_of_le (by omega), List.replicate_zero, List.append_nil]
    have haligned' : (rd.ids c.back).rows.length = (rd.snrs c.back).rows.length := haligned
    simp only [hlen, RouteDiscovery.ids_setSnrs, RouteDiscovery.ids_setIds, if_true,
      RouteDiscovery.snrs_setSnrs, hroute, List.length_append, List.length_replicate, true_and]
    rw [haligned', Nat.add_sub_cancel_left]
    exact pushTimes_rows _ (by omega)

theorem insertUnknownHops_others (rd : RouteDiscovery) (parsed : ParsedPacket) (known back : Bool) :
    (insertUnknownHops rd parsed known back).ids (!back) = rd.ids (!back) ∧
      (insertUnknownHops rd parsed known back).snrs (!back) = rd.snrs (!back) := by
  unfold insertUnknownHops
  split
  · exact ⟨rfl, rfl⟩
  · simp

theorem unrecorded_full (h : (rd.ids c.back).rows.length = ROUTE_SIZE) : c.unrecorded rd = 0 := by
  unfold unrecorded
  split
  · rfl
  · rename_i hops hhops
    have := hopsAway_lt hhops
    omega

/-- A call appends its own pair behind those of the relays that left none. -/
theorem alter_appends (haligned : Aligned rd c.back) : c.Appends rd (c.alter rd) := by
  obtain ⟨hids, hsnrs⟩ := insertUnknownHops_rows haligned
  obtain ⟨hothers, hothers'⟩ := insertUnknownHops_others rd c.header.parse c.hopStartKnown c.back
  have halter : c.alter rd = appendIdAndSnr (insertUnknownHops rd c.header.parse c.hopStartKnown c.back)
      c.nodeNum c.snr c.back c.isDestination := rfl
  generalize insertUnknownHops rd c.header.parse c.hopStartKnown c.back = filled at *
  have haligned' : (rd.ids c.back).rows.length = (rd.snrs c.back).rows.length := haligned
  rw [halter, appendIdAndSnr]
  refine ⟨fun hfull => ?_, fun hroom => ?_, fun hroom => ?_, ?_⟩
  · rw [unrecorded_full hfull, List.replicate_zero, List.append_nil] at hids hsnrs
    have hpush := push_getD_full (hsnrs ▸ haligned' ▸ hfull) (c.snr.toInt32 * 4)
    have hpush' := push_getD_full (hids ▸ hfull) c.nodeNum
    refine RouteDiscovery.ext_lists (fun b => ?_) (fun b => ?_) <;>
      obtain rfl | rfl : b = c.back ∨ b = !c.back := by cases b <;> cases c.back <;> simp
    all_goals cases c.isDestination <;> simp [hpush, hpush', hids, hsnrs, hothers, hothers']
  · have hlt := unrecorded_lt hroom
    have hpush := push_getD_rows (t := filled.ids c.back) (by rw [hids]; simpa using hlt) c.nodeNum
    cases c.isDestination <;> simp [hpush, hids]
  · have hlt := unrecorded_lt hroom
    have hpush := push_getD_rows (t := filled.snrs c.back) (by rw [hsnrs]; simp; omega)
      (c.snr.toInt32 * 4)
    cases c.isDestination <;> simp [hpush, hsnrs]
  · cases c.isDestination <;> simp [hothers, hothers']

end Relaying

/-! ## Chains of relays -/

/-- A relay on the way of the trace, which is not the destination. -/
def Relaying.IsRelay (c : Relaying) (back : Bool) : Prop := c.back = back ∧ c.isDestination = false

instance (c : Relaying) (back : Bool) : Decidable (c.IsRelay back) :=
  inferInstanceAs (Decidable (_ ∧ _))

/-- The lists of a direction have grown together, and those of the other are untouched. -/
structure Grown (back : Bool) (rd rd' : RouteDiscovery) : Prop where
  aligned : Aligned rd' back
  ids : (rd.ids back).rows <+: (rd'.ids back).rows
  snrs : (rd.snrs back).rows <+: (rd'.snrs back).rows
  others : rd'.ids (!back) = rd.ids (!back) ∧ rd'.snrs (!back) = rd.snrs (!back)

theorem Grown.refl {back : Bool} {rd : RouteDiscovery} (h : Aligned rd back) : Grown back rd rd :=
  ⟨h, List.prefix_rfl, List.prefix_rfl, rfl, rfl⟩

theorem Grown.trans {back : Bool} {rd rd' rd'' : RouteDiscovery} (h : Grown back rd rd')
    (h' : Grown back rd' rd'') : Grown back rd rd'' :=
  ⟨h'.aligned, h.ids.trans h'.ids, h.snrs.trans h'.snrs, h'.others.1.trans h.others.1,
    h'.others.2.trans h.others.2⟩

theorem Relaying.alter_grown {back : Bool} {rd : RouteDiscovery} {c : Relaying} (h : Aligned rd back)
    (hc : c.IsRelay back) : Grown back rd (c.alter rd) := by
  obtain ⟨rfl, hrelay⟩ := hc
  have happends := alter_appends h
  rcases Nat.lt_or_eq_of_le (rd.ids c.back).le with hroom | hfull
  · have hids := happends.ids hroom
    have hsnrs := happends.snrs hroom
    have h' : (rd.ids c.back).rows.length = (rd.snrs c.back).rows.length := h
    refine ⟨?_, ?_, ?_, happends.others⟩
    · rw [Aligned, hids, hsnrs, hrelay]
      simp [h']
    · rw [hids, List.append_assoc]
      exact List.prefix_append ..
    · rw [hsnrs, List.append_assoc]
      exact List.prefix_append ..
  · rw [happends.full hfull]
    exact .refl h

/-- Over any chain of relays the lists grow together. -/
theorem relays_grown {back : Bool} {rd : RouteDiscovery} (h : Aligned rd back) {calls : List Relaying}
    (hcalls : ∀ c ∈ calls, c.IsRelay back) : Grown back rd (calls.foldl Relaying.alter rd) := by
  induction calls generalizing rd with
  | nil => exact .refl h
  | cons c calls ih =>
    obtain ⟨hc, hcalls⟩ := List.forall_mem_cons.mp hcalls
    have hfirst := Relaying.alter_grown h hc
    exact hfirst.trans (ih hfirst.aligned hcalls)

/-- After any chain of relays the lists are aligned, and a further call, of a relay or of the
destination, appends its own entries behind the pairs of the relays that left none. -/
theorem traceroute_aligned {back : Bool} {rd : RouteDiscovery} (h : Aligned rd back)
    {calls : List Relaying} (hcalls : ∀ c ∈ calls, c.IsRelay back) :
    Grown back rd (calls.foldl Relaying.alter rd) ∧
      ∀ c : Relaying, c.back = back →
        c.Appends (calls.foldl Relaying.alter rd) (c.alter (calls.foldl Relaying.alter rd)) := by
  have hgrown := relays_grown h hcalls
  exact ⟨hgrown, fun c hc => Relaying.alter_appends (hc ▸ hgrown.aligned)⟩

/-- A packet for node 9, from which `hopLimit` of three hops are left. -/
def heardBy (nodeNum : UInt32) (hopLimit : UInt8) (snr : Int8) : Relaying :=
  ⟨.fromFields 9 1 77 8 hopLimit 3 false false 0 0, true, nodeNum, snr, 0⟩

/-- The second of two relays left no trace. -/
theorem traceroute_aligned_two :
    Grown false {} ([heardBy 2 3 10, heardBy 4 1 (-5)].foldl Relaying.alter {}) :=
  (traceroute_aligned (by decide) (by decide +kernel)).1

example :
    (([heardBy 2 3 10, heardBy 4 1 (-5)].foldl Relaying.alter {}).route.rows,
      ([heardBy 2 3 10, heardBy 4 1 (-5)].foldl Relaying.alter {}).snrTowards.rows) =
      ([2, NODENUM_BROADCAST, 4], [40, SNR_UNKNOWN, -20]) := by
  decide +kernel

/-- The destination adds ids, when relays left no trace. -/
theorem destination_adds_ids :
    (heardBy 9 0 8).isDestination = true ∧ Aligned {} (heardBy 9 0 8).back ∧
      (((heardBy 9 0 8).alter {}).ids (heardBy 9 0 8).back).rows = List.replicate 3 NODENUM_BROADCAST ∧
      (((heardBy 9 0 8).alter {}).snrs (heardBy 9 0 8).back).rows.length = 4 := by
  decide +kernel

end Meshrustic.Wire
