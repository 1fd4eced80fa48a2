import Mathlib.Algebra.Group.Nat.Defs
import Mathlib.Order.Monotone.Basic
import Meshrustic.Graph.Route

/-!
# The price of silence (`mesh-routing/src/graph/edge.rs:67-100`, `route.rs:234-250`)

A link of ours that is not heard grows dearer: from half a period on in a flat ramp, from a whole
period on in a steep one, and from two periods on no more. Half a period is rounded down, so for
an odd period the flat ramp is longer than its divisor.

Results:
* `silenceEtx_checked`: no operation of the ramp leaves its width, and no cast drops a bit;
* `silenceEtx_monotone`, `silenceVariance_monotone`: the ramp and the byte made of it never fall;
* `silence_only_dearer`: nor does the price of a hop, which stays below the unreachable cost.
-/
namespace Meshrustic.Graph

/-! ## Arithmetic that is checked -/

/-- A sum, a product or a cast of `w` bits. -/
def fits (w n : Nat) : Option Nat := if n < 2 ^ w then some n else none

def checkedSub (a b : Nat) : Option Nat := if b ≤ a then some (a - b) else none

def checkedDiv (a b : Nat) : Option Nat := if b = 0 then none else some (a / b)

theorem fits_of_lt {w n : Nat} (h : n < 2 ^ w) : fits w n = some n := if_pos h

theorem checkedSub_of_le {a b : Nat} (h : b ≤ a) : checkedSub a b = some (a - b) := if_pos h

theorem checkedDiv_of_pos {a b : Nat} (h : 0 < b) : checkedDiv a b = some (a / b) :=
  if_neg (Nat.ne_of_gt h)

/-- The ramp, with each operation in the width the code computes it in.
mirrors crates/mesh-routing/src/graph/edge.rs:67-86 -/
def silenceEtxFixedChecked (ageMs periodMs : Nat) : Option Nat :=
  if periodMs < 2 then some 1275
  else
    let half := periodMs / 2
    if ageMs < half then some 0
    else if ageMs < periodMs then do
      let late ← checkedSub ageMs half
      let num ← fits 64 (late * 50)
      let etx ← checkedDiv num half
      fits 16 etx
    else do
      let two ← fits 64 (periodMs * 2)
      if ageMs < two then do
        let late ← checkedSub ageMs periodMs
        let num ← fits 64 (late * 550)
        let steep ← checkedDiv num periodMs
        let etx ← fits 64 (50 + steep)
        fits 16 etx
      else some 1275

/-- mirrors crates/mesh-routing/src/graph/edge.rs:88-91 -/
def silenceVarianceByteChecked (ageMs periodMs : Nat) : Option Nat := do
  let fixed ← silenceEtxFixedChecked ageMs periodMs
  let scaled ← fits 32 (fixed * 20)
  let rounded ← fits 32 (scaled + 50)
  fits 8 (min (rounded / 100) 255)

/-! ## The ramp -/

section Ramp

variable {ageMs periodMs : Nat}

/-- Half an odd period is rounded down, and still the flat ramp ends at 50. -/
theorem flatRamp_le (hage : ageMs < periodMs) :
    (ageMs - periodMs / 2) * 50 / (periodMs / 2) ≤ 50 := by
  apply Nat.div_le_of_le_mul
  have hlate : ageMs - periodMs / 2 ≤ periodMs / 2 := by omega
  exact Nat.mul_le_mul_right 50 hlate

theorem steepRamp_le (hage : ageMs < periodMs * 2) :
    (ageMs - periodMs) * 550 / periodMs ≤ 550 := by
  apply Nat.div_le_of_le_mul
  have hlate : ageMs - periodMs ≤ periodMs := by omega
  exact Nat.mul_le_mul_right 550 hlate

/-- The ramps, one after the other. -/
theorem silenceEtx_cases (ageMs periodMs : Nat) :
    (periodMs < 2 ∧ silenceEtxFixedFromAge ageMs periodMs = 1275) ∨
    (2 ≤ periodMs ∧ ageMs < periodMs / 2 ∧ silenceEtxFixedFromAge ageMs periodMs = 0) ∨
    (2 ≤ periodMs ∧ periodMs / 2 ≤ ageMs ∧ ageMs < periodMs ∧
      silenceEtxFixedFromAge ageMs periodMs = (ageMs - periodMs / 2) * 50 / (periodMs / 2)) ∨
    (2 ≤ periodMs ∧ periodMs ≤ ageMs ∧ ageMs < periodMs * 2 ∧
      silenceEtxFixedFromAge ageMs periodMs = 50 + (ageMs - periodMs) * 550 / periodMs) ∨
    (2 ≤ periodMs ∧ periodMs * 2 ≤ ageMs ∧ silenceEtxFixedFromAge ageMs periodMs = 1275) := by
  unfold silenceEtxFixedFromAge
  by_cases hperiod : periodMs < 2
  · exact .inl ⟨hperiod, if_pos hperiod⟩
  have htwo := Nat.le_of_not_lt hperiod
  simp only [if_neg hperiod]
  by_cases hhalf : ageMs < periodMs / 2
  · exact .inr (.inl ⟨htwo, hhalf, if_pos hhalf⟩)
  simp only [if_neg hhalf]
  by_cases hflat : ageMs < periodMs
  · exact .inr (.inr (.inl ⟨htwo, Nat.le_of_not_lt hhalf, hflat, if_pos hflat⟩))
  simp only [if_neg hflat]
  by_cases hsteep : ageMs < periodMs * 2
  · exact .inr (.inr (.inr (.inl ⟨htwo, Nat.le_of_not_lt hflat, hsteep, if_pos hsteep⟩)))
  · exact .inr (.inr (.inr (.inr ⟨htwo, Nat.le_of_not_lt hsteep, if_neg hsteep⟩)))

theorem silenceEtx_le (ageMs periodMs : Nat) : silenceEtxFixedFromAge ageMs periodMs ≤ 1275 := by
  obtain ⟨-, h⟩ | ⟨-, -, h⟩ | ⟨-, -, hage, h⟩ | ⟨-, -, hage, h⟩ | ⟨-, -, h⟩ :=
    silenceEtx_cases ageMs periodMs
  · omega
  · omega
  · have hflat := flatRamp_le hage
    omega
  · have hsteep := steepRamp_le hage
    omega
  · omega

/-- The ramp never falls. -/
theorem silenceEtx_monotone (periodMs : Nat) :
    Monotone fun ageMs => silenceEtxFixedFromAge ageMs periodMs := by
  intro a b hab
  change silenceEtxFixedFromAge a periodMs ≤ silenceEtxFixedFromAge b periodMs
  have hbound := silenceEtx_le a periodMs
  obtain ⟨hperiod, h⟩ | ⟨hperiod, -, h⟩ | ⟨hperiod, hfrom, hage, h⟩ | ⟨hperiod, hfrom, hage, h⟩ |
    ⟨hperiod, hfrom, h⟩ := silenceEtx_cases a periodMs <;>
  obtain ⟨hsame, h'⟩ | ⟨hsame, hto, h'⟩ | ⟨hsame, -, hto, h'⟩ | ⟨hsame, -, hto, h'⟩ |
    ⟨hsame, -, h'⟩ := silenceEtx_cases b periodMs <;>
  try omega
  · -- both on the flat ramp
    rw [h, h']
    apply Nat.div_le_div_right
    exact Nat.mul_le_mul_right 50 (Nat.sub_le_sub_right hab _)
  · -- the flat ramp ends where the steep one begins
    rw [h, h']
    exact Nat.le_trans (flatRamp_le hage) (Nat.le_add_right 50 _)
  · -- both on the steep ramp
    rw [h, h']
    apply Nat.add_le_add_left
    apply Nat.div_le_div_right
    exact Nat.mul_le_mul_right 550 (Nat.sub_le_sub_right hab _)

/-- No operation leaves its width, for any age and period of 32 bits. -/
theorem silenceEtx_checked (hage : ageMs < 2 ^ 32) (hperiod : periodMs < 2 ^ 32) :
    silenceEtxFixedChecked ageMs periodMs = some (silenceEtxFixedFromAge ageMs periodMs) := by
  unfold silenceEtxFixedChecked silenceEtxFixedFromAge
  dsimp only
  split
  · rfl
  split
  · rfl
  split
  · rename_i hlow hhalf hflat
    have hramp := flatRamp_le hflat
    rw [checkedSub_of_le (by omega), Option.bind_eq_bind, Option.bind_some, fits_of_lt (by omega),
      Option.bind_some, checkedDiv_of_pos (by omega), Option.bind_some, fits_of_lt (by omega)]
  · rename_i hlow hhalf hflat
    rw [fits_of_lt (by omega), Option.bind_eq_bind, Option.bind_some]
    split
    · rename_i hsteep
      have hramp := steepRamp_le hsteep
      rw [checkedSub_of_le (by omega), Option.bind_some, fits_of_lt (by omega),
        Option.bind_some, checkedDiv_of_pos (by omega), Option.bind_some,
        fits_of_lt (by omega), Option.bind_some, fits_of_lt (by omega)]
    · rfl

/-- The byte that is added to the variance of a link. -/
theorem silenceVariance_monotone (periodMs : Nat) :
    Monotone fun ageMs => silenceVarianceByteFromAge ageMs periodMs := by
  intro a b hab
  have hetx := silenceEtx_monotone periodMs hab
  simp only at hetx
  change silenceVarianceByteFromAge a periodMs ≤ silenceVarianceByteFromAge b periodMs
  unfold silenceVarianceByteFromAge
  have hrounded := Nat.div_le_div_right (c := 100)
    (show silenceEtxFixedFromAge a periodMs * 20 + 50 ≤
      silenceEtxFixedFromAge b periodMs * 20 + 50 by omega)
  omega

theorem silenceVariance_checked (hage : ageMs < 2 ^ 32) (hperiod : periodMs < 2 ^ 32) :
    silenceVarianceByteChecked ageMs periodMs =
      some (silenceVarianceByteFromAge ageMs periodMs) := by
  have hetx := silenceEtx_le ageMs periodMs
  unfold silenceVarianceByteChecked
  rw [silenceEtx_checked hage hperiod, Option.bind_eq_bind, Option.bind_some,
    fits_of_lt (by omega), Option.bind_some, fits_of_lt (by omega), Option.bind_some,
    fits_of_lt (by omega)]
  rfl

end Ramp

/-! ## The price of a hop -/

section Price

variable (periodMs : Nat) (edge : Edge) (listOwner myNode : UInt32) (ourRx unverified : Bool)
  {t₁ t₂ : Nat}

/-- The edge was never heard, or last at a moment from which both times are less than one turn
of the clock away. -/
def HeardBefore (edge : Edge) (t₁ t₂ : Nat) : Prop :=
  edge.lastHeardMs = 0 ∨
    ∃ heard, edge.lastHeardMs = clock heard ∧ heard ≤ t₁ ∧ t₂ - heard < CLOCK_PERIOD

/-- Within one turn the age that the code reads off the clock is the real one. -/
theorem toNat_age {heard t : Nat} (hheard : heard ≤ t) (hturn : t - heard < CLOCK_PERIOD) :
    (clock t - clock heard).toNat = t - heard := by
  rw [clock_sub hheard, Nat.mod_eq_of_lt hturn]

theorem effectiveVariance_le (hheard : HeardBefore edge t₁ t₂) (ht : t₁ ≤ t₂) :
    effectiveVarianceByte edge (clock t₁) periodMs ourRx ≤
      effectiveVarianceByte edge (clock t₂) periodMs ourRx := by
  unfold effectiveVarianceByte
  split
  · exact Nat.le_refl _
  · rename_i hours
    obtain h0 | ⟨heard, hclock, hle, hturn⟩ := hheard
    · simp [h0] at hours
    have hage : t₁ - heard ≤ t₂ - heard := Nat.sub_le_sub_right ht heard
    have hsilence := silenceVariance_monotone periodMs hage
    simp only at hsilence
    simp only [hclock, toNat_age hle (by omega), toNat_age (Nat.le_trans hle ht) hturn]
    omega

theorem priced_le (hheard : HeardBefore edge t₁ t₂) (ht : t₁ ≤ t₂) :
    pricedHopCostFixed edge listOwner myNode (clock t₁) unverified ≤
      pricedHopCostFixed edge listOwner myNode (clock t₂) unverified := by
  have hvariance := effectiveVariance_le TOPOLOGY_BROADCAST_MS edge
    (listOwner == myNode && edge.source == .reported) hheard ht
  unfold pricedHopCostFixed saturatingAdd16
  dsimp only
  have hweighted := Nat.mul_le_mul_right
    (if listOwner == myNode && edge.source == .reported then 10 else 5) hvariance
  omega

theorem priced_lt (nowMs : UInt32) :
    pricedHopCostFixed edge listOwner myNode nowMs unverified < 0xFFFF := by
  unfold pricedHopCostFixed COST_MAX
  dsimp only
  omega

/-- Silence only makes a link dearer: no step of the ramp overflows, the ramp and the byte made of
it do not fall with the age, and between two times at which nothing was heard neither the variance
nor the price of the hop falls. The price never is that of a hop that cannot be made. -/
theorem silence_only_dearer (period : UInt32) (hheard : HeardBefore edge t₁ t₂) (ht : t₁ ≤ t₂) :
    (∀ age : UInt32,
      silenceEtxFixedChecked age.toNat period.toNat =
        some (silenceEtxFixedFromAge age.toNat period.toNat) ∧
      silenceVarianceByteChecked age.toNat period.toNat =
        some (silenceVarianceByteFromAge age.toNat period.toNat) ∧
      silenceEtxFixedFromAge age.toNat period.toNat ≤ 1275) ∧
    (∀ age₁ age₂ : UInt32, age₁ ≤ age₂ →
      silenceEtxFixedFromAge age₁.toNat period.toNat ≤
        silenceEtxFixedFromAge age₂.toNat period.toNat ∧
      silenceVarianceByteFromAge age₁.toNat period.toNat ≤
        silenceVarianceByteFromAge age₂.toNat period.toNat) ∧
    effectiveVarianceByte edge (clock t₁) period.toNat ourRx ≤
      effectiveVarianceByte edge (clock t₂) period.toNat ourRx ∧
    pricedHopCostFixed edge listOwner myNode (clock t₁) unverified ≤
      pricedHopCostFixed edge listOwner myNode (clock t₂) unverified ∧
    pricedHopCostFixed edge listOwner myNode (clock t₂) unverified < 0xFFFF := by
  refine ⟨fun age => ?_, fun age₁ age₂ hage => ?_, ?_, ?_, ?_⟩
  · exact ⟨silenceEtx_checked age.toNat_lt period.toNat_lt,
      silenceVariance_checked age.toNat_lt period.toNat_lt, silenceEtx_le _ _⟩
  · exact ⟨silenceEtx_monotone period.toNat hage, silenceVariance_monotone period.toNat hage⟩
  · exact effectiveVariance_le _ edge ourRx hheard ht
  · exact priced_le edge listOwner myNode unverified hheard ht
  · exact priced_lt edge listOwner myNode unverified _

end Price

/-- A link of ours, last heard shortly before the clock turns. -/
def heardEdge : Edge where
  toNode := 9
  etxFixed := 150
  etxVariance := 4
  source := .reported
  lastHeardMs := clock 4294960000

/-- A quarter of an hour later it costs more. -/
theorem silence_only_dearer_heardEdge :
    pricedHopCostFixed heardEdge 1 1 (clock 4294960000) false = 190 ∧
    pricedHopCostFixed heardEdge 1 1 (clock (4294960000 + 900000)) false = 290 ∧
    pricedHopCostFixed heardEdge 1 1 (clock 4294960000) false ≤
      pricedHopCostFixed heardEdge 1 1 (clock (4294960000 + 900000)) false := by
  have h := silence_only_dearer heardEdge 1 1 true false 899999
    (.inr ⟨4294960000, rfl, Nat.le_refl _, by decide⟩) (Nat.le_add_right 4294960000 900000)
  exact ⟨by decide, by decide, h.2.2.2.1⟩

end Meshrustic.Graph
