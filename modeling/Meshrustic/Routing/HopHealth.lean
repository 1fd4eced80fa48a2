import Mathlib.Data.List.Dedup
import Mathlib.Data.List.Perm.Subperm
import Meshrustic.Core.Clock
import Meshrustic.Core.Slots

/-!
# The health of next hops (`mesh-routing/src/hop_health.rs:52-142`)

Eight entries, each for a destination and a next hop to it, with the misses in a row and
the time of the last one. An entry ten minutes old is dead; it is cleared when it is asked
for, and until then it may be read by a success or be taken for another pair.

`latestRun` is the rule, read off the calls of the one pair. `Tracks` relates the two: an
entry has the latest run of its pair, and a run that is alive has an entry.

Results:
* `oldest_dead`: the entry that a ninth pair takes is dead.
* `hop_health_rule`: every call answers as the rule, but that a success after a run has died
  depends on whether the entry is still there.
* `hop_health_dead_entry`: so it may depend on other pairs.
-/
namespace Meshrustic.Routing

def HOP_HEALTH_SUSPECT_MISSES : UInt8 := 2
def HOP_HEALTH_SUSPECT_TTL_MS : UInt32 := 600000
def MAX_HOP_HEALTH : Nat := 8

structure HopHealthEntry where
  destination : UInt32
  nextHop : UInt32
  consecutiveMisses : UInt8
  lastMissMs : UInt32
  deriving DecidableEq

namespace HopHealthEntry

def empty : HopHealthEntry := ⟨0, 0, 0, 0⟩

def isOccupied (e : HopHealthEntry) : Bool := e.destination != 0 && e.nextHop != 0

def pair (e : HopHealthEntry) : UInt32 × UInt32 := (e.destination, e.nextHop)

end HopHealthEntry

inductive HopHealthEvent where
  | none
  | becameSuspect (nextHop destination : UInt32) (misses : UInt8)
  | becameHealthy (nextHop destination : UInt32)
  deriving DecidableEq

structure HopHealth where
  entries : Slots MAX_HOP_HEALTH HopHealthEntry
  deriving DecidableEq

namespace HopHealth

def new : HopHealth := ⟨.all .empty⟩

variable (h : HopHealth) (destination nextHop nowMs : UInt32)

def keyed (e : HopHealthEntry) : Bool :=
  e.isOccupied && e.destination == destination && e.nextHop == nextHop

def entry (idx : Nat) : HopHealthEntry := h.entries.cells[idx]?.getD .empty

def set (idx : Nat) (e : HopHealthEntry) : HopHealth := ⟨h.entries.set idx e⟩

/-- mirrors crates/mesh-routing/src/hop_health.rs:59-63 -/
def find : Option Nat := h.entries.cells.findIdx? (keyed destination nextHop)

/-- mirrors crates/mesh-routing/src/hop_health.rs:65-72 -/
def findLive : Option Nat × HopHealth :=
  match h.find destination nextHop with
  | none => (none, h)
  | some idx =>
    if HOP_HEALTH_SUSPECT_TTL_MS ≤ nowMs - (h.entry idx).lastMissMs then (none, h.set idx .empty)
    else (some idx, h)

/-- mirrors crates/mesh-routing/src/hop_health.rs:74-80 -/
def isSuspect : Bool × HopHealth :=
  if destination == 0 || nextHop == 0 then (false, h)
  else
    let (idx, h) := h.findLive destination nextHop nowMs
    (idx.any fun idx => HOP_HEALTH_SUSPECT_MISSES ≤ (h.entry idx).consecutiveMisses, h)

/-- The scan for the oldest entry; of two of one age it takes the later one.
mirrors crates/mesh-routing/src/hop_health.rs:104-113 -/
def oldestFrom : List HopHealthEntry → (i best : Nat) → (bestAge : UInt32) → Nat
  | [], _, best, _ => best
  | e :: es, i, best, bestAge =>
    let age := nowMs - e.lastMissMs
    if bestAge ≤ age then oldestFrom es (i + 1) i age else oldestFrom es (i + 1) best bestAge

/-- mirrors crates/mesh-routing/src/hop_health.rs:82-122 -/
def recordMiss : HopHealthEvent × HopHealth :=
  if destination == 0 || nextHop == 0 then (.none, h)
  else
    match h.findLive destination nextHop nowMs with
    | (some idx, h) =>
      let e := h.entry idx
      -- `saturating_add(1)`
      let misses := if e.consecutiveMisses < 255 then e.consecutiveMisses + 1 else 255
      (if misses == HOP_HEALTH_SUSPECT_MISSES then .becameSuspect nextHop destination misses else .none,
        h.set idx { e with consecutiveMisses := misses, lastMissMs := nowMs })
    | (none, h) =>
      let idx := (h.entries.cells.findIdx? fun e => !e.isOccupied).getD
        (oldestFrom nowMs h.entries.cells 0 0 0)
      (.none, h.set idx ⟨destination, nextHop, 1, nowMs⟩)

/-- mirrors crates/mesh-routing/src/hop_health.rs:124-142 -/
def recordSuccess : HopHealthEvent × HopHealth :=
  if destination == 0 || nextHop == 0 then (.none, h)
  else
    match h.find destination nextHop with
    | none => (.none, h)
    | some idx =>
      (if HOP_HEALTH_SUSPECT_MISSES ≤ (h.entry idx).consecutiveMisses then
          .becameHealthy nextHop destination
        else .none,
        h.set idx .empty)

end HopHealth

/-! ## Calls -/

inductive HopCallKind where
  | miss | success | suspect
  deriving DecidableEq

structure HopCall where
  kind : HopCallKind
  destination : UInt32
  nextHop : UInt32
  time : Nat
  deriving DecidableEq

inductive HopAnswer where
  | suspect (b : Bool)
  | event (e : HopHealthEvent)
  deriving DecidableEq

def HopCall.pair (c : HopCall) : UInt32 × UInt32 := (c.destination, c.nextHop)

namespace HopHealth

def call (h : HopHealth) (c : HopCall) : HopAnswer × HopHealth :=
  match c.kind with
  | .miss =>
    let (event, h) := h.recordMiss c.destination c.nextHop (clock c.time)
    (.event event, h)
  | .success =>
    let (event, h) := h.recordSuccess c.destination c.nextHop
    (.event event, h)
  | .suspect =>
    let (b, h) := h.isSuspect c.destination c.nextHop (clock c.time)
    (.suspect b, h)

/-- After calls, newest first. -/
def after : List HopCall → HopHealth
  | [] => new
  | c :: calls => ((after calls).call c).2

end HopHealth

/-! ## The rule -/

/-- The time for which a miss counts. -/
def hopTtl : Nat := HOP_HEALTH_SUSPECT_TTL_MS.toNat

/-- The times of the misses since the last success, newest first. -/
def missesSince : List HopCall → List Nat
  | [] => []
  | c :: calls =>
    match c.kind with
    | .miss => c.time :: missesSince calls
    | .success => []
    | .suspect => missesSince calls

/-- The misses up to the first gap. -/
def latestRun : List Nat → List Nat
  | [] => []
  | [t] => [t]
  | t :: u :: times => if t < u + hopTtl then t :: latestRun (u :: times) else [t]

/-- The latest run of misses of a pair; no other pair's calls are looked at. -/
def runOf (pair : UInt32 × UInt32) (calls : List HopCall) : List Nat :=
  latestRun (missesSince (calls.filter (·.pair == pair)))

/-- The last miss is not long ago. -/
def AliveAt (run : List Nat) (now : Nat) : Prop := ∃ t ∈ run.head?, now < t + hopTtl

instance (run : List Nat) (now : Nat) : Decidable (AliveAt run now) :=
  inferInstanceAs (Decidable (∃ t ∈ run.head?, _))

/-- Two misses in a row, the last of which is not long ago. -/
def SuspectAt (run : List Nat) (now : Nat) : Prop := 2 ≤ run.length ∧ AliveAt run now

instance (run : List Nat) (now : Nat) : Decidable (SuspectAt run now) :=
  inferInstanceAs (Decidable (_ ∧ _))

/-- The pairs with a miss in the time that ends now. -/
def missedAt (calls : List HopCall) (now : Nat) : List (UInt32 × UInt32) :=
  (calls.filter fun c => c.kind == .miss && c.destination != 0 && c.nextHop != 0 &&
    (decide (c.time ≤ now) && decide (now < c.time + hopTtl))).map (·.pair)

/-- Calls in the order of time, within one turn of the clock, with misses of at most eight pairs
within any ten minutes: it is enough to look at those that end with a call. -/
structure Orderly (calls : List HopCall) : Prop where
  ordered : calls.Pairwise fun c earlier => earlier.time ≤ c.time ∧ c.time < earlier.time + CLOCK_PERIOD
  few : ∀ c ∈ calls, (missedAt calls c.time).dedup.length ≤ MAX_HOP_HEALTH

/-- Both parts of a pair are node ids. -/
def Named (pair : UInt32 × UInt32) : Prop := pair.1 ≠ 0 ∧ pair.2 ≠ 0

instance (pair : UInt32 × UInt32) : Decidable (Named pair) := inferInstanceAs (Decidable (_ ∧ _))

/-- What a call answers by the rule, where `kept` says whether the pair has an entry. -/
def HopCall.expected (c : HopCall) (calls : List HopCall) (kept : Bool) : HopAnswer :=
  let run := runOf c.pair calls
  match c.kind with
  | .miss =>
    let becomes := Named c.pair ∧ SuspectAt (runOf c.pair (c :: calls)) c.time ∧ ¬ SuspectAt run c.time
    .event (if becomes then .becameSuspect c.nextHop c.destination 2 else .none)
  | .success =>
    .event (if Named c.pair ∧ kept ∧ 2 ≤ run.length then .becameHealthy c.nextHop c.destination
      else .none)
  | .suspect => .suspect (decide (Named c.pair ∧ SuspectAt run c.time))

section Runs

variable {pair : UInt32 × UInt32} {calls : List HopCall} {c : HopCall} {run times : List Nat}
variable {now : Nat}

@[simp] theorem latestRun_head? (times : List Nat) : (latestRun times).head? = times.head? := by
  rcases times with - | ⟨t, - | ⟨u, times⟩⟩
  · rfl
  · rfl
  · simp only [latestRun]
    split <;> rfl

theorem latestRun_cons (t : Nat) (times : List Nat) :
    latestRun (t :: times) = if AliveAt (latestRun times) t then t :: latestRun times else [t] := by
  rcases times with - | ⟨u, times⟩
  · rfl
  · simp [latestRun, AliveAt]

theorem runOf_other (h : c.pair ≠ pair) : runOf pair (c :: calls) = runOf pair calls := by
  simp [runOf, h]

theorem runOf_suspect (h : c.kind = .suspect) : runOf pair (c :: calls) = runOf pair calls := by
  by_cases hp : c.pair = pair
  · simp [runOf, hp, missesSince, h]
  · exact runOf_other hp

theorem runOf_success (h : c.kind = .success) : runOf c.pair (c :: calls) = [] := by
  simp [runOf, missesSince, h, latestRun]

theorem runOf_miss (h : c.kind = .miss) :
    runOf c.pair (c :: calls) =
      if AliveAt (runOf c.pair calls) c.time then c.time :: runOf c.pair calls else [c.time] := by
  have hown : (c :: calls).filter (·.pair == c.pair) = c :: calls.filter (·.pair == c.pair) := by
    simp
  rw [runOf, hown]
  simp only [missesSince, h]
  exact latestRun_cons _ _

theorem mem_missesSince {t : Nat} (h : t ∈ missesSince calls) :
    ∃ c ∈ calls, c.kind = .miss ∧ c.time = t := by
  induction calls with
  | nil => cases h
  | cons c calls ih =>
    unfold missesSince at h
    split at h
    · rename_i hkind
      rcases List.mem_cons.mp h with rfl | h
      · exact ⟨c, List.mem_cons_self, hkind, rfl⟩
      · obtain ⟨c', hc', hmiss⟩ := ih h
        exact ⟨c', List.mem_cons_of_mem _ hc', hmiss⟩
    · cases h
    · obtain ⟨c', hc', hmiss⟩ := ih h
      exact ⟨c', List.mem_cons_of_mem _ hc', hmiss⟩

/-- The last miss of a run was a call. -/
theorem call_of_head {t : Nat} (h : (runOf pair calls).head? = some t) :
    ∃ c ∈ calls, c.kind = .miss ∧ c.pair = pair ∧ c.time = t := by
  rw [runOf, latestRun_head?] at h
  obtain ⟨c, hc, hkind, htime⟩ := mem_missesSince (List.mem_of_mem_head? h)
  obtain ⟨hc, hpair⟩ := List.mem_filter.mp hc
  exact ⟨c, hc, hkind, by simpa using hpair, htime⟩

theorem AliveAt.earlier {now' : Nat} (h : AliveAt run now') (hle : now ≤ now') : AliveAt run now := by
  obtain ⟨t, ht, hlt⟩ := h
  exact ⟨t, ht, by omega⟩

end Runs

/-! ## The table -/

namespace HopHealth

variable {h : HopHealth} {destination nextHop nowMs : UInt32} {idx : Nat}

/-- No pair has two entries. -/
def Distinct (h : HopHealth) : Prop :=
  ∀ (i j : Nat) (e e' : HopHealthEntry), h.entries.cells[i]? = some e → h.entries.cells[j]? = some e' →
    e.isOccupied = true → e'.isOccupied = true → e.pair = e'.pair → i = j

theorem keyed_iff {e : HopHealthEntry} :
    keyed destination nextHop e = true ↔ e.isOccupied = true ∧ e.pair = (destination, nextHop) := by
  simp [keyed, HopHealthEntry.pair, and_assoc]

theorem isOccupied_iff {e : HopHealthEntry} : e.isOccupied = true ↔ Named e.pair := by
  simp [HopHealthEntry.isOccupied, HopHealthEntry.pair, Named]

theorem entry_of_getElem? {e : HopHealthEntry} (he : h.entries.cells[idx]? = some e) :
    h.entry idx = e := by
  simp [entry, he]

theorem find_some (hf : h.find destination nextHop = some idx) :
    ∃ e, h.entries.cells[idx]? = some e ∧ e.isOccupied = true ∧ e.pair = (destination, nextHop) := by
  obtain ⟨hlt, hkeyed, -⟩ := List.findIdx?_eq_some_iff_getElem.mp hf
  exact ⟨_, List.getElem?_eq_getElem hlt, keyed_iff.mp hkeyed⟩

theorem find_none (hf : h.find destination nextHop = none) {e : HopHealthEntry} (he : e ∈ h.entries)
    (hocc : e.isOccupied = true) : e.pair ≠ (destination, nextHop) := by
  intro hpair
  have := List.findIdx?_eq_none_iff.mp hf e he
  rw [keyed_iff.mpr ⟨hocc, hpair⟩] at this
  cases this

/-- An entry is written over `v`. -/
theorem mem_set_iff (hd : h.Distinct) {v e x : HopHealthEntry} (hv : h.entries.cells[idx]? = some v)
    (hx : x.isOccupied = true) : x ∈ (h.set idx e).entries ↔ x = e ∨ x ∈ h.entries ∧ x ≠ v := by
  have hlt := (List.getElem?_eq_some_iff.mp hv).1
  change x ∈ h.entries.cells.set idx e ↔ _
  constructor
  · intro hmem
    obtain ⟨j, hj⟩ := List.getElem?_of_mem hmem
    by_cases hij : idx = j
    · subst hij
      rw [List.getElem?_set_self hlt] at hj
      exact .inl (Option.some.inj hj).symm
    · rw [List.getElem?_set_ne hij] at hj
      refine .inr ⟨List.mem_of_getElem? hj, ?_⟩
      rintro rfl
      exact hij (hd _ _ _ _ hv hj hx hx rfl)
  · rintro (rfl | ⟨hmem, hne⟩)
    · exact List.mem_set hlt x
    · obtain ⟨j, hj⟩ := List.getElem?_of_mem hmem
      have hij : idx ≠ j := by
        rintro rfl
        rw [hv] at hj
        exact hne (Option.some.inj hj).symm
      exact List.mem_of_getElem? (List.getElem?_set_ne hij ▸ hj)

/-- The entry of a pair is the only one. -/
theorem Distinct.only (hd : h.Distinct) {e : HopHealthEntry} (he : h.entries.cells[idx]? = some e)
    (hocc : e.isOccupied = true) {pair : UInt32 × UInt32} (hpair : e.pair = pair) :
    ∀ x ∈ h.entries, x.isOccupied = true → x.pair = pair → x = e := by
  intro x hx hxocc hxpair
  obtain ⟨j, hj⟩ := List.getElem?_of_mem hx
  obtain rfl := hd _ _ _ _ he hj hocc hxocc (hpair.trans hxpair.symm)
  exact Option.some.inj (hj.symm.trans he)

/-- A pair may be written where it is, or where it has no entry. -/
theorem Distinct.set (hd : h.Distinct) {v e : HopHealthEntry} (hv : h.entries.cells[idx]? = some v)
    (hfresh : ∀ x ∈ h.entries, x.isOccupied = true → x.pair = e.pair → x = v) :
    (h.set idx e).Distinct := by
  have hlt := (List.getElem?_eq_some_iff.mp hv).1
  -- an entry of the pair that is written is at its place
  have hplace {j : Nat} {x : HopHealthEntry} (hj : h.entries.cells[j]? = some x)
      (hx : x.isOccupied = true) (hpair : x.pair = e.pair) : idx = j := by
    obtain rfl := hfresh x (List.mem_of_getElem? hj) hx hpair
    exact hd _ _ _ _ hv hj hx hx rfl
  intro i j x y hi hj hx hy hpair
  change (h.entries.cells.set idx e)[i]? = some x at hi
  change (h.entries.cells.set idx e)[j]? = some y at hj
  by_cases hii : idx = i <;> by_cases hjj : idx = j
  · omega
  · subst hii
    rw [List.getElem?_set_self hlt, Option.some.injEq] at hi
    rw [List.getElem?_set_ne hjj] at hj
    exact hplace hj hy (by rw [← hpair, hi])
  · subst hjj
    rw [List.getElem?_set_self hlt, Option.some.injEq] at hj
    rw [List.getElem?_set_ne hii] at hi
    exact (hplace hi hx (by rw [hpair, hj])).symm
  · rw [List.getElem?_set_ne hii] at hi
    rw [List.getElem?_set_ne hjj] at hj
    exact hd _ _ _ _ hi hj hx hy hpair

/-- The scan ends at an entry, and none is older. -/
theorem oldestFrom_spec (nowMs : UInt32) (es : List HopHealthEntry) (i best : Nat) (bestAge : UInt32) :
    (oldestFrom nowMs es i best bestAge = best ∧ ∀ e ∈ es, nowMs - e.lastMissMs < bestAge) ∨
      ∃ k v, oldestFrom nowMs es i best bestAge = i + k ∧ es[k]? = some v ∧
        bestAge ≤ nowMs - v.lastMissMs ∧ ∀ e ∈ es, nowMs - e.lastMissMs ≤ nowMs - v.lastMissMs := by
  induction es generalizing i best bestAge with
  | nil => exact .inl ⟨rfl, fun e he => absurd he List.not_mem_nil⟩
  | cons e es ih =>
    simp only [oldestFrom, UInt32.le_iff_toNat_le, UInt32.lt_iff_toNat_lt] at ih ⊢
    by_cases hle : bestAge.toNat ≤ (nowMs - e.lastMissMs).toNat
    · rw [if_pos hle]
      right
      rcases ih (i + 1) i (nowMs - e.lastMissMs) with ⟨hbest, hless⟩ | ⟨k, v, hk, hv, hage, hall⟩
      · refine ⟨0, e, hbest, rfl, hle, List.forall_mem_cons.mpr ⟨Nat.le_refl _, fun x hx => ?_⟩⟩
        exact Nat.le_of_lt (hless x hx)
      · refine ⟨k + 1, v, by omega, hv, by omega, List.forall_mem_cons.mpr ⟨hage, hall⟩⟩
    · rw [if_neg hle]
      rcases ih (i + 1) best bestAge with ⟨hbest, hless⟩ | ⟨k, v, hk, hv, hage, hall⟩
      · exact .inl ⟨hbest, List.forall_mem_cons.mpr ⟨by omega, hless⟩⟩
      · exact .inr ⟨k + 1, v, by omega, hv, hage, List.forall_mem_cons.mpr ⟨by omega, hall⟩⟩

end HopHealth

/-! ## What the table holds -/

section Tracking

variable {h : HopHealth} {calls : List HopCall} {c : HopCall} {now : Nat}

/-- The entry has the run. -/
def Has (e : HopHealthEntry) (run : List Nat) : Prop :=
  ∃ t, run.head? = some t ∧ e.lastMissMs = clock t ∧ e.consecutiveMisses.toNat = min run.length 255

/-- Each entry has the latest run of its pair, and a run that is alive has an entry. -/
structure Tracks (h : HopHealth) (calls : List HopCall) (now : Nat) : Prop where
  distinct : h.Distinct
  entry : ∀ e ∈ h.entries, e.isOccupied = true → Has e (runOf e.pair calls)
  alive : ∀ pair, Named pair → AliveAt (runOf pair calls) now → ∃ e ∈ h.entries, e.pair = pair

/-- The calls lie in the past, within one turn of the clock. -/
def Past (calls : List HopCall) (now : Nat) : Prop :=
  ∀ c ∈ calls, c.time ≤ now ∧ now < c.time + CLOCK_PERIOD

theorem Tracks.later (hk : Tracks h calls now) {now' : Nat} (hle : now ≤ now') :
    Tracks h calls now' :=
  { hk with alive := fun pair hpair halive => hk.alive pair hpair (halive.earlier hle) }

/-- Reads an entry's age off the clock. -/
theorem ttl_le_age_iff (hpast : Past calls now) {pair : UInt32 × UInt32} {e : HopHealthEntry}
    (he : Has e (runOf pair calls)) :
    HOP_HEALTH_SUSPECT_TTL_MS ≤ clock now - e.lastMissMs ↔ ¬ AliveAt (runOf pair calls) now := by
  obtain ⟨t, ht, hlast, -⟩ := he
  obtain ⟨c, hc, -, -, rfl⟩ := call_of_head ht
  obtain ⟨hle, hlt⟩ := hpast c hc
  have hage : (clock now - clock c.time).toNat = now - c.time := by
    rw [clock_sub hle, Nat.mod_eq_of_lt (by omega)]
  simp only [AliveAt, ht, Option.mem_some_iff, exists_eq_left', UInt32.le_iff_toNat_le, hlast, hage,
    hopTtl]
  omega

theorem suspect_iff {e : HopHealthEntry} {run : List Nat} (he : Has e run) :
    HOP_HEALTH_SUSPECT_MISSES ≤ e.consecutiveMisses ↔ 2 ≤ run.length := by
  obtain ⟨t, -, -, hcount⟩ := he
  rw [UInt8.le_iff_toNat_le, hcount]
  change 2 ≤ min run.length 255 ↔ _
  omega

/-- An entry is written over `v`, which is the entry of the same pair, free, or dead. -/
theorem Tracks.write (hk : Tracks h calls now) {idx : Nat} {v e : HopHealthEntry}
    {pair : UInt32 × UInt32} {later : List HopCall} (hv : h.entries.cells[idx]? = some v)
    (hrun : ∀ other, pair ≠ other → runOf other later = runOf other calls)
    (hfresh : ∀ x ∈ h.entries, x.isOccupied = true → x.pair = pair → x = v)
    (hdead : v.isOccupied = true → v.pair ≠ pair → ¬ AliveAt (runOf v.pair calls) now)
    (hnew : e = .empty ∧ ¬ AliveAt (runOf pair later) now ∨ e.pair = pair ∧ Has e (runOf pair later)) :
    Tracks (h.set idx e) later now where
  distinct := hk.distinct.set hv fun x hx hocc hsame => by
    rcases hnew with ⟨rfl, -⟩ | ⟨hpair, -⟩
    · rw [HopHealth.isOccupied_iff, hsame] at hocc
      exact absurd hocc (by decide)
    · exact hfresh x hx hocc (hsame.trans hpair)
  entry x hx hocc := by
    rcases (HopHealth.mem_set_iff hk.distinct hv hocc).mp hx with rfl | ⟨hx, hne⟩
    · rcases hnew with ⟨rfl, -⟩ | ⟨rfl, hhas⟩
      · cases hocc
      · exact hhas
    · rw [hrun x.pair fun hsame => hne (hfresh x hx hocc hsame.symm)]
      exact hk.entry x hx hocc
  alive other hother halive := by
    by_cases hsame : pair = other
    · subst hsame
      rcases hnew with ⟨-, hnot⟩ | ⟨hpair, -⟩
      · exact absurd halive hnot
      · refine ⟨e, (HopHealth.mem_set_iff hk.distinct hv ?_).mpr (.inl rfl), hpair⟩
        rw [HopHealth.isOccupied_iff, hpair]
        exact hother
    · rw [hrun other hsame] at halive
      obtain ⟨x, hx, rfl⟩ := hk.alive other hother halive
      have hocc := HopHealth.isOccupied_iff.mpr hother
      refine ⟨x, (HopHealth.mem_set_iff hk.distinct hv hocc).mpr (.inr ⟨hx, ?_⟩), rfl⟩
      rintro rfl
      exact hdead hocc (Ne.symm hsame) halive

/-- Calls of other pairs, and questions, change no run. -/
theorem Tracks.quiet (hk : Tracks h calls now) {later : List HopCall}
    (hrun : ∀ pair, Named pair → runOf pair later = runOf pair calls) : Tracks h later now where
  distinct := hk.distinct
  entry e he hocc := by
    rw [hrun _ (HopHealth.isOccupied_iff.mp hocc)]
    exact hk.entry e he hocc
  alive pair hpair halive := hk.alive pair hpair (hrun pair hpair ▸ halive)

theorem Tracks.new : Tracks .new [] now where
  distinct i j e e' hi _ hocc := by
    obtain rfl := Slots.mem_all (List.mem_of_getElem? hi)
    cases hocc
  entry e he hocc := by
    obtain rfl := Slots.mem_all he
    cases hocc
  alive pair _ halive := by
    obtain ⟨t, ht, -⟩ := halive
    cases ht

/-- A pair is looked up: its run is alive and has an entry, or it has none and no entry is left. -/
theorem Tracks.findLive (hk : Tracks h calls now) (hpast : Past calls now)
    {destination nextHop : UInt32} (hnamed : Named (destination, nextHop)) :
    (∃ idx e, h.findLive destination nextHop (clock now) = (some idx, h) ∧
        h.entries.cells[idx]? = some e ∧ e.isOccupied = true ∧ e.pair = (destination, nextHop) ∧
        AliveAt (runOf (destination, nextHop) calls) now) ∨
      ∃ h', h.findLive destination nextHop (clock now) = (none, h') ∧ Tracks h' calls now ∧
        (∀ e ∈ h'.entries, e.isOccupied = true → e.pair ≠ (destination, nextHop)) ∧
        ¬ AliveAt (runOf (destination, nextHop) calls) now := by
  unfold HopHealth.findLive
  rcases hf : h.find destination nextHop with - | idx
  · right
    have hnone : ∀ e ∈ h.entries, e.isOccupied = true → e.pair ≠ (destination, nextHop) :=
      fun e he hocc => HopHealth.find_none hf he hocc
    refine ⟨h, rfl, hk, hnone, fun halive => ?_⟩
    obtain ⟨e, he, hpair⟩ := hk.alive _ hnamed halive
    exact hnone e he (HopHealth.isOccupied_iff.mpr (hpair ▸ hnamed)) hpair
  · obtain ⟨e, he, hocc, hpair⟩ := HopHealth.find_some hf
    have hhas := hk.entry e (List.mem_of_getElem? he) hocc
    have hage := ttl_le_age_iff hpast hhas
    rw [hpair] at hage
    simp only [HopHealth.entry_of_getElem? he, hage]
    by_cases halive : AliveAt (runOf (destination, nextHop) calls) now
    · exact .inl ⟨idx, e, if_neg (not_not.mpr halive), he, hocc, hpair, halive⟩
    · right
      have honly := hk.distinct.only he hocc hpair
      refine ⟨_, if_pos halive, ?_, ?_, halive⟩
      · exact hk.write he (fun _ _ => rfl) honly (fun _ hne => absurd hpair hne) (.inl ⟨rfl, halive⟩)
      · intro x hx hxocc hxpair
        rcases (HopHealth.mem_set_iff hk.distinct he hxocc).mp hx with rfl | ⟨hx, hne⟩
        · cases hxocc
        · exact hne (honly x hx hxocc hxpair)

theorem mem_missedAt {pair : UInt32 × UInt32} :
    pair ∈ missedAt calls now ↔
      ∃ c ∈ calls, c.kind = .miss ∧ Named pair ∧ c.time ≤ now ∧ now < c.time + hopTtl ∧
        c.pair = pair := by
  simp only [missedAt, List.mem_map, List.mem_filter, Bool.and_eq_true, beq_iff_eq, bne_iff_ne,
    decide_eq_true_eq]
  constructor
  · rintro ⟨c, ⟨hc, ⟨⟨hkind, hdest⟩, hhop⟩, hle, hlt⟩, rfl⟩
    exact ⟨c, hc, hkind, ⟨hdest, hhop⟩, hle, hlt, rfl⟩
  · rintro ⟨c, hc, hkind, hnamed, hle, hlt, rfl⟩
    exact ⟨c, ⟨hc, ⟨⟨hkind, hnamed.1⟩, hnamed.2⟩, hle, hlt⟩, rfl⟩

theorem missed_of_alive (hpast : Past calls now) {pair : UInt32 × UInt32} (hnamed : Named pair)
    (halive : AliveAt (runOf pair calls) now) : pair ∈ missedAt calls now := by
  obtain ⟨t, ht, hlt⟩ := halive
  obtain ⟨c, hc, hkind, hpair, rfl⟩ := call_of_head ht
  exact mem_missedAt.mpr ⟨c, hc, hkind, hnamed, (hpast c hc).1, hlt, hpair⟩

/-- When a ninth pair finds the table full, the oldest entry is dead. -/
theorem oldest_dead (hk : Tracks h calls now) (hpast : Past calls now)
    (hfull : ∀ e ∈ h.entries, e.isOccupied = true) {pair : UInt32 × UInt32}
    (hother : ∀ e ∈ h.entries, e.isOccupied = true → e.pair ≠ pair)
    (hfew : ∀ pairs : List (UInt32 × UInt32), (pair :: pairs).Nodup →
      (∀ p ∈ pairs, p ∈ missedAt calls now) → pairs.length < MAX_HOP_HEALTH) :
    ∃ v, h.entries.cells[HopHealth.oldestFrom (clock now) h.entries.cells 0 0 0]? = some v ∧
      ¬ AliveAt (runOf v.pair calls) now := by
  have hsize : h.entries.cells.length = MAX_HOP_HEALTH := h.entries.size
  rcases HopHealth.oldestFrom_spec (clock now) h.entries.cells 0 0 0 with
    ⟨-, hless⟩ | ⟨k, v, hk', hv, -, holdest⟩
  · have hlt : 0 < h.entries.cells.length := by rw [hsize]; decide
    have := hless _ (List.getElem_mem hlt)
    simp [UInt32.lt_iff_toNat_lt] at this
  · rw [Nat.zero_add] at hk'
    refine ⟨v, by rw [hk', hv], fun halive => ?_⟩
    have hage {e : HopHealthEntry} (he : e ∈ h.entries) := ttl_le_age_iff hpast (hk.entry e he (hfull e he))
    have hyoung := not_not.mpr halive
    rw [← hage (List.mem_of_getElem? hv)] at hyoung
    -- then no entry is dead, and there are nine pairs
    have hall : ∀ e ∈ h.entries, e.pair ∈ missedAt calls now := by
      intro e he
      refine missed_of_alive hpast (HopHealth.isOccupied_iff.mp (hfull e he)) (not_not.mp ?_)
      rw [← hage he]
      have := holdest e he
      simp only [UInt32.le_iff_toNat_le] at this hyoung ⊢
      omega
    have hdistinct : (h.entries.cells.map (·.pair)).Nodup := by
      refine List.nodup_iff_injective_getElem.mpr fun i j hij => ?_
      simp only [List.getElem_map] at hij
      have hi : i.val < h.entries.cells.length := by simpa using i.isLt
      have hj : j.val < h.entries.cells.length := by simpa using j.isLt
      exact Fin.ext (hk.distinct _ _ _ _ (List.getElem?_eq_getElem hi) (List.getElem?_eq_getElem hj)
        (hfull _ (List.getElem_mem hi)) (hfull _ (List.getElem_mem hj)) hij)
    have hnodup : (pair :: h.entries.cells.map (·.pair)).Nodup := by
      refine List.nodup_cons.mpr ⟨fun hmem => ?_, hdistinct⟩
      obtain ⟨e, he, heq⟩ := List.mem_map.mp hmem
      exact hother e he (hfull e he) heq
    have := hfew _ hnodup fun p hp => by
      obtain ⟨e, he, rfl⟩ := List.mem_map.mp hp
      exact hall e he
    rw [List.length_map, hsize] at this
    exact absurd this (by decide)

theorem Orderly.past (ho : Orderly (c :: calls)) : Past calls c.time :=
  (List.pairwise_cons.mp ho.ordered).1

theorem Orderly.tail (ho : Orderly (c :: calls)) : Orderly calls where
  ordered := (List.pairwise_cons.mp ho.ordered).2
  few c' hc' := by
    have hsubset : (missedAt calls c'.time).dedup ⊆ (missedAt (c :: calls) c'.time).dedup := by
      intro pair hpair
      obtain ⟨d, hd, hmissed⟩ := mem_missedAt.mp (List.mem_dedup.mp hpair)
      exact List.mem_dedup.mpr (mem_missedAt.mpr ⟨d, List.mem_cons_of_mem _ hd, hmissed⟩)
    exact Nat.le_trans (List.Nodup.length_le_of_subset (List.nodup_dedup _) hsubset)
      (ho.few c' (List.mem_cons_of_mem _ hc'))

/-- The pair of a miss is one of the eight. -/
theorem Orderly.few_others (ho : Orderly (c :: calls)) (hkind : c.kind = .miss) (hnamed : Named c.pair)
    {pairs : List (UInt32 × UInt32)} (hnodup : (c.pair :: pairs).Nodup)
    (hpairs : ∀ p ∈ pairs, p ∈ missedAt calls c.time) : pairs.length < MAX_HOP_HEALTH := by
  have hsubset : c.pair :: pairs ⊆ (missedAt (c :: calls) c.time).dedup := by
    intro p hp
    rw [List.mem_dedup, mem_missedAt]
    rcases List.mem_cons.mp hp with rfl | hp
    · have hlt : c.time < c.time + hopTtl := Nat.lt_add_of_pos_right (by decide)
      exact ⟨c, List.mem_cons_self, hkind, hnamed, Nat.le_refl _, hlt, rfl⟩
    · obtain ⟨d, hd, hmissed⟩ := mem_missedAt.mp (hpairs p hp)
      exact ⟨d, List.mem_cons_of_mem _ hd, hmissed⟩
  have hle := List.Nodup.length_le_of_subset hnodup hsubset
  have hfew := ho.few c List.mem_cons_self
  rw [List.length_cons] at hle
  omega

theorem guard_iff : (c.destination == 0 || c.nextHop == 0) = true ↔ ¬ Named c.pair := by
  rw [Named, HopCall.pair, Bool.or_eq_true, beq_iff_eq, beq_iff_eq, not_and_or, not_not, not_not]

/-- A call without a pair changes nothing. -/
theorem Tracks.unnamed (hk : Tracks h calls now) (hunnamed : ¬ Named c.pair) :
    Tracks h (c :: calls) now :=
  hk.quiet fun _ hpair => runOf_other fun hsame => hunnamed (hsame ▸ hpair)

theorem Tracks.isSuspect (hk : Tracks h calls c.time) (hpast : Past calls c.time)
    (hkind : c.kind = .suspect) :
    (h.isSuspect c.destination c.nextHop (clock c.time)).1 =
        decide (Named c.pair ∧ SuspectAt (runOf c.pair calls) c.time) ∧
      Tracks (h.isSuspect c.destination c.nextHop (clock c.time)).2 (c :: calls) c.time := by
  have hquiet {h' : HopHealth} (hk' : Tracks h' calls c.time) : Tracks h' (c :: calls) c.time :=
    hk'.quiet fun _ _ => runOf_suspect hkind
  unfold HopHealth.isSuspect
  by_cases hnamed : Named c.pair
  · rw [if_neg fun hg => guard_iff.mp hg hnamed]
    rcases hk.findLive hpast hnamed with ⟨idx, e, hfind, he, hocc, hpair, halive⟩ | ⟨h', hfind, hk', -, hdead⟩
    · rw [hfind]
      refine ⟨?_, hquiet hk⟩
      have hhas := hk.entry e (List.mem_of_getElem? he) hocc
      rw [hpair] at hhas
      have := suspect_iff hhas
      simp only [Option.any_some, HopHealth.entry_of_getElem? he, hnamed, true_and]
      rw [decide_eq_decide, this]
      exact ⟨fun hlen => ⟨hlen, halive⟩, And.left⟩
    · rw [hfind]
      refine ⟨?_, hquiet hk'⟩
      have : ¬ SuspectAt (runOf c.pair calls) c.time := fun hs => hdead hs.2
      simp [this]
  · rw [if_pos (guard_iff.mpr hnamed)]
    exact ⟨by simp [hnamed], hquiet hk⟩

theorem Tracks.recordSuccess (hk : Tracks h calls c.time) (hkind : c.kind = .success) :
    (h.recordSuccess c.destination c.nextHop).1 =
        (if Named c.pair ∧ (h.find c.destination c.nextHop).isSome ∧ 2 ≤ (runOf c.pair calls).length then
          .becameHealthy c.nextHop c.destination else .none) ∧
      Tracks (h.recordSuccess c.destination c.nextHop).2 (c :: calls) c.time := by
  have hgone : ¬ AliveAt (runOf c.pair (c :: calls)) c.time := by
    rw [runOf_success hkind]
    rintro ⟨t, ht, -⟩
    cases ht
  unfold HopHealth.recordSuccess
  by_cases hnamed : Named c.pair
  · rw [if_neg fun hg => guard_iff.mp hg hnamed]
    rcases hf : h.find c.destination c.nextHop with - | idx
    · refine ⟨by simp, hk.distinct, fun e he hocc => ?_, fun pair hpair halive => ?_⟩
      · rw [runOf_other (Ne.symm (HopHealth.find_none hf he hocc))]
        exact hk.entry e he hocc
      · by_cases hsame : c.pair = pair
        · exact absurd (hsame ▸ halive) hgone
        · exact hk.alive pair hpair (runOf_other hsame ▸ halive)
    · obtain ⟨e, he, hocc, hpair⟩ := HopHealth.find_some hf
      have hhas := hk.entry e (List.mem_of_getElem? he) hocc
      rw [hpair] at hhas
      refine ⟨?_, hk.write he (fun _ hne => runOf_other hne) (hk.distinct.only he hocc hpair)
        (fun _ hne => absurd hpair hne) (.inl ⟨rfl, hgone⟩)⟩
      · have := suspect_iff hhas
        simp only [HopHealth.entry_of_getElem? he, this, Option.isSome_some, hnamed, true_and]
        rfl
  · rw [if_pos (guard_iff.mpr hnamed)]
    exact ⟨by simp [hnamed], hk.unnamed hnamed⟩

theorem alive_now (t : Nat) (run : List Nat) : AliveAt (t :: run) t :=
  ⟨t, rfl, Nat.lt_add_of_pos_right (by decide)⟩

/-- The place of a new entry was free, or its entry is dead. -/
theorem Tracks.place (hk : Tracks h calls c.time) (ho : Orderly (c :: calls)) (hkind : c.kind = .miss)
    (hnamed : Named c.pair) (hnone : ∀ e ∈ h.entries, e.isOccupied = true → e.pair ≠ c.pair) :
    ∃ v, h.entries.cells[(h.entries.cells.findIdx? fun e => !e.isOccupied).getD
        (HopHealth.oldestFrom (clock c.time) h.entries.cells 0 0 0)]? = some v ∧
      (v.isOccupied = true → ¬ AliveAt (runOf v.pair calls) c.time) := by
  rcases hfree : h.entries.cells.findIdx? (fun e => !e.isOccupied) with - | idx
  · have hfull : ∀ e ∈ h.entries, e.isOccupied = true := fun e he => by
      simpa using List.findIdx?_eq_none_iff.mp hfree e he
    obtain ⟨v, hv, hdead⟩ := oldest_dead hk ho.past hfull hnone fun pairs => ho.few_others hkind hnamed
    exact ⟨v, by rw [hfree]; exact hv, fun _ => hdead⟩
  · obtain ⟨hlt, hpass, -⟩ := List.findIdx?_eq_some_iff_getElem.mp hfree
    rw [hfree]
    refine ⟨_, List.getElem?_eq_getElem hlt, fun hocc => ?_⟩
    rw [hocc] at hpass
    cases hpass

/-- `saturating_add(1)` on the misses of a run. -/
theorem saturating_succ {misses : UInt8} {n : Nat} (h : misses.toNat = min n 255) :
    (if misses < 255 then misses + 1 else 255).toNat = min (n + 1) 255 := by
  have hiff : misses < 255 ↔ misses.toNat < 255 := UInt8.lt_iff_toNat_lt
  split
  · rename_i hlt
    rw [hiff] at hlt
    rw [UInt8.toNat_add]
    change (misses.toNat + 1) % 256 = _
    omega
  · rename_i hge
    rw [hiff] at hge
    change 255 = _
    omega

theorem Tracks.recordMiss (hk : Tracks h calls c.time) (ho : Orderly (c :: calls))
    (hkind : c.kind = .miss) :
    (h.recordMiss c.destination c.nextHop (clock c.time)).1 =
        (if Named c.pair ∧ SuspectAt (runOf c.pair (c :: calls)) c.time ∧
            ¬ SuspectAt (runOf c.pair calls) c.time then
          .becameSuspect c.nextHop c.destination 2 else .none) ∧
      Tracks (h.recordMiss c.destination c.nextHop (clock c.time)).2 (c :: calls) c.time := by
  unfold HopHealth.recordMiss
  by_cases hnamed : Named c.pair
  · rw [if_neg fun hg => guard_iff.mp hg hnamed]
    have hother (other : UInt32 × UInt32) (hne : c.pair ≠ other) :
        runOf other (c :: calls) = runOf other calls := runOf_other hne
    rcases hk.findLive ho.past hnamed with ⟨idx, e, hfind, he, hocc, hpair, halive⟩ | ⟨h', hfind, hk', hnone, hdead⟩
    · -- one more miss of a run that is alive
      have hrun : runOf c.pair (c :: calls) = c.time :: runOf c.pair calls :=
        (runOf_miss hkind).trans (if_pos halive)
      have hhas := hk.entry e (List.mem_of_getElem? he) hocc
      rw [hpair] at hhas
      obtain ⟨t, ht, -, hcount⟩ := hhas
      have hlen : 1 ≤ (runOf c.pair calls).length := List.length_pos_of_mem (List.mem_of_mem_head? ht)
      have hmisses := saturating_succ hcount
      rw [hfind]
      simp only [HopHealth.entry_of_getElem? he]
      generalize (if e.consecutiveMisses < 255 then e.consecutiveMisses + 1 else 255) = misses at *
      refine ⟨?_, ?_⟩
      · have hsecond : misses = 2 ↔ SuspectAt (runOf c.pair (c :: calls)) c.time ∧
            ¬ SuspectAt (runOf c.pair calls) c.time := by
          have hbefore : SuspectAt (runOf c.pair calls) c.time ↔ 2 ≤ (runOf c.pair calls).length :=
            and_iff_left halive
          have hafter : SuspectAt (c.time :: runOf c.pair calls) c.time :=
            ⟨Nat.succ_le_succ hlen, alive_now ..⟩
          rw [hrun, hbefore, ← UInt8.toNat_inj, hmisses]
          change min ((runOf c.pair calls).length + 1) 255 = 2 ↔ _
          simp only [hafter, true_and]
          omega
        simp only [HOP_HEALTH_SUSPECT_MISSES, beq_iff_eq, hnamed, true_and, ← hsecond]
        by_cases htwo : misses = 2 <;> simp [htwo]
      · refine hk.write he hother (hk.distinct.only he hocc hpair) (fun _ hne => absurd hpair hne)
          (.inr ⟨hpair, c.time, by rw [hrun]; rfl, rfl, ?_⟩)
        rw [hrun, List.length_cons]
        exact hmisses
    · -- the first miss of a run
      have hrun : runOf c.pair (c :: calls) = [c.time] := (runOf_miss hkind).trans (if_neg hdead)
      obtain ⟨v, hv, hvdead⟩ := hk'.place ho hkind hnamed hnone
      rw [hfind, hrun]
      refine ⟨?_, ?_⟩
      · have hshort : ¬ SuspectAt [c.time] c.time := fun hs => absurd hs.1 (by simp)
        rw [if_neg fun hbecomes => hshort hbecomes.2.1]
      · refine hk'.write hv hother (fun x hx hxocc hxpair => absurd hxpair (hnone x hx hxocc))
          (fun hocc _ => hvdead hocc) (.inr ⟨rfl, c.time, by rw [hrun]; rfl, rfl, by rw [hrun]; rfl⟩)
  · rw [if_pos (guard_iff.mpr hnamed)]
    exact ⟨by simp [hnamed], hk.unnamed hnamed⟩

/-- A call answers by the rule, and what it leaves tracks the calls. -/
theorem Tracks.call (hk : Tracks h calls c.time) (ho : Orderly (c :: calls)) :
    (h.call c).1 = c.expected calls (h.find c.destination c.nextHop).isSome ∧
      Tracks (h.call c).2 (c :: calls) c.time := by
  rcases hkind : c.kind with - | - | -
  · obtain ⟨hevent, htracks⟩ := hk.recordMiss ho hkind
    simp only [HopHealth.call, HopCall.expected, hkind]
    exact ⟨congrArg _ hevent, htracks⟩
  · obtain ⟨hevent, htracks⟩ := hk.recordSuccess hkind
    simp only [HopHealth.call, HopCall.expected, hkind]
    exact ⟨congrArg _ hevent, htracks⟩
  · obtain ⟨hanswer, htracks⟩ := hk.isSuspect ho.past hkind
    simp only [HopHealth.call, HopCall.expected, hkind]
    exact ⟨congrArg _ hanswer, htracks⟩

theorem Tracks.after (ho : Orderly (c :: calls)) : Tracks (HopHealth.after calls) calls c.time := by
  induction calls generalizing c with
  | nil => exact .new
  | cons c' calls ih =>
    have hle : c'.time ≤ c.time := (ho.past c' List.mem_cons_self).1
    exact (Tracks.call (ih ho.tail) ho.tail).2.later hle

end Tracking

/-- After orderly calls, each call answers by the rule of its own pair; a success also asks whether
the pair still has its entry, and a run that is alive has one. -/
theorem hop_health_rule {calls : List HopCall} {c : HopCall} (h : Orderly (c :: calls)) :
    let kept := ((HopHealth.after calls).find c.destination c.nextHop).isSome
    ((HopHealth.after calls).call c).1 = c.expected calls kept ∧
      (Named c.pair → AliveAt (runOf c.pair calls) c.time → kept = true) := by
  have hk := Tracks.after h
  refine ⟨(hk.call h).1, fun hnamed halive => ?_⟩
  obtain ⟨e, he, hpair⟩ := hk.alive _ hnamed halive
  rw [Option.isSome_iff_ne_none]
  exact fun hnone => HopHealth.find_none hnone he (HopHealth.isOccupied_iff.mpr (hpair ▸ hnamed)) hpair

/-- Two misses a second apart, and whatever else, newest first. -/
def twoMisses (others : List HopCall) : List HopCall :=
  others ++ [⟨.miss, 1, 2, 1000⟩, ⟨.miss, 1, 2, 0⟩]

/-- Misses of eight other pairs, when the first run is long dead. -/
def eightMisses : List HopCall :=
  (List.range 8).map fun i => ⟨.miss, 3, UInt32.ofNat (10 - i), 2000000 - i⟩

/-- One of the eight misses again. -/
def missesAgain : List HopCall := ⟨.miss, 3, 10, 2000100⟩ :: twoMisses eightMisses

/-- The ninth pair took the entry of a dead run. A second miss makes it suspect, a success
after that healthy; the other pairs are not. -/
theorem hop_health_rule_nine_pairs :
    ((HopHealth.after (twoMisses eightMisses)).call ⟨.miss, 3, 10, 2000100⟩).1 =
        .event (.becameSuspect 10 3 2) ∧
      ((HopHealth.after missesAgain).call ⟨.suspect, 3, 10, 2000200⟩).1 = .suspect true ∧
      ((HopHealth.after missesAgain).call ⟨.suspect, 3, 9, 2000200⟩).1 = .suspect false ∧
      ((HopHealth.after missesAgain).call ⟨.success, 3, 10, 2000200⟩).1 =
        .event (.becameHealthy 10 3) ∧
      ((HopHealth.after missesAgain).find 3 9).isSome = true := by
  have hmiss : Orderly (⟨.miss, 3, 10, 2000100⟩ :: twoMisses eightMisses) :=
    ⟨by decide +kernel, by decide +kernel⟩
  have hsuspect : Orderly (⟨.suspect, 3, 10, 2000200⟩ :: missesAgain) :=
    ⟨by decide +kernel, by decide +kernel⟩
  have hother : Orderly (⟨.suspect, 3, 9, 2000200⟩ :: missesAgain) :=
    ⟨by decide +kernel, by decide +kernel⟩
  have hsuccess : Orderly (⟨.success, 3, 10, 2000200⟩ :: missesAgain) :=
    ⟨by decide +kernel, by decide +kernel⟩
  refine ⟨(hop_health_rule hmiss).1.trans (by decide +kernel),
    (hop_health_rule hsuspect).1.trans (by decide +kernel),
    (hop_health_rule hother).1.trans (by decide +kernel),
    (hop_health_rule hsuccess).1.trans ?_,
    (hop_health_rule hother).2 ⟨by decide, by decide⟩ (by decide +kernel)⟩
  have hkept := (hop_health_rule hsuccess).2 ⟨by decide, by decide⟩ (by decide +kernel)
  rw [hkept]
  decide +kernel

/-- A success is told or not, by what other pairs did; a pair with a zero is never suspect. -/
theorem hop_health_dead_entry :
    (∃ calls calls' c, Orderly (c :: calls) ∧ Orderly (c :: calls') ∧
        calls.filter (·.pair == c.pair) = calls'.filter (·.pair == c.pair) ∧
        ((HopHealth.after calls).call c).1 ≠ ((HopHealth.after calls').call c).1) ∧
      ∃ calls c, Orderly (c :: calls) ∧ c.kind = .suspect ∧
        SuspectAt (runOf c.pair calls) c.time ∧ ((HopHealth.after calls).call c).1 = .suspect false := by
  refine ⟨⟨twoMisses [], twoMisses eightMisses, ⟨.success, 1, 2, 2000000⟩, ?_⟩,
    ⟨[⟨.miss, 0, 2, 1000⟩, ⟨.miss, 0, 2, 0⟩], ⟨.suspect, 0, 2, 2000⟩, ?_⟩⟩
  · exact ⟨⟨by decide +kernel, by decide +kernel⟩, ⟨by decide +kernel, by decide +kernel⟩,
      by decide +kernel, by decide +kernel⟩
  · exact ⟨⟨by decide +kernel, by decide +kernel⟩, rfl, by decide +kernel, by decide +kernel⟩

end Meshrustic.Routing
