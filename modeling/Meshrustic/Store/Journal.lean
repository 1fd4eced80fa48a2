import Meshrustic.Core.LTS
import Meshrustic.Store.Layout

/-!
# The two-page settings journal (`mesh-store/src/journal.rs`)

A save goes to the page that does not hold the newest record, so that a
power cut while writing leaves the settings that were in force. The newest
record is found by comparing generation counters modulo 2^32.

**Flash.** Two pages; `erase` fills a page with `0xff`; a write stores a
prefix of its bytes and may stop anywhere, in which case it reports an
error (`Fault.cut n`, `n` bytes stored). Reads do not fail.

**Torn pages.** A page that holds a prefix of a new record followed by
erased bytes is assumed not to pass the outer checksum, unless it is the
complete record (`TornRejected`). That is the only assumption; in
particular nothing is assumed about the version 4 checksum, which is read
in the middle of a version 5 record (`record_torn`).

Results:
* `latest_after_save`: from any two pages, a completed save is the newest
  record, wherever the generation counter stands.
* `load_eq_visible`: in every run, `load` gives the settings of the last
  save whose record is whole in flash.
* `failed_save_can_land`: a save can fail although its record is complete.
-/
namespace Meshrustic.Store.Journal

open Meshrustic

def MAGIC : UInt32 := 0x4d524a31
def RECORD_LEN : Nat := STORE_RECORD_LEN + 12
def RECORD_LEN_V4 : Nat := STORE_RECORD_LEN_V4 + 12
def PAGE_SIZE : Nat := 4096

/-- The `ConfigFlash` under the journal: `pages[0]` is the spare page,
`pages[1]` the legacy page. -/
structure Flash where
  page0 : Bytes
  page1 : Bytes
  deriving DecidableEq, Repr

inductive Page where
  | spare | legacy
  deriving DecidableEq, Repr

def Page.other : Page → Page
  | .spare => .legacy
  | .legacy => .spare

def Flash.get (fl : Flash) : Page → Bytes
  | .spare => fl.page0
  | .legacy => fl.page1

def Flash.set (fl : Flash) (p : Page) (b : Bytes) : Flash :=
  match p with
  | .spare => { fl with page0 := b }
  | .legacy => { fl with page1 := b }

@[simp] theorem Flash.get_set_self (fl : Flash) (p : Page) (b : Bytes) : (fl.set p b).get p = b := by
  cases p <;> rfl

@[simp] theorem Flash.get_set_other (fl : Flash) (p : Page) (b : Bytes) :
    (fl.set p.other b).get p = fl.get p := by
  cases p <;> rfl

/-- The record in the bytes read from a page: its generation and
configuration. Bytes that do not start with the journal magic may be a raw
record of an installation from before the journal; it counts as generation 0.
mirrors crates/mesh-store/src/journal.rs:32-61 -/
def recordOf (bytes : Bytes) : Option (UInt32 × NodeConfig) :=
  if ofLe32 (slice bytes 0 4) != MAGIC then
    match decode (bytes.take STORE_RECORD_LEN) with
    | .ok cfg => some (0, cfg)
    | .error _ => (decode (bytes.take STORE_RECORD_LEN_V4)).toOption.map (0, ·)
  else if ofLe32 (slice bytes (RECORD_LEN - 4) 4) == crc32 (bytes.take (RECORD_LEN - 4)) then
    (decode (slice bytes 8 STORE_RECORD_LEN)).toOption.map (ofLe32 (slice bytes 4 4), ·)
  else if ofLe32 (slice bytes (RECORD_LEN_V4 - 4) 4) != crc32 (bytes.take (RECORD_LEN_V4 - 4)) then
    none
  else
    (decode (slice bytes 8 STORE_RECORD_LEN_V4)).toOption.map (ofLe32 (slice bytes 4 4), ·)

/-- mirrors crates/mesh-store/src/journal.rs:29-31 -/
def record (page : Bytes) : Option (UInt32 × NodeConfig) := recordOf (page.take RECORD_LEN)

/-- mirrors crates/mesh-store/src/journal.rs:63-79 -/
def latest (fl : Flash) : Option (Page × UInt32 × NodeConfig) :=
  match record fl.page0, record fl.page1 with
  | some (a, cfgA), some (b, cfgB) =>
    if b - a < 0x80000000 then some (.legacy, b, cfgB) else some (.spare, a, cfgA)
  | some (generation, cfg), none => some (.spare, generation, cfg)
  | none, some (generation, cfg) => some (.legacy, generation, cfg)
  | none, none => none

/-- mirrors crates/mesh-store/src/journal.rs:81-83 -/
def load (fl : Flash) : Option NodeConfig := (latest fl).map (·.2.2)

/-- The record a save writes around an encoded configuration.
mirrors crates/mesh-store/src/journal.rs:90-95 -/
def journalBytes (generation : UInt32) (payload : Bytes) : Bytes :=
  let head := le32 MAGIC ++ le32 generation ++ payload
  head ++ le32 (crc32 head)

/-- Where the next save goes, and under which generation.
mirrors crates/mesh-store/src/journal.rs:86-89 -/
def target (fl : Flash) : Page × UInt32 :=
  match latest fl with
  | some (page, generation, _) => (page.other, generation + 1)
  | none => (.spare, 1)

/-- The encoded configuration of a save: `encode` into a fresh record.
mirrors crates/mesh-store/src/journal.rs:90,93 -/
@[irreducible] def payloadOf (config : NodeConfig) : Except StoreError Bytes :=
  encode config (List.replicate STORE_RECORD_LEN 0)

/-- How a save's flash operations end: normally, cut after the erase, or
cut after `n` bytes of the record. -/
inductive Fault where
  | none
  | afterErase
  | cut (n : Nat)
  deriving DecidableEq, Repr

/-- The erased page with the first `n` bytes of `bytes` written to it. -/
def pageWith (bytes : Bytes) (n : Nat) : Bytes :=
  bytes.take n ++ List.replicate (PAGE_SIZE - (bytes.take n).length) 0xff

/-- mirrors crates/mesh-store/src/journal.rs:85-102 -/
def save (fl : Flash) (config : NodeConfig) (fault : Fault) : Flash × Except StoreError Unit :=
  match payloadOf config with
  | .error e => (fl, .error e)
  | .ok payload =>
    let bytes := journalBytes (target fl).2 payload
    let page := (target fl).1
    match fault with
    | .afterErase => (fl.set page (pageWith bytes 0), .error .badCrc)
    | .cut n => (fl.set page (pageWith bytes n), .error .badCrc)
    | .none =>
      let fl' := fl.set page (pageWith bytes bytes.length)
      match decode (slice bytes 8 STORE_RECORD_LEN) with
      | .error e => (fl', .error e)
      | .ok expected =>
        if (record (fl'.get page)).map (·.2) != some expected then (fl', .error .badCrc)
        else (fl', .ok ())

/-! ## What a page says after a save -/

theorem length_journalBytes {g : UInt32} {payload : Bytes} (hp : payload.length = STORE_RECORD_LEN) :
    (journalBytes g payload).length = RECORD_LEN := by
  simp only [journalBytes, List.length_append, length_le32, hp]; rfl

theorem slice_journalBytes_payload {g : UInt32} {payload : Bytes}
    (hp : payload.length = STORE_RECORD_LEN) :
    slice (journalBytes g payload) 8 STORE_RECORD_LEN = payload := by
  have hh : (le32 MAGIC ++ le32 g).length = 8 := rfl
  simp only [journalBytes, List.append_assoc (le32 MAGIC ++ le32 g)]
  have := slice_append_right (le32 MAGIC ++ le32 g) (payload ++ le32 (crc32 (le32 MAGIC ++ le32 g ++ payload)))
    0 STORE_RECORD_LEN
  rw [hh, Nat.add_zero] at this
  rw [this, ← hp, slice_zero_self]

theorem journalBytes_magic (g : UInt32) (payload : Bytes) :
    ofLe32 (slice (journalBytes g payload) 0 4) = MAGIC := by
  have : slice (journalBytes g payload) 0 4 = le32 MAGIC := by
    simp only [journalBytes, List.append_assoc]; exact slice_zero_self (le32 MAGIC) _
  rw [this, ofLe32_le32]

theorem journalBytes_generation (g : UInt32) (payload : Bytes) :
    ofLe32 (slice (journalBytes g payload) 4 4) = g := by
  have : slice (journalBytes g payload) 4 4 = le32 g := by
    simp only [journalBytes, List.append_assoc]
    have := slice_append_right (le32 MAGIC)
      (le32 g ++ (payload ++ le32 (crc32 (le32 MAGIC ++ (le32 g ++ payload))))) 0 4
    rw [length_le32, Nat.add_zero] at this
    rw [this]; exact slice_zero_self (le32 g) _
  rw [this, ofLe32_le32]

theorem journalBytes_crc {g : UInt32} {payload : Bytes} (hp : payload.length = STORE_RECORD_LEN) :
    ofLe32 (slice (journalBytes g payload) (RECORD_LEN - 4) 4) =
      crc32 ((journalBytes g payload).take (RECORD_LEN - 4)) := by
  have hh : (le32 MAGIC ++ le32 g ++ payload).length = RECORD_LEN - 4 := by
    simp only [List.length_append, length_le32, hp]; rfl
  unfold journalBytes
  generalize le32 MAGIC ++ le32 g ++ payload = head at hh
  have hs := slice_append_right head (le32 (crc32 head)) 0 4
  have h4 : slice (le32 (crc32 head)) 0 4 = le32 (crc32 head) := by
    have := slice_zero_self (le32 (crc32 head)) []
    rwa [List.append_nil] at this
  rw [Nat.add_zero, hh, h4] at hs
  simp only
  rw [hs, ofLe32_le32, ← hh, List.take_left]

/-- A page that starts with a whole journal record says what was saved. -/
theorem record_complete {page payload : Bytes} {g : UInt32} {c : NodeConfig}
    (hp : payload.length = STORE_RECORD_LEN) (hd : decode payload = .ok c)
    (hpage : page.take RECORD_LEN = journalBytes g payload) : record page = some (g, c) := by
  unfold record recordOf
  simp only [hpage, journalBytes_magic, journalBytes_crc hp, slice_journalBytes_payload hp,
    journalBytes_generation, hd, bne_self_eq_false, Bool.false_eq_true, if_false,
    beq_self_eq_true, if_true, Except.toOption, Option.map_some]

/-- The window of a page on which `record` decides. -/
def window (bytes : Bytes) (n : Nat) : Bytes := (pageWith bytes n).take RECORD_LEN

theorem byteAt_window {bytes : Bytes} {n i : Nat} (hb : bytes.length = RECORD_LEN)
    (hi : i < RECORD_LEN) :
    byteAt (window bytes n) i = if i < n then byteAt bytes i else 0xff := by
  have hr : RECORD_LEN < PAGE_SIZE := by decide
  have hbt : (bytes.take n).length ≤ RECORD_LEN := by
    rw [List.length_take, hb]; exact Nat.min_le_right _ _
  rw [window, byteAt_take hi, pageWith]
  by_cases h : i < n
  · rw [if_pos h, byteAt_append_left (by rw [List.length_take, hb]; exact Nat.lt_min.mpr ⟨h, hi⟩),
      byteAt_take h]
  · rw [if_neg h]
    have hlen : (bytes.take n).length ≤ i := by rw [List.length_take]; omega
    simp only [byteAt, List.getD_eq_getElem?_getD, List.getElem?_append_right hlen]
    rw [List.getElem?_replicate_of_lt (by omega)]
    rfl

theorem window_full {bytes : Bytes} {n : Nat} (hb : bytes.length = RECORD_LEN)
    (hn : RECORD_LEN ≤ n) : window bytes n = bytes := by
  have ht : bytes.take n = bytes := List.take_of_length_le (by rw [hb]; exact hn)
  rw [window, pageWith, ht, ← hb, List.take_left]

/-- The outer checksum of a page cut after `n` bytes fails, unless the page
holds the complete record anyway. -/
def TornRejected (bytes : Bytes) (n : Nat) : Prop :=
  window bytes n = bytes ∨
    ofLe32 (slice (window bytes n) (RECORD_LEN - 4) 4) ≠
      crc32 ((window bytes n).take (RECORD_LEN - 4))

instance (bytes : Bytes) (n : Nat) : Decidable (TornRejected bytes n) :=
  inferInstanceAs (Decidable (_ ∨ _))

theorem toOption_eq_none {r : Except StoreError NodeConfig} (h : ∀ c, r ≠ .ok c) :
    r.toOption = none := by
  cases r with
  | error e => rfl
  | ok c => exact absurd rfl (h c)

/-- Bytes whose fourth one is erased start no record of either kind. -/
theorem recordOf_erased {w : Bytes} (h3 : byteAt w 3 = 0xff) : recordOf w = none := by
  have hs : byteAt (slice w 0 4) 3 = 0xff := by rw [byteAt_slice (by decide), Nat.zero_add, h3]
  have hm : ofLe32 (slice w 0 4) ≠ MAGIC := by
    intro hm
    have hdiv := ofLe32_div (slice w 0 4)
    rw [hs, hm] at hdiv
    revert hdiv; decide
  have hd : ∀ k, 3 < k → ∀ c, decode (w.take k) ≠ .ok c := fun k hk =>
    decode_erased_magic (by rw [byteAt_take hk, h3])
  unfold recordOf
  rw [if_pos (by simpa using hm), toOption_eq_none (hd _ (by decide))]
  split
  · rename_i cfg hok; exact absurd hok (hd _ (by decide) cfg)
  · rfl

/-- Bytes that fail the outer checksum and whose payload is of version 5 or
erased at its version hold no record: the version 4 checksum may pass by
chance, but the payload behind it is then too short for its version. -/
theorem recordOf_torn {w : Bytes} (hm : ofLe32 (slice w 0 4) = MAGIC)
    (hc : ofLe32 (slice w (RECORD_LEN - 4) 4) ≠ crc32 (w.take (RECORD_LEN - 4)))
    (hv : byteAt w 12 = 5 ∨ byteAt w 12 = 0xff) : recordOf w = none := by
  have hd : ∀ c, decode (slice w 8 STORE_RECORD_LEN_V4) ≠ .ok c := by
    apply decode_short_v5
    · refine Nat.lt_of_le_of_lt ?_ (show STORE_RECORD_LEN_V4 < STORE_RECORD_LEN by decide)
      unfold slice; rw [List.length_take]; exact Nat.min_le_left _ _
    · rw [byteAt_slice (by decide)]; exact hv
  unfold recordOf
  rw [hm, if_neg (by decide), if_neg (by simpa using hc), toOption_eq_none hd]
  split <;> rfl

/-- A torn page holds no record. -/
theorem record_torn {payload : Bytes} {g : UInt32} {n : Nat}
    (hp : payload.length = STORE_RECORD_LEN) (hv : byteAt payload 4 = 5)
    (ht : TornRejected (journalBytes g payload) n)
    (hne : window (journalBytes g payload) n ≠ journalBytes g payload) :
    record (pageWith (journalBytes g payload) n) = none := by
  have hlen := length_journalBytes (g := g) hp
  have h12 : byteAt (journalBytes g payload) 12 = 5 := by
    have hb : byteAt (slice (journalBytes g payload) 8 STORE_RECORD_LEN) 4 =
        byteAt (journalBytes g payload) (8 + 4) := byteAt_slice (by decide)
    rw [slice_journalBytes_payload hp, hv] at hb
    exact hb.symm
  change recordOf (window (journalBytes g payload) n) = none
  by_cases h4 : n < 4
  · exact recordOf_erased (by rw [byteAt_window hlen (by decide), if_neg (by omega)])
  · refine recordOf_torn ?_ (ht.resolve_left hne) ?_
    · have hpre : slice (window (journalBytes g payload) n) 0 4 =
          slice (journalBytes g payload) 0 4 := by
        have hr : RECORD_LEN = 316 := rfl
        rw [window, slice_take (by omega), pageWith,
          slice_append_left (by rw [List.length_take, hlen]; omega), slice_take (by omega)]
      rw [hpre, journalBytes_magic]
    · rw [byteAt_window hlen (by decide)]
      split
      · exact .inl h12
      · exact .inr rfl

/-! ## One save -/

/-- The payload of a save, when the configuration can be encoded. -/
theorem payloadOf_spec {config : NodeConfig} {payload : Bytes}
    (h : payloadOf config = .ok payload) :
    payload.length = STORE_RECORD_LEN ∧ decode payload = .ok config.normalized ∧
      byteAt payload 4 = 5 := by
  unfold payloadOf at h
  refine ⟨by rw [length_encoded h, List.length_replicate], decode_encode h, ?_⟩
  have hs := slice_encoded h 4 (le32 STORE_VERSION) (by simp [recordFields]) (by decide)
  have hb : byteAt (slice payload 4 4) 0 = byteAt payload (4 + 0) := byteAt_slice (by decide)
  rw [length_le32] at hs
  rw [hs] at hb
  exact hb.symm

/-- The generation a save chooses beats every generation the other page can
hold, also when the counter wraps. -/
theorem latest_after_save {fl : Flash} {b : Bytes} {c : NodeConfig}
    (hb : record b = some ((target fl).2, c)) :
    latest (fl.set (target fl).1 b) = some ((target fl).1, (target fl).2, c) := by
  have hsucc : ∀ g : UInt32, g + 1 - g < 0x80000000 := by
    intro g
    have : g + 1 - g = 1 := by
      apply UInt32.toNat_inj.mp; have := g.toNat_lt
      simp only [UInt32.toNat_sub, UInt32.toNat_add, UInt32.toNat_one]; omega
    rw [this]; decide
  have hpred : ∀ g : UInt32, ¬ g - (g + 1) < 0x80000000 := by
    intro g
    have : g - (g + 1) = 0xFFFFFFFF := by
      apply UInt32.toNat_inj.mp; have := g.toNat_lt
      simp only [UInt32.toNat_sub, UInt32.toNat_add, UInt32.toNat_one, UInt32.reduceToNat]; omega
    rw [this]; decide
  unfold target latest at hb ⊢
  cases h0 : record fl.page0 with
  | none =>
    cases h1 : record fl.page1 with
    | none => simp only [h0, h1] at hb ⊢; simp [Flash.set, hb, h1]
    | some r1 =>
      simp only [h0, h1, Page.other] at hb ⊢
      simp only [Flash.set, hb, h1, if_neg (hpred _)]
  | some r0 =>
    cases h1 : record fl.page1 with
    | none =>
      simp only [h0, h1, Page.other] at hb ⊢
      simp only [Flash.set, hb, h0, if_pos (hsucc _)]
    | some r1 =>
      simp only [h0, h1] at hb ⊢
      by_cases hlt : r1.1 - r0.1 < 0x80000000
      · simp only [if_pos hlt, Page.other] at hb ⊢
        simp only [Flash.set, hb, h1, if_neg (hpred _)]
      · simp only [if_neg hlt, Page.other] at hb ⊢
        simp only [Flash.set, hb, h0, if_pos (hsucc _)]

/-- Destroying the page that is not the newest changes nothing `load` sees. -/
theorem load_after_loss {fl : Flash} {b : Bytes} (hb : record b = none) :
    load (fl.set (target fl).1 b) = load fl := by
  unfold load target latest
  cases h0 : record fl.page0 with
  | none => cases h1 : record fl.page1 <;> simp [Flash.set, Page.other, hb, h1]
  | some r0 =>
    cases h1 : record fl.page1 with
    | none => simp [Flash.set, Page.other, hb, h0]
    | some r1 =>
      by_cases hlt : r1.1 - r0.1 < 0x80000000
      · simp [hlt, Flash.set, Page.other, hb, h1]
      · simp [hlt, Flash.set, Page.other, hb, h0]

/-- How many bytes of the record reach the page. -/
def Fault.written : Fault → Nat
  | .none => RECORD_LEN
  | .afterErase => 0
  | .cut n => n

/-- The record of this save is whole in flash when the save ends, whatever
the save returned. -/
def lands (fl : Flash) (config : NodeConfig) (fault : Fault) : Bool :=
  match payloadOf config with
  | .error _ => false
  | .ok payload =>
    window (journalBytes (target fl).2 payload) fault.written == journalBytes (target fl).2 payload

/-- The torn page this save may leave does not pass the outer checksum. -/
def TornStep (fl : Flash) (config : NodeConfig) (fault : Fault) : Prop :=
  match payloadOf config with
  | .error _ => True
  | .ok payload => TornRejected (journalBytes (target fl).2 payload) fault.written

instance (fl : Flash) (config : NodeConfig) (fault : Fault) :
    Decidable (TornStep fl config fault) :=
  match he : payloadOf config with
  | .error _ => isTrue (by unfold TornStep; rw [he]; trivial)
  | .ok payload =>
    decidable_of_iff (TornRejected (journalBytes (target fl).2 payload) fault.written)
      (by unfold TornStep; rw [he])

/-- The flash after a save: the target page, erased and written as far as
the fault lets it. -/
theorem save_flash {fl : Flash} {config : NodeConfig} {fault : Fault} {payload : Bytes}
    (he : payloadOf config = .ok payload) :
    (save fl config fault).1 =
      fl.set (target fl).1 (pageWith (journalBytes (target fl).2 payload) fault.written) := by
  have hlen := length_journalBytes (g := (target fl).2) (payloadOf_spec he).1
  unfold save
  simp only [he]
  cases fault with
  | none =>
    simp only [Fault.written, hlen]
    split
    · rfl
    · split <;> rfl
  | afterErase => rfl
  | cut n => rfl

theorem save_error {fl : Flash} {config : NodeConfig} {fault : Fault} {e : StoreError}
    (he : payloadOf config = .error e) : save fl config fault = (fl, .error e) := by
  unfold save; rw [he]

/-- A save returns Ok exactly when it is not interrupted and its
configuration can be encoded; its record is then whole in flash. -/
theorem save_ok_iff (fl : Flash) (config : NodeConfig) (fault : Fault) :
    (save fl config fault).2 = .ok () ↔
      fault = .none ∧ ∃ payload, payloadOf config = .ok payload := by
  cases he : payloadOf config with
  | error e =>
    rw [save_error he]
    exact ⟨fun h => (by cases h), fun ⟨_, _, h⟩ => (by cases h)⟩
  | ok payload =>
    obtain ⟨hp, hd, -⟩ := payloadOf_spec he
    have hlen := length_journalBytes (g := (target fl).2) hp
    have hrec := record_complete (g := (target fl).2) hp hd (window_full hlen (Nat.le_refl _))
    unfold save
    rw [he]
    cases fault with
    | none =>
      refine ⟨fun _ => ⟨rfl, payload, rfl⟩, fun _ => ?_⟩
      simp only [slice_journalBytes_payload hp, hd, hlen, Flash.get_set_self, hrec, Option.map_some,
        bne_self_eq_false, Bool.false_eq_true, if_false]
    | afterErase => exact ⟨fun h => (by cases h), fun ⟨h, _⟩ => (by cases h)⟩
    | cut n => exact ⟨fun h => (by cases h), fun ⟨h, _⟩ => (by cases h)⟩

theorem lands_eq {fl : Flash} {config : NodeConfig} {fault : Fault} {payload : Bytes}
    (he : payloadOf config = .ok payload) :
    lands fl config fault = (window (journalBytes (target fl).2 payload) fault.written ==
      journalBytes (target fl).2 payload) := by
  unfold lands; rw [he]

theorem lands_of_ok {fl : Flash} {config : NodeConfig} {fault : Fault}
    (h : (save fl config fault).2 = .ok ()) : lands fl config fault = true := by
  obtain ⟨rfl, payload, he⟩ := (save_ok_iff fl config fault).mp h
  have hlen := length_journalBytes (g := (target fl).2) (payloadOf_spec he).1
  rw [lands_eq he, beq_iff_eq]
  exact window_full hlen (Nat.le_refl _)

/-- What `load` sees after one save. -/
theorem load_save {fl : Flash} {config : NodeConfig} {fault : Fault}
    (ht : TornStep fl config fault) :
    load (save fl config fault).1 =
      if lands fl config fault then some config.normalized else load fl := by
  cases he : payloadOf config with
  | error e =>
    have hl : lands fl config fault = false := by unfold lands; rw [he]
    rw [save_error he, hl]; rfl
  | ok payload =>
    obtain ⟨hp, hd, hv⟩ := payloadOf_spec he
    have ht' : TornRejected (journalBytes (target fl).2 payload) fault.written := by
      unfold TornStep at ht; rw [he] at ht; exact ht
    rw [save_flash he, lands_eq he]
    by_cases hw : window (journalBytes (target fl).2 payload) fault.written =
        journalBytes (target fl).2 payload
    · rw [load, latest_after_save (record_complete hp hd hw), if_pos (beq_iff_eq.mpr hw)]; rfl
    · rw [load_after_loss (record_torn hp hv ht' hw), if_neg (by rwa [beq_iff_eq])]

/-! ## Whole runs -/

inductive Op where
  | load
  | save (config : NodeConfig) (fault : Fault)
  deriving DecidableEq, Repr

def stepFlash (fl : Flash) : Op → Flash
  | .load => fl
  | .save config fault => (save fl config fault).1

def run (fl : Flash) (ops : List Op) : Flash := ops.foldl stepFlash fl

/-- The settings that count after `ops`, starting from `cur`: those of the
last save that returned Ok, or that failed with its record whole in flash. -/
def visible (fl : Flash) (cur : Option NodeConfig) : List Op → Option NodeConfig
  | [] => cur
  | .load :: ops => visible fl cur ops
  | .save config fault :: ops =>
    visible (save fl config fault).1
      (if (save fl config fault).2 = .ok () ∨ lands fl config fault = true then
        some config.normalized else cur) ops

/-- Every torn page of the run fails the outer checksum. -/
def TornSafe (fl : Flash) : List Op → Prop
  | [] => True
  | .load :: ops => TornSafe fl ops
  | .save config fault :: ops => TornStep fl config fault ∧ TornSafe (save fl config fault).1 ops

instance decidableTornSafe : (fl : Flash) → (ops : List Op) → Decidable (TornSafe fl ops)
  | _, [] => isTrue trivial
  | fl, .load :: ops => decidableTornSafe fl ops
  | fl, .save config fault :: ops =>
    have := decidableTornSafe (save fl config fault).1 ops
    inferInstanceAs (Decidable (_ ∧ _))

theorem load_eq_visible {fl : Flash} {ops : List Op} (h : TornSafe fl ops) :
    load (run fl ops) = visible fl (load fl) ops := by
  induction ops generalizing fl with
  | nil => rfl
  | cons op ops ih =>
    cases op with
    | load => exact ih h
    | save config fault =>
      obtain ⟨ht, hrest⟩ := h
      have hor : ((save fl config fault).2 = .ok () ∨ lands fl config fault = true) ↔
          lands fl config fault = true := ⟨fun h => h.elim lands_of_ok id, .inr⟩
      have := ih hrest
      rw [load_save ht] at this
      simp only [visible, hor]
      exact this

/-! ## Starting states -/

def erased : Bytes := List.replicate PAGE_SIZE 0xff

/-- Both pages erased. -/
def blank : Flash := ⟨erased, erased⟩

theorem record_erased : record erased = none := by
  apply recordOf_erased
  rw [byteAt_take (by decide), erased, byteAt, List.getD_eq_getElem?_getD,
    List.getElem?_replicate_of_lt (by decide)]
  rfl

theorem load_blank : load blank = none := by
  simp [load, latest, blank, record_erased]

/-- A raw record of any accepted version, wherever the page continues. -/
theorem record_raw {raw rest : Bytes} {c : NodeConfig} (hd : decode raw = .ok c) :
    record (raw ++ rest) = some (0, c) := by
  obtain ⟨hl, hm, -⟩ := decode_ok_cases hd
  have hl' : 128 ≤ raw.length := hl
  have hs : slice ((raw ++ rest).take RECORD_LEN) 0 4 = slice raw 0 4 := by
    rw [slice_take (by decide), slice_append_left (by omega)]
  have hdec : decode (((raw ++ rest).take RECORD_LEN).take STORE_RECORD_LEN) = .ok c := by
    rw [take_take_le (by decide), decode_take (Nat.le_refl _), decode_append hd]
  unfold record recordOf
  rw [hs, hm, if_pos (by decide), hdec]

theorem load_legacy {raw rest : Bytes} {c : NodeConfig} (hd : decode raw = .ok c) :
    load ⟨erased, raw ++ rest⟩ = some c := by
  simp [load, latest, record_erased, record_raw hd]

/-- **Crash safety.** From any flash, after any sequence of loads and saves
interrupted anywhere, `load` gives the settings of the last save whose
record is whole in flash; a blank flash starts with none, a legacy page with
its raw record, and canonical settings come back unchanged. -/
theorem journal_crash_safe {fl : Flash} {ops : List Op} (h : TornSafe fl ops) :
    load (run fl ops) = visible fl (load fl) ops ∧
      load blank = none ∧
      (∀ raw rest c, decode raw = .ok c → load ⟨erased, raw ++ rest⟩ = some c) ∧
      (∀ c, Canonical c → c.normalized = c) :=
  ⟨load_eq_visible h, load_blank, fun _ _ _ hd => load_legacy hd,
    fun _ hc => normalized_of_canonical hc⟩

/-- A first-boot configuration. -/
def sampleConfig (secs : UInt32) : NodeConfig :=
  { NodeConfig.firstBoot 1 (padded 32 [0x11]) (padded 32 [0x22]) with
    deviceUpdateIntervalSecs := secs }

/-- A journal whose legacy page holds `c` under generation `g`. -/
def journalAt (g : UInt32) (c : NodeConfig) : Flash :=
  match payloadOf c with
  | .ok payload => ⟨erased, pageWith (journalBytes g payload) RECORD_LEN⟩
  | .error _ => blank

theorem latest_journalAt {g : UInt32} {c : NodeConfig} {payload : Bytes}
    (he : payloadOf c = .ok payload) :
    latest (journalAt g c) = some (.legacy, g, c.normalized) := by
  obtain ⟨hp, hd, -⟩ := payloadOf_spec he
  have hrec := record_complete (g := g) hp hd (window_full (length_journalBytes hp) (Nat.le_refl _))
  unfold journalAt latest
  simp only [he, record_erased, hrec]

theorem payloadOf_ok {c : NodeConfig} (h : frequencyOk c.lora.frequencyMhz = true) :
    payloadOf c = .ok (withCrc (recordBody c STORE_RECORD_LEN)) := by
  unfold payloadOf encode
  rw [List.length_replicate, if_neg (Nat.lt_irrefl _), h]; rfl

/-- A save cut after 20 bytes, between two loads. -/
theorem journal_crash_safe_sample :
    TornSafe (journalAt 1 (sampleConfig 0)) [.load, .save (sampleConfig 600) (.cut 20), .load] ∧
      load (run (journalAt 1 (sampleConfig 0))
        [.load, .save (sampleConfig 600) (.cut 20), .load]) =
      visible (journalAt 1 (sampleConfig 0)) (load (journalAt 1 (sampleConfig 0)))
        [.load, .save (sampleConfig 600) (.cut 20), .load] := by
  have htarget : target (journalAt 1 (sampleConfig 0)) = (.spare, 2) := by
    unfold target; rw [latest_journalAt (payloadOf_ok (by decide))]; rfl
  have hstep : TornStep (journalAt 1 (sampleConfig 0)) (sampleConfig 600) (.cut 20) := by
    unfold TornStep
    rw [htarget, payloadOf_ok (by decide)]
    decide +kernel
  have hsafe : TornSafe (journalAt 1 (sampleConfig 0))
      [.load, .save (sampleConfig 600) (.cut 20), .load] := ⟨hstep, trivial⟩
  exact ⟨hsafe, (journal_crash_safe hsafe).1⟩

/-- The checksum of generation 27 ends in an erased byte. A save under that
generation that is cut one byte before its end reports an error, but its
page is the complete record: the failed save replaces what `load` returns. -/
theorem failed_save_can_land :
    TornStep (journalAt 26 (sampleConfig 0)) (sampleConfig 600) (.cut 315) ∧
      315 < RECORD_LEN ∧
      (save (journalAt 26 (sampleConfig 0)) (sampleConfig 600) (.cut 315)).2 = .error .badCrc ∧
      load (journalAt 26 (sampleConfig 0)) = some (sampleConfig 0) ∧
      load (save (journalAt 26 (sampleConfig 0)) (sampleConfig 600) (.cut 315)).1 =
        some (sampleConfig 600) ∧
      sampleConfig 0 ≠ sampleConfig 600 := by
  have hlatest := latest_journalAt (g := 26) (payloadOf_ok (c := sampleConfig 0) (by decide))
  have htarget : target (journalAt 26 (sampleConfig 0)) = (.spare, 27) := by
    unfold target; rw [hlatest]; rfl
  have he := payloadOf_ok (c := sampleConfig 600) (by decide)
  have hwhole : window (journalBytes 27 (withCrc (recordBody (sampleConfig 600) STORE_RECORD_LEN)))
      315 = journalBytes 27 (withCrc (recordBody (sampleConfig 600) STORE_RECORD_LEN)) := by
    decide +kernel
  have hlands : lands (journalAt 26 (sampleConfig 0)) (sampleConfig 600) (.cut 315) = true := by
    rw [lands_eq he, htarget]; exact beq_iff_eq.mpr hwhole
  have hstep : TornStep (journalAt 26 (sampleConfig 0)) (sampleConfig 600) (.cut 315) := by
    unfold TornStep; rw [he, htarget]; exact .inl hwhole
  refine ⟨hstep, by decide, ?_, ?_, ?_, by decide +kernel⟩
  · unfold save; rw [he]
  · rw [load, hlatest]
    exact congrArg some (by decide +kernel : (sampleConfig 0).normalized = sampleConfig 0)
  · rw [load_save hstep, if_pos hlands]
    exact congrArg some (by decide +kernel : (sampleConfig 600).normalized = sampleConfig 600)

end Meshrustic.Store.Journal
