import Mathlib.Data.FinEnum
import Mathlib.Data.List.Dedup
import Mathlib.Data.List.Perm.Subperm
import Meshrustic.Core.LTS
import Meshrustic.Routing.History

/-!
# What the packet history remembers (`mesh-routing/src/packet_history.rs:28-93`)

The ring of 64 entries, overwritten at its head and changed in place, against a log of
everything that was ever observed. In terms of the log a packet is new when it was never
observed, or 64 others were recorded since it was last.

`Mirrors` relates the two: back from the head, the ring has the last 64 packets that were
recorded, each with the highest hop limit since.

Results:
* `mem_recent_iff`: a packet is among the last 64 of the log when it is not forgotten.
* `history_retention`: over every sequence of observations the history answers as the log.
-/
namespace Meshrustic.Routing

/-- A packet that has a name is heard. -/
structure Hearing where
  fromNode : UInt32
  id : UInt32
  hopLimit : UInt8
  fromNode_ne : fromNode ≠ 0
  id_ne : id ≠ 0

def Hearing.packet (c : Hearing) : UInt32 × UInt32 := (c.fromNode, c.id)

/-! ## The log -/

/-- What was observed, and what it was taken for. -/
structure Observation where
  packet : UInt32 × UInt32
  hopLimit : UInt8
  result : ObserveResult
  deriving DecidableEq

/-- Everything that was observed, newest first. -/
abbrev ObserveLog := List Observation

namespace ObserveLog

variable (packet : UInt32 × UInt32)

/-- The packets that were recorded as new, newest first. -/
def recorded (log : ObserveLog) : List (UInt32 × UInt32) :=
  (log.filter (·.result == .new)).map (·.packet)

/-- The log since the packet was last recorded as new. -/
def since (log : ObserveLog) : ObserveLog :=
  log.takeWhile fun o => !(o.packet == packet && o.result == .new)

/-- The distinct packets that were recorded since. -/
def othersSince (log : ObserveLog) : List (UInt32 × UInt32) := (recorded (since packet log)).dedup

/-- The hop limits that the packet was observed with, back to its last recording. -/
def hopLimitsSince : ObserveLog → List UInt8
  | [] => []
  | o :: log =>
    if o.packet == packet then
      o.hopLimit :: if o.result == .new then [] else hopLimitsSince log
    else hopLimitsSince log

/-- Never observed, or 64 others were recorded since. -/
def Forgotten (log : ObserveLog) : Prop :=
  (∀ o ∈ log, o.packet ≠ packet) ∨ HISTORY_SIZE ≤ (othersSince packet log).length

instance (log : ObserveLog) : Decidable (Forgotten packet log) :=
  inferInstanceAs (Decidable (_ ∨ _))

/-- What the packet is taken for. -/
def expected (log : ObserveLog) (hopLimit : UInt8) : ObserveResult :=
  if Forgotten packet log then .new
  else if ∀ hops ∈ hopLimitsSince packet log, hops < hopLimit then .upgraded
  else .duplicate

def hear (log : ObserveLog) (c : Hearing) : ObserveResult × ObserveLog :=
  let result := expected c.packet log c.hopLimit
  (result, ⟨c.packet, c.hopLimit, result⟩ :: log)

end ObserveLog

namespace PacketHistory

def hear (h : PacketHistory) (c : Hearing) : ObserveResult × PacketHistory :=
  h.observe c.fromNode c.id c.hopLimit

/-- No packet has two entries. -/
def Distinct (h : PacketHistory) : Prop :=
  h.entries.cells.Pairwise fun e e' =>
    ∀ fromNode id, named fromNode id e = true → named fromNode id e' = false

end PacketHistory

/-! ## The last recordings -/

section Recent

variable {α : Type} [BEq α] [LawfulBEq α]

theorem takeWhile_ne_of_not_mem {l : List α} {x : α} (h : x ∉ l) (r : List α) :
    (l ++ r).takeWhile (· != x) = l ++ r.takeWhile (· != x) :=
  List.takeWhile_append_of_pos fun y hy => by
    have : y ≠ x := fun heq => h (heq ▸ hy)
    simpa using this

/-- Among the last `n`, which are distinct, or behind `n` others. -/
theorem mem_take_iff [DecidableEq α] {xs : List α} {n : Nat} {x : α} (hdistinct : (xs.take n).Nodup) :
    x ∈ xs.take n ↔ x ∈ xs ∧ (xs.takeWhile (· != x)).dedup.length < n := by
  constructor
  · intro hx
    refine ⟨List.mem_of_mem_take hx, ?_⟩
    obtain ⟨l, r, hsplit, hl⟩ := List.eq_append_cons_of_mem hx
    have hxs : xs = l ++ (x :: r ++ xs.drop n) := by
      rw [← List.append_assoc, ← hsplit, List.take_append_drop]
    have hfront : xs.takeWhile (· != x) = l := by
      rw [hxs, takeWhile_ne_of_not_mem hl]
      simp
    have hlen : l.length + (r.length + 1) ≤ n := by
      have := congrArg List.length hsplit
      simp at this
      omega
    rw [hfront]
    have := (List.dedup_sublist l).length_le
    omega
  · rintro ⟨hx, hfew⟩
    by_contra hgone
    -- the last `n` are distinct and all of them are in front of `x`
    have hfront : xs.take n ⊆ (xs.takeWhile (· != x)).dedup := by
      intro y hy
      rw [← List.take_append_drop n xs, takeWhile_ne_of_not_mem hgone, List.mem_dedup]
      exact List.mem_append_left _ hy
    have hall : n ≤ xs.length := by
      by_contra hshort
      exact hgone (by rwa [List.take_of_length_le (by omega)])
    have hle := (List.subperm_of_subset hdistinct hfront).length_le
    simp at hle
    omega

end Recent

namespace ObserveLog

variable (packet : UInt32 × UInt32) {log : ObserveLog}

@[simp] theorem recorded_nil : recorded [] = [] := rfl

@[simp] theorem recorded_cons (o : Observation) (log : ObserveLog) :
    recorded (o :: log) =
      if o.result = .new then o.packet :: recorded log else recorded log := by
  by_cases h : o.result = .new <;> simp [recorded, h]

theorem recorded_since (log : ObserveLog) :
    recorded (since packet log) = (recorded log).takeWhile (· != packet) := by
  induction log with
  | nil => rfl
  | cons o log ih =>
    by_cases hnew : o.result = .new <;> by_cases hp : o.packet = packet <;>
      simp_all [since]

/-- The packets that the ring has. -/
def recent (log : ObserveLog) : List (UInt32 × UInt32) := (recorded log).take HISTORY_SIZE

/-- Every packet that was observed was recorded, the last 64 once each. -/
structure Sound (log : ObserveLog) : Prop where
  observed : ∀ o ∈ log, o.packet ∈ recorded log
  recent : (recent log).Nodup

theorem mem_of_recorded {packet : UInt32 × UInt32} (h : packet ∈ recorded log) :
    ∃ o ∈ log, o.packet = packet := by
  obtain ⟨o, ho, heq⟩ := List.mem_map.mp h
  exact ⟨o, List.mem_of_mem_filter ho, heq⟩

theorem mem_recent_iff (h : Sound log) : packet ∈ recent log ↔ ¬ Forgotten packet log := by
  have hrecorded : packet ∈ recorded log ↔ ¬ ∀ o ∈ log, o.packet ≠ packet := by
    constructor
    · rintro hp hnever
      obtain ⟨o, ho, heq⟩ := mem_of_recorded hp
      exact hnever o ho heq
    · intro hseen
      push Not at hseen
      obtain ⟨o, ho, rfl⟩ := hseen
      exact h.observed o ho
  rw [recent, mem_take_iff h.recent, hrecorded, Forgotten, othersSince, recorded_since, not_or,
    Nat.not_le]

/-- The highest of the hop limits. -/
def highest (hops : List UInt8) : UInt8 := hops.foldr (fun hop top => if top < hop then hop else top) 0

@[simp] theorem highest_cons (hop : UInt8) (hops : List UInt8) :
    highest (hop :: hops) = if highest hops < hop then hop else highest hops := rfl

theorem highest_singleton (hop : UInt8) : highest [hop] = hop := by
  change (if 0 < hop then hop else 0) = hop
  split
  · rfl
  · rename_i h
    rw [UInt8.lt_iff_toNat_lt] at h
    exact UInt8.toNat_inj.mp (by simp at h; simp [h])

theorem highest_lt_iff {hops : List UInt8} (h : hops ≠ []) (hop : UInt8) :
    highest hops < hop ↔ ∀ x ∈ hops, x < hop := by
  induction hops with
  | nil => exact absurd rfl h
  | cons x hops ih =>
    rcases eq_or_ne hops [] with rfl | hne
    · rw [highest_singleton]
      simp
    · rw [highest_cons, List.forall_mem_cons, ← ih hne]
      split <;> simp only [UInt8.lt_iff_toNat_lt] at * <;> omega

theorem hopLimitsSince_ne_nil {packet : UInt32 × UInt32} (h : packet ∈ recorded log) :
    hopLimitsSince packet log ≠ [] := by
  obtain ⟨o, ho, heq⟩ := mem_of_recorded h
  clear h
  induction log with
  | nil => cases ho
  | cons o' log ih =>
    by_cases hp : o'.packet = packet
    · simp [hopLimitsSince, hp]
    · have hlater : o ∈ log := by
        rcases List.mem_cons.mp ho with rfl | ho
        · exact absurd heq hp
        · exact ho
      simpa [hopLimitsSince, hp] using ih hlater

end ObserveLog

/-! ## The ring -/

open ObserveLog

/-- The entry of a packet that was recorded, or one that was never used. -/
def entryOf (log : ObserveLog) : Option (UInt32 × UInt32) → HistoryEntry
  | some packet => ⟨packet.1, packet.2, highest (hopLimitsSince packet log)⟩
  | none => ⟨0, 0, 0⟩

/-- Back from the head, the packets that were recorded last. -/
structure Mirrors (h : PacketHistory) (log : ObserveLog) : Prop where
  sound : Sound log
  places : ∀ j < 64, h.entries.cells[(h.head.val + 63 - j) % 64]? = some (entryOf log (recorded log)[j]?)

theorem named_entryOf {log : ObserveLog} {packet : Option (UInt32 × UInt32)} {fromNode id : UInt32}
    (hfrom : fromNode ≠ 0) :
    PacketHistory.named fromNode id (entryOf log packet) = true ↔ packet = some (fromNode, id) := by
  rcases packet with - | ⟨f, i⟩
  · simp [PacketHistory.named, entryOf]
  · simp only [PacketHistory.named, entryOf, Bool.and_eq_true, beq_iff_eq, bne_iff_ne,
      Option.some.injEq, Prod.mk.injEq]
    constructor
    · exact fun hnamed => hnamed.1
    · rintro ⟨rfl, rfl⟩
      exact ⟨⟨rfl, rfl⟩, hfrom⟩

section Mirrored

variable {h : PacketHistory} {log : ObserveLog} {fromNode id : UInt32}

theorem Mirrors.new : Mirrors .new [] where
  sound := ⟨fun o ho => absurd ho List.not_mem_nil, List.nodup_nil⟩
  places j _ := by
    have hlt : (0 + 63 - j) % 64 < 64 := Nat.mod_lt _ (by decide)
    change (List.replicate 64 _)[(0 + 63 - j) % 64]? = _
    rw [List.getElem?_replicate, if_pos hlt]
    simp [entryOf]

/-- Each place of the ring is some way back from the head. -/
theorem Mirrors.cell (hm : Mirrors h log) {p : Nat} {e : HistoryEntry}
    (hp : h.entries.cells[p]? = some e) :
    p < 64 ∧ e = entryOf log (recorded log)[(h.head.val + 63 - p) % 64]? := by
  have hlt : p < 64 := by
    have := (List.getElem?_eq_some_iff.mp hp).1
    rwa [h.entries.size] at this
  have hhead : h.head.val < 64 := h.head.isLt
  have hback : (h.head.val + 63 - (h.head.val + 63 - p) % 64) % 64 = p := by omega
  have hplace := hm.places ((h.head.val + 63 - p) % 64) (by omega)
  rw [hback, hp, Option.some.injEq] at hplace
  exact ⟨hlt, hplace⟩

theorem recent_getElem? (log : ObserveLog) {j : Nat} (hj : j < 64) :
    (recent log)[j]? = (recorded log)[j]? := List.getElem?_take_of_lt hj

/-- An entry is found when the packet is among the last, and has its highest hop limit. -/
theorem Mirrors.find_iff (hm : Mirrors h log) (hfrom : fromNode ≠ 0) (e : HistoryEntry) :
    h.find fromNode id = some e ↔
      (fromNode, id) ∈ recent log ∧ e = entryOf log (some (fromNode, id)) := by
  have hfound {e : HistoryEntry} (he : h.find fromNode id = some e) :
      (fromNode, id) ∈ recent log ∧ e = entryOf log (some (fromNode, id)) := by
    obtain ⟨p, hp⟩ := List.getElem?_of_mem (Slots.find?_mem he)
    obtain ⟨-, rfl⟩ := hm.cell hp
    have hpacket := (named_entryOf hfrom).mp (List.find?_some he)
    rw [hpacket]
    rw [← recent_getElem? log (by omega)] at hpacket
    exact ⟨List.mem_of_getElem? hpacket, rfl⟩
  constructor
  · exact hfound
  · rintro ⟨hrecent, rfl⟩
    obtain ⟨j, hj⟩ := List.getElem?_of_mem hrecent
    have hlt : j < 64 := by
      have := (List.getElem?_eq_some_iff.mp hj).1
      simp [recent, HISTORY_SIZE] at this
      omega
    rw [recent_getElem? log hlt] at hj
    have hplace := hm.places j hlt
    rw [hj] at hplace
    have hsome : (h.find fromNode id).isSome := by
      rw [PacketHistory.find, Slots.find?, List.find?_isSome]
      exact ⟨_, List.mem_of_getElem? hplace, (named_entryOf hfrom).mpr rfl⟩
    obtain ⟨e, he⟩ := Option.isSome_iff_exists.mp hsome
    rw [he, (hfound he).2]

/-- A packet is named in one place. -/
theorem Mirrors.once (hm : Mirrors h log) (hfrom : fromNode ≠ 0) {p q : Nat} {e e' : HistoryEntry}
    (hp : h.entries.cells[p]? = some e) (hq : h.entries.cells[q]? = some e')
    (he : PacketHistory.named fromNode id e = true)
    (he' : PacketHistory.named fromNode id e' = true) : p = q := by
  obtain ⟨hplt, rfl⟩ := hm.cell hp
  obtain ⟨hqlt, rfl⟩ := hm.cell hq
  have hpacket := (named_entryOf hfrom).mp he
  have hpacket' := (named_entryOf hfrom).mp he'
  rw [← recent_getElem? log (by omega)] at hpacket hpacket'
  have hsame := (List.nodup_iff_getElem?_ne_getElem?.mp hm.sound.recent)
  have hhead : h.head.val < 64 := h.head.isLt
  by_contra hne
  rcases Nat.lt_or_gt_of_ne (show (h.head.val + 63 - p) % 64 ≠ (h.head.val + 63 - q) % 64 by omega)
    with hlt | hlt
  · exact hsame _ _ hlt (List.getElem?_eq_some_iff.mp hpacket').1 (hpacket.trans hpacket'.symm)
  · exact hsame _ _ hlt (List.getElem?_eq_some_iff.mp hpacket).1 (hpacket'.trans hpacket.symm)

theorem Mirrors.distinct (hm : Mirrors h log) : h.Distinct := by
  rw [PacketHistory.Distinct, List.pairwise_iff_getElem]
  intro p q hp hq hlt fromNode id hnamed
  by_contra hnamed'
  have hfrom : fromNode ≠ 0 := by
    rintro rfl
    simp [PacketHistory.named] at hnamed
    exact hnamed.2 hnamed.1.1
  have := hm.once hfrom (List.getElem?_eq_getElem hp) (List.getElem?_eq_getElem hq) hnamed
    (by simpa using hnamed')
  omega

/-- The log after one more observation. -/
theorem entryOf_cons {o : Observation} {packet : Option (UInt32 × UInt32)}
    (h : packet ≠ some o.packet) : entryOf (o :: log) packet = entryOf log packet := by
  rcases packet with - | packet
  · rfl
  · have hne : o.packet ≠ packet := fun heq => h (heq ▸ rfl)
    simp [entryOf, hopLimitsSince, hne]

/-- A packet that is not among the last takes the place of the oldest of them. -/
theorem Mirrors.record (hm : Mirrors h log) {packet : UInt32 × UInt32} {hopLimit : UInt8}
    (hgone : packet ∉ recent log) :
    Mirrors
      { entries := h.entries.set h.head ⟨packet.1, packet.2, hopLimit⟩
        head := ⟨(h.head + 1) % HISTORY_SIZE, Nat.mod_lt _ (by decide)⟩ }
      (⟨packet, hopLimit, .new⟩ :: log) where
  sound := by
    refine ⟨?_, ?_⟩
    · rw [List.forall_mem_cons, recorded_cons, if_pos rfl]
      exact ⟨List.mem_cons_self, fun o ho => List.mem_cons_of_mem _ (hm.sound.observed o ho)⟩
    · have hfewer : ((recorded log).take 63).Sublist (recent log) :=
        List.take_sublist_take_left (by decide)
      simp only [recent, recorded_cons, if_true, HISTORY_SIZE, List.take_succ_cons, List.nodup_cons]
      exact ⟨fun hmem => hgone (hfewer.subset hmem), hm.sound.recent.sublist hfewer⟩
  places j hj := by
    have hhead : h.head.val < 64 := h.head.isLt
    have hsize : h.entries.cells.length = 64 := h.entries.size
    change (h.entries.cells.set h.head _)[((h.head.val + 1) % 64 + 63 - j) % 64]? = _
    simp only [recorded_cons, if_true]
    cases j with
    | zero =>
      have hback : ((h.head.val + 1) % 64 + 63 - 0) % 64 = h.head := by omega
      have hhops : hopLimitsSince packet (⟨packet, hopLimit, .new⟩ :: log) = [hopLimit] := by
        simp [hopLimitsSince]
      rw [hback, List.getElem?_set_self (by omega), List.getElem?_cons_zero, entryOf, hhops,
        highest_singleton]
    | succ j =>
      have hback : ((h.head.val + 1) % 64 + 63 - (j + 1)) % 64 = (h.head.val + 63 - j) % 64 := by
        omega
      rw [hback, List.getElem?_set_ne (by omega), hm.places j (by omega), List.getElem?_cons_succ,
        entryOf_cons]
      intro hsame
      rw [← recent_getElem? log (by omega)] at hsame
      exact hgone (List.mem_of_getElem? hsame)

/-- A packet among the last keeps its place and has its highest hop limit there. -/
theorem Mirrors.raise (hm : Mirrors h log) {result : ObserveResult} {hopLimit : UInt8}
    (hfrom : fromNode ≠ 0) (hknown : (fromNode, id) ∈ recent log) (hresult : result ≠ .new)
    {entries : Slots HISTORY_SIZE HistoryEntry}
    (hentries : ∀ p : Nat, entries.cells[p]? = h.entries.cells[p]?.map fun e =>
      if PacketHistory.named fromNode id e then
        if e.maxHopLimit < hopLimit then { e with maxHopLimit := hopLimit } else e
      else e) :
    Mirrors { h with entries } (⟨(fromNode, id), hopLimit, result⟩ :: log) where
  sound := by
    refine ⟨?_, by simpa [recent, hresult] using hm.sound.recent⟩
    simp only [recorded_cons, hresult, if_false, List.forall_mem_cons]
    exact ⟨List.mem_of_mem_take hknown, hm.sound.observed⟩
  places j hj := by
    change entries.cells[(h.head.val + 63 - j) % 64]? = _
    rw [hentries, hm.places j hj]
    simp only [recorded_cons, hresult, if_false, Option.map_some, Option.some.injEq]
    by_cases hsame : (recorded log)[j]? = some (fromNode, id)
    · rw [if_pos ((named_entryOf hfrom).mpr hsame), hsame]
      by_cases hlt : highest (hopLimitsSince (fromNode, id) log) < hopLimit <;>
        simp [entryOf, hopLimitsSince, hresult, hlt]
    · rw [if_neg fun hnamed => hsame ((named_entryOf hfrom).mp hnamed), entryOf_cons hsame]

/-- Ring and log answer alike. -/
theorem Mirrors.hear (hm : Mirrors h log) (c : Hearing) :
    (h.hear c).1 = (log.hear c).1 ∧ Mirrors (h.hear c).2 (log.hear c).2 := by
  obtain ⟨fromNode, id, hopLimit, hfrom, hid⟩ := c
  have hrecent := mem_recent_iff (fromNode, id) hm.sound
  simp only [PacketHistory.hear, ObserveLog.hear, Hearing.packet, PacketHistory.observe, beq_iff_eq,
    hid, if_false]
  rcases hfind : h.find fromNode id with - | e
  · have hgone : (fromNode, id) ∉ recent log := fun hmem => by
      rw [(hm.find_iff hfrom _).mpr ⟨hmem, rfl⟩] at hfind
      cases hfind
    have hnew : expected (fromNode, id) log hopLimit = .new :=
      if_pos (not_not.mp fun hnot => hgone (hrecent.mpr hnot))
    rw [hnew]
    refine ⟨rfl, ?_⟩
    rw [PacketHistory.store, hfind]
    exact hm.record hgone
  · obtain ⟨hknown, rfl⟩ := (hm.find_iff hfrom e).mp hfind
    have hupgraded := highest_lt_iff (hopLimitsSince_ne_nil (List.mem_of_mem_take hknown)) hopLimit
    rw [expected, if_neg (hrecent.mp hknown)]
    by_cases hlt : highest (hopLimitsSince (fromNode, id) log) < hopLimit
    · rw [if_pos (hupgraded.mp hlt)]
      simp only [entryOf, hlt, if_true, true_and]
      rw [PacketHistory.store, hfind]
      exact hm.raise hfrom hknown (by decide) (Slots.getElem?_changeFirst (hm.once hfrom))
    · rw [if_neg fun hall => hlt (hupgraded.mpr hall)]
      simp only [entryOf, hlt, if_false, true_and]
      refine hm.raise hfrom hknown (by decide) fun p => ?_
      -- the entry that is named has this hop limit already
      rcases hp : h.entries.cells[p]? with - | e
      · rfl
      · by_cases hnamed : PacketHistory.named fromNode id e = true
        · obtain ⟨-, rfl⟩ := hm.cell hp
          have hpacket := (named_entryOf hfrom).mp hnamed
          simp [hpacket, entryOf, hlt]
        · simp [hnamed]

end Mirrored

/-- Over every sequence of observations the history answers as the log does, and no packet ever
has two entries. -/
theorem history_retention (calls : List Hearing) :
    (answers PacketHistory.hear .new calls).1 = (answers ObserveLog.hear [] calls).1 ∧
      (answers PacketHistory.hear .new calls).2.Distinct := by
  obtain ⟨hanswers, hmirrors⟩ := answers_refine (R := Mirrors) (fun h log c hm => hm.hear c) .new calls
  exact ⟨hanswers, hmirrors.distinct⟩

end Meshrustic.Routing
