import Mathlib.Logic.Function.Basic
import Meshrustic.Core.Clock
import Meshrustic.Routing.Runs

/-!
# The accounts of the retries (`mesh-routing/src/reliable.rs`, `router.rs:4246-4297`)

A retry slot is written by seven calls: it is scheduled, its retries are handed out
by `poll_reliable_retransmit`, the radio reports each frame as sent, failed or
refused, airtime heard moves its time on, and an answer stops it. `retryCalls` takes
them in any order, at real times that do not go back; the code sees the 32-bit clock.

A ghost account for each packet counts what was handed out and refused since its slot
was filled, and remembers what became of the last attempt. A refusal counts against a
retry that is with the radio, once. A report on packet id 0 by `note_tx_done` is none:
the code ignores it.

Results:
* `retryCalls_settled`: every account agrees with its slot.
* `reliable_accounting`: one active slot a packet, no more retries than scheduled, none
  before the last attempt was reported and its delay is over, and a refused retry goes
  out again, at one of the next polls, as long as the packet has its slot.
* `refused_for_good`: a redirected last try and a stopped packet have none, and a delay
  of more than half a turn of the clock is over at once.
-/
namespace Meshrustic.Routing

/-- What became of the last frame of a packet. -/
inductive Attempt where
  | none
  /-- the scheduled frame is with the radio -/
  | first (delayMs : UInt32)
  /-- a retry is with the radio -/
  | retry (delayMs : UInt32) (frame : Frame)
  /-- reported done or failed at a real time; `bumpsMs` is the airtime heard since -/
  | sent (atMs : Nat) (delayMs : UInt32) (bumpsMs : Nat)
  | rejected
  deriving DecidableEq

structure Account where
  budget : Nat
  handedOut : Nat
  rejections : Nat
  attempt : Attempt
  deriving DecidableEq

namespace Attempt

/-- The frame with the radio was sent, or its sending failed. -/
def report (atMs : Nat) : Attempt → Attempt
  | .first delayMs => .sent atMs delayMs 0
  | .retry delayMs _ => .sent atMs delayMs 0
  | a => a

def bump (airtimeMs : UInt32) : Attempt → Attempt
  | .sent atMs delayMs bumpsMs => .sent atMs delayMs (bumpsMs + airtimeMs.toNat)
  | a => a

end Attempt

namespace Account

/-- The radio queue refused the frame. A scheduled frame is none that was handed out,
and a frame that is not with the radio cannot be refused. -/
def reject (a : Account) : Account :=
  match a.attempt with
  | .first _ => { a with attempt := .rejected }
  | .retry _ _ => { a with rejections := a.rejections + 1, attempt := .rejected }
  | _ => a

theorem reject_bounded {a : Account} (h : a.handedOut ≤ a.budget + a.rejections) :
    a.reject.handedOut ≤ a.reject.budget + a.reject.rejections := by
  unfold reject
  split
  · exact h
  · exact Nat.le_succ_of_le h
  · exact h

end Account

/-- The router, with the accounts of its packets and the real time. -/
structure RetryState where
  router : Router
  accounts : PacketKey → Account
  now : Nat

inductive RetryCall where
  | schedule (k : PacketKey) (toNode : UInt32) (relayed : Bool) (frame : Frame)
      (retxDelayMs : UInt32) (numRetx : UInt8) (named : Option NamedFollowup)
  | poll (retxDelayFor : PendingReliable → UInt32) (alternate : DueRetransmit → Option UInt8)
  | done (k : PacketKey)
  | failed (k : PacketKey)
  | rejected (k : PacketKey)
  | bump (airtimeMs : UInt32)
  | stop (k : PacketKey)

/-- A poll at a real time, with what it is told of delays and other ways. -/
structure Poll where
  time : Nat
  retxDelayFor : PendingReliable → UInt32
  alternate : DueRetransmit → Option UInt8

/-- The delay that starts when a retry of the slot is reported. -/
def dueDelay (retxDelayFor : PendingReliable → UInt32) (x : PendingReliable) : UInt32 :=
  (x.named.map (·.delayMs)).getD (retxDelayFor x)

namespace Router

variable (r : Router)

/-- The packet whose retry a poll returns, with the frame. -/
def handsOut (nowMs : UInt32) (retxDelayFor : PendingReliable → UInt32)
    (alternate : DueRetransmit → Option UInt8) : Option (PacketKey × RelayPlan) :=
  (dueRetransmit r.pendingReliable nowMs retxDelayFor).2.bind fun d =>
    (r.pollReliableRetransmit nowMs retxDelayFor alternate).2.map fun plan =>
      ((d.fromNode, d.packetId), plan)

/-- The state after polls, one after the other. -/
def polls (ps : List Poll) : Router :=
  ps.foldl (fun r p => (r.pollReliableRetransmit (clock p.time) p.retxDelayFor p.alternate).1) r

end Router

namespace RetryState

variable (s : RetryState)

/-- One account changes. -/
def charge (k : PacketKey) (f : Account → Account) : PacketKey → Account :=
  Function.update s.accounts k (f (s.accounts k))

/-- What the calls do to the accounts. -/
def settle (now : Nat) : RetryCall → PacketKey → Account
  | .schedule k toNode relayed frame retxDelayMs numRetx named =>
    let slots := s.router.pendingReliable
    -- a packet that has a slot keeps it; with all slots taken there is none
    if slots.any (PendingReliable.serves k.1 k.2) || !(scheduleReliable slots k.1 k.2 toNode relayed
        frame retxDelayMs numRetx.toNat named).2 then s.accounts
    else s.charge k fun _ => ⟨numRetx.toNat, 0, 0, .first retxDelayMs⟩
  | .poll retxDelayFor alternate =>
    match s.router.handsOut (clock now) retxDelayFor alternate with
    | none => s.accounts
    | some (k, plan) =>
      let delayMs := ((s.router.pendingReliable.find? (PendingReliable.serves k.1 k.2)).map
        (dueDelay retxDelayFor)).getD 0
      s.charge k fun a => { a with
        handedOut := a.handedOut + 1
        attempt := .retry delayMs plan.frame }
  | .done k =>
    if k.2 == 0 then s.accounts
    else s.charge k fun a => { a with attempt := a.attempt.report now }
  | .failed k => s.charge k fun a => { a with attempt := a.attempt.report now }
  | .rejected k => s.charge k Account.reject
  | .bump airtimeMs => fun k => { s.accounts k with
      attempt := (s.accounts k).attempt.bump airtimeMs }
  | .stop _ => s.accounts

/-- What they do to the router. -/
def call (nowMs : UInt32) : RetryCall → Router
  | .schedule k toNode relayed frame retxDelayMs numRetx named => { s.router with
      pendingReliable := (scheduleReliable s.router.pendingReliable k.1 k.2 toNode relayed frame
        retxDelayMs numRetx.toNat named).1 }
  | .poll retxDelayFor alternate =>
    (s.router.pollReliableRetransmit nowMs retxDelayFor alternate).1
  | .done k => s.router.noteTxDone k.1 k.2 nowMs
  | .failed k => s.router.noteTxFailure k.1 k.2 nowMs
  | .rejected k => s.router.noteTxQueueRejected k.1 k.2 nowMs
  | .bump airtimeMs => { s.router with
      pendingReliable := bumpReliableDelays s.router.pendingReliable airtimeMs }
  | .stop k => { s.router with
      pendingReliable := stopReliableFor s.router.pendingReliable k.1 k.2 }

def next (l : Nat × RetryCall) : RetryState := ⟨s.call (clock l.1) l.2, s.settle l.1 l.2, l.1⟩

end RetryState

/-- The calls, from free slots, at real times that do not go back. -/
def retryCalls : LTS RetryState (Nat × RetryCall) where
  init s := s.router.pendingReliable = .all .inactive ∧ s.accounts = fun _ => ⟨0, 0, 0, .none⟩
  step s l t := s.now ≤ l.1 ∧ t = s.next l

/-! ## What comes due -/

namespace PendingReliable

/-- The slot that a poll stops at. -/
def isDue (nowMs : UInt32) (x : PendingReliable) : Bool :=
  x.active && !x.awaitingTx && !notYet nowMs x.nextTxMs && x.numRetx != 0

/-- Its next retry is the last and goes another way. -/
def redirects (x : PendingReliable) : Bool :=
  x.named.any (·.redirectOnLast) && x.numRetx - 1 == 0

/-- The slot after the poll. -/
def tried (retxDelayFor : PendingReliable → UInt32) (x : PendingReliable) : PendingReliable :=
  { x with
    numRetx := x.numRetx - 1
    awaitingTx := true
    retxDelayMs := dueDelay retxDelayFor x
    nextTxMs := 0
    active := !x.redirects }

/-- What the poll takes out of it. -/
def due (x : PendingReliable) : DueRetransmit :=
  ⟨x.fromNode, x.packetId, x.toNode, x.relayed, x.named, x.redirects, x.frame⟩

variable {nowMs : UInt32} {retxDelayFor : PendingReliable → UInt32} {x : PendingReliable}

theorem dueVisit_due (h : x.isDue nowMs = true) :
    dueVisit nowMs retxDelayFor x = .stop (x.tried retxDelayFor) x.due := by
  simp only [isDue, Bool.and_eq_true, Bool.not_eq_true', bne_iff_ne] at h
  obtain ⟨⟨⟨ha, hw⟩, hy⟩, hn⟩ := h
  unfold dueVisit
  simp only [ha, hw, hy, beq_iff_eq, hn]
  rfl

theorem dueVisit_passes (h : x.isDue nowMs = false) :
    ∃ y, dueVisit nowMs retxDelayFor x = .pass y ∧ (y.active = true → y = x) ∧
      y.isDue nowMs = false := by
  unfold dueVisit
  split
  · exact ⟨x, rfl, fun _ => rfl, h⟩
  rename_i hon
  split
  · exact ⟨x, rfl, fun _ => rfl, h⟩
  rename_i hdue
  split
  · exact ⟨_, rfl, fun ha => absurd ha Bool.false_ne_true, rfl⟩
  · rename_i hleft
    simp_all [isDue]

/-- The slot holds a retry that nobody waits for. -/
def pending (x : PendingReliable) : Bool := x.active && !x.awaitingTx

theorem dueVisit_pending {a y : PendingReliable} {d : DueRetransmit}
    (h : dueVisit nowMs retxDelayFor a = .stop y d) : a.pending = true ∧ y.pending = false := by
  cases hd : a.isDue nowMs with
  | false =>
    obtain ⟨z, hz, -⟩ := @dueVisit_passes nowMs retxDelayFor a hd
    rw [hz] at h
    cases h
  | true =>
    rw [dueVisit_due hd] at h
    cases h
    simp only [isDue, Bool.and_eq_true] at hd
    exact ⟨by simp only [pending, Bool.and_eq_true]; exact hd.1.1, by simp [pending, tried]⟩

theorem dueVisit_quiet {a y : PendingReliable} (h : dueVisit nowMs retxDelayFor a = .pass y)
    (hy : y.pending = true) : a.pending = true := by
  cases hd : a.isDue nowMs with
  | false =>
    obtain ⟨z, hz, hsame, -⟩ := @dueVisit_passes nowMs retxDelayFor a hd
    rw [hz] at h
    cases h
    have hactive : y.active = true := by
      simp only [pending, Bool.and_eq_true] at hy
      exact hy.1
    rw [← hsame hactive]
    exact hy
  | true =>
    rw [dueVisit_due hd] at h
    cases h

/-- With one active slot a packet, it is the one found by the packet's name. -/
theorem find_serves {slots : ReliableSlots} (h : Once active key slots) (hx : x ∈ slots)
    (ha : x.active = true) : slots.find? (serves x.fromNode x.packetId) = some x := by
  have hserves : x.serves x.fromNode x.packetId = true := serves_iff.mpr ⟨ha, rfl⟩
  cases hfind : slots.find? (serves x.fromNode x.packetId) with
  | none =>
    have := List.find?_eq_none.mp hfind x hx
    exact absurd hserves this
  | some y =>
    have hy := serves_iff.mp (List.find?_some hfind)
    rw [h.eq hx (Slots.find?_mem hfind) ha hy.1 hy.2.symm]

end PendingReliable

section Due

variable {r : Router} {slots : ReliableSlots} {nowMs : UInt32}
variable {retxDelayFor : PendingReliable → UInt32} {alternate : DueRetransmit → Option UInt8}

/-- A poll that finds a retry, around its slot. -/
theorem dueRetransmit_split {d : DueRetransmit}
    (h : (dueRetransmit slots nowMs retxDelayFor).2 = some d) :
    ∃ l x rest, slots.cells = l ++ x :: rest ∧ x.isDue nowMs = true ∧ d = x.due ∧
      (∀ a ∈ l, a.isDue nowMs = false) ∧
      (dueRetransmit slots nowMs retxDelayFor).1.cells =
        l.map (fun a => (dueVisit nowMs retxDelayFor a).cell) ++ x.tried retxDelayFor :: rest := by
  obtain ⟨l, x, rest, y, hs, hx, hl, hcells⟩ := sweep_split h
  have hdue : x.isDue nowMs = true := by
    cases hd : x.isDue nowMs with
    | true => rfl
    | false =>
      obtain ⟨y, hy, -⟩ := @PendingReliable.dueVisit_passes nowMs retxDelayFor _ hd
      rw [hy] at hx
      cases hx
  rw [PendingReliable.dueVisit_due hdue] at hx
  cases hx
  refine ⟨l, x, rest, hs, hdue, rfl, fun a ha => ?_, hcells⟩
  obtain ⟨c, hc⟩ := hl a ha
  cases hd : a.isDue nowMs with
  | false => rfl
  | true =>
    rw [PendingReliable.dueVisit_due hd] at hc
    cases hc

/-- The slots that are active after a poll: untouched ones of other packets, and the one
whose retry was taken out and is not the last. -/
theorem dueRetransmit_active (honce : Once PendingReliable.active PendingReliable.key slots)
    {y : PendingReliable} (hy : y ∈ (dueRetransmit slots nowMs retxDelayFor).1)
    (ha : y.active = true) :
    (y ∈ slots ∧ ∀ d, (dueRetransmit slots nowMs retxDelayFor).2 = some d →
      y.key ≠ (d.fromNode, d.packetId)) ∨
    ∃ x ∈ slots, x.isDue nowMs = true ∧ x.redirects = false ∧ y = x.tried retxDelayFor ∧
      (dueRetransmit slots nowMs retxDelayFor).2 = some x.due := by
  have hpassed : ∀ a : PendingReliable, a.isDue nowMs = false →
      (dueVisit nowMs retxDelayFor a).cell.active = true →
        (dueVisit nowMs retxDelayFor a).cell = a := by
    intro a hd ha
    obtain ⟨c, hc, hsame, -⟩ := @PendingReliable.dueVisit_passes nowMs retxDelayFor _ hd
    rw [hc] at ha ⊢
    exact hsame ha
  cases hout : (dueRetransmit slots nowMs retxDelayFor).2 with
  | none =>
    left
    refine ⟨?_, fun d hd => by cases hd⟩
    rcases sweep_origin hy with hy | ⟨x, hx, hpass | ⟨b, -, hb⟩⟩
    · exact hy
    · have hd : x.isDue nowMs = false := by
        cases hd : x.isDue nowMs with
        | false => rfl
        | true =>
          rw [PendingReliable.dueVisit_due hd] at hpass
          cases hpass
      have hcell : (dueVisit nowMs retxDelayFor x).cell = y := by rw [hpass]; rfl
      rw [← hcell, hpassed x hd (by rw [hcell]; exact ha)]
      exact hx
    · exact absurd (hout.symm.trans hb) (by simp)
  | some d =>
    obtain ⟨l, x, rest, hs, hdue, rfl, hl, hcells⟩ := dueRetransmit_split hout
    have hxa : x.active = true := by
      simp only [PendingReliable.isDue, Bool.and_eq_true] at hdue
      exact hdue.1.1.1
    unfold Once at honce
    rw [hs, List.pairwise_append, List.pairwise_cons] at honce
    rw [Slots.mem_def, hcells, List.mem_append, List.mem_cons] at hy
    rcases hy with hy | rfl | hy
    · obtain ⟨a, hmem, rfl⟩ := List.mem_map.mp hy
      have hsame := hpassed a (hl a hmem) ha
      rw [hsame] at ha ⊢
      refine .inl ⟨by rw [Slots.mem_def, hs]; simp [hmem], fun d hd => ?_⟩
      cases hd
      exact honce.2.2 a hmem x List.mem_cons_self ha hxa
    · refine .inr ⟨x, by rw [Slots.mem_def, hs]; simp, hdue, ?_, rfl, rfl⟩
      simpa [PendingReliable.tried] using ha
    · refine .inl ⟨by rw [Slots.mem_def, hs]; simp [hy], fun d hd => ?_⟩
      cases hd
      exact (honce.2.1.1 y hy hxa ha).symm

/-- A poll hands out what came due, unless that is to go another way and there is none. -/
theorem handsOut_some {k : PacketKey} {plan : RelayPlan}
    (h : r.handsOut nowMs retxDelayFor alternate = some (k, plan)) :
    ∃ l x rest, r.pendingReliable.cells = l ++ x :: rest ∧ x.isDue nowMs = true ∧
      (dueRetransmit r.pendingReliable nowMs retxDelayFor).2 = some x.due ∧ k = x.key ∧
      (x.redirects = false → plan = ⟨x.frame, 0⟩) := by
  obtain ⟨d, hd, hplan⟩ := Option.bind_eq_some_iff.mp h
  obtain ⟨p, hp, heq⟩ := Option.map_eq_some_iff.mp hplan
  cases heq
  obtain ⟨l, x, rest, hs, hdue, rfl, -, -⟩ := dueRetransmit_split hd
  refine ⟨l, x, rest, hs, hdue, hd, rfl, fun hred => ?_⟩
  unfold Router.pollReliableRetransmit at hp
  dsimp only at hp
  rw [hd] at hp
  simp only [PendingReliable.due, hred, Bool.not_false, if_true, Option.some.injEq] at hp
  exact hp.symm

theorem handsOut_of_due {x : PendingReliable}
    (h : (dueRetransmit r.pendingReliable nowMs retxDelayFor).2 = some x.due)
    (hred : x.redirects = false) :
    r.handsOut nowMs retxDelayFor alternate = some (x.key, ⟨x.frame, 0⟩) := by
  unfold Router.handsOut Router.pollReliableRetransmit
  dsimp only
  rw [h]
  simp [PendingReliable.due, hred, PendingReliable.key]

end Due

/-! ## Accounts and slots -/

/-- The account of a packet agrees with its active slot. -/
structure Settled (a : Account) (now : Nat) (x : PendingReliable) : Prop where
  balance : x.numRetx + a.handedOut ≤ a.budget + a.rejections
  waits : x.awaitingTx = true → a.attempt = .first x.retxDelayMs ∧ x.hasTransmitted = false ∨
    a.attempt = .retry x.retxDelayMs x.frame ∧ x.hasTransmitted = true ∧
      (x.named.any (·.redirectOnLast) = true → x.numRetx ≠ 0)
  timed : x.awaitingTx = false → x.hasTransmitted = true ∧ (a.attempt = .rejected ∨
    ∃ atMs bumpsMs, a.attempt = .sent atMs x.retxDelayMs bumpsMs ∧ atMs ≤ now ∧
      x.nextTxMs = clock (atMs + x.retxDelayMs.toNat + bumpsMs))

theorem clock_add_delay (t : Nat) (d : UInt32) : clock t + d = clock (t + d.toNat) := by
  rw [← clock_add, UInt32.ofNat_toNat]

namespace Settled

variable {a : Account} {now T : Nat} {x : PendingReliable}

theorem later (h : Settled a now x) (hT : now ≤ T) : Settled a T x where
  balance := h.balance
  waits := h.waits
  timed hw := by
    obtain ⟨hsent, hrejected | ⟨atMs, b, hattempt, hle, hnext⟩⟩ := h.timed hw
    · exact ⟨hsent, .inl hrejected⟩
    · exact ⟨hsent, .inr ⟨atMs, b, hattempt, Nat.le_trans hle hT, hnext⟩⟩

/-- The radio reports the frame that the slot waits for. -/
theorem report (h : Settled a now x) (hw : x.awaitingTx = true) :
    Settled { a with attempt := a.attempt.report T } T
      { x with hasTransmitted := true, awaitingTx := false, nextTxMs := clock T + x.retxDelayMs } where
  balance := h.balance
  waits hw' := absurd hw' Bool.false_ne_true
  timed _ := by
    have hattempt : a.attempt.report T = .sent T x.retxDelayMs 0 := by
      rcases h.waits hw with ⟨hfirst, -⟩ | ⟨hretry, -, -⟩
      · rw [hfirst]
        rfl
      · rw [hretry]
        rfl
    exact ⟨rfl, .inr ⟨T, 0, hattempt, Nat.le_refl T, clock_add_delay T x.retxDelayMs⟩⟩

/-- A slot that does not wait has nothing to be reported. -/
theorem report_idle (h : Settled a now x) (hw : x.awaitingTx = false) :
    a.attempt.report T = a.attempt ∧ a.reject = a := by
  unfold Account.reject
  obtain ⟨-, hrejected | ⟨atMs, b, hattempt, -, -⟩⟩ := h.timed hw
  · rw [hrejected]
    exact ⟨rfl, rfl⟩
  · rw [hattempt]
    exact ⟨rfl, rfl⟩

theorem sent (h : Settled a now x) (hT : now ≤ T) (ha : x.active = true) :
    Settled { a with attempt := a.attempt.report T } T (x.sent x.key (clock T)) := by
  unfold PendingReliable.sent
  cases hw : x.awaitingTx with
  | true =>
    rw [if_pos (by simp [ha])]
    exact h.report hw
  | false =>
    rw [if_neg (by simp), (h.report_idle hw).1]
    exact h.later hT

/-- A refusal gives the retry back. -/
theorem reject (h : Settled a now x) (hw : x.awaitingTx = true) {nextTxMs : UInt32}
    (hsent : x.hasTransmitted = true) :
    Settled a.reject T
      { x with numRetx := min (x.numRetx + 1) 255, awaitingTx := false, nextTxMs := nextTxMs } := by
  obtain ⟨-, hfirst⟩ | ⟨hretry, -, -⟩ := h.waits hw
  · rw [hsent] at hfirst
    cases hfirst
  · have hreject : a.reject = { a with rejections := a.rejections + 1, attempt := .rejected } := by
      unfold Account.reject
      rw [hretry]
    rw [hreject]
    refine ⟨?_, fun hw' => absurd hw' Bool.false_ne_true, fun _ => ⟨hsent, .inl rfl⟩⟩
    have := h.balance
    dsimp only
    omega

theorem rejected (h : Settled a now x) (hT : now ≤ T)
    (ha : (x.rejected x.key (clock T)).active = true) :
    Settled a.reject T (x.rejected x.key (clock T)) := by
  unfold PendingReliable.rejected at ha ⊢
  split at ha
  · rename_i hoff
    simp [ha] at hoff
  · rename_i hon
    rw [if_neg hon]
    split at ha
    · rename_i hsent
      rw [if_pos hsent]
      cases hw : x.awaitingTx with
      | true =>
        rw [if_pos rfl]
        exact h.reject hw hsent
      | false =>
        rw [if_neg Bool.false_ne_true, (h.report_idle (T := T) hw).2]
        exact h.later hT
    · cases ha

theorem bump (h : Settled a now x) (hT : now ≤ T) (ha : x.active = true) (airtimeMs : UInt32) :
    Settled { a with attempt := a.attempt.bump airtimeMs } T
      (if x.active && !x.awaitingTx then { x with nextTxMs := x.nextTxMs + airtimeMs } else x) := by
  have hlater := h.later hT
  cases hw : x.awaitingTx with
  | true =>
    rw [if_neg (by simp)]
    refine ⟨h.balance, fun _ => ?_, fun hw' => absurd (hw.symm.trans hw') (by simp)⟩
    rcases h.waits hw with ⟨hfirst, hrest⟩ | ⟨hretry, hrest⟩
    · left
      dsimp only
      rw [hfirst]
      exact ⟨rfl, hrest⟩
    · right
      dsimp only
      rw [hretry]
      exact ⟨rfl, hrest⟩
  | false =>
    rw [if_pos (by simp [ha])]
    refine ⟨h.balance, fun hw' => absurd hw' Bool.false_ne_true, fun _ => ?_⟩
    obtain ⟨hsent, hrejected | ⟨atMs, b, hattempt, hle, hnext⟩⟩ := hlater.timed hw
    · refine ⟨hsent, .inl ?_⟩
      dsimp only
      rw [hrejected]
      rfl
    · refine ⟨hsent, .inr ⟨atMs, b + airtimeMs.toNat, ?_, hle, ?_⟩⟩
      · dsimp only
        rw [hattempt]
        rfl
      · dsimp only
        rw [hnext, clock_add_delay, Nat.add_assoc _ b]

end Settled

namespace RetryState

/-- Every account agrees with its slot. -/
structure Inv (s : RetryState) : Prop where
  once : Once PendingReliable.active PendingReliable.key s.router.pendingReliable
  bounded : ∀ k, (s.accounts k).handedOut ≤ (s.accounts k).budget + (s.accounts k).rejections
  settled : ∀ x ∈ s.router.pendingReliable, x.active = true →
    Settled (s.accounts x.key) s.now x

variable {s : RetryState} {T : Nat}

@[simp] theorem charge_self (k : PacketKey) (f : Account → Account) :
    s.charge k f k = f (s.accounts k) := Function.update_self ..

theorem charge_of_ne {k k' : PacketKey} (h : k' ≠ k) (f : Account → Account) :
    s.charge k f k' = s.accounts k' := Function.update_of_ne h ..

/-- What holds of every account holds after one of them changed, if it holds of that. -/
theorem charge_all {P : Account → Prop} {k : PacketKey} {f : Account → Account}
    (h : ∀ k', P (s.accounts k')) (hf : P (s.accounts k) → P (f (s.accounts k))) (k' : PacketKey) :
    P (s.charge k f k') := by
  by_cases hk : k' = k
  · rw [hk, charge_self]
    exact hf (h k)
  · rw [charge_of_ne hk]
    exact h k'

namespace Inv

/-- The slots are changed one by one, and each keeps to its account. -/
theorem mapped (h : s.Inv) {r' : Router} {accounts : PacketKey → Account}
    {f : PendingReliable → PendingReliable}
    (hslots : r'.pendingReliable = s.router.pendingReliable.map f) (hf : ∀ x, Eased x (f x))
    (hbounded : ∀ k, (accounts k).handedOut ≤ (accounts k).budget + (accounts k).rejections)
    (hsettled : ∀ x ∈ s.router.pendingReliable, x.active = true → (f x).active = true →
      Settled (s.accounts x.key) s.now x → Settled (accounts x.key) T (f x)) :
    Inv ⟨r', accounts, T⟩ where
  once := by
    rw [hslots]
    exact h.once.calm (.map fun x _ => (hf x).toKept.calmer)
  bounded := hbounded
  settled y hy hactive := by
    rw [hslots, Slots.mem_map] at hy
    obtain ⟨x, hx, rfl⟩ := hy
    have ha := (hf x).active hactive
    have hnew := hsettled x hx ha hactive (h.settled x hx ha)
    rw [← (hf x).key] at hnew
    exact hnew

/-- The slots of other packets have other accounts. -/
theorem sent (h : s.Inv) (hT : s.now ≤ T) (k : PacketKey) {r' : Router}
    (hslots : r'.pendingReliable = s.router.pendingReliable.map (PendingReliable.sent k (clock T))) :
    Inv ⟨r', s.charge k fun a => { a with attempt := a.attempt.report T }, T⟩ := by
  refine h.mapped hslots (Router.sent_eased k (clock T)) ?_ fun x hx ha hactive hold => ?_
  · exact charge_all (P := fun a => a.handedOut ≤ a.budget + a.rejections) h.bounded id
  · by_cases hk : x.key = k
    · subst hk
      rw [charge_self]
      exact hold.sent hT ha
    · have hsame : x.sent k (clock T) = x := by simp [PendingReliable.sent, hk]
      rw [charge_of_ne hk, hsame]
      exact hold.later hT

theorem rejected (h : s.Inv) (hT : s.now ≤ T) (k : PacketKey) :
    (s.next (T, .rejected k)).Inv := by
  change Inv ⟨s.router.noteTxQueueRejected k.1 k.2 (clock T), s.charge k Account.reject, T⟩
  refine h.mapped (f := PendingReliable.rejected k (clock T)) rfl
    (Router.rejected_eased k (clock T)) ?_ fun x hx ha hactive hold => ?_
  · exact charge_all (P := fun a => a.handedOut ≤ a.budget + a.rejections) h.bounded
      Account.reject_bounded
  · by_cases hk : x.key = k
    · subst hk
      rw [charge_self]
      exact hold.rejected hT hactive
    · have hsame : x.rejected k (clock T) = x := by simp [PendingReliable.rejected, hk]
      rw [charge_of_ne hk, hsame]
      exact hold.later hT

theorem bump (h : s.Inv) (hT : s.now ≤ T) (airtimeMs : UInt32) :
    (s.next (T, .bump airtimeMs)).Inv := by
  refine h.mapped (T := T) rfl (fun x => ?_) h.bounded fun x hx ha hactive hold =>
    hold.bump hT ha airtimeMs
  split
  · exact ⟨⟨rfl, rfl, id⟩, fun _ => id⟩
  · exact .refl x

theorem stop (h : s.Inv) (hT : s.now ≤ T) (k : PacketKey) : (s.next (T, .stop k)).Inv := by
  refine h.mapped (T := T) rfl (stop_eased k.1 k.2) h.bounded fun x hx ha hactive hold => ?_
  rw [(stop_active hactive).1]
  exact hold.later hT

theorem later (h : s.Inv) (hT : s.now ≤ T) : Inv ⟨s.router, s.accounts, T⟩ :=
  ⟨h.once, h.bounded, fun x hx ha => (h.settled x hx ha).later hT⟩

theorem done (h : s.Inv) (hT : s.now ≤ T) (k : PacketKey) : (s.next (T, .done k)).Inv := by
  unfold RetryState.next RetryState.call RetryState.settle Router.noteTxDone
  dsimp only
  split
  · exact h.later hT
  · exact h.sent hT k rfl

/-- A newly filled slot starts an account; nobody else had the packet. -/
theorem schedule (h : s.Inv) (hT : s.now ≤ T) (k : PacketKey) (toNode : UInt32) (relayed : Bool)
    (frame : Frame) (retxDelayMs : UInt32) (numRetx : UInt8) (named : Option NamedFollowup) :
    (s.next (T, .schedule k toNode relayed frame retxDelayMs numRetx named)).Inv := by
  unfold RetryState.next RetryState.call RetryState.settle scheduleReliable
  dsimp only
  cases hany : s.router.pendingReliable.any (PendingReliable.serves k.1 k.2) with
  | true => simpa using h.later hT
  | false =>
    simp only [Bool.false_eq_true, if_false, Bool.false_or]
    cases hplace : s.router.pendingReliable.place (fun x => !x.active)
        ⟨true, k.1, k.2, toNode, relayed, named, numRetx.toNat, true, false, retxDelayMs, 0, frame⟩ with
    | none => simpa using h.later hT
    | some slots =>
      simp only [Bool.not_true, Bool.false_eq_true, if_false]
      have hnew : ∀ x ∈ s.router.pendingReliable, x.active = true → x.key ≠ k := by
        intro x hx ha hk
        have := Slots.any_eq_false.mp hany x hx
        rw [PendingReliable.serves_iff.mpr ⟨ha, hk⟩] at this
        cases this
      refine ⟨h.once.place ?_ hplace, ?_, fun x hx ha => ?_⟩
      · exact hnew
      · refine charge_all (P := fun a => a.handedOut ≤ a.budget + a.rejections) h.bounded fun _ => ?_
        exact Nat.zero_le _
      · dsimp only
        rcases Slots.mem_of_place hplace hx with rfl | hx
        · rw [show PendingReliable.key _ = k from rfl, charge_self]
          exact ⟨by simp, fun _ => .inl ⟨rfl, rfl⟩, fun hw => by cases hw⟩
        · rw [charge_of_ne (hnew x hx ha)]
          exact (h.settled x hx ha).later hT

end Inv

end RetryState

namespace RetryState.Inv

variable {s : RetryState} {T : Nat}

/-- A poll takes one retry out, at the expense of its account. -/
theorem poll (h : s.Inv) (hT : s.now ≤ T) (retxDelayFor : PendingReliable → UInt32)
    (alternate : DueRetransmit → Option UInt8) :
    (s.next (T, .poll retxDelayFor alternate)).Inv := by
  unfold RetryState.next RetryState.call RetryState.settle
  dsimp only
  rw [Router.pollReliableRetransmit_fields]
  have honce : Once PendingReliable.active PendingReliable.key
      (dueRetransmit s.router.pendingReliable (clock T) retxDelayFor).1 :=
    h.once.calm ((dueRetransmit_kept _ _ _).imp fun _ _ => Kept.calmer)
  cases hout : s.router.handsOut (clock T) retxDelayFor alternate with
  | none =>
    refine ⟨honce, h.bounded, fun y hy ha => ?_⟩
    rcases dueRetransmit_active h.once hy ha with ⟨hold, -⟩ | ⟨x, -, -, hred, -, hdue⟩
    · exact (h.settled y hold ha).later hT
    · rw [handsOut_of_due hdue hred] at hout
      cases hout
  | some handed =>
    obtain ⟨k, plan⟩ := handed
    obtain ⟨l, x, rest, hs, hdue, hfound, rfl, hplan⟩ := handsOut_some hout
    have hx : x ∈ s.router.pendingReliable := by rw [Slots.mem_def, hs]; simp
    simp only [PendingReliable.isDue, Bool.and_eq_true, Bool.not_eq_true', bne_iff_ne] at hdue
    obtain ⟨⟨⟨hxa, hwaits⟩, -⟩, hleft⟩ := hdue
    have hsettled := h.settled x hx hxa
    have hbalance := hsettled.balance
    refine ⟨honce, ?_, fun y hy ha => ?_⟩
    · refine charge_all (P := fun a => a.handedOut ≤ a.budget + a.rejections) h.bounded fun _ => ?_
      dsimp only
      omega
    · dsimp only
      rcases dueRetransmit_active h.once hy ha with ⟨hold, hother⟩ | ⟨x', hx', hdue', hred, rfl, hfound'⟩
      · have hne : y.key ≠ x.key := hother _ hfound
        rw [charge_of_ne hne]
        exact (h.settled y hold ha).later hT
      · -- the slot that is active again is the one whose retry was taken out
        have hsame : x.due = x'.due := Option.some.inj (hfound.symm.trans hfound')
        have hkey : x'.key = x.key := by
          rw [PendingReliable.key, PendingReliable.key]
          exact congrArg (fun d : DueRetransmit => (d.fromNode, d.packetId)) hsame.symm
        simp only [PendingReliable.isDue, Bool.and_eq_true] at hdue'
        obtain rfl : x' = x := h.once.eq hx' hx hdue'.1.1.1 hxa hkey
        rw [show (x'.tried retxDelayFor).key = x'.key from rfl, charge_self,
          show x'.key.1 = x'.fromNode from rfl, show x'.key.2 = x'.packetId from rfl,
          PendingReliable.find_serves h.once hx hxa, hplan hred]
        refine ⟨?_, fun _ => .inr ⟨rfl, (hsettled.timed hwaits).1, fun hnamed => ?_⟩,
          fun hw => by cases hw⟩
        · change x'.numRetx - 1 + _ ≤ _
          dsimp only
          omega
        · change x'.numRetx - 1 ≠ 0
          change x'.named.any (·.redirectOnLast) = true at hnamed
          simpa [PendingReliable.redirects, hnamed] using hred

end RetryState.Inv

theorem retryCalls_settled : retryCalls.Inductive RetryState.Inv where
  init s hs := by
    obtain ⟨hslots, haccounts⟩ := hs
    refine ⟨?_, ?_, fun x hx ha => ?_⟩
    · rw [hslots]
      exact .all rfl
    · rw [haccounts]
      exact fun k => Nat.le_refl 0
    · rw [hslots] at hx
      rw [Slots.mem_all hx] at ha
      cases ha
  step s l t h hs := by
    obtain ⟨hT, rfl⟩ := hs
    obtain ⟨T, call⟩ := l
    cases call with
    | schedule k toNode relayed frame retxDelayMs numRetx named =>
      exact h.schedule hT k toNode relayed frame retxDelayMs numRetx named
    | poll retxDelayFor alternate => exact h.poll hT retxDelayFor alternate
    | done k => exact h.done hT k
    | failed k => exact h.sent hT k rfl
    | rejected k => exact h.rejected hT k
    | bump airtimeMs => exact h.bump hT airtimeMs
    | stop k => exact h.stop hT k

/-! ## Time and turns -/

/-- A moment less than half a turn ahead has not come. -/
theorem notYet_ahead {t u : Nat} (h : t < u) (hu : u - t ≤ 2147483648) :
    notYet (clock t) (clock u) = true := by
  have hahead := clock_sub_ahead h (Nat.le_trans hu (by decide))
  rw [notYet, decide_eq_true_iff, UInt32.le_iff_toNat_le, hahead]
  simp only [HALF_TURN, CLOCK_PERIOD, UInt32.toNat_ofNat]
  omega

/-- A moment less than half a turn ago has come. -/
theorem notYet_past {t u : Nat} (h : t ≤ u) (hu : u < t + 2147483648) :
    notYet (clock u) (clock t) = false := by
  rw [notYet, decide_eq_false_iff_not, UInt32.le_iff_toNat_le, clock_sub h]
  simp only [HALF_TURN, CLOCK_PERIOD, UInt32.toNat_ofNat]
  omega

theorem polls_retries {r : Router} (ps : List Poll) :
    (r.polls ps).pendingReliable =
      ps.foldl (fun slots p => (slots.sweep (dueVisit (clock p.time) p.retxDelayFor)).1)
        r.pendingReliable := by
  unfold Router.polls
  induction ps generalizing r with
  | nil => rfl
  | cons p ps ih =>
    rw [List.foldl_cons, List.foldl_cons, ih, Router.pollReliableRetransmit_fields]
    rfl

/-- A slot that is due at as many polls as there are slots, and goes no other way, has its
retry handed out at one of them: a slot in front of it can come first once. -/
theorem handed_in_turn {r : Router} {x : PendingReliable} {ps : List Poll}
    (hx : x ∈ r.pendingReliable) (hdue : ∀ p ∈ ps, x.isDue (clock p.time) = true)
    (hred : x.redirects = false) (hmany : MAX_PENDING_RELIABLE ≤ ps.length) :
    ∃ before p after, ps = before ++ p :: after ∧
      (r.polls before).handsOut (clock p.time) p.retxDelayFor p.alternate =
        some (x.key, ⟨x.frame, 0⟩) := by
  obtain ⟨l, rest, hs⟩ := List.append_of_mem hx
  have hsize := r.pendingReliable.size
  rw [hs, List.length_append, List.length_cons] at hsize
  have hfew : l.countP PendingReliable.pending < ps.length := by
    have := List.countP_le_length (p := PendingReliable.pending) (l := l)
    omega
  obtain ⟨before, p, after, y, d, rfl, hvisit, hturn⟩ :=
    Slots.turn (fun p : Poll => dueVisit (clock p.time) p.retxDelayFor)
      (fun _ _ _ _ _ h => PendingReliable.dueVisit_pending h)
      (fun _ _ _ _ h => PendingReliable.dueVisit_quiet h)
      (fun p hp => ⟨_, _, PendingReliable.dueVisit_due (hdue p hp)⟩) hs hfew
  have hp : p ∈ before ++ p :: after := by simp
  cases (PendingReliable.dueVisit_due (hdue p hp)).symm.trans hvisit
  refine ⟨before, p, after, rfl, handsOut_of_due ?_ hred⟩
  rw [polls_retries]
  exact hturn

/-! ## The accounting -/

namespace RetryState.Inv

variable {s : RetryState} {T : Nat}

/-- A retry is handed out after the frame before it was refused, or reported and its delay
over. -/
theorem handed_after (h : s.Inv) (hT : s.now ≤ T) {retxDelayFor : PendingReliable → UInt32}
    {alternate : DueRetransmit → Option UInt8} {k : PacketKey} {plan : RelayPlan}
    (hout : s.router.handsOut (clock T) retxDelayFor alternate = some (k, plan)) :
    (s.accounts k).attempt = .rejected ∨ ∃ atMs delayMs bumpsMs,
      (s.accounts k).attempt = .sent atMs delayMs bumpsMs ∧
        (delayMs.toNat + bumpsMs ≤ 2147483648 → atMs + delayMs.toNat + bumpsMs ≤ T) := by
  obtain ⟨l, x, rest, hs, hdue, -, rfl, -⟩ := handsOut_some hout
  have hx : x ∈ s.router.pendingReliable := by rw [Slots.mem_def, hs]; simp
  simp only [PendingReliable.isDue, Bool.and_eq_true, Bool.not_eq_true'] at hdue
  obtain ⟨⟨⟨hxa, hwaits⟩, hcome⟩, -⟩ := hdue
  obtain ⟨-, hrejected | ⟨atMs, b, hattempt, hle, hnext⟩⟩ := (h.settled x hx hxa).timed hwaits
  · exact .inl hrejected
  · refine .inr ⟨atMs, _, b, hattempt, fun hshort => ?_⟩
    by_contra hearly
    rw [hnext, notYet_ahead (by omega) (by omega)] at hcome
    cases hcome

/-- A refused retry is handed out again while the packet has its slot. -/
theorem handed_again (h : s.Inv) {k : PacketKey} {delayMs : UInt32} {frame : Frame}
    (hretry : (s.accounts k).attempt = .retry delayMs frame)
    (hslot : ∃ x ∈ s.router.pendingReliable, x.serves k.1 k.2 = true) {ps : List Poll}
    (hmany : ps.length = MAX_PENDING_RELIABLE)
    (htimes : ∀ p ∈ ps, T ≤ p.time ∧ p.time < T + 2147483648) :
    ∃ before p after, ps = before ++ p :: after ∧
      ((s.router.noteTxQueueRejected k.1 k.2 (clock T)).polls before).handsOut (clock p.time)
        p.retxDelayFor p.alternate = some (k, ⟨frame, 0⟩) := by
  obtain ⟨x, hx, hserves⟩ := hslot
  obtain ⟨hxa, hkey⟩ := PendingReliable.serves_iff.mp hserves
  have hkey : x.key = k := hkey
  subst hkey
  have hsettled := h.settled x hx hxa
  have hwaits : x.awaitingTx = true := by
    cases hw : x.awaitingTx with
    | true => rfl
    | false =>
      obtain ⟨-, hrejected | ⟨_, _, hsent, -, -⟩⟩ := hsettled.timed hw
      · rw [hretry] at hrejected
        cases hrejected
      · rw [hretry] at hsent
        cases hsent
  obtain ⟨rfl, rfl, htransmitted, hlast⟩ : x.retxDelayMs = delayMs ∧ x.frame = frame ∧
      x.hasTransmitted = true ∧ (x.named.any (·.redirectOnLast) = true → x.numRetx ≠ 0) := by
    rcases hsettled.waits hwaits with ⟨hfirst, -⟩ | ⟨hsame, hrest⟩
    · rw [hretry] at hfirst
      cases hfirst
    · rw [hretry] at hsame
      cases hsame
      exact ⟨rfl, rfl, hrest⟩
  have hback : x.rejected x.key (clock T) =
      { x with numRetx := min (x.numRetx + 1) 255, awaitingTx := false, nextTxMs := clock T } := by
    simp [PendingReliable.rejected, hxa, htransmitted, hwaits]
  have hmem : x.rejected x.key (clock T) ∈
      (s.router.noteTxQueueRejected x.key.1 x.key.2 (clock T)).pendingReliable :=
    Slots.mem_map.mpr ⟨x, hx, rfl⟩
  have hdue : ∀ p ∈ ps, (x.rejected x.key (clock T)).isDue (clock p.time) = true := by
    intro p hp
    have hleft : min (x.numRetx + 1) 255 ≠ 0 := by omega
    rw [hback]
    simp [PendingReliable.isDue, hxa, notYet_past (htimes p hp).1 (htimes p hp).2, hleft]
  have hred : (x.rejected x.key (clock T)).redirects = false := by
    rw [hback]
    cases hnamed : x.named.any (·.redirectOnLast) with
    | false => simp [PendingReliable.redirects, hnamed]
    | true =>
      have := hlast hnamed
      have hleft : min (x.numRetx + 1) 255 - 1 ≠ 0 := by omega
      simp [PendingReliable.redirects, hleft]
  have hagain := handed_in_turn hmem hdue hred (Nat.le_of_eq hmany.symm)
  rw [hback] at hagain
  exact hagain

end RetryState.Inv

/-- The accounting of the retries, in every state that the calls lead to. -/
theorem reliable_accounting {s : RetryState} (hs : retryCalls.Reachable s) :
    Once PendingReliable.active PendingReliable.key s.router.pendingReliable ∧
    (∀ k, (s.accounts k).handedOut ≤ (s.accounts k).budget + (s.accounts k).rejections) ∧
    (∀ T, s.now ≤ T → ∀ retxDelayFor alternate k plan,
      s.router.handsOut (clock T) retxDelayFor alternate = some (k, plan) →
        (s.accounts k).attempt = .rejected ∨ ∃ atMs delayMs bumpsMs,
          (s.accounts k).attempt = .sent atMs delayMs bumpsMs ∧
            (delayMs.toNat + bumpsMs ≤ 2147483648 → atMs + delayMs.toNat + bumpsMs ≤ T)) ∧
    ∀ k delayMs frame, (s.accounts k).attempt = .retry delayMs frame →
      (∃ x ∈ s.router.pendingReliable, x.serves k.1 k.2 = true) →
        ∀ T, s.now ≤ T → ∀ ps : List Poll, ps.length = MAX_PENDING_RELIABLE →
          (∀ p ∈ ps, T ≤ p.time ∧ p.time < T + 2147483648) →
            ∃ before p after, ps = before ++ p :: after ∧
              ((s.router.noteTxQueueRejected k.1 k.2 (clock T)).polls before).handsOut
                (clock p.time) p.retxDelayFor p.alternate = some (k, ⟨frame, 0⟩) := by
  have h := retryCalls_settled.reachable hs
  refine ⟨h.once, h.bounded, fun T hT _ _ _ _ hout => h.handed_after hT hout, ?_⟩
  exact fun k _ _ hretry hslot T _ ps hmany htimes => h.handed_again hretry hslot hmany htimes

/-! ## Runs that lose a retry, or hurry one -/

def RetryState.start : RetryState :=
  ⟨.new 5 0 88397 1, fun _ => ⟨0, 0, 0, .none⟩, 0⟩

/-- A unicast of node 7 that we relay by way of node 0x22. -/
def relayedFrame : Frame := ⟨⟨3, 7, 9, 8, 2, 3, false, false, 0x22, 5⟩, [1, 2, 3]⟩

def stamped : DueRetransmit → Option UInt8 := fun _ => some 0x33

/-- Scheduled with one try, sent, and its retry taken out, all at time 100. -/
def tryOnce (retxDelayMs : UInt32) (named : Option NamedFollowup) : List (Nat × RetryCall) :=
  [(100, .schedule (7, 9) 3 true relayedFrame retxDelayMs 1 named), (100, .done (7, 9)),
    (100, .poll (fun _ => 0) stamped)]

theorem start_reachable (ls : List (Nat × RetryCall))
    (h : LTS.Along RetryState.next (fun s l => s.now ≤ l.1) .start ls) :
    retryCalls.Reachable (ls.foldl RetryState.next .start) := by
  have hstep : ∀ s l, s.now ≤ l.1 → retryCalls.step s l (s.next l) := fun s l hl => ⟨hl, rfl⟩
  exact ⟨.start, ls, ⟨rfl, rfl⟩, LTS.run_foldl hstep h⟩

def laterPolls : List Poll :=
  [100, 4000, 90000, 1000000000].map fun time => ⟨time, fun _ => 0, stamped⟩

/-- The only try is refused, and goes out again at one of four polls within twelve days. -/
theorem reliable_accounting_tryOnce :
    let s := (tryOnce 0 none).foldl RetryState.next .start
    (s.accounts (7, 9)).handedOut ≤ (s.accounts (7, 9)).budget + (s.accounts (7, 9)).rejections ∧
      ∃ before p after, laterPolls = before ++ p :: after ∧
        ((s.router.noteTxQueueRejected 7 9 (clock 100)).polls before).handsOut (clock p.time)
          p.retxDelayFor p.alternate = some ((7, 9), ⟨relayedFrame, 0⟩) := by
  have h := reliable_accounting (start_reachable (tryOnce 0 none) (by decide +kernel))
  refine ⟨h.2.1 (7, 9), h.2.2.2 (7, 9) 0 relayedFrame (by decide +kernel) (by decide +kernel) 100
    (by decide +kernel) laterPolls rfl ?_⟩
  decide +kernel

/-- A redirected last try and a stopped packet are refused for good, and a retry that is to
wait for 35 days is handed out at once. -/
theorem refused_for_good :
    (∀ ls, ls = tryOnce 0 (some ⟨0x22, 0x22, 7, 0, true⟩) ++ [(100, .rejected (7, 9))] ∨
        ls = tryOnce 0 none ++ [(100, .stop (7, 9)), (100, .rejected (7, 9))] →
      retryCalls.Reachable (ls.foldl RetryState.next .start) ∧
        ((ls.foldl RetryState.next .start).accounts (7, 9)).handedOut = 1 ∧
        ∀ nowMs retxDelayFor alternate,
          (ls.foldl RetryState.next .start).router.handsOut nowMs retxDelayFor alternate = none) ∧
    retryCalls.Reachable ((tryOnce 3000000000 none).foldl RetryState.next .start) ∧
      (((tryOnce 3000000000 none).foldl RetryState.next .start).accounts (7, 9)).handedOut = 1 := by
  have hidle : ∀ r : Router, (∀ x ∈ r.pendingReliable.cells, x.active = false) →
      ∀ nowMs retxDelayFor alternate, r.handsOut nowMs retxDelayFor alternate = none := by
    intro r hr nowMs retxDelayFor alternate
    cases hout : r.handsOut nowMs retxDelayFor alternate with
    | none => rfl
    | some handed =>
      obtain ⟨k, plan⟩ := handed
      obtain ⟨l, x, rest, hs, hdue, -⟩ := handsOut_some hout
      simp [PendingReliable.isDue, hr x (by rw [hs]; simp)] at hdue
  refine ⟨?_, start_reachable _ (by decide +kernel), by decide +kernel⟩
  rintro ls (rfl | rfl)
  · exact ⟨start_reachable _ (by decide +kernel), by decide +kernel, hidle _ (by decide +kernel)⟩
  · exact ⟨start_reachable _ (by decide +kernel), by decide +kernel, hidle _ (by decide +kernel)⟩

end Meshrustic.Routing
