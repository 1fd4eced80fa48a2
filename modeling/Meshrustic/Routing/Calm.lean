import Meshrustic.Routing.Forward

/-!
# What a step may change

Almost everything the router does to its tables only lets entries go: their
packets and frames stay, and what was inactive stays inactive. `Calms` says so
of a whole state, and `Quiet` adds that no call-back is lost and no
transmission recorded. `processInbound_quiet` is the first result: whatever a
received frame is taken for, processing it arms nothing. Frames are armed in
four places only, and each has its own lemma here.
-/
namespace Meshrustic.Routing

open Meshrustic.RateLimit (NODENUM_BROADCAST)

structure PendingKept (x y : PendingRelay) : Prop where
  key : y.key = x.key
  frame : y.frame = x.frame
  active : y.active = true → x.active = true

structure T1Kept (x y : PendingRetransmit) : Prop where
  key : y.key = x.key
  frame : y.frame = x.frame
  live : y.live = true → x.live = true

theorem PendingKept.refl (x : PendingRelay) : PendingKept x x := ⟨rfl, rfl, id⟩

theorem PendingKept.trans {x y z : PendingRelay} (h : PendingKept x y) (h' : PendingKept y z) :
    PendingKept x z := ⟨h'.key.trans h.key, h'.frame.trans h.frame, fun ha => h.active (h'.active ha)⟩

theorem PendingKept.off (x : PendingRelay) : PendingKept x { x with active := false } :=
  ⟨rfl, rfl, fun h => absurd h Bool.false_ne_true⟩

theorem T1Kept.refl (x : PendingRetransmit) : T1Kept x x := ⟨rfl, rfl, id⟩

theorem T1Kept.trans {x y z : PendingRetransmit} (h : T1Kept x y) (h' : T1Kept y z) :
    T1Kept x z := ⟨h'.key.trans h.key, h'.frame.trans h.frame, fun ha => h.live (h'.live ha)⟩

/-- Entries only go. -/
structure Calms (r r' : Router) : Prop where
  node : r'.nodeNum = r.nodeNum
  pending : InPlace PendingKept r.pending r'.pending
  commits : InPlace CommitCalm r.graph.relayStates r'.graph.relayStates
  t1 : InPlace T1Kept r.pendingRetransmits r'.pendingRetransmits
  retries : InPlace Kept r.pendingReliable r'.pendingReliable

/-- Besides, retries start no wait, call-backs are kept, and neither the role
nor the record of our transmissions changes. -/
structure Quiet (r r' : Router) : Prop extends Calms r r' where
  eased : InPlace Eased r.pendingReliable r'.pendingReliable
  cancels : ∀ k ∈ r.txCancels.rows, k ∈ r'.txCancels.rows
  role : r'.graph.deviceRole = r.graph.deviceRole
  sent : ∀ f i nowMs, r'.graph.hasOurTransmission f i nowMs = r.graph.hasOurTransmission f i nowMs

/-- The history is the same, and so are the T1 slots of packets other than `k`. -/
structure Spares (k : PacketKey) (r r' : Router) : Prop where
  history : r'.history = r.history
  t1 : ∀ x ∈ r.pendingRetransmits, x.key ≠ k → x ∈ r'.pendingRetransmits

/-- How processing a frame of packet `k` may touch T1 and the call-backs: it calls frames
back, and cancels the packet's T1. -/
inductive Recalls (k : PacketKey) : Router → Router → Prop where
  | aside {r r' : Router} (history : r'.history = r.history)
      (t1 : r'.pendingRetransmits = r.pendingRetransmits) (cancels : r'.txCancels = r.txCancels) :
      Recalls k r r'
  | note (r : Router) (k' : PacketKey) : Recalls k r (r.noteTxCancel k')
  | cancel (r : Router) : Recalls k r (r.cancelT1Retransmit k.1 k.2)
  | trans {r s t : Router} (h : Recalls k r s) (h' : Recalls k s t) : Recalls k r t

section Order

theorem Calms.refl (r : Router) : Calms r r :=
  ⟨rfl, .refl PendingKept.refl _, .refl Calmer.refl _, .refl T1Kept.refl _, .refl Kept.refl _⟩

theorem Kept.trans {x y z : PendingReliable} (h : Kept x y) (h' : Kept y z) : Kept x z :=
  ⟨h'.key.trans h.key, h'.frame.trans h.frame, fun ha => h.active (h'.active ha)⟩

theorem Calms.trans {r s t : Router} (h : Calms r s) (h' : Calms s t) : Calms r t :=
  ⟨h'.node.trans h.node, InPlace.trans (R := PendingKept) PendingKept.trans h.pending h'.pending,
    h.commits.trans Calmer.trans h'.commits, InPlace.trans (R := T1Kept) T1Kept.trans h.t1 h'.t1,
    InPlace.trans (R := Kept) Kept.trans h.retries h'.retries⟩

theorem Quiet.refl (r : Router) : Quiet r r :=
  ⟨.refl r, .refl Eased.refl _, fun _ => id, rfl, fun _ _ _ => rfl⟩

theorem Quiet.trans {r s t : Router} (h : Quiet r s) (h' : Quiet s t) : Quiet r t :=
  ⟨h.toCalms.trans h'.toCalms, InPlace.trans (R := Eased) Eased.trans h.eased h'.eased,
    fun k hk => h'.cancels k (h.cancels k hk), h'.role.trans h.role,
    fun f i n => (h'.sent f i n).trans (h.sent f i n)⟩

theorem Spares.of_eq {k : PacketKey} {r s : Router} (hh : s.history = r.history)
    (ht : s.pendingRetransmits = r.pendingRetransmits) : Spares k r s :=
  ⟨hh, fun _ hx _ => ht ▸ hx⟩

theorem Spares.trans {k : PacketKey} {r s t : Router} (h : Spares k r s) (h' : Spares k s t) :
    Spares k r t :=
  ⟨h'.history.trans h.history, fun x hx hk => h'.t1 x (h.t1 x hx hk) hk⟩

end Order

/-! ## The operations that let entries go -/

namespace Router

variable (r : Router)

theorem cancelPending_quiet (f i : UInt32) : Quiet r (r.cancelPending f i) where
  toCalms := { Calms.refl r with
    pending := by
      refine .map fun p _ => ?_
      split
      · exact .off p
      · exact .refl p }
  eased := .refl Eased.refl _
  cancels _ := id
  role := rfl
  sent _ _ _ := rfl

theorem cancelPendingLowerHop_quiet (f i : UInt32) (threshold : UInt8) :
    Quiet r (r.cancelPendingLowerHop f i threshold).1 where
  toCalms := { Calms.refl r with
    pending := by
      refine .map fun p _ => ?_
      split
      · exact .off p
      · exact .refl p }
  eased := .refl Eased.refl _
  cancels _ := id
  role := rfl
  sent _ _ _ := rfl

theorem cancelRelay_quiet (f i : UInt32) :
    Quiet r { r with graph := r.graph.cancelRelay f i } where
  toCalms := { Calms.refl r with commits := RelayLedger.cancelRelay_calm }
  eased := .refl Eased.refl _
  cancels _ := id
  role := rfl
  sent _ _ _ := rfl

theorem stopReliableFor_quiet (f i : UInt32) :
    Quiet r { r with pendingReliable := stopReliableFor r.pendingReliable f i } where
  toCalms := { Calms.refl r with retries := .map fun s _ => (stop_eased f i s).toKept }
  eased := stopReliableFor_eased _ f i
  cancels _ := id
  role := rfl
  sent _ _ _ := rfl

theorem noteTxCancel_mem {k k' : PacketKey} (h : k ∈ r.txCancels.rows) :
    k ∈ (r.noteTxCancel k').txCancels.rows := by
  unfold noteTxCancel
  split
  · exact h
  · split
    · rename_i t ht
      rw [Table.push_rows ht]
      exact List.mem_append_left _ h
    · exact h

/-- A list with room takes the call. -/
theorem noteTxCancel_takes {k : PacketKey}
    (h : k ∈ r.txCancels.rows ∨ r.txCancels.rows.length < MAX_TX_CANCELS) :
    k ∈ (r.noteTxCancel k).txCancels.rows := by
  unfold noteTxCancel
  split
  · assumption
  · rename_i hmem
    have hroom := h.resolve_left hmem
    split
    · rename_i t ht
      rw [Table.push_rows ht]
      simp
    · rename_i hnone
      simp [Table.push, hroom] at hnone

theorem noteTxCancel_fields (k : PacketKey) :
    (r.noteTxCancel k).graph = r.graph ∧ (r.noteTxCancel k).pending = r.pending ∧
      (r.noteTxCancel k).pendingRetransmits = r.pendingRetransmits ∧
      (r.noteTxCancel k).pendingReliable = r.pendingReliable ∧
      (r.noteTxCancel k).history = r.history := by
  unfold noteTxCancel
  split
  · exact ⟨rfl, rfl, rfl, rfl, rfl⟩
  · split <;> exact ⟨rfl, rfl, rfl, rfl, rfl⟩

theorem noteTxCancel_quiet (k : PacketKey) : Quiet r (r.noteTxCancel k) := by
  obtain ⟨hg, hp, ht, hr, _⟩ := r.noteTxCancel_fields k
  exact {
    node := by rw [nodeNum, hg]; rfl
    pending := by rw [hp]; exact .refl PendingKept.refl _
    commits := by rw [hg]; exact .refl Calmer.refl _
    t1 := by rw [ht]; exact .refl T1Kept.refl _
    retries := by rw [hr]; exact .refl Kept.refl _
    eased := by rw [hr]; exact .refl Eased.refl _
    cancels := fun _ h => r.noteTxCancel_mem h
    role := by rw [hg]
    sent := fun _ _ _ => by rw [hg] }

/-- Changing the first slot of a packet in place. -/
theorem t1_change_quiet (p : PendingRetransmit → Bool) (f : PendingRetransmit → PendingRetransmit)
    (hf : ∀ s, T1Kept s (f s)) :
    Quiet r { r with pendingRetransmits := r.pendingRetransmits.changeFirst p f } where
  toCalms := { Calms.refl r with t1 := .changeFirst T1Kept.refl fun s _ _ => hf s }
  eased := .refl Eased.refl _
  cancels _ := id
  role := rfl
  sent _ _ _ := rfl

theorem cancelT1Retransmit_quiet (f i : UInt32) : Quiet r (r.cancelT1Retransmit f i) := by
  unfold cancelT1Retransmit
  split
  · exact .refl r
  · split
    · exact r.t1_change_quiet _ _ fun s => ⟨rfl, rfl, fun h => by simp [PendingRetransmit.live] at h⟩
    · split
      · exact (r.t1_change_quiet _ (fun s => { s with fired := false }) fun s =>
          ⟨rfl, rfl, id⟩).trans (noteTxCancel_quiet _ _)
      · exact .refl r

theorem allocTxId_quiet : Quiet r r.allocTxId.2 :=
  { Quiet.refl r with }

theorem drawTxIds_quiet (n : Nat) : Quiet r (drawTxIds n r) := by
  induction n generalizing r with
  | zero => exact .refl r
  | succ n ih => exact r.allocTxId_quiet.trans (ih r.allocTxId.2)

theorem history_quiet (h : PacketHistory) : Quiet r { r with history := h } :=
  { Quiet.refl r with }

/-! ## A received frame -/

theorem tryHandleUpgradedPacket_quiet (parsed : ParsedPacket) :
    Quiet r (r.tryHandleUpgradedPacket parsed).1 := by
  unfold tryHandleUpgradedPacket
  split
  · exact .refl r
  · dsimp only
    split
    · exact ((r.cancelPendingLowerHop_quiet _ _ _).trans (cancelRelay_quiet _ _ _)).trans
        (noteTxCancel_quiet _ _)
    · exact r.cancelPendingLowerHop_quiet _ _ _

theorem maybeCancelRelayForForeignAck_quiet (parsed : ParsedPacket) (data : DecodedData)
    (nowMs : UInt32) : Quiet r (r.maybeCancelRelayForForeignAck parsed data nowMs) := by
  unfold maybeCancelRelayForForeignAck
  split
  · exact .refl r
  · simp only
    split
    · exact (((r.cancelPending_quiet _ _).trans (cancelRelay_quiet _ _ _)).trans
        (noteTxCancel_quiet _ _)).trans (stopReliableFor_quiet _ _ _)
    · exact (r.cancelPending_quiet _ _).trans (stopReliableFor_quiet _ _ _)

theorem withdraw_quiet (f i : UInt32) : Quiet r (r.withdraw f i) :=
  ((r.cancelRelay_quiet f i).trans (cancelPending_quiet _ f i)).trans (noteTxCancel_quiet _ _)

theorem cancelUnicastDupe_quiet (parsed : ParsedPacket) (a : Answers) :
    Quiet r (r.cancelUnicastDupe parsed a) := by
  unfold cancelUnicastDupe
  split
  · exact r.withdraw_quiet _ _
  · exact .refl r

theorem cancelReleasedDupe_quiet (parsed : ParsedPacket) (a : Answers) :
    Quiet r (r.cancelReleasedDupe parsed a) := by
  unfold cancelReleasedDupe
  simp only
  split
  · exact r.cancelT1Retransmit_quiet _ _
  · exact ((r.cancelT1Retransmit_quiet _ _).trans (cancelRelay_quiet _ _ _)).trans
      (noteTxCancel_quiet _ _)

theorem cancelPendingDupe_quiet (parsed : ParsedPacket) (radioId : UInt8) (covered : Bool) :
    Quiet r (r.cancelPendingDupe parsed radioId covered) := by
  have hstop : ∀ s : Router, Quiet s
      (if parsed.fromNode == s.nodeNum then
        { s with pendingReliable := stopReliableFor s.pendingReliable s.nodeNum parsed.id }
      else s) := by
    intro s
    split
    · exact s.stopReliableFor_quiet _ _
    · exact .refl s
  have hcut : Quiet r
      (if covered || r.graph.roleAllowsCancelingDupe then
        let r' := { r with graph := r.graph.cancelRelay parsed.fromNode parsed.id }
        if (r'.graph.relayTxAfter parsed.fromNode parsed.id radioId).isSome ||
            r'.hasPendingRelay parsed.fromNode parsed.id then
          noteTxCancel (r'.cancelPending parsed.fromNode parsed.id) (parsed.fromNode, parsed.id)
        else r'.cancelPending parsed.fromNode parsed.id
      else r) := by
    split
    · simp only
      split
      · exact ((r.cancelRelay_quiet _ _).trans (cancelPending_quiet _ _ _)).trans
          (noteTxCancel_quiet _ _)
      · exact (r.cancelRelay_quiet _ _).trans (cancelPending_quiet _ _ _)
    · exact .refl r
  exact (hcut.trans (cancelT1Retransmit_quiet _ _ _)).trans (hstop _)

theorem perhapsCancelDupe_quiet (parsed : ParsedPacket) (radioId : UInt8) (a : Answers)
    (nowMs : UInt32) : Quiet r (r.perhapsCancelDupe parsed radioId a nowMs) := by
  unfold perhapsCancelDupe
  simp only
  split
  · exact r.cancelUnicastDupe_quiet _ _
  split
  · exact r.cancelReleasedDupe_quiet _ _
  split
  · exact .refl r
  · exact r.cancelPendingDupe_quiet _ _ _

theorem stopRelayedRetries_quiet (parsed : ParsedPacket) (a : Answers) :
    Quiet r (r.stopRelayedRetries parsed a) := by
  unfold stopRelayedRetries
  split
  · exact r.stopReliableFor_quiet _ _
  · exact .refl r

theorem cancelAnswered_quiet (parsed : ParsedPacket) (data : Option DecodedData) (nowMs : UInt32) :
    Quiet r (r.cancelAnswered parsed data nowMs) := by
  unfold cancelAnswered
  split
  · exact r.maybeCancelRelayForForeignAck_quiet _ _ _
  · exact .refl r

theorem handleDuplicateRx_quiet (parsed : ParsedPacket) (radioId : UInt8) (a : Answers)
    (nowMs : UInt32) : Quiet r (r.handleDuplicateRx parsed radioId a nowMs) := by
  have h := (r.cancelAnswered_quiet parsed a.decoded nowMs).trans (stopRelayedRetries_quiet _ parsed a)
  unfold handleDuplicateRx
  simp only
  split
  · exact (h.trans (stopReliableFor_quiet _ _ _)).trans (perhapsCancelDupe_quiet _ _ _ _ _)
  split
  · exact h
  · exact h.trans (perhapsCancelDupe_quiet _ _ _ _ _)

theorem dropForReplan_quiet (parsed : ParsedPacket) : Quiet r (r.dropForReplan parsed) :=
  ((r.cancelPending_quiet _ _).trans (cancelRelay_quiet _ _ _)).trans (stopReliableFor_quiet _ _ _)

theorem processReliableRx_quiet (parsed : ParsedPacket) (data : Option DecodedData) :
    Quiet r (r.processReliableRx parsed data) := by
  unfold processReliableRx
  split
  · split
    · split
      · exact r.stopReliableFor_quiet _ _
      · exact .refl r
    · exact .refl r
  · exact .refl r

theorem acceptInbound_quiet (parsed : ParsedPacket) (a : Answers) (nowMs : UInt32) :
    Quiet r (r.acceptInbound parsed a nowMs).1 := by
  have h := ((r.cancelAnswered_quiet parsed a.decoded nowMs).trans
    (processReliableRx_quiet _ parsed a.decoded)).trans (drawTxIds_quiet _ a.replies)
  unfold acceptInbound
  split
  · exact .refl r
  · simp only
    split <;> exact h

theorem rejectDuplicate_quiet (parsed : ParsedPacket) (radioId : UInt8) (a : Answers)
    (nowMs : UInt32) : Quiet r (r.rejectDuplicate parsed radioId a nowMs).1 :=
  (r.handleDuplicateRx_quiet parsed radioId a nowMs).trans (drawTxIds_quiet _ _)

theorem afterObserve_quiet (seen : ObserveResult) (parsed : ParsedPacket) (radioId : UInt8)
    (a : Answers) (nowMs : UInt32) :
    Quiet r (r.afterObserve seen parsed radioId a nowMs).1 := by
  unfold afterObserve
  split
  · dsimp only
    split
    · exact (r.tryHandleUpgradedPacket_quiet _).trans (acceptInbound_quiet _ _ _ _)
    · exact (r.tryHandleUpgradedPacket_quiet _).trans (rejectDuplicate_quiet _ _ _ _ _)
  · split
    · exact (r.dropForReplan_quiet _).trans (acceptInbound_quiet _ _ _ _)
    · exact r.rejectDuplicate_quiet _ _ _ _
  · exact r.acceptInbound_quiet _ _ _

/-- A received frame arms nothing and records no transmission. -/
theorem processInbound_quiet (packet : InboundPacket) (a : Answers) (nowMs : UInt32) :
    Quiet r (r.processInbound packet a nowMs).1 := by
  unfold processInbound
  split
  · exact .refl r
  · exact (r.history_quiet _).trans (afterObserve_quiet _ _ _ _ _ _)

/-! ## A received frame and the T1 slots of other packets -/

section Spares

variable {r} {k : PacketKey}

theorem noteTxCancel_spares (k' : PacketKey) : Spares k r (r.noteTxCancel k') := by
  obtain ⟨_, _, ht, _, hh⟩ := r.noteTxCancel_fields k'
  exact .of_eq hh ht

theorem cancelT1Retransmit_spares (f i : UInt32) :
    Spares (f, i) r (r.cancelT1Retransmit f i) := by
  have hchange : ∀ g : PendingRetransmit → PendingRetransmit, Spares (f, i) r
      { r with pendingRetransmits :=
          r.pendingRetransmits.changeFirst (PendingRetransmit.named f i) g } := by
    refine fun g => ⟨rfl, fun x hx hk => Slots.mem_changeFirst hx ?_⟩
    rw [Bool.eq_false_iff, Ne, PendingRetransmit.named_iff]
    exact hk
  unfold cancelT1Retransmit
  split
  · exact .of_eq rfl rfl
  · split
    · exact hchange _
    · split
      · exact (hchange _).trans (noteTxCancel_spares _)
      · exact .of_eq rfl rfl

theorem spares_of_recalls {s : Router} (h : Recalls k r s) : Spares k r s := by
  induction h with
  | aside hh ht _ => exact .of_eq hh ht
  | note r k' => exact noteTxCancel_spares k'
  | cancel r => exact cancelT1Retransmit_spares k.1 k.2
  | trans _ _ ih ih' => exact ih.trans ih'

theorem tryHandleUpgradedPacket_recalls (parsed : ParsedPacket) :
    Recalls k r (r.tryHandleUpgradedPacket parsed).1 := by
  unfold tryHandleUpgradedPacket
  split
  · exact .aside rfl rfl rfl
  · dsimp only
    split
    · refine Recalls.trans ?_ (.note _ _)
      exact .aside rfl rfl rfl
    · exact .aside rfl rfl rfl

theorem cancelAnswered_recalls (parsed : ParsedPacket) (data : Option DecodedData) (nowMs : UInt32) :
    Recalls k r (r.cancelAnswered parsed data nowMs) := by
  unfold cancelAnswered maybeCancelRelayForForeignAck
  split
  · split
    · exact .aside rfl rfl rfl
    · dsimp only
      split
      · refine (Recalls.trans (.aside ?_ ?_ ?_) (.note _ _)).trans (.aside rfl rfl rfl) <;> rfl
      · exact .aside rfl rfl rfl
  · exact .aside rfl rfl rfl

theorem withdraw_recalls (f i : UInt32) : Recalls k r (r.withdraw f i) := by
  refine Recalls.trans ?_ (.note _ _)
  exact .aside rfl rfl rfl

theorem cancelReleasedDupe_recalls (parsed : ParsedPacket) (a : Answers) :
    Recalls parsed.key r (r.cancelReleasedDupe parsed a) := by
  have h : Recalls parsed.key r (r.cancelT1Retransmit parsed.fromNode parsed.id) :=
    .cancel _
  unfold cancelReleasedDupe
  dsimp only
  split
  · exact h
  · refine (h.trans ?_).trans (.note _ _)
    exact .aside rfl rfl rfl

theorem cancelPendingDupe_recalls (parsed : ParsedPacket) (radioId : UInt8) (covered : Bool) :
    Recalls parsed.key r (r.cancelPendingDupe parsed radioId covered) := by
  have hstop : ∀ s : Router, Recalls parsed.key s
      (if parsed.fromNode == s.nodeNum then
        { s with pendingReliable := stopReliableFor s.pendingReliable s.nodeNum parsed.id }
      else s) := by
    intro s
    split <;> exact .aside rfl rfl rfl
  unfold cancelPendingDupe
  dsimp only
  refine (Recalls.trans ?_ (.cancel _)).trans (hstop _)
  split
  · split
    · refine Recalls.trans ?_ (.note _ _)
      exact .aside rfl rfl rfl
    · exact .aside rfl rfl rfl
  · exact .aside rfl rfl rfl

theorem perhapsCancelDupe_recalls (parsed : ParsedPacket) (radioId : UInt8) (a : Answers)
    (nowMs : UInt32) : Recalls parsed.key r (r.perhapsCancelDupe parsed radioId a nowMs) := by
  unfold perhapsCancelDupe cancelUnicastDupe
  dsimp only
  split
  · split
    · exact withdraw_recalls _ _
    · exact .aside rfl rfl rfl
  split
  · exact cancelReleasedDupe_recalls _ _
  split
  · exact .aside rfl rfl rfl
  · exact cancelPendingDupe_recalls _ _ _

theorem handleDuplicateRx_recalls (parsed : ParsedPacket) (radioId : UInt8) (a : Answers)
    (nowMs : UInt32) : Recalls parsed.key r (r.handleDuplicateRx parsed radioId a nowMs) := by
  have hstop : ∀ s : Router, Recalls parsed.key s (s.stopRelayedRetries parsed a) := by
    intro s
    unfold stopRelayedRetries
    split <;> exact .aside rfl rfl rfl
  have h : Recalls parsed.key r ((r.cancelAnswered parsed a.decoded nowMs).stopRelayedRetries parsed a) :=
    (cancelAnswered_recalls _ _ _).trans (hstop _)
  unfold handleDuplicateRx
  dsimp only
  split
  · refine (h.trans ?_).trans (perhapsCancelDupe_recalls _ _ _ _)
    exact .aside rfl rfl rfl
  split
  · exact h
  · exact h.trans (perhapsCancelDupe_recalls _ _ _ _)

theorem drawTxIds_recalls (n : Nat) : Recalls k r (drawTxIds n r) := by
  induction n generalizing r with
  | zero => exact .aside rfl rfl rfl
  | succ n ih =>
    have halloc : Recalls k r r.allocTxId.2 := .aside rfl rfl rfl
    exact halloc.trans ih

theorem acceptInbound_recalls (parsed : ParsedPacket) (a : Answers) (nowMs : UInt32) :
    Recalls k r (r.acceptInbound parsed a nowMs).1 := by
  have hrx : ∀ s : Router, Recalls k s (s.processReliableRx parsed a.decoded) := by
    intro s
    unfold processReliableRx
    split
    · split
      · split <;> exact .aside rfl rfl rfl
      · exact .aside rfl rfl rfl
    · exact .aside rfl rfl rfl
  have h : Recalls k r (drawTxIds a.replies
      ((r.cancelAnswered parsed a.decoded nowMs).processReliableRx parsed a.decoded)) :=
    ((cancelAnswered_recalls _ _ _).trans (hrx _)).trans (drawTxIds_recalls _)
  unfold acceptInbound
  split
  · exact .aside rfl rfl rfl
  · dsimp only
    split <;> exact h

theorem afterObserve_recalls (seen : ObserveResult) (parsed : ParsedPacket) (radioId : UInt8)
    (a : Answers) (nowMs : UInt32) :
    Recalls parsed.key r (r.afterObserve seen parsed radioId a nowMs).1 := by
  have hreject : ∀ s : Router,
      Recalls parsed.key s (s.rejectDuplicate parsed radioId a nowMs).1 := by
    intro s
    exact (handleDuplicateRx_recalls _ _ _ _).trans (drawTxIds_recalls _)
  unfold afterObserve
  split
  · dsimp only
    split
    · exact (tryHandleUpgradedPacket_recalls _).trans (acceptInbound_recalls _ _ _)
    · exact (tryHandleUpgradedPacket_recalls _).trans (hreject _)
  · split
    · refine Recalls.trans ?_ (acceptInbound_recalls _ _ _)
      exact .aside rfl rfl rfl
    · exact hreject r
  · exact acceptInbound_recalls _ _ _

theorem processInbound_recalls (packet : InboundPacket) (a : Answers) (nowMs : UInt32) :
    ∃ history, Recalls packet.header.key { r with history } (r.processInbound packet a nowMs).1 := by
  unfold processInbound
  split
  · exact ⟨r.history, .aside rfl rfl rfl⟩
  · exact ⟨_, afterObserve_recalls _ packet.header.parse _ _ _⟩

/-- T1 slots of packets other than the received one stay. -/
theorem processInbound_t1 (packet : InboundPacket) (a : Answers) (nowMs : UInt32)
    {x : PendingRetransmit} (hx : x ∈ r.pendingRetransmits) (hk : x.key ≠ packet.header.key) :
    x ∈ (r.processInbound packet a nowMs).1.pendingRetransmits := by
  unfold processInbound
  split
  · exact hx
  · exact (spares_of_recalls (afterObserve_recalls _ packet.header.parse _ _ _)).t1 x hx hk

/-- The history after a received frame. -/
theorem processInbound_history (packet : InboundPacket) (a : Answers) (nowMs : UInt32) :
    (r.processInbound packet a nowMs).1.history =
      if MAX_PACKET_PAYLOAD < packet.payload.length then r.history
      else (r.history.observe packet.header.fromNode packet.header.id packet.header.hopLimit).2 := by
  unfold processInbound
  split
  · rfl
  · exact (spares_of_recalls (afterObserve_recalls _ packet.header.parse _ _ _)).history

end Spares

/-! ## Arming a T1 slot -/

/-- The slot of a packet that is armed. -/
def armedSlot (frame : Frame) (decodedPortnum resolvedRelay : Option UInt32)
    (nowMs fireDelayMs : UInt32) : PendingRetransmit :=
  ⟨true, false, false, frame.header.fromNode, resolvedRelay, frame.header.id, nowMs + fireDelayMs,
    decodedPortnum, frame⟩

/-- Scheduling changes nothing, or puts the packet in the first free cell; then no active
slot had it. -/
theorem scheduleT1Broadcast_cases (frame : Frame) (portnum relay : Option UInt32)
    (nowMs delay : UInt32) :
    r.scheduleT1Broadcast frame portnum relay nowMs delay = r ∨
      (∀ s ∈ r.pendingRetransmits, s.active = true → s.key ≠ frame.key) ∧
        ∃ t, r.pendingRetransmits.place (fun s => !s.active || s.canceled)
            (armedSlot frame portnum relay nowMs delay) = some t ∧
          r.scheduleT1Broadcast frame portnum relay nowMs delay =
            { r with pendingRetransmits := t } := by
  unfold scheduleT1Broadcast
  dsimp only
  split
  · exact .inl rfl
  · rename_i hany
    rw [Bool.not_eq_true, Slots.any_eq_false] at hany
    split
    · rename_i t ht
      refine .inr ⟨fun s hs ha hk => ?_, t, ht, rfl⟩
      have := hany s hs
      rw [ha, PendingRetransmit.named_iff.mpr hk] at this
      cases this
    · exact .inl rfl

/-! ## The radio's reports, and time -/

theorem sent_eased (k : PacketKey) (nowMs : UInt32) (s : PendingReliable) :
    Eased s (s.sent k nowMs) := by
  unfold PendingReliable.sent
  split
  · exact ⟨⟨rfl, rfl, id⟩, fun _ h => absurd h Bool.false_ne_true⟩
  · exact .refl s

theorem rejected_eased (k : PacketKey) (nowMs : UInt32) (s : PendingReliable) :
    Eased s (s.rejected k nowMs) := by
  unfold PendingReliable.rejected
  split
  · exact .refl s
  split
  · split
    · exact ⟨⟨rfl, rfl, id⟩, fun _ h => absurd h Bool.false_ne_true⟩
    · exact .refl s
  · exact ⟨⟨rfl, rfl, fun h => absurd h Bool.false_ne_true⟩,
      fun h => absurd h Bool.false_ne_true⟩

/-- Retries that only ease. -/
theorem retries_quiet {slots : ReliableSlots} (h : InPlace Eased r.pendingReliable slots) :
    Quiet r { r with pendingReliable := slots } where
  toCalms := { Calms.refl r with retries := h.imp fun _ _ he => he.toKept }
  eased := h
  cancels _ := id
  role := rfl
  sent _ _ _ := rfl

theorem noteTxFailure_quiet (f i nowMs : UInt32) : Quiet r (r.noteTxFailure f i nowMs) :=
  r.retries_quiet (.map fun s _ => sent_eased (f, i) nowMs s)

theorem noteTxQueueRejected_quiet (f i nowMs : UInt32) :
    Quiet r (r.noteTxQueueRejected f i nowMs) :=
  r.retries_quiet (.map fun s _ => rejected_eased (f, i) nowMs s)

theorem discardQueuedForward_quiet (f i : UInt32) : Quiet r (r.discardQueuedForward f i) :=
  (((r.cancelPending_quiet f i).trans (cancelRelay_quiet _ f i)).trans
    (cancelT1Retransmit_quiet _ f i)).trans (stopReliableFor_quiet _ f i)

theorem recordOurTransmission_fields (g : RelayLedger) (f i nowMs : UInt32) :
    (g.recordOurTransmission f i nowMs).myNode = g.myNode ∧
      (g.recordOurTransmission f i nowMs).relayStates = g.relayStates := by
  unfold RelayLedger.recordOurTransmission
  split
  · exact ⟨rfl, rfl⟩
  split
  · exact ⟨rfl, rfl⟩
  · dsimp only
    split <;> exact ⟨rfl, rfl⟩

theorem noteTxDone_calms (f i nowMs : UInt32) : Calms r (r.noteTxDone f i nowMs) := by
  unfold noteTxDone
  split
  · exact .refl r
  · obtain ⟨hnode, hstates⟩ := recordOurTransmission_fields r.graph f i nowMs
    refine ⟨hnode, .refl PendingKept.refl _, ?_, .map fun s _ => ?_,
      .map fun s _ => (sent_eased (f, i) nowMs s).toKept⟩
    · rw [← hstates]
      exact RelayLedger.cancelRelay_calm
    · split
      · exact ⟨rfl, rfl, id⟩
      · exact .refl s

theorem t1Visit_kept (nowMs : UInt32) (drops : PendingRetransmit → Bool) (s : PendingRetransmit) :
    T1Kept s (r.t1Visit nowMs drops s).cell := by
  unfold t1Visit
  split
  · exact .refl s
  split
  · exact .refl s
  split
  · exact ⟨rfl, rfl, fun h => absurd h Bool.false_ne_true⟩
  split
  · exact ⟨rfl, rfl, fun h => absurd h Bool.false_ne_true⟩
  · exact ⟨rfl, rfl, fun h => absurd h Bool.false_ne_true⟩

theorem pollT1Retransmit_quiet (nowMs : UInt32) (drops : PendingRetransmit → Bool) :
    Quiet r (r.pollT1Retransmit nowMs drops).1 where
  toCalms := { Calms.refl r with
    t1 := .sweep T1Kept.refl fun s _ => r.t1Visit_kept nowMs drops s }
  eased := .refl Eased.refl _
  cancels _ := id
  role := rfl
  sent _ _ _ := rfl

/-- T1 fires for a live slot. -/
theorem pollT1Retransmit_some {nowMs : UInt32} {drops : PendingRetransmit → Bool} {plan : RelayPlan}
    (h : (r.pollT1Retransmit nowMs drops).2 = some plan) :
    ∃ s ∈ r.pendingRetransmits, s.live = true ∧ s.frame = plan.frame := by
  obtain ⟨s, hs, y, hv⟩ := sweep_some h
  refine ⟨s, hs, ?_⟩
  unfold t1Visit at hv
  split at hv
  · cases hv
  rename_i hlive
  split at hv
  · cases hv
  split at hv
  · cases hv
  split at hv
  · cases hv
  · cases hv
    refine ⟨?_, rfl⟩
    simpa [PendingRetransmit.live] using hlive

theorem pollReliableRetransmit_fields (nowMs : UInt32) (delay : PendingReliable → UInt32)
    (alternate : DueRetransmit → Option UInt8) :
    (r.pollReliableRetransmit nowMs delay alternate).1 =
      { r with pendingReliable := (dueRetransmit r.pendingReliable nowMs delay).1 } := by
  unfold pollReliableRetransmit
  dsimp only
  split
  · rfl
  split
  · rfl
  · split <;> rfl

theorem pollReliableRetransmit_calms (nowMs : UInt32) (delay : PendingReliable → UInt32)
    (alternate : DueRetransmit → Option UInt8) :
    Calms r (r.pollReliableRetransmit nowMs delay alternate).1 := by
  rw [pollReliableRetransmit_fields]
  exact { Calms.refl r with retries := dueRetransmit_kept _ _ _ }

/-- A retry is the frame of the slot that came due, up to the next-hop byte. -/
theorem pollReliableRetransmit_due {nowMs : UInt32} {delay : PendingReliable → UInt32}
    {alternate : DueRetransmit → Option UInt8} {plan : RelayPlan}
    (h : (r.pollReliableRetransmit nowMs delay alternate).2 = some plan) :
    ∃ d, (dueRetransmit r.pendingReliable nowMs delay).2 = some d ∧
      plan.frame.key = d.frame.key ∧ plan.frame.header.toNode = d.frame.header.toNode := by
  unfold pollReliableRetransmit at h
  dsimp only at h
  split at h
  · cases h
  · rename_i d hd
    refine ⟨d, hd, ?_⟩
    split at h
    · cases h
      exact ⟨rfl, rfl⟩
    · split at h
      · cases h
      · cases h
        exact ⟨rfl, rfl⟩

theorem clearExpiredCommits_quiet (nowMs : UInt32) :
    Quiet r { r with graph := r.graph.clearExpiredCommits nowMs } where
  toCalms := { Calms.refl r with commits := RelayLedger.clearExpiredCommits_calm }
  eased := .refl Eased.refl _
  cancels _ := id
  role := rfl
  sent _ _ _ := rfl

theorem radioReconfigured_calms (presetChanged : Bool) (window : UInt32) :
    Calms r (r.radioReconfigured presetChanged window) where
  node := rfl
  pending := .map fun p _ => .off p
  commits := RelayLedger.clearRelays_calm
  t1 := .map fun _ _ => ⟨rfl, rfl, fun h => absurd h Bool.false_ne_true⟩
  retries := .map fun _ _ => ⟨rfl, rfl, fun h => absurd h Bool.false_ne_true⟩

theorem foldl_cancelRelay_quiet (drop : PendingRelay → Bool) (ps : List PendingRelay) :
    Quiet r { r with
      graph := ps.foldl (fun g p => if drop p then g.cancelRelay p.fromNode p.id else g) r.graph } := by
  induction ps generalizing r with
  | nil => exact .refl r
  | cons p ps ih =>
    rw [List.foldl_cons]
    split
    · exact (r.cancelRelay_quiet _ _).trans (ih { r with graph := r.graph.cancelRelay _ _ })
    · exact ih r

theorem dropStale_quiet (nowMs : UInt32) (admits : Frame → Bool) :
    Quiet r (r.dropStale nowMs admits) := by
  have h := r.foldl_cancelRelay_quiet (r.disallowed nowMs admits) r.pending.cells
  refine { h with pending := .map fun p _ => ?_ }
  split
  · exact .off p
  · exact .refl p

end Router

end Meshrustic.Routing
