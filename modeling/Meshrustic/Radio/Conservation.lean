import Meshrustic.Radio.Listening

/-!
# No frame is lost in a radio slot

Every frame that `enqueue_tx` accepts gets a ticket, its number in the order of
acceptance, and a `Ledger` says where each ticket is: queued, in flight, or
gone in one of four ways. Beyond the queue and the frame in flight it is kept
from what the calls return and from what the driver was handed, so it can only
balance if a slot accounts for its frames.

Two ways out of `service` do not. A frame is complete, the receive loop fails
after it, and the report is dropped with the error (`losesReport`). Or
`start_send` does not know whether it started the frame: the frame is in flight
and the call returns `TxOutcomeUnknown`, the answer for a frame that failed
(`doubtsStart`).

Results:
* `radio_conserved`: over all runs without these, the ledger balances, frames
  start in their order, and each is charged once if it was started.
* `completion_unreported`, `started_in_doubt`: a run with each.
-/
namespace Meshrustic.Radio

/-- Where the accepted frames are, by ticket. -/
structure Ledger where
  /-- all that were accepted; the ticket is the index -/
  frames : List TxFrame
  queued : List Nat
  inFlight : Option Nat
  /-- reported by `tx_len` -/
  completed : List Nat
  /-- `TxOutcomeUnknown` was returned while in flight, or by the call that
  started it -/
  failed : List Nat
  /-- `InvalidLength` was returned by `start_send` and by `service` -/
  refused : List Nat
  removed : List Nat
  /-- `start_send` returned anything but `TxNotStarted` or `InvalidLength` -/
  started : List Nat
  charged : List Nat

/-- A call returned `TxOutcomeUnknown`. -/
def outcomeUnknown : Except RadioError ServiceReport → Bool
  | .error .txOutcomeUnknown => true
  | _ => false

namespace Ledger

variable (l : Ledger)

def empty : Ledger := ⟨[], [], none, [], [], [], [], [], []⟩

/-- All tickets, each as often as it is somewhere. -/
def places : List Nat :=
  l.queued ++ (l.inFlight.toList ++ (l.completed ++ (l.failed ++ (l.refused ++ l.removed))))

def accept (frame : TxFrame) : Ledger :=
  { l with frames := l.frames ++ [frame], queued := l.queued ++ [l.frames.length] }

def remove (drop : TxFrame → Bool) (queue : List TxFrame) : Ledger :=
  let pairs := l.queued.zip queue
  { l with
    queued := (pairs.filter fun p => !drop p.2).map (·.1)
    removed := l.removed ++ (pairs.filter fun p => drop p.2).map (·.1) }

/-- What a call says of the frame in flight. -/
def noteResult (result : Except RadioError ServiceReport) : Ledger :=
  match l.inFlight, result with
  | some k, .ok report =>
    if report.txLen.isSome then { l with inFlight := none, completed := l.completed ++ [k] } else l
  | some k, .error .txOutcomeUnknown => { l with inFlight := none, failed := l.failed ++ [k] }
  | _, _ => l

/-- What becomes of a frame that was handed to the driver. -/
def noteSent (sent : Option (TxFrame × Except RadioError Unit))
    (result : Except RadioError ServiceReport) : Ledger :=
  match sent, l.queued with
  | some (_, .error .txNotStarted), _ => l
  | some (_, .error .invalidLength), k :: rest =>
    match result with
    | .error .invalidLength => { l with queued := rest, refused := l.refused ++ [k] }
    | _ => l
  | some _, k :: rest =>
    { l with
      queued := rest
      inFlight := some k
      started := l.started ++ [k]
      failed := if outcomeUnknown result then l.failed ++ [k] else l.failed }
  | _, _ => l

/-- Airtime is charged for the frame at the front. -/
def noteCharge (queued : List Nat) (charge : Option UInt8) : Ledger :=
  match charge, queued with
  | some _, k :: _ => { l with charged := l.charged ++ [k] }
  | _, _ => l

def serviced {RX TX : Nat} (out : Serviced RX TX) : Ledger :=
  ((l.noteResult out.result).noteSent out.sent out.result).noteCharge l.queued out.txCharge

end Ledger

inductive SlotCall where
  | enqueueTx (frame : TxFrame)
  | removeTx (fromNode id : UInt32)
  | service (a : DriverAnswers)

/-- A slot and its ledger. -/
structure Account (RX TX : Nat) where
  slot : RadioSlot RX TX
  ledger : Ledger

namespace Account

variable {RX TX : Nat} (acc : Account RX TX)

def new : Account RX TX := ⟨.new, .empty⟩

def step : SlotCall → Account RX TX
  | .enqueueTx frame =>
    match acc.slot.enqueueTx frame with
    | some slot => ⟨slot, acc.ledger.accept frame⟩
    | none => acc
  | .removeTx fromNode id =>
    ⟨(acc.slot.removeTx fromNode id).1,
      acc.ledger.remove (RadioSlot.isFrameOf fromNode id) acc.slot.txQueue.toList⟩
  | .service a => ⟨(acc.slot.service a).slot, acc.ledger.serviced (acc.slot.service a)⟩

def losesReport : SlotCall → Bool
  | .service a => acc.slot.losesReport a
  | _ => false

/-- The driver is asked to start the next frame, and cannot say whether it did. -/
def doubtsStart : SlotCall → Prop
  | .service a =>
    acc.slot.txQueue.toList ≠ [] ∧ Gates acc.slot a ∧ a.startSend = .error .txOutcomeUnknown
  | _ => False

/-- Every accepted frame is in exactly one place; frames start in the order
they were accepted, before all that wait; each that started is charged once,
and no other. -/
structure Balanced : Prop where
  queue : acc.slot.txQueue.toList.map some = acc.ledger.queued.map (acc.ledger.frames[·]?)
  flight : acc.slot.txInFlight.map some = acc.ledger.inFlight.map (acc.ledger.frames[·]?)
  once : acc.ledger.places.Perm (List.range acc.ledger.frames.length)
  order : (acc.ledger.started ++ acc.ledger.queued).Pairwise (· < ·)
  charged : acc.ledger.charged = acc.ledger.started

/-- With what the induction needs besides. -/
structure Inv : Prop extends acc.Balanced where
  startedLt : ∀ k ∈ acc.ledger.started, k < acc.ledger.frames.length

end Account

/-- A slot from its start, under any calls that lose no report and leave no start
in doubt. -/
def slotLTS (RX TX : Nat) : LTS (Account RX TX) SlotCall where
  init acc := acc = .new
  step acc c acc' := acc.losesReport c = false ∧ ¬ acc.doubtsStart c ∧ acc' = acc.step c

section Steps

variable {RX TX : Nat} {acc : Account RX TX}

theorem queued_lt (h : acc.Balanced) {k : Nat} (hk : k ∈ acc.ledger.queued) :
    k < acc.ledger.frames.length :=
  List.mem_range.mp (h.once.mem_iff.mp (List.mem_append_left _ hk))

theorem Account.Inv.new : (Account.new : Account RX TX).Inv where
  queue := rfl
  flight := rfl
  once := .refl _
  order := .nil
  charged := rfl
  startedLt _ hk := absurd hk List.not_mem_nil

theorem getElem?_append_left' {frames : List TxFrame} {ks : List Nat} (frame : TxFrame)
    (h : ∀ k ∈ ks, k < frames.length) :
    ks.map ((frames ++ [frame])[·]?) = ks.map (frames[·]?) :=
  List.map_congr_left fun k hk => List.getElem?_append_left (h k hk)

theorem Account.Inv.enqueueTx (h : acc.Inv) (frame : TxFrame) : (acc.step (.enqueueTx frame)).Inv := by
  unfold Account.step
  dsimp only
  split
  · rename_i slot henq
    obtain ⟨queue, hpush, rfl⟩ := Option.map_eq_some_iff.mp henq
    have hlist := Ring.toList_push hpush
    have hlt := fun k hk => queued_lt h.toBalanced (k := k) hk
    refine ⟨⟨?_, ?_, ?_, ?_, h.charged⟩, ?_⟩
    · change queue.toList.map some = _
      rw [hlist]
      simp only [Ledger.accept, List.map_append, getElem?_append_left' frame hlt, h.queue]
      simp
    · change acc.slot.txInFlight.map some = _
      rw [h.flight]
      cases hf : acc.ledger.inFlight with
      | none => simp [Ledger.accept, hf]
      | some k =>
        have hk : k < acc.ledger.frames.length := by
          refine List.mem_range.mp (h.once.mem_iff.mp ?_)
          simp [Ledger.places, hf]
        simp [Ledger.accept, hf, List.getElem?_append_left hk]
    · rw [List.perm_iff_count]
      intro k
      have hcount := h.once.count_eq k
      simp only [Ledger.places, Ledger.accept, List.count_append, List.length_append,
        List.length_singleton, List.range_succ] at hcount ⊢
      omega
    · simp only [Ledger.accept]
      rw [← List.append_assoc, List.pairwise_append]
      refine ⟨h.order, List.pairwise_singleton _ _, fun k hk j hj => ?_⟩
      rw [List.mem_singleton.mp hj]
      rcases List.mem_append.mp hk with hk | hk
      · exact h.startedLt k hk
      · exact hlt k hk
    · intro k hk
      have := h.startedLt k hk
      simp only [Ledger.accept, List.length_append, List.length_singleton]
      omega
  · exact h

/-- The queued tickets, beside the frames they stand for. -/
theorem queue_zip (h : acc.Balanced) :
    (acc.ledger.queued.zip acc.slot.txQueue.toList).map (·.1) = acc.ledger.queued ∧
      (acc.ledger.queued.zip acc.slot.txQueue.toList).map (·.2) = acc.slot.txQueue.toList ∧
      ∀ p ∈ acc.ledger.queued.zip acc.slot.txQueue.toList, acc.ledger.frames[p.1]? = some p.2 := by
  have hlen : acc.slot.txQueue.toList.length = acc.ledger.queued.length := by
    simpa using congrArg List.length h.queue
  refine ⟨List.map_fst_zip (by omega), List.map_snd_zip (by omega), fun p hp => ?_⟩
  obtain ⟨i, hi, rfl⟩ := List.getElem_of_mem hp
  have hq : i < acc.ledger.queued.length := by
    simp only [List.length_zip] at hi
    omega
  have hi' : i < acc.slot.txQueue.toList.length := by omega
  have hcell := congrArg (·[i]?) h.queue
  simp only [List.getElem?_map, List.getElem?_eq_getElem hi', List.getElem?_eq_getElem hq,
    Option.map_some, Option.some.injEq] at hcell
  rw [List.getElem_zip]
  exact hcell.symm

theorem Account.Inv.removeTx (h : acc.Inv) (fromNode id : UInt32) :
    (acc.step (.removeTx fromNode id)).Inv := by
  obtain ⟨hfst, hsnd, hpairs⟩ := queue_zip h.toBalanced
  generalize hz : acc.ledger.queued.zip acc.slot.txQueue.toList = pairs at hfst hsnd hpairs
  generalize hdrop : RadioSlot.isFrameOf fromNode id = drop
  have hledger : (acc.step (.removeTx fromNode id)).ledger =
      { acc.ledger with
        queued := (pairs.filter fun p => !drop p.2).map (·.1)
        removed := acc.ledger.removed ++ (pairs.filter fun p => drop p.2).map (·.1) } := by
    simp only [Account.step, Ledger.remove, hz, hdrop]
  have hsub : ((pairs.filter fun p => !drop p.2).map (·.1)).Sublist acc.ledger.queued := by
    rw [← hfst]
    exact (List.filter_sublist).map _
  refine ⟨⟨?_, ?_, ?_, ?_, ?_⟩, ?_⟩
  · change ((acc.slot.txQueue.removeWhere (RadioSlot.isFrameOf fromNode id)).1).toList.map some = _
    rw [Ring.toList_removeWhere, hledger, hdrop, ← hsnd, List.filter_map, List.map_map, List.map_map]
    refine List.map_congr_left fun p hp => ?_
    exact (hpairs p (List.mem_filter.mp hp).1).symm
  · rw [hledger]
    exact h.flight
  · rw [hledger, List.perm_iff_count]
    intro k
    have hcount := h.once.count_eq k
    have hparts : acc.ledger.queued.count k =
        ((pairs.filter fun p => drop p.2).map (·.1)).count k +
          ((pairs.filter fun p => !drop p.2).map (·.1)).count k := by
      rw [← hfst, ← List.count_append, ← List.map_append]
      exact ((List.filter_append_perm (fun p : Nat × TxFrame => drop p.2) pairs).map _).symm.count_eq k
    simp only [Ledger.places, List.count_append] at hcount ⊢
    omega
  · rw [hledger]
    exact h.order.sublist ((List.Sublist.refl _).append hsub)
  · rw [hledger]
    exact h.charged
  · rw [hledger]
    exact h.startedLt

/-- A ticket is in flight if and only if a frame is. -/
theorem inFlight_some (h : acc.Balanced) {tx : TxFrame} (htx : acc.slot.txInFlight = some tx) :
    ∃ k, acc.ledger.inFlight = some k := by
  have hf := h.flight
  rw [htx] at hf
  cases hk : acc.ledger.inFlight with
  | none => simp [hk] at hf
  | some k => exact ⟨k, rfl⟩

theorem inFlight_none (h : acc.Balanced) (htx : acc.slot.txInFlight = none) :
    acc.ledger.inFlight = none := by
  have hf := h.flight
  rw [htx] at hf
  cases hk : acc.ledger.inFlight with
  | none => rfl
  | some k => simp [hk] at hf

/-- The front of the queue has the first of the queued tickets. -/
theorem queued_cons (h : acc.Balanced) {tx : TxFrame} {rest : List TxFrame}
    (hq : acc.slot.txQueue.toList = tx :: rest) :
    ∃ k ks, acc.ledger.queued = k :: ks ∧ acc.ledger.frames[k]? = some tx ∧
      rest.map some = ks.map (acc.ledger.frames[·]?) := by
  have hqueue := h.queue
  rw [hq] at hqueue
  cases hk : acc.ledger.queued with
  | nil => simp [hk] at hqueue
  | cons k ks =>
    rw [hk, List.map_cons, List.map_cons] at hqueue
    obtain ⟨hfirst, hrest⟩ := List.cons.inj hqueue
    exact ⟨k, ks, rfl, hfirst.symm, hrest⟩

theorem noteSent_taken {l : Ledger} {k : Nat} {ks : List Nat} (hq : l.queued = k :: ks)
    {tx : TxFrame} {answer : Except RadioError Unit} {result : Except RadioError ServiceReport}
    (h : answer ≠ .error .txNotStarted ∧ answer ≠ .error .invalidLength)
    (hresult : result ≠ .error .txOutcomeUnknown) :
    l.noteSent (some (tx, answer)) result =
      { l with queued := ks, inFlight := some k, started := l.started ++ [k] } := by
  have hquiet : outcomeUnknown result = false := by
    unfold outcomeUnknown
    split
    · exact absurd rfl hresult
    · rfl
  unfold Ledger.noteSent
  rw [hq]
  cases answer with
  | ok _ => simp only [hquiet, Bool.false_eq_true, if_false]
  | error e =>
    cases e with
    | txNotStarted => exact absurd rfl h.1
    | invalidLength => exact absurd rfl h.2
    | _ => simp only [hquiet, Bool.false_eq_true, if_false]

/-- A call that starts a frame returns `TxOutcomeUnknown` only from
`start_send`. -/
theorem startTx_unknown {s : RadioSlot RX TX} {tx : TxFrame} {a : DriverAnswers}
    {report : ServiceReport} (h : (s.startTx tx a report).result = .error .txOutcomeUnknown) :
    a.startSend = .error .txOutcomeUnknown := by
  unfold RadioSlot.startTx at h
  split at h
  · cases h
  · split at h <;> cases h
  · cases h
  · rename_i heq
    cases h
    exact heq

theorem sendNext_unknown {s : RadioSlot RX TX} {a : DriverAnswers} {report : ServiceReport}
    {sent : TxFrame × Except RadioError Unit} (hsent : (s.sendNext a report).sent = some sent)
    (h : (s.sendNext a report).result = .error .txOutcomeUnknown) :
    a.startSend = .error .txOutcomeUnknown := by
  unfold RadioSlot.sendNext at hsent h
  split at h
  · dsimp only at hsent h
    split at h
    · simp_all
    · cases h
    · split at h
      · cases h
      split at h
      · cases h
      split at h
      · cases h
      split at h
      · exact startTx_unknown h
      · cases h
  · cases h

theorem listen_unknown {s : RadioSlot RX TX} {a : DriverAnswers} {report : ServiceReport}
    {sent : TxFrame × Except RadioError Unit} (hsent : (s.listen a report).sent = some sent)
    (h : (s.listen a report).result = .error .txOutcomeUnknown) :
    a.startSend = .error .txOutcomeUnknown := by
  unfold RadioSlot.listen at hsent h
  dsimp only at hsent h
  split at h
  · rename_i herror
    rw [herror] at hsent
    cases hsent
  · rename_i hok
    rw [hok] at hsent
    exact sendNext_unknown hsent h

/-- A call that sends and returns `TxOutcomeUnknown` has it from `start_send`. -/
theorem service_unknown {s : RadioSlot RX TX} {a : DriverAnswers}
    {sent : TxFrame × Except RadioError Unit} (hsent : (s.service a).sent = some sent)
    (h : (s.service a).result = .error .txOutcomeUnknown) :
    a.startSend = .error .txOutcomeUnknown := by
  have hidle := (service_gates hsent).idle
  rw [service_idle hidle] at hsent h
  unfold RadioSlot.serviceIdle at hsent h
  split at h
  · rename_i hpend
    rw [if_pos hpend] at hsent
    split at h
    · rename_i herror
      rw [herror] at hsent
      cases hsent
    · rename_i hok
      rw [hok] at hsent
      exact listen_unknown hsent h
  · rename_i hpend
    rw [if_neg hpend] at hsent
    exact listen_unknown hsent h

/-- The frame in flight is done with, one way or another. -/
theorem Account.Inv.landed (h : acc.Inv) {slot : RadioSlot RX TX} {k : Nat} {l : Ledger}
    (hqueue : slot.txQueue = acc.slot.txQueue) (hflight : slot.txInFlight = none)
    (hk : acc.ledger.inFlight = some k)
    (hl : l = { acc.ledger with inFlight := none, completed := acc.ledger.completed ++ [k] } ∨
      l = { acc.ledger with inFlight := none, failed := acc.ledger.failed ++ [k] }) :
    Account.Inv ⟨slot, l⟩ := by
  rcases hl with rfl | rfl
  · refine ⟨⟨by rw [hqueue]; exact h.queue, by rw [hflight]; rfl, ?_, h.order, h.charged⟩, h.startedLt⟩
    rw [List.perm_iff_count]
    intro j
    have hcount := h.once.count_eq j
    simp only [Ledger.places, hk, Option.toList_some, Option.toList_none, List.count_append,
      List.count_nil] at hcount ⊢
    omega
  · refine ⟨⟨by rw [hqueue]; exact h.queue, by rw [hflight]; rfl, ?_, h.order, h.charged⟩, h.startedLt⟩
    rw [List.perm_iff_count]
    intro j
    have hcount := h.once.count_eq j
    simp only [Ledger.places, hk, Option.toList_some, Option.toList_none, List.count_append,
      List.count_nil] at hcount ⊢
    omega

theorem Account.Inv.service (h : acc.Inv) {a : DriverAnswers}
    (hl : acc.slot.losesReport a = false) (hd : ¬ acc.doubtsStart (.service a)) :
    (acc.step (.service a)).Inv := by
  unfold Account.step
  dsimp only
  have hsends := fun sent => @service_gates RX TX acc.slot a sent
  have hunknown := fun sent => @service_unknown RX TX acc.slot a sent
  generalize hout : acc.slot.service a = out at hsends hunknown
  have heffect := service_effect acc.slot a
  rw [hout] at heffect
  cases heffect with
  | kept queue flight sent charge quiet pending =>
    have hledger : acc.ledger.serviced out = acc.ledger := by
      have hresult : acc.ledger.noteResult out.result = acc.ledger := by
        cases hk : acc.ledger.inFlight with
        | none => simp [Ledger.noteResult, hk]
        | some k =>
          have hsome : acc.slot.txInFlight ≠ none := by
            intro hnone
            rw [inFlight_none h.toBalanced hnone] at hk
            cases hk
          obtain ⟨report, hok⟩ := pending hsome
          simp [Ledger.noteResult, hk, hok, quiet report hok]
      simp [Ledger.serviced, hresult, sent, charge, Ledger.noteSent, Ledger.noteCharge]
    rw [hledger]
    exact ⟨⟨by rw [queue]; exact h.queue, by rw [flight]; exact h.flight, h.once, h.order,
      h.charged⟩, h.startedLt⟩
  | failed tx queue was flight sent charge result =>
    obtain ⟨k, hk⟩ := inFlight_some h.toBalanced was
    refine h.landed queue flight hk (.inr ?_)
    simp [Ledger.serviced, Ledger.noteResult, hk, result, sent, charge, Ledger.noteSent,
      Ledger.noteCharge]
  | completed tx report queue was flight sent charge result names =>
    obtain ⟨k, hk⟩ := inFlight_some h.toBalanced was
    refine h.landed queue flight hk (.inl ?_)
    simp [Ledger.serviced, Ledger.noteResult, hk, result, sent, charge, Ledger.noteSent,
      Ledger.noteCharge, names.1]
  | lost tx queue was flight sent charge loses =>
    rw [hl] at loses
    exact absurd loses Bool.false_ne_true
  | started tx answer queue was flight sent charge taken =>
    obtain ⟨k, ks, hks, hframe, hrest⟩ := queued_cons h.toBalanced queue
    have hnone := inFlight_none h.toBalanced was
    have hsure : out.result ≠ .error .txOutcomeUnknown := by
      intro hresult
      exact hd ⟨by rw [queue]; exact List.cons_ne_nil _ _, hsends _ sent, hunknown _ sent hresult⟩
    have hledger : acc.ledger.serviced out =
        { acc.ledger with
          queued := ks
          inFlight := some k
          started := acc.ledger.started ++ [k]
          charged := acc.ledger.charged ++ [k] } := by
      have hresult : acc.ledger.noteResult out.result = acc.ledger := by
        simp [Ledger.noteResult, hnone]
      rw [Ledger.serviced, hresult, sent, noteSent_taken hks taken hsure, charge, hks]
      rfl
    rw [hledger]
    refine ⟨⟨hrest, ?_, ?_, ?_, ?_⟩, ?_⟩
    · rw [flight]
      simp [hframe]
    · rw [List.perm_iff_count]
      intro j
      have hcount := h.once.count_eq j
      simp only [Ledger.places, hks, hnone, Option.toList_some, Option.toList_none,
        List.count_append, List.count_nil, List.count_cons] at hcount ⊢
      omega
    · have horder := h.order
      rw [hks] at horder
      simpa [List.append_assoc] using horder
    · rw [h.charged]
    · intro j hj
      rcases List.mem_append.mp hj with hj | hj
      · exact h.startedLt j hj
      · rw [List.mem_singleton.mp hj]
        exact queued_lt h.toBalanced (by rw [hks]; exact List.mem_cons_self)
  | notStarted tx queue was flight first sent charge result =>
    have hledger : acc.ledger.serviced out = acc.ledger := by
      simp [Ledger.serviced, Ledger.noteResult, inFlight_none h.toBalanced was, sent, charge,
        Ledger.noteSent, Ledger.noteCharge]
    rw [hledger]
    exact ⟨⟨by rw [queue]; exact h.queue, by rw [flight, ← was]; exact h.flight, h.once, h.order,
      h.charged⟩, h.startedLt⟩
  | refused tx queue was flight sent charge result =>
    obtain ⟨k, ks, hks, _, hrest⟩ := queued_cons h.toBalanced queue
    have hnone := inFlight_none h.toBalanced was
    have hledger : acc.ledger.serviced out =
        { acc.ledger with queued := ks, refused := acc.ledger.refused ++ [k] } := by
      simp [Ledger.serviced, Ledger.noteResult, hnone, sent, charge, result, hks, Ledger.noteSent,
        Ledger.noteCharge]
    rw [hledger]
    refine ⟨⟨hrest, ?_, ?_, ?_, h.charged⟩, h.startedLt⟩
    · rw [flight, hnone]
      rfl
    · rw [List.perm_iff_count]
      intro j
      have hcount := h.once.count_eq j
      simp only [Ledger.places, hks, List.count_append, List.count_nil, List.count_cons] at hcount ⊢
      omega
    · have horder := h.order
      rw [hks] at horder
      exact horder.sublist ((List.Sublist.refl _).append (List.sublist_cons_self k ks))

theorem Account.Inv.step (h : acc.Inv) {c : SlotCall} (hl : acc.losesReport c = false)
    (hd : ¬ acc.doubtsStart c) : (acc.step c).Inv := by
  cases c with
  | enqueueTx frame => exact h.enqueueTx frame
  | removeTx fromNode id => exact h.removeTx fromNode id
  | service a => exact h.service hl hd

/-- A frame that was not started is at the front as it was. -/
theorem notStarted_stays {s : RadioSlot RX TX} {a : DriverAnswers} {tx : TxFrame}
    (h : (s.service a).sent = some (tx, .error .txNotStarted)) :
    s.txQueue.toList.head? = some tx ∧
      (s.service a).slot.txQueue.toList = s.txQueue.toList ∧
      (s.service a).result = .error .txNotStarted := by
  cases service_effect s a with
  | kept _ _ sent | failed _ _ _ _ sent | completed _ _ _ _ _ sent | lost _ _ _ _ sent =>
    rw [sent] at h
    cases h
  | started _ _ _ _ _ sent _ taken =>
    rw [sent] at h
    cases h
    exact absurd rfl taken.1
  | notStarted tx' queue _ _ first sent _ result =>
    rw [sent] at h
    cases h
    exact ⟨first, queue, result⟩
  | refused _ _ _ _ sent =>
    rw [sent] at h
    cases h

end Steps

/-- A slot accounts for its frames, in every run in which no report is lost and
no start in doubt; and a frame that was not started keeps its place. -/
theorem radio_conserved (RX TX : Nat) :
    (∀ acc : Account RX TX, (slotLTS RX TX).Reachable acc → acc.Balanced) ∧
    (∀ (s : RadioSlot RX TX) (a : DriverAnswers) (tx : TxFrame),
      (s.service a).sent = some (tx, .error .txNotStarted) →
        s.txQueue.toList.head? = some tx ∧
          (s.service a).slot.txQueue.toList = s.txQueue.toList ∧
          (s.service a).result = .error .txNotStarted) := by
  refine ⟨fun acc hreach => ?_, fun s a tx h => notStarted_stays h⟩
  have hinv : acc.Inv := by
    refine LTS.Inductive.reachable (M := slotLTS RX TX) (I := Account.Inv) ⟨?_, ?_⟩ hreach
    · rintro _ rfl
      exact .new
    · rintro s c _ hs ⟨hl, hd, rfl⟩
      exact hs.step hl hd
  exact hinv.toBalanced

/-! ## A completion that nobody hears of -/

def plainFrame : TxFrame := ⟨0, List.replicate 20 7, by decide⟩

/-- The driver has nothing to say. -/
def quietDriver : DriverAnswers :=
  ⟨.ok none, .ok (), .ok (), fun _ => .ok none, .ok false, .ok (), .ok (), true, true⟩

/-- The frame is on the air; then the radio cannot be read. -/
def unreadableDriver : DriverAnswers :=
  { quietDriver with pollTx := .ok (some .complete), pollRecv := fun _ => .error .hardware }

def unreportedCalls : List SlotCall :=
  [.enqueueTx plainFrame, .service quietDriver, .service unreadableDriver]

/-- The frame was sent and charged, and is nowhere: the only calls returned an
empty report and an error that is not about it. -/
theorem completion_unreported :
    let acc : Account 4 4 := unreportedCalls.foldl Account.step .new
    acc.ledger.frames = [plainFrame] ∧ acc.slot.txQueue.toList = [] ∧ acc.slot.txInFlight = none ∧
      acc.ledger.completed = [] ∧ acc.ledger.failed = [] ∧ acc.ledger.refused = [] ∧
      acc.ledger.removed = [] ∧ acc.ledger.started = [0] ∧ ¬ acc.Balanced := by
  refine ⟨by decide +kernel, by decide +kernel, by decide +kernel, by decide +kernel,
    by decide +kernel, by decide +kernel, by decide +kernel, by decide +kernel, fun h => ?_⟩
  have hflight := h.flight
  revert hflight
  decide +kernel

/-- The driver does not know whether the frame is on the air. -/
def doubtfulDriver : DriverAnswers := { quietDriver with startSend := .error .txOutcomeUnknown }

def doubtfulCalls : List SlotCall :=
  [.enqueueTx plainFrame, .service doubtfulDriver,
    .service { quietDriver with pollTx := .ok (some .complete) }]

/-- The frame was reported failed, and then complete. -/
theorem started_in_doubt :
    let acc : Account 4 4 := doubtfulCalls.foldl Account.step .new
    acc.ledger.failed = [0] ∧ acc.ledger.completed = [0] ∧ ¬ acc.Balanced := by
  refine ⟨by decide +kernel, by decide +kernel, fun h => ?_⟩
  have hlen := h.once.length_eq
  revert hlen
  decide +kernel

/-- A driver that starts frames leaves none in doubt. -/
theorem quiet_starts {RX TX : Nat} {a : DriverAnswers} (acc : Account RX TX)
    (h : a.startSend = .ok ()) : ¬ acc.doubtsStart (.service a) := by
  rintro ⟨-, -, hdoubt⟩
  rw [h] at hdoubt
  cases hdoubt

def reportedCalls : List SlotCall :=
  [.enqueueTx plainFrame, .service quietDriver,
    .service { quietDriver with pollTx := .ok (some .complete) }]

/-- The same frame with a radio that can be read. -/
theorem completion_reported :
    let acc : Account 4 4 := reportedCalls.foldl Account.step .new
    acc.ledger.completed = [0] ∧ acc.Balanced := by
  have hrun : (slotLTS 4 4).Run .new reportedCalls (reportedCalls.foldl Account.step .new) :=
    .cons ⟨by decide +kernel, id, rfl⟩ (.cons ⟨by decide +kernel, quiet_starts _ rfl, rfl⟩
      (.cons ⟨by decide +kernel, quiet_starts _ rfl, rfl⟩ (.nil _)))
  exact ⟨by decide +kernel, (radio_conserved 4 4).1 _ ⟨.new, reportedCalls, rfl, hrun⟩⟩

end Meshrustic.Radio
