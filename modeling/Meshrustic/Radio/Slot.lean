import Meshrustic.Core.Bytes
import Meshrustic.Core.Ring

/-!
# A radio and its queues (`mesh-radio/src/slot.rs`, `queue.rs`, `frame.rs`)

`service` is called in a loop. It first asks for the outcome of the frame in
flight, then fetches what was received, and then starts the next frame of the
queue, unless the channel or the router have something against it. Each of
these steps may fail, and most failures end the call early.

The driver is asked at most once for each thing in a call, but for receptions:
`DriverAnswers` are its answers. `AirTime` is represented by what is charged to
it, in `Serviced`.

Results:
* `service_effect`: what a call does to the frames, for every answer of the
  driver.
-/
namespace Meshrustic.Radio

def MAX_LORA_PAYLOAD : Nat := 255
def PACKET_HEADER_LEN : Nat := 16

/-- mirrors crates/mesh-radio/src/frame.rs:11-19 -/
structure RxFrame where
  radioId : UInt8
  rssi : Int16
  snr : Int8
  payload : Bytes
  fits : payload.length ≤ MAX_LORA_PAYLOAD
  deriving DecidableEq

/-- mirrors crates/mesh-radio/src/frame.rs:44-67 -/
structure TxFrame where
  radioId : UInt8
  payload : Bytes
  fits : payload.length ≤ MAX_LORA_PAYLOAD
  deriving DecidableEq

def RxFrame.empty : RxFrame := ⟨0, 0, 0, [], Nat.zero_le _⟩
def TxFrame.empty : TxFrame := ⟨0, [], Nat.zero_le _⟩

def RxFrame.len (f : RxFrame) : UInt8 := .ofNat f.payload.length
def TxFrame.len (f : TxFrame) : UInt8 := .ofNat f.payload.length

/-- mirrors crates/mesh-radio/src/interface.rs:4-14 -/
inductive RadioError where
  | initFailed | busy | timeout | invalidLength | invalidConfig | txNotStarted | txOutcomeUnknown
  | hardware
  deriving DecidableEq, Repr

inductive TxStatus where
  | complete | outcomeUnknown
  deriving DecidableEq, Repr

/-- mirrors crates/mesh-radio/src/slot.rs:7-23 -/
structure ServiceReport where
  rx : Option RxFrame := none
  txLen : Option UInt8 := none
  rxRestartError : Option RadioError := none
  txId : Option UInt32 := none
  txTo : Option UInt32 := none
  txFrom : Option UInt32 := none
  dutyCycleBlocked : Bool := false
  txDeferredRxBusy : Bool := false
  txDeferredRxPending : Bool := false
  txHeld : Bool := false
  txQueueLen : UInt8 := 0
  rxOrdinal : UInt32 := 0
  receptions : UInt8 := 0
  heldBehindRx : Option UInt32 := none

/-- What the driver answers during one call, and the caller's leave. -/
structure DriverAnswers where
  pollTx : Except RadioError (Option TxStatus)
  /-- `start_rx` when the frame in flight is done with -/
  resumeRx : Except RadioError Unit
  /-- `start_rx` when an earlier attempt failed -/
  restartRx : Except RadioError Unit
  /-- `poll_recv`, for each round -/
  pollRecv : Nat → Except RadioError (Option RxFrame)
  rxInProgress : Except RadioError Bool
  startSend : Except RadioError Unit
  /-- `start_rx` when a frame was not started -/
  recoverRx : Except RadioError Unit
  mayTx : Bool
  isTxAllowedDutyCycle : Bool

def isErr {ε α : Type} : Except ε α → Bool
  | .error _ => true
  | .ok _ => false

/-- Id, destination and originator.
mirrors crates/mesh-radio/src/slot.rs:25-33 -/
def meshHeaderIdTo (payload : Bytes) : Option (UInt32 × UInt32 × UInt32) :=
  if payload.length < PACKET_HEADER_LEN then none
  else some (ofLe32 (slice payload 8 4), ofLe32 (slice payload 0 4), ofLe32 (slice payload 4 4))

/-- mirrors crates/mesh-radio/src/slot.rs:41-46 -/
def rxQueueDepth (queued : Nat) : Option UInt32 := if queued == 0 then none else some (.ofNat queued)

/-- mirrors crates/mesh-radio/src/slot.rs:48-57 -/
structure RadioSlot (RX TX : Nat) where
  rxQueue : Ring RX RxFrame
  txQueue : Ring TX TxFrame
  rxOrdinal : UInt32
  rxRestartPending : Bool
  txInFlight : Option TxFrame
  txFailure : Option (UInt32 × UInt32)

/-- A call's effect: the slot, what it returned, the frame that was handed to
`start_send` with the answer, and what was charged to the airtime. -/
structure Serviced (RX TX : Nat) where
  slot : RadioSlot RX TX
  result : Except RadioError ServiceReport
  sent : Option (TxFrame × Except RadioError Unit) := none
  txCharge : Option UInt8 := none
  rxCharges : List UInt8 := []

/-- The header of `tx`, where it is long enough to have one. -/
def ServiceReport.named (report : ServiceReport) (tx : TxFrame) : ServiceReport :=
  match meshHeaderIdTo tx.payload with
  | some (id, toNode, fromNode) =>
    { report with txId := some id, txTo := some toNode, txFrom := some fromNode }
  | none => report

/-- What the receive loop has come to. -/
structure Drained (RX TX : Nat) where
  slot : RadioSlot RX TX
  report : ServiceReport
  charges : List UInt8
  error : Option RadioError

def Drained.counted {RX TX : Nat} (d : Drained RX TX) : ServiceReport :=
  { d.report with rxOrdinal := d.slot.rxOrdinal }

namespace RadioSlot

variable {RX TX : Nat} (s : RadioSlot RX TX)

def new : RadioSlot RX TX := ⟨.new .empty, .new .empty, 0, false, none, none⟩

/-- mirrors crates/mesh-radio/src/slot.rs:213-215; `none` when the queue is full. -/
def enqueueTx (frame : TxFrame) : Option (RadioSlot RX TX) :=
  (s.txQueue.push frame).map fun txQueue => { s with txQueue }

def isFrameOf (fromNode id : UInt32) (f : TxFrame) : Bool :=
  (meshHeaderIdTo f.payload).any fun (fid, _, origin) => fid == id && origin == fromNode

/-- mirrors crates/mesh-radio/src/slot.rs:221-226 -/
def removeTx (fromNode id : UInt32) : RadioSlot RX TX × Nat :=
  let removed := s.txQueue.removeWhere (isFrameOf fromNode id)
  ({ s with txQueue := removed.1 }, removed.2)

/-- mirrors crates/mesh-radio/src/slot.rs:107-113, 134-140 -/
def failTx (tx : TxFrame) (a : DriverAnswers) : RadioSlot RX TX :=
  { s with
    txInFlight := none
    txFailure := (meshHeaderIdTo tx.payload).map fun (id, _, fromNode) => (fromNode, id)
    rxRestartPending := isErr a.resumeRx }

/-- mirrors crates/mesh-radio/src/slot.rs:118-133 -/
def completeTx (tx : TxFrame) (a : DriverAnswers) : RadioSlot RX TX × ServiceReport :=
  let report := { ServiceReport.named {} tx with txLen := some tx.len }
  match a.resumeRx with
  | .ok () => ({ s with txInFlight := none }, report)
  | .error err =>
    ({ s with txInFlight := none, rxRestartPending := true },
      { report with rxRestartError := some err })

/-- mirrors crates/mesh-radio/src/slot.rs:152-159 -/
def takeIn (frame : RxFrame) : RadioSlot RX TX :=
  { s with
    rxQueue := (s.rxQueue.push frame).getD s.rxQueue
    rxOrdinal := if s.rxOrdinal + 1 == 0 then 1 else s.rxOrdinal + 1 }

/-- The receive loop, with the number of places left in the queue.
mirrors crates/mesh-radio/src/slot.rs:148-160 -/
def drain (a : DriverAnswers) : Nat → Nat → RadioSlot RX TX → ServiceReport → List UInt8 →
    Drained RX TX
  | 0, _, s, report, charges => ⟨s, report, charges, none⟩
  | places + 1, round, s, report, charges =>
    match a.pollRecv round with
    | .error e => ⟨s, report, charges, some e⟩
    | .ok none => ⟨s, report, charges, none⟩
    | .ok (some frame) =>
      drain a places (round + 1) (s.takeIn frame)
        { report with receptions := if report.receptions == 255 then 255 else report.receptions + 1 }
        (charges ++ [frame.len])

/-- mirrors crates/mesh-radio/src/slot.rs:203-207 -/
def finish (report : ServiceReport) : RadioSlot RX TX × ServiceReport :=
  let report := { report with txQueueLen := .ofNat (min s.txQueue.len 255) }
  match s.rxQueue.pop with
  | some (frame, rxQueue) => ({ s with rxQueue }, { report with rx := some frame })
  | none => (s, { report with rx := none })

/-- The call returns its report. -/
def done (report : ServiceReport) : Serviced RX TX := ⟨(s.finish report).1, .ok (s.finish report).2, none, none, []⟩

def recover (a : DriverAnswers) : RadioSlot RX TX :=
  if isErr a.recoverRx then { s with rxRestartPending := true } else s

/-- The frame is off the queue.
mirrors crates/mesh-radio/src/slot.rs:180-205 -/
def startTx (tx : TxFrame) (a : DriverAnswers) (report : ServiceReport) : Serviced RX TX :=
  match a.startSend with
  | .ok () =>
    { ({ s with txInFlight := some tx }).done report with
      sent := some (tx, .ok ()), txCharge := some tx.len }
  | .error .txNotStarted =>
    match (s.recover a).txQueue.pushFront tx with
    | some txQueue =>
      ⟨{ s.recover a with txQueue }, .error .txNotStarted, some (tx, .error .txNotStarted), none, []⟩
    | none => ⟨s.recover a, .error .hardware, some (tx, .error .txNotStarted), none, []⟩
  | .error .invalidLength =>
    ⟨s.recover a, .error .invalidLength, some (tx, .error .invalidLength), none, []⟩
  | .error err =>
    ⟨{ s with txInFlight := some tx }, .error err, some (tx, .error err), some tx.len, []⟩

/-- mirrors crates/mesh-radio/src/slot.rs:162-205 -/
def sendNext (a : DriverAnswers) (report : ServiceReport) : Serviced RX TX :=
  match report.txLen, s.txQueue.front with
  | none, some tx =>
    let report := report.named tx
    match a.rxInProgress with
    | .error e => ⟨s, .error e, none, none, []⟩
    | .ok true => s.done { report with txDeferredRxBusy := true }
    | .ok false =>
      if !s.rxQueue.isEmpty then
        s.done { report with txDeferredRxPending := true, heldBehindRx := rxQueueDepth s.rxQueue.len }
      else if !a.mayTx then
        s.done { report with txHeld := true, heldBehindRx := rxQueueDepth s.rxQueue.len }
      else if !a.isTxAllowedDutyCycle then s.done { report with dutyCycleBlocked := true }
      else
        match s.txQueue.pop with
        | some (tx, txQueue) => ({ s with txQueue }).startTx tx a report
        | none => s.done report
  | _, _ => s.done report

/-- How many frames the receive loop may take. -/
def places : Nat :=
  if s.txInFlight.isNone && !s.rxRestartPending then RX - s.rxQueue.len else 0

/-- mirrors crates/mesh-radio/src/slot.rs:148-207 -/
def listen (a : DriverAnswers) (report : ServiceReport) : Serviced RX TX :=
  let drained := drain a s.places 0 s report []
  match drained.error with
  | some e => ⟨drained.slot, .error e, none, none, drained.charges⟩
  | none =>
    { drained.slot.sendNext a drained.counted with rxCharges := drained.charges }

/-- Nothing is in flight: a failed restart is retried first.
mirrors crates/mesh-radio/src/slot.rs:143-146 -/
def serviceIdle (a : DriverAnswers) : Serviced RX TX :=
  if s.rxRestartPending then
    match a.restartRx with
    | .error e => ⟨s, .error e, none, none, []⟩
    | .ok () => ({ s with rxRestartPending := false }).listen a {}
  else s.listen a {}

/-- mirrors crates/mesh-radio/src/slot.rs:96-208 -/
def service (a : DriverAnswers) : Serviced RX TX :=
  let s := { s with txFailure := none }
  match s.txInFlight with
  | none => s.serviceIdle a
  | some tx =>
    match a.pollTx with
    | .error _ => ⟨s.failTx tx a, .error .txOutcomeUnknown, none, none, []⟩
    | .ok none => ⟨s, .ok { txQueueLen := .ofNat (min s.txQueue.len 255) }, none, none, []⟩
    | .ok (some .complete) => (s.completeTx tx a).1.listen a (s.completeTx tx a).2
    | .ok (some .outcomeUnknown) => ⟨s.failTx tx a, .error .txOutcomeUnknown, none, none, []⟩

/-- Some `poll_recv` of the receive loop fails. -/
def recvFails (a : DriverAnswers) : Nat → Nat → Bool
  | 0, _ => false
  | places + 1, round =>
    match a.pollRecv round with
    | .error _ => true
    | .ok none => false
    | .ok (some _) => recvFails a places (round + 1)

/-- The frame in flight is complete, and a failed reception ends the call
before it can say so. -/
def losesReport (a : DriverAnswers) : Bool :=
  match s.txInFlight, a.pollTx with
  | some _, .ok (some .complete) =>
    !isErr a.resumeRx && !s.rxRestartPending && recvFails a (RX - s.rxQueue.len) 0
  | _, _ => false

end RadioSlot

/-! ## What a call does to the frames -/

/-- What a call does to the frames of a slot, and what it says of it. -/
inductive Effect {RX TX : Nat} (s : RadioSlot RX TX) (a : DriverAnswers) (out : Serviced RX TX) :
    Prop where
  | kept (queue : out.slot.txQueue = s.txQueue) (flight : out.slot.txInFlight = s.txInFlight)
      (sent : out.sent = none) (charge : out.txCharge = none)
      (quiet : ∀ report, out.result = .ok report → report.txLen = none)
      (pending : s.txInFlight ≠ none → ∃ report, out.result = .ok report)
  | failed (tx : TxFrame) (queue : out.slot.txQueue = s.txQueue)
      (was : s.txInFlight = some tx) (flight : out.slot.txInFlight = none)
      (sent : out.sent = none) (charge : out.txCharge = none)
      (result : out.result = .error .txOutcomeUnknown)
  | completed (tx : TxFrame) (report : ServiceReport) (queue : out.slot.txQueue = s.txQueue)
      (was : s.txInFlight = some tx) (flight : out.slot.txInFlight = none)
      (sent : out.sent = none) (charge : out.txCharge = none) (result : out.result = .ok report)
      (names : report.txLen = some tx.len ∧
        report.txId = (meshHeaderIdTo tx.payload).map (·.1))
  | lost (tx : TxFrame) (queue : out.slot.txQueue = s.txQueue)
      (was : s.txInFlight = some tx) (flight : out.slot.txInFlight = none)
      (sent : out.sent = none) (charge : out.txCharge = none) (loses : s.losesReport a = true)
  | started (tx : TxFrame) (answer : Except RadioError Unit)
      (queue : s.txQueue.toList = tx :: out.slot.txQueue.toList)
      (was : s.txInFlight = none) (flight : out.slot.txInFlight = some tx)
      (sent : out.sent = some (tx, answer)) (charge : out.txCharge = some tx.len)
      (taken : answer ≠ .error .txNotStarted ∧ answer ≠ .error .invalidLength)
  | notStarted (tx : TxFrame) (queue : out.slot.txQueue.toList = s.txQueue.toList)
      (was : s.txInFlight = none) (flight : out.slot.txInFlight = none)
      (first : s.txQueue.toList.head? = some tx)
      (sent : out.sent = some (tx, .error .txNotStarted)) (charge : out.txCharge = none)
      (result : out.result = .error .txNotStarted)
  | refused (tx : TxFrame) (queue : s.txQueue.toList = tx :: out.slot.txQueue.toList)
      (was : s.txInFlight = none) (flight : out.slot.txInFlight = none)
      (sent : out.sent = some (tx, .error .invalidLength)) (charge : out.txCharge = none)
      (result : out.result = .error .invalidLength)

section Effects

variable {RX TX : Nat} {s : RadioSlot RX TX} {a : DriverAnswers} {report : ServiceReport}

theorem finish_spec (s : RadioSlot RX TX) (report : ServiceReport) :
    (s.finish report).1.txQueue = s.txQueue ∧ (s.finish report).1.txInFlight = s.txInFlight ∧
      (s.finish report).2.txLen = report.txLen ∧ (s.finish report).2.txId = report.txId := by
  unfold RadioSlot.finish
  dsimp only
  split <;> exact ⟨rfl, rfl, rfl, rfl⟩

theorem named_txLen (report : ServiceReport) (tx : TxFrame) :
    (report.named tx).txLen = report.txLen := by
  unfold ServiceReport.named
  split <;> rfl

/-- The receive loop leaves the outgoing frames and their report alone. -/
theorem drain_spec (a : DriverAnswers) (places round : Nat) (s : RadioSlot RX TX)
    (report : ServiceReport) (charges : List UInt8) :
    let drained := RadioSlot.drain a places round s report charges
    drained.slot.txQueue = s.txQueue ∧ drained.slot.txInFlight = s.txInFlight ∧
      drained.report.txLen = report.txLen ∧ drained.report.txId = report.txId ∧
      drained.error.isSome = RadioSlot.recvFails a places round := by
  induction places generalizing round s report charges with
  | zero => exact ⟨rfl, rfl, rfl, rfl, rfl⟩
  | succ places ih =>
    unfold RadioSlot.drain RadioSlot.recvFails
    cases a.pollRecv round with
    | error e => exact ⟨rfl, rfl, rfl, rfl, rfl⟩
    | ok received =>
      cases received with
      | none => exact ⟨rfl, rfl, rfl, rfl, rfl⟩
      | some frame => exact ih (round + 1) (s.takeIn frame) _ _

/-- A call that only reports. -/
theorem done_kept (hquiet : report.txLen = none) : Effect s a (s.done report) := by
  obtain ⟨hq, hf, hlen, _⟩ := finish_spec s report
  refine .kept hq hf rfl rfl ?_ fun _ => ⟨_, rfl⟩
  intro report' heq
  cases heq
  exact hlen.trans hquiet

theorem recover_fields (s : RadioSlot RX TX) (a : DriverAnswers) :
    (s.recover a).txQueue = s.txQueue ∧ (s.recover a).txInFlight = s.txInFlight := by
  unfold RadioSlot.recover
  split <;> exact ⟨rfl, rfl⟩

/-- A frame that is off the queue is in flight, refused, or back at its front. -/
theorem startTx_effect {tx : TxFrame} {txQueue : Ring TX TxFrame}
    (hpop : s.txQueue.pop = some (tx, txQueue)) (hnone : s.txInFlight = none) :
    Effect s a (({ s with txQueue }).startTx tx a report) := by
  have hlist := Ring.toList_pop hpop
  obtain ⟨hq, hf⟩ := recover_fields { s with txQueue } a
  unfold RadioSlot.startTx
  split
  · obtain ⟨hq', hf', _, _⟩ := finish_spec { s with txQueue, txInFlight := some tx } report
    refine .started tx (.ok ()) ?_ hnone hf' rfl rfl ⟨by simp, by simp⟩
    rw [hlist]
    exact congrArg (tx :: Ring.toList ·) hq'.symm
  · split
    · rename_i front hpush
      have hfront := Ring.toList_pushFront hpush
      rw [hq] at hfront
      refine .notStarted tx (hfront.trans hlist.symm) hnone (hf.trans hnone) ?_ rfl rfl rfl
      rw [hlist]
      rfl
    · rename_i hfull
      -- the place of the frame is still free
      have hlen := congrArg List.length hlist
      rw [Ring.length_toList, List.length_cons, Ring.length_toList] at hlen
      have hle := s.txQueue.len_le
      have hsome : ((({ s with txQueue } : RadioSlot RX TX).recover a).txQueue.pushFront tx).isSome =
          !(({ s with txQueue } : RadioSlot RX TX).recover a).txQueue.isFull := Ring.pushFront_isSome
      have hroom : txQueue.len ≠ TX := by omega
      rw [hfull, hq, Ring.isFull] at hsome
      simp [hroom] at hsome
  · refine .refused tx ?_ hnone (hf.trans hnone) rfl rfl rfl
    rw [hlist]
    exact congrArg (tx :: Ring.toList ·) hq.symm
  · rename_i err hns hil heq
    refine .started tx (.error err) hlist hnone rfl rfl rfl ⟨?_, ?_⟩
    · rintro ⟨⟩
      exact hns rfl
    · rintro ⟨⟩
      exact hil rfl

theorem sendNext_effect (hnone : s.txInFlight = none) (hquiet : report.txLen = none) :
    Effect s a (s.sendNext a report) := by
  unfold RadioSlot.sendNext
  split
  · rename_i tx _ _
    have hnamed := (named_txLen report tx).trans hquiet
    dsimp only
    split
    · exact .kept rfl rfl rfl rfl (fun _ h => by cases h) fun h => absurd hnone h
    · exact done_kept hnamed
    · split
      · exact done_kept hnamed
      split
      · exact done_kept hnamed
      split
      · exact done_kept hnamed
      split
      · rename_i hpop
        exact startTx_effect hpop hnone
      · exact done_kept hnamed
  · exact done_kept hquiet

/-- Nothing is sent in a call that reports a completed frame. -/
theorem sendNext_of_txLen {len : UInt8} (h : report.txLen = some len) :
    s.sendNext a report = s.done report := by
  unfold RadioSlot.sendNext
  rw [h]

/-- The same effect on another slot with the same frames. -/
theorem Effect.of_same {s : RadioSlot RX TX} {out : Serviced RX TX} (h : Effect s a out)
    (s' : RadioSlot RX TX) (hq : s.txQueue = s'.txQueue) (hf : s.txInFlight = s'.txInFlight)
    (hl : s.losesReport a = true → s'.losesReport a = true) (charges : List UInt8) :
    Effect s' a { out with rxCharges := charges } := by
  cases h with
  | kept queue flight sent charge quiet pending =>
    exact .kept (queue.trans hq) (flight.trans hf) sent charge quiet (hf ▸ pending)
  | failed tx queue was flight sent charge result =>
    exact .failed tx (queue.trans hq) (hf ▸ was) flight sent charge result
  | completed tx report queue was flight sent charge result names =>
    exact .completed tx report (queue.trans hq) (hf ▸ was) flight sent charge result names
  | lost tx queue was flight sent charge loses =>
    exact .lost tx (queue.trans hq) (hf ▸ was) flight sent charge (hl loses)
  | started tx answer queue was flight sent charge taken =>
    exact .started tx answer (hq ▸ queue) (hf ▸ was) flight sent charge taken
  | notStarted tx queue was flight first sent charge result =>
    exact .notStarted tx (hq ▸ queue) (hf ▸ was) flight (hq ▸ first) sent charge result
  | refused tx queue was flight sent charge result =>
    exact .refused tx (hq ▸ queue) (hf ▸ was) flight sent charge result

theorem losesReport_idle (hnone : s.txInFlight = none) : s.losesReport a = false := by
  unfold RadioSlot.losesReport
  rw [hnone]

theorem listen_effect (hnone : s.txInFlight = none) (hquiet : report.txLen = none) :
    Effect s a (s.listen a report) := by
  obtain ⟨hq, hf, hlen, _, _⟩ := drain_spec a s.places 0 s report []
  unfold RadioSlot.listen
  dsimp only
  generalize RadioSlot.drain a s.places 0 s report [] = drained at hq hf hlen
  have hidle := losesReport_idle (a := a) (hf.trans hnone)
  split
  · exact .kept hq hf rfl rfl (fun _ h => by cases h) fun h => absurd hnone h
  · have heffect : Effect drained.slot a (drained.slot.sendNext a drained.counted) :=
      sendNext_effect (hf.trans hnone) (hlen.trans hquiet)
    exact heffect.of_same s hq hf (by simp [hidle]) _

theorem serviceIdle_effect (hnone : s.txInFlight = none) : Effect s a (s.serviceIdle a) := by
  unfold RadioSlot.serviceIdle
  split
  · split
    · exact .kept rfl rfl rfl rfl (fun _ h => by cases h) fun h => absurd hnone h
    · have heffect : Effect { s with rxRestartPending := false } a
          (({ s with rxRestartPending := false } : RadioSlot RX TX).listen a {}) :=
        listen_effect hnone rfl
      refine heffect.of_same s rfl rfl (fun h => ?_) _
      rw [losesReport_idle (by exact hnone)] at h
      exact absurd h Bool.false_ne_true
  · exact listen_effect hnone rfl

theorem completeTx_spec (s : RadioSlot RX TX) (tx : TxFrame) (a : DriverAnswers) :
    (s.completeTx tx a).1.txQueue = s.txQueue ∧ (s.completeTx tx a).1.txInFlight = none ∧
      (s.completeTx tx a).2.txLen = some tx.len ∧
      (s.completeTx tx a).2.txId = (meshHeaderIdTo tx.payload).map (·.1) ∧
      (s.completeTx tx a).1.rxQueue = s.rxQueue ∧
      (s.completeTx tx a).1.rxRestartPending = (isErr a.resumeRx || s.rxRestartPending) := by
  have hid : (ServiceReport.named {} tx).txId = (meshHeaderIdTo tx.payload).map (·.1) := by
    unfold ServiceReport.named
    split <;> rename_i h <;> rw [h] <;> rfl
  unfold RadioSlot.completeTx
  dsimp only
  split <;> rename_i h <;> rw [h] <;> exact ⟨rfl, rfl, rfl, hid, rfl, rfl⟩

/-- A completed frame is reported, unless the receive loop fails after it. -/
theorem completed_effect {tx : TxFrame} (hwas : s.txInFlight = some tx)
    (hpoll : a.pollTx = .ok (some .complete)) :
    Effect s a ((s.completeTx tx a).1.listen a (s.completeTx tx a).2) := by
  obtain ⟨hcq, hcf, hlen, hid, hrx, hpend⟩ := completeTx_spec s tx a
  have hdrain := drain_spec a (s.completeTx tx a).1.places 0 (s.completeTx tx a).1
    (s.completeTx tx a).2 []
  dsimp only at hdrain
  obtain ⟨hq, hf, hlen', hid', herr⟩ := hdrain
  unfold RadioSlot.listen
  dsimp only
  generalize RadioSlot.drain a (s.completeTx tx a).1.places 0 (s.completeTx tx a).1
    (s.completeTx tx a).2 [] = drained at hq hf hlen' hid' herr
  split
  · rename_i e he
    refine .lost tx (hq.trans hcq) hwas (hf.trans hcf) rfl rfl ?_
    rw [he, Option.isSome_some, RadioSlot.places, hcf, hpend, hrx] at herr
    unfold RadioSlot.losesReport
    rw [hwas, hpoll]
    cases hr : isErr a.resumeRx || s.rxRestartPending with
    | true =>
      rw [hr] at herr
      exact absurd herr Bool.noConfusion
    | false =>
      rw [hr] at herr
      rw [Bool.or_eq_false_iff] at hr
      rw [hr.1, hr.2]
      exact herr.symm
  · have hreport : drained.counted.txLen = some tx.len := hlen'.trans hlen
    rw [sendNext_of_txLen hreport]
    obtain ⟨hq', hf', hl', hi'⟩ := finish_spec drained.slot drained.counted
    exact .completed tx _ (hq'.trans (hq.trans hcq)) hwas (hf'.trans (hf.trans hcf)) rfl rfl rfl
      ⟨hl'.trans hreport, hi'.trans (hid'.trans hid)⟩

/-- Every call, whatever the driver answers. -/
theorem service_effect (s : RadioSlot RX TX) (a : DriverAnswers) : Effect s a (s.service a) := by
  unfold RadioSlot.service
  dsimp only
  split
  · rename_i hnone
    have heffect : Effect { s with txFailure := none } a
        (({ s with txFailure := none } : RadioSlot RX TX).serviceIdle a) := serviceIdle_effect hnone
    exact heffect.of_same s rfl rfl id _
  · rename_i tx hwas
    split
    · exact .failed tx rfl hwas rfl rfl rfl rfl
    · exact .kept rfl rfl rfl rfl (fun _ h => by cases h; rfl) fun _ => ⟨_, rfl⟩
    · rename_i hpoll
      have heffect := completed_effect (s := { s with txFailure := none }) hwas hpoll
      exact heffect.of_same s rfl rfl id _
    · exact .failed tx rfl hwas rfl rfl rfl rfl

end Effects

end Meshrustic.Radio
