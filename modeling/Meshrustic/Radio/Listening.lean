import Meshrustic.Core.LTS
import Meshrustic.Radio.Slot

/-!
# Listening before talking (`mesh-radio/src/slot.rs:96-208`)

A call of `service` first takes in what the driver has received, then sends, and
then hands one received frame over. `received` are the frames that `poll_recv`
returned in a call. They pass through a ring that a failing call leaves as it
is, so a frame may wait through any number of failures.

Results:
* `service_receives`: what a call hands over and keeps is what it had and what
  it received, in this order, whatever it returns.
* `service_gates`: `start_send` is called past every gate, with nothing received
  that has not been handed over.
* `listen_before_talk`: both, in every reachable state.
-/
namespace Meshrustic.Radio

namespace RadioSlot

variable {RX TX : Nat} (s : RadioSlot RX TX) (a : DriverAnswers)

/-- The frames that `poll_recv` returns in one receive loop.
mirrors crates/mesh-radio/src/slot.rs:148-151 -/
def fetched (a : DriverAnswers) : Nat → Nat → List RxFrame
  | 0, _ => []
  | places + 1, round =>
    match a.pollRecv round with
    | .ok (some frame) => frame :: fetched a places (round + 1)
    | _ => []

/-- The frames that `poll_recv` returns in one call: none in a call that ends
before its receive loop, or finds no place in the queue. -/
def received : List RxFrame :=
  match s.txInFlight with
  | none =>
    match s.rxRestartPending, a.restartRx with
    | true, .error _ => []
    | _, _ => fetched a (RX - s.rxQueue.len) 0
  | some tx =>
    match a.pollTx with
    | .ok (some .complete) => fetched a (s.completeTx tx a).1.places 0
    | _ => []

end RadioSlot

/-- The frame that a call handed over. -/
def handedBy : Except RadioError ServiceReport → List RxFrame
  | .ok report => report.rx.toList
  | .error _ => []

/-- All that stands between a queued frame and the air. -/
structure Gates {RX TX : Nat} (s : RadioSlot RX TX) (a : DriverAnswers) : Prop where
  idle : s.txInFlight = none
  receiving : s.rxRestartPending = false ∨ a.restartRx = .ok ()
  channelFree : a.rxInProgress = .ok false
  handedOver : s.rxQueue.toList = [] ∧ s.received a = []
  /-- no `poll_recv` of the receive loop fails -/
  read : RadioSlot.recvFails a (RX - s.rxQueue.len) 0 = false
  mayTx : a.mayTx = true
  dutyCycle : a.isTxAllowedDutyCycle = true

section Calls

variable {RX TX : Nat} {s : RadioSlot RX TX} {a : DriverAnswers} {report : ServiceReport}

/-- The receive loop queues what it fetches, and charges for it. -/
theorem drain_fetched (a : DriverAnswers) (places round : Nat) (s : RadioSlot RX TX)
    (report : ServiceReport) (charges : List UInt8) (hroom : places ≤ RX - s.rxQueue.len) :
    let drained := RadioSlot.drain a places round s report charges
    drained.slot.rxQueue.toList = s.rxQueue.toList ++ RadioSlot.fetched a places round ∧
      drained.charges = charges ++ (RadioSlot.fetched a places round).map (·.len) := by
  induction places generalizing round s report charges with
  | zero => exact ⟨(List.append_nil _).symm, (List.append_nil _).symm⟩
  | succ places ih =>
    unfold RadioSlot.drain RadioSlot.fetched
    cases a.pollRecv round with
    | error e => simp
    | ok frame? =>
      cases frame? with
      | none => simp
      | some frame =>
        have hfull : s.rxQueue.isFull = false := by
          have hlt : s.rxQueue.len ≠ RX := by omega
          simp [Ring.isFull, hlt]
        have hsome : (s.rxQueue.push frame).isSome = true := by rw [Ring.push_isSome, hfull]; rfl
        obtain ⟨queue, hpush⟩ := Option.isSome_iff_exists.mp hsome
        have hlist := Ring.toList_push hpush
        have htake : (s.takeIn frame).rxQueue = queue := by
          unfold RadioSlot.takeIn
          rw [hpush]
          rfl
        have hlen : queue.len = s.rxQueue.len + 1 := by
          have := congrArg List.length hlist
          rwa [Ring.length_toList, List.length_append, Ring.length_toList,
            List.length_singleton] at this
        obtain ⟨hq, hc⟩ := ih (round + 1) (s.takeIn frame)
          { report with
            receptions := if report.receptions == 255 then 255 else report.receptions + 1 }
          (charges ++ [frame.len]) (by rw [htake]; omega)
        refine ⟨?_, ?_⟩
        · rw [hq, htake, hlist, List.append_assoc]
          rfl
        · rw [hc, List.append_assoc]
          rfl

/-- The frame at the front is handed over, if there is one. -/
theorem finish_handed (s : RadioSlot RX TX) (report : ServiceReport) :
    (s.finish report).2.rx.toList ++ (s.finish report).1.rxQueue.toList = s.rxQueue.toList := by
  unfold RadioSlot.finish
  dsimp only
  split
  · rename_i hpop
    exact (Ring.toList_pop hpop).symm
  · rfl

theorem recover_rxQueue (s : RadioSlot RX TX) (a : DriverAnswers) :
    (s.recover a).rxQueue = s.rxQueue := by
  unfold RadioSlot.recover
  split <;> rfl

/-- Whatever becomes of the frame that is sent, receptions are not touched. -/
theorem startTx_handed (s : RadioSlot RX TX) (tx : TxFrame) (a : DriverAnswers)
    (report : ServiceReport) :
    handedBy (s.startTx tx a report).result ++ (s.startTx tx a report).slot.rxQueue.toList =
      s.rxQueue.toList := by
  unfold RadioSlot.startTx
  split
  · exact finish_handed { s with txInFlight := some tx } report
  · split
    · exact congrArg Ring.toList (recover_rxQueue s a)
    · exact congrArg Ring.toList (recover_rxQueue s a)
  · exact congrArg Ring.toList (recover_rxQueue s a)
  · rfl

theorem sendNext_handed (s : RadioSlot RX TX) (a : DriverAnswers) (report : ServiceReport) :
    handedBy (s.sendNext a report).result ++ (s.sendNext a report).slot.rxQueue.toList =
      s.rxQueue.toList := by
  unfold RadioSlot.sendNext
  split
  · dsimp only
    split
    · rfl
    · exact finish_handed s _
    · split
      · exact finish_handed s _
      split
      · exact finish_handed s _
      split
      · exact finish_handed s _
      split
      · rename_i txQueue _
        exact startTx_handed { s with txQueue } _ a _
      · exact finish_handed s _
  · exact finish_handed s _

/-- A frame is sent past every gate of this part of the call. -/
theorem sendNext_gates {sent : TxFrame × Except RadioError Unit}
    (h : (s.sendNext a report).sent = some sent) :
    report.txLen = none ∧ a.rxInProgress = .ok false ∧ s.rxQueue.toList = [] ∧ a.mayTx = true ∧
      a.isTxAllowedDutyCycle = true := by
  unfold RadioSlot.sendNext at h
  split at h
  · rename_i hlen _
    dsimp only at h
    split at h
    · cases h
    · cases h
    · rename_i hfree
      split at h
      · cases h
      rename_i hempty
      split at h
      · cases h
      rename_i hmay
      split at h
      · cases h
      rename_i hduty
      refine ⟨hlen, hfree, ?_, by simpa using hmay, by simpa using hduty⟩
      have hzero : s.rxQueue.len = 0 := by simpa [Ring.isEmpty] using hempty
      exact List.length_eq_zero_iff.mp (s.rxQueue.length_toList.trans hzero)
  · cases h

theorem places_le (s : RadioSlot RX TX) : s.places ≤ RX - s.rxQueue.len := by
  unfold RadioSlot.places
  split <;> omega

theorem listen_handed (s : RadioSlot RX TX) (a : DriverAnswers) (report : ServiceReport) :
    handedBy (s.listen a report).result ++ (s.listen a report).slot.rxQueue.toList =
        s.rxQueue.toList ++ RadioSlot.fetched a s.places 0 ∧
      (s.listen a report).rxCharges = (RadioSlot.fetched a s.places 0).map (·.len) := by
  obtain ⟨hq, hc⟩ := drain_fetched a s.places 0 s report [] (places_le s)
  unfold RadioSlot.listen
  dsimp only
  split
  · exact ⟨hq, hc⟩
  · exact ⟨(sendNext_handed _ a _).trans hq, hc⟩

theorem listen_gates {sent : TxFrame × Except RadioError Unit}
    (h : (s.listen a report).sent = some sent) :
    report.txLen = none ∧ a.rxInProgress = .ok false ∧ s.rxQueue.toList = [] ∧
      RadioSlot.fetched a s.places 0 = [] ∧ RadioSlot.recvFails a s.places 0 = false ∧
      a.mayTx = true ∧ a.isTxAllowedDutyCycle = true := by
  obtain ⟨hq, _⟩ := drain_fetched a s.places 0 s report [] (places_le s)
  obtain ⟨_, _, hlen, _, herror⟩ := drain_spec a s.places 0 s report []
  unfold RadioSlot.listen at h
  dsimp only at h
  split at h
  · cases h
  · rename_i hok
    rw [hok] at herror
    obtain ⟨hnone, hfree, hempty, hmay, hduty⟩ := sendNext_gates h
    obtain ⟨hnil, hfetched⟩ := List.append_eq_nil_iff.mp (hq.symm.trans hempty)
    exact ⟨hlen.symm.trans hnone, hfree, hnil, hfetched, herror.symm, hmay, hduty⟩

theorem places_idle (hnone : s.txInFlight = none) (hpend : s.rxRestartPending = false) :
    s.places = RX - s.rxQueue.len := by
  unfold RadioSlot.places
  simp [hnone, hpend]

/-- A call that finds nothing in flight. -/
theorem service_idle (hidle : s.txInFlight = none) :
    s.service a = RadioSlot.serviceIdle { s with txFailure := none } a := by
  unfold RadioSlot.service
  dsimp only
  rw [hidle]

/-- A call that finds `tx` in flight, and whether it is done with. -/
theorem service_flight {tx : TxFrame} (hflight : s.txInFlight = some tx) :
    s.service a = match a.pollTx with
      | .error _ =>
        ⟨RadioSlot.failTx { s with txFailure := none } tx a, .error .txOutcomeUnknown, none, none, []⟩
      | .ok none =>
        ⟨{ s with txFailure := none }, .ok { txQueueLen := .ofNat (min s.txQueue.len 255) }, none,
          none, []⟩
      | .ok (some .complete) =>
        (RadioSlot.completeTx { s with txFailure := none } tx a).1.listen a
          (RadioSlot.completeTx { s with txFailure := none } tx a).2
      | .ok (some .outcomeUnknown) =>
        ⟨RadioSlot.failTx { s with txFailure := none } tx a, .error .txOutcomeUnknown, none, none,
          []⟩ := by
  unfold RadioSlot.service
  rcases a.pollTx with e | _ | _ | _ <;> simp only [hflight]

/-- An idle slot that receives, or does again, fetches all there is place for. -/
theorem received_idle (hidle : s.txInFlight = none)
    (hrestart : s.rxRestartPending = false ∨ a.restartRx = .ok ()) :
    s.received a = RadioSlot.fetched a (RX - s.rxQueue.len) 0 := by
  unfold RadioSlot.received
  rw [hidle]
  dsimp only
  rcases hrestart with hpend | hok
  · rw [hpend]
  · rw [hok]
    cases s.rxRestartPending <;> rfl

/-- It fetches nothing where the restart fails again. -/
theorem received_stuck {e : RadioError} (hidle : s.txInFlight = none)
    (hpend : s.rxRestartPending = true) (hrestart : a.restartRx = .error e) :
    s.received a = [] := by
  unfold RadioSlot.received
  rw [hidle, hpend, hrestart]

theorem completeTx_places (s : RadioSlot RX TX) (tx : TxFrame) (a : DriverAnswers) :
    (s.completeTx tx a).1.places =
      if isErr a.resumeRx || s.rxRestartPending then 0 else RX - s.rxQueue.len := by
  obtain ⟨_, hflight, _, _, hrx, hpend⟩ := completeTx_spec s tx a
  unfold RadioSlot.places
  rw [hflight, hrx, hpend]
  cases isErr a.resumeRx || s.rxRestartPending <;> rfl

/-- What is fetched does not depend on an earlier failure. -/
theorem received_txFailure (failure : Option (UInt32 × UInt32)) :
    RadioSlot.received { s with txFailure := failure } a = s.received a := by
  obtain ⟨rxQueue, txQueue, rxOrdinal, rxRestartPending, txInFlight, txFailure⟩ := s
  unfold RadioSlot.received
  cases txInFlight with
  | none => rfl
  | some tx =>
    dsimp only
    rw [completeTx_places, completeTx_places]

theorem serviceIdle_receives (hidle : s.txInFlight = none) :
    handedBy (s.serviceIdle a).result ++ (s.serviceIdle a).slot.rxQueue.toList =
        s.rxQueue.toList ++ s.received a ∧
      (s.serviceIdle a).rxCharges = (s.received a).map (·.len) := by
  unfold RadioSlot.serviceIdle
  by_cases hpend : s.rxRestartPending = true
  · rw [if_pos hpend]
    cases hrestart : a.restartRx with
    | error e =>
      rw [received_stuck hidle hpend hrestart]
      exact ⟨(List.append_nil _).symm, rfl⟩
    | ok _ =>
      have h := listen_handed { s with rxRestartPending := false } a {}
      rw [places_idle (by exact hidle) rfl] at h
      rw [received_idle hidle (.inr hrestart)]
      exact h
  · rw [if_neg hpend]
    have hfalse : s.rxRestartPending = false := by simpa using hpend
    have h := listen_handed s a {}
    rw [places_idle hidle hfalse] at h
    rw [received_idle hidle (.inl hfalse)]
    exact h

/-- Nothing received is lost, repeated or overtaken in a call, and each frame is
charged once. -/
theorem service_receives (s : RadioSlot RX TX) (a : DriverAnswers) :
    handedBy (s.service a).result ++ (s.service a).slot.rxQueue.toList =
        s.rxQueue.toList ++ s.received a ∧
      (s.service a).rxCharges = (s.received a).map (·.len) := by
  cases hflight : s.txInFlight with
  | none =>
    rw [service_idle hflight, ← received_txFailure none]
    exact serviceIdle_receives hflight
  | some tx =>
    rw [service_flight hflight, ← received_txFailure none]
    unfold RadioSlot.received
    dsimp only
    rw [hflight]
    dsimp only
    cases a.pollTx with
    | error e => exact ⟨(List.append_nil _).symm, rfl⟩
    | ok status =>
      cases status with
      | none => exact ⟨(List.append_nil _).symm, rfl⟩
      | some status =>
        cases status with
        | outcomeUnknown => exact ⟨(List.append_nil _).symm, rfl⟩
        | complete =>
          obtain ⟨_, _, _, _, hrx, _⟩ := completeTx_spec { s with txFailure := none } tx a
          have h := listen_handed (RadioSlot.completeTx { s with txFailure := none } tx a).1 a
            (RadioSlot.completeTx { s with txFailure := none } tx a).2
          rw [hrx, hflight] at h
          exact h

theorem serviceIdle_gates {sent : TxFrame × Except RadioError Unit} (hidle : s.txInFlight = none)
    (h : (s.serviceIdle a).sent = some sent) : Gates s a := by
  unfold RadioSlot.serviceIdle at h
  by_cases hpend : s.rxRestartPending = true
  · rw [if_pos hpend] at h
    cases hrestart : a.restartRx with
    | error e =>
      rw [hrestart] at h
      cases h
    | ok _ =>
      rw [hrestart] at h
      obtain ⟨_, hfree, hqueue, hfetched, hread, hmay, hduty⟩ := listen_gates h
      rw [places_idle (by exact hidle) rfl] at hfetched hread
      exact ⟨hidle, .inr hrestart, hfree,
        ⟨hqueue, (received_idle hidle (.inr hrestart)).trans hfetched⟩, hread, hmay, hduty⟩
  · rw [if_neg hpend] at h
    have hfalse : s.rxRestartPending = false := by simpa using hpend
    obtain ⟨_, hfree, hqueue, hfetched, hread, hmay, hduty⟩ := listen_gates h
    rw [places_idle hidle hfalse] at hfetched hread
    exact ⟨hidle, .inl hfalse, hfree,
      ⟨hqueue, (received_idle hidle (.inl hfalse)).trans hfetched⟩, hread, hmay, hduty⟩

/-- A call that sends has passed every gate. -/
theorem service_gates {sent : TxFrame × Except RadioError Unit}
    (h : (s.service a).sent = some sent) : Gates s a := by
  cases hflight : s.txInFlight with
  | none =>
    rw [service_idle hflight] at h
    have hgates := serviceIdle_gates (s := { s with txFailure := none }) hflight h
    exact ⟨hflight, hgates.receiving, hgates.channelFree,
      ⟨hgates.handedOver.1, (received_txFailure none).symm.trans hgates.handedOver.2⟩,
      hgates.read, hgates.mayTx, hgates.dutyCycle⟩
  | some tx =>
    rw [service_flight hflight] at h
    -- a frame that completes in this call rules out sending another
    split at h
    · cases h
    · cases h
    · obtain ⟨hlen, _⟩ := listen_gates h
      obtain ⟨_, _, htx, _⟩ := completeTx_spec ({ s with txFailure := none } : RadioSlot RX TX) tx a
      rw [htx] at hlen
      cases hlen
    · cases h

end Calls

/-! ## Runs -/

/-- A call on a slot, and the removals and takings from outside. -/
inductive RxCall where
  | enqueueTx (frame : TxFrame)
  | removeTx (fromNode id : UInt32)
  /-- the frame at the front is no longer allowed -/
  | popTx
  | service (a : DriverAnswers)
  /-- the loop takes the next received frame -/
  | popRx

/-- A slot with all that `poll_recv` returned so far, and all that was handed
over. -/
structure Reception (RX TX : Nat) where
  slot : RadioSlot RX TX
  returned : List RxFrame
  handed : List RxFrame

namespace Reception

variable {RX TX : Nat} (r : Reception RX TX)

def new : Reception RX TX := ⟨.new, [], []⟩

/-- mirrors boards/nrf52840/src/lora/radio_task.rs:232-263 -/
def step : RxCall → Reception RX TX
  | .enqueueTx frame => { r with slot := (r.slot.enqueueTx frame).getD r.slot }
  | .removeTx fromNode id => { r with slot := (r.slot.removeTx fromNode id).1 }
  | .popTx =>
    match r.slot.txQueue.pop with
    | some (_, txQueue) => { r with slot := { r.slot with txQueue } }
    | none => r
  | .service a =>
    ⟨(r.slot.service a).slot, r.returned ++ r.slot.received a,
      r.handed ++ handedBy (r.slot.service a).result⟩
  | .popRx =>
    match r.slot.rxQueue.pop with
    | some (frame, rxQueue) => { r with slot := { r.slot with rxQueue }, handed := r.handed ++ [frame] }
    | none => r

/-- What came in went out in its order, or waits. -/
def Ordered : Prop := r.returned = r.handed ++ r.slot.rxQueue.toList

end Reception

def receptionLTS (RX TX : Nat) : LTS (Reception RX TX) RxCall where
  init r := r = .new
  step r c r' := r' = r.step c

theorem Reception.Ordered.step {RX TX : Nat} {r : Reception RX TX} (h : r.Ordered) (c : RxCall) :
    (r.step c).Ordered := by
  unfold Reception.Ordered at h ⊢
  cases c with
  | enqueueTx frame =>
    change r.returned = r.handed ++ ((r.slot.enqueueTx frame).getD r.slot).rxQueue.toList
    cases henq : r.slot.enqueueTx frame with
    | none => exact h
    | some slot =>
      obtain ⟨queue, _, rfl⟩ := Option.map_eq_some_iff.mp henq
      exact h
  | removeTx fromNode id => exact h
  | popTx =>
    unfold Reception.step
    dsimp only
    split <;> exact h
  | service a =>
    have hcall := (service_receives r.slot a).1
    change r.returned ++ r.slot.received a = (r.handed ++ handedBy (r.slot.service a).result) ++
      (r.slot.service a).slot.rxQueue.toList
    rw [List.append_assoc, hcall, h, List.append_assoc]
  | popRx =>
    unfold Reception.step
    dsimp only
    split
    · rename_i frame rxQueue hpop
      rw [h, Ring.toList_pop hpop, List.append_assoc]
      rfl
    · exact h

/-- The frames handed over are those received, in order and each once, and no
frame is sent before they all are. -/
theorem listen_before_talk {RX TX : Nat} {r : Reception RX TX}
    (h : (receptionLTS RX TX).Reachable r) :
    r.returned = r.handed ++ r.slot.rxQueue.toList ∧
      ∀ a tx answer, (r.slot.service a).sent = some (tx, answer) →
        Gates r.slot a ∧ (r.step (.service a)).returned = r.handed := by
  have hordered : r.Ordered := by
    refine LTS.Inductive.reachable (M := receptionLTS RX TX) (I := Reception.Ordered) ⟨?_, ?_⟩ h
    · rintro _ rfl
      rfl
    · rintro s c _ hs rfl
      exact hs.step c
  refine ⟨hordered, fun a tx answer hsent => ?_⟩
  have hgates := service_gates hsent
  refine ⟨hgates, ?_⟩
  change r.returned ++ r.slot.received a = r.handed
  rw [hordered, hgates.handedOver.1, hgates.handedOver.2, List.append_nil, List.append_nil]

/-- Nothing stands between a queued frame and the air. -/
def clearChannel : DriverAnswers where
  pollTx := .ok none
  resumeRx := .ok ()
  restartRx := .ok ()
  pollRecv _ := .ok none
  rxInProgress := .ok false
  startSend := .ok ()
  recoverRx := .ok ()
  mayTx := true
  isTxAllowedDutyCycle := true

def queuedFrame : TxFrame := ⟨0, [1], by decide⟩

def heardFrame (k : UInt8) : RxFrame := ⟨0, -80, 7, [k], by simp [MAX_LORA_PAYLOAD]⟩

/-- Two frames are received, and then the radio cannot be read. -/
def interrupted : DriverAnswers :=
  { clearChannel with
    pollRecv := fun
      | 0 => .ok (some (heardFrame 0))
      | 1 => .ok (some (heardFrame 1))
      | _ => .error .hardware }

/-- A third frame is received, and nothing more. -/
def oneMore : DriverAnswers :=
  { clearChannel with
    pollRecv := fun
      | 0 => .ok (some (heardFrame 2))
      | _ => .ok none }

/-- The failing call keeps the two frames it took; the next hands over the
first of the three, and the loop takes the others. -/
def heardCalls : List RxCall :=
  [.enqueueTx queuedFrame, .service interrupted, .service oneMore, .popRx, .popRx]

def heardOut : Reception 4 4 := heardCalls.foldl Reception.step .new

theorem listen_before_first_frame :
    heardOut.returned = heardOut.handed ++ heardOut.slot.rxQueue.toList ∧
      heardOut.handed = [heardFrame 0, heardFrame 1, heardFrame 2] ∧
      Gates heardOut.slot clearChannel :=
  have h := listen_before_talk (r := heardOut)
    ⟨.new, heardCalls, rfl, .cons rfl (.cons rfl (.cons rfl (.cons rfl (.cons rfl (.nil _)))))⟩
  ⟨h.1, by decide +kernel, (h.2 clearChannel queuedFrame (.ok ()) (by decide +kernel)).1⟩

end Meshrustic.Radio
