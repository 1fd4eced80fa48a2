import Meshrustic.Admin.Floor

/-!
# Refused requests (`mesh-routing/src/admin.rs:320-658`)

The handler has some fifteen places at which it gives a request up. Behind most of
them nothing has been written yet; the commit of an edit works on a copy, which it
drops when the LoRa settings or the interval are refused in its middle.

Results:
* `write_refused`: a write that reports an error is `badRequest`, on the state it was
  given.
* `failed_request_changes_nothing`: so is the whole call, and its outcome asks the node
  for nothing.
* `commit_fails_midway`: a commit whose interval is refused after its preset was applied.
-/
namespace Meshrustic.Admin

open Meshrustic.Store Meshrustic.Radio

/-- The outcome asks the node for nothing: no answer, no setting, no reboot. -/
structure AdminOutcome.Idle (o : AdminOutcome) : Prop where
  response : o.response = none
  preset : o.applyModemPreset = none
  role : o.applyDeviceRole = none
  owner : o.applyOwner = none
  clean : o.configDirty = false
  reboot : o.rebootSeconds = none
  position : o.broadcastPosition = false

theorem idle_refusal (error : Option UInt32) : AdminOutcome.Idle { routingError := error } :=
  ⟨rfl, rfl, rfl, rfl, rfl, rfl, rfl⟩

/-- A write reports no error, or it is refused: the state is the one it was given. -/
def Refusing (s : AdminState) (r : AdminState × AdminOutcome) : Prop :=
  r.2.routingError = none ∨ r = badRequest s

section

variable (s : AdminState)

theorem refusing_badRequest : Refusing s (badRequest s) := .inr rfl

theorem commitEditSettings_refusing : Refusing s (commitEditSettings s) := by
  unfold commitEditSettings
  cases commitBuffers s with
  | none => exact refusing_badRequest s
  | some r => exact .inl rfl

theorem setConfig_refusing (config : ConfigPayload) : Refusing s (setConfig s config) := by
  cases config with
  | lora lora =>
    simp only [setConfig, applyLoraToState]
    cases loraRegionAccepted lora with
    | false => cases s.editing <;> exact refusing_badRequest s
    | true => cases s.editing <;> exact .inl rfl
  | security sec =>
    simp only [setConfig]
    cases s.editing <;> exact .inl rfl
  | position pos =>
    simp only [setConfig]
    cases s.editing <;> exact .inl rfl
  | device dev =>
    simp only [setConfig]
    cases isKnownDeviceRole dev.role with
    | false => exact refusing_badRequest s
    | true => cases s.editing <;> exact .inl rfl
  | sessionkey => exact .inl rfl
  | empty => exact .inl rfl

theorem setModuleConfig_refusing (config : ModuleConfigPayload) :
    Refusing s (setModuleConfig s config) := by
  cases config with
  | telemetry tel =>
    simp only [setModuleConfig, applyDeviceUpdateInterval]
    cases intervalAccepted s.modemPreset tel.deviceUpdateInterval with
    | false => cases s.editing <;> exact refusing_badRequest s
    | true => cases s.editing <;> exact .inl rfl
  | empty => exact .inl rfl

theorem setFixedPosition_refusing (pos : WireFixedPosition) :
    Refusing s (setFixedPosition s pos) := by
  unfold setFixedPosition
  split
  · exact refusing_badRequest s
  · split
    · exact refusing_badRequest s
    · exact .inl rfl

theorem setOwner_refusing (owner : NodeInfoIdentity) : Refusing s (setOwner s owner) := by
  unfold setOwner
  cases mergeOwnerUpdate owner (ownerNamesFromState s) with
  | none => exact refusing_badRequest s
  | some merged => cases s.editing <;> exact .inl rfl

end

/-- A write that reports an error leaves the state as it was. -/
theorem write_refused {s : AdminState} {p : AdminPayload} {r : AdminState × AdminOutcome}
    (hw : write s p = some r) : Refusing s r := by
  unfold write at hw
  split at hw <;> cases hw
  · exact .inl rfl
  · exact commitEditSettings_refusing s
  · exact setConfig_refusing s _
  · exact setModuleConfig_refusing s _
  · exact setFixedPosition_refusing s _
  · exact .inl rfl
  · exact setOwner_refusing s _
  · exact .inl rfl

/-- The request fails: it cannot be decoded, its sender is not an administrator, or it is
answered by an error. -/
def Fails (sha256 : Bytes → Vector UInt8 32) (s : AdminState) (c : Call) (nowMs : UInt32) : Prop :=
  decodeAdminMessage c.payload = none ∨ s.isAuthorized c.remotePk = false ∨
    (handleAdmin sha256 s c nowMs).2.routingError ≠ none

/-- A request that fails changes nothing, the buffers of an edit included, and asks the
node for nothing. -/
theorem failed_request_changes_nothing (sha256 : Bytes → Vector UInt8 32) (s : AdminState)
    (c : Call) (nowMs : UInt32) (h : Fails sha256 s c nowMs) :
    (handleAdmin sha256 s c nowMs).1 = s ∧ (handleAdmin sha256 s c nowMs).2.Idle := by
  unfold Fails at h
  unfold handleAdmin at h ⊢
  cases hd : decodeAdminMessage c.payload with
  | none => exact ⟨rfl, idle_refusal none⟩
  | some msg =>
    rw [hd] at h
    dsimp only at h ⊢
    cases ha : s.isAuthorized c.remotePk with
    | false => exact ⟨rfl, idle_refusal _⟩
    | true =>
      simp only [ha, Bool.not_true, Bool.false_eq_true, if_false, reduceCtorEq, false_or] at h ⊢
      cases hp : readReply s c msg.payload with
      | some reply => simp [hp] at h
      | none =>
        cases hw : write s msg.payload with
        | none => exact ⟨rfl, idle_refusal none⟩
        | some r =>
          simp only [hp, hw] at h ⊢
          cases hs : s.sessionOk msg nowMs with
          | false => exact ⟨rfl, idle_refusal _⟩
          | true =>
            simp only [hs, Bool.not_true, Bool.false_eq_true, if_false] at h ⊢
            rcases write_refused hw with hok | hrefused
            · exact absurd hok h
            · rw [hrefused]
              exact ⟨rfl, idle_refusal _⟩

/-- A node under SHORT_TURBO with an open session. -/
def briskState : AdminState :=
  (handleAdmin (fun _ => sampleDigest) (AdminState.new.importNodeConfig briskConfig) getOwnerCall 0).1

/-- It is in an edit that has buffered the preset LONG_SLOW and an interval that LONG_SLOW
is too slow for. -/
def torn : AdminState :=
  { briskState with
    editing := true
    bufferedLora := some ⟨true, MODEM_LONG_SLOW.toUInt32, REGION_EU_868, 3, 3, true⟩
    bufferedDeviceUpdateIntervalSecs := some 3 }

/-- `commit_edit_settings` -/
def commitEditCall : Call := sessionCall [0x88, 0x04, 0x01]

/-- The commit applies the preset to its copy, refuses the interval, and leaves the state
and both buffers alone. -/
theorem commit_fails_midway :
    (commitLora torn).isSome = true ∧ torn.bufferedLora.isSome = true ∧
      (handleAdmin (fun _ => sampleDigest) torn commitEditCall 1000).1 = torn ∧
      (handleAdmin (fun _ => sampleDigest) torn commitEditCall 1000).2.Idle :=
  ⟨by decide +kernel, rfl,
    failed_request_changes_nothing _ torn commitEditCall 1000 (.inr (.inr (by decide +kernel)))⟩

end Meshrustic.Admin
