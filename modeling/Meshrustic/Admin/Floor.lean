import Meshrustic.Admin.Session

/-!
# The telemetry interval and its airtime floor

A telemetry interval is 0, which stands for the default, or at least a floor
that the airtime of the longest frame sets, so the floor moves with the modem
preset. `set_module_config` checks an interval against the preset in force;
a preset that is set later is not checked against the interval in force.

Results:
* `handleAdmin_floor`: a call keeps the floor unless it moves the preset
  (`presetMove`) to one whose floor the interval is below.
* `floor_kept_iff`: over whole runs from an imported configuration.
* `preset_sinks_interval`: such a move is accepted.
-/
namespace Meshrustic.Admin

open Meshrustic.Store Meshrustic.Radio

/-- mirrors crates/mesh-routing/src/admin.rs:126-146 -/
def AdminState.importNodeConfig (s : AdminState) (cfg : NodeConfig) : AdminState :=
  { s with
    adminPublicKeys := cfg.adminPublicKeys
    privateKey := cfg.privateKey
    publicKey := cfg.publicKey
    modemPreset := normalizeModemPreset cfg.lora.modemPreset
    usePreset := cfg.lora.usePreset
    hopLimit := cfg.lora.effectiveHopLimit
    txPowerDbm := min cfg.lora.txPowerDbm MAX_TX_POWER_DBM
    okToMqtt := cfg.lora.okToMqtt
    deviceUpdateIntervalSecs := cfg.deviceUpdateIntervalSecs
    deviceRole := sanitizeDeviceRole cfg.deviceRole.toUInt32
    positionBroadcastSecs := cfg.positionBroadcastSecs
    fixedPosition := cfg.fixedPosition
    latitudeI := cfg.latitudeI
    longitudeI := cfg.longitudeI
    hasFixedCoords := cfg.hasFixedCoords
    shortName := cfg.shortName
    shortNameLen := min cfg.shortNameLen (UInt8.ofNat OWNER_SHORT_NAME_MAX)
    longName := cfg.longName
    longNameLen := min cfg.longNameLen (UInt8.ofNat OWNER_LONG_NAME_MAX) }

/-- The interval is 0 or at least the floor of the preset. -/
def AdminState.AboveFloor (s : AdminState) : Prop :=
  intervalAccepted s.modemPreset s.deviceUpdateIntervalSecs = true

/-- The preset that a write moves to while it leaves the interval as it is. -/
def presetMove (s : AdminState) : AdminPayload → Option UInt8
  | .setConfig (.lora lora) =>
    if !s.editing && loraRegionAccepted lora then some lora.modemPreset.toUInt8 else none
  | .commitEditSettings =>
    match s.bufferedLora, s.bufferedDeviceUpdateIntervalSecs with
    | some lora, none =>
      if loraRegionAccepted lora then some lora.modemPreset.toUInt8 else none
    | _, _ => none
  | _ => none

/-- If the call is a write that moves the preset, the interval in force is
accepted for the new one. -/
def AdminState.MovesAbove (s : AdminState) (c : Call) (nowMs : UInt32) : Prop :=
  ∀ msg p, decodeAdminMessage c.payload = some msg → s.isAuthorized c.remotePk = true →
    s.sessionOk msg nowMs = true → presetMove s msg.payload = some p →
      intervalAccepted p s.deviceUpdateIntervalSecs = true

/-! ## One write -/

/-- What the floor is about. -/
def AdminState.pace (s : AdminState) : UInt8 × UInt32 := (s.modemPreset, s.deviceUpdateIntervalSecs)

theorem aboveFloor_of_pace {s t : AdminState} (h : t.pace = s.pace) (hs : s.AboveFloor) :
    t.AboveFloor := by
  have h1 : t.modemPreset = s.modemPreset := congrArg Prod.fst h
  have h2 : t.deviceUpdateIntervalSecs = s.deviceUpdateIntervalSecs := congrArg Prod.snd h
  unfold AdminState.AboveFloor
  rw [h1, h2]
  exact hs

theorem commitAdminKeys_pace (c : AdminState) : (commitAdminKeys c).pace = c.pace := by
  unfold commitAdminKeys; split <;> rfl

theorem commitRest_pace (c : AdminState) :
    (commitOwner (commitPosition (commitRole c))).pace = c.pace := by
  unfold commitOwner commitPosition commitRole
  split <;> split <;> split <;> rfl

theorem commitAdminKeys_interval (c : AdminState) :
    (commitAdminKeys c).bufferedDeviceUpdateIntervalSecs = c.bufferedDeviceUpdateIntervalSecs := by
  unfold commitAdminKeys; split <;> rfl

/-- The pace that a commit leaves behind. -/
theorem commitBuffers_pace {s : AdminState} {r : AdminState × Option UInt8}
    (h : commitBuffers s = some r) :
    ∃ preset, (s.bufferedLora = none ∧ preset = s.modemPreset ∨
        ∃ lora, s.bufferedLora = some lora ∧ loraRegionAccepted lora = true ∧
          preset = lora.modemPreset.toUInt8) ∧
      (s.bufferedDeviceUpdateIntervalSecs = none ∧ r.1.pace = (preset, s.deviceUpdateIntervalSecs) ∨
        ∃ secs, s.bufferedDeviceUpdateIntervalSecs = some secs ∧
          intervalAccepted preset secs = true ∧ r.1.pace = (preset, secs)) := by
  simp only [commitBuffers, Option.bind_eq_bind, Option.bind_eq_some_iff, Option.pure_def,
    Option.some.injEq] at h
  obtain ⟨⟨c, p⟩, hl, c', hi, rfl⟩ := h
  have hlora : c.deviceUpdateIntervalSecs = s.deviceUpdateIntervalSecs ∧
      c.bufferedDeviceUpdateIntervalSecs = s.bufferedDeviceUpdateIntervalSecs ∧
      (s.bufferedLora = none ∧ c.modemPreset = s.modemPreset ∨
        ∃ lora, s.bufferedLora = some lora ∧ loraRegionAccepted lora = true ∧
          c.modemPreset = lora.modemPreset.toUInt8) := by
    unfold commitLora applyLoraToState at hl
    cases hb : s.bufferedLora with
    | none =>
      simp only [hb, Option.some.injEq, Prod.mk.injEq] at hl
      rw [← hl.1]
      exact ⟨rfl, rfl, .inl ⟨rfl, rfl⟩⟩
    | some lora =>
      rw [hb] at hl
      simp only [Option.map_eq_some_iff, Option.ite_none_right_eq_some, Option.some.injEq,
        Prod.mk.injEq] at hl
      obtain ⟨q, ⟨hacc, rfl⟩, rfl, -⟩ := hl
      exact ⟨rfl, rfl, .inr ⟨lora, rfl, hacc, rfl⟩⟩
  obtain ⟨hsecs, hbuf, hpreset⟩ := hlora
  have hkeys := commitAdminKeys_pace c
  have hkeysBuf := commitAdminKeys_interval c
  refine ⟨c.modemPreset, hpreset, ?_⟩
  rw [← hbuf, ← hkeysBuf, commitRest_pace, ← hsecs]
  have hp : (commitAdminKeys c).modemPreset = c.modemPreset := congrArg Prod.fst hkeys
  have hs : (commitAdminKeys c).deviceUpdateIntervalSecs = c.deviceUpdateIntervalSecs :=
    congrArg Prod.snd hkeys
  unfold commitInterval applyDeviceUpdateInterval at hi
  cases hb : (commitAdminKeys c).bufferedDeviceUpdateIntervalSecs with
  | none =>
    simp only [hb, Option.some.injEq] at hi
    rw [← hi, hkeys]
    exact .inl ⟨rfl, rfl⟩
  | some secs =>
    simp only [hb, Option.ite_none_right_eq_some, Option.some.injEq] at hi
    obtain ⟨hacc, rfl⟩ := hi
    rw [hp] at hacc
    exact .inr ⟨secs, rfl, hacc, by rw [AdminState.pace]; exact congrArg (·, secs) hp⟩

/-- A commit that is refused would not have moved the preset alone. -/
theorem presetMove_of_refused {s : AdminState} (h : commitBuffers s = none) :
    presetMove s .commitEditSettings = none := by
  cases hl : s.bufferedLora with
  | none => simp [presetMove, hl]
  | some lora =>
    cases hi : s.bufferedDeviceUpdateIntervalSecs with
    | some secs => simp [presetMove, hl, hi]
    | none =>
      cases hok : loraRegionAccepted lora with
      | false => simp [presetMove, hl, hi, hok]
      | true =>
        -- with the preset accepted and no interval, both fallible steps succeed
        have hlora : commitLora s = some (writeLora { s with bufferedLora := none } lora,
            some lora.modemPreset.toUInt8) := by
          simp [commitLora, hl, applyLoraToState, hok]
        have hnone := (commitAdminKeys_interval (writeLora { s with bufferedLora := none } lora)).trans hi
        have hinterval : commitInterval (commitAdminKeys (writeLora { s with bufferedLora := none } lora)) =
            some (commitAdminKeys (writeLora { s with bufferedLora := none } lora)) := by
          unfold commitInterval
          rw [hnone]
        simp [commitBuffers, hlora, hinterval] at h

theorem aboveFloor_iff {s : AdminState} {preset : UInt8} {secs : UInt32}
    (h : s.pace = (preset, secs)) : s.AboveFloor ↔ intervalAccepted preset secs = true := by
  have h1 : s.modemPreset = preset := congrArg Prod.fst h
  have h2 : s.deviceUpdateIntervalSecs = secs := congrArg Prod.snd h
  rw [AdminState.AboveFloor, h1, h2]

theorem commitEditSettings_floor {s : AdminState} (hs : s.AboveFloor) :
    (commitEditSettings s).1.AboveFloor ↔
      ∀ p, presetMove s .commitEditSettings = some p →
        intervalAccepted p s.deviceUpdateIntervalSecs = true := by
  unfold commitEditSettings
  cases h : commitBuffers s with
  | none =>
    rw [presetMove_of_refused h]
    exact iff_of_true hs (by simp)
  | some r =>
    change r.1.AboveFloor ↔ _
    obtain ⟨preset, hpreset, hsecs⟩ := commitBuffers_pace h
    rcases hsecs with ⟨hi, hpace⟩ | ⟨secs, hi, hacc, hpace⟩
    · rw [aboveFloor_iff hpace]
      rcases hpreset with ⟨hl, rfl⟩ | ⟨lora, hl, hok, rfl⟩
      · exact iff_of_true hs (by simp [presetMove, hl])
      · simp [presetMove, hl, hi, hok]
    · refine iff_of_true ((aboveFloor_iff hpace).mpr hacc) ?_
      simp [presetMove, hi]

theorem setConfig_floor {s : AdminState} (hs : s.AboveFloor) (config : ConfigPayload) :
    (setConfig s config).1.AboveFloor ↔
      ∀ p, presetMove s (.setConfig config) = some p →
        intervalAccepted p s.deviceUpdateIntervalSecs = true := by
  have hsame : ∀ t : AdminState, t.pace = s.pace → ∀ P : Prop, P → (t.AboveFloor ↔ P) :=
    fun t ht P hP => iff_of_true (aboveFloor_of_pace ht hs) hP
  cases config with
  | lora lora =>
    cases he : s.editing with
    | true =>
      refine hsame _ ?_ _ (by simp [presetMove, he])
      simp only [setConfig, he, if_true]
      split <;> rfl
    | false =>
      cases hok : loraRegionAccepted lora with
      | false =>
        refine hsame _ ?_ _ (by simp [presetMove, hok])
        simp [setConfig, he, applyLoraToState, hok, badRequest]
      | true =>
        have hpace : (setConfig s (.lora lora)).1.pace =
            (lora.modemPreset.toUInt8, s.deviceUpdateIntervalSecs) := by
          simp [setConfig, he, applyLoraToState, hok, writeLora, AdminState.pace]
        rw [aboveFloor_iff hpace]
        simp [presetMove, he, hok]
  | security sec =>
    refine hsame _ ?_ _ (by simp [presetMove])
    simp only [setConfig]
    split <;> rfl
  | position pos =>
    refine hsame _ ?_ _ (by simp [presetMove])
    simp only [setConfig]
    split <;> rfl
  | device dev =>
    refine hsame _ ?_ _ (by simp [presetMove])
    simp only [setConfig]
    split
    · rfl
    · split <;> rfl
  | sessionkey => exact hsame _ rfl _ (by simp [presetMove])
  | empty => exact hsame _ rfl _ (by simp [presetMove])

theorem setModuleConfig_floor {s : AdminState} (hs : s.AboveFloor) (config : ModuleConfigPayload) :
    (setModuleConfig s config).1.AboveFloor := by
  cases config with
  | telemetry tel =>
    simp only [setModuleConfig]
    split
    · split <;> exact hs
    · split
      · rename_i t ht
        simp only [applyDeviceUpdateInterval, Option.ite_none_right_eq_some, Option.some.injEq] at ht
        obtain ⟨hacc, rfl⟩ := ht
        exact hacc
      · exact hs
  | empty => exact hs

/-- A write keeps the floor exactly if the preset it moves to accepts the
interval. -/
theorem write_floor {s : AdminState} {p : AdminPayload} {r : AdminState × AdminOutcome}
    (h : write s p = some r) (hs : s.AboveFloor) :
    r.1.AboveFloor ↔
      ∀ q, presetMove s p = some q → intervalAccepted q s.deviceUpdateIntervalSecs = true := by
  have hsame : ∀ t : AdminState, t.pace = s.pace → ∀ P : Prop, P → (t.AboveFloor ↔ P) :=
    fun t ht P hP => iff_of_true (aboveFloor_of_pace ht hs) hP
  unfold write at h
  split at h <;> cases h
  · exact hsame _ rfl _ (by simp [presetMove])
  · exact commitEditSettings_floor hs
  · exact setConfig_floor hs _
  · exact iff_of_true (setModuleConfig_floor hs _) (by simp [presetMove])
  · refine hsame _ ?_ _ (by simp [presetMove])
    unfold setFixedPosition
    split
    · rfl
    · split <;> rfl
  · exact hsame _ rfl _ (by simp [presetMove])
  · refine hsame _ ?_ _ (by simp [presetMove])
    unfold setOwner
    split
    · rfl
    · split <;> rfl
  · exact hsame _ rfl _ (by simp [presetMove])

/-! ## Calls and runs -/

/-- Reads move nothing, and neither do payloads that are no write. -/
theorem presetMove_of_not_write {s : AdminState} {p : AdminPayload} (h : write s p = none) :
    presetMove s p = none := by
  cases p with
  | setConfig _ | commitEditSettings => simp only [write, reduceCtorEq] at h
  | _ => simp only [presetMove]

theorem readReply_not_write {s : AdminState} {c : Call} {p reply : AdminPayload}
    (h : readReply s c p = some reply) : write s p = none := by
  cases p with
  | getChannelRequest _ | getOwnerRequest | getDeviceMetadataRequest | getModuleConfigRequest _
  | getConfigRequest _ => rfl
  | _ => cases h

theorem handleAdmin_floor (sha256 : Bytes → Vector UInt8 32) {s : AdminState} (hs : s.AboveFloor)
    (c : Call) (nowMs : UInt32) :
    (handleAdmin sha256 s c nowMs).1.AboveFloor ↔ s.MovesAbove c nowMs := by
  unfold handleAdmin AdminState.MovesAbove
  cases hd : decodeAdminMessage c.payload with
  | none => exact iff_of_true hs (by simp)
  | some msg =>
    have hstill : write s msg.payload = none → ∀ msg' p, some msg = some msg' →
        s.isAuthorized c.remotePk = true → s.sessionOk msg' nowMs = true →
        presetMove s msg'.payload = some p →
        intervalAccepted p s.deviceUpdateIntervalSecs = true := by
      intro hw msg' p hmsg' _ _ hmove
      cases hmsg'
      rw [presetMove_of_not_write hw] at hmove
      cases hmove
    dsimp only
    cases ha : s.isAuthorized c.remotePk with
    | false => exact iff_of_true hs (by simp)
    | true =>
      cases hp : readReply s c msg.payload with
      | some reply => exact iff_of_true hs (ha ▸ hstill (readReply_not_write hp))
      | none =>
        cases hw : write s msg.payload with
        | none => exact iff_of_true hs (ha ▸ hstill hw)
        | some r =>
          cases hok : s.sessionOk msg nowMs with
          | false =>
            refine iff_of_true hs ?_
            intro msg' p hmsg' _ hok'
            cases hmsg'
            rw [hok] at hok'
            cases hok'
          | true =>
            refine (write_floor hw hs).trans ⟨fun h msg' p hmsg' _ _ hmove => ?_,
              fun h p hmove => h msg p rfl rfl hok hmove⟩
            cases hmsg'
            exact h p hmove

section Runs

variable (sha256 : Bytes → Vector UInt8 32)

/-- The state after a sequence of calls, each with its clock. -/
def afterCalls (s : AdminState) (calls : List (Call × UInt32)) : AdminState :=
  calls.foldl (fun s l => (handleAdmin sha256 s l.1 l.2).1) s

/-- Every state on the way is above the floor exactly if the first one is and
no call moves the preset below it. -/
theorem aboveFloor_run_iff (s : AdminState) (calls : List (Call × UInt32)) :
    (∀ pre post, calls = pre ++ post → (afterCalls sha256 s pre).AboveFloor) ↔
      s.AboveFloor ∧ ∀ pre c nowMs post, calls = pre ++ (c, nowMs) :: post →
        (afterCalls sha256 s pre).MovesAbove c nowMs := by
  induction calls generalizing s with
  | nil =>
    constructor
    · intro h
      exact ⟨h [] [] rfl, fun pre c n post heq => absurd heq (by simp)⟩
    · rintro ⟨hs, _⟩ pre post heq
      obtain ⟨rfl, rfl⟩ := List.append_eq_nil_iff.mp heq.symm
      exact hs
  | cons l calls ih =>
    have hrest := ih (handleAdmin sha256 s l.1 l.2).1
    constructor
    · intro h
      have hs : s.AboveFloor := h [] _ rfl
      obtain ⟨hnext, hmoves⟩ := hrest.mp fun pre post heq => h (l :: pre) post (by rw [heq]; rfl)
      refine ⟨hs, fun pre c n post heq => ?_⟩
      cases pre with
      | nil =>
        cases heq
        exact (handleAdmin_floor sha256 hs c n).mp hnext
      | cons l' pre =>
        obtain ⟨rfl, hcalls⟩ := List.cons.inj heq
        exact hmoves pre c n post hcalls
    · rintro ⟨hs, hmoves⟩ pre post heq
      cases pre with
      | nil => exact hs
      | cons l' pre =>
        obtain ⟨rfl, hcalls⟩ := List.cons.inj heq
        have hnext := (handleAdmin_floor sha256 hs l.1 l.2).mpr (hmoves [] l.1 l.2 calls rfl)
        exact hrest.mpr ⟨hnext, fun pre c n post heq => hmoves (l :: pre) c n post (by rw [heq]; rfl)⟩
          pre post hcalls

/-- From an imported configuration, the interval stays 0 or at or above the
floor of the preset in force exactly if it is accepted for the preset that it
is normalised to, and for each preset that an accepted write moves to. -/
theorem floor_kept_iff (s₀ : AdminState) (cfg : NodeConfig) (calls : List (Call × UInt32)) :
    (∀ pre post, calls = pre ++ post →
        (afterCalls sha256 (s₀.importNodeConfig cfg) pre).AboveFloor) ↔
      intervalAccepted (normalizeModemPreset cfg.lora.modemPreset) cfg.deviceUpdateIntervalSecs ∧
        ∀ pre c nowMs post, calls = pre ++ (c, nowMs) :: post →
          (afterCalls sha256 (s₀.importNodeConfig cfg) pre).MovesAbove c nowMs :=
  aboveFloor_run_iff sha256 (s₀.importNodeConfig cfg) calls

end Runs

/-- A node under SHORT_TURBO with the shortest interval allowed there. -/
def briskConfig : NodeConfig :=
  { NodeConfig.firstBoot 1 (padded 32 []) (padded 32 []) with
    lora := LoRaConfig.eu868Default.applyModemPreset MODEM_SHORT_TURBO
    deviceUpdateIntervalSecs := 3 }

/-- `set_config` with the preset LONG_SLOW. -/
def setLongSlowCall : Call :=
  sessionCall [0x92, 0x02, 0x0A, 0x32, 0x08, 0x08, 0x01, 0x10, 0x01, 0x38, 0x03, 0x40, 0x03]

/-- The preset is set, and the interval stays below its floor. -/
theorem preset_sinks_interval :
    intervalAccepted briskConfig.lora.modemPreset briskConfig.deviceUpdateIntervalSecs = true ∧
      (handleAdmin (fun _ => sampleDigest)
        (handleAdmin (fun _ => sampleDigest) (AdminState.new.importNodeConfig briskConfig)
          getOwnerCall 0).1 setLongSlowCall 1000).2.routingOk = true ∧
      ¬ (afterCalls (fun _ => sampleDigest) (AdminState.new.importNodeConfig briskConfig)
        [(getOwnerCall, 0), (setLongSlowCall, 1000)]).AboveFloor := by
  refine ⟨by decide +kernel, by decide +kernel, ?_⟩
  unfold AdminState.AboveFloor
  decide +kernel

end Meshrustic.Admin
