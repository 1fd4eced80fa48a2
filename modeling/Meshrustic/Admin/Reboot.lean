import Meshrustic.Admin.Edit
import Meshrustic.Admin.Floor
import Meshrustic.Store.Migration

/-!
# Settings over a reboot

The settings leave a node by `export_to_node_config`, are stored as a record and
come back by `import_node_config` into a fresh state. Each of the four maps on
this way clamps some fields: the import caps the hop limit, the transmit power
and the lengths of the names and replaces an unknown role, the export sanitises
the role, and the record repairs the preset and pads the names. Nothing is
clamped when the state is `Storable`, and no call leads out of that.

Results:
* `handleAdmin_storable`: every call keeps a state storable;
* `settings_survive_reboot`: a state that was reached comes back as it was.
-/
namespace Meshrustic.Admin

open Meshrustic.Store Meshrustic.Radio

/-- mirrors crates/mesh-routing/src/admin.rs:148-172 -/
def AdminState.exportToNodeConfig (s : AdminState) (cfg : NodeConfig) : NodeConfig :=
  let shortLen := min s.shortNameLen.toNat OWNER_SHORT_NAME_MAX
  let longLen := min s.longNameLen.toNat OWNER_LONG_NAME_MAX
  { cfg with
    adminPublicKeys := s.adminPublicKeys
    lora := { cfg.lora.applyModemPreset s.modemPreset with
      usePreset := s.usePreset
      hopLimit := s.hopLimit
      txPowerDbm := s.txPowerDbm
      okToMqtt := s.okToMqtt }
    privateKey := s.privateKey
    publicKey := s.publicKey
    deviceUpdateIntervalSecs := s.deviceUpdateIntervalSecs
    deviceRole := (sanitizeDeviceRole s.deviceRole).toUInt8
    positionBroadcastSecs := s.positionBroadcastSecs
    fixedPosition := s.fixedPosition
    latitudeI := s.latitudeI
    longitudeI := s.longitudeI
    hasFixedCoords := s.hasFixedCoords
    shortName := padded _ (s.shortName.toList.take shortLen)
    shortNameLen := UInt8.ofNat shortLen
    longName := padded _ (s.longName.toList.take longLen)
    longNameLen := UInt8.ofNat longLen }

/-! ## States that are stored as they are -/

/-- A name of at most `n` bytes, with zeros behind it. -/
def NamePadded {n : Nat} (name : Vector UInt8 n × UInt8) : Prop :=
  name.2.toNat ≤ n ∧ ∀ i, name.2.toNat ≤ i → i < n → name.1.toList.getD i 0 = 0

structure Settings.Storable (c : Settings) : Prop where
  preset : isValidModemPreset c.modemPreset = true
  hopLimit : c.hopLimit ≤ MAX_HOP_LIMIT
  txPower : c.txPowerDbm ≤ MAX_TX_POWER_DBM
  role : isKnownDeviceRole c.deviceRole = true
  shortName : NamePadded c.shortName
  longName : NamePadded c.longName

/-- What a commit will set without another check. -/
structure Buffers.Storable (b : Buffers) : Prop where
  role : ∀ role, b.role = some role → isKnownDeviceRole role = true
  shortName : ∀ owner, b.owner = some owner → NamePadded (owner.shortName, owner.shortNameLen)
  longName : ∀ owner, b.owner = some owner → NamePadded (owner.longName, owner.longNameLen)

structure AdminState.Storable (s : AdminState) : Prop where
  settings : s.settings.Storable
  buffers : s.buffers.Storable

theorem namePadded_padded {n : Nat} (hn : n < 256) (bs : Bytes) :
    NamePadded (padded n (bs.take n), UInt8.ofNat (min bs.length n)) := by
  have hlen : (UInt8.ofNat (min bs.length n)).toNat = min bs.length n := by
    rw [UInt8.toNat_ofNat', Nat.mod_eq_of_lt (by omega)]
  refine ⟨by rw [hlen]; exact Nat.min_le_right _ _, fun i hi hin => padded_zero ?_ hin⟩
  rw [List.length_take, Nat.min_comm]
  exact hlen ▸ hi

theorem namePadded_mergeName {n : Nat} (hn : n < 256) {raw : Bytes} {current : Vector UInt8 n × UInt8}
    (h : NamePadded current) : NamePadded (mergeName raw current) := by
  unfold mergeName
  split
  · exact h
  · exact namePadded_padded hn raw

/-! ## Updates -/

section Updates

variable {c : Settings} {b : Buffers}

theorem Settings.Storable.withLora {lora : WireLoRaConfig} (h : c.Storable)
    (hacc : loraRegionAccepted lora = true) : (c.withLora lora).Storable := by
  simp only [loraRegionAccepted, Bool.and_eq_true, decide_eq_true_eq] at hacc
  obtain ⟨⟨⟨-, -, hpreset⟩, hhops⟩, -⟩ := hacc
  refine { h with preset := hpreset, hopLimit := ?_, txPower := ?_ }
  · change lora.hopLimit.toUInt8 ≤ MAX_HOP_LIMIT
    have hle := UInt32.le_iff_toNat_le.mp hhops
    rw [UInt8.le_iff_toNat_le, UInt32.toNat_toUInt8]
    exact Nat.le_trans (Nat.mod_le _ _) hle
  · change (if _ then _ else _) ≤ MAX_TX_POWER_DBM
    split
    · exact UInt8.le_refl _
    · exact Std.min_le_right

theorem Settings.Storable.withPosition (h : c.Storable) (pos : WirePositionConfig) :
    (c.withPosition pos).Storable := { h with }

theorem Settings.Storable.withOwner {names : OwnerNames} (h : c.Storable)
    (hshort : NamePadded (names.shortName, names.shortNameLen))
    (hlong : NamePadded (names.longName, names.longNameLen)) : (c.withOwner names).Storable :=
  { h with shortName := hshort, longName := hlong }

theorem mergeOwnerUpdate_padded {s : AdminState} {identity : NodeInfoIdentity} {merged : OwnerNames}
    (h : s.settings.Storable) (hm : mergeOwnerUpdate identity (ownerNamesFromState s) = some merged) :
    NamePadded (merged.shortName, merged.shortNameLen) ∧
      NamePadded (merged.longName, merged.longNameLen) := by
  rw [mergeOwnerUpdate_settings hm]
  exact ⟨namePadded_mergeName (by decide) h.shortName, namePadded_mergeName (by decide) h.longName⟩

/-- A commit of buffers whose radio settings are accepted. -/
theorem Buffers.Storable.applyTo (hb : b.Storable) (h : c.Storable)
    (hlora : ∀ lora, b.lora = some lora → loraRegionAccepted lora = true) :
    (b.applyTo c).Storable := by
  obtain ⟨lora, keys, interval, role, position, owner⟩ := b
  have hlora' : (lora.elim c c.withLora).Storable := by
    cases lora with
    | none => exact h
    | some lora => exact h.withLora (hlora lora rfl)
  have hrole : ∀ c : Settings, c.Storable → Settings.Storable { c with
      adminPublicKeys := keys.getD c.adminPublicKeys
      deviceUpdateIntervalSecs := interval.getD c.deviceUpdateIntervalSecs
      deviceRole := role.getD c.deviceRole } := by
    intro c hc
    refine { hc with role := ?_ }
    cases role with
    | none => exact hc.role
    | some role => exact hb.role role rfl
  have hposition : ∀ c : Settings, c.Storable → (position.elim c c.withPosition).Storable := by
    intro c hc
    cases position with
    | none => exact hc
    | some pos => exact hc.withPosition pos
  have howner : ∀ c : Settings, c.Storable → (owner.elim c c.withOwner).Storable := by
    intro c hc
    cases owner with
    | none => exact hc
    | some names => exact hc.withOwner (hb.shortName names rfl) (hb.longName names rfl)
  exact howner _ (hposition _ (hrole _ hlora'))

end Updates

/-! ## One call -/

section Calls

variable {s : AdminState}

theorem commitLora_accepted {r : AdminState × Option UInt8} (h : commitLora s = some r) :
    ∀ lora, s.bufferedLora = some lora → loraRegionAccepted lora = true := by
  intro lora hb
  unfold commitLora applyLoraToState at h
  rw [hb] at h
  simp only [Option.map_eq_some_iff, Option.ite_none_right_eq_some] at h
  obtain ⟨-, ⟨hacc, -⟩, -⟩ := h
  exact hacc

/-- The commit leaves no role and no names in the buffers. -/
theorem commitRest_buffers (c : AdminState) :
    (commitOwner (commitPosition (commitRole c))).buffers.role = none ∧
      (commitOwner (commitPosition (commitRole c))).buffers.owner = none := by
  have howner : ∀ c : AdminState, (commitOwner c).buffers.owner = none ∧
      (commitOwner c).buffers.role = c.buffers.role := by
    intro c
    unfold commitOwner
    cases h : c.bufferedOwner with
    | none => exact ⟨h, rfl⟩
    | some owner => exact ⟨rfl, rfl⟩
  refine ⟨?_, (howner _).1⟩
  rw [(howner _).2, (commitPosition_view _).2, (commitRole_view c).2]

theorem commitEditSettings_storable (h : s.Storable) : (commitEditSettings s).1.Storable := by
  unfold commitEditSettings
  cases hc : commitBuffers s with
  | none => exact h
  | some r =>
    have hview := commitBuffers_view hc
    simp only [commitBuffers, Option.bind_eq_bind, Option.bind_eq_some_iff, Option.pure_def,
      Option.some.injEq] at hc
    obtain ⟨l, hl, c, -, rfl⟩ := hc
    have happly := h.buffers.applyTo h.settings (commitLora_accepted hl)
    obtain ⟨hrole, howner⟩ := commitRest_buffers c
    constructor
    · rw [← hview] at happly
      exact happly
    · refine ⟨fun role hr => ?_, fun owner ho => ?_, fun owner ho => ?_⟩
      · exact absurd (hrole.symm.trans hr) (by simp)
      · exact absurd (howner.symm.trans ho) (by simp)
      · exact absurd (howner.symm.trans ho) (by simp)

theorem setConfig_storable (h : s.Storable) (config : ConfigPayload) :
    (setConfig s config).1.Storable := by
  cases config with
  | lora lora =>
    simp only [setConfig, applyLoraToState]
    cases hacc : loraRegionAccepted lora with
    | false => cases s.editing <;> exact h
    | true =>
      cases s.editing with
      | true => exact ⟨h.settings, { h.buffers with }⟩
      | false => exact ⟨h.settings.withLora hacc, h.buffers⟩
  | security sec =>
    simp only [setConfig]
    cases s.editing with
    | true => exact ⟨h.settings, { h.buffers with }⟩
    | false => exact ⟨{ h.settings with }, h.buffers⟩
  | position pos =>
    simp only [setConfig]
    cases s.editing with
    | true => exact ⟨h.settings, { h.buffers with }⟩
    | false => exact ⟨h.settings.withPosition pos, h.buffers⟩
  | device dev =>
    simp only [setConfig]
    cases hk : isKnownDeviceRole dev.role with
    | false => exact h
    | true =>
      cases s.editing with
      | true => exact ⟨h.settings, { h.buffers with role := fun role hr => Option.some.inj hr ▸ hk }⟩
      | false => exact ⟨{ h.settings with role := hk }, h.buffers⟩
  | sessionkey => exact h
  | empty => exact h

theorem setModuleConfig_storable (h : s.Storable) (config : ModuleConfigPayload) :
    (setModuleConfig s config).1.Storable := by
  cases config with
  | telemetry tel =>
    simp only [setModuleConfig, applyDeviceUpdateInterval]
    cases intervalAccepted s.modemPreset tel.deviceUpdateInterval with
    | false => cases s.editing <;> exact h
    | true =>
      cases s.editing with
      | true => exact ⟨h.settings, { h.buffers with }⟩
      | false => exact ⟨{ h.settings with }, h.buffers⟩
  | empty => exact h

theorem setFixedPosition_storable (h : s.Storable) (pos : WireFixedPosition) :
    (setFixedPosition s pos).1.Storable := by
  unfold setFixedPosition
  split
  · exact h
  · split
    · exact h
    · exact ⟨{ h.settings with }, h.buffers⟩

theorem setOwner_storable (h : s.Storable) (owner : NodeInfoIdentity) :
    (setOwner s owner).1.Storable := by
  unfold setOwner
  cases hm : mergeOwnerUpdate owner (ownerNamesFromState s) with
  | none => exact h
  | some merged =>
    obtain ⟨hshort, hlong⟩ := mergeOwnerUpdate_padded h.settings hm
    cases s.editing with
    | true =>
      exact ⟨h.settings, { h.buffers with
        shortName := fun names hn => Option.some.inj hn ▸ hshort
        longName := fun names hn => Option.some.inj hn ▸ hlong }⟩
    | false => exact ⟨h.settings.withOwner hshort hlong, h.buffers⟩

theorem write_storable {p : AdminPayload} {r : AdminState × AdminOutcome} (hw : write s p = some r)
    (h : s.Storable) : r.1.Storable := by
  unfold write at hw
  split at hw <;> cases hw
  · exact ⟨h.settings, ⟨fun _ hr => (by cases hr), fun _ ho => (by cases ho), fun _ ho => (by cases ho)⟩⟩
  · exact commitEditSettings_storable h
  · exact setConfig_storable h _
  · exact setModuleConfig_storable h _
  · exact setFixedPosition_storable h _
  · exact ⟨{ h.settings with }, h.buffers⟩
  · exact setOwner_storable h _
  · exact ⟨h.settings, h.buffers⟩

theorem handleAdmin_storable (sha256 : Bytes → Vector UInt8 32) (h : s.Storable) (c : Call)
    (nowMs : UInt32) : (handleAdmin sha256 s c nowMs).1.Storable := by
  have heff := handleAdmin_spec sha256 s c nowMs
  generalize handleAdmin sha256 s c nowMs = r at heff
  cases heff with
  | refused o hr ho => exact h
  | session msg reply hd ha hp => exact ⟨h.settings, h.buffers⟩
  | write msg r hd ha hs hw => exact write_storable hw h

end Calls

/-! ## Runs -/

theorem new_storable : AdminState.new.Storable where
  settings :=
    { preset := rfl
      hopLimit := by decide
      txPower := by decide
      role := rfl
      shortName := ⟨Nat.zero_le _, fun _ _ hi => padded_zero (Nat.zero_le _) hi⟩
      longName := ⟨Nat.zero_le _, fun _ _ hi => padded_zero (Nat.zero_le _) hi⟩ }
  buffers := ⟨fun _ hr => (by cases hr), fun _ ho => (by cases ho), fun _ ho => (by cases ho)⟩

theorem isKnown_sanitize (role : UInt32) : isKnownDeviceRole (sanitizeDeviceRole role) = true := by
  unfold sanitizeDeviceRole
  split
  · assumption
  · rfl

theorem min_toNat {a b : UInt8} (h : a.toNat ≤ b.toNat) : min a b = a := by
  rw [Std.min_eq_if, if_pos (UInt8.le_iff_toNat_le.mpr h)]

/-- A configuration with padded names is imported into a storable state. -/
theorem import_storable {s : AdminState} {cfg : NodeConfig} (h : s.Storable) (hcfg : Canonical cfg) :
    (s.importNodeConfig cfg).Storable := by
  have hshort : min cfg.shortNameLen (UInt8.ofNat OWNER_SHORT_NAME_MAX) = cfg.shortNameLen :=
    min_toNat hcfg.shortLen
  have hlong : min cfg.longNameLen (UInt8.ofNat OWNER_LONG_NAME_MAX) = cfg.longNameLen :=
    min_toNat hcfg.longLen
  refine ⟨?_, h.buffers⟩
  exact
    { preset := isValid_normalize _
      hopLimit := Std.min_le_right
      txPower := Std.min_le_right
      role := isKnown_sanitize _
      shortName := by
        change NamePadded (cfg.shortName, min cfg.shortNameLen (UInt8.ofNat OWNER_SHORT_NAME_MAX))
        rw [hshort]
        exact ⟨hcfg.shortLen, hcfg.shortPad⟩
      longName := by
        change NamePadded (cfg.longName, min cfg.longNameLen (UInt8.ofNat OWNER_LONG_NAME_MAX))
        rw [hlong]
        exact ⟨hcfg.longLen, hcfg.longPad⟩ }

/-- A node boots with the settings of a decoded record, is configured by calls,
and may load a record again. -/
inductive Booted (sha256 : Bytes → Vector UInt8 32) : AdminState → Prop where
  | new : Booted sha256 .new
  | load {s : AdminState} {b : Bytes} {cfg : NodeConfig} (h : Booted sha256 s)
      (hd : decode b = .ok cfg) : Booted sha256 (s.importNodeConfig cfg)
  | call {s : AdminState} (h : Booted sha256 s) (c : Call) (nowMs : UInt32) :
      Booted sha256 (handleAdmin sha256 s c nowMs).1

theorem Booted.storable {sha256 : Bytes → Vector UInt8 32} {s : AdminState} (h : Booted sha256 s) :
    s.Storable := by
  induction h with
  | new => exact new_storable
  | load _ hd ih => exact import_storable ih (decode_read hd).1.canonical
  | call _ c nowMs ih => exact handleAdmin_storable sha256 ih c nowMs

/-! ## The way out and back -/

theorem sanitize_toUInt8 {role : UInt32} (h : isKnownDeviceRole role = true) :
    sanitizeDeviceRole (sanitizeDeviceRole role).toUInt8.toUInt32 = role := by
  have hsame : sanitizeDeviceRole role = role := if_pos h
  have hle : role.toNat ≤ 12 := by
    unfold isKnownDeviceRole at h
    exact UInt32.le_iff_toNat_le.mp (by simpa using h)
  have hcast : role.toUInt8.toUInt32 = role := by
    apply UInt32.toNat_inj.mp
    rw [UInt8.toNat_toUInt32, UInt32.toNat_toUInt8]
    omega
  rw [hsame, hcast, hsame]

/-- A padded name is the same after it was cut to its length and padded, twice. -/
theorem NamePadded.stored {n : Nat} {name : Vector UInt8 n × UInt8} (h : NamePadded name) :
    padded n (name.1.toList.take (min name.2.toNat n)) = name.1 ∧
      UInt8.ofNat (min name.2.toNat n) = name.2 := by
  rw [Nat.min_eq_left h.1]
  exact ⟨padded_eq_self h.2, UInt8.ofNat_toNat⟩

theorem export_encodes (s : AdminState) (c : NodeConfig) {out : Bytes}
    (hout : STORE_RECORD_LEN ≤ out.length) :
    ∃ r, encode (s.exportToNodeConfig c) out = .ok r ∧
      decode r = .ok (s.exportToNodeConfig c).normalized := by
  have hfreq : frequencyOk (s.exportToNodeConfig c).lora.frequencyMhz = true := by
    change frequencyOk EU_868_DEFAULT_FREQ_MHZ = true
    decide
  have henc : encode (s.exportToNodeConfig c) out =
      .ok (withCrc (recordBody (s.exportToNodeConfig c) out.length)) := by
    unfold encode
    rw [if_neg (Nat.not_lt.mpr hout), hfreq]
    rfl
  exact ⟨_, henc, decode_encode henc⟩

/-- Nothing is clamped on the way of a storable state. -/
theorem import_export {s : AdminState} (h : s.Storable) (s₀ : AdminState) (c : NodeConfig) :
    (s₀.importNodeConfig (s.exportToNodeConfig c).normalized).settings = s.settings := by
  have hpreset : normalizeModemPreset s.modemPreset = s.modemPreset :=
    normalize_of_valid h.settings.preset
  have hhops : min s.hopLimit MAX_HOP_LIMIT = s.hopLimit :=
    min_toNat (UInt8.le_iff_toNat_le.mp h.settings.hopLimit)
  have hpower : min s.txPowerDbm MAX_TX_POWER_DBM = s.txPowerDbm :=
    min_toNat (UInt8.le_iff_toNat_le.mp h.settings.txPower)
  have hrole : sanitizeDeviceRole (sanitizeDeviceRole s.deviceRole).toUInt8.toUInt32 = s.deviceRole :=
    sanitize_toUInt8 h.settings.role
  have hshort : min s.shortNameLen (UInt8.ofNat OWNER_SHORT_NAME_MAX) = s.shortNameLen :=
    min_toNat h.settings.shortName.1
  have hlong : min s.longNameLen (UInt8.ofNat OWNER_LONG_NAME_MAX) = s.longNameLen :=
    min_toNat h.settings.longName.1
  have hshortStored : padded OWNER_SHORT_NAME_MAX
        (s.shortName.toList.take (min s.shortNameLen.toNat OWNER_SHORT_NAME_MAX)) = s.shortName ∧
      UInt8.ofNat (min s.shortNameLen.toNat OWNER_SHORT_NAME_MAX) = s.shortNameLen :=
    h.settings.shortName.stored
  have hlongStored : padded OWNER_LONG_NAME_MAX
        (s.longName.toList.take (min s.longNameLen.toNat OWNER_LONG_NAME_MAX)) = s.longName ∧
      UInt8.ofNat (min s.longNameLen.toNat OWNER_LONG_NAME_MAX) = s.longNameLen :=
    h.settings.longName.stored
  simp only [AdminState.settings, AdminState.importNodeConfig, NodeConfig.normalized,
    AdminState.exportToNodeConfig, LoRaConfig.applyModemPreset, LoRaConfig.effectiveHopLimit, hpreset,
    hhops, hpower, hrole, hshortStored.1, hshortStored.2, hlongStored.1, hlongStored.2, hshort, hlong]

/-- Whatever loads and calls have led to a state: after a reboot through a
record, written over any configuration, it has the same settings and keys. -/
theorem settings_survive_reboot (sha256 : Bytes → Vector UInt8 32) {s : AdminState}
    (h : Booted sha256 s) (c : NodeConfig) {out : Bytes} (hout : STORE_RECORD_LEN ≤ out.length) :
    ∃ r cfg, encode (s.exportToNodeConfig c) out = .ok r ∧ decode r = .ok cfg ∧
      (AdminState.new.importNodeConfig cfg).settings = s.settings ∧
      (AdminState.new.importNodeConfig cfg).privateKey = s.privateKey ∧
      (AdminState.new.importNodeConfig cfg).publicKey = s.publicKey := by
  obtain ⟨r, henc, hdec⟩ := export_encodes s c hout
  exact ⟨r, _, henc, hdec, import_export h.storable .new c, rfl, rfl⟩

/-- A node that was told a preset. -/
def toldLongSlow : AdminState :=
  afterCalls (fun _ => sampleDigest) .new [(getOwnerCall, 0), (setLongSlowCall, 1000)]

theorem preset_survives_reboot :
    toldLongSlow.modemPreset = MODEM_LONG_SLOW ∧
      ∃ r cfg, encode (toldLongSlow.exportToNodeConfig briskConfig) (List.replicate 304 0) = .ok r ∧
        decode r = .ok cfg ∧
        (AdminState.new.importNodeConfig cfg).settings = toldLongSlow.settings ∧
        (AdminState.new.importNodeConfig cfg).privateKey = toldLongSlow.privateKey ∧
        (AdminState.new.importNodeConfig cfg).publicKey = toldLongSlow.publicKey :=
  ⟨by decide +kernel, settings_survive_reboot (fun _ => sampleDigest)
    (.call (.call .new getOwnerCall 0) setLongSlowCall 1000) briskConfig
    (Nat.le_of_eq List.length_replicate.symm)⟩

end Meshrustic.Admin
