import Meshrustic.Admin.Session

/-!
# Edit transactions against direct application

A list of Set messages reaches the configuration in two ways: each message
directly, or between `begin_edit_settings` and `commit_edit_settings`. Both
are given here as functions on the configuration alone: `Settings.apply` is a
direct message; inside an edit a message goes to `Buffers.record` or, for the
fixed position, straight to the settings (`Settings.applyNow`), and
`Buffers.applyTo` is the commit. `handle_admin` refines them
(`accepted_direct`, `accepted_edit`).

The two ways do not always agree. Three things are lost or reordered by the
edit: a name that only an earlier `set_owner` of the edit carried, a fixed
position set or removed after a buffered position config, and the order of a
role change and a position config. `Agrees` is exactly their absence.

Results: `edit_eq_direct_iff`, and `edit_loses_name` for a transaction that
loses an accepted name.
-/
namespace Meshrustic.Admin

open Meshrustic.Store Meshrustic.Radio

/-- The messages that an edit may carry. -/
def AdminPayload.isSet : AdminPayload → Bool
  | .setConfig _ | .setModuleConfig _ | .setFixedPosition _ | .removeFixedPosition
  | .setOwner _ => true
  | _ => false

/-! ## Meaning on the configuration -/

namespace Settings

def withLora (c : Settings) (lora : WireLoRaConfig) : Settings :=
  { c with
    modemPreset := lora.modemPreset.toUInt8
    usePreset := true
    hopLimit := lora.hopLimit.toUInt8
    txPowerDbm :=
      if lora.txPower == 0 then MAX_TX_POWER_DBM
      else min lora.txPower.toUInt32.toUInt8 MAX_TX_POWER_DBM
    okToMqtt := lora.configOkToMqtt }

def withPosition (c : Settings) (pos : WirePositionConfig) : Settings :=
  { c with
    positionBroadcastSecs := coercePositionBroadcastSecs pos.positionBroadcastSecs c.deviceRole
    fixedPosition := pos.fixedPosition }

def withOwner (c : Settings) (names : OwnerNames) : Settings :=
  { c with
    shortName := (names.shortName, names.shortNameLen)
    longName := (names.longName, names.longNameLen) }

/-- What the fixed-position messages do; they are never buffered. -/
def applyNow (c : Settings) : AdminPayload → Settings
  | .setFixedPosition pos =>
    { c with
      latitudeI := pos.latitudeI, longitudeI := pos.longitudeI
      hasFixedCoords := true, fixedPosition := true }
  | .removeFixedPosition =>
    { c with latitudeI := 0, longitudeI := 0, hasFixedCoords := false, fixedPosition := false }
  | _ => c

/-- The names after an update that was accepted. -/
def mergedOwner (c : Settings) (identity : NodeInfoIdentity) : OwnerNames :=
  let short := mergeName identity.advert.shortRaw c.shortName
  let long := mergeName identity.advert.longRaw c.longName
  ⟨short.1, short.2, long.1, long.2, identity.advert.isLicensed⟩

/-- A message that is applied directly. -/
def apply (c : Settings) : AdminPayload → Settings
  | .setConfig (.lora lora) => c.withLora lora
  | .setConfig (.security sec) => { c with adminPublicKeys := securityKeysFromWire sec }
  | .setConfig (.position pos) => c.withPosition pos
  | .setConfig (.device dev) => { c with deviceRole := dev.role }
  | .setModuleConfig (.telemetry tel) =>
    { c with deviceUpdateIntervalSecs := tel.deviceUpdateInterval }
  | .setOwner identity => c.withOwner (c.mergedOwner identity)
  | p => c.applyNow p

end Settings

namespace Buffers

def empty : Buffers := ⟨none, none, none, none, none, none⟩

/-- A message inside an edit; `c` is the configuration it is merged against. -/
def record (b : Buffers) (c : Settings) : AdminPayload → Buffers
  | .setConfig (.lora lora) => { b with lora := some lora }
  | .setConfig (.security sec) => { b with adminKeys := some (securityKeysFromWire sec) }
  | .setConfig (.position pos) => { b with position := some pos }
  | .setConfig (.device dev) => { b with role := some dev.role }
  | .setModuleConfig (.telemetry tel) => { b with interval := some tel.deviceUpdateInterval }
  | .setOwner identity => { b with owner := some (c.mergedOwner identity) }
  | _ => b

/-- The commit: LoRa, keys, interval, role, position, names, in this order. -/
def applyTo (b : Buffers) (c : Settings) : Settings :=
  let c := b.lora.elim c c.withLora
  let c := { c with adminPublicKeys := b.adminKeys.getD c.adminPublicKeys }
  let c := { c with deviceUpdateIntervalSecs := b.interval.getD c.deviceUpdateIntervalSecs }
  let c := { c with deviceRole := b.role.getD c.deviceRole }
  let c := b.position.elim c c.withPosition
  b.owner.elim c c.withOwner

end Buffers

/-! ## The handler refines it -/

theorem mergeOwnerUpdate_settings {s : AdminState} {identity : NodeInfoIdentity}
    {merged : OwnerNames}
    (h : mergeOwnerUpdate identity (ownerNamesFromState s) = some merged) :
    merged = s.settings.mergedOwner identity := by
  simp only [mergeOwnerUpdate, Option.ite_none_left_eq_some, Option.some.injEq] at h
  exact h.2.2.symm

/-- A Set message that is accepted outside an edit. -/
theorem write_direct {s : AdminState} {p : AdminPayload} {r : AdminState × AdminOutcome}
    (he : s.editing = false) (hp : p.isSet = true) (hw : write s p = some r)
    (hok : r.2.routingOk = true) :
    r.1.editing = false ∧ r.1.settings = s.settings.apply p := by
  unfold write at hw
  split at hw <;> cases hw
  · cases hp
  · cases hp
  · rename_i config
    cases config with
    | lora lora =>
      simp only [setConfig, he, applyLoraToState] at hok ⊢
      cases hl : loraRegionAccepted lora with
      | false => simp [hl, badRequest] at hok
      | true => exact ⟨he, rfl⟩
    | security sec => simp only [setConfig, he]; exact ⟨rfl, rfl⟩
    | position pos => simp only [setConfig, he]; exact ⟨he, rfl⟩
    | device dev =>
      simp only [setConfig, he] at hok ⊢
      cases hk : isKnownDeviceRole dev.role with
      | false => simp [hk, badRequest] at hok
      | true => exact ⟨rfl, rfl⟩
    | sessionkey => exact ⟨he, rfl⟩
    | empty => exact ⟨he, rfl⟩
  · rename_i config
    cases config with
    | telemetry tel =>
      simp only [setModuleConfig, he, applyDeviceUpdateInterval] at hok ⊢
      cases hi : intervalAccepted s.modemPreset tel.deviceUpdateInterval with
      | false => simp [hi, badRequest] at hok
      | true => exact ⟨rfl, rfl⟩
    | empty => exact ⟨he, rfl⟩
  · unfold setFixedPosition at hok ⊢
    split at hok
    · cases hok
    · split at hok
      · cases hok
      · rename_i h1 h2
        rw [if_neg h1, if_neg h2]
        exact ⟨he, rfl⟩
  · exact ⟨he, rfl⟩
  · rename_i owner
    simp only [setOwner, he] at hok ⊢
    cases hm : mergeOwnerUpdate owner (ownerNamesFromState s) with
    | none => simp [hm, badRequest] at hok
    | some merged =>
      rw [mergeOwnerUpdate_settings hm]
      exact ⟨he, rfl⟩
  · cases hp

/-- A Set message that is accepted inside an edit. -/
theorem write_edit {s : AdminState} {p : AdminPayload} {r : AdminState × AdminOutcome}
    (he : s.editing = true) (hp : p.isSet = true) (hw : write s p = some r)
    (hok : r.2.routingOk = true) :
    r.1.editing = true ∧ r.1.settings = s.settings.applyNow p ∧
      r.1.buffers = s.buffers.record s.settings p := by
  unfold write at hw
  split at hw <;> cases hw
  · cases hp
  · cases hp
  · rename_i config
    cases config with
    | lora lora =>
      simp only [setConfig, he] at hok ⊢
      cases hl : loraRegionAccepted lora with
      | false => simp [hl, badRequest] at hok
      | true => exact ⟨rfl, rfl, rfl⟩
    | security sec => simp only [setConfig, he]; exact ⟨rfl, rfl, rfl⟩
    | position pos => simp only [setConfig, he]; exact ⟨rfl, rfl, rfl⟩
    | device dev =>
      simp only [setConfig, he] at hok ⊢
      cases hk : isKnownDeviceRole dev.role with
      | false => simp [hk, badRequest] at hok
      | true => exact ⟨rfl, rfl, rfl⟩
    | sessionkey => exact ⟨he, rfl, rfl⟩
    | empty => exact ⟨he, rfl, rfl⟩
  · rename_i config
    cases config with
    | telemetry tel =>
      simp only [setModuleConfig, he] at hok ⊢
      cases hi : intervalAccepted s.modemPreset tel.deviceUpdateInterval with
      | false => simp [hi, badRequest] at hok
      | true => exact ⟨rfl, rfl, rfl⟩
    | empty => exact ⟨he, rfl, rfl⟩
  · unfold setFixedPosition at hok ⊢
    split at hok
    · cases hok
    · split at hok
      · cases hok
      · rename_i h1 h2
        rw [if_neg h1, if_neg h2]
        exact ⟨he, rfl, rfl⟩
  · exact ⟨he, rfl, rfl⟩
  · rename_i owner
    simp only [setOwner, he] at hok ⊢
    cases hm : mergeOwnerUpdate owner (ownerNamesFromState s) with
    | none => simp [hm, badRequest] at hok
    | some merged =>
      rw [mergeOwnerUpdate_settings hm]
      exact ⟨rfl, rfl, rfl⟩
  · cases hp

/-! Each step of the commit consumes its own buffer. -/

theorem commitLora_view {c : AdminState} {r : AdminState × Option UInt8}
    (h : commitLora c = some r) :
    r.1.settings = c.buffers.lora.elim c.settings c.settings.withLora ∧
      r.1.buffers = { c.buffers with lora := none } := by
  unfold commitLora applyLoraToState at h
  cases hb : c.bufferedLora with
  | none =>
    simp only [hb, Option.some.injEq] at h
    subst h
    simp [AdminState.buffers, hb]
  | some lora =>
    rw [hb] at h
    simp only [Option.map_eq_some_iff, Option.ite_none_right_eq_some, Option.some.injEq] at h
    obtain ⟨q, ⟨-, rfl⟩, rfl⟩ := h
    simp only [AdminState.buffers, hb]
    exact ⟨rfl, rfl⟩

theorem commitInterval_view {c c' : AdminState} (h : commitInterval c = some c') :
    c'.settings = { c.settings with
        deviceUpdateIntervalSecs :=
          c.buffers.interval.getD c.settings.deviceUpdateIntervalSecs } ∧
      c'.buffers = { c.buffers with interval := none } := by
  unfold commitInterval applyDeviceUpdateInterval at h
  cases hb : c.bufferedDeviceUpdateIntervalSecs with
  | none =>
    simp only [hb, Option.some.injEq] at h
    subst h
    simp [AdminState.buffers, hb]
  | some secs =>
    simp only [hb, Option.ite_none_right_eq_some, Option.some.injEq] at h
    obtain ⟨-, rfl⟩ := h
    simp only [AdminState.buffers, hb]
    exact ⟨rfl, trivial⟩

theorem commitAdminKeys_view (c : AdminState) :
    (commitAdminKeys c).settings = { c.settings with
        adminPublicKeys := c.buffers.adminKeys.getD c.settings.adminPublicKeys } ∧
      (commitAdminKeys c).buffers = { c.buffers with adminKeys := none } := by
  unfold commitAdminKeys
  split <;> rename_i h <;> simp [AdminState.settings, AdminState.buffers, h]

theorem commitRole_view (c : AdminState) :
    (commitRole c).settings =
        { c.settings with deviceRole := c.buffers.role.getD c.settings.deviceRole } ∧
      (commitRole c).buffers = { c.buffers with role := none } := by
  unfold commitRole
  split <;> rename_i h <;> simp [AdminState.settings, AdminState.buffers, h]

theorem commitPosition_view (c : AdminState) :
    (commitPosition c).settings = c.buffers.position.elim c.settings c.settings.withPosition ∧
      (commitPosition c).buffers = { c.buffers with position := none } := by
  unfold commitPosition
  split <;> rename_i h <;> simp only [AdminState.buffers, h]
  · exact ⟨rfl, trivial⟩
  · exact ⟨rfl, rfl⟩

theorem commitOwner_view (c : AdminState) :
    (commitOwner c).settings = c.buffers.owner.elim c.settings c.settings.withOwner := by
  unfold commitOwner
  split <;> rename_i h <;> simp only [AdminState.buffers, h] <;> rfl

theorem commitBuffers_view {s : AdminState} {r : AdminState × Option UInt8}
    (h : commitBuffers s = some r) : r.1.settings = s.buffers.applyTo s.settings := by
  simp only [commitBuffers, Option.bind_eq_bind, Option.bind_eq_some_iff, Option.pure_def,
    Option.some.injEq] at h
  obtain ⟨l, hl, c₃, hi, hr⟩ := h
  obtain ⟨s₁, b₁⟩ := commitLora_view hl
  obtain ⟨s₂, b₂⟩ := commitAdminKeys_view l.1
  obtain ⟨s₃, b₃⟩ := commitInterval_view hi
  obtain ⟨s₄, b₄⟩ := commitRole_view c₃
  obtain ⟨s₅, b₅⟩ := commitPosition_view (commitRole c₃)
  rw [← hr, commitOwner_view, s₅, b₅, s₄, b₄, s₃, b₃, s₂, b₂, s₁, b₁]
  rfl

/-- A commit that is accepted. -/
theorem commit_settings {s : AdminState} (h : (commitEditSettings s).2.routingOk = true) :
    (commitEditSettings s).1.settings = s.buffers.applyTo s.settings := by
  unfold commitEditSettings at h ⊢
  cases hb : commitBuffers s with
  | none => simp [hb, badRequest] at h
  | some r => exact commitBuffers_view hb

/-! ## Runs of accepted calls -/

/-- Calls with the payloads `ps`, all accepted, lead from `s` to `s'`. -/
inductive Accepted (sha256 : Bytes → Vector UInt8 32) :
    AdminState → List AdminPayload → AdminState → Prop where
  | nil (s : AdminState) : Accepted sha256 s [] s
  | cons {s s' : AdminState} {ps : List AdminPayload} (c : Call) (nowMs : UInt32)
      (msg : AdminMessage) (hd : decodeAdminMessage c.payload = some msg)
      (hok : (handleAdmin sha256 s c nowMs).2.routingOk = true)
      (hr : Accepted sha256 (handleAdmin sha256 s c nowMs).1 ps s') :
      Accepted sha256 s (msg.payload :: ps) s'

section

variable {sha256 : Bytes → Vector UInt8 32} {s s' : AdminState} {p : AdminPayload}
  {ps qs : List AdminPayload}

/-- The first call of an accepted run is a write under its session. -/
theorem Accepted.cons_inv (h : Accepted sha256 s (p :: ps) s') :
    ∃ r, write s p = some r ∧ r.2.routingOk = true ∧ Accepted sha256 r.1 ps s' := by
  cases h with
  | cons c nowMs msg hd hok hr =>
    have heff := handleAdmin_spec sha256 s c nowMs
    generalize handleAdmin sha256 s c nowMs = r at heff hok hr
    cases heff with
    | refused o hresp ho => rw [ho] at hok; cases hok
    | session msg reply hd' ha hp => cases hok
    | write msg' r hd' ha hs hw =>
      rw [hd] at hd'
      cases hd'
      exact ⟨r, hw, hok, hr⟩

theorem Accepted.append_inv :
    ∀ {s : AdminState} (ps : List AdminPayload), Accepted sha256 s (ps ++ qs) s' →
      ∃ m, Accepted sha256 s ps m ∧ Accepted sha256 m qs s'
  | s, [], h => ⟨s, .nil s, h⟩
  | s, p :: ps, h => by
    cases h with
    | cons c nowMs msg hd hok hr =>
      obtain ⟨m, h₁, h₂⟩ := Accepted.append_inv ps hr
      exact ⟨m, .cons c nowMs msg hd hok h₁, h₂⟩

/-- A direct run is `Settings.apply`, message by message. -/
theorem accepted_direct :
    ∀ {s : AdminState} {ps : List AdminPayload}, s.editing = false → (∀ p ∈ ps, p.isSet = true) →
      Accepted sha256 s ps s' → s'.settings = ps.foldl Settings.apply s.settings
  | s, [], _, _, h => by cases h; rfl
  | s, p :: ps, he, hset, h => by
    obtain ⟨r, hw, hok, hr⟩ := h.cons_inv
    obtain ⟨he', hs⟩ := write_direct he (hset p (by simp)) hw hok
    rw [accepted_direct he' (fun q hq => hset q (by simp [hq])) hr, hs]
    rfl

/-- One message inside an edit, on the settings and the buffers. -/
def editStep (e : Settings × Buffers) (p : AdminPayload) : Settings × Buffers :=
  (e.1.applyNow p, e.2.record e.1 p)

theorem accepted_buffered :
    ∀ {s : AdminState} {ps : List AdminPayload}, s.editing = true → (∀ p ∈ ps, p.isSet = true) →
      Accepted sha256 s ps s' →
      (s'.settings, s'.buffers) = ps.foldl editStep (s.settings, s.buffers)
  | s, [], _, _, h => by cases h; rfl
  | s, p :: ps, he, hset, h => by
    obtain ⟨r, hw, hok, hr⟩ := h.cons_inv
    obtain ⟨he', hs, hb⟩ := write_edit he (hset p (by simp)) hw hok
    rw [accepted_buffered he' (fun q hq => hset q (by simp [hq])) hr, hs, hb]
    rfl

/-- What a whole transaction does to the configuration. -/
def transaction (c : Settings) (ps : List AdminPayload) : Settings :=
  let e := ps.foldl editStep (c, Buffers.empty)
  e.2.applyTo e.1

theorem accepted_edit (hset : ∀ p ∈ ps, p.isSet = true)
    (h : Accepted sha256 s (.beginEditSettings :: ps ++ [.commitEditSettings]) s') :
    s'.settings = transaction s.settings ps := by
  obtain ⟨r, hw, -, hr⟩ := Accepted.cons_inv h
  cases hw
  obtain ⟨m, hm, hc⟩ := Accepted.append_inv ps hr
  have hmid := accepted_buffered rfl hset hm
  obtain ⟨r, hw, hok, hr⟩ := hc.cons_inv
  cases hw
  cases hr
  rw [commit_settings hok]
  unfold transaction
  rw [show (s.settings, Buffers.empty) =
    ((beginEditSettings s).1.settings, (beginEditSettings s).1.buffers) from rfl, ← hmid]

end

/-! ## Where the two ways agree -/

def AdminPayload.isPosition : AdminPayload → Bool
  | .setConfig (.position _) => true
  | _ => false

def AdminPayload.isOwner : AdminPayload → Bool
  | .setOwner _ => true
  | _ => false

/-! What the messages of a list say, in order, about one field each. -/

def roleStep (role : UInt32) : AdminPayload → UInt32
  | .setConfig (.device dev) => dev.role
  | _ => role

def flagStep (flag : Bool) : AdminPayload → Bool
  | .setFixedPosition _ => true
  | .removeFixedPosition => false
  | _ => flag

def shortStep {n : Nat} (name : Vector UInt8 n × UInt8) : AdminPayload → Vector UInt8 n × UInt8
  | .setOwner identity => mergeName identity.advert.shortRaw name
  | _ => name

def longStep {n : Nat} (name : Vector UInt8 n × UInt8) : AdminPayload → Vector UInt8 n × UInt8
  | .setOwner identity => mergeName identity.advert.longRaw name
  | _ => name

/-- The messages `ps`, sent from the configuration `c`, do not reach what an
edit loses or reorders. The last position config asks for the same interval
under the role in force when it is sent and under the last role; no later
fixed-position message contradicts its flag; and a name that the last
`set_owner` leaves out is, before it, still the one of `c`. -/
structure Agrees (c : Settings) (ps : List AdminPayload) : Prop where
  interval : ∀ pre pos post, ps = pre ++ .setConfig (.position pos) :: post →
    (∀ p ∈ post, p.isPosition = false) →
    coercePositionBroadcastSecs pos.positionBroadcastSecs (pre.foldl roleStep c.deviceRole) =
      coercePositionBroadcastSecs pos.positionBroadcastSecs (ps.foldl roleStep c.deviceRole)
  flag : ∀ pre pos post, ps = pre ++ .setConfig (.position pos) :: post →
    (∀ p ∈ post, p.isPosition = false) → post.foldl flagStep pos.fixedPosition = pos.fixedPosition
  short : ∀ pre identity post, ps = pre ++ .setOwner identity :: post →
    (∀ p ∈ post, p.isOwner = false) → identity.advert.shortRaw = [] →
    pre.foldl shortStep c.shortName = c.shortName
  long : ∀ pre identity post, ps = pre ++ .setOwner identity :: post →
    (∀ p ∈ post, p.isOwner = false) → identity.advert.longRaw = [] →
    pre.foldl longStep c.longName = c.longName

/-- A list has no element with `P`, or a last one. -/
theorem none_or_last {α : Type} (P : α → Bool) :
    ∀ l : List α, (∀ x ∈ l, P x = false) ∨
      ∃ pre x post, l = pre ++ x :: post ∧ P x = true ∧ ∀ y ∈ post, P y = false
  | [] => .inl (by simp)
  | a :: l => by
    rcases none_or_last P l with h | ⟨pre, x, post, rfl, hx, hpost⟩
    · cases ha : P a with
      | true => exact .inr ⟨[], a, l, rfl, ha, h⟩
      | false => exact .inl (by simpa [ha] using h)
    · exact .inr ⟨a :: pre, x, post, rfl, hx, hpost⟩

/-- A fold leaves alone what none of its steps touches. -/
theorem foldl_fixed {α β γ : Type} (f : β → α → β) (proj : β → γ) :
    ∀ (l : List α) (b : β), (∀ b, ∀ x ∈ l, proj (f b x) = proj b) → proj (l.foldl f b) = proj b
  | [], _, _ => rfl
  | x :: l, b, h => by
    rw [List.foldl_cons, foldl_fixed f proj l _ (fun b y hy => h b y (by simp [hy]))]
    exact h b x (by simp)

/-! ### The fields on which the two ways always agree -/

/-- Keys, LoRa fields, telemetry interval, role and coordinates. -/
def Settings.core (c : Settings) :=
  (c.adminPublicKeys, c.modemPreset, c.usePreset, c.hopLimit, c.txPowerDbm, c.okToMqtt,
    c.deviceUpdateIntervalSecs, c.deviceRole, c.latitudeI, c.longitudeI, c.hasFixedCoords)

theorem Settings.eq_iff (c d : Settings) :
    c = d ↔ c.core = d.core ∧ c.positionBroadcastSecs = d.positionBroadcastSecs ∧
      c.fixedPosition = d.fixedPosition ∧ c.shortName = d.shortName ∧ c.longName = d.longName := by
  cases c
  cases d
  simp only [Settings.core, Settings.mk.injEq, Prod.mk.injEq]
  tauto

theorem core_applyTo (b : Buffers) (c : Settings) :
    (b.applyTo c).core = ({ b.lora.elim c c.withLora with
      adminPublicKeys := b.adminKeys.getD c.adminPublicKeys
      deviceUpdateIntervalSecs := b.interval.getD c.deviceUpdateIntervalSecs
      deviceRole := b.role.getD c.deviceRole } : Settings).core := by
  cases hl : b.lora <;> cases hp : b.position <;> cases ho : b.owner <;>
    simp only [Buffers.applyTo, hl, hp, ho] <;> rfl

theorem core_step {e d : Settings} {b : Buffers} (h : (b.applyTo e).core = d.core)
    (p : AdminPayload) :
    ((b.record e p).applyTo (e.applyNow p)).core = (d.apply p).core := by
  rw [core_applyTo] at h ⊢
  simp only [Settings.core, Prod.mk.injEq] at h ⊢
  obtain ⟨h1, h2, h3, h4, h5, h6, h7, h8, h9, h10, h11⟩ := h
  -- what a message leaves alone is by the hypothesis, what it sets by computation
  cases p with
  | setConfig config =>
    cases config with
    | lora lora =>
      cases hl : b.lora <;> rw [hl] at h9 h10 h11 <;>
        exact ⟨h1, rfl, rfl, rfl, rfl, rfl, h7, h8, h9, h10, h11⟩
    | security sec => exact ⟨rfl, h2, h3, h4, h5, h6, h7, h8, h9, h10, h11⟩
    | device dev => exact ⟨h1, h2, h3, h4, h5, h6, h7, rfl, h9, h10, h11⟩
    | _ => exact ⟨h1, h2, h3, h4, h5, h6, h7, h8, h9, h10, h11⟩
  | setModuleConfig config =>
    cases config with
    | telemetry tel => exact ⟨h1, h2, h3, h4, h5, h6, rfl, h8, h9, h10, h11⟩
    | empty => exact ⟨h1, h2, h3, h4, h5, h6, h7, h8, h9, h10, h11⟩
  | setFixedPosition pos =>
    simp only [Buffers.record, Settings.applyNow, Settings.apply]
    cases hl : b.lora <;> rw [hl] at h2 h3 h4 h5 h6 <;>
      exact ⟨h1, h2, h3, h4, h5, h6, h7, h8, rfl, rfl, rfl⟩
  | removeFixedPosition =>
    simp only [Buffers.record, Settings.applyNow, Settings.apply]
    cases hl : b.lora <;> rw [hl] at h2 h3 h4 h5 h6 <;>
      exact ⟨h1, h2, h3, h4, h5, h6, h7, h8, rfl, rfl, rfl⟩
  | _ => exact ⟨h1, h2, h3, h4, h5, h6, h7, h8, h9, h10, h11⟩

theorem core_foldl (ps : List AdminPayload) :
    ∀ {e d : Settings} {b : Buffers}, (b.applyTo e).core = d.core →
      ((ps.foldl editStep (e, b)).2.applyTo (ps.foldl editStep (e, b)).1).core =
        (ps.foldl Settings.apply d).core := by
  induction ps with
  | nil => exact fun h => h
  | cons p ps ih => exact fun h => ih (core_step h p)

theorem core_transaction (c : Settings) (ps : List AdminPayload) :
    (transaction c ps).core = (ps.foldl Settings.apply c).core :=
  core_foldl ps rfl

/-! ### The position interval and the fixed flag -/

theorem deviceRole_foldl (c : Settings) (ps : List AdminPayload) :
    (ps.foldl Settings.apply c).deviceRole = ps.foldl roleStep c.deviceRole := by
  refine (List.foldl_hom Settings.deviceRole ?_).symm
  intro c p
  cases p with
  | setConfig config => cases config <;> rfl
  | setModuleConfig config => cases config <;> rfl
  | _ => rfl

/-- Without position configs, the interval stays and the flag follows the
fixed-position messages. -/
theorem position_foldl {ps : List AdminPayload} (h : ∀ p ∈ ps, p.isPosition = false) :
    ∀ c : Settings,
      (ps.foldl Settings.apply c).positionBroadcastSecs = c.positionBroadcastSecs ∧
        (ps.foldl Settings.apply c).fixedPosition = ps.foldl flagStep c.fixedPosition := by
  induction ps with
  | nil => exact fun c => ⟨rfl, rfl⟩
  | cons p ps ih =>
    intro c
    obtain ⟨h1, h2⟩ := ih (fun q hq => h q (by simp [hq])) (c.apply p)
    have hp := h p (by simp)
    rw [List.foldl_cons, List.foldl_cons, h1, h2]
    cases p with
    | setConfig config =>
      cases config with
      | position pos => cases hp
      | _ => exact ⟨rfl, rfl⟩
    | setModuleConfig config => cases config <;> exact ⟨rfl, rfl⟩
    | _ => exact ⟨rfl, rfl⟩

/-- Inside an edit only the fixed-position messages reach the settings. -/
theorem editStep_settings (e : Settings × Buffers) (p : AdminPayload) :
    (editStep e p).1.deviceRole = e.1.deviceRole ∧
      (editStep e p).1.positionBroadcastSecs = e.1.positionBroadcastSecs ∧
      (editStep e p).1.fixedPosition = flagStep e.1.fixedPosition p ∧
      (editStep e p).1.shortName = e.1.shortName ∧ (editStep e p).1.longName = e.1.longName := by
  cases p <;> exact ⟨rfl, rfl, rfl, rfl, rfl⟩

theorem edit_settings (ps : List AdminPayload) :
    ∀ e : Settings × Buffers,
      (ps.foldl editStep e).1.deviceRole = e.1.deviceRole ∧
        (ps.foldl editStep e).1.positionBroadcastSecs = e.1.positionBroadcastSecs ∧
        (ps.foldl editStep e).1.fixedPosition = ps.foldl flagStep e.1.fixedPosition ∧
        (ps.foldl editStep e).1.shortName = e.1.shortName ∧
        (ps.foldl editStep e).1.longName = e.1.longName := by
  induction ps with
  | nil => exact fun e => ⟨rfl, rfl, rfl, rfl, rfl⟩
  | cons p ps ih =>
    intro e
    obtain ⟨h1, h2, h3, h4, h5⟩ := editStep_settings e p
    obtain ⟨i1, i2, i3, i4, i5⟩ := ih (editStep e p)
    refine ⟨i1.trans h1, i2.trans h2, ?_, i4.trans h4, i5.trans h5⟩
    rw [List.foldl_cons, List.foldl_cons, i3, h3]

theorem edit_role (ps : List AdminPayload) :
    ∀ e : Settings × Buffers,
      (ps.foldl editStep e).2.role.getD e.1.deviceRole =
        ps.foldl roleStep (e.2.role.getD e.1.deviceRole) := by
  induction ps with
  | nil => exact fun e => rfl
  | cons p ps ih =>
    intro e
    have h := ih (editStep e p)
    rw [(editStep_settings e p).1] at h
    rw [List.foldl_cons, h, List.foldl_cons]
    congr 1
    cases p with
    | setConfig config => cases config <;> rfl
    | setModuleConfig config => cases config <;> rfl
    | _ => rfl

theorem record_position {b : Buffers} {c : Settings} {p : AdminPayload}
    (h : p.isPosition = false) : (b.record c p).position = b.position := by
  cases p with
  | setConfig config =>
    cases config with
    | position pos => cases h
    | _ => rfl
  | setModuleConfig config => cases config <;> rfl
  | _ => rfl

theorem record_owner {b : Buffers} {c : Settings} {p : AdminPayload}
    (h : p.isOwner = false) : (b.record c p).owner = b.owner := by
  cases p with
  | setConfig config => cases config <;> rfl
  | setModuleConfig config => cases config <;> rfl
  | setOwner identity => cases h
  | _ => rfl

theorem edit_position {ps : List AdminPayload} (h : ∀ p ∈ ps, p.isPosition = false)
    (e : Settings × Buffers) : (ps.foldl editStep e).2.position = e.2.position :=
  foldl_fixed editStep (fun e => e.2.position) ps e fun _ p hp => record_position (h p hp)

theorem edit_owner {ps : List AdminPayload} (h : ∀ p ∈ ps, p.isOwner = false)
    (e : Settings × Buffers) : (ps.foldl editStep e).2.owner = e.2.owner :=
  foldl_fixed editStep (fun e => e.2.owner) ps e fun _ p hp => record_owner (h p hp)

/-! ### The fields on which they may differ -/

theorem applyTo_rest (b : Buffers) (c : Settings) :
    (b.applyTo c).positionBroadcastSecs = b.position.elim c.positionBroadcastSecs (fun pos =>
        coercePositionBroadcastSecs pos.positionBroadcastSecs (b.role.getD c.deviceRole)) ∧
      (b.applyTo c).fixedPosition = b.position.elim c.fixedPosition (·.fixedPosition) ∧
      (b.applyTo c).shortName = b.owner.elim c.shortName (fun o => (o.shortName, o.shortNameLen)) ∧
      (b.applyTo c).longName = b.owner.elim c.longName (fun o => (o.longName, o.longNameLen)) := by
  cases hl : b.lora <;> cases hp : b.position <;> cases ho : b.owner <;>
    simp only [Buffers.applyTo, hl, hp, ho] <;> exact ⟨rfl, rfl, rfl, rfl⟩

/-- The interval and the flag of a configuration. -/
def Settings.position (c : Settings) : UInt32 × Bool := (c.positionBroadcastSecs, c.fixedPosition)

section

variable {c : Settings} {ps pre post : List AdminPayload}

theorem position_none (h : ∀ p ∈ ps, p.isPosition = false) :
    (transaction c ps).position = (ps.foldl Settings.apply c).position := by
  obtain ⟨h1, h2⟩ := position_foldl h c
  obtain ⟨-, e2, e3, -, -⟩ := edit_settings ps (c, .empty)
  obtain ⟨a1, a2, -, -⟩ :=
    applyTo_rest (ps.foldl editStep (c, .empty)).2 (ps.foldl editStep (c, .empty)).1
  simp only [Settings.position, transaction]
  rw [a1, a2, edit_position h, h1, h2, ← e2, ← e3]
  rfl

theorem position_direct {pos : WirePositionConfig} (h : ∀ p ∈ post, p.isPosition = false) :
    ((pre ++ .setConfig (.position pos) :: post).foldl Settings.apply c).position =
      (coercePositionBroadcastSecs pos.positionBroadcastSecs (pre.foldl roleStep c.deviceRole),
        post.foldl flagStep pos.fixedPosition) := by
  rw [List.foldl_append, List.foldl_cons, Settings.position, (position_foldl h _).1,
    (position_foldl h _).2, ← deviceRole_foldl]
  rfl

theorem position_edit {pos : WirePositionConfig} (h : ∀ p ∈ post, p.isPosition = false)
    (hps : ps = pre ++ .setConfig (.position pos) :: post) :
    (transaction c ps).position =
      (coercePositionBroadcastSecs pos.positionBroadcastSecs (ps.foldl roleStep c.deviceRole),
        pos.fixedPosition) := by
  have hbuf : (ps.foldl editStep (c, .empty)).2.position = some pos := by
    rw [hps, List.foldl_append, List.foldl_cons, edit_position h]
    rfl
  obtain ⟨e1, -, -, -, -⟩ := edit_settings ps (c, .empty)
  have hrole := edit_role ps (c, .empty)
  obtain ⟨a1, a2, -, -⟩ :=
    applyTo_rest (ps.foldl editStep (c, .empty)).2 (ps.foldl editStep (c, .empty)).1
  simp only [Settings.position, transaction]
  rw [a1, a2, hbuf, e1, hrole]
  rfl

/-- Both names of a configuration. -/
def Settings.names (c : Settings) := (c.shortName, c.longName)

theorem names_foldl (c : Settings) (ps : List AdminPayload) :
    (ps.foldl Settings.apply c).names = (ps.foldl shortStep c.shortName, ps.foldl longStep c.longName) := by
  induction ps generalizing c with
  | nil => rfl
  | cons p ps ih =>
    rw [List.foldl_cons, ih]
    cases p with
    | setConfig config => cases config <;> rfl
    | setModuleConfig config => cases config <;> rfl
    | _ => rfl

/-- Without `set_owner`, the names stay. -/
theorem nameSteps_fixed {m n : Nat} {ps : List AdminPayload} (h : ∀ p ∈ ps, p.isOwner = false)
    (short : Vector UInt8 m × UInt8) (long : Vector UInt8 n × UInt8) :
    ps.foldl shortStep short = short ∧ ps.foldl longStep long = long := by
  refine ⟨foldl_fixed shortStep id ps _ ?_, foldl_fixed longStep id ps _ ?_⟩ <;>
  · intro name p hp
    have hown := h p hp
    cases p with
    | setOwner identity => cases hown
    | _ => rfl

theorem names_none (h : ∀ p ∈ ps, p.isOwner = false) :
    (transaction c ps).names = (ps.foldl Settings.apply c).names := by
  obtain ⟨-, -, -, e4, e5⟩ := edit_settings ps (c, .empty)
  obtain ⟨-, -, a3, a4⟩ :=
    applyTo_rest (ps.foldl editStep (c, .empty)).2 (ps.foldl editStep (c, .empty)).1
  obtain ⟨hs, hl⟩ := nameSteps_fixed h c.shortName c.longName
  rw [names_foldl, hs, hl]
  simp only [Settings.names, transaction]
  rw [a3, a4, edit_owner h, e4, e5]
  rfl

theorem names_direct {identity : NodeInfoIdentity} (h : ∀ p ∈ post, p.isOwner = false) :
    ((pre ++ .setOwner identity :: post).foldl Settings.apply c).names =
      (mergeName identity.advert.shortRaw (pre.foldl shortStep c.shortName),
        mergeName identity.advert.longRaw (pre.foldl longStep c.longName)) := by
  rw [names_foldl, List.foldl_append, List.foldl_append, List.foldl_cons, List.foldl_cons]
  obtain ⟨hs, hl⟩ := nameSteps_fixed h
    (mergeName identity.advert.shortRaw (pre.foldl shortStep c.shortName))
    (mergeName identity.advert.longRaw (pre.foldl longStep c.longName))
  exact Prod.ext hs hl

theorem names_edit {identity : NodeInfoIdentity} (h : ∀ p ∈ post, p.isOwner = false)
    (hps : ps = pre ++ .setOwner identity :: post) :
    (transaction c ps).names =
      (mergeName identity.advert.shortRaw c.shortName,
        mergeName identity.advert.longRaw c.longName) := by
  obtain ⟨-, -, -, e4, e5⟩ := edit_settings pre (c, .empty)
  have hbuf : (ps.foldl editStep (c, .empty)).2.owner = some (c.mergedOwner identity) := by
    rw [hps, List.foldl_append, List.foldl_cons, edit_owner h]
    simp only [editStep, Buffers.record, Settings.mergedOwner, e4, e5]
  obtain ⟨-, -, a3, a4⟩ :=
    applyTo_rest (ps.foldl editStep (c, .empty)).2 (ps.foldl editStep (c, .empty)).1
  simp only [Settings.names, transaction]
  rw [a3, a4, hbuf]
  rfl

theorem mergeName_eq_iff {n : Nat} (raw : Bytes) (x y : Vector UInt8 n × UInt8) :
    mergeName raw x = mergeName raw y ↔ (raw = [] → y = x) := by
  unfold mergeName
  cases raw with
  | nil => simp [eq_comm]
  | cons b raw => simp

end

/-! ## The equivalence -/

section

variable {c : Settings} {ps : List AdminPayload}

theorem position_eq_iff :
    (transaction c ps).position = (ps.foldl Settings.apply c).position ↔
      ∀ pre pos post, ps = pre ++ .setConfig (.position pos) :: post →
        (∀ p ∈ post, p.isPosition = false) →
        coercePositionBroadcastSecs pos.positionBroadcastSecs (pre.foldl roleStep c.deviceRole) =
            coercePositionBroadcastSecs pos.positionBroadcastSecs (ps.foldl roleStep c.deviceRole) ∧
          post.foldl flagStep pos.fixedPosition = pos.fixedPosition := by
  constructor
  · intro heq pre pos post hps hpost
    rw [position_edit hpost hps, hps, position_direct hpost, Prod.mk.injEq, ← hps] at heq
    exact ⟨heq.1.symm, heq.2.symm⟩
  · intro h
    rcases none_or_last AdminPayload.isPosition ps with hnone | ⟨pre, p, post, hps, hp, hpost⟩
    · exact position_none hnone
    · obtain ⟨pos, rfl⟩ : ∃ pos, p = .setConfig (.position pos) := by
        unfold AdminPayload.isPosition at hp
        split at hp
        · exact ⟨_, rfl⟩
        · cases hp
      obtain ⟨h1, h2⟩ := h pre pos post hps hpost
      rw [position_edit hpost hps, hps, position_direct hpost, h1, h2, ← hps]

theorem names_eq_iff :
    (transaction c ps).names = (ps.foldl Settings.apply c).names ↔
      ∀ pre identity post, ps = pre ++ .setOwner identity :: post →
        (∀ p ∈ post, p.isOwner = false) →
        (identity.advert.shortRaw = [] → pre.foldl shortStep c.shortName = c.shortName) ∧
          (identity.advert.longRaw = [] → pre.foldl longStep c.longName = c.longName) := by
  constructor
  · intro heq pre identity post hps hpost
    rw [names_edit hpost hps, hps, names_direct hpost, Prod.mk.injEq] at heq
    exact ⟨(mergeName_eq_iff _ _ _).mp heq.1, (mergeName_eq_iff _ _ _).mp heq.2⟩
  · intro h
    rcases none_or_last AdminPayload.isOwner ps with hnone | ⟨pre, p, post, hps, hp, hpost⟩
    · exact names_none hnone
    · obtain ⟨identity, rfl⟩ : ∃ identity, p = .setOwner identity := by
        unfold AdminPayload.isOwner at hp
        split at hp
        · exact ⟨_, rfl⟩
        · cases hp
      obtain ⟨h1, h2⟩ := h pre identity post hps hpost
      rw [names_edit hpost hps, hps, names_direct hpost, Prod.mk.injEq]
      exact ⟨(mergeName_eq_iff _ _ _).mpr h1, (mergeName_eq_iff _ _ _).mpr h2⟩

theorem transaction_eq_iff :
    transaction c ps = ps.foldl Settings.apply c ↔ Agrees c ps := by
  rw [Settings.eq_iff]
  have hpos := @position_eq_iff c ps
  have hnames := @names_eq_iff c ps
  simp only [Settings.position, Settings.names, Prod.mk.injEq] at hpos hnames
  constructor
  · rintro ⟨-, h1, h2, h3, h4⟩
    have hp := hpos.mp ⟨h1, h2⟩
    have hn := hnames.mp ⟨h3, h4⟩
    exact ⟨fun pre pos post h h' => (hp pre pos post h h').1,
      fun pre pos post h h' => (hp pre pos post h h').2,
      fun pre identity post h h' => (hn pre identity post h h').1,
      fun pre identity post h h' => (hn pre identity post h h').2⟩
  · intro h
    obtain ⟨h1, h2⟩ := hpos.mpr fun pre pos post hps hpost =>
      ⟨h.interval pre pos post hps hpost, h.flag pre pos post hps hpost⟩
    obtain ⟨h3, h4⟩ := hnames.mpr fun pre identity post hps hpost =>
      ⟨h.short pre identity post hps hpost, h.long pre identity post hps hpost⟩
    exact ⟨core_transaction c ps, h1, h2, h3, h4⟩

end

/-- A transaction whose every call is accepted leaves the configuration that
the same messages leave when each is sent directly, exactly when nothing in
it is lost or reordered. -/
theorem edit_eq_direct_iff (sha256 : Bytes → Vector UInt8 32) {s direct edited : AdminState}
    {ps : List AdminPayload} (he : s.editing = false) (hset : ∀ p ∈ ps, p.isSet = true)
    (hd : Accepted sha256 s ps direct)
    (ht : Accepted sha256 s (.beginEditSettings :: ps ++ [.commitEditSettings]) edited) :
    edited.settings = direct.settings ↔ Agrees s.settings ps := by
  rw [accepted_edit hset ht, accepted_direct he hset hd]
  exact transaction_eq_iff

/-! ## Accepted runs, computed -/

/-- Makes the calls one after another while they are accepted. -/
def runAccepted (sha256 : Bytes → Vector UInt8 32) (s : AdminState) :
    List (Call × UInt32) → Option (List AdminPayload × AdminState)
  | [] => some ([], s)
  | (c, nowMs) :: cs =>
    match decodeAdminMessage c.payload with
    | none => none
    | some msg =>
      let r := handleAdmin sha256 s c nowMs
      if r.2.routingOk then
        (runAccepted sha256 r.1 cs).map fun q => (msg.payload :: q.1, q.2)
      else none

theorem runAccepted_sound (sha256 : Bytes → Vector UInt8 32) :
    ∀ {s : AdminState} {cs : List (Call × UInt32)} {q : List AdminPayload × AdminState},
      runAccepted sha256 s cs = some q → Accepted sha256 s q.1 q.2
  | s, [], q, h => by
    cases h
    exact .nil s
  | s, (c, nowMs) :: cs, q, h => by
    simp only [runAccepted] at h
    split at h
    · cases h
    · rename_i msg hd
      split at h
      · rename_i hok
        obtain ⟨q', hq, rfl⟩ := Option.map_eq_some_iff.mp h
        exact .cons c nowMs msg hd hok (runAccepted_sound sha256 hq)
      · cases h

/-- `set_config` with role ROUTER, `set_config` with a fixed position every
50000 s, `set_owner` with both names. -/
def sampleCalls : List (Call × UInt32) :=
  [(sessionCall [0x92, 0x02, 0x04, 0x0A, 0x02, 0x08, 0x02], 10),
   (sessionCall [0x92, 0x02, 0x08, 0x12, 0x06, 0x08, 0xD0, 0x86, 0x03, 0x18, 0x01], 20),
   (sessionCall [0x82, 0x02, 0x07, 0x12, 0x01, 0x43, 0x1A, 0x02, 0x41, 0x42], 30)]

/-- `set_owner` with the short name only, then with the long name only. -/
def splitOwnerCalls : List (Call × UInt32) :=
  [(sessionCall [0x82, 0x02, 0x04, 0x1A, 0x02, 0x41, 0x42], 10),
   (sessionCall [0x82, 0x02, 0x05, 0x12, 0x01, 0x43, 0x1A, 0x00], 20)]

/-- The calls between `begin_edit_settings` and `commit_edit_settings`. -/
def inEdit (cs : List (Call × UInt32)) : List (Call × UInt32) :=
  (beginEditCall, 5) :: cs ++ [(sessionCall [0x88, 0x04, 0x01], 50)]

/-- The payloads and final state of the calls after `sessionNode`. -/
def sampleRun (cs : List (Call × UInt32)) : Option (List AdminPayload × AdminState) :=
  runAccepted (fun _ => sampleDigest) sessionNode.state cs

/-- Both runs of the calls, when both are accepted. -/
theorem sampleRun_both (cs : List (Call × UInt32))
    (hset : (sampleRun cs).any (fun q => q.1.all AdminPayload.isSet) = true)
    (hedit : (sampleRun (inEdit cs)).map Prod.fst =
      (sampleRun cs).map fun q => .beginEditSettings :: q.1 ++ [.commitEditSettings]) :
    ∃ q r, sampleRun cs = some q ∧ sampleRun (inEdit cs) = some r ∧
      (∀ p ∈ q.1, p.isSet = true) ∧
      Accepted (fun _ => sampleDigest) sessionNode.state q.1 q.2 ∧
      Accepted (fun _ => sampleDigest) sessionNode.state
        (.beginEditSettings :: q.1 ++ [.commitEditSettings]) r.2 := by
  cases hq : sampleRun cs with
  | none => simp [hq] at hset
  | some q =>
    cases hr : sampleRun (inEdit cs) with
    | none => simp [hq, hr] at hedit
    | some r =>
      have hps : r.1 = .beginEditSettings :: q.1 ++ [.commitEditSettings] := by
        simpa [hq, hr] using hedit
      refine ⟨q, r, rfl, rfl, by simpa [hq] using hset, runAccepted_sound _ hq, ?_⟩
      rw [← hps]
      exact runAccepted_sound _ hr

/-- A transaction that agrees with its direct form. -/
theorem edit_eq_direct_sample :
    ∃ q, sampleRun sampleCalls = some q ∧ Agrees sessionNode.state.settings q.1 := by
  obtain ⟨q, r, hq, hr, hset, hd, ht⟩ :=
    sampleRun_both sampleCalls (by decide +kernel) (by decide +kernel)
  have heq : (sampleRun (inEdit sampleCalls)).map (·.2.settings) =
      (sampleRun sampleCalls).map (·.2.settings) := by decide +kernel
  refine ⟨q, hq, (edit_eq_direct_iff _ (by decide +kernel) hset hd ht).mp ?_⟩
  simpa [hq, hr] using heq

/-- The short name of the first message is lost: the second one is merged
against the state, not against the buffer. -/
theorem edit_loses_name :
    ∃ (s direct edited : AdminState) (ps : List AdminPayload), s.editing = false ∧
      (∀ p ∈ ps, p.isSet = true) ∧ Accepted (fun _ => sampleDigest) s ps direct ∧
      Accepted (fun _ => sampleDigest) s
        (.beginEditSettings :: ps ++ [.commitEditSettings]) edited ∧
      edited.settings ≠ direct.settings := by
  obtain ⟨q, r, hq, hr, hset, hd, ht⟩ :=
    sampleRun_both splitOwnerCalls (by decide +kernel) (by decide +kernel)
  have hne : (sampleRun (inEdit splitOwnerCalls)).map (·.2.settings) ≠
      (sampleRun splitOwnerCalls).map (·.2.settings) := by decide +kernel
  refine ⟨sessionNode.state, q.2, r.2, q.1, by decide +kernel, hset, hd, ht, ?_⟩
  simpa [hq, hr] using hne

end Meshrustic.Admin
