import Meshrustic.Core.LTS
import Meshrustic.Core.Clock
import Meshrustic.Admin.Handler

/-!
# Who may change the configuration, over whole runs

A node is its `AdminState` in real time. Real time is an unbounded count of
milliseconds of which `handle_admin` sees the low 32 bits; beside the state
the node carries, as a ghost, the session passkey it handed out last and the
real time at which it did.

The expiry test of `session_ok` is a half-range comparison on the wrapping
clock: it reads a session as expired for 2^31 ms after its end and as valid
again for the next 2^31 ms. `Fresh` says that a call does not fall into such
a revival.

Results:
* `writes_need_session`: in every run, at every call that is `Fresh`, what an
  administrator can set changes only for an authorised key with the passkey
  issued last, at most `ADMIN_SESSION_TTL_MS` real milliseconds before.
* `expired_session_revives`: a session that ended 24.9 days ago is accepted.
-/
namespace Meshrustic.Admin

/-- What only an administrator may change: the configuration, the edit
buffers, the editing flag and the pending reboot. -/
def AdminState.guarded (s : AdminState) : Settings × Buffers × Bool × Option Int32 :=
  (s.settings, s.buffers, s.editing, s.pendingRebootSeconds)

/-- The state in real time, with the last session that was handed out: its
passkey and when. -/
structure Node where
  state : AdminState
  now : Nat
  issued : Option (Passkey × Nat)

/-- A session of the state is the one that was handed out last. -/
def Node.SessionIssued (n : Node) : Prop :=
  n.state.hasSession = true → ∃ t₀, n.issued = some (n.state.sessionPasskey, t₀) ∧
    t₀ ≤ n.now ∧ n.state.sessionValidUntilMs = clock (t₀ + ADMIN_SESSION_TTL_MS)

section

variable (sha256 : Bytes → Vector UInt8 32)

/-- The node after a call at real time `t`. A passkey that was handed out is
in the response. -/
def Node.call (n : Node) (c : Call) (t : Nat) : Node :=
  let r := handleAdmin sha256 n.state c (clock t)
  { state := r.1
    now := t
    issued := match r.2.response with
      | some msg => some (msg.sessionPasskey, t)
      | none => n.issued }

/-- Calls at nondecreasing real times. Any state may be the first one: its
session, if it has one, was issued at some real time. -/
def admin : LTS Node (Call × Nat) where
  init n := n.SessionIssued
  step n l n' := n.now ≤ l.2 ∧ n' = n.call sha256 l.1 l.2

end

/-- The call at `t` does not fall into a half-turn of the clock in which an
expired session reads as valid. -/
def Node.Fresh (n : Node) (t : Nat) : Prop :=
  ∀ k t₀, n.issued = some (k, t₀) →
    t ≤ t₀ + ADMIN_SESSION_TTL_MS ∨
      (t - (t₀ + ADMIN_SESSION_TTL_MS)) % CLOCK_PERIOD < CLOCK_PERIOD / 2

/-- The call comes from an authorised key and carries the passkey issued
last, within its lifetime. -/
def Node.Permits (n : Node) (c : Call) (t : Nat) : Prop :=
  n.state.isAuthorized c.remotePk = true ∧
    ∃ msg t₀, decodeAdminMessage c.payload = some msg ∧ msg.hasSessionPasskey = true ∧
      n.issued = some (msg.sessionPasskey, t₀) ∧ t₀ ≤ t ∧ t - t₀ ≤ ADMIN_SESSION_TTL_MS

theorem sessionOk_iff (s : AdminState) (msg : AdminMessage) (nowMs : UInt32) :
    s.sessionOk msg nowMs = true ↔
      s.hasSession = true ∧ msg.hasSessionPasskey = true ∧
        2147483648 ≤ (nowMs - s.sessionValidUntilMs).toNat ∧
          msg.sessionPasskey = s.sessionPasskey := by
  unfold AdminState.sessionOk
  cases s.hasSession <;> cases msg.hasSessionPasskey <;>
    simp [UInt32.lt_iff_toNat_lt]

theorem guarded_issueSession (sha256 : Bytes → Vector UInt8 32) (s : AdminState)
    (nowMs : UInt32) : (s.issueSession sha256 nowMs).1.guarded = s.guarded := rfl

/-! ## The invariant -/

theorem sessionIssued_step (sha256 : Bytes → Vector UInt8 32) (n : Node) (l : Call × Nat)
    (n' : Node) (hn : n.SessionIssued) (hs : (admin sha256).step n l n') : n'.SessionIssued := by
  obtain ⟨hle, rfl⟩ := hs
  intro hsess
  -- only the session fields of the state and the response matter here
  unfold Node.call at hsess ⊢
  generalize hr : handleAdmin sha256 n.state l.1 (clock l.2) = r at hsess ⊢
  have heff := handleAdmin_spec sha256 n.state l.1 (clock l.2)
  rw [hr] at heff
  have kept : r.1.session = n.state.session → r.2.response = none →
      ∃ t₀, (match r.2.response with
        | some msg => some (msg.sessionPasskey, l.2)
        | none => n.issued) = some (r.1.sessionPasskey, t₀) ∧ t₀ ≤ l.2 ∧
        r.1.sessionValidUntilMs = clock (t₀ + ADMIN_SESSION_TTL_MS) := by
    intro hsame hnone
    simp only [AdminState.session, Prod.mk.injEq] at hsame
    obtain ⟨hk, hv, hh⟩ := hsame
    obtain ⟨t₀, hi, ht, hval⟩ := hn (by rw [← hh]; exact hsess)
    exact ⟨t₀, by rw [hnone, hk]; exact hi, by omega, by rw [hv]; exact hval⟩
  cases heff with
  | refused o hresp ho => exact kept rfl hresp
  | session msg reply hd ha hp =>
    exact ⟨l.2, rfl, Nat.le_refl _, clock_add _ _⟩
  | write msg r hd ha hok hw => exact kept (write_session hw).1 (write_session hw).2

theorem sessionIssued_inductive (sha256 : Bytes → Vector UInt8 32) :
    (admin sha256).Inductive Node.SessionIssued where
  init _ hn := hn
  step := sessionIssued_step sha256

/-- A session that the code accepts at a fresh call is within its lifetime. -/
theorem within_lifetime {n : Node} {msg : AdminMessage} {t : Nat} (hn : n.SessionIssued)
    (hle : n.now ≤ t) (hf : n.Fresh t) (hok : n.state.sessionOk msg (clock t) = true) :
    ∃ t₀, n.issued = some (msg.sessionPasskey, t₀) ∧ t₀ ≤ t ∧
      t - t₀ ≤ ADMIN_SESSION_TTL_MS := by
  obtain ⟨hsess, -, hage, hkey⟩ := (sessionOk_iff _ _ _).mp hok
  obtain ⟨t₀, hi, ht, hval⟩ := hn hsess
  refine ⟨t₀, by rw [hkey]; exact hi, by omega, ?_⟩
  rw [hval] at hage
  rcases hf _ _ hi with h | h
  · omega
  · by_cases hend : t < t₀ + ADMIN_SESSION_TTL_MS
    · omega
    · rw [clock_sub (by omega)] at hage
      simp only [CLOCK_PERIOD] at h hage
      omega

/-- Configuration, edits and reboot change only under the last session,
within its lifetime. -/
theorem writes_need_session (sha256 : Bytes → Vector UInt8 32) {n n' : Node} {c : Call} {t : Nat}
    (hn : (admin sha256).Reachable n) (hs : (admin sha256).step n (c, t) n') (hf : n.Fresh t)
    (hc : n'.state.guarded ≠ n.state.guarded) : n.Permits c t := by
  have hinv := (sessionIssued_inductive sha256).reachable hn
  obtain ⟨hle, rfl⟩ := hs
  change (handleAdmin sha256 n.state c (clock t)).1.guarded ≠ n.state.guarded at hc
  have heff := handleAdmin_spec sha256 n.state c (clock t)
  generalize handleAdmin sha256 n.state c (clock t) = r at heff hc
  cases heff with
  | refused o hresp ho => exact absurd rfl hc
  | session msg reply hd ha hp => exact absurd (guarded_issueSession sha256 _ _) hc
  | write msg r hd ha hok hw =>
    obtain ⟨t₀, hi, ht, hage⟩ := within_lifetime hinv hle hf hok
    exact ⟨ha, msg, t₀, hd, ((sessionOk_iff _ _ _).mp hok).2.1, hi, ht, hage⟩

/-! ## A run with a session -/

/-- SHA-256 of the passkey material of a node that boots at time 0 with no
private key. -/
def sampleDigest : Vector UInt8 32 :=
  Store.padded 32 [0xAC, 0x83, 0x87, 0x60, 0x5C, 0x62, 0x15, 0xB6, 0x64, 0x61, 0xD6, 0x2E, 0xB1,
    0x8A, 0x85, 0xF5, 0xCE, 0x2D, 0x6D, 0x21, 0x64, 0xD7, 0x53, 0x03, 0xF0, 0x9C, 0x58, 0xDE, 0xE8,
    0x5F, 0x1E, 0x2B]

def sampleCall (payload : Bytes) : Call where
  remotePk := BUILTIN_ADMIN_PUBLIC_KEYS.1
  identity := ⟨.empty, EMPTY_ADMIN_KEY⟩
  channelPsk := []
  channelHash := 0
  payload

/-- `get_owner_request`, which hands out a passkey. -/
def getOwnerCall : Call := sampleCall [0x18, 0x01]

/-- A message with the passkey of `sampleDigest`. -/
def sessionCall (payload : Bytes) : Call :=
  sampleCall (payload ++ [0xAA, 0x06, 0x08, 0xAC, 0x83, 0x87, 0x60, 0x5C, 0x62, 0x15, 0xB6])

/-- `begin_edit_settings` -/
def beginEditCall : Call := sessionCall [0x80, 0x04, 0x01]

def bootNode : Node := ⟨.new, 0, none⟩

/-- The node that handed out its first passkey at time 0. -/
def sessionNode : Node := bootNode.call (fun _ => sampleDigest) getOwnerCall 0

theorem sessionNode_reachable : (admin fun _ => sampleDigest).Reachable sessionNode :=
  LTS.Reachable.step (l := (getOwnerCall, 0))
    ⟨bootNode, [], fun h => absurd h (by decide), .nil _⟩ ⟨Nat.le_refl _, rfl⟩

theorem sessionNode_issued :
    sessionNode.issued = some (Store.padded _ [0xAC, 0x83, 0x87, 0x60, 0x5C, 0x62, 0x15, 0xB6], 0) := by
  decide +kernel

theorem sessionNode_fresh {t : Nat} (h : t ≤ ADMIN_SESSION_TTL_MS) : sessionNode.Fresh t := by
  intro k t₀ hi
  left
  omega

/-- An edit opened one second into the session. -/
theorem writes_need_session_sample : sessionNode.Permits beginEditCall 1000 :=
  writes_need_session (fun _ => sampleDigest) sessionNode_reachable ⟨Nat.zero_le _, rfl⟩
    (sessionNode_fresh (by decide)) (by decide +kernel)

/-- Half a turn of the clock after its end, the session of `sessionNode`
opens an edit again. -/
theorem expired_session_revives :
    ∃ n n' c t, (admin fun _ => sampleDigest).Reachable n ∧
      (admin fun _ => sampleDigest).step n (c, t) n' ∧
      n'.state.guarded ≠ n.state.guarded ∧ ¬ n.Permits c t := by
  refine ⟨sessionNode, _, beginEditCall, ADMIN_SESSION_TTL_MS + 2147483648,
    sessionNode_reachable, ⟨Nat.zero_le _, rfl⟩, by decide +kernel, ?_⟩
  rintro ⟨-, msg, t₀, -, -, hi, -, hage⟩
  rw [sessionNode_issued, Option.some.injEq, Prod.mk.injEq] at hi
  obtain ⟨-, rfl⟩ := hi
  simp only [ADMIN_SESSION_TTL_MS] at hage
  omega

end Meshrustic.Admin
