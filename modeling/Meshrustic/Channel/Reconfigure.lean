import Meshrustic.Channel.Node
import Meshrustic.Core.LTS

/-!
# A new channel (`mesh-routing/src/router.rs:557-616`)

When the radio has taken over new settings, every frame still waiting under the
old ones has to go: nobody on the new channel can read it. `Fresh` says that a
node holds only frames built since, and that those of its own are on its channel.
Each call keeps that, but for two: an answer is put on the channel of the packet
it answers, and `radio_reconfigured` leaves the node info, the telemetry and the
position where they are, and without a new preset the topology list too.

Results:
* `step_fresh`: what one call keeps, and what it hands over.
* `no_stale_frame`: after a reconfiguration that found those slots empty, every
  frame handed over was built since, and our own are on the new channel.
* `telemetry_survives`: a telemetry frame of the old channel goes out after it.
-/
namespace Meshrustic.Channel

open Meshrustic.RateLimit (NODENUM_BROADCAST)
open Meshrustic.Routing
open Meshrustic.Store (CryptoKey)

/-- The next hop has no part in the encryption. -/
theorem OnChannel.restamped {K : KeyStream} {hash : UInt8} {key : CryptoKey} {data : Bytes}
    {f : Frame} (h : OnChannel K hash key data f) (byte : UInt8) :
    OnChannel K hash key data (f.restamped byte) := ⟨h.hash, h.decrypts⟩

inductive Event where
  | receive (packet : InboundPacket) (a : Answers) (hearsUs : Bool) (verdict : Verdict)
      (nowMs : UInt32)
  | sendLocal (q : Router.LocalRequest) (data : Bytes) (nowMs : UInt32)
  /-- the router's calls that neither build a frame nor hand one over -/
  | router (e : Routing.Event)
  /-- an acknowledgement, or an error in its place -/
  | scheduleAck (parsed : ParsedPacket) (hop nextHop : UInt8) (body : Node.Body) (nowMs : UInt32)
  | traceroute (parsed : ParsedPacket) (wantResponse : Bool) (route : Option Bytes)
      (hop nextHop : UInt8) (nowMs : UInt32)
  | nodeinfoReply (toNode : UInt32) (data : Bytes) (delayMs nowMs : UInt32)
  | adminRoutingError (parsed : ParsedPacket) (hop nextHop : UInt8) (body : Node.Body)
      (nowMs : UInt32)
  | adminResponse (parsed : ParsedPacket) (hop : UInt8) (body : Node.Body) (nowMs : UInt32)
  | applyAdmin (o : Node.AdminOutcome) (nowMs : UInt32)
  /-- an empty list of a direct neighbour asks for ours -/
  | topologyAsked (nowMs : UInt32)
  | runMaintenance (reply g : Node.TopologyAnswers) (b : Node.Broadcasts) (nowMs : UInt32)
  | ensureBootBroadcasts (g : Node.TopologyAnswers) (nodeinfo : Bytes) (nowMs : UInt32)
  | requestModemPreset (storedChannelName : Bytes) (modemPreset : UInt8) (usePreset : Bool)
      (channelKey : CryptoKey)
  | radioReconfigured (recordWindowMs : UInt32) (g : Node.TopologyAnswers) (nodeinfo : Bytes)
      (nowMs : UInt32)
  | noteTxEnqueued (fromNode packetId : UInt32)
  | pollAckTx (nowMs : UInt32)
  | pollAdminTx (retxDelayMs nowMs : UInt32)
  | pollReadyRelay (nowMs : UInt32) (admits : Frame → Bool) (q : FollowupAnswers)
  | pollTopologyTx (nowMs : UInt32)
  | pollNodeinfoTx (nowMs : UInt32)
  | pollTelemetryTx (nowMs : UInt32)
  | pollPositionTx (nowMs : UInt32)
  | pollTracerouteTx (nowMs : UInt32)
  | pollT1Retransmit (nowMs : UInt32) (drops : PendingRetransmit → Bool)
  | pollReliableRetransmit (nowMs : UInt32) (retxDelayFor : PendingReliable → UInt32)
      (alternate : DueRetransmit → Option UInt8)

/-- The router's calls about the radio's queue, the airtime and the role. -/
def Bookkeeping : Routing.Event → Prop
  | .takeTxCancels | .noteTxDone _ _ _ | .noteTxFailure _ _ _ | .noteTxQueueRejected _ _ _ => True
  | .discardQueuedForward _ _ | .noteRxAirtime _ | .setDeviceRole _ => True
  | _ => False

def Event.Possible : Event → Prop
  | .router e => Bookkeeping e
  | _ => True

def Event.Reconfigures : Event → Prop
  | .radioReconfigured _ _ _ _ => True
  | _ => False

namespace Node

variable (K : KeyStream) (s : Node)

/-- A poll of one of the router's tables. -/
def withRouter (x : Router × Option RelayPlan) : Node × Option RelayPlan :=
  ({ s with router := x.1 }, x.2)

def step : Event → Node × Option RelayPlan
  | .receive packet a hearsUs verdict nowMs => s.receive packet a hearsUs verdict nowMs
  | .sendLocal q data nowMs => s.sendLocal K q data nowMs
  | .router e => ({ s with router := (s.router.step e).1 }, none)
  | .scheduleAck parsed hop nextHop body nowMs =>
    (s.scheduleAckWithHop K parsed parsed.channel hop nextHop body nowMs, none)
  | .traceroute parsed wantResponse route hop nextHop nowMs =>
    (s.maybeScheduleTracerouteResponse K parsed wantResponse route hop nextHop nowMs, none)
  | .nodeinfoReply toNode data delayMs nowMs =>
    (s.scheduleNodeinfoUnicast K toNode data delayMs nowMs, none)
  | .adminRoutingError parsed hop nextHop body nowMs =>
    (s.scheduleAdminRoutingError K parsed hop nextHop body nowMs, none)
  | .adminResponse parsed hop body nowMs => (s.scheduleAdminResponse K parsed hop body nowMs, none)
  | .applyAdmin o nowMs => (s.applyAdmin K o nowMs, none)
  | .topologyAsked nowMs => ({ s with pendingTopologyReplyMs := max nowMs 1 }, none)
  | .runMaintenance reply g b nowMs => (s.runMaintenance K reply g b nowMs, none)
  | .ensureBootBroadcasts g nodeinfo nowMs => (s.ensureBootBroadcasts K g nodeinfo nowMs, none)
  | .requestModemPreset name preset usePreset key =>
    ((s.requestModemPreset name preset usePreset key).1, none)
  | .radioReconfigured window g nodeinfo nowMs =>
    (s.radioReconfigured K window g nodeinfo nowMs, none)
  | .noteTxEnqueued fromNode packetId => (s.noteTxEnqueued fromNode packetId, none)
  | .pollAckTx nowMs => s.pollAckTx nowMs
  | .pollAdminTx delay nowMs => s.pollAdminTx delay nowMs
  | .pollReadyRelay nowMs admits q => s.withRouter (s.router.pollReadyRelay nowMs admits q)
  | .pollTopologyTx nowMs => s.pollTopologyTx nowMs
  | .pollNodeinfoTx nowMs => s.pollNodeinfoTx nowMs
  | .pollTelemetryTx nowMs => s.pollTelemetryTx nowMs
  | .pollPositionTx nowMs => s.pollPositionTx nowMs
  | .pollTracerouteTx nowMs => s.pollTracerouteTx nowMs
  | .pollT1Retransmit nowMs drops => s.withRouter (s.router.pollT1Retransmit nowMs drops)
  | .pollReliableRetransmit nowMs delay alternate =>
    s.withRouter (s.router.pollReliableRetransmit nowMs delay alternate)

/-! ## Frames built since -/

/-- The frame was built since the radio was configured. -/
def Logged (f : Frame) : Prop := ∃ b ∈ s.built, b.frame = f

/-- Every frame that waits is logged, and our own are on our channel, which is
the one of `hash` and `key`. -/
structure Fresh (hash : UInt8) (key : CryptoKey) : Prop where
  hashEq : s.channelHash = hash
  keyEq : s.channelKey = key
  router : HoldsOnly s.Logged s.router
  outgoing : ∀ k, (s.outgoing k).active = true → s.Logged (s.outgoing k).frame
  admin : ∀ p ∈ s.pendingAdmin, p.active = true → s.Logged p.frame
  topology : s.pendingTopology.active = true → ∀ f ∈ s.pendingTopology.frames.rows, s.Logged f
  onChannel : ∀ b ∈ s.built, ∀ data, b.sealing = .channel data →
    OnChannel K hash key data b.frame

/-- A frame as it goes out: built since, and on our channel if it is our own. -/
def SentFresh (plan : RelayPlan) : Prop :=
  ∃ b ∈ s.built, (∃ byte, plan.frame = b.frame.restamped byte) ∧
    ∀ data, b.sealing = .channel data → OnChannel K s.channelHash s.channelKey data plan.frame

variable {K s} {hash : UInt8} {key : CryptoKey}

theorem Logged.mono {t : Node} {f : Frame} (h : s.Logged f) (hb : s.built ⊆ t.built) : t.Logged f :=
  let ⟨b, hmem, hf⟩ := h
  ⟨b, hb hmem, hf⟩

theorem Fresh.sent (h : s.Fresh K hash key) {f : Frame} {byte : UInt8} (hf : s.Logged f)
    {plan : RelayPlan}
    (hplan : plan.frame = f.restamped byte) : s.SentFresh K plan := by
  obtain ⟨b, hb, rfl⟩ := hf
  refine ⟨b, hb, ⟨byte, hplan⟩, fun data hdata => ?_⟩
  rw [hplan, h.hashEq, h.keyEq]
  exact (h.onChannel b hb data hdata).restamped byte

/-! ## Building keeps a node fresh -/

/-- The router's tables changed, and frames were built. -/
theorem Fresh.build (h : s.Fresh K hash key) {r : Router} {bs : List Built}
    (hr : HoldsOnly ({ s with built := bs ++ s.built } : Node).Logged r)
    (hbs : ∀ b ∈ bs, ∀ data, b.sealing = .channel data → OnChannel K hash key data b.frame) :
    ({ s with router := r, built := bs ++ s.built } : Node).Fresh K hash key where
  hashEq := h.hashEq
  keyEq := h.keyEq
  router := hr
  outgoing k ha := (h.outgoing k ha).mono (List.subset_append_right _ _)
  admin p hp ha := (h.admin p hp ha).mono (List.subset_append_right _ _)
  topology ha f hf := (h.topology ha f hf).mono (List.subset_append_right _ _)
  onChannel b hb data hdata := by
    rcases List.mem_append.mp hb with hb | hb
    · exact hbs b hb data hdata
    · exact h.onChannel b hb data hdata

theorem Fresh.withRouter (h : s.Fresh K hash key) {r : Router} (hr : HoldsOnly s.Logged r) :
    ({ s with router := r } : Node).Fresh K hash key :=
  { h with router := hr }

/-- What drawing an id and building a frame gives: a fresh node that has logged
the frame, and still has what it had. -/
structure Drafts (K : KeyStream) (hash : UInt8) (key : CryptoKey) (s : Node)
    (x : Node × Option Frame) : Prop where
  fresh : x.1.Fresh K hash key
  logged : ∀ f, x.2 = some f → x.1.Logged f
  keeps : s.built ⊆ x.1.built

theorem Fresh.compose (h : s.Fresh K hash key) {channel : UInt8} (hc : channel = s.channelHash)
    (toNode : UInt32) (hopLimit : UInt8) (wantAck : Bool) (data : Bytes) (nextHop : UInt8) :
    Drafts K hash key s (s.compose K toNode channel hopLimit wantAck data nextHop) where
  fresh := by
    refine h.build ?_ fun b hb data' hdata => ?_
    · exact (h.router.calm s.router.allocTxId_quiet.toCalms).mono fun f hf =>
        hf.mono (List.subset_append_right _ _)
    · simp only [Option.mem_toList, Option.map_eq_some_iff] at hb
      obtain ⟨f, hf, rfl⟩ := hb
      cases hdata
      rw [← h.hashEq, ← h.keyEq, ← hc]
      exact buildAppWireFrame_onChannel hf
  logged f hf := by
    change buildAppWireFrame _ _ _ _ _ _ _ _ _ _ _ = some f at hf
    exact ⟨⟨f, .channel data⟩, List.mem_append_left _ (by simp [hf]), rfl⟩
  keeps := List.subset_append_right _ _

theorem Fresh.composeForPeer (h : s.Fresh K hash key) (toNode : UInt32) (hopLimit : UInt8)
    (wantAck : Bool)
    (cipher : Option Bytes) (nextHop : UInt8) :
    Drafts K hash key s (s.composeForPeer toNode hopLimit wantAck cipher nextHop) where
  fresh := by
    refine h.build ?_ fun b hb data hdata => ?_
    · exact (h.router.calm s.router.allocTxId_quiet.toCalms).mono fun f hf =>
        hf.mono (List.subset_append_right _ _)
    · simp only [Option.mem_toList, Option.map_eq_some_iff] at hb
      obtain ⟨f, _, rfl⟩ := hb
      cases hdata
  logged f hf := by
    change Option.map _ cipher = some f at hf
    refine ⟨⟨f, .peer⟩, List.mem_append_left _ ?_, rfl⟩
    rw [hf]
    simp
  keeps := List.subset_append_right _ _

/-- A reply for a peer is on no channel. -/
def Body.onlyOn (channel : UInt8) (s : Node) : Body → Prop
  | .channel _ => channel = s.channelHash
  | .peer _ => True

theorem Fresh.composeBody (h : s.Fresh K hash key) {channel : UInt8} {body : Body}
    (hc : body.onlyOn channel s) (toNode : UInt32) (hopLimit : UInt8) (wantAck : Bool)
    (nextHop : UInt8) :
    Drafts K hash key s (s.composeBody K toNode channel hopLimit wantAck nextHop body) := by
  cases body with
  | channel data => exact h.compose hc _ _ _ _ _
  | peer cipher => exact h.composeForPeer _ _ _ _ _

/-! ## Slots -/

theorem Fresh.put (h : s.Fresh K hash key) {f : Frame} (hf : s.Logged f) (k : Kind)
    (txMs : UInt32) :
    (s.put k ⟨true, txMs, f⟩).Fresh K hash key where
  hashEq := h.hashEq
  keyEq := h.keyEq
  router := h.router
  outgoing j ha := by
    by_cases hj : j = k
    · subst hj
      rw [put_outgoing_self]
      exact hf
    · rw [put_outgoing_of_ne s hj] at ha ⊢
      exact h.outgoing j ha
  admin := h.admin
  topology := h.topology
  onChannel := h.onChannel

theorem Fresh.turnOff (h : s.Fresh K hash key) (k : Kind) : (s.turnOff k).Fresh K hash key where
  hashEq := h.hashEq
  keyEq := h.keyEq
  router := h.router
  outgoing j ha := by
    unfold Node.turnOff at ha ⊢
    by_cases hj : j = k
    · subst hj
      simp [Outgoing.off] at ha
    · rw [put_outgoing_of_ne s hj] at ha ⊢
      exact h.outgoing j ha
  admin := h.admin
  topology := h.topology
  onChannel := h.onChannel

theorem Drafts.storeIn {x : Node × Option Frame} (h : Drafts K hash key s x) (k : Kind)
    (txMs : UInt32) :
    (storeIn k txMs x).Fresh K hash key := by
  obtain ⟨t, o⟩ := x
  cases o with
  | none => exact h.fresh
  | some f => exact h.fresh.put (h.logged f rfl) k txMs

theorem Fresh.enqueueAdminTx (h : s.Fresh K hash key) {f : Frame} (hf : s.Logged f)
    (nowMs : UInt32) :
    (s.enqueueAdminTx nowMs f).Fresh K hash key := by
  unfold Node.enqueueAdminTx
  split
  · rename_i t ht
    refine ⟨h.hashEq, h.keyEq, h.router, h.outgoing, fun p hp ha => ?_, h.topology, h.onChannel⟩
    rcases Slots.mem_of_place ht hp with rfl | hp
    · exact hf
    · exact h.admin p hp ha
  · split
    · exact h
    · refine ⟨h.hashEq, h.keyEq, h.router, h.outgoing, fun p hp ha => ?_, h.topology, h.onChannel⟩
      rcases List.mem_or_eq_of_mem_set hp with hp | rfl
      · exact h.admin p hp ha
      · exact hf

theorem Drafts.storeInAdmin {x : Node × Option Frame} (h : Drafts K hash key s x) (nowMs : UInt32) :
    (storeInAdmin nowMs x).Fresh K hash key := by
  obtain ⟨t, o⟩ := x
  cases o with
  | none => exact h.fresh
  | some f => exact h.fresh.enqueueAdminTx (h.logged f rfl) nowMs

/-! ## Scheduling -/

theorem Fresh.scheduleAckWithHop (h : s.Fresh K hash key) {channel : UInt8} {body : Body}
    (hc : body.onlyOn channel s) (parsed : ParsedPacket) (hop nextHop : UInt8) (nowMs : UInt32) :
    (s.scheduleAckWithHop K parsed channel hop nextHop body nowMs).Fresh K hash key := by
  unfold Node.scheduleAckWithHop
  split
  · exact h
  · exact (h.composeBody hc _ _ _ _).storeIn .ack nowMs

theorem Fresh.maybeScheduleTracerouteResponse (h : s.Fresh K hash key) {parsed : ParsedPacket}
    (hc : parsed.channel = s.channelHash) (wantResponse : Bool) (route : Option Bytes)
    (hop nextHop : UInt8) (nowMs : UInt32) :
    (s.maybeScheduleTracerouteResponse K parsed wantResponse route hop nextHop nowMs).Fresh K
      hash key := by
  unfold Node.maybeScheduleTracerouteResponse
  split
  · exact h
  split
  · exact h
  split
  · exact h
  · exact (h.compose hc _ _ _ _ _).storeIn .traceroute nowMs

theorem Fresh.scheduleNodeinfoUnicast (h : s.Fresh K hash key) (toNode : UInt32) (data : Bytes)
    (delayMs nowMs : UInt32) :
    (s.scheduleNodeinfoUnicast K toNode data delayMs nowMs).Fresh K hash key :=
  (h.compose rfl _ _ _ _ _).storeIn .nodeinfo _

theorem Fresh.scheduleAdminRoutingError (h : s.Fresh K hash key) (parsed : ParsedPacket)
    (hop nextHop : UInt8) (body : Body) (nowMs : UInt32) :
    (s.scheduleAdminRoutingError K parsed hop nextHop body nowMs).Fresh K hash key := by
  have hc : body.onlyOn s.channelHash s := by cases body <;> trivial
  exact (h.composeBody hc _ _ _ _).storeInAdmin nowMs

theorem Fresh.scheduleAdminResponse (h : s.Fresh K hash key) (parsed : ParsedPacket) (hop : UInt8)
    (body : Body) (nowMs : UInt32) :
    (s.scheduleAdminResponse K parsed hop body nowMs).Fresh K hash key := by
  have hc : body.onlyOn s.channelHash s := by cases body <;> trivial
  exact (h.composeBody hc _ _ _ _).storeInAdmin nowMs

theorem Fresh.scheduleBroadcast (h : s.Fresh K hash key) {stamp : Node → Node}
    (hstamp : ∀ t, t.Fresh K hash key → (stamp t).Fresh K hash key) (k : Kind) (data : Bytes)
    (nowMs : UInt32) :
    (s.scheduleBroadcast K k stamp data nowMs).Fresh K hash key := by
  have hd := h.compose rfl NODENUM_BROADCAST s.hopLimit false data 0
  unfold Node.scheduleBroadcast
  split
  · rename_i t f heq
    rw [heq] at hd
    exact hstamp _ (hd.fresh.put (hd.logged f rfl) k nowMs)
  · rename_i t heq
    rw [heq] at hd
    exact hd.fresh

theorem Fresh.scheduleNodeinfoBroadcast (h : s.Fresh K hash key) (data : Bytes) (nowMs : UInt32) :
    (s.scheduleNodeinfoBroadcast K data nowMs).Fresh K hash key := by
  refine h.scheduleBroadcast (fun t ht => ?_) _ _ _
  exact ⟨ht.hashEq, ht.keyEq, ht.router, ht.outgoing, ht.admin, ht.topology, ht.onChannel⟩

theorem Fresh.scheduleTelemetryBroadcast (h : s.Fresh K hash key) (data : Bytes) (nowMs : UInt32) :
    (s.scheduleTelemetryBroadcast K data nowMs).Fresh K hash key := by
  refine h.scheduleBroadcast (fun t ht => ?_) _ _ _
  exact ⟨ht.hashEq, ht.keyEq, ht.router, ht.outgoing, ht.admin, ht.topology, ht.onChannel⟩

theorem Fresh.schedulePositionBroadcast (h : s.Fresh K hash key) (data : Bytes) (nowMs : UInt32) :
    (s.schedulePositionBroadcast K data nowMs).Fresh K hash key := by
  unfold Node.schedulePositionBroadcast
  split
  · exact h
  · refine h.scheduleBroadcast (fun t ht => ?_) _ _ _
    exact ⟨ht.hashEq, ht.keyEq, ht.router, ht.outgoing, ht.admin, ht.topology, ht.onChannel⟩

/-- Each chunk is built in the state the chunks before it left. -/
theorem Fresh.buildTopologyFrames (chunks : List Bytes) {s : Node} (h : s.Fresh K hash key)
    (frames : Table MAX_TOPOLOGY_PACKETS Frame) (hf : ∀ f ∈ frames.rows, s.Logged f) :
    (Node.buildTopologyFrames K chunks s frames).1.Fresh K hash key ∧
      ∀ f ∈ (Node.buildTopologyFrames K chunks s frames).2.rows,
        (Node.buildTopologyFrames K chunks s frames).1.Logged f := by
  induction chunks generalizing s frames with
  | nil => exact ⟨h, hf⟩
  | cons data chunks ih =>
    have hd := h.compose rfl NODENUM_BROADCAST SR_BROADCAST_HOP_LIMIT false data 0
    unfold Node.buildTopologyFrames
    split
    · rename_i t heq
      rw [heq] at hd
      exact ih hd.fresh _ fun f hmem => (hf f hmem).mono hd.keeps
    · rename_i t f heq
      rw [heq] at hd
      have hold : ∀ g ∈ frames.rows, t.Logged g := fun g hg => (hf g hg).mono hd.keeps
      split
      · exact ⟨hd.fresh, hold⟩
      · rename_i frames' hpush
        refine ih hd.fresh _ fun g hg => ?_
        rw [Table.push_rows hpush, List.mem_append, List.mem_singleton] at hg
        rcases hg with hg | rfl
        · exact hold g hg
        · exact hd.logged g rfl

theorem Fresh.scheduleTopologyBroadcast (h : s.Fresh K hash key) (g : TopologyAnswers)
    (nowMs : UInt32) :
    (s.scheduleTopologyBroadcast K g nowMs).1.Fresh K hash key := by
  have hb := Fresh.buildTopologyFrames g.chunks h .empty fun f hf =>
    absurd hf List.not_mem_nil
  unfold Node.scheduleTopologyBroadcast
  dsimp only
  split
  · exact h
  split
  · exact hb.1
  · exact { hb.1 with topology := fun _ => hb.2 }

/-! ## Maintenance and settings -/

theorem Fresh.ensureBootBroadcasts (h : s.Fresh K hash key) (g : TopologyAnswers) (nodeinfo : Bytes)
    (nowMs : UInt32) : (s.ensureBootBroadcasts K g nodeinfo nowMs).Fresh K hash key := by
  unfold Node.ensureBootBroadcasts
  extract_lets t
  have ht : t.Fresh K hash key := by
    unfold t
    split
    · exact h.scheduleTopologyBroadcast g nowMs
    · exact h
  split
  · exact ht.scheduleNodeinfoBroadcast nodeinfo nowMs
  · exact ht

theorem Fresh.pollScheduledTopologyReply (h : s.Fresh K hash key) (g : TopologyAnswers)
    (nowMs : UInt32) :
    (s.pollScheduledTopologyReply K g nowMs).Fresh K hash key := by
  unfold Node.pollScheduledTopologyReply
  dsimp only
  have h0 : ({ s with pendingTopologyReplyMs := 0 } : Node).Fresh K hash key :=
    ⟨h.hashEq, h.keyEq, h.router, h.outgoing, h.admin, h.topology, h.onChannel⟩
  have hs := h0.scheduleTopologyBroadcast g nowMs
  split
  · exact h
  split
  · exact h0
  split
  · exact h0
  split
  · exact h0
  split
  · rename_i t heq
    rw [heq] at hs
    exact ⟨hs.hashEq, hs.keyEq, hs.router, hs.outgoing, hs.admin, hs.topology, hs.onChannel⟩
  · rename_i t heq
    rw [heq] at hs
    exact hs

theorem Fresh.runMaintenance (h : s.Fresh K hash key) (reply g : TopologyAnswers) (b : Broadcasts)
    (nowMs : UInt32) : (s.runMaintenance K reply g b nowMs).Fresh K hash key := by
  unfold Node.runMaintenance
  extract_lets s₁ s₂ s₃ s₄ s₅
  have h₁ : s₁.Fresh K hash key := h.pollScheduledTopologyReply reply nowMs
  have h₂ : s₂.Fresh K hash key := h₁.withRouter <| h₁.router.calm <|
    s₁.router.step_calms _ (by simp) (by simp) (by simp) (by simp)
  have h₃ : s₃.Fresh K hash key := by
    unfold s₃
    split
    · exact h₂.scheduleTopologyBroadcast g nowMs
    · exact h₂
  have h₄ : s₄.Fresh K hash key := by
    unfold s₄
    split
    · exact h₃.scheduleNodeinfoBroadcast _ nowMs
    · exact h₃
  have h₅ : s₅.Fresh K hash key := by
    unfold s₅
    split
    · exact h₄.scheduleTelemetryBroadcast _ nowMs
    · exact h₄
  split
  · exact h₅.turnOff .position
  split
  · exact h₅.schedulePositionBroadcast _ nowMs
  · exact h₅

theorem Fresh.requestModemPreset (h : s.Fresh K hash key) (name : Bytes) (preset : UInt8)
    (usePreset : Bool) (newKey : CryptoKey) :
    (s.requestModemPreset name preset usePreset newKey).1.Fresh K hash key := by
  unfold Node.requestModemPreset
  split
  · exact h
  · exact ⟨h.hashEq, h.keyEq, h.router, h.outgoing, h.admin, h.topology, h.onChannel⟩

theorem Fresh.applyAdmin (h : s.Fresh K hash key) (o : AdminOutcome) (nowMs : UInt32) :
    (s.applyAdmin K o nowMs).Fresh K hash key := by
  unfold Node.applyAdmin
  extract_lets s₁ s₂ s₃
  have h₁ : s₁.Fresh K hash key := by
    unfold s₁
    split
    · refine Fresh.requestModemPreset ?_ _ _ _ _
      exact ⟨h.hashEq, h.keyEq, h.router, h.outgoing, h.admin, h.topology, h.onChannel⟩
    · exact h
  have h₃ : s₃.Fresh K hash key := by
    unfold s₃ s₂
    split <;> exact ⟨h₁.hashEq, h₁.keyEq, h₁.router, h₁.outgoing, h₁.admin, h₁.topology,
      h₁.onChannel⟩
  split
  · exact h₃.turnOff .position
  split
  · exact h₃.schedulePositionBroadcast _ nowMs
  · exact h₃

/-- Before the new settings are applied, the slots that the reconfiguration
leaves alone are empty; the topology list may wait if the preset changes. -/
structure Drained (s : Node) : Prop where
  nodeinfo : s.pendingNodeinfo.active = false
  telemetry : s.pendingTelemetry.active = false
  position : s.pendingPosition.active = false
  topology : s.pendingTopology.active = true →
    (s.pendingRadioSettings.elim s.modemPreset (·.modemPreset)) ≠ s.operatingPreset

/-- The channel that the next reconfiguration brings. -/
def nextHash (s : Node) : UInt8 := s.pendingRadioSettings.elim s.channelHash (·.channelHash)

def nextKey (s : Node) : CryptoKey := s.pendingRadioSettings.elim s.channelKey (·.channelKey)

/-- A reconfiguration that finds them empty starts afresh. -/
theorem Drained.fresh (h : s.Drained) (recordWindowMs : UInt32) (g : TopologyAnswers)
    (nodeinfo : Bytes) (nowMs : UInt32) :
    (s.radioReconfigured K recordWindowMs g nodeinfo nowMs).Fresh K s.nextHash s.nextKey := by
  unfold Node.radioReconfigured
  extract_lets s₁ presetChanged s₂ s₃
  have happlied : s₁.modemPreset = s.pendingRadioSettings.elim s.modemPreset (·.modemPreset) ∧
      s₁.operatingPreset = s.operatingPreset ∧ s₁.outgoing = s.outgoing ∧
      s₁.pendingTopology = s.pendingTopology ∧ s₁.channelHash = s.nextHash ∧
      s₁.channelKey = s.nextKey := by
    unfold s₁ nextHash nextKey
    cases s.pendingRadioSettings <;> exact ⟨rfl, rfl, rfl, rfl, rfl, rfl⟩
  obtain ⟨hmodem, hoperating, hout, htopo, hhash, hkey⟩ := happlied
  have hslots : ∀ k, (s₃.outgoing k).active = false := by
    intro k
    cases k with
    | ack | traceroute => rfl
    | nodeinfo => exact (congrArg (fun o => (o Kind.nodeinfo).active) hout).trans h.nodeinfo
    | telemetry => exact (congrArg (fun o => (o Kind.telemetry).active) hout).trans h.telemetry
    | position => exact (congrArg (fun o => (o Kind.position).active) hout).trans h.position
  have hadmin : ∀ p ∈ s₃.pendingAdmin, p.active = false := by
    intro p hp
    obtain ⟨_, _, rfl⟩ := List.mem_map.mp hp
    rfl
  have hempty : ∀ t : Node, t.outgoing = s₃.outgoing → t.pendingAdmin = s₃.pendingAdmin →
      t.router = s₃.router → t.built = [] → t.channelHash = s.nextHash →
      t.channelKey = s.nextKey → t.pendingTopology.active = false →
      t.Fresh K s.nextHash s.nextKey := by
    intro t ho ha hr hb hc hk ht
    refine ⟨hc, hk, hr ▸ .radioReconfigured _ _ _ _, fun k hact => ?_, fun p hp hact => ?_,
      fun hact => ?_, fun b hmem => ?_⟩
    · rw [ho, hslots k] at hact
      cases hact
    · rw [ha] at hp
      rw [hadmin p hp] at hact
      cases hact
    · rw [ht] at hact
      cases hact
    · rw [hb] at hmem
      exact absurd hmem List.not_mem_nil
  split
  · refine Fresh.ensureBootBroadcasts ?_ g nodeinfo nowMs
    exact hempty _ rfl rfl rfl rfl hhash hkey rfl
  · rename_i hsame
    refine hempty s₃ rfl rfl rfl rfl hhash hkey ?_
    -- with the same preset the list was not dropped, and did not wait
    cases hact : s₃.pendingTopology.active with
    | false => rfl
    | true =>
      have hwaits : s.pendingTopology.active = true := by
        rw [← htopo]
        exact hact
      refine absurd ?_ hsame
      rw [bne_iff_ne, hmodem, hoperating]
      exact h.topology hwaits

/-! ## Handing over -/

/-- A poll keeps a node fresh, and hands over what it had logged. -/
structure Hands (K : KeyStream) (hash : UInt8) (key : CryptoKey) (x : Node × Option RelayPlan) :
    Prop where
  fresh : x.1.Fresh K hash key
  sent : ∀ plan, x.2 = some plan → x.1.SentFresh K plan

theorem Fresh.hands (h : s.Fresh K hash key) : Hands K hash key (s, none) :=
  ⟨h, fun _ hp => by cases hp⟩

theorem Fresh.pollSlot (h : s.Fresh K hash key) (k : Kind) (nowMs : UInt32) :
    Hands K hash key (s.pollSlot k nowMs) := by
  unfold Node.pollSlot
  split
  · rename_i hdue
    have ha : (s.outgoing k).active = true := by
      unfold Outgoing.due at hdue
      rw [Bool.and_eq_true] at hdue
      exact hdue.1
    refine ⟨h.turnOff k, fun plan hp => ?_⟩
    cases hp
    exact (h.turnOff k).sent (h.outgoing k ha) (Frame.restamped_self _).symm
  · exact h.hands

theorem Fresh.pollPositionTx (h : s.Fresh K hash key) (nowMs : UInt32) :
    Hands K hash key (s.pollPositionTx nowMs) := by
  unfold Node.pollPositionTx
  split
  · exact (h.turnOff .position).hands
  · exact h.pollSlot .position nowMs

/-- What waits longest is one of the slots that pass. -/
theorem longestWaiting_mem {nowMs : UInt32} {p : Outgoing → Bool} {xs : List Outgoing} {i : Nat}
    {best : Option (Nat × Outgoing)} {j : Nat} {x : Outgoing}
    (h : longestWaiting nowMs p xs i best = some (j, x)) :
    (x ∈ xs ∧ p x = true) ∨ best = some (j, x) := by
  induction xs generalizing i best with
  | nil => exact .inr h
  | cons y ys ih =>
    unfold longestWaiting at h
    split at h
    · rename_i hy
      rw [Bool.and_eq_true] at hy
      rcases ih h with ⟨hx, hp⟩ | heq
      · exact .inl ⟨List.mem_cons_of_mem _ hx, hp⟩
      · cases heq
        exact .inl ⟨List.mem_cons_self, hy.1⟩
    · rcases ih h with ⟨hx, hp⟩ | heq
      · exact .inl ⟨List.mem_cons_of_mem _ hx, hp⟩
      · exact .inr heq

theorem Fresh.pollAdminTx (h : s.Fresh K hash key) (retxDelayMs nowMs : UInt32) :
    Hands K hash key (s.pollAdminTx retxDelayMs nowMs) := by
  unfold Node.pollAdminTx
  split
  · exact h.hands
  · rename_i p heq
    have hp : s.Logged p.frame := by
      rcases longestWaiting_mem heq with ⟨hmem, hdue⟩ | hnone
      · unfold Outgoing.due at hdue
        rw [Bool.and_eq_true] at hdue
        exact h.admin p hmem hdue.1
      · cases hnone
    have hfresh := h.withRouter (h.router.pollAdminTx hp retxDelayMs)
    refine ⟨hfresh, fun plan hplan => ?_⟩
    exact hfresh.sent (f := p.frame) hp (pollAdminTx_some hplan)

theorem Fresh.pollTopologyTx (h : s.Fresh K hash key) (nowMs : UInt32) :
    Hands K hash key (s.pollTopologyTx nowMs) := by
  unfold Node.pollTopologyTx
  extract_lets t
  split
  · exact h.hands
  rename_i hdue
  have ha : s.pendingTopology.active = true := by
    cases hact : s.pendingTopology.active
    · simp [t, hact] at hdue
    · rfl
  split
  · refine Fresh.hands ?_
    exact { h with topology := fun ha => absurd ha Bool.false_ne_true }
  · rename_i f heq
    have hf : s.Logged f := h.topology ha f (List.mem_of_getElem? heq)
    have hfresh : ∀ t' : PendingTopology, t'.frames = s.pendingTopology.frames →
        ({ s with pendingTopology := t' } : Node).Fresh K hash key := fun t' ht =>
      { h with topology := fun _ f hf => h.topology ha f (ht ▸ hf) }
    have hfr := hfresh (if t.frames.rows.length ≤ t.nextIdx + 1 then
        { t with nextIdx := t.nextIdx + 1, active := false }
      else { t with nextIdx := t.nextIdx + 1, nextTxMs := nowMs + t.spacingMs }) (by split <;> rfl)
    refine ⟨hfr, fun plan hp => ?_⟩
    cases hp
    exact hfr.sent hf (Frame.restamped_self _).symm

theorem Fresh.sendLocal (h : s.Fresh K hash key) (q : Router.LocalRequest) (data : Bytes)
    (nowMs : UInt32) : Hands K hash key (s.sendLocal K q data nowMs) := by
  unfold Node.sendLocal
  extract_lets sent
  have hlogged : ∀ plan, sent.2 = some plan →
      (⟨plan.frame, .channel data⟩ : Built) ∈
        (sent.2.map fun plan => (⟨plan.frame, .channel data⟩ : Built)).toList := by
    intro plan hp
    rw [hp]
    simp
  have hfresh : ({ s with
      router := sent.1
      built := (sent.2.map fun plan => (⟨plan.frame, .channel data⟩ : Built)).toList ++ s.built } :
      Node).Fresh K hash key := by
    refine h.build ?_ fun b hb data' hdata => ?_
    · refine HoldsOnly.sendLocal (h.router.mono fun f hf => hf.mono (List.subset_append_right _ _))
        fun plan hp => ?_
      exact ⟨_, List.mem_append_left _ (hlogged plan hp), rfl⟩
    · simp only [Option.mem_toList, Option.map_eq_some_iff] at hb
      obtain ⟨plan, hplan, rfl⟩ := hb
      cases hdata
      obtain ⟨payload, hbody, hframe⟩ := sendLocal_frame hplan
      have hopen := decrypt_sealData hbody
      refine ⟨?_, ?_⟩
      · rw [← h.hashEq, hframe]
        rfl
      · rw [← h.keyEq, hframe]
        exact hopen
  refine ⟨hfresh, fun plan hp => ?_⟩
  exact hfresh.sent ⟨_, List.mem_append_left _ (hlogged plan hp), rfl⟩ (Frame.restamped_self _).symm

theorem Fresh.receive (h : s.Fresh K hash key) (packet : InboundPacket) (a : Answers)
    (hearsUs : Bool) (verdict : Verdict) (nowMs : UInt32) :
    Hands K hash key (s.receive packet a hearsUs verdict nowMs) := by
  unfold Node.receive
  extract_lets got
  have hrouter := (h.router.mono (Q := ({ s with
      built := (relayedFrames s.nodeNum packet.header.parse packet.payload verdict).map
        (⟨·, .heard⟩) ++ s.built } : Node).Logged)
    fun f hf => hf.mono (List.subset_append_right _ _)).receive packet verdict
      (fun f hf => ⟨⟨f, .heard⟩,
        List.mem_append_left _ (List.mem_map.mpr ⟨f, hf, rfl⟩), rfl⟩) a hearsUs nowMs
  have hfresh := h.build hrouter.1 fun b hb data hdata => by
    obtain ⟨f, _, rfl⟩ := List.mem_map.mp hb
    cases hdata
  refine ⟨hfresh, fun plan hp => ?_⟩
  exact hfresh.sent (hrouter.2 plan hp) (Frame.restamped_self _).symm

/-- A poll of one of the router's tables. -/
theorem Fresh.polled (h : s.Fresh K hash key) {x : Router × Option RelayPlan}
    (hx : HoldsOnly s.Logged x.1)
    (hsent : ∀ plan, x.2 = some plan → ∃ f byte, s.Logged f ∧ plan.frame = f.restamped byte) :
    Hands K hash key (s.withRouter x) := by
  have hfresh := h.withRouter hx
  refine ⟨hfresh, fun plan hp => ?_⟩
  obtain ⟨f, byte, hf, heq⟩ := hsent plan hp
  exact hfresh.sent (f := f) hf heq

theorem noteTxEnqueued_fresh (h : s.Fresh K hash key) (fromNode packetId : UInt32) :
    (s.noteTxEnqueued fromNode packetId).Fresh K hash key := by
  refine { h with admin := fun p hp ha => ?_ }
  rcases Slots.changeFirst_split (fun p : Outgoing => p.active &&
      p.frame.header.parse.key == (fromNode, packetId)) Outgoing.off s.pendingAdmin
    with ⟨heq, _⟩ | ⟨l, x, t, hs, _, _, ht⟩
  · change p ∈ s.pendingAdmin.changeFirst _ _ at hp
    rw [heq] at hp
    exact h.admin p hp ha
  · change p ∈ s.pendingAdmin.changeFirst _ _ at hp
    rw [Slots.mem_def, ht, List.mem_append, List.mem_cons] at hp
    rcases hp with hp | rfl | hp
    · exact h.admin p (by rw [Slots.mem_def, hs]; simp [hp]) ha
    · cases ha
    · exact h.admin p (by rw [Slots.mem_def, hs]; simp [hp]) ha

theorem bookkeeping_calms {r : Router} {e : Routing.Event} (he : Bookkeeping e) :
    Calms r (r.step e).1 := by
  cases e with
  | receive | sendLocal | pollAdminTx | pollReadyRelay => exact he.elim
  | _ => exact r.step_calms _ (by simp) (by simp) (by simp) (by simp)

/-- What keeps a node fresh: an answer goes to a packet of its own channel, and a
reconfiguration finds the slots it leaves alone empty. -/
def Heeds (s : Node) : Event → Prop
  | .scheduleAck parsed _ _ body _ => body.onlyOn parsed.channel s
  | .traceroute parsed _ _ _ _ _ => parsed.channel = s.channelHash
  | .radioReconfigured _ _ _ _ => s.Drained
  | _ => True

/-- The channel after the call. -/
def hashAfter (s : Node) : Event → UInt8
  | .radioReconfigured _ _ _ _ => s.nextHash
  | _ => s.channelHash

def keyAfter (s : Node) : Event → CryptoKey
  | .radioReconfigured _ _ _ _ => s.nextKey
  | _ => s.channelKey

/-- One call keeps a node fresh, and hands over nothing else. -/
theorem step_fresh {e : Event} (h : s.Fresh K s.channelHash s.channelKey) (hp : e.Possible)
    (hheeds : s.Heeds e) : Hands K (s.hashAfter e) (s.keyAfter e) (s.step K e) := by
  cases e with
  | receive packet a hearsUs verdict nowMs => exact h.receive packet a hearsUs verdict nowMs
  | sendLocal q data nowMs => exact h.sendLocal q data nowMs
  | router e => exact (h.withRouter (h.router.calm (bookkeeping_calms hp))).hands
  | scheduleAck parsed hop nextHop body nowMs =>
    exact (h.scheduleAckWithHop hheeds parsed hop nextHop nowMs).hands
  | traceroute parsed wantResponse route hop nextHop nowMs =>
    exact (h.maybeScheduleTracerouteResponse hheeds wantResponse route hop nextHop nowMs).hands
  | nodeinfoReply toNode data delayMs nowMs =>
    exact (h.scheduleNodeinfoUnicast toNode data delayMs nowMs).hands
  | adminRoutingError parsed hop nextHop body nowMs =>
    exact (h.scheduleAdminRoutingError parsed hop nextHop body nowMs).hands
  | adminResponse parsed hop body nowMs =>
    exact (h.scheduleAdminResponse parsed hop body nowMs).hands
  | applyAdmin o nowMs => exact (h.applyAdmin o nowMs).hands
  | topologyAsked nowMs => exact Fresh.hands { h with }
  | runMaintenance reply g b nowMs => exact (h.runMaintenance reply g b nowMs).hands
  | ensureBootBroadcasts g nodeinfo nowMs => exact (h.ensureBootBroadcasts g nodeinfo nowMs).hands
  | requestModemPreset name preset usePreset newKey =>
    exact (h.requestModemPreset name preset usePreset newKey).hands
  | radioReconfigured window g nodeinfo nowMs =>
    exact (Drained.fresh hheeds window g nodeinfo nowMs).hands
  | noteTxEnqueued fromNode packetId => exact (noteTxEnqueued_fresh h fromNode packetId).hands
  | pollAckTx nowMs => exact h.pollSlot .ack nowMs
  | pollAdminTx delay nowMs => exact h.pollAdminTx delay nowMs
  | pollReadyRelay nowMs admits q =>
    have hr := h.router.pollReadyRelay nowMs admits q
    exact h.polled hr.1 fun plan hplan =>
      ⟨plan.frame, _, hr.2 plan hplan, (Frame.restamped_self _).symm⟩
  | pollTopologyTx nowMs => exact h.pollTopologyTx nowMs
  | pollNodeinfoTx nowMs => exact h.pollSlot .nodeinfo nowMs
  | pollTelemetryTx nowMs => exact h.pollSlot .telemetry nowMs
  | pollPositionTx nowMs => exact h.pollPositionTx nowMs
  | pollTracerouteTx nowMs => exact h.pollSlot .traceroute nowMs
  | pollT1Retransmit nowMs drops =>
    have hr := h.router.pollT1Retransmit nowMs drops
    exact h.polled hr.1 fun plan hplan =>
      ⟨plan.frame, _, hr.2 plan hplan, (Frame.restamped_self _).symm⟩
  | pollReliableRetransmit nowMs delay alternate =>
    have hr := h.router.pollReliableRetransmit nowMs delay alternate
    exact h.polled hr.1 hr.2

end Node

/-! ## Runs -/

/-- A node from its start; a label is a call and what it handed over. -/
def nodeLTS (K : KeyStream) : LTS Node (Event × Option RelayPlan) where
  init s := ∃ router key preset usePreset hopLimit fixed, routerLTS.init router ∧
    s = .new router key preset usePreset hopLimit fixed
  step s l t := l.1.Possible ∧ s.step K l.1 = (t, l.2)

/-- The runs whose calls keep the node fresh. -/
def heedfulLTS (K : KeyStream) : LTS Node (Event × Option RelayPlan) where
  init := (nodeLTS K).init
  step s l t := s.Heeds l.1 ∧ (nodeLTS K).step s l t

theorem heedful_fresh {K : KeyStream} {s t : Node} {l : Event × Option RelayPlan}
    (h : s.Fresh K s.channelHash s.channelKey) (hstep : (heedfulLTS K).step s l t) :
    t.Fresh K (s.hashAfter l.1) (s.keyAfter l.1) ∧
      ∀ plan, l.2 = some plan → t.SentFresh K plan := by
  obtain ⟨hheeds, hp, heq⟩ := hstep
  have hands := Node.step_fresh h hp hheeds
  rw [heq] at hands
  exact ⟨hands.fresh, hands.sent⟩

theorem Node.Fresh.self {K : KeyStream} {s : Node} {hash : UInt8} {key : CryptoKey}
    (h : s.Fresh K hash key) : s.Fresh K s.channelHash s.channelKey := by
  rw [h.hashEq, h.keyEq]
  exact h

theorem heedful_run_fresh {K : KeyStream} {s t : Node} {ls : List (Event × Option RelayPlan)}
    (h : s.Fresh K s.channelHash s.channelKey) (hrun : (heedfulLTS K).Run s ls t) :
    t.Fresh K t.channelHash t.channelKey :=
  hrun.preserves (I := fun s => s.Fresh K s.channelHash s.channelKey)
    (fun _ _ _ h hstep => (heedful_fresh h hstep).1.self) h

/-- Only a reconfiguration changes the channel. -/
theorem heedful_run_channel {K : KeyStream} {s t : Node} {ls : List (Event × Option RelayPlan)}
    (h : s.Fresh K s.channelHash s.channelKey) (hrun : (heedfulLTS K).Run s ls t)
    (hls : ∀ l ∈ ls, ¬ l.1.Reconfigures) :
    t.channelHash = s.channelHash ∧ t.channelKey = s.channelKey := by
  induction hrun with
  | nil => exact ⟨rfl, rfl⟩
  | @cons s t u l ls hstep _ ih =>
    have hfresh := (heedful_fresh h hstep).1
    have hno := hls l List.mem_cons_self
    have hafter : s.hashAfter l.1 = s.channelHash ∧ s.keyAfter l.1 = s.channelKey := by
      cases he : l.1 with
      | radioReconfigured => exact absurd (he ▸ trivial) hno
      | _ => exact ⟨rfl, rfl⟩
    have hrest := ih hfresh.self fun l' hl' => hls l' (List.mem_cons_of_mem _ hl')
    exact ⟨hrest.1.trans (hfresh.hashEq.trans hafter.1),
      hrest.2.trans (hfresh.keyEq.trans hafter.2)⟩

/-- After a reconfiguration that found the slots it leaves alone empty, whatever
is handed over was built since. Until the next one a frame of our own is on the
channel, and under the key, that it brought. -/
theorem no_stale_frame {K : KeyStream} {s t u : Node} {p : PendingRadioSettings}
    (hset : s.pendingRadioSettings = some p) (hdrained : s.Drained) {recordWindowMs nowMs : UInt32}
    {g : Node.TopologyAnswers} {nodeinfo : Bytes} {ls : List (Event × Option RelayPlan)}
    (hrun : (heedfulLTS K).Run (s.radioReconfigured K recordWindowMs g nodeinfo nowMs) ls t)
    {e : Event} {plan : RelayPlan} (hstep : (heedfulLTS K).step t (e, some plan) u) :
    u.SentFresh K plan ∧ ((∀ l ∈ ls, ¬ l.1.Reconfigures) →
      u.channelHash = p.channelHash ∧ u.channelKey = p.channelKey) := by
  have hstart := hdrained.fresh (K := K) recordWindowMs g nodeinfo nowMs
  have hfresh := heedful_run_fresh hstart.self hrun
  refine ⟨(heedful_fresh hfresh hstep).2 plan rfl, fun hls => ?_⟩
  have hlast : ∀ l ∈ ls ++ [(e, some plan)], ¬ l.1.Reconfigures := by
    intro l hl
    rcases List.mem_append.mp hl with hl | hl
    · exact hls l hl
    · cases List.mem_singleton.mp hl
      intro hre
      -- a reconfiguration hands nothing over
      obtain ⟨_, _, heq⟩ := hstep
      cases e with
      | radioReconfigured => cases heq
      | _ => exact hre
  have hchannel := heedful_run_channel hstart.self (hrun.snoc hstep) hlast
  rw [hchannel.1, hchannel.2, hstart.hashEq, hstart.keyEq, Node.nextHash, Node.nextKey, hset]
  exact ⟨rfl, rfl⟩

/-- The key stream that changes nothing. -/
def noCipher : KeyStream := fun _ _ _ _ => 0

def noTopology : Node.TopologyAnswers := ⟨false, false, false, none, [], 0, 0⟩

/-- A node on LongFast under the default key. -/
def longFastNode : Node :=
  .new (.new 5 0 88397 1) (.fromBytes Store.DEFAULT_PSK) Radio.MODEM_LONG_FAST true 3 false

/-- The switch to ShortSlow that an admin asks for. -/
def toShortSlow : Event := .applyAdmin ⟨some Radio.MODEM_SHORT_SLOW, 3, false, false, false, []⟩ 0

def shortSlow : PendingRadioSettings :=
  ⟨Radio.MODEM_SHORT_SLOW, true, .fromBytes Store.DEFAULT_PSK, 119⟩

def switchingNode : Node := (longFastNode.step noCipher toShortSlow).1

/-- The node info that is due on the new channel. -/
def announcement : RelayPlan :=
  ⟨⟨⟨NODENUM_BROADCAST, 5, 1, 119, 3, 3, false, false, 0, 5⟩, [7]⟩, 0⟩

def switchedNode : Node := switchingNode.radioReconfigured noCipher 88397 noTopology [7] 0

theorem announced_on_new_channel :
    (switchedNode.step noCipher (.pollNodeinfoTx 0)).1.SentFresh noCipher announcement ∧
      ((∀ l ∈ ([] : List (Event × Option RelayPlan)), ¬ l.1.Reconfigures) →
        (switchedNode.step noCipher (.pollNodeinfoTx 0)).1.channelHash = 119 ∧
          (switchedNode.step noCipher (.pollNodeinfoTx 0)).1.channelKey =
            .fromBytes Store.DEFAULT_PSK) :=
  no_stale_frame (p := shortSlow) (e := .pollNodeinfoTx 0) (by rfl)
    ⟨rfl, rfl, rfl, fun h => absurd h Bool.false_ne_true⟩
    (.nil switchedNode) ⟨trivial, trivial, Prod.ext rfl (by decide +kernel)⟩

def firstMaintenance : Event := .runMaintenance noTopology noTopology ⟨[7], [9], [], 0, 0⟩ 0

/-- Telemetry is due on LongFast when the switch is asked for. -/
def reportingNode : Node := (longFastNode.step noCipher firstMaintenance).1

def reportingSwitch : Node := (reportingNode.step noCipher toShortSlow).1

def staleReport : RelayPlan := ⟨⟨⟨NODENUM_BROADCAST, 5, 2, 8, 3, 3, false, false, 0, 5⟩, [9]⟩, 0⟩

/-- The telemetry slot keeps its frame, and the frame goes out on the old channel. -/
theorem telemetry_survives :
    (nodeLTS noCipher).Reachable reportingSwitch ∧
      reportingSwitch.pendingRadioSettings = some shortSlow ∧
      shortSlow.channelHash ≠ reportingSwitch.channelHash ∧
      ((reportingSwitch.radioReconfigured noCipher 88397 noTopology [7] 0).pollTelemetryTx 0).2 =
        some staleReport ∧
      (reportingSwitch.radioReconfigured noCipher 88397 noTopology [7] 0).channelHash = 119 ∧
      ¬ ((reportingSwitch.radioReconfigured noCipher 88397 noTopology [7] 0).pollTelemetryTx
        0).1.SentFresh noCipher staleReport := by
  refine ⟨⟨longFastNode, _, ⟨_, _, _, _, _, _, ⟨_, _, _, _, rfl⟩, rfl⟩,
      .cons (l := (firstMaintenance, none)) ⟨trivial, rfl⟩
        (.cons (l := (toShortSlow, none)) ⟨trivial, rfl⟩ (.nil _))⟩,
    by decide +kernel, by decide +kernel, by decide +kernel, by decide +kernel, ?_⟩
  rintro ⟨b, hb, _⟩
  have hnone : ((reportingSwitch.radioReconfigured noCipher 88397 noTopology [7] 0).pollTelemetryTx
      0).1.built = [] := by decide +kernel
  rw [hnone] at hb
  exact absurd hb List.not_mem_nil

end Meshrustic.Channel
