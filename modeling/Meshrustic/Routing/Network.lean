import Meshrustic.Routing.Echo
import Meshrustic.Routing.Holdings
import Meshrustic.Wire.Frame

/-!
# A network of routers

Any number of nodes run the router and hear each other. What a node hears is any frame that
was ever on the air: the network loses frames, delays and repeats them as it likes, and
neither alters nor forges them. A frame on the air is one that its node originated, or a
copy of such a frame that was passed on from node to node.

Results:
* `on_air_carried`: every frame on the air is such a copy, and says what the original said.
* `hops_counted`: the hop fields of a copy count the nodes that passed it on.
* `direct_iff_original`: a frame passes for direct if and only if nobody passed it on.
* `response_returns`: a reply may be passed on at least as often as the request was.
-/
namespace Meshrustic.Routing

/-! ## What a call builds -/

def Output.frames : Output → List Frame
  | .direct plan | .originated plan | .relay plan | .t1 plan | .retx plan => [plan.frame]
  | .quiet | .cancels _ => []

/-- The frames that a call makes itself: copies of what it heard, or what it originates. -/
def Builds (r : Router) : Event → Frame → Prop
  | .receive packet _ _ verdict _, f =>
    wireMayRelay packet.header.parse (packet.header.fromNode == r.nodeNum)
        (packet.header.toNode == r.nodeNum) = true ∧
      f ∈ relayedFrames r.nodeNum packet.header.parse packet.payload verdict
  | .sendLocal q nowMs, f => ∃ plan, (r.sendLocal q nowMs).2 = some plan ∧ plan.frame = f
  | .pollAdminTx frame delay, f => ∃ plan, (r.pollAdminTx frame delay).2 = some plan ∧ frame = f
  | _, _ => False

section

variable {r s : Router} {P : Frame → Prop}

theorem Output.mem_frames_of {kind : RelayPlan → Output} (hkind : ∀ p, (kind p).frames = [p.frame])
    {o : Option RelayPlan} {f : Frame} (hf : f ∈ (Output.of kind o).frames) :
    ∃ plan, o = some plan ∧ plan.frame = f := by
  cases o with
  | none => cases hf
  | some plan =>
    rw [Output.of, hkind, List.mem_singleton] at hf
    exact ⟨plan, rfl, hf.symm⟩

/-- A frame that may not be relayed is planned as if it were skipped. -/
theorem evaluateTxPlan_refused {result : ProcessResult} {packet : InboundPacket} {a : Answers}
    {hearsUs : Bool} {verdict : Verdict} {nowMs : UInt32}
    (h : wireMayRelay result.parsed (result.parsed.fromNode == r.nodeNum)
      (result.parsed.toNode == r.nodeNum) = false) :
    r.evaluateTxPlan result packet a hearsUs verdict nowMs = (r, none) := by
  unfold Router.evaluateTxPlan
  simp only [h, Bool.not_false, if_true, ite_self]

theorem receive_refused {packet : InboundPacket} {a : Answers} {hearsUs : Bool} {verdict : Verdict}
    {nowMs : UInt32} (h : wireMayRelay packet.header.parse (packet.header.fromNode == r.nodeNum)
      (packet.header.toNode == r.nodeNum) = false) :
    r.receive packet a hearsUs verdict nowMs = ((r.processInbound packet a nowMs).1, none) := by
  have hnode := (r.processInbound_quiet packet a nowMs).node
  unfold Router.receive
  split
  · rename_i s heq
    rw [heq]
  · rename_i s result heq
    rw [heq] at hnode ⊢
    have hparsed : result.parsed = packet.header.parse :=
      processInbound_parsed (congrArg Prod.snd heq)
    rw [evaluateTxPlan_refused (by rw [hparsed, hnode]; exact h)]

/-- What a router holds, and hands out, it held or has built. -/
theorem HoldsOnly.step (h : HoldsOnly P r) {e : Event} (hnew : ∀ f, Builds r e f → P f)
    (hstamp : ∀ f byte, P f → P (f.restamped byte)) :
    HoldsOnly P (r.step e).1 ∧ ∀ f ∈ (r.step e).2.frames, P f := by
  cases e with
  | receive packet a hearsUs verdict nowMs =>
    by_cases hrelay : wireMayRelay packet.header.parse (packet.header.fromNode == r.nodeNum)
        (packet.header.toNode == r.nodeNum) = true
    · obtain ⟨hholds, hplan⟩ :=
        h.receive packet verdict (fun f hf => hnew f ⟨hrelay, hf⟩) a hearsUs nowMs
      refine ⟨hholds, fun f hf => ?_⟩
      obtain ⟨plan, hp, rfl⟩ := Output.mem_frames_of (fun _ => rfl) hf
      exact hplan plan hp
    · have hrefused : r.receive packet a hearsUs verdict nowMs =
          ((r.processInbound packet a nowMs).1, none) :=
        receive_refused (Bool.eq_false_iff.mpr hrelay)
      have heq : r.step (.receive packet a hearsUs verdict nowMs) =
          ((r.processInbound packet a nowMs).1, .quiet) :=
        congrArg (fun s => (s.1, Output.of .direct s.2)) hrefused
      rw [heq]
      exact ⟨h.calm (r.processInbound_quiet packet a nowMs).toCalms, fun f hf => by cases hf⟩
  | sendLocal q nowMs =>
    refine ⟨h.sendLocal fun plan hp => hnew _ ⟨plan, hp, rfl⟩, fun f hf => ?_⟩
    obtain ⟨plan, hp, rfl⟩ := Output.mem_frames_of (fun _ => rfl) hf
    exact hnew _ ⟨plan, hp, rfl⟩
  | pollAdminTx frame delay =>
    cases hplan : (r.pollAdminTx frame delay).2 with
    | none =>
      refine ⟨h.calm (pollAdminTx_none hplan), fun f hf => ?_⟩
      obtain ⟨plan, hp, -⟩ := Output.mem_frames_of (fun _ => rfl) hf
      rw [hplan] at hp
      cases hp
    | some plan =>
      have hframe : P frame := hnew _ ⟨plan, hplan, rfl⟩
      refine ⟨h.pollAdminTx hframe delay, fun f hf => ?_⟩
      obtain ⟨plan', hp, rfl⟩ := Output.mem_frames_of (fun _ => rfl) hf
      rw [pollAdminTx_some hp]
      exact hframe
  | pollReadyRelay nowMs admits q =>
    obtain ⟨hholds, hplan⟩ := h.pollReadyRelay nowMs admits q
    refine ⟨hholds, fun f hf => ?_⟩
    obtain ⟨plan, hp, rfl⟩ := Output.mem_frames_of (fun _ => rfl) hf
    exact hplan plan hp
  | pollT1Retransmit nowMs drops =>
    obtain ⟨hholds, hplan⟩ := h.pollT1Retransmit nowMs drops
    refine ⟨hholds, fun f hf => ?_⟩
    obtain ⟨plan, hp, rfl⟩ := Output.mem_frames_of (fun _ => rfl) hf
    exact hplan plan hp
  | pollReliableRetransmit nowMs delay alternate =>
    obtain ⟨hholds, hplan⟩ := h.pollReliableRetransmit nowMs delay alternate
    refine ⟨hholds, fun f hf => ?_⟩
    obtain ⟨plan, hp, rfl⟩ := Output.mem_frames_of (fun _ => rfl) hf
    obtain ⟨held, byte, hheld, heq⟩ := hplan plan hp
    rw [heq]
    exact hstamp held byte hheld
  | takeTxCancels | noteTxDone | noteTxFailure | noteTxQueueRejected | discardQueuedForward
  | noteRxAirtime | maintenance | setDeviceRole | radioReconfigured =>
    refine ⟨h.calm (r.step_calms _ (by simp) (by simp) (by simp) (by simp)), fun f hf => ?_⟩
    cases hf

end

/-! ## Copies -/

/-- What a node may put in the place of a payload it passes on: a trace gains a hop. -/
abbrev Alters := UInt32 → Frame → Bytes → Prop

/-- Node `n` passes on `f` as `g`. Insurance asks for no acknowledgement. -/
structure CopiedBy (alters : Alters) (n : UInt32) (f g : Frame) : Prop where
  others : f.header.fromNode ≠ n ∧ f.header.toNode ≠ n
  header : ∃ nextHop lastHop h,
    relayHeaderWithNextHopOpts f.header.parse n nextHop lastHop = some h ∧
    ∃ wantAck, g.header = { h with wantAck := wantAck } ∧ (wantAck = true → h.wantAck = true)
  payload : g.payload = f.payload ∨ alters n f g.payload

/-- From `o`, the nodes of the path, the last one first, have passed on what became `f`. Each
heard on the air what it passed on. -/
inductive Carried (alters : Alters) (air : List Frame) (o : Frame) :
    List UInt32 → Frame → Prop where
  | original : Carried alters air o [] o
  | restamped {path : List UInt32} {f : Frame} (byte : UInt8) (h : Carried alters air o path f) :
      Carried alters air o path (f.restamped byte)
  | passedOn {path : List UInt32} {f g : Frame} {n : UInt32} (h : Carried alters air o path f)
      (heard : f ∈ air) (copied : CopiedBy alters n f g) : Carried alters air o (n :: path) g

/-- A frame as its node builds it: all its hops are left, and the relay byte is the node's own.
mirrors crates/mesh-routing/src/topology.rs:273-312 and the other builders -/
structure Frame.Original (n : UInt32) (f : Frame) : Prop where
  fromNode : f.header.fromNode = n
  hops : f.header.hopStart = f.header.hopLimit
  limit : f.header.hopLimit ≤ 7
  relayNode : f.header.relayNode = lowByte n

section

variable {alters : Alters} {air air' : List Frame} {o f g : Frame} {path : List UInt32}
  {n : UInt32}

theorem Carried.mono (h : Carried alters air o path f) (hair : ∀ f ∈ air, f ∈ air') :
    Carried alters air' o path f := by
  induction h with
  | original => exact .original
  | restamped byte _ ih => exact .restamped byte ih
  | passedOn _ heard copied ih => exact .passedOn ih (hair _ heard) copied

/-- What a copy takes over. -/
structure SamePacket (alters : Alters) (o f : Frame) : Prop where
  packet : f.packet = o.packet
  channel : f.header.channel = o.header.channel
  viaMqtt : f.header.viaMqtt = o.header.viaMqtt
  wantAck : f.header.wantAck = true → o.header.wantAck = true
  payload : (∀ n g p, g.key = o.key → ¬alters n g p) → f.payload = o.payload

theorem SamePacket.trans (h : SamePacket alters o f) (h' : SamePacket alters f g) :
    SamePacket alters o g where
  packet := h'.packet.trans h.packet
  channel := h'.channel.trans h.channel
  viaMqtt := h'.viaMqtt.trans h.viaMqtt
  wantAck hack := h.wantAck (h'.wantAck hack)
  payload hkept :=
    (h'.payload (by rwa [Frame.key_of_packet h.packet])).trans (h.payload hkept)

theorem CopiedBy.samePacket (h : CopiedBy alters n f g) : SamePacket alters f g := by
  obtain ⟨-, ⟨nextHop, lastHop, hdr, hrelay, wantAck, heq, hack⟩, hpayload⟩ := h
  obtain ⟨⟨hopLimit, hopStart⟩, -, rfl⟩ := Option.map_eq_some_iff.mp hrelay
  refine ⟨?_, ?_, ?_, ?_, fun hkept => hpayload.resolve_right (hkept _ _ _ rfl)⟩
  · rw [Frame.packet, Frame.key, heq]
    rfl
  · rw [heq]
    rfl
  · rw [heq]
    rfl
  · rw [heq]
    exact hack

theorem Carried.samePacket (h : Carried alters air o path f) : SamePacket alters o f := by
  induction h with
  | original => exact ⟨rfl, rfl, rfl, id, fun _ => rfl⟩
  | restamped byte _ ih => exact ih.trans ⟨rfl, rfl, rfl, id, fun _ => rfl⟩
  | passedOn _ _ copied ih => exact ih.trans copied.samePacket

theorem hopsAway_of_count {hopStart hopLimit : UInt8} {known : Bool} {hops : Nat}
    (hknown : known = true ∨ hopStart ≠ 0) (hcount : hopLimit.toNat + hops = hopStart.toNat) :
    hopsAway hopStart hopLimit known = some (UInt8.ofNat hops) := by
  have hle : hopLimit ≤ hopStart := UInt8.le_iff_toNat_le.mpr (by omega)
  have htaken : hopStart - hopLimit = UInt8.ofNat hops := by
    apply UInt8.toNat_inj.mp
    have hlt := hopStart.toNat_lt
    rw [UInt8.toNat_sub_of_le _ _ hle, UInt8.toNat_ofNat']
    omega
  have htold : (hopStart == 0 && !known) = false := by
    rcases hknown with rfl | hne
    · exact Bool.and_false _
    · rw [beq_eq_false_iff_ne.mpr hne, Bool.false_and]
  unfold hopsAway
  rw [htold, if_neg Bool.false_ne_true, if_neg (UInt8.not_lt.mpr hle), htaken]

/-- The hop fields of a copy, and its relay byte. -/
structure Counted (n : UInt32) (path : List UInt32) (o f : Frame) : Prop where
  start : f.header.hopStart = o.header.hopStart
  limit : f.header.hopLimit.toNat + path.length = o.header.hopLimit.toNat
  relayNode : f.header.relayNode = lowByte (path.headD n)
  others : ∀ m ∈ path, m ≠ f.header.fromNode ∧ m ≠ f.header.toNode

/-- A packet with hops left loses one, and keeps its start if that is no less. -/
theorem relayHopFields_some {rx : ParsedPacket} {hopLimit hopStart : UInt8}
    (h : relayHopFields rx = some (hopLimit, hopStart)) (hstart : rx.hopLimit ≤ rx.hopStart) :
    hopLimit.toNat + 1 = rx.hopLimit.toNat ∧ hopStart = rx.hopStart := by
  unfold relayHopFields at h
  split at h
  · cases h
  · rename_i hleft
    have hpos : rx.hopLimit ≠ 0 := by simpa using hleft
    have hne : rx.hopLimit.toNat ≠ 0 := fun h0 => hpos (UInt8.toNat_inj.mp h0)
    have hdec : (rx.hopLimit - 1).toNat = rx.hopLimit.toNat - 1 := by
      rw [UInt8.toNat_sub_of_le _ _ (UInt8.le_iff_toNat_le.mpr (by simp; omega))]
      rfl
    have hle : rx.hopLimit.toNat ≤ rx.hopStart.toNat := UInt8.le_iff_toNat_le.mp hstart
    have hkeeps : ¬(rx.hopStart < rx.hopLimit - 1) := by
      rw [UInt8.lt_iff_toNat_lt, hdec]
      omega
    simp only [hkeeps, decide_false, Bool.and_false, if_false, Option.some.injEq, Prod.mk.injEq,
      Bool.false_eq_true] at h
    obtain ⟨rfl, rfl⟩ := h
    exact ⟨by rw [hdec]; omega, rfl⟩

/-- What is passed on had hops left. -/
theorem CopiedBy.left (h : CopiedBy alters n f g) : f.header.hopLimit ≠ 0 := by
  obtain ⟨-, ⟨nextHop, lastHop, hdr, hrelay, -⟩, -⟩ := h
  obtain ⟨fields, hfields, -⟩ := Option.map_eq_some_iff.mp hrelay
  intro h0
  have hnone : relayHopFields f.header.parse = none :=
    if_pos (show (f.header.hopLimit == 0) = true by rw [h0]; rfl)
  rw [hnone] at hfields
  cases hfields

theorem CopiedBy.counted (ho : o.Original n) (hf : Counted n path o f) {m : UInt32}
    (h : CopiedBy alters m f g) : Counted n (m :: path) o g := by
  have hsame := h.samePacket
  obtain ⟨⟨hfrom, hto⟩, ⟨nextHop, lastHop, hdr, hrelay, wantAck, heq, -⟩, -⟩ := h
  obtain ⟨⟨hopLimit, hopStart⟩, hfields, rfl⟩ := Option.map_eq_some_iff.mp hrelay
  have hstart : f.header.hopStart.toNat = o.header.hopLimit.toNat := by rw [hf.start, ho.hops]
  have hlimit := hf.limit
  have hseven : o.header.hopLimit.toNat ≤ 7 := UInt8.le_iff_toNat_le.mp ho.limit
  obtain ⟨hdec, rfl⟩ := relayHopFields_some hfields
    (UInt8.le_iff_toNat_le.mpr (show f.header.hopLimit.toNat ≤ f.header.hopStart.toNat by omega))
  have hdec : hopLimit.toNat + 1 = f.header.hopLimit.toNat := hdec
  have hmasked : hopLimit &&& 7 = hopLimit :=
    Wire.PacketHeader.low3_of_le (UInt8.le_iff_toNat_le.mpr (show hopLimit.toNat ≤ 7 by omega))
  have hkept : f.header.hopStart &&& 7 = f.header.hopStart :=
    Wire.PacketHeader.low3_of_le
      (UInt8.le_iff_toNat_le.mpr (show f.header.hopStart.toNat ≤ 7 by omega))
  constructor
  · rw [heq]
    exact hkept.trans hf.start
  · rw [heq]
    change (hopLimit &&& 7).toNat + (path.length + 1) = o.header.hopLimit.toNat
    rw [hmasked]
    omega
  · rw [heq]
    rfl
  · have hfrom' : g.header.fromNode = f.header.fromNode := congrArg (·.1.1) hsame.packet
    have hto' : g.header.toNode = f.header.toNode := congrArg (·.2) hsame.packet
    intro k hk
    rw [hfrom', hto']
    rcases List.mem_cons.mp hk with rfl | hk
    · exact ⟨hfrom.symm, hto.symm⟩
    · exact hf.others k hk

theorem Carried.counted (ho : o.Original n) (h : Carried alters air o path f) :
    Counted n path o f := by
  induction h with
  | original =>
    exact ⟨rfl, rfl, ho.relayNode, fun m hm => absurd hm List.not_mem_nil⟩
  | restamped byte _ ih => exact ⟨ih.start, ih.limit, ih.relayNode, ih.others⟩
  | passedOn _ _ copied ih => exact copied.counted ho ih

end

/-! ## The network -/

def InboundPacket.heard (packet : InboundPacket) : Frame := ⟨packet.header, packet.payload⟩

/-- The routers, by node number, and every frame that was ever handed to a radio. -/
structure Network where
  routers : UInt32 → Router
  air : List Frame
  /-- ghost: the frames that the nodes have originated -/
  origins : List (UInt32 × Frame)

inductive NetworkEvent where
  /-- a call on the router of a node; the frame it returns goes on the air -/
  | call (node : UInt32) (e : Event)
  /-- a beacon or a reply, of a queue that the model of the router leaves out -/
  | originate (node : UInt32) (frame : Frame)

namespace Network

variable (net : Network)

/-- What a node originates by a call on its router. -/
def originated (node : UInt32) : Output → List (UInt32 × Frame)
  | .originated plan => [(node, plan.frame)]
  | _ => []

def act : NetworkEvent → Network
  | .call node e =>
    let s := (net.routers node).step e
    { routers := fun n => if n = node then s.1 else net.routers n
      air := s.2.frames ++ net.air
      origins := originated node s.2 ++ net.origins }
  | .originate node frame =>
    { net with air := frame :: net.air, origins := (node, frame) :: net.origins }

/-- A node hears what was on the air; what it originates has the header of its builder. -/
def Allows (alters : Alters) : NetworkEvent → Prop
  | .call node (.receive packet _ _ verdict _) =>
    packet.heard ∈ net.air ∧
      ∀ v, verdict = .relay v →
        v.payload = packet.payload ∨ alters node packet.heard v.payload
  | .call node (.pollAdminTx frame _) => frame.Original node
  | .call _ _ => True
  | .originate node frame => frame.Original node

end Network

/-- Any number of nodes, each from its start. -/
def networkLTS (alters : Alters) : LTS Network NetworkEvent where
  init net := net.air = [] ∧ net.origins = [] ∧
    ∀ n, ∃ role window seed, net.routers n = .new n role window seed
  step net e net' := net.Allows alters e ∧ net' = net.act e

namespace Network

variable {alters : Alters} {net net' : Network} {n : UInt32} {f : Frame}

/-- The frame is `o`, which its node originated, as the nodes of the path have passed it on. -/
structure CopyOf (alters : Alters) (net : Network) (o : Frame) (path : List UInt32) (f : Frame) :
    Prop where
  originated : (f.header.fromNode, o) ∈ net.origins
  carried : Carried alters net.air o path f

def Known (alters : Alters) (net : Network) (f : Frame) : Prop :=
  ∃ o path, net.CopyOf alters o path f

structure Sound (alters : Alters) (net : Network) : Prop where
  node : ∀ n, (net.routers n).nodeNum = n
  held : ∀ n, HoldsOnly (net.Known alters) (net.routers n)
  onAir : ∀ f ∈ net.air, net.Known alters f
  original : ∀ n o, (n, o) ∈ net.origins → o.Original n

/-- Nothing leaves the air. -/
theorem act_grows (net : Network) (e : NetworkEvent) :
    (∀ f ∈ net.air, f ∈ (net.act e).air) ∧ ∀ o ∈ net.origins, o ∈ (net.act e).origins := by
  cases e with
  | call n e =>
    exact ⟨fun f hf => List.mem_append_right _ hf, fun o ho => List.mem_append_right _ ho⟩
  | originate n frame =>
    exact ⟨fun f hf => List.mem_cons_of_mem _ hf, fun o ho => List.mem_cons_of_mem _ ho⟩

theorem Known.act (h : net.Known alters f) (e : NetworkEvent) : (net.act e).Known alters f := by
  obtain ⟨o, path, ho, hcarried⟩ := h
  obtain ⟨hair, horigins⟩ := act_grows net e
  exact ⟨o, path, horigins _ ho, hcarried.mono hair⟩

theorem Known.restamped (h : net.Known alters f) (byte : UInt8) :
    net.Known alters (f.restamped byte) := by
  obtain ⟨o, path, ho, hcarried⟩ := h
  exact ⟨o, path, ho, .restamped byte hcarried⟩

/-- A copy that a relay makes. -/
theorem copiedBy_of_relayed {packet : InboundPacket} {verdict : Verdict}
    (hrelay : wireMayRelay packet.header.parse (packet.header.fromNode == n)
      (packet.header.toNode == n) = true)
    (hpayload : ∀ v, verdict = .relay v →
      v.payload = packet.payload ∨ alters n packet.heard v.payload)
    (hf : f ∈ relayedFrames n packet.header.parse packet.payload verdict) :
    CopiedBy alters n packet.heard f := by
  have hothers : packet.header.fromNode ≠ n ∧ packet.header.toNode ≠ n := by
    unfold wireMayRelay at hrelay
    simp only [Bool.and_eq_true, Bool.not_eq_true', beq_eq_false_iff_ne] at hrelay
    exact hrelay.1
  cases verdict with
  | skip replies => cases hf
  | bridge radioId delayMs => cases hf
  | insure heardFrom fireDelayMs =>
    obtain ⟨g, hg, rfl⟩ := Option.map_eq_some_iff.mp (Option.mem_toList.mp hf)
    exact ⟨hothers, ⟨0, false, g, hg, false, rfl, fun h => by cases h⟩, .inl rfl⟩
  | relay v =>
    obtain ⟨g, hg, rfl⟩ := Option.map_eq_some_iff.mp (Option.mem_toList.mp hf)
    exact ⟨hothers, ⟨v.nextHop, v.lastHop, g, hg, g.wantAck, rfl, id⟩, hpayload v rfl⟩

/-- A packet that the application sends. -/
theorem sendLocal_original {r : Router} {q : Router.LocalRequest} {nowMs : UInt32}
    {plan : RelayPlan}
    (h : (r.sendLocal q nowMs).2 = some plan) : plan.frame.Original r.nodeNum := by
  obtain ⟨payload, -, heq⟩ := sendLocal_frame h
  have hmasked (x : UInt8) : x &&& 7 ≤ 7 := by
    rw [UInt8.le_iff_toNat_le, UInt8.toNat_and]
    exact Nat.and_le_right
  rw [heq]
  exact ⟨rfl, rfl, hmasked _, rfl⟩

theorem Sound.init (h : net.air = [] ∧ net.origins = [] ∧
    ∀ n, ∃ role window seed, net.routers n = .new n role window seed) : net.Sound alters where
  node n := by
    obtain ⟨role, window, seed, heq⟩ := h.2.2 n
    rw [heq]
    rfl
  held n := by
    obtain ⟨role, window, seed, heq⟩ := h.2.2 n
    rw [heq]
    constructor <;> intro x hx hactive <;> rw [Slots.mem_all hx] at hactive <;> cases hactive
  onAir f hf := by
    rw [h.1] at hf
    cases hf
  original n o ho := by
    rw [h.2.1] at ho
    cases ho

/-- What a call builds was originated. -/
theorem Sound.builds (h : net.Sound alters) {e : Event} (hallowed : net.Allows alters (.call n e))
    (hbuilds : Builds (net.routers n) e f) : (net.act (.call n e)).Known alters f := by
  cases e with
  | receive packet a hearsUs verdict nowMs =>
    obtain ⟨hheard, hpayload⟩ := hallowed
    obtain ⟨hrelay, hf⟩ := hbuilds
    rw [h.node n] at hrelay hf
    have hcopied := copiedBy_of_relayed hrelay hpayload hf
    obtain ⟨o, path, ho, hcarried⟩ :=
      (h.onAir _ hheard).act (.call n (.receive packet a hearsUs verdict nowMs))
    have hfrom : f.header.fromNode = packet.heard.header.fromNode :=
      congrArg (·.1.1) hcopied.samePacket.packet
    exact ⟨o, n :: path, hfrom ▸ ho, hcarried.passedOn ((act_grows net _).1 _ hheard) hcopied⟩
  | sendLocal q nowMs =>
    obtain ⟨plan, hplan, rfl⟩ := hbuilds
    have hfrom : plan.frame.header.fromNode = n :=
      (sendLocal_original hplan).fromNode.trans (h.node n)
    refine ⟨plan.frame, [], ?_, .original⟩
    rw [hfrom]
    exact List.mem_append_left _ (by simp [Router.step, hplan, Output.of, originated])
  | pollAdminTx frame delay =>
    obtain ⟨plan, hplan, rfl⟩ := hbuilds
    have hframe := pollAdminTx_some hplan
    have hfrom : frame.header.fromNode = n := hallowed.fromNode
    refine ⟨frame, [], ?_, .original⟩
    rw [hfrom]
    exact List.mem_append_left _ (by simp [Router.step, hplan, Output.of, originated, hframe])
  | _ => exact absurd hbuilds id

theorem originated_some {out : Output} {m : UInt32} {o : Frame} (ho : (m, o) ∈ originated n out) :
    m = n ∧ ∃ plan, out = .originated plan ∧ plan.frame = o := by
  cases out with
  | originated plan =>
    obtain ⟨rfl, rfl⟩ := Prod.mk.inj (List.mem_singleton.mp ho)
    exact ⟨rfl, plan, rfl, rfl⟩
  | _ => cases ho

theorem Output.of_originated {o : Option RelayPlan} {plan : RelayPlan}
    (h : Output.of .originated o = .originated plan) : o = some plan := by
  cases o with
  | none => cases h
  | some p =>
    cases h
    rfl

theorem Output.of_ne {kind : RelayPlan → Output} {plan : RelayPlan}
    (hkind : ∀ p, kind p ≠ .originated plan) (o : Option RelayPlan) :
    Output.of kind o ≠ .originated plan := by
  cases o with
  | none => intro h; cases h
  | some p => exact hkind p

/-- What a call originates, it builds. -/
theorem Sound.originated (h : net.Sound alters) {e : Event} {plan : RelayPlan}
    (hallowed : net.Allows alters (.call n e))
    (ho : ((net.routers n).step e).2 = .originated plan) : plan.frame.Original n := by
  cases e with
  | sendLocal q nowMs =>
    have horiginal := sendLocal_original (Output.of_originated ho)
    rwa [h.node n] at horiginal
  | pollAdminTx frame delay =>
    rw [pollAdminTx_some (Output.of_originated ho)]
    exact hallowed
  | receive | pollReadyRelay | pollT1Retransmit | pollReliableRetransmit =>
    exact absurd ho (Output.of_ne (fun p hp => by cases hp) _)
  | takeTxCancels | noteTxDone | noteTxFailure | noteTxQueueRejected | discardQueuedForward
  | noteRxAirtime | maintenance | setDeviceRole | radioReconfigured => cases ho

theorem Sound.call (h : net.Sound alters) {e : Event} (hallowed : net.Allows alters (.call n e)) :
    (net.act (.call n e)).Sound alters := by
  have hkept : ∀ f, net.Known alters f → (net.act (.call n e)).Known alters f :=
    fun f hf => hf.act _
  have hrouter (m : UInt32) : (net.act (.call n e)).routers m =
      if m = n then ((net.routers n).step e).1 else net.routers m := rfl
  obtain ⟨hheld, hframes⟩ := ((h.held n).mono hkept).step (fun f => h.builds hallowed)
    (fun f byte hf => hf.restamped byte)
  refine ⟨fun m => ?_, fun m => ?_, fun f hf => ?_, fun m o ho => ?_⟩
  · rw [hrouter]
    split
    · rename_i hm
      rw [hm]
      exact (step_arms (net.routers n) e).node.trans (h.node n)
    · exact h.node m
  · rw [hrouter]
    split
    · exact hheld
    · exact (h.held m).mono hkept
  · rcases List.mem_append.mp hf with hnew | hold
    · exact hframes f hnew
    · exact hkept f (h.onAir f hold)
  · rcases List.mem_append.mp ho with hnew | hold
    · obtain ⟨rfl, plan, hplan, rfl⟩ := originated_some hnew
      exact h.originated hallowed hplan
    · exact h.original m o hold

theorem Sound.step {e : NetworkEvent} (h : net.Sound alters)
    (hstep : (networkLTS alters).step net e net') :
    net'.Sound alters := by
  obtain ⟨hallowed, rfl⟩ := hstep
  cases e with
  | call n e => exact h.call hallowed
  | originate n frame =>
    refine ⟨h.node, fun m => (h.held m).mono fun f hf => hf.act _, fun f hf => ?_, fun m o ho => ?_⟩
    · rcases List.mem_cons.mp hf with rfl | hold
      · refine ⟨f, [], ?_, .original⟩
        rw [show f.header.fromNode = n from hallowed.fromNode]
        exact List.mem_cons_self
      · exact (h.onAir f hold).act _
    · rcases List.mem_cons.mp ho with hnew | hold
      · rw [Prod.mk.injEq] at hnew
        rw [hnew.1, hnew.2]
        exact hallowed
      · exact h.original m o hold

theorem sound_inductive : (networkLTS alters).Inductive (Sound alters) where
  init _ h := .init h
  step _ _ _ h hs := h.step hs

/-- Each node runs the system of the router. -/
theorem router_reachable (h : (networkLTS alters).Reachable net) (n : UInt32) :
    routerLTS.Reachable (net.routers n) := by
  refine (LTS.Inductive.and sound_inductive
    (J := fun net => ∀ n, routerLTS.Reachable (net.routers n))
    (fun net hinit m => ?_) (fun net e net' hsound _ hrouters hstep m => ?_)).reachable h |>.2 n
  · exact ⟨net.routers m, [], ⟨m, hinit.2.2 m⟩, .nil _⟩
  · obtain ⟨hallowed, rfl⟩ := hstep
    cases e with
    | originate n frame => exact hrouters m
    | call n e =>
      have hpossible : (net.routers n).Possible e := by
        cases e with
        | pollAdminTx frame delay =>
          exact hallowed.fromNode.trans (hsound.node n).symm
        | _ => trivial
      change routerLTS.Reachable (if m = n then ((net.routers n).step e).1 else net.routers m)
      split
      · exact (hrouters n).step (l := (e, ((net.routers n).step e).2)) ⟨hpossible, rfl⟩
      · exact hrouters m

/-! A text of node 5 for node 9 that node 7 relays. -/

def quietNetwork : Network := ⟨fun n => .new n 0 88397 1, [], []⟩

def textFor : Router.LocalRequest := { ownText with toNode := 9 }

def textFrame : Frame := ⟨⟨9, 5, 1, 0, 3, 3, false, false, 0, 5⟩, [1]⟩

def heardText : InboundPacket := ⟨textFrame.header, textFrame.payload, 0, 10⟩

def relayText : Verdict :=
  .relay ⟨0, false, [1], 5, 100, .empty, ⟨false, 0, fun _ => 0, fun _ => 0⟩, none⟩

def textEvents : List NetworkEvent :=
  [.call 5 (.sendLocal textFor 0), .call 7 (.receive heardText undecoded false relayText 50),
    .call 7 (.pollReadyRelay 1000 (fun _ => true) ⟨false, 0, fun _ => 0, fun _ => 0⟩)]

def relayedNetwork : Network := textEvents.foldl act quietNetwork

def relayedText : Frame := ⟨⟨9, 5, 1, 0, 2, 3, false, false, 0, 7⟩, [1]⟩

theorem relayedNetwork_reachable (alters : Alters) :
    (networkLTS alters).Reachable relayedNetwork := by
  refine ⟨quietNetwork, textEvents, ⟨rfl, rfl, fun n => ⟨0, 88397, 1, rfl⟩⟩, ?_⟩
  refine .cons ⟨trivial, rfl⟩ (.cons ⟨⟨by decide +kernel, fun v hv => ?_⟩, rfl⟩
    (.cons ⟨trivial, rfl⟩ (.nil _)))
  cases hv
  exact .inl rfl

theorem relayedNetwork_air : relayedNetwork.air = [relayedText, textFrame] := by decide +kernel

theorem relayedText_copy (alters : Alters) :
    relayedNetwork.CopyOf alters textFrame [7] relayedText where
  originated := by decide +kernel
  carried := by
    exact .passedOn .original (by decide +kernel)
      ⟨by decide, ⟨0, false, relayedText.header, by decide, false, rfl, id⟩, .inl rfl⟩

/-- Every frame on the air is a copy of a frame that its node originated, and says what that
frame says: the ids, the destination and the channel are the same, an acknowledgement is asked for
only if the original asks for one, and the payload differs only if a node on the way may alter
it. -/
theorem on_air_carried (h : (networkLTS alters).Reachable net) (hf : f ∈ net.air) :
    ∃ o path, net.CopyOf alters o path f ∧ o.Original f.header.fromNode ∧
      SamePacket alters o f := by
  have hsound := sound_inductive.reachable h
  obtain ⟨o, path, ho, hcarried⟩ := hsound.onAir f hf
  exact ⟨o, path, ⟨ho, hcarried⟩, hsound.original _ _ ho, hcarried.samePacket⟩

theorem on_air_carried_text :
    ∃ o path, relayedNetwork.CopyOf (fun _ _ _ => False) o path relayedText ∧ o.Original 5 ∧
      SamePacket (fun _ _ _ => False) o relayedText := by
  refine on_air_carried (relayedNetwork_reachable _) ?_
  rw [relayedNetwork_air]
  exact List.mem_cons_self

theorem CopyOf.counted (h : (networkLTS alters).Reachable net) {o : Frame} {path : List UInt32}
    (hf : net.CopyOf alters o path f) :
    o.Original f.header.fromNode ∧ Counted f.header.fromNode path o f := by
  have horiginal := (sound_inductive.reachable h).original _ _ hf.originated
  exact ⟨horiginal, hf.carried.counted horiginal⟩

/-- The hop fields of a copy count the nodes that passed it on, none of which is its originator
or its destination; its relay byte is that of the last of them. -/
theorem hops_counted (h : (networkLTS alters).Reachable net) {o : Frame} {path : List UInt32}
    (hf : net.CopyOf alters o path f) :
    path.length ≤ 7 ∧ f.header.hopStart = o.header.hopLimit ∧
      f.header.hopLimit.toNat + path.length = o.header.hopLimit.toNat ∧
      hopsAway f.header.hopStart f.header.hopLimit true = some (UInt8.ofNat path.length) ∧
      f.header.relayNode = lowByte (path.headD f.header.fromNode) ∧
      ∀ m ∈ path, m ≠ f.header.fromNode ∧ m ≠ f.header.toNode := by
  obtain ⟨horiginal, hcounted⟩ := hf.counted h
  have hstart : f.header.hopStart = o.header.hopLimit := hcounted.start.trans horiginal.hops
  have hlimit := hcounted.limit
  have hseven : o.header.hopLimit.toNat ≤ 7 := UInt8.le_iff_toNat_le.mp horiginal.limit
  refine ⟨by omega, hstart, hlimit, hopsAway_of_count (.inl rfl) ?_, hcounted.relayNode,
    hcounted.others⟩
  rw [hlimit, hstart]

theorem hops_counted_text :
    hopsAway relayedText.header.hopStart relayedText.header.hopLimit true = some 1 ∧
      relayedText.header.relayNode = lowByte 7 := by
  obtain ⟨-, -, -, hhops, hrelay, -⟩ :=
    hops_counted (relayedNetwork_reachable fun _ _ _ => False) (relayedText_copy _)
  exact ⟨hhops, hrelay⟩

/-- A frame passes for one that its originator sent if and only if nobody has passed it on. -/
theorem direct_iff_original (h : (networkLTS alters).Reachable net) {o : Frame} {path : List UInt32}
    (hf : net.CopyOf alters o path f) :
    isDirectPacket f.header.parse.fromNode f.header.parse.hopStart f.header.parse.hopLimit
      f.header.parse.relayNode = true ↔ path = [] := by
  obtain ⟨-, hstart, hlimit, -, hrelayNode, -⟩ := hops_counted h hf
  have hstart' : f.header.parse.hopStart = o.header.hopLimit := hstart
  have hlimit' : f.header.parse.hopLimit.toNat + path.length = o.header.hopLimit.toNat := hlimit
  rw [isDirectPacket, Bool.and_eq_true, beq_iff_eq, hstart']
  constructor
  · rintro ⟨hall, -⟩
    rw [hall] at hlimit'
    exact List.eq_nil_of_length_eq_zero (by omega)
  · rintro rfl
    refine ⟨UInt8.toNat_inj.mp hlimit'.symm, ?_⟩
    change ((if f.header.hopStart == 0 then 0 else f.header.relayNode) == 0 ||
      (if f.header.hopStart == 0 then 0 else f.header.relayNode) == lowByte f.header.fromNode) =
        true
    rw [hrelayNode]
    split <;> simp

theorem direct_iff_original_text :
    isDirectPacket relayedText.header.parse.fromNode relayedText.header.parse.hopStart
      relayedText.header.parse.hopLimit relayedText.header.parse.relayNode ≠ true :=
  mt (direct_iff_original (relayedNetwork_reachable fun _ _ _ => False) (relayedText_copy _)).mp
    (List.cons_ne_nil _ _)

end Network

/-! ## Replies -/

/-- mirrors crates/mesh-routing/src/routing_ack.rs:56-76 -/
def hopLimitForResponse (parsed : ParsedPacket) (hopStartKnown : Bool) (configured : UInt8) :
    UInt8 :=
  match hopsAway parsed.hopStart parsed.hopLimit hopStartKnown with
  | none => configured
  | some hopsUsed =>
    if configured < hopsUsed then hopsUsed
    else if parsed.hopStart == 0 then 0
    else
      -- `saturating_add`
      let withMargin := UInt8.ofNat (min (hopsUsed.toNat + 2) 255)
      if withMargin < configured then withMargin else configured

/-- The hop limit and the next hop of a reply.
mirrors crates/mesh-routing/src/router.rs:2996-3009 -/
def responseHeader (parsed : ParsedPacket) (hopStartKnown capsLastHop : Bool) (configured : UInt8) :
    UInt8 × UInt8 :=
  let base := hopLimitForResponse parsed hopStartKnown configured
  if isDirectPacket parsed.fromNode parsed.hopStart parsed.hopLimit parsed.relayNode &&
      capsLastHop then
    (min LAST_HOP_BUDGET base, lowByte parsed.fromNode)
  else (base, 0)

/-- The nodes of the path relay a header one after the other, with the next hops they choose. -/
def passAlong (choice : UInt32 → UInt32 × Bool) : List UInt32 → PacketHeader → Option PacketHeader
  | [], h => some h
  | n :: path, h =>
    if wireMayRelay h.parse (h.fromNode == n) (h.toNode == n) then
      (relayHeaderWithNextHopOpts h.parse n (choice n).1 (choice n).2).bind (passAlong choice path)
    else none

/-- A relay takes one of the hops that are left. -/
theorem relayHeader_left {h : PacketHeader} (hleft : 0 < h.hopLimit.toNat)
    (hseven : h.hopLimit.toNat ≤ 7) (n nextHop : UInt32) (lastHop : Bool) :
    ∃ g, relayHeaderWithNextHopOpts h.parse n nextHop lastHop = some g ∧
      g.hopLimit.toNat + 1 = h.hopLimit.toNat ∧ g.fromNode = h.fromNode ∧ g.toNode = h.toNode := by
  have hne : h.hopLimit ≠ 0 := by
    intro h0
    rw [h0] at hleft
    exact absurd hleft (by decide)
  have hdec : (h.hopLimit - 1).toNat = h.hopLimit.toNat - 1 := by
    rw [UInt8.toNat_sub_of_le _ _ (UInt8.le_iff_toNat_le.mpr (by simp; omega))]
    rfl
  have hmasked : (h.hopLimit - 1) &&& 7 = h.hopLimit - 1 :=
    Wire.PacketHeader.low3_of_le
      (UInt8.le_iff_toNat_le.mpr (show (h.hopLimit - 1).toNat ≤ 7 by omega))
  have hfields : ∃ hopStart, relayHopFields h.parse = some (h.hopLimit - 1, hopStart) := by
    unfold relayHopFields
    rw [if_neg (show ¬(h.parse.hopLimit == 0) = true from fun h0 => hne (beq_iff_eq.mp h0))]
    exact ⟨_, rfl⟩
  obtain ⟨hopStart, hfields⟩ := hfields
  unfold relayHeaderWithNextHopOpts
  rw [hfields]
  refine ⟨_, rfl, ?_, rfl, rfl⟩
  change ((h.hopLimit - 1) &&& 7).toNat + 1 = h.hopLimit.toNat
  rw [hmasked]
  omega

theorem passAlong_some (choice : UInt32 → UInt32 × Bool) {path : List UInt32} {h : PacketHeader}
    (hleft : path.length ≤ h.hopLimit.toNat) (hseven : h.hopLimit.toNat ≤ 7)
    (hothers : ∀ m ∈ path, m ≠ h.fromNode ∧ m ≠ h.toNode) :
    ∃ g, passAlong choice path h = some g ∧ g.hopLimit.toNat + path.length = h.hopLimit.toNat ∧
      g.fromNode = h.fromNode ∧ g.toNode = h.toNode := by
  induction path generalizing h with
  | nil => exact ⟨h, rfl, rfl, rfl, rfl⟩
  | cons n path ih =>
    rw [List.length_cons] at hleft
    obtain ⟨⟨hfrom, hto⟩, hrest⟩ := List.forall_mem_cons.mp hothers
    obtain ⟨g, hrelay, hlimit, hfrom', hto'⟩ :=
      relayHeader_left (by omega) hseven n (choice n).1 (choice n).2
    obtain ⟨g', hpass, hlimit', hfrom'', hto''⟩ :=
      ih (h := g) (by omega) (by omega) (by rw [hfrom', hto']; exact hrest)
    have hmay : wireMayRelay h.parse (h.fromNode == n) (h.toNode == n) = true := by
      have hpos : 0 < h.hopLimit := UInt8.lt_iff_toNat_lt.mpr (show 0 < h.hopLimit.toNat by omega)
      have hlimit : h.parse.hopLimit = h.hopLimit := rfl
      simp [wireMayRelay, hfrom.symm, hto.symm, hlimit, hpos]
    refine ⟨g', ?_, ?_, hfrom''.trans hfrom', hto''.trans hto'⟩
    · rw [passAlong, if_pos hmay, hrelay, Option.bind_some, hpass]
    · rw [List.length_cons]
      omega

/-- A reply gets at least the hops that the request has used. -/
theorem hopLimitForResponse_ge {parsed : ParsedPacket} (known : Bool) {configured : UInt8}
    {hops : Nat} (hseven : configured ≤ 7) (hhops : hops ≤ 7)
    (hle : parsed.hopLimit.toNat + hops = parsed.hopStart.toNat) :
    hops ≤ (hopLimitForResponse parsed known configured).toNat ∧
      (hopLimitForResponse parsed known configured).toNat ≤ 7 := by
  have hconfigured : configured.toNat ≤ 7 := UInt8.le_iff_toNat_le.mp hseven
  have hle' : parsed.hopLimit ≤ parsed.hopStart := UInt8.le_iff_toNat_le.mpr (by omega)
  have hused : (parsed.hopStart - parsed.hopLimit).toNat = hops := by
    rw [UInt8.toNat_sub_of_le _ _ hle']
    omega
  have hmargin : (UInt8.ofNat (min (hops + 2) 255)).toNat = hops + 2 := by
    rw [UInt8.toNat_ofNat']
    omega
  unfold hopLimitForResponse hopsAway
  rw [if_neg (UInt8.not_lt.mpr hle')]
  split
  · -- nothing is known of the hops: the packet had none to start with
    rename_i hnone
    have hzero : parsed.hopStart = 0 := by simp_all
    rw [hzero] at hle
    have hzero' : (0 : UInt8).toNat = 0 := rfl
    omega
  · rename_i hopsUsed hsome
    have hcount : parsed.hopStart - parsed.hopLimit = hopsUsed := by
      split at hsome
      · cases hsome
      · exact Option.some.inj hsome
    rw [hcount] at hused
    split
    · omega
    · rename_i hfits
      rw [UInt8.not_lt, UInt8.le_iff_toNat_le] at hfits
      split
      · rename_i hzero
        rw [beq_iff_eq.mp hzero] at hle
        have hzero' : (0 : UInt8).toNat = 0 := rfl
        omega
      · dsimp only
        rw [hused]
        split
        · rename_i hlt
          rw [UInt8.lt_iff_toNat_lt] at hlt
          omega
        · omega

/-- Whatever reached its destination over a path, a reply to it may go back over the path,
whatever next hops the nodes choose. -/
theorem response_returns {alters : Alters} {net : Network} {o f : Frame} {path : List UInt32}
    (h : (networkLTS alters).Reachable net) (hf : net.CopyOf alters o path f) {configured : UInt8}
    (hconfigured : configured ≤ 7) (known capsLastHop wantAck : Bool) (id : UInt32)
    (channel : UInt8) (choice : UInt32 → UInt32 × Bool) :
    let (hop, nextHop) := responseHeader f.header.parse known capsLastHop configured
    ∃ g, passAlong choice path
      (.fromFields f.header.fromNode f.header.toNode id channel hop hop wantAck
        false nextHop (lowByte f.header.toNode)) = some g ∧
      g.hopLimit.toNat + path.length = hop.toNat ∧ g.toNode = f.header.fromNode := by
  obtain ⟨hlength, -, hlimit, -, -, hothers⟩ := Network.hops_counted h hf
  have hdirect := Network.direct_iff_original h hf
  obtain ⟨horiginal, hcounted⟩ := hf.counted h
  have hle : f.header.parse.hopLimit.toNat + path.length = f.header.parse.hopStart.toNat := by
    have hstart : f.header.hopStart = o.header.hopLimit := hcounted.start.trans horiginal.hops
    rw [show f.header.parse.hopStart = o.header.hopLimit from hstart]
    exact hlimit
  obtain ⟨hge, hseven⟩ := hopLimitForResponse_ge known hconfigured hlength hle
  have hheader :
      path.length ≤ (responseHeader f.header.parse known capsLastHop configured).1.toNat ∧
      (responseHeader f.header.parse known capsLastHop configured).1.toNat ≤ 7 := by
    unfold responseHeader
    dsimp only
    split
    · rename_i hlast
      rw [Bool.and_eq_true] at hlast
      rw [hdirect.mp hlast.1]
      refine ⟨Nat.zero_le _, ?_⟩
      change (if LAST_HOP_BUDGET ≤ _ then LAST_HOP_BUDGET else _).toNat ≤ 7
      split
      · decide
      · exact hseven
    · exact ⟨hge, hseven⟩
  dsimp only
  generalize responseHeader f.header.parse known capsLastHop configured = header at hheader ⊢
  obtain ⟨hop, nextHop⟩ := header
  have hmasked : hop &&& 7 = hop :=
    Wire.PacketHeader.low3_of_le (UInt8.le_iff_toNat_le.mpr hheader.2)
  have hhop : (PacketHeader.fromFields f.header.fromNode f.header.toNode id channel hop hop wantAck
      false nextHop (lowByte f.header.toNode)).hopLimit = hop := hmasked
  have hback : ∀ m ∈ path, m ≠ f.header.toNode ∧ m ≠ f.header.fromNode :=
    fun m hm => (hothers m hm).symm
  rw [← hhop] at hheader
  obtain ⟨g, hpass, hleft, -, hto⟩ := passAlong_some choice hheader.1 hheader.2 hback
  rw [hhop] at hleft
  exact ⟨g, hpass, hleft, hto⟩

/-- A reply to the relayed text. -/
theorem response_returns_text :
    ∃ g, passAlong (fun _ => (0, false)) [7] (.fromFields 5 9 77 0 3 3 false false 0
        (lowByte 9)) = some g ∧ g.hopLimit.toNat + 1 = 3 ∧ g.toNode = 5 := by
  have hreply := response_returns (Network.relayedNetwork_reachable fun _ _ _ => False)
    (Network.relayedText_copy _) (by decide : (3 : UInt8) ≤ 7) true false false 77 0
    fun _ => (0, false)
  exact hreply

end Meshrustic.Routing
