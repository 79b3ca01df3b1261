/-
  File:      Nullgate/DataPlane/OneWay.lean
  Subject:   THE ONE-WAY BLOCK: what a device that refuses remote access still lets in.

  * `ReturnTraffic` -- a packet is return traffic behind a trace: this device has opened its
    flow, and has sent a packet of it within the TTL;
  * `one_way_block`: whatever is admitted while the block is on is return traffic, of TCP in
    the strict sense that this device sent the SYN. Of other protocols an answer counts as an
    opening (`one_way_block_udp`);
  * `inbound_bound`: where every datagram that meets the block has the address of its own sender,
    what is admitted is return traffic of a flow to that sender. Nothing in the pump compares the
    two (`answer_from_another_member`), so each datagram under another address gets in behind a
    packet that opens its flow.
-/
import Nullgate.DataPlane.Options
import Nullgate.DataPlane.Pump
import Nullgate.Roster.Build

namespace Nullgate

open Nullgate.Lib DataPlane

variable {s : DataPlane} {k : FlowKey}

/-! ## 1. Return traffic -/

/-- **Behind the trace `pre`, a packet of key `k` is return traffic**: this device has sent a
    packet that opens the reversed flow (for TCP a SYN without ACK), and one of that flow at
    most the TTL ago. -/
structure ReturnTraffic (s : DataPlane) (pre : List DataEvent) (k : FlowKey) : Prop where
  opened : ∃ a pkt b, pre = a ++ .outbound pkt :: b ∧ Opens pkt k.reversed
  recent : ∃ a pkt b, pre = a ++ .outbound pkt :: b ∧ flowKey pkt = some k.reversed ∧
    alive (run step s pre).coarseNow (run step s a).coarseNow = true

/-- **What the flow table admits is return traffic**, of a flow that was not in it at first. -/
theorem returnTraffic_of_allows {pre : List DataEvent} {pkt : List UInt8}
    (h0 : s.conntrack.flows k.reversed = none) (hk : flowKey pkt = some k)
    (h : (run step s pre).conntrack.allowsInbound pkt (run step s pre).coarseNow = true) :
    ReturnTraffic s pre k := by
  obtain ⟨k', seen, hk', hseen, halive⟩ := (Conntrack.allowsInbound_iff _).mp h
  obtain rfl := Option.some.inj (hk.symm.trans hk')
  refine ⟨opened_of_tracked h0 (by rw [hseen]; rfl), ?_⟩
  obtain ⟨a, out, b, hpre, hout, ht⟩ := stamped_of_tracked h0 hseen
  exact ⟨a, out, b, hpre, hout, by rw [← ht]; exact halive⟩

/-! ## 2. Who opened the conversation -/

/-- The conversation of `c`: the flow and its reverse. -/
def InConversation (c : FlowKey) (pkt : List UInt8) : Prop :=
  flowKey pkt = some c ∨ flowKey pkt = some c.reversed

/-- Nothing of the conversation is tracked. -/
def Untracked (s : DataPlane) (c : FlowKey) : Prop :=
  s.conntrack.flows c = none ∧ s.conntrack.flows c.reversed = none

/-- **The one-way block.** In every trace of packets, ticks, toggles and table updates, and for
    every conversation of which nothing is tracked at first, whichever side sends first: an
    inbound packet of it is admitted while the block is on only as return traffic. Behind it
    stand, in the trace, a packet of this device that opens the flow (for TCP a SYN without
    ACK), and one of the flow that is not older than the TTL. -/
theorem one_way_block (l : List DataEvent) {c : FlowKey} (h0 : Untracked s c) :
    ∀ pre peer pkt post, l = pre ++ .inbound peer pkt :: post → InConversation c pkt →
      (run step s pre).AdmitsBlocked pkt → ∃ k, flowKey pkt = some k ∧ ReturnTraffic s pre k := by
  intro pre peer pkt post _ hconv hadm
  obtain ⟨-, -, hallow⟩ := admitsBlocked_iff.mp hadm
  rcases hconv with hk | hk
  · exact ⟨c, hk, returnTraffic_of_allows h0.2 hk hallow⟩
  · exact ⟨c.reversed, hk, returnTraffic_of_allows h0.1 hk hallow⟩

/-- The first packet of the conversation in the trace is an inbound one. -/
def InboundFirst (l : List DataEvent) (c : FlowKey) : Prop :=
  ∃ pre peer pkt post, l = pre ++ .inbound peer pkt :: post ∧ InConversation c pkt ∧
    ∀ ev ∈ pre, ∀ pkt', ev = .outbound pkt' ∨ (∃ p, ev = .inbound p pkt') →
      ¬ InConversation c pkt'

/-! ## 3. Whose packet it is -/

/-- The packet from the connection of `peer`, if it is admitted while the block is on, is
    return traffic of a flow this device opened to the address the roster has for `peer`. -/
def BoundToPeer (s : DataPlane) (pre : List DataEvent) (peer : Id) (pkt : List UInt8) : Prop :=
  (run step s pre).AdmitsBlocked pkt → ∃ k m, flowKey pkt = some k ∧
    (run step s pre).roster.member peer = some m ∧ k.src = m.virtualIp ∧ ReturnTraffic s pre k

/-- **A peer sends under its own address**: the source of a datagram that meets the block is the
    address the roster has for the peer of the connection. -/
def OwnSource (d : DataPlane) : DataEvent → Prop
  | .inbound peer pkt => d.tun = true → d.block = true → ∀ k, flowKey pkt = some k →
      ∃ m, d.roster.member peer = some m ∧ k.src = m.virtualIp
  | _ => True

/-- What meets the block under the address of its sender is bound to it. -/
theorem boundToPeer_of_ownSource {pre : List DataEvent} {peer : Id} {pkt : List UInt8}
    (h0 : ∀ k, s.conntrack.flows k = none)
    (h : OwnSource (run step s pre) (.inbound peer pkt)) : BoundToPeer s pre peer pkt := by
  intro hadm
  obtain ⟨hblock, htun, hallow⟩ := admitsBlocked_iff.mp hadm
  obtain ⟨k, -, hk, -, -⟩ := (Conntrack.allowsInbound_iff _).mp hallow
  obtain ⟨m, hm, hsrc⟩ := h htun hblock k hk
  exact ⟨k, m, hk, hm, hsrc, returnTraffic_of_allows (h0 k.reversed) hk hallow⟩

/-- A packet of 34 bytes that opens the flow `k`: a header of 20, the ports, and a SYN. -/
def openingPacket (k : FlowKey) : List UInt8 :=
  [0x45, 0, 0, 0, 0, 0, 0, 0, 0, k.proto, 0, 0, k.src.octets.1, k.src.octets.2.1,
    k.src.octets.2.2.1, k.src.octets.2.2.2, k.dst.octets.1, k.dst.octets.2.1,
    k.dst.octets.2.2.1, k.dst.octets.2.2.2, (k.srcPort >>> 8).toUInt8, k.srcPort.toUInt8,
    (k.dstPort >>> 8).toUInt8, k.dstPort.toUInt8] ++ List.replicate 9 0 ++ [0x02]

/-- Only TCP and UDP have ports. -/
theorem ports_of_flowKey {pkt : List UInt8} (h : flowKey pkt = some k) :
    (k.proto = 6 ∨ k.proto = 17) ∨ (k.srcPort = 0 ∧ k.dstPort = 0) := by
  by_cases hp : byteAt pkt 9 = 6 ∨ byteAt pkt 9 = 17
  · refine Or.inl ?_
    unfold flowKey at h
    split at h
    · cases h
    split at h
    · cases h
    · rw [← Option.some.inj h]
      exact hp
  · refine Or.inr ?_
    have hports : ports pkt (ihl pkt) = (0, 0) := by
      rw [not_or] at hp
      simp [ports, hp]
    rw [flowKey, hports] at h
    split at h
    · cases h
    split at h
    · cases h
    · rw [← Option.some.inj h]
      exact ⟨rfl, rfl⟩

theorem ports_openingPacket (hk : (k.proto = 6 ∨ k.proto = 17) ∨ (k.srcPort = 0 ∧ k.dstPort = 0)) :
    ports (openingPacket k) 20 = (k.srcPort, k.dstPort) := by
  have hsrc : wordAt (openingPacket k) 20 = k.srcPort := by
    rw [← UInt16.toNat_inj, toNat_wordAt]
    exact toNat_high_low k.srcPort
  have hdst : wordAt (openingPacket k) 22 = k.dstPort := by
    rw [← UInt16.toNat_inj, toNat_wordAt]
    exact toNat_high_low k.dstPort
  have hproto : byteAt (openingPacket k) 9 = k.proto := rfl
  have hlen : (openingPacket k).length = 34 := rfl
  rw [ports, hproto, hlen, hsrc, hdst]
  rcases hk with (hk | hk) | ⟨h1, h2⟩
  · simp [hk]
  · simp [hk]
  · simp [h1, h2]

/-- **Every flow a packet can have is one that a packet opens.** -/
theorem opens_openingPacket {pkt : List UInt8} (h : flowKey pkt = some k) :
    Opens (openingPacket k.reversed) k.reversed := by
  have hports : ports (openingPacket k.reversed) 20 = (k.reversed.srcPort, k.reversed.dstPort) :=
    ports_openingPacket ((ports_of_flowKey h).imp_right And.symm)
  have hlen : (openingPacket k.reversed).length = 34 := rfl
  have hfirst : byteAt (openingPacket k.reversed) 0 = 0x45 := rfl
  have hv4 : isIpv4 (openingPacket k.reversed) = true := by
    rw [isIpv4, hlen, hfirst]
    rfl
  have hihl : ihl (openingPacket k.reversed) = 20 := by
    rw [ihl, hfirst]
    rfl
  constructor
  · rw [flowKey, hv4, hihl, hlen, hports]
    rfl
  · intro hproto
    have hbyte : byteAt (openingPacket k.reversed) 9 = 6 := hproto
    have hflags : tcpFlags (openingPacket k.reversed) = some 0x02 := by
      rw [tcpFlags, hv4, hihl, hlen, hbyte]
      rfl
    rw [isTcpInitiation, hflags]
    rfl

/-- Behind a packet that opens the flow of its return traffic, a datagram is admitted. -/
theorem admits_of_opened {d : DataPlane} {pkt : List UInt8} (htun : d.tun = true)
    (hblock : d.block = true) (hk : flowKey pkt = some k) :
    ((d.step (.tick d.coarseNow [])).step (.outbound (openingPacket k.reversed))).AdmitsBlocked
      pkt := by
  have hflows := flows_outbound_of_opens (d := d.step (.tick d.coarseNow []))
    (opens_openingPacket hk) rfl
  obtain ⟨ct, kick, hframe⟩ :=
    (d.step (.tick d.coarseNow [])).pumpOutbound_frame (openingPacket k.reversed)
  rw [step] at hflows ⊢
  rw [hframe] at hflows ⊢
  refine admitsBlocked_iff.mpr ⟨hblock, htun, (Conntrack.allowsInbound_iff _).mpr ?_⟩
  refine ⟨k, d.coarseNow, hk, hflows, ?_⟩
  show alive d.coarseNow d.coarseNow = true
  rw [alive_iff]
  omega

/-- **Packets are bound to the peer that sent them** in every run in which each datagram that
    meets the block has its sender's own address. Behind every run, the datagrams that have it
    are the ones that are bound to their sender whatever packet this device sends next. -/
theorem inbound_bound (s : DataPlane) (h0 : ∀ k, s.conntrack.flows k = none) :
    (∀ l : List DataEvent, EachStep step OwnSource s l →
      ∀ pre peer pkt post, l = pre ++ .inbound peer pkt :: post → BoundToPeer s pre peer pkt) ∧
    ∀ (pre : List DataEvent) (peer : Id) (pkt : List UInt8),
      (∀ ports out, BoundToPeer s
          (pre ++ [.tick (run step s pre).coarseNow ports, .outbound out]) peer pkt) ↔
        OwnSource (run step s pre) (.inbound peer pkt) := by
  refine ⟨?_, ?_⟩
  · intro l hl pre peer pkt post hpos
    exact boundToPeer_of_ownSource h0 (eachStep_iff.mp hl pre _ post hpos)
  · intro pre peer pkt
    constructor
    · intro hbound htun hblock k hk
      have hadm := admits_of_opened htun hblock hk
      obtain ⟨k', m, hk', hm, hsrc, -⟩ := hbound [] (openingPacket k.reversed) (by
        rw [run_append]
        exact hadm)
      obtain rfl := Option.some.inj (hk.symm.trans hk')
      obtain ⟨ct, kick, hframe⟩ := ((run step s pre).step
        (.tick (run step s pre).coarseNow [])).pumpOutbound_frame (openingPacket k.reversed)
      rw [run_append, run_cons, run_cons, run_nil, step, hframe] at hm
      exact ⟨m, hm, hsrc⟩
    · intro hown ports out
      refine boundToPeer_of_ownSource h0 ?_
      obtain ⟨ct, kick, hframe⟩ := ((run step s pre).step
        (.tick (run step s pre).coarseNow ports)).pumpOutbound_frame out
      rw [run_append, run_cons, run_cons, run_nil, step, hframe]
      exact hown

/-! ## 4. Two devices that are answered -/

namespace Sample

/-- An IPv4 packet of 34 bytes: a header of 20, ports, and the flags byte of TCP. -/
def packet (src dst proto sport dport flags : UInt8) : List UInt8 :=
  [0x45, 0, 0, 0, 0, 0, 0, 0, 0, proto, 0, 0, 10, 99, 0, src, 10, 99, 0, dst,
    0, sport, 0, dport, 0, 0, 0, 0, 0, 0, 0, 0, 0, flags]

/-- Member 5 sends UDP, device 2 replies, turns the block on, and hears from member 5 again. -/
def udpAnswered : List DataEvent :=
  [.tunUp, .tick 1000 [], .inbound (key 5) (packet 5 2 17 40 53 0),
    .outbound (packet 2 5 17 53 40 0), .setRemoteAccessDisabled true,
    .inbound (key 5) (packet 5 2 17 40 53 0)]

def udpFlow : FlowKey := ⟨⟨10, 99, 0, 5⟩, ⟨10, 99, 0, 2⟩, 17, 40, 53⟩

/-- A roster with members 3 and 66 at the addresses of these hosts. -/
def twoPeers : Roster :=
  let member (host : UInt8) : Member :=
    { hostname := "pc", role := .peer, virtualIp := ⟨10, 99, 0, host⟩, addedBy := key 1 }
  { members := (∅ : Std.ExtTreeMap Id Member).insert (key 3) (member 3)
      |>.insert (key 66) (member 66) }

/-- Device 2, under the block, opens a TCP connection to member 3. -/
def opensTcp : List DataEvent :=
  [.roster twoPeers, .routes twoPeers, .tunUp, .setHidden true, .tick 1000 [],
    .outbound (packet 2 3 6 51 22 0x02)]

/-- The answer of member 3's service, with SYN and ACK. -/
def synAck : List UInt8 := packet 3 2 6 22 51 0x12

end Sample

theorem one_way_block_sample : ∃ k, flowKey Sample.synAck = some k ∧
    ReturnTraffic {} Sample.opensTcp k :=
  one_way_block (s := {}) (Sample.opensTcp ++ [.inbound (Sample.key 3) Sample.synAck])
    (c := ⟨⟨10, 99, 0, 3⟩, ⟨10, 99, 0, 2⟩, 6, 22, 51⟩) ⟨rfl, rfl⟩
    Sample.opensTcp (Sample.key 3) Sample.synAck [] rfl (Or.inl (by decide)) (by decide)

/-- **An answer opens a UDP flow**: a conversation the other side began does not stay shut until
    this device sends a SYN. -/
theorem one_way_block_udp :
    ¬ ∀ (l : List DataEvent) (c : FlowKey), InboundFirst l c →
      ∀ pre peer pkt post, l = pre ++ .inbound peer pkt :: post → InConversation c pkt →
        (run step {} pre).AdmitsBlocked pkt →
        ∃ a syn b, pre = a ++ .outbound syn :: b ∧ InConversation c syn ∧
          isTcpInitiation syn = true := by
  intro h
  have hfirst : InboundFirst Sample.udpAnswered Sample.udpFlow := by
    refine ⟨[.tunUp, .tick 1000 []], Sample.key 5, _, _, rfl, Or.inl (by decide), ?_⟩
    intro ev hev pkt' hpkt
    rcases List.mem_cons.mp hev with rfl | hev
    · rcases hpkt with hpkt | ⟨p, hpkt⟩ <;> cases hpkt
    · obtain rfl := List.mem_singleton.mp hev
      rcases hpkt with hpkt | ⟨p, hpkt⟩ <;> cases hpkt
  obtain ⟨a, syn, b, hpre, -, hsyn⟩ := h Sample.udpAnswered Sample.udpFlow hfirst
    (Sample.udpAnswered.take 5) (Sample.key 5) (Sample.packet 5 2 17 40 53 0) [] rfl
    (Or.inl (by decide)) (by decide)
  have hmem : DataEvent.outbound syn ∈ Sample.udpAnswered.take 5 := by
    rw [hpre]
    exact List.mem_append_right _ List.mem_cons_self
  -- the only packet the device has sent is UDP
  have hout : syn = Sample.packet 2 5 17 53 40 0 := by
    simpa [Sample.udpAnswered] using hmem
  rw [hout] at hsyn
  exact absurd hsyn (by decide)

theorem inbound_bound_sample : BoundToPeer {} Sample.opensTcp (Sample.key 3) Sample.synAck := by
  refine (inbound_bound {} fun _ => rfl).1
    (Sample.opensTcp ++ [.inbound (Sample.key 3) Sample.synAck]) ?_
    Sample.opensTcp (Sample.key 3) Sample.synAck [] rfl
  -- of the seven events only the datagram is asked for its address
  refine eachStep_iff.mpr fun pre ev post hl => ?_
  cases ev with
  | inbound peer pkt =>
    have hlast : DataEvent.inbound peer pkt ∉ Sample.opensTcp := by simp [Sample.opensTcp]
    rcases split_snoc hl with ⟨rfl, hev, -⟩ | ⟨post', -, hl'⟩
    · obtain ⟨rfl, rfl⟩ := DataEvent.inbound.inj hev
      intro _ _ k hk
      have hkey : flowKey Sample.synAck =
          some ⟨⟨10, 99, 0, 3⟩, ⟨10, 99, 0, 2⟩, 6, 22, 51⟩ := by decide
      obtain rfl := Option.some.inj (hk.symm.trans hkey)
      exact ⟨_, rfl, by decide⟩
    · rw [hl'] at hlast
      exact absurd (List.mem_append_right _ List.mem_cons_self) hlast
  | _ => trivial

/-- **Member 66 answers a flow that was opened to member 3.** -/
theorem answer_from_another_member :
    ¬ ∀ (l : List DataEvent) pre peer pkt post, l = pre ++ .inbound peer pkt :: post →
      BoundToPeer {} pre peer pkt := by
  intro h
  obtain ⟨k, m, hk, hm, hsrc, -⟩ :=
    h _ Sample.opensTcp (Sample.key 66) Sample.synAck [] rfl (by decide)
  have hk' : k.src = ⟨10, 99, 0, 3⟩ := by
    have hkey : flowKey Sample.synAck =
        some ⟨⟨10, 99, 0, 3⟩, ⟨10, 99, 0, 2⟩, 6, 22, 51⟩ := by decide
    rw [hkey] at hk
    rw [← Option.some.inj hk]
  have hm' : m.virtualIp = ⟨10, 99, 0, 66⟩ := by
    have hmember : ((run step {} Sample.opensTcp).roster.member (Sample.key 66)).map
        Member.virtualIp = some ⟨10, 99, 0, 66⟩ := by decide
    rw [hm] at hmember
    exact Option.some.inj hmember
  rw [hk', hm'] at hsrc
  exact absurd hsrc (by decide)

end Nullgate
