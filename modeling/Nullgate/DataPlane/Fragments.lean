/-
  File:      Nullgate/DataPlane/Fragments.lean
  Subject:   FRAGMENTS, to functions that look at no fragment offset.

  `flow_key`, `is_own_underlay`, `tcp_flags` and `clamp_tcp_mss` read the transport header
  behind the IP header of every packet. A fragment that is not the first one has bytes of its
  datagram's data there.

  * `FragmentOf`: a fragment of a datagram, as a relation between the two packets;
  * `Unread`: what the functions answer does not depend on the bytes behind the IP header;
  * `fragments_treated_iff`: which fragments are treated as their datagram. First ones are, and
    those of other protocols than TCP and UDP; of the rest almost none;
  * `fragment_rewritten`: a fragment whose data are taken for a SYN.
-/
import Nullgate.DataPlane.Clamp
import Nullgate.DataPlane.Conntrack

namespace Nullgate

open Nullgate.Lib

/-! ## 1. Fragments -/

/-- Where the data of the packet stand in its datagram. -/
def fragmentOffset (pkt : List UInt8) : Nat := (wordAt pkt 6 &&& 0x1fff).toNat * 8

/-- What stands behind the IP header. -/
def payload (pkt : List UInt8) : List UInt8 := pkt.drop (ihl pkt)

/-- An IPv4 packet with a complete header. -/
structure Ipv4Packet (pkt : List UInt8) : Prop where
  ipv4 : isIpv4 pkt = true
  header : 20 ≤ ihl pkt
  complete : ihl pkt ≤ pkt.length

/-- The length of a transport header without options. -/
def transportHeader (proto : UInt8) : Nat :=
  if proto = 6 then 20 else if proto = 17 then 8 else 0

/-- **`f` is a fragment of the datagram `d`**: it has the addresses and the protocol, IP options
    of its own, and the data from its offset on. A first one holds the transport header. -/
structure FragmentOf (d f : List UInt8) : Prop where
  datagram : Ipv4Packet d
  /-- no fragment offset, and no more fragments -/
  whole : wordAt d 6 &&& 0x3fff = 0
  packet : Ipv4Packet f
  proto : byteAt f 9 = byteAt d 9
  src : addrAt f 12 = addrAt d 12
  dst : addrAt f 16 = addrAt d 16
  inside : fragmentOffset f + (payload f).length ≤ (payload d).length
  data : payload f = ((payload d).drop (fragmentOffset f)).take (payload f).length
  first : fragmentOffset f = 0 → transportHeader (byteAt d 9) ≤ (payload f).length

/-- The protocol has ports. -/
def HasPorts (pkt : List UInt8) : Prop := byteAt pkt 9 = 6 ∨ byteAt pkt 9 = 17

/-- **What the functions answer does not depend on the bytes behind the IP header**, and no
    byte is rewritten. -/
def Unread (f : List UInt8) : Prop :=
  ∀ f', SameBelow (ihl f) f f' → flowKey f' = flowKey f ∧
    (∀ ports, isOwnUnderlay f' ports = isOwnUnderlay f ports) ∧ tcpFlags f' = tcpFlags f ∧
    ∀ maxMss, clampTcpMss f' maxMss = (f', false)

/-- The fragment gets the verdicts of the datagram. -/
structure SameVerdicts (d f : List UInt8) : Prop where
  flow : flowKey f = flowKey d
  underlay : ∀ ports, isOwnUnderlay f ports = isOwnUnderlay d ports
  inbound : ∀ (ct : Conntrack) now, ct.allowsInbound f now = ct.allowsInbound d now

/-- **The fragment is treated as its datagram**: it gets its verdicts, and if it is not the
    first one its data are neither read as a transport header nor rewritten as one. -/
structure TreatedAsDatagram (d f : List UInt8) : Prop where
  verdicts : SameVerdicts d f
  unclamped : fragmentOffset f ≠ 0 → ∀ maxMss, clampTcpMss f maxMss = (f, false)
  unread : fragmentOffset f ≠ 0 → Unread f

/-! ## 2. What the functions read -/

variable {d f pkt pkt' : List UInt8}

theorem length_payload : (payload pkt).length = pkt.length - ihl pkt := List.length_drop

theorem byteAt_payload (pkt : List UInt8) (n : Nat) :
    byteAt pkt (ihl pkt + n) = (payload pkt).getD n 0 := by
  simp [byteAt, payload, List.getD_eq_getElem?_getD]

namespace Ipv4Packet

theorem flowKey_eq (h : Ipv4Packet pkt) : flowKey pkt = some
    { src := addrAt pkt 12, dst := addrAt pkt 16, proto := byteAt pkt 9
      srcPort := (ports pkt (ihl pkt)).1, dstPort := (ports pkt (ihl pkt)).2 } := by
  have hheader := h.header
  have hcomplete := h.complete
  unfold flowKey
  rw [if_neg (by simp [h.ipv4]), if_neg (by simp; omega)]

theorem isOwnUnderlay_iff (h : Ipv4Packet pkt) (bound : List UInt16) :
    isOwnUnderlay pkt bound = true ↔
      byteAt pkt 9 = 17 ∧ 4 ≤ (payload pkt).length ∧ wordAt pkt (ihl pkt) ∈ bound := by
  have hheader := h.header
  have hcomplete := h.complete
  rw [length_payload]
  unfold isOwnUnderlay
  split
  · rename_i hempty
    rw [List.isEmpty_iff] at hempty
    simp [hempty]
  split
  · rename_i hproto
    rw [h.ipv4] at hproto
    refine iff_of_false nofun fun hno => ?_
    simp [hno.1] at hproto
  rename_i hproto
  split
  · rename_i hshort
    refine iff_of_false nofun fun hno => ?_
    simp at hshort
    omega
  rename_i hshort
  simp [h.ipv4] at hproto
  simp at hshort
  rw [List.contains_iff_mem]
  exact ⟨fun hmem => ⟨hproto, by omega, hmem⟩, fun hall => hall.2.2⟩

end Ipv4Packet

/-- The ports, where the packet has some. -/
theorem ports_eq (hp : HasPorts pkt) (hlong : 4 ≤ (payload pkt).length) :
    ports pkt (ihl pkt) = (wordAt pkt (ihl pkt), wordAt pkt (ihl pkt + 2)) := by
  rw [length_payload] at hlong
  unfold ports
  rw [if_pos]
  simp only [Bool.and_eq_true, Bool.or_eq_true, decide_eq_true_eq]
  exact ⟨hp, by omega⟩

/-- No ports are read where the protocol has none, or the packet is too short. -/
theorem ports_none (h : ¬ HasPorts pkt ∨ (payload pkt).length < 4) :
    ports pkt (ihl pkt) = (0, 0) := by
  rw [length_payload] at h
  unfold ports
  rw [if_neg]
  simp only [Bool.and_eq_true, Bool.or_eq_true, decide_eq_true_eq, not_and]
  intro hp
  rcases h with h | h
  · exact absurd hp h
  · omega

/-- **The verdicts of two packets with the same addresses and the same protocol** are the same
    when their ports are, and the same port is looked up among the bound ones. -/
theorem sameVerdicts_of_ports (hd : Ipv4Packet d) (hf : Ipv4Packet f)
    (hproto : byteAt f 9 = byteAt d 9) (hsrc : addrAt f 12 = addrAt d 12)
    (hdst : addrAt f 16 = addrAt d 16) (hports : ports f (ihl f) = ports d (ihl d))
    (hunderlay : ∀ bound, isOwnUnderlay f bound = isOwnUnderlay d bound) : SameVerdicts d f := by
  have hflow : flowKey f = flowKey d := by
    rw [hf.flowKey_eq, hd.flowKey_eq, hproto, hsrc, hdst, hports]
  refine ⟨hflow, hunderlay, fun ct now => ?_⟩
  unfold Conntrack.allowsInbound
  rw [hflow]

/-! ## 3. Which data are left unread -/

theorem not_tcpSyn (h : ¬ HasPorts f ∨ (payload f).length < 4) :
    ¬ TcpSyn f := by
  intro hs
  have hcomplete := hs.complete
  have hoffset := hs.offset
  rw [length_payload] at h
  rcases h with h | h
  · exact h (Or.inl hs.tcp)
  · omega

theorem tcpFlags_none (hf : Ipv4Packet f) (h : ¬ HasPorts f ∨ (payload f).length < 4) :
    tcpFlags f = none := by
  have hcomplete := hf.complete
  rw [length_payload] at h
  unfold tcpFlags
  rw [if_neg (by simp [hf.ipv4]), if_pos]
  simp only [Bool.or_eq_true, decide_eq_true_eq]
  rcases h with h | h
  · exact Or.inl fun h6 => h (Or.inl h6)
  · exact Or.inr (by omega)

theorem not_isOwnUnderlay (hf : Ipv4Packet f) (h : ¬ HasPorts f ∨ (payload f).length < 4)
    (bound : List UInt16) : isOwnUnderlay f bound = false := by
  rw [← Bool.not_eq_true, hf.isOwnUnderlay_iff]
  intro hall
  rcases h with h | h
  · exact h (Or.inr hall.1)
  · omega

/-- A packet with the same IP header. -/
theorem SameBelow.packet (hs : SameBelow (ihl pkt) pkt pkt') (h : Ipv4Packet pkt) :
    Ipv4Packet pkt' ∧ ihl pkt' = ihl pkt ∧ byteAt pkt' 9 = byteAt pkt 9 ∧
      addrAt pkt' 12 = addrAt pkt 12 ∧ addrAt pkt' 16 = addrAt pkt 16 := by
  have hheader := h.header
  have hihl : ihl pkt' = ihl pkt := by rw [ihl, ihl, hs.byte 0 (by omega)]
  have haddr : ∀ j < 17, addrAt pkt' j = addrAt pkt j := fun j hj => by
    rw [addrAt, addrAt, hs.byte j (by omega), hs.byte (j + 1) (by omega),
      hs.byte (j + 2) (by omega), hs.byte (j + 3) (by omega)]
  refine ⟨⟨?_, by rw [hihl]; exact h.header, by rw [hihl, hs.length]; exact h.complete⟩, hihl,
    hs.byte 9 (by omega), haddr 12 (by omega), haddr 16 (by omega)⟩
  rw [isIpv4, hs.length, hs.byte 0 (by omega)]
  exact h.ipv4

/-- A packet with the same header, and another first word behind it. -/
theorem exists_other_data (hlt : ihl f < f.length) :
    ∃ f', SameBelow (ihl f) f f' ∧ wordAt f' (ihl f) ≠ wordAt f (ihl f) := by
  refine ⟨f.set (ihl f) (byteAt f (ihl f) + 1), ⟨List.length_set, fun j hj => ?_⟩, fun hword => ?_⟩
  · have hne : ihl f ≠ j := by omega
    simp [byteAt, List.getD_eq_getElem?_getD, List.getElem?_set_ne hne]
  · have hset : byteAt (f.set (ihl f) (byteAt f (ihl f) + 1)) (ihl f) = byteAt f (ihl f) + 1 := by
      simp [byteAt, List.getD_eq_getElem?_getD, hlt]
    have hnext : byteAt (f.set (ihl f) (byteAt f (ihl f) + 1)) (ihl f + 1) =
        byteAt f (ihl f + 1) := by
      have hne : ihl f ≠ ihl f + 1 := by omega
      simp [byteAt, List.getD_eq_getElem?_getD, List.getElem?_set_ne hne]
    rw [← UInt16.toNat_inj, toNat_wordAt, toNat_wordAt, hset, hnext, UInt8.toNat_add] at hword
    have hone : (1 : UInt8).toNat = 1 := rfl
    omega

/-- **Unread are the data of a protocol without ports, and fewer than four bytes.** -/
theorem unread_iff (hf : Ipv4Packet f) : Unread f ↔ ¬ HasPorts f ∨ (payload f).length < 4 := by
  constructor
  · intro h
    by_contra hno
    obtain ⟨hp, hlong⟩ := not_or.mp hno
    rw [not_not] at hp
    rw [not_lt] at hlong
    -- another first word of the data is another source port
    obtain ⟨f', hsame, hword⟩ := exists_other_data
      (show ihl f < f.length by rw [length_payload] at hlong; omega)
    obtain ⟨hf', hihl, hproto, -, -⟩ := hsame.packet hf
    have hp' : HasPorts f' := by unfold HasPorts; rwa [hproto]
    have hlong' : 4 ≤ (payload f').length := by
      rw [length_payload, hihl, hsame.length, ← length_payload]
      exact hlong
    have hflow := (h f' hsame).1
    rw [hf'.flowKey_eq, hf.flowKey_eq] at hflow
    have hport := congrArg FlowKey.srcPort (Option.some.inj hflow)
    rw [ports_eq hp' hlong', ports_eq hp hlong, hihl] at hport
    exact hword hport
  · intro h f' hs
    obtain ⟨hf', hihl, hproto, hsrc, hdst⟩ := hs.packet hf
    have h' : ¬ HasPorts f' ∨ (payload f').length < 4 := by
      unfold HasPorts
      rwa [hproto, length_payload, hihl, hs.length, ← length_payload]
    refine ⟨?_, fun bound => ?_, ?_, fun maxMss => clampTcpMss_of_not_syn (not_tcpSyn h')⟩
    · rw [hf'.flowKey_eq, hf.flowKey_eq, ports_none h, ports_none h',
        hproto, hsrc, hdst]
    · rw [not_isOwnUnderlay hf' h', not_isOwnUnderlay hf h]
    · rw [tcpFlags_none hf' h', tcpFlags_none hf h]

/-! ## 4. Which fragments are treated as their datagram -/

namespace FragmentOf

theorem hasPorts (h : FragmentOf d f) : HasPorts f ↔ HasPorts d := by
  unfold HasPorts
  rw [h.proto]

/-- A first fragment holds the ports. -/
theorem four_le_first (h : FragmentOf d f) (hp : HasPorts d) (h0 : fragmentOffset f = 0) :
    4 ≤ (payload f).length := by
  have hfirst := h.first h0
  unfold transportHeader at hfirst
  rcases hp with hp | hp
  · rw [if_pos hp] at hfirst
    omega
  · rw [if_neg (by rw [hp]; decide), if_pos hp] at hfirst
    omega

/-- A datagram with ports that has a fragment is long enough to hold them. -/
theorem four_le (h : FragmentOf d f) (hp : HasPorts d) : 4 ≤ (payload d).length := by
  have hinside := h.inside
  by_cases h0 : fragmentOffset f = 0
  · have hfirst := h.four_le_first hp h0
    omega
  · unfold fragmentOffset at h0 hinside
    omega

end FragmentOf

/-- The four bytes that are read as the ports of `f` are those of `d`; or nothing is read, and
    the ports of `d` are zero, as those of a TCP packet may be. -/
def PortsAgree (d f : List UInt8) : Prop :=
  (4 ≤ (payload f).length ∧ wordAt f (ihl f) = wordAt d (ihl d) ∧
    wordAt f (ihl f + 2) = wordAt d (ihl d + 2)) ∨
  ((payload f).length < 4 ∧ byteAt d 9 = 6 ∧ wordAt d (ihl d) = 0 ∧ wordAt d (ihl d + 2) = 0)

/-- **Which fragments get the verdicts of their datagram.** -/
theorem sameVerdicts_iff (h : FragmentOf d f) :
    SameVerdicts d f ↔ (HasPorts d → PortsAgree d f) := by
  constructor
  · intro hv hp
    have hpf := h.hasPorts.mpr hp
    have hflow := hv.flow
    rw [h.packet.flowKey_eq, h.datagram.flowKey_eq, ports_eq hp (h.four_le hp)] at hflow
    have hsrc := congrArg FlowKey.srcPort (Option.some.inj hflow)
    have hdst := congrArg FlowKey.dstPort (Option.some.inj hflow)
    by_cases hlong : 4 ≤ (payload f).length
    · rw [ports_eq hpf hlong] at hsrc hdst
      exact Or.inl ⟨hlong, hsrc, hdst⟩
    · rw [not_le] at hlong
      rw [ports_none (Or.inr hlong)] at hsrc hdst
      refine Or.inr ⟨hlong, hp.resolve_right fun hudp => ?_, hsrc.symm, hdst.symm⟩
      -- the datagram's own source port is looked up, and none of the fragment
      have hown := hv.underlay [wordAt d (ihl d)]
      rw [not_isOwnUnderlay h.packet (Or.inr hlong), eq_comm, ← Bool.not_eq_true,
        h.datagram.isOwnUnderlay_iff] at hown
      exact hown ⟨hudp, h.four_le hp, List.mem_singleton_self _⟩
  · intro hagree
    by_cases hp : HasPorts d
    · have hpf := h.hasPorts.mpr hp
      rcases hagree hp with ⟨hlong, hsrc, hdst⟩ | ⟨hshort, htcp, hsrc, hdst⟩
      · refine sameVerdicts_of_ports h.datagram h.packet h.proto h.src h.dst ?_ fun bound => ?_
        · rw [ports_eq hpf hlong, ports_eq hp (h.four_le hp), hsrc, hdst]
        · rw [Bool.eq_iff_iff, h.packet.isOwnUnderlay_iff, h.datagram.isOwnUnderlay_iff, h.proto,
            hsrc]
          simp only [hlong, h.four_le hp]
      · refine sameVerdicts_of_ports h.datagram h.packet h.proto h.src h.dst ?_ fun bound => ?_
        · rw [ports_none (Or.inr hshort), ports_eq hp (h.four_le hp), hsrc, hdst]
        · rw [not_isOwnUnderlay h.packet (Or.inr hshort), eq_comm, ← Bool.not_eq_true,
            h.datagram.isOwnUnderlay_iff, htcp]
          exact fun hno => absurd hno.1 (by decide)
    · have hpf : ¬ HasPorts f := fun hpf => hp (h.hasPorts.mp hpf)
      refine sameVerdicts_of_ports h.datagram h.packet h.proto h.src h.dst ?_ fun bound => ?_
      · rw [ports_none (Or.inl hpf), ports_none (Or.inl hp)]
      · rw [not_isOwnUnderlay h.packet (Or.inl hpf), not_isOwnUnderlay h.datagram (Or.inl hp)]

/-- A first fragment has the ports of its datagram. -/
theorem portsAgree_first (h : FragmentOf d f) (h0 : fragmentOffset f = 0) (hp : HasPorts d) :
    PortsAgree d f := by
  have hlong : 4 ≤ (payload f).length := h.four_le_first hp h0
  have hdata := h.data
  rw [h0, List.drop_zero] at hdata
  have hbyte : ∀ n < 4, byteAt f (ihl f + n) = byteAt d (ihl d + n) := fun n hn => by
    rw [byteAt_payload, byteAt_payload, hdata, List.getD_eq_getElem?_getD,
      List.getD_eq_getElem?_getD, List.getElem?_take_of_lt (by omega)]
  have hword : ∀ n < 3, wordAt f (ihl f + n) = wordAt d (ihl d + n) := fun n hn => by
    rw [wordAt, wordAt, Nat.add_assoc, Nat.add_assoc, hbyte n (by omega),
      hbyte (n + 1) (by omega)]
  exact Or.inl ⟨hlong, hword 0 (by omega), hword 2 (by omega)⟩

/-- **Which fragments are never clamped**: those that do not read as a SYN with an MSS. -/
theorem unclamped_iff (f : List UInt8) :
    (∀ maxMss, clampTcpMss f maxMss = (f, false)) ↔
      ¬ (TcpSyn f ∧ ∃ o ∈ mssOf f, 0 < wordAt f (o + 2)) := by
  constructor
  · rintro h ⟨hs, hmss⟩
    have hchanged := (rewritten_of_syn hs 0).changed.mpr hmss
    rw [h 0] at hchanged
    cases hchanged
  · intro h maxMss
    by_cases hs : TcpSyn f
    · have hr := rewritten_of_syn hs maxMss
      have hfalse : (clampTcpMss f maxMss).2 = false := by
        rw [← Bool.not_eq_true, hr.changed]
        rintro ⟨o, ho, hlt⟩
        exact h ⟨hs, o, ho, lt_of_le_of_lt (Nat.zero_le _) hlt⟩
      exact Prod.ext (hr.same hfalse) hfalse
    · exact clampTcpMss_of_not_syn hs

/-- **Fragments, of every datagram and however it is cut.** (1) A fragment is treated as its
    datagram exactly when it is a first one, when the protocol has no ports, or when it carries
    fewer than four bytes of a TCP datagram with both ports zero. (2) It gets the verdicts
    exactly when the bytes in the place of the ports happen to be the datagram's ports, or that
    last case holds. (3) It is left unmodified exactly when its data do not read as a SYN with
    an MSS option. -/
theorem fragments_treated_iff (d f : List UInt8) (h : FragmentOf d f) :
    (TreatedAsDatagram d f ↔ fragmentOffset f = 0 ∨ ¬ HasPorts d ∨
      ((payload f).length < 4 ∧ byteAt d 9 = 6 ∧ wordAt d (ihl d) = 0 ∧
        wordAt d (ihl d + 2) = 0)) ∧
    (SameVerdicts d f ↔ (HasPorts d → PortsAgree d f)) ∧
    ((∀ maxMss, clampTcpMss f maxMss = (f, false)) ↔
      ¬ (TcpSyn f ∧ ∃ o ∈ mssOf f, 0 < wordAt f (o + 2))) := by
  refine ⟨⟨fun ht => ?_, fun hc => ?_⟩, sameVerdicts_iff h, unclamped_iff f⟩
  · by_cases h0 : fragmentOffset f = 0
    · exact Or.inl h0
    right
    by_cases hp : HasPorts d
    · right
      have hshort := ((unread_iff h.packet).mp (ht.unread h0)).resolve_left
        (fun hno => hno (h.hasPorts.mpr hp))
      exact ((sameVerdicts_iff h).mp ht.verdicts hp).resolve_left fun hlong => by omega
    · exact Or.inl hp
  · by_cases h0 : fragmentOffset f = 0
    · exact ⟨(sameVerdicts_iff h).mpr (portsAgree_first h h0), fun hne => absurd h0 hne,
        fun hne => absurd h0 hne⟩
    have hc' := hc.resolve_left h0
    have hnone : ¬ HasPorts f ∨ (payload f).length < 4 :=
      hc'.imp (fun hp hpf => hp (h.hasPorts.mp hpf)) fun hshort => hshort.1
    refine ⟨(sameVerdicts_iff h).mpr fun hp => Or.inr (hc'.resolve_left fun hno => hno hp),
      fun _ maxMss => clampTcpMss_of_not_syn (not_tcpSyn hnone),
      fun _ => (unread_iff h.packet).mpr hnone⟩

/-! ## 5. Data taken for a SYN -/

namespace Sample

/-- Twenty-four bytes that read as the TCP header of a SYN with an MSS of 1460. -/
def asSyn : List UInt8 :=
  [0x9c, 0x40, 0x0d, 0x3d, 0, 0, 0, 1, 0, 0, 0, 0, 0x60, 0x02, 0xff, 0xff, 0, 0, 0, 0,
    2, 4, 0x05, 0xb4]

/-- An IP header of 20 bytes: total length, flags and offset, protocol; from 2 to 5. -/
def header (total : UInt8) (offset : UInt8) (proto : UInt8) : List UInt8 :=
  [0x45, 0, 0, total, 0, 7, 0, offset, 64, proto, 0, 0, 100, 64, 0, 2, 100, 64, 0, 5]

/-- A TCP datagram: a header that acknowledges, four bytes of data, and then `asSyn`. -/
def datagram : List UInt8 :=
  header 68 0 6 ++ [0, 80, 0, 81, 0, 0, 0, 1, 0, 0, 0, 1, 0x50, 0x10, 0xff, 0xff, 0, 0, 0, 0,
    1, 2, 3, 4] ++ asSyn

/-- Its last fragment, from byte 24 on. -/
def lastFragment : List UInt8 := header 44 3 6 ++ asSyn

theorem lastFragment_of : FragmentOf datagram lastFragment where
  datagram := ⟨by decide, by decide, by decide⟩
  whole := by decide
  packet := ⟨by decide, by decide, by decide⟩
  proto := by decide
  src := by decide
  dst := by decide
  inside := by decide
  data := by decide
  first := by decide

/-- An ICMP datagram, and its last fragment. -/
def ping : List UInt8 := header 32 0 1 ++ [8, 0, 0, 0, 0, 0, 0, 1, 1, 2, 3, 4]

def pingEnd : List UInt8 := header 24 1 1 ++ [1, 2, 3, 4]

end Sample

theorem fragments_treated_ping : TreatedAsDatagram Sample.ping Sample.pingEnd :=
  (fragments_treated_iff Sample.ping Sample.pingEnd
    { datagram := ⟨by decide, by decide, by decide⟩
      whole := by decide
      packet := ⟨by decide, by decide, by decide⟩
      proto := by decide
      src := by decide
      dst := by decide
      inside := by decide
      data := by decide
      first := by decide }).1.mpr (Or.inr (Or.inl (by unfold HasPorts; decide)))

/-- **Data rewritten as a TCP header**: the last fragment of a segment that is no SYN. -/
theorem fragment_rewritten : ¬ ∀ d f, FragmentOf d f → TreatedAsDatagram d f := by
  intro h
  have hunclamped := (h _ _ Sample.lastFragment_of).unclamped (by decide) 1220
  have hsecond := congrArg Prod.snd hunclamped
  revert hsecond
  decide +kernel

end Nullgate
