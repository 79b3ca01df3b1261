/-
  File:      Nullgate/DataPlane/Router.lean
  Subject:   THE ROUTING PRIMITIVES (`router.rs`): routes, IPv4 headers, flow keys, MSS clamping.

  A packet is the list of its bytes. The functions look at it the way the source does, each
  with its own length checks.

  * `RouteTable` -- virtual IP to member;
  * `dstIpv4`, `isOwnUnderlay`, `tcpFlags`, `isTcpInitiation`, `flowKey`;
  * `clampTcpMss` -- the option walk and the checksum; `flowKey_clampTcpMss` says that it
    leaves addresses, protocol and ports alone.
-/
import Nullgate.Roster.Types

namespace Nullgate

open Nullgate.Lib

/-! ## 1. Routes -/

/-- The entries of the forwarding table, in the order they were inserted. -/
structure RouteTable where
  byIp : List (Ipv4Addr × Id) := []
  deriving DecidableEq

namespace RouteTable

/-- Build the table from the roster's IP assignments. -/
def fromRoster (r : Roster) : RouteTable := ⟨r.members.toList.map fun (id, m) => (m.virtualIp, id)⟩

/-- Which member owns `ip`, if any: the one inserted last. -/
def lookup (t : RouteTable) (ip : Ipv4Addr) : Option Id :=
  (t.byIp.reverse.find? fun r => r.1 = ip).map Prod.snd

end RouteTable

/-! ## 2. Headers -/

/-- `pkt[i]`, behind a length check. -/
def byteAt (pkt : List UInt8) (i : Nat) : UInt8 := pkt.getD i 0

/-- `u16::from_be_bytes([pkt[i], pkt[i + 1]])`. -/
def wordAt (pkt : List UInt8) (i : Nat) : UInt16 :=
  (byteAt pkt i).toUInt16 <<< 8 ||| (byteAt pkt (i + 1)).toUInt16

def addrAt (pkt : List UInt8) (i : Nat) : Ipv4Addr :=
  ⟨byteAt pkt i, byteAt pkt (i + 1), byteAt pkt (i + 2), byteAt pkt (i + 3)⟩

/-- Long enough for an IPv4 header, and of version 4. -/
def isIpv4 (pkt : List UInt8) : Bool := 20 ≤ pkt.length && byteAt pkt 0 >>> 4 = 4

/-- The header length the packet states. -/
def ihl (pkt : List UInt8) : Nat := (byteAt pkt 0 &&& 0x0f).toNat * 4

/-- Destination address, or `none` if it isn't IPv4 or is too short. -/
def dstIpv4 (pkt : List UInt8) : Option Ipv4Addr :=
  if isIpv4 pkt then some (addrAt pkt 16) else none

/-- Whether a packet read from the TUN is our own underlay traffic: UDP from a bound port. -/
def isOwnUnderlay (pkt : List UInt8) (boundPorts : List UInt16) : Bool :=
  if boundPorts.isEmpty then false
  else if !isIpv4 pkt || byteAt pkt 9 ≠ 17 then false
  else if ihl pkt < 20 || pkt.length < ihl pkt + 4 then false
  else boundPorts.contains (wordAt pkt (ihl pkt))

/-! ## 3. Flows -/

/-- A connection 5-tuple; ports are 0 for protocols other than TCP and UDP. -/
structure FlowKey where
  src : Ipv4Addr
  dst : Ipv4Addr
  proto : UInt8
  srcPort : UInt16
  dstPort : UInt16
  deriving DecidableEq

/-- The key the return traffic has. -/
def FlowKey.reversed (k : FlowKey) : FlowKey where
  src := k.dst
  dst := k.src
  proto := k.proto
  srcPort := k.dstPort
  dstPort := k.srcPort

/-- The TCP flags byte, or `none` if it isn't IPv4 TCP. -/
def tcpFlags (pkt : List UInt8) : Option UInt8 :=
  if !isIpv4 pkt then none
  else if byteAt pkt 9 ≠ 6 || pkt.length < ihl pkt + 14 then none
  else some (byteAt pkt (ihl pkt + 13))

/-- A TCP connection initiation: SYN set, ACK clear. -/
def isTcpInitiation (pkt : List UInt8) : Bool :=
  match tcpFlags pkt with
  | some f => f &&& 0x02 ≠ 0 && f &&& 0x10 = 0
  | none => false

/-- The ports of a header of `ihl` bytes: TCP and UDP carry them behind it. -/
def ports (pkt : List UInt8) (ihl : Nat) : UInt16 × UInt16 :=
  if (byteAt pkt 9 = 6 || byteAt pkt 9 = 17) && ihl + 4 ≤ pkt.length then
    (wordAt pkt ihl, wordAt pkt (ihl + 2))
  else (0, 0)

/-- Parse the 5-tuple, or `none` if it isn't IPv4 or is too short. -/
def flowKey (pkt : List UInt8) : Option FlowKey :=
  if !isIpv4 pkt then none
  else if ihl pkt < 20 || pkt.length < ihl pkt then none
  else
    let (srcPort, dstPort) := ports pkt (ihl pkt)
    some { src := addrAt pkt 12, dst := addrAt pkt 16, proto := byteAt pkt 9, srcPort, dstPort }

/-! ## 4. MSS clamping -/

/-- `pkt[i..i + 2].copy_from_slice(&v.to_be_bytes())`. -/
def setWord (pkt : List UInt8) (i : Nat) (v : UInt16) : List UInt8 :=
  (pkt.set i (v >>> 8).toUInt8).set (i + 1) v.toUInt8

/-- The walk over the TCP options from `i` to `stop`, looking for kind 2 (MSS), length 4. -/
def clampLoop (pkt : List UInt8) (i stop : Nat) (maxMss : UInt16) (changed : Bool) :
    List UInt8 × Bool :=
  if i + 1 < stop then
    let kind := byteAt pkt i
    if kind = 0 then (pkt, changed)
    else if kind = 1 then clampLoop pkt (i + 1) stop maxMss changed
    else
      let len := (byteAt pkt (i + 1)).toNat
      if len < 2 ∨ i + len > stop then (pkt, changed)
      else if kind = 2 ∧ len = 4 ∧ wordAt pkt (i + 2) > maxMss then
        clampLoop (setWord pkt (i + 2) maxMss) (i + len) stop maxMss true
      else clampLoop pkt (i + len) stop maxMss changed
  else (pkt, changed)
termination_by stop - i

/-- The sum of the big-endian words, a last odd byte as a high one. -/
def sumWords : List UInt8 → UInt32 → UInt32
  | [], sum => sum
  | [high], sum => sum + high.toUInt32 <<< 8
  | high :: low :: rest, sum => sumWords rest (sum + (high.toUInt32 <<< 8 ||| low.toUInt32))

/-- `while sum >> 16 != 0`. -/
def foldCarries (sum : UInt32) : UInt32 :=
  if sum >>> 16 ≠ 0 then foldCarries ((sum &&& (0xffff : UInt32)) + (sum >>> 16)) else sum
termination_by sum.toNat
decreasing_by
  rename_i h
  have hhigh : sum.toNat >>> 16 ≠ 0 := fun hz =>
    h (UInt32.toNat_inj.mp (by rw [UInt32.toNat_shiftRight]; exact hz))
  have hlow : sum.toNat &&& 65535 = sum.toNat % 65536 := Nat.and_two_pow_sub_one_eq_mod _ 16
  have hdiv : sum.toNat >>> 16 = sum.toNat / 65536 := Nat.shiftRight_eq_div_pow _ 16
  rw [UInt32.toNat_add, UInt32.toNat_and, UInt32.toNat_shiftRight]
  refine lt_of_le_of_lt (Nat.mod_le _ _) ?_
  show (sum.toNat &&& 65535) + sum.toNat >>> 16 < sum.toNat
  rw [hdiv] at hhigh ⊢
  rw [hlow]
  omega

/-- Recompute the TCP checksum over the pseudo-header and the segment. -/
def recomputeTcpChecksum (pkt : List UInt8) (tcp : Nat) : List UInt8 :=
  let pkt := setWord pkt (tcp + 16) 0
  let pseudo := (wordAt pkt 12).toUInt32 + (wordAt pkt 14).toUInt32 + (wordAt pkt 16).toUInt32 +
    (wordAt pkt 18).toUInt32 + 6 + (pkt.length - tcp).toUInt32
  let check := ~~~(foldCarries (sumWords (pkt.drop tcp) pseudo)).toUInt16
  setWord pkt (tcp + 16) check

/-- **TCP MSS clamping**: the packet, and whether anything changed. -/
def clampTcpMss (pkt : List UInt8) (maxMss : UInt16) : List UInt8 × Bool :=
  if !isIpv4 pkt then (pkt, false)
  else
    let tcp := ihl pkt
    if tcp < 20 || pkt.length < tcp + 20 || byteAt pkt 9 ≠ 6 then (pkt, false)
    else
      let dataOff := (byteAt pkt (tcp + 12) >>> 4).toNat * 4
      if dataOff < 20 || pkt.length < tcp + dataOff then (pkt, false)
      else if byteAt pkt (tcp + 13) &&& 0x02 = 0 then (pkt, false)
      else
        let (pkt, changed) := clampLoop pkt (tcp + 20) (tcp + dataOff) maxMss false
        if changed then (recomputeTcpChecksum pkt tcp, true) else (pkt, false)

/-! ## 5. What clamping leaves alone -/

/-- The packets have the same length, and the same bytes below `n`. -/
structure SameBelow (n : Nat) (pkt pkt' : List UInt8) : Prop where
  length : pkt'.length = pkt.length
  byte : ∀ j < n, byteAt pkt' j = byteAt pkt j

theorem SameBelow.refl (n : Nat) (pkt : List UInt8) : SameBelow n pkt pkt := ⟨rfl, fun _ _ => rfl⟩

theorem SameBelow.trans {n : Nat} {a b c : List UInt8} (h : SameBelow n a b)
    (h' : SameBelow n b c) : SameBelow n a c :=
  ⟨h'.length.trans h.length, fun j hj => (h'.byte j hj).trans (h.byte j hj)⟩

theorem sameBelow_setWord {n i : Nat} (hi : n ≤ i) (pkt : List UInt8) (v : UInt16) :
    SameBelow n pkt (setWord pkt i v) where
  length := by simp [setWord]
  byte j hj := by
    have h1 : i ≠ j := by omega
    have h2 : i + 1 ≠ j := by omega
    simp [setWord, byteAt, List.getD_eq_getElem?_getD, List.getElem?_set_ne, h1, h2]

/-- The option walk changes nothing before its start. -/
theorem sameBelow_clampLoop {n : Nat} (pkt : List UInt8) (i stop : Nat) (maxMss : UInt16)
    (changed : Bool) (hi : n ≤ i) :
    SameBelow n pkt (clampLoop pkt i stop maxMss changed).1 := by
  fun_induction clampLoop pkt i stop maxMss changed with
  | case1 => exact SameBelow.refl n _
  | case2 pkt i changed hlt kind hend hnop ih => exact ih (by omega)
  | case3 => exact SameBelow.refl n _
  | case4 pkt i changed hlt kind hend hnop len hlen hmss ih =>
    exact (sameBelow_setWord (by omega) pkt maxMss).trans (ih (by omega))
  | case5 pkt i changed hlt kind hend hnop len hlen hmss ih => exact ih (by omega)
  | case6 => exact SameBelow.refl n _

theorem sameBelow_recompute {n tcp : Nat} (h : n ≤ tcp + 16) (pkt : List UInt8) :
    SameBelow n pkt (recomputeTcpChecksum pkt tcp) :=
  (sameBelow_setWord h pkt 0).trans (sameBelow_setWord h _ _)

/-- **Clamping changes nothing before the checksum.** -/
theorem sameBelow_clampTcpMss (pkt : List UInt8) (maxMss : UInt16) :
    SameBelow (ihl pkt + 16) pkt (clampTcpMss pkt maxMss).1 := by
  have hloop := sameBelow_clampLoop pkt (ihl pkt + 20)
    (ihl pkt + (byteAt pkt (ihl pkt + 12) >>> 4).toNat * 4) maxMss false
    (show ihl pkt + 16 ≤ ihl pkt + 20 by omega)
  unfold clampTcpMss
  split
  · exact SameBelow.refl _ pkt
  simp only []
  split
  · exact SameBelow.refl _ pkt
  split
  · exact SameBelow.refl _ pkt
  split
  · exact SameBelow.refl _ pkt
  split
  · exact hloop.trans (sameBelow_recompute (le_refl _) _)
  · exact hloop

/-- **The flow key of a clamped packet is the one of the packet.** -/
theorem flowKey_clampTcpMss (pkt : List UInt8) (maxMss : UInt16) :
    flowKey (clampTcpMss pkt maxMss).1 = flowKey pkt := by
  have hsame := sameBelow_clampTcpMss pkt maxMss
  generalize (clampTcpMss pkt maxMss).1 = pkt' at hsame
  have hbyte : ∀ j < 16, byteAt pkt' j = byteAt pkt j := fun j hj => hsame.byte j (by omega)
  have hv4 : isIpv4 pkt' = isIpv4 pkt := by rw [isIpv4, isIpv4, hsame.length, hbyte 0 (by omega)]
  have hihl : ihl pkt' = ihl pkt := by rw [ihl, ihl, hbyte 0 (by omega)]
  rw [flowKey, flowKey, hv4, hihl, hsame.length]
  split
  · rfl
  split
  · rfl
  · -- the header has at least 20 bytes, so all of them are before the checksum
    rename_i hlen
    have hmin : 20 ≤ ihl pkt := by simp at hlen; omega
    have hb : ∀ j < ihl pkt + 16, byteAt pkt' j = byteAt pkt j := hsame.byte
    have hw : ∀ j < ihl pkt + 15, wordAt pkt' j = wordAt pkt j := fun j hj => by
      rw [wordAt, wordAt, hb j (by omega), hb (j + 1) (by omega)]
    have ha : ∀ j < ihl pkt + 13, addrAt pkt' j = addrAt pkt j := fun j hj => by
      rw [addrAt, addrAt, hb j (by omega), hb (j + 1) (by omega), hb (j + 2) (by omega),
        hb (j + 3) (by omega)]
    have hp : ports pkt' (ihl pkt) = ports pkt (ihl pkt) := by
      rw [ports, ports, hb 9 (by omega), hsame.length, hw _ (by omega), hw (ihl pkt + 2) (by omega)]
    rw [hp, ha 12 (by omega), ha 16 (by omega), hb 9 (by omega)]

end Nullgate
