/-
  File:      Nullgate/Relay/Select.lean
  Subject:   PATH SELECTION (`relays.rs`): which of a peer's paths carries the traffic.

  The endpoint lists the paths to a peer with what it has measured of them. The selector
  leaves out those that run through the device's own tunnel, ranks the rest by tier and round
  trip time, and keeps the path in use unless the best one is clearly better.

  * `VirtualSubnet`, `isLooped`, `pathTier`, `biasedRtt`, `shouldSwitch`, `select`;
  * `Inside`: an address of the virtual /24, said of its octets;
  * `select_eq_choose`: the loop of `select` is a choice among the paths that are left
    (`Lib/Choice.lean`);
  * `selection_good`: what is in use behind it is no loop, of the best tier, within 5 ms of
    the fastest of that tier, and stays.
-/
import Mathlib.Algebra.Group.Nat.Defs
import Mathlib.Data.Prod.Lex
import Nullgate.Lib.Choice
import Nullgate.Roster.Types

namespace Nullgate

open Nullgate.Lib

/-! ## 1. Addresses and paths -/

/-- `u32::from`: the octets as one big-endian number. -/
def Ipv4Addr.toU32 (a : Ipv4Addr) : UInt32 :=
  UInt32.ofNat (a.octets.1.toNat * 16777216 + a.octets.2.1.toNat * 65536 +
    a.octets.2.2.1.toNat * 256 + a.octets.2.2.2.toNat)

/-- `Ipv4Addr::from`. -/
def Ipv4Addr.ofU32 (n : UInt32) : Ipv4Addr :=
  ⟨UInt8.ofNat (n.toNat / 16777216), UInt8.ofNat (n.toNat / 65536), UInt8.ofNat (n.toNat / 256),
    UInt8.ofNat n.toNat⟩

/-- `std::net::IpAddr`; an IPv6 address by its octets. -/
inductive IpAddr where
  | v4 (a : Ipv4Addr)
  | v6 (octets : Bytes 16)
  deriving DecidableEq

/-- `Ipv6Addr::to_ipv4_mapped`: the address behind `::ffff:0:0/96`. -/
def toIpv4Mapped (octets : Bytes 16) : Option Ipv4Addr :=
  match octets.toList with
  | [0, 0, 0, 0, 0, 0, 0, 0, 0, 0, 0xff, 0xff, a, b, c, d] => some ⟨a, b, c, d⟩
  | _ => none

structure SocketAddr where
  ip : IpAddr
  port : UInt16
  deriving DecidableEq

variable {U R : Type}

/-- A network path, as the endpoint names it: `U` are the relay URLs, and `R` is what else
    tells two paths apart. -/
inductive FourTuple (U R : Type) where
  | ip (remote : SocketAddr) (rest : R)
  | relay (url : U) (rest : R)
  | custom (rest : R)
  deriving DecidableEq

/-- A candidate: its path, and the round trip time in its stats, in nanoseconds, if the path
    still has stats. -/
structure PathSelectionData (U R : Type) where
  path : FourTuple U R
  rtt : Option Nat

/-! ## 2. The selector -/

/-- The active network's /24 base address; zero where no network is active. -/
structure VirtualSubnet where
  base : UInt32

/-- Whether `ip`, unmapped, is inside the active virtual /24. -/
def VirtualSubnet.contains (subnet : VirtualSubnet) (ip : IpAddr) : Bool :=
  if subnet.base = 0 then false
  else
    let v4 := match ip with
      | .v4 v4 => some v4
      | .v6 v6 => toIpv4Mapped v6
    match v4 with
    | some v4 => v4.toU32 &&& 0xffffff00 = subnet.base &&& 0xffffff00
    | none => false

/-- Whether the path runs through our own tunnel. -/
def isLooped (path : FourTuple U R) (subnet : VirtualSubnet) : Bool :=
  match path with
  | .ip remote _ => subnet.contains remote.ip
  | _ => false

/-- 3 ms, in nanoseconds. -/
def IPV6_RTT_ADVANTAGE : Int := 3000000

/-- 5 ms, in nanoseconds. -/
def RTT_SWITCHING_MIN : Int := 5000000

/-- The rank of a path: direct, through one of the user's relays, through any other. -/
def pathTier (path : FourTuple U R) (preferred : U → Bool) : UInt8 :=
  match path with
  | .relay url _ => if preferred url then 1 else 2
  | _ => 0

/-- The round trip time, in favour of IPv6. -/
def biasedRtt (path : FourTuple U R) (rtt : Nat) : Int :=
  match path with
  | .ip ⟨.v6 _, _⟩ _ => rtt - IPV6_RTT_ADVANTAGE
  | _ => rtt

/-- Tier and biased time, compared in this order. -/
abbrev PathKey := UInt8 ×ₗ Int

/-- Whether a path of key `best` replaces the one in use: at once across tiers, and only on a
    clear win within one. -/
def shouldSwitch (current best : PathKey) : Bool :=
  if (ofLex best).1 ≠ (ofLex current).1 then (ofLex best).1 < (ofLex current).1
  else (ofLex best).2 + RTT_SWITCHING_MIN ≤ (ofLex current).2

/-- `PreferMyRelaySelector`, at the moment it is asked: the preferred relays and the active
    subnet. -/
structure PreferMyRelaySelector (U : Type) where
  preferred : U → Bool
  virtualSubnet : VirtualSubnet

/-- What the loop of `select` carries. -/
structure Ranking (U R : Type) where
  best : Option (FourTuple U R × PathKey) := none
  currentKey : Option PathKey := none

namespace PreferMyRelaySelector

variable [DecidableEq U] [DecidableEq R] (S : PreferMyRelaySelector U)

/-- One pass of the loop. -/
def rank (current : Option (FourTuple U R)) (acc : Ranking U R) (psd : PathSelectionData U R) :
    Ranking U R :=
  if isLooped psd.path S.virtualSubnet then acc
  else
    match psd.rtt with
    | none => acc
    | some rtt =>
      let key : PathKey := toLex (pathTier psd.path S.preferred, biasedRtt psd.path rtt)
      { currentKey :=
          if some psd.path = current && acc.currentKey.all fun c => key < c then some key
          else acc.currentKey
        best := if acc.best.all fun b => key < b.2 then some (psd.path, key) else acc.best }

/-- **The path to use from now on**; `none` keeps the current one. -/
def select (current : Option (FourTuple U R)) (paths : List (PathSelectionData U R)) :
    Option (FourTuple U R) :=
  let acc := run (S.rank current) {} paths
  match acc.best with
  | none => none
  | some (best, bestKey) =>
    match acc.currentKey with
    | none => some best
    | some cur => if shouldSwitch cur bestKey then some best else none

/-- The path in effect behind a selection. -/
def inEffect (current : Option (FourTuple U R)) (paths : List (PathSelectionData U R)) :
    Option (FourTuple U R) := (S.select current paths).or current

/-! ## 3. The loop as a choice -/

/-- A path that is left, with its key. -/
def candidate (psd : PathSelectionData U R) : Option (FourTuple U R × PathKey) :=
  if isLooped psd.path S.virtualSubnet then none
  else psd.rtt.map fun rtt =>
    (psd.path, toLex (pathTier psd.path S.preferred, biasedRtt psd.path rtt))

/-- The paths that are neither looped nor closed. -/
def candidates (paths : List (PathSelectionData U R)) : List (FourTuple U R × PathKey) :=
  paths.filterMap S.candidate

variable {S} {current : Option (FourTuple U R)} {paths : List (PathSelectionData U R)}

omit [DecidableEq U] [DecidableEq R] in
theorem mem_candidates {path : FourTuple U R} {key : PathKey} :
    (path, key) ∈ S.candidates paths ↔
      isLooped path S.virtualSubnet = false ∧ ∃ rtt, ⟨path, some rtt⟩ ∈ paths ∧
        key = toLex (pathTier path S.preferred, biasedRtt path rtt) := by
  unfold candidates candidate
  rw [List.mem_filterMap]
  constructor
  · intro h
    obtain ⟨⟨path', rtt?⟩, hmem, h⟩ := h
    split at h
    · cases h
    · rename_i hloop
      obtain ⟨rtt, hrtt, hpair⟩ := Option.map_eq_some_iff.mp h
      obtain ⟨rfl, rfl⟩ := Prod.mk.inj hpair
      obtain rfl : rtt? = some rtt := hrtt
      exact ⟨by simpa using hloop, rtt, hmem, rfl⟩
  · intro h
    obtain ⟨hloop, rtt, hmem, rfl⟩ := h
    exact ⟨⟨path, some rtt⟩, hmem, by simp [hloop]⟩

/-- **What the loop has found behind the paths it has met.** -/
theorem run_rank (current : Option (FourTuple U R)) (paths : List (PathSelectionData U R)) :
    run (S.rank current) {} paths =
      { best := leastOf (S.candidates paths)
        currentKey := (leastOf (inUse current (S.candidates paths))).map Prod.snd } := by
  induction paths using List.reverseRecOn with
  | nil => rfl
  | append_singleton paths psd ih =>
    rw [run_append, ih, run_cons, run_nil]
    unfold candidates at ih ⊢
    rw [List.filterMap_append]
    unfold rank
    split
    · rename_i hloop
      have hnone : List.filterMap S.candidate [psd] = [] := by simp [candidate, hloop]
      rw [hnone, List.append_nil]
    · rename_i hloop
      split
      · rename_i hrtt
        have hnone : List.filterMap S.candidate [psd] = [] := by simp [candidate, hloop, hrtt]
        rw [hnone, List.append_nil]
      · rename_i rtt hrtt
        have hone : List.filterMap S.candidate [psd] =
            [(psd.path, toLex (pathTier psd.path S.preferred, biasedRtt psd.path rtt))] := by
          simp [candidate, hloop, hrtt]
        rw [hone, leastOf_snoc]
        unfold inUse
        rw [List.filter_append]
        dsimp only
        congr 1
        -- the key of the path in use goes through the same comparison as the best one
        by_cases hcur : some psd.path = current
        · rw [List.filter_cons_of_pos (by simpa using hcur), List.filter_nil, leastOf_snoc]
          cases leastOf ((paths.filterMap S.candidate).filter fun x => some x.1 = current) with
          | none => simp [hcur, lesser]
          | some cur =>
            rw [lesser_some]
            by_cases hlt : toLex (pathTier psd.path S.preferred, biasedRtt psd.path rtt) < cur.2 <;>
              simp [hcur, hlt]
        · rw [List.filter_cons_of_neg (by simpa using hcur), List.filter_nil, List.append_nil]
          simp [hcur]

/-- **The selection is a choice** among the paths that are left. -/
theorem select_eq_choose (current : Option (FourTuple U R)) (paths : List (PathSelectionData U R)) :
    S.select current paths = choose shouldSwitch current (S.candidates paths) := by
  unfold select choose
  rw [run_rank]
  dsimp only
  cases leastOf (S.candidates paths) with
  | none => rfl
  | some best => cases leastOf (inUse current (S.candidates paths)) <;> rfl

end PreferMyRelaySelector

/-! ## 4. The rule, and the subnet -/

/-- The rule leaves no path for one of its own key. -/
theorem shouldSwitch_self (k : PathKey) : shouldSwitch k k = false := by
  have hpos : (0 : Int) < RTT_SWITCHING_MIN := by decide
  unfold shouldSwitch
  rw [if_neg (not_not.mpr rfl), decide_eq_false_iff_not]
  omega

/-- **What the rule keeps against a least key** is of its tier, and less than 5 ms above it. -/
theorem of_not_shouldSwitch {k best : PathKey} (hle : best ≤ k)
    (h : shouldSwitch k best = false) :
    (ofLex k).1 = (ofLex best).1 ∧ (ofLex k).2 < (ofLex best).2 + RTT_SWITCHING_MIN := by
  unfold shouldSwitch at h
  split at h
  · rename_i hne
    rw [decide_eq_false_iff_not] at h
    rcases Prod.Lex.le_iff.mp hle with hlt | ⟨heq, -⟩
    · exact absurd hlt h
    · exact absurd heq hne
  · rename_i heq
    rw [decide_eq_false_iff_not] at h
    exact ⟨(not_not.mp heq).symm, not_le.mp h⟩

/-- The IPv4 address that an address is or maps. -/
def IpAddr.ipv4 : IpAddr → Option Ipv4Addr
  | .v4 a => some a
  | .v6 octets => toIpv4Mapped octets

/-- **The address lies in the active virtual /24**: it is, or maps, an IPv4 address with the
    first three octets of the base. -/
def Inside (subnet : VirtualSubnet) (ip : IpAddr) : Prop :=
  subnet.base ≠ 0 ∧ ∃ a ∈ ip.ipv4, a.octets.1 = (Ipv4Addr.ofU32 subnet.base).octets.1 ∧
    a.octets.2.1 = (Ipv4Addr.ofU32 subnet.base).octets.2.1 ∧
    a.octets.2.2.1 = (Ipv4Addr.ofU32 subnet.base).octets.2.2.1

/-- The path runs over the virtual network: its remote address lies in it. -/
def Looped (subnet : VirtualSubnet) : FourTuple U R → Prop
  | .ip remote _ => Inside subnet remote.ip
  | _ => False

theorem and_mask (n : Nat) (h : n < 2 ^ 32) : n &&& 0xffffff00 = n / 256 * 256 := by
  have hmask : 0xffffff00 = (2 ^ 24 - 1) * 2 ^ 8 := rfl
  refine Nat.eq_of_testBit_eq fun i => ?_
  rw [hmask, show 256 = 2 ^ 8 from rfl, Nat.testBit_and, Nat.testBit_mul_two_pow,
    Nat.testBit_mul_two_pow, Nat.testBit_two_pow_sub_one, Nat.testBit_div_two_pow]
  by_cases h8 : 8 ≤ i
  · have hi : i - 8 + 8 = i := by omega
    rw [hi]
    by_cases h32 : i < 32
    · simp [h8, show i - 8 < 24 by omega]
    · have hbit : n.testBit i = false :=
        Nat.testBit_lt_two_pow (lt_of_lt_of_le h (Nat.pow_le_pow_right (by decide) (by omega)))
      simp [hbit]
  · simp [h8]

theorem and_mask_eq_iff (x y : UInt32) :
    x &&& 0xffffff00 = y &&& 0xffffff00 ↔ x.toNat / 256 = y.toNat / 256 := by
  have hmask : (0xffffff00 : UInt32).toNat = 0xffffff00 := rfl
  rw [← UInt32.toNat_inj, UInt32.toNat_and, UInt32.toNat_and, hmask, and_mask _ x.toNat_lt,
    and_mask _ y.toNat_lt]
  omega

theorem toNat_toU32 (a : Ipv4Addr) :
    a.toU32.toNat = a.octets.1.toNat * 16777216 + a.octets.2.1.toNat * 65536 +
      a.octets.2.2.1.toNat * 256 + a.octets.2.2.2.toNat := by
  have h1 := a.octets.1.toNat_lt
  have h2 := a.octets.2.1.toNat_lt
  have h3 := a.octets.2.2.1.toNat_lt
  have h4 := a.octets.2.2.2.toNat_lt
  unfold Ipv4Addr.toU32
  rw [UInt32.toNat_ofNat']
  omega

/-- **The mask compares the first three octets.** -/
theorem contains_iff {subnet : VirtualSubnet} {ip : IpAddr} :
    subnet.contains ip = true ↔ Inside subnet ip := by
  have hprefix (a : Ipv4Addr) : a.toU32 &&& 0xffffff00 = subnet.base &&& 0xffffff00 ↔
      a.octets.1 = (Ipv4Addr.ofU32 subnet.base).octets.1 ∧
        a.octets.2.1 = (Ipv4Addr.ofU32 subnet.base).octets.2.1 ∧
        a.octets.2.2.1 = (Ipv4Addr.ofU32 subnet.base).octets.2.2.1 := by
    have h1 := a.octets.1.toNat_lt
    have h2 := a.octets.2.1.toNat_lt
    have h3 := a.octets.2.2.1.toNat_lt
    have h4 := a.octets.2.2.2.toNat_lt
    have hbase := subnet.base.toNat_lt
    rw [and_mask_eq_iff, toNat_toU32]
    unfold Ipv4Addr.ofU32
    simp only [← UInt8.toNat_inj, UInt8.toNat_ofNat']
    omega
  unfold VirtualSubnet.contains Inside
  split
  · rename_i h0
    exact iff_of_false Bool.false_ne_true fun h => h.1 h0
  · rename_i h0
    have hv4 (a : Ipv4Addr) : decide (a.toU32 &&& 0xffffff00 = subnet.base &&& 0xffffff00) = true ↔
        subnet.base ≠ 0 ∧ ∃ a' ∈ some a, a'.octets.1 = (Ipv4Addr.ofU32 subnet.base).octets.1 ∧
          a'.octets.2.1 = (Ipv4Addr.ofU32 subnet.base).octets.2.1 ∧
          a'.octets.2.2.1 = (Ipv4Addr.ofU32 subnet.base).octets.2.2.1 := by
      rw [decide_eq_true_eq, hprefix]
      simp [h0]
    cases ip with
    | v4 a => exact hv4 a
    | v6 octets =>
      unfold IpAddr.ipv4
      dsimp only
      cases toIpv4Mapped octets with
      | none => simp
      | some a => exact hv4 a

theorem isLooped_iff {path : FourTuple U R} {subnet : VirtualSubnet} :
    isLooped path subnet = true ↔ Looped subnet path := by
  cases path with
  | ip remote rest => exact contains_iff
  | relay url rest => exact iff_of_false Bool.false_ne_true id
  | custom rest => exact iff_of_false Bool.false_ne_true id

/-! ## 5. The selection -/

section

variable [DecidableEq U] [DecidableEq R]

/-- **Path selection is loop-free, tier-optimal, near-fastest and stable.** For all candidate
    paths, whatever is in use, whatever is preferred and whatever subnet is active, if a path
    outside the virtual /24 has stats, then the path in effect behind the selection is no loop,
    none that is left is of a better tier, none of its tier is faster by 5 ms or more, and the
    selector, asked again, keeps it. -/
theorem selection_good (S : PreferMyRelaySelector U) (current : Option (FourTuple U R))
    (paths : List (PathSelectionData U R))
    (h : ∃ psd ∈ paths, ¬ Looped S.virtualSubnet psd.path ∧ psd.rtt.isSome) :
    ∃ path rtt, S.inEffect current paths = some path ∧ ⟨path, some rtt⟩ ∈ paths ∧
      ¬ Looped S.virtualSubnet path ∧
      (∀ path' rtt', ⟨path', some rtt'⟩ ∈ paths → ¬ Looped S.virtualSubnet path' →
        pathTier path S.preferred ≤ pathTier path' S.preferred ∧
        (pathTier path' S.preferred = pathTier path S.preferred →
          biasedRtt path rtt < biasedRtt path' rtt' + RTT_SWITCHING_MIN)) ∧
      S.select (some path) paths = none := by
  obtain ⟨⟨path₀, rtt?⟩, hmem₀, hloop₀, hrtt₀⟩ := h
  obtain ⟨rtt₀, rfl⟩ := Option.isSome_iff_exists.mp hrtt₀
  have hcand {path : FourTuple U R} {rtt : Nat} (hmem : ⟨path, some rtt⟩ ∈ paths)
      (hloop : ¬ Looped S.virtualSubnet path) :
      (path, toLex (pathTier path S.preferred, biasedRtt path rtt)) ∈ S.candidates paths :=
    PreferMyRelaySelector.mem_candidates.mpr
      ⟨by rwa [← Bool.not_eq_true, isLooped_iff], rtt, hmem, rfl⟩
  obtain ⟨best, hbest⟩ : ∃ best, leastOf (S.candidates paths) = some best := by
    refine Option.ne_none_iff_exists'.mp fun hnone => ?_
    have hmem := hcand hmem₀ hloop₀
    rw [leastOf_eq_none.mp hnone] at hmem
    cases hmem
  have hmin := (leastOf_eq_some hbest).2
  obtain ⟨path, key, heff, hpath, -, hstay⟩ :=
    choose_spec current shouldSwitch_self hbest
  obtain ⟨hloop, rtt, hmem, rfl⟩ := PreferMyRelaySelector.mem_candidates.mp hpath
  -- the key of the path in effect is of the tier of the least one, and close above it
  obtain ⟨htier, hnear⟩ := of_not_shouldSwitch (hmin _ hpath) hstay
  refine ⟨path, rtt, ?_, hmem, ?_, fun path' rtt' hmem' hloop' => ?_, ?_⟩
  · rw [PreferMyRelaySelector.inEffect, PreferMyRelaySelector.select_eq_choose]
    exact heff
  · rw [← isLooped_iff, hloop]
    exact Bool.false_ne_true
  · have hle := hmin _ (hcand hmem' hloop')
    rcases Prod.Lex.le_iff.mp hle with hlt | ⟨heq, hrtt⟩
    · exact ⟨htier.le.trans hlt.le, fun he => by
        rw [← he] at htier
        exact absurd htier hlt.ne'⟩
    · have hbound : (ofLex best.2).2 ≤ biasedRtt path' rtt' := hrtt
      have hclose : biasedRtt path rtt < (ofLex best.2).2 + RTT_SWITCHING_MIN := hnear
      exact ⟨htier.le.trans heq.le, fun _ => by omega⟩
  · rw [PreferMyRelaySelector.select_eq_choose, ← heff]
    exact choose_stable shouldSwitch_self

end

namespace Sample

/-- Relay 9 is the user's own; the network is 10.99.0.0/24. -/
def selector : PreferMyRelaySelector Nat := ⟨fun url => url = 9, ⟨0x0a630000⟩⟩

/-- A path through the tunnel, and two relays, one 3 ms faster. -/
def tunnelled : List (PathSelectionData Nat Unit) :=
  [⟨.ip ⟨.v4 ⟨10, 99, 0, 6⟩, 4000⟩ (), some 1⟩, ⟨.relay 1 (), some 50000000⟩,
    ⟨.relay 2 (), some 47000000⟩]

end Sample

/-- From the tunnel path the selector moves to a path it then keeps. -/
theorem selection_good_tunnelled :
    ∃ path, Sample.selector.inEffect (some (.ip ⟨.v4 ⟨10, 99, 0, 6⟩, 4000⟩ ()))
        Sample.tunnelled = some path ∧
      ¬ Looped Sample.selector.virtualSubnet path ∧
      Sample.selector.select (some path) Sample.tunnelled = none := by
  obtain ⟨path, rtt, heff, -, hloop, -, hkeep⟩ := selection_good Sample.selector
    (some (.ip ⟨.v4 ⟨10, 99, 0, 6⟩, 4000⟩ ())) Sample.tunnelled
    ⟨⟨.relay 1 (), some 50000000⟩, by simp [Sample.tunnelled], id, rfl⟩
  exact ⟨path, heff, hloop, hkeep⟩

/-- The relay in use stays, 3 ms behind the other. -/
example : Sample.selector.select (some (.relay 1 ())) Sample.tunnelled = none := by
  decide +kernel

end Nullgate
