/-
  File:      Nullgate/Roster/Hosts.lean
  Subject:   ALL ADDRESSES OF A ROSTER AT ONCE: distinct, in the /24, routed.

  `assign_ips` is slot probing (`Lib/Probing.lean`) on the cycle of the 253 hosts 2, 3, …, 254:
  the members ask in admission order, each for the host its entry records.

  * `slots` -- who gets which host, and `addressOf_eq_some_iff`: it is the address in the roster;
  * `mem_takenBehind_iff`: what a member finds taken is what those admitted earlier hold;
  * `addresses_unique`: up to 253 members have addresses of their own, and the route table maps
    each of them back to its member.
-/
import Nullgate.Roster.Addresses
import Nullgate.Lib.Canonical
import Nullgate.Lib.Probing
import Nullgate.DataPlane.Router

namespace Nullgate

open Nullgate.Lib

/-! ## 1. The cycle of hosts -/

/-- The hosts of the /24 that members get. -/
def hosts : Finset UInt8 := ((List.range' 2 253).map Nat.toUInt8).toFinset

theorem mem_hosts {h : UInt8} : h ∈ hosts ↔ 2 ≤ h.toNat ∧ h.toNat ≤ 254 := by
  rw [hosts, List.mem_toFinset, List.mem_map]
  constructor
  · intro hmem
    obtain ⟨k, hk, rfl⟩ := hmem
    rw [List.mem_range'_1] at hk
    have hmod : k.toUInt8.toNat = k := by
      rw [Nat.toUInt8_eq, UInt8.toNat_ofNat']
      omega
    omega
  · intro hmem
    refine ⟨h.toNat, List.mem_range'_1.mpr (by omega), ?_⟩
    exact UInt8.toNat_inj.mp (by rw [Nat.toUInt8_eq, UInt8.toNat_ofNat']; have := h.toNat_lt; omega)

theorem mem_hosts_of_le {h : UInt8} (hlow : 2 ≤ h) (hhigh : h ≤ 254) : h ∈ hosts :=
  mem_hosts.mpr ⟨UInt8.le_iff_toNat_le.mp hlow, UInt8.le_iff_toNat_le.mp hhigh⟩

theorem toNat_nextHost {h : UInt8} (hh : h ∈ hosts) :
    (nextHost h).toNat = 2 + (h.toNat - 2 + 1) % 253 := by
  obtain ⟨hlow, hhigh⟩ := mem_hosts.mp hh
  rw [nextHost]
  by_cases hlast : h ≥ 254
  · have h254 : (254 : UInt8).toNat ≤ h.toNat := UInt8.le_iff_toNat_le.mp hlast
    rw [show (254 : UInt8).toNat = 254 from rfl] at h254
    rw [if_pos hlast, show (2 : UInt8).toNat = 2 from rfl]
    omega
  · have h254 : h.toNat < (254 : UInt8).toNat := UInt8.lt_iff_toNat_lt.mp (UInt8.not_le.mp hlast)
    rw [show (254 : UInt8).toNat = 254 from rfl] at h254
    rw [if_neg hlast, UInt8.toNat_add, show (1 : UInt8).toNat = 1 from rfl]
    omega

theorem nextHost_mem {h : UInt8} (hh : h ∈ hosts) : nextHost h ∈ hosts := by
  rw [mem_hosts, toNat_nextHost hh]
  omega

theorem toNat_iterate_nextHost {h : UInt8} (hh : h ∈ hosts) (k : Nat) :
    nextHost^[k] h ∈ hosts ∧ (nextHost^[k] h).toNat = 2 + (h.toNat - 2 + k) % 253 := by
  induction k with
  | zero =>
    obtain ⟨hlow, hhigh⟩ := mem_hosts.mp hh
    exact ⟨hh, by show h.toNat = _; omega⟩
  | succ k ih =>
    obtain ⟨hmem, hval⟩ := ih
    rw [Function.iterate_succ_apply']
    exact ⟨nextHost_mem hmem, by rw [toNat_nextHost hmem, hval]; omega⟩

theorem card_hosts : hosts.card = 253 := by
  rw [hosts, List.toFinset_card_of_nodup, List.length_map, List.length_range']
  refine (List.nodup_range' (s := 2) (n := 253)).map_on fun a ha b hb hab => ?_
  rw [List.mem_range'_1] at ha hb
  have hnat := congrArg UInt8.toNat hab
  rw [Nat.toUInt8_eq, Nat.toUInt8_eq, UInt8.toNat_ofNat', UInt8.toNat_ofNat'] at hnat
  omega

/-- **The hosts form one cycle**: 253 steps lead everywhere, and back. -/
theorem cycle_hosts : Cycle nextHost 253 hosts where
  card := card_hosts
  closed _ ha := nextHost_mem ha
  reaches a ha b hb := by
    have hrange := mem_hosts.mp ha
    have hrangeb := mem_hosts.mp hb
    refine ⟨(b.toNat + 253 - a.toNat) % 253, Nat.mod_lt _ (by omega), UInt8.toNat_inj.mp ?_⟩
    rw [(toNat_iterate_nextHost ha _).2]
    omega
  period a ha := by
    have hrange := mem_hosts.mp ha
    exact UInt8.toNat_inj.mp (by rw [(toNat_iterate_nextHost ha _).2]; omega)

theorem recordedHost_mem (recorded : UInt8) : recordedHost recorded ∈ hosts := by
  rw [recordedHost]
  split
  · rename_i h
    rw [Bool.and_eq_true, decide_eq_true_eq, decide_eq_true_eq] at h
    exact mem_hosts_of_le h.1 h.2
  · exact mem_hosts_of_le (by decide) (by decide)

theorem recordedHost_of_mem {h : UInt8} (hlow : 2 ≤ h) (hhigh : h ≤ 254) : recordedHost h = h := by
  rw [recordedHost, if_pos (by simp [hlow, hhigh])]

/-! ## 2. Who gets which host -/

/-- What a member asks for. -/
def wish (o : UInt64 × Id × UInt8) : Id × UInt8 := (o.2.1, recordedHost o.2.2)

theorem wish_mem {l : List (UInt64 × Id × UInt8)} : ∀ x ∈ l.map wish, x.2 ∈ hosts := fun x hx => by
  obtain ⟨o, -, rfl⟩ := List.mem_map.mp hx
  exact recordedHost_mem o.2.2

theorem map_fst_wish (l : List (UInt64 × Id × UInt8)) :
    (l.map wish).map Prod.fst = l.map fun o => o.2.1 := List.map_map

theorem probe_eq_seek {taken : Std.ExtTreeSet UInt8} {T : Finset UInt8}
    (hT : ∀ h, taken.contains h = true ↔ h ∈ T) (tries : Nat) (host : UInt8) :
    probe taken tries host = seek nextHost T tries host := by
  induction tries generalizing host with
  | zero => rfl
  | succ tries ih =>
    rw [probe, seek, ih]
    exact if_congr (hT host) rfl rfl

/-- **Serving the members is slot probing.** -/
theorem hostIn_eq_some_iff {id : Id} {host : UInt8} {l : List (UInt64 × Id × UInt8)}
    {taken : Std.ExtTreeSet UInt8} {T : Finset UInt8} (hT : ∀ h, taken.contains h = true ↔ h ∈ T)
    (hnodup : (l.map fun o => o.2.1).Nodup) :
    hostIn id taken l = some host ↔ (id, host) ∈ assign nextHost 253 T (l.map wish) := by
  induction l generalizing taken T with
  | nil => exact iff_of_false (fun h => by cases h) List.not_mem_nil
  | cons o l ih =>
    obtain ⟨ho, hl⟩ := List.nodup_cons.mp hnodup
    rw [hostIn, List.map_cons, wish, assign, List.mem_cons, probe_eq_seek hT]
    by_cases hid : o.2.1 = id
    · subst hid
      have hnot : (o.2.1, host) ∉ assign nextHost 253
          (insert (seek nextHost T 253 (recordedHost o.2.2)) T) (l.map wish) := fun hmem => by
        have hfst := List.mem_map_of_mem (f := Prod.fst) hmem
        rw [map_fst_assign, map_fst_wish] at hfst
        exact ho hfst
      rw [if_pos rfl, or_iff_left hnot, Option.some.injEq, Prod.mk.injEq]
      exact ⟨fun h => ⟨rfl, h.symm⟩, fun h => h.2.symm⟩
    · have hne : (id, host) ≠ (o.2.1, seek nextHost T 253 (recordedHost o.2.2)) := fun h =>
        hid (Prod.mk.inj h).1.symm
      rw [if_neg hid, or_iff_right hne]
      refine ih (fun h => ?_) hl
      rw [Std.ExtTreeSet.contains_insert, Bool.or_eq_true, beq_iff_eq, compare_eq_iff_eq, hT,
        Finset.mem_insert, eq_comm]

theorem withHost_inj {subnet : Ipv4Addr} {h h' : UInt8}
    (he : subnet.withHost h = subnet.withHost h') : h = h' :=
  congrArg Ipv4Addr.host he

section

variable (P : Primitives) (now : UInt64) (cfg : Config) (E : List Entry)

/-- **Who gets which host**, in the order the members are served. -/
def slots : List (Id × UInt8) := assign nextHost 253 ∅ ((served P now cfg E).map wish)

/-- The place of a member in the order of admission. -/
def admission (id : Id) : UInt64 ×ₗ Id :=
  toLex ((foldAll P now cfg E).admittedTs[id]?.getD 0, id)

end

variable {P : Primitives} {now : UInt64} {cfg : Config} {E : List Entry} {id : Id}

theorem map_fst_slots :
    (slots P now cfg E).map Prod.fst = (served P now cfg E).map fun o => o.2.1 := by
  rw [slots, map_fst_assign, map_fst_wish]

theorem nodup_slots : ((slots P now cfg E).map Prod.fst).Nodup := by
  rw [map_fst_slots]
  exact nodup_ipOrder _ _

/-- **The addresses of a roster.** -/
theorem addressOf_eq_some_iff {ip : Ipv4Addr} :
    (Roster.build P now cfg E).addressOf id = some ip ↔
      ∃ host, (id, host) ∈ slots P now cfg E ∧ ip = cfg.subnet.withHost host := by
  have hempty : ∀ h, (∅ : Std.ExtTreeSet UInt8).contains h = true ↔ h ∈ (∅ : Finset UInt8) :=
    fun h => by simp
  rw [addressOf_build, addressIn, Option.map_eq_some_iff]
  refine exists_congr fun host => and_congr ?_ eq_comm
  exact hostIn_eq_some_iff hempty (nodup_ipOrder _ _)

theorem addressOf_of_mem_slots {host : UInt8} (h : (id, host) ∈ slots P now cfg E) :
    (Roster.build P now cfg E).addressOf id = some (cfg.subnet.withHost host) :=
  addressOf_eq_some_iff.mpr ⟨host, h, rfl⟩

/-- Who has an address is a member. -/
theorem mem_slots_of_isMember (h : (Roster.build P now cfg E).isMember id = true) :
    ∃ host, (id, host) ∈ slots P now cfg E := by
  rw [Roster.isMember, Std.ExtTreeMap.contains_eq_isSome_getElem?, Option.isSome_iff_exists] at h
  obtain ⟨m, hm⟩ := h
  have haddr : (Roster.build P now cfg E).addressOf id = some m.virtualIp := by
    rw [Roster.addressOf, Roster.member, hm]
    rfl
  obtain ⟨host, hhost, -⟩ := addressOf_eq_some_iff.mp haddr
  exact ⟨host, hhost⟩

/-- The members are served in the order of admission. -/
theorem strictBy_ipOrder (members : Std.ExtTreeMap Id Member)
    (admittedTs : Std.ExtTreeMap Id UInt64) :
    StrictBy (fun o : UInt64 × Id × UInt8 => toLex (o.1, o.2.1)) (ipOrder members admittedTs) := by
  refine strictBy_insertionSort ?_
  rw [List.map_map]
  refine List.pairwise_map.mpr ?_
  refine (Std.ExtTreeMap.distinct_keys_toList (t := members)).imp fun hne heq => ?_
  exact hne (compare_eq_iff_eq.mpr (congrArg (fun k => (ofLex k).2) heq))

/-! ## 3. Addresses of their own -/

theorem size_foldl_assignIp (subnet : Ipv4Addr) (l : List (UInt64 × Id × UInt8))
    (acc : Std.ExtTreeMap Id Member × Std.ExtTreeSet UInt8) :
    (l.foldl (assignIp subnet) acc).1.size = acc.1.size := by
  induction l generalizing acc with
  | nil => rfl
  | cons o l ih =>
    rw [List.foldl_cons, ih, assignIp, Std.ExtTreeMap.size_modify]

/-- Every member is served once. -/
theorem length_served :
    (served P now cfg E).length = (Roster.build P now cfg E).members.size := by
  rw [served, ipOrder, List.length_insertionSort, List.length_map, Std.ExtTreeMap.length_toList]
  exact (size_foldl_assignIp cfg.subnet (served P now cfg E)
    ((foldAll P now cfg E).roster.members, ∅)).symm

theorem slots_free (h : (Roster.build P now cfg E).members.size ≤ 253) :
    ((slots P now cfg E).map Prod.snd).Nodup ∧ ∀ x ∈ slots P now cfg E, x.2 ∈ hosts := by
  have hlen : (∅ : Finset UInt8).card + ((served P now cfg E).map wish).length ≤ 253 := by
    rw [Finset.card_empty, List.length_map, length_served]
    omega
  obtain ⟨hnodup, hmem⟩ := cycle_hosts.assign_free wish_mem hlen
  exact ⟨hnodup, fun x hx => (hmem x hx).2⟩

/-- In `served`, each member stands under its place in the order of admission. -/
theorem admission_of_served {o : UInt64 × Id × UInt8} (ho : o ∈ served P now cfg E) :
    admission P now cfg E o.2.1 = toLex (o.1, o.2.1) := by
  obtain ⟨m, -, hts, -⟩ := mem_ipOrder.mp ho
  rw [admission, ← hts]

section Split

variable {pre post : List (UInt64 × Id × UInt8)} {o : UInt64 × Id × UInt8} {host : UInt8}

theorem slots_split (hsplit : served P now cfg E = pre ++ post) :
    slots P now cfg E = assign nextHost 253 ∅ (pre.map wish) ++
      assign nextHost 253 (takenBehind nextHost 253 ∅ (pre.map wish)) (post.map wish) := by
  rw [slots, hsplit, List.map_append, assign_append]

/-- Served before `o` are those admitted earlier. -/
theorem mem_assign_before (hsplit : served P now cfg E = pre ++ o :: post) :
    (id, host) ∈ assign nextHost 253 ∅ (pre.map wish) ↔
      admission P now cfg E id < admission P now cfg E o.2.1 ∧ (id, host) ∈ slots P now cfg E := by
  have hstrict : StrictBy (fun o : UInt64 × Id × UInt8 => toLex (o.1, o.2.1))
      (served P now cfg E) := strictBy_ipOrder _ _
  have ho : o ∈ served P now cfg E := by
    rw [hsplit]
    exact List.mem_append_right _ List.mem_cons_self
  rw [hsplit] at hstrict
  constructor
  · intro hx
    have hfst := List.mem_map_of_mem (f := Prod.fst) hx
    rw [map_fst_assign, map_fst_wish] at hfst
    obtain ⟨o', ho', rfl⟩ := List.mem_map.mp hfst
    obtain ⟨hserved, hlt⟩ := hstrict.mem_before.mp ho'
    rw [← hsplit] at hserved
    rw [admission_of_served hserved, admission_of_served ho, slots_split hsplit]
    exact ⟨hlt, List.mem_append_left _ hx⟩
  · intro h
    obtain ⟨hlt, hx⟩ := h
    have hfst := List.mem_map_of_mem (f := Prod.fst) hx
    rw [map_fst_slots] at hfst
    obtain ⟨o', ho', rfl⟩ := List.mem_map.mp hfst
    rw [admission_of_served ho', admission_of_served ho] at hlt
    have hpre : o' ∈ pre := hstrict.mem_before.mpr ⟨hsplit ▸ ho', hlt⟩
    rw [slots_split hsplit] at hx
    refine (List.mem_append.mp hx).resolve_right fun hbehind => ?_
    -- a member is served once
    have hfst := List.mem_map_of_mem (f := Prod.fst) hbehind
    rw [map_fst_assign, map_fst_wish] at hfst
    have hnodup : ((served P now cfg E).map fun o => o.2.1).Nodup := nodup_ipOrder _ _
    rw [hsplit, List.map_append] at hnodup
    exact List.disjoint_of_nodup_append hnodup (List.mem_map_of_mem hpre) hfst

/-- What a member finds taken: the hosts of the members admitted earlier. -/
theorem mem_takenBehind_iff (hsplit : served P now cfg E = pre ++ o :: post) :
    host ∈ takenBehind nextHost 253 ∅ (pre.map wish) ↔
      ∃ id, admission P now cfg E id < admission P now cfg E o.2.1 ∧
        (Roster.build P now cfg E).addressOf id = some (cfg.subnet.withHost host) := by
  rw [mem_takenBehind, or_iff_right (Finset.notMem_empty host), List.mem_map]
  constructor
  · intro h
    obtain ⟨⟨id, host⟩, hx, rfl⟩ := h
    obtain ⟨hlt, hslot⟩ := (mem_assign_before hsplit).mp hx
    exact ⟨id, hlt, addressOf_of_mem_slots hslot⟩
  · intro h
    obtain ⟨id, hlt, haddr⟩ := h
    obtain ⟨host', hx, he⟩ := addressOf_eq_some_iff.mp haddr
    obtain rfl := withHost_inj he
    exact ⟨(id, host), (mem_assign_before hsplit).mpr ⟨hlt, hx⟩, rfl⟩

end Split

/-- **A valid recorded host that nobody admitted earlier holds** is the member's. -/
theorem addressOf_recorded {m : Member}
    (hm : (foldAll P now cfg E).roster.members[id]? = some m)
    (hlow : 2 ≤ m.virtualIp.host) (hhigh : m.virtualIp.host ≤ 254)
    (hfree : ∀ other, admission P now cfg E other < admission P now cfg E id →
      (Roster.build P now cfg E).addressOf other ≠ some (cfg.subnet.withHost m.virtualIp.host)) :
    (Roster.build P now cfg E).addressOf id = some (cfg.subnet.withHost m.virtualIp.host) := by
  have hserved := mem_ipOrder_of_member (foldAll P now cfg E).admittedTs hm
  obtain ⟨pre, post, hsplit⟩ := List.append_of_mem hserved
  refine addressOf_of_mem_slots ?_
  rw [slots, served, hsplit, List.map_append, List.map_cons, wish, recordedHost_of_mem hlow hhigh]
  refine assign_of_free fun htaken => ?_
  obtain ⟨other, hlt, haddr⟩ := (mem_takenBehind_iff hsplit).mp htaken
  exact hfree other hlt haddr

/-- **The route table inverts distinct addresses.** -/
theorem lookup_fromRoster {r : Roster}
    (hinj : ∀ a b ip, r.addressOf a = some ip → r.addressOf b = some ip → a = b)
    {ip : Ipv4Addr} : (RouteTable.fromRoster r).lookup ip = some id ↔ r.addressOf id = some ip := by
  have hmem : ∀ x : Ipv4Addr × Id, x ∈ (RouteTable.fromRoster r).byIp ↔
      r.addressOf x.2 = some x.1 := by
    intro x
    obtain ⟨ip, id⟩ := x
    rw [RouteTable.fromRoster, List.mem_map, Roster.addressOf, Roster.member,
      Option.map_eq_some_iff]
    constructor
    · intro h
      obtain ⟨⟨id', m⟩, hm, he⟩ := h
      obtain ⟨rfl, rfl⟩ := Prod.mk.inj he
      exact ⟨m, Std.ExtTreeMap.mem_toList_iff_getElem?_eq_some.mp hm, rfl⟩
    · intro h
      obtain ⟨m, hm, rfl⟩ := h
      exact ⟨(id, m), Std.ExtTreeMap.mem_toList_iff_getElem?_eq_some.mpr hm, rfl⟩
  rw [RouteTable.lookup, Option.map_eq_some_iff]
  constructor
  · intro h
    obtain ⟨x, hx, rfl⟩ := h
    have hip : x.1 = ip := by simpa using List.find?_some hx
    rw [← hip]
    exact (hmem x).mp (List.mem_reverse.mp (List.mem_of_find?_eq_some hx))
  · intro h
    have hin : (ip, id) ∈ (RouteTable.fromRoster r).byIp.reverse :=
      List.mem_reverse.mpr ((hmem (ip, id)).mpr h)
    have hsome : ((RouteTable.fromRoster r).byIp.reverse.find? fun r => r.1 = ip).isSome = true :=
      List.find?_isSome.mpr ⟨(ip, id), hin, by simp⟩
    obtain ⟨x, hx⟩ := Option.isSome_iff_exists.mp hsome
    have hip : x.1 = ip := by simpa using List.find?_some hx
    have haddr := (hmem x).mp (List.mem_reverse.mp (List.mem_of_find?_eq_some hx))
    rw [hip] at haddr
    exact ⟨x, hx, hinj _ _ ip haddr h⟩

/-- **Up to 253 members have addresses of their own**: distinct hosts 2, …, 254 of the /24, the
    recorded one for whoever comes first, and a route to each of them. -/
theorem addresses_unique (hsize : (Roster.build P now cfg E).members.size ≤ 253) :
    (∀ a b ip, (Roster.build P now cfg E).addressOf a = some ip →
        (Roster.build P now cfg E).addressOf b = some ip → a = b) ∧
      (∀ id ip, (Roster.build P now cfg E).addressOf id = some ip →
        ∃ host : UInt8, 2 ≤ host ∧ host ≤ 254 ∧ ip = cfg.subnet.withHost host) ∧
      (∀ id m, (foldAll P now cfg E).roster.members[id]? = some m →
        2 ≤ m.virtualIp.host → m.virtualIp.host ≤ 254 →
        (∀ other, admission P now cfg E other < admission P now cfg E id →
          (Roster.build P now cfg E).addressOf other ≠
            some (cfg.subnet.withHost m.virtualIp.host)) →
        (Roster.build P now cfg E).addressOf id =
          some (cfg.subnet.withHost m.virtualIp.host)) ∧
      ∀ ip id, (RouteTable.fromRoster (Roster.build P now cfg E)).lookup ip = some id ↔
        (Roster.build P now cfg E).addressOf id = some ip := by
  obtain ⟨hnodup, hrange⟩ := slots_free hsize
  have hinj : ∀ a b ip, (Roster.build P now cfg E).addressOf a = some ip →
      (Roster.build P now cfg E).addressOf b = some ip → a = b := by
    intro a b ip ha hb
    obtain ⟨h, hslota, rfl⟩ := addressOf_eq_some_iff.mp ha
    obtain ⟨h', hslotb, he⟩ := addressOf_eq_some_iff.mp hb
    obtain rfl := withHost_inj he
    exact congrArg Prod.fst (List.inj_on_of_nodup_map hnodup hslota hslotb rfl)
  refine ⟨hinj, fun id ip h => ?_, fun id m => addressOf_recorded, fun ip id =>
    lookup_fromRoster hinj⟩
  obtain ⟨host, hslot, rfl⟩ := addressOf_eq_some_iff.mp h
  obtain ⟨hlow, hhigh⟩ := mem_hosts.mp (hrange _ hslot)
  exact ⟨host, UInt8.le_iff_toNat_le.mpr hlow, UInt8.le_iff_toNat_le.mpr hhigh, rfl⟩

/-- Two members record the same host. -/
def Sample.rivals : List Entry :=
  Sample.setup ++ [Sample.signed 2 (.add (Sample.key 3) "host" .peer (10, 99, 0, 5)
      (Sample.nonce 7) 3),
    Sample.signed 2 (.add (Sample.key 4) "host" .peer (10, 99, 0, 5) (Sample.nonce 7) 4)]

/-- The route table finds the one who came first under the host both have recorded. -/
theorem addresses_unique_rivals :
    (RouteTable.fromRoster (Roster.build .plain 100 Sample.config Sample.rivals)).lookup
      (Sample.config.subnet.withHost 5) = some (Sample.key 3) :=
  ((addresses_unique (by decide +kernel)).2.2.2 _ _).mpr (by decide +kernel)

end Nullgate
