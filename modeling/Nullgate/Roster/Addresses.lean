/-
  File:      Nullgate/Roster/Addresses.lean
  Subject:   WHICH ADDRESS A MEMBER GETS (`assign_ips`).

  The members are served in admission order, and each gets the host its entry records or, if
  that is taken, the next free one.

  * `addressIn`: the address of one member, read off the fold state alone;
  * `addressOf_build`: it is the one in the finished roster;
  * `addressIn_recorded`: it is the recorded one if that is a valid host which no member served
    before has got.
-/
import Nullgate.Roster.Rules

namespace Nullgate

open Nullgate.Lib

/-! ## 1. The host of one member -/

/-- The host that `id` gets when these members are served in turn. -/
def hostIn (id : Id) (taken : Std.ExtTreeSet UInt8) : List (UInt64 × Id × UInt8) → Option UInt8
  | [] => none
  | o :: l =>
    let host := probe taken 253 (recordedHost o.2.2)
    if o.2.1 = id then some host else hostIn id (taken.insert host) l

/-- The hosts given to those served before `id`. -/
def takenBefore (id : Id) (taken : Std.ExtTreeSet UInt8) :
    List (UInt64 × Id × UInt8) → Std.ExtTreeSet UInt8
  | [] => taken
  | o :: l =>
    if o.2.1 = id then taken
    else takenBefore id (taken.insert (probe taken 253 (recordedHost o.2.2))) l

/-- The address of a host in the /24. -/
def Ipv4Addr.withHost (subnet : Ipv4Addr) (host : UInt8) : Ipv4Addr :=
  let base := subnet.octets
  ⟨base.1, base.2.1, base.2.2.1, host⟩

/-- The address of a member in a roster. -/
def Roster.addressOf (r : Roster) (id : Id) : Option Ipv4Addr :=
  (r.member id).map (·.virtualIp)

variable (P : Primitives) (now : UInt64) (cfg : Config) (E : List Entry)

/-- The members that the entries `E` let in, in the order they are served. -/
def served : List (UInt64 × Id × UInt8) :=
  ipOrder (foldAll P now cfg E).roster.members (foldAll P now cfg E).admittedTs

/-- **The address the entries `E` give to `id`.** -/
def addressIn (id : Id) : Option Ipv4Addr :=
  (hostIn id ∅ (served P now cfg E)).map cfg.subnet.withHost

/-- The entries record a valid host for `id`, and nobody served before has got it. -/
structure Undisputed (id : Id) (host : UInt8) : Prop where
  recorded : (foldAll P now cfg E).roster.members[id]?.map (fun m => m.virtualIp.host) = some host
  valid : 2 ≤ host ∧ host ≤ 254
  free : (takenBefore id ∅ (served P now cfg E)).contains host = false

variable {P now cfg E} {id : Id}

/-! ## 2. The finished roster -/

/-- Who is not served gets nothing. -/
theorem hostIn_eq_none {l : List (UInt64 × Id × UInt8)} {taken : Std.ExtTreeSet UInt8}
    (h : id ∉ l.map fun o => o.2.1) : hostIn id taken l = none := by
  induction l generalizing taken with
  | nil => rfl
  | cons o l ih =>
    obtain ⟨hne, hl⟩ := List.ne_and_not_mem_of_not_mem_cons h
    rw [hostIn, if_neg (Ne.symm hne), ih hl]

/-- **What serving the members does to one of them.** -/
theorem getElem?_foldl_assignIp (subnet : Ipv4Addr) (id : Id) {l : List (UInt64 × Id × UInt8)}
    (h : (l.map fun o => o.2.1).Nodup) (acc : Std.ExtTreeMap Id Member × Std.ExtTreeSet UInt8) :
    (l.foldl (assignIp subnet) acc).1[id]? =
      (hostIn id acc.2 l).elim acc.1[id]? fun host =>
        acc.1[id]?.map fun m : Member => { m with virtualIp := subnet.withHost host } := by
  induction l generalizing acc with
  | nil => rfl
  | cons o l ih =>
    obtain ⟨ho, hl⟩ := List.nodup_cons.mp h
    rw [List.foldl_cons, ih hl, hostIn]
    by_cases hid : o.2.1 = id
    · subst hid
      rw [hostIn_eq_none ho, if_pos rfl]
      exact Std.ExtTreeMap.getElem?_modify_self
    · have hkeep : (assignIp subnet acc o).1[id]? = acc.1[id]? := by
        rw [assignIp, Std.ExtTreeMap.getElem?_modify, if_neg]
        exact fun hc => hid (compare_eq_iff_eq.mp hc)
      rw [if_neg hid, hkeep]
      rfl

theorem mem_ipOrder {members : Std.ExtTreeMap Id Member}
    {admittedTs : Std.ExtTreeMap Id UInt64} {o : UInt64 × Id × UInt8} :
    o ∈ ipOrder members admittedTs ↔
      ∃ m : Member, members[o.2.1]? = some m ∧ o.1 = admittedTs[o.2.1]?.getD 0 ∧
        o.2.2 = m.virtualIp.host := by
  rw [ipOrder, List.mem_insertionSort, List.mem_map]
  constructor
  · intro h
    obtain ⟨⟨id, m⟩, hm, rfl⟩ := h
    exact ⟨m, Std.ExtTreeMap.mem_toList_iff_getElem?_eq_some.mp hm, rfl, rfl⟩
  · intro h
    obtain ⟨m, hm, hts, hhost⟩ := h
    refine ⟨(o.2.1, m), Std.ExtTreeMap.mem_toList_iff_getElem?_eq_some.mpr hm, ?_⟩
    show (admittedTs[o.2.1]?.getD 0, o.2.1, m.virtualIp.host) = o
    rw [← hts, ← hhost]

theorem mem_ipOrder_of_member {members : Std.ExtTreeMap Id Member} {m : Member}
    (admittedTs : Std.ExtTreeMap Id UInt64) (h : members[id]? = some m) :
    (admittedTs[id]?.getD 0, id, m.virtualIp.host) ∈ ipOrder members admittedTs :=
  mem_ipOrder.mpr ⟨m, h, rfl, rfl⟩

theorem nodup_ipOrder (members : Std.ExtTreeMap Id Member)
    (admittedTs : Std.ExtTreeMap Id UInt64) :
    ((ipOrder members admittedTs).map fun o => o.2.1).Nodup := by
  rw [ipOrder, ((List.perm_insertionSort _ _).map _).nodup_iff, List.map_map]
  have hkeys : (members.toList.map Prod.fst).Nodup := by
    rw [Std.ExtTreeMap.map_fst_toList_eq_keys]
    exact Std.ExtTreeMap.nodup_keys
  exact hkeys

/-- Who is served gets a host. -/
theorem exists_hostIn {l : List (UInt64 × Id × UInt8)} (taken : Std.ExtTreeSet UInt8)
    (h : id ∈ l.map fun o => o.2.1) : ∃ host, hostIn id taken l = some host := by
  induction l generalizing taken with
  | nil => cases h
  | cons o l ih =>
    rw [hostIn]
    by_cases hid : o.2.1 = id
    · exact ⟨_, if_pos hid⟩
    · rw [if_neg hid]
      rcases List.mem_cons.mp h with he | h
      · exact absurd he.symm hid
      · exact ih _ h

/-- **The address in the finished roster** is the one the fold state gives. -/
theorem addressOf_build : (Roster.build P now cfg E).addressOf id = addressIn P now cfg E id := by
  have hget := getElem?_foldl_assignIp cfg.subnet id
    (nodup_ipOrder (foldAll P now cfg E).roster.members (foldAll P now cfg E).admittedTs)
    ((foldAll P now cfg E).roster.members, ∅)
  show ((assignIps (foldAll P now cfg E).roster.members (foldAll P now cfg E).admittedTs
    cfg.subnet)[id]?).map (·.virtualIp) = _
  rw [assignIps, hget, addressIn, served]
  cases hm : (foldAll P now cfg E).roster.members[id]? with
  | none =>
    have hnot : id ∉ (served P now cfg E).map fun o => o.2.1 := by
      intro hmem
      obtain ⟨o, ho, rfl⟩ := List.mem_map.mp hmem
      obtain ⟨m, hm', -⟩ := mem_ipOrder.mp ho
      rw [hm] at hm'
      cases hm'
    rw [show hostIn id ∅ (ipOrder (foldAll P now cfg E).roster.members
      (foldAll P now cfg E).admittedTs) = none from hostIn_eq_none hnot]
    rfl
  | some m =>
    have hmem : id ∈ (served P now cfg E).map fun o => o.2.1 :=
      List.mem_map.mpr ⟨_, mem_ipOrder_of_member _ hm, rfl⟩
    obtain ⟨host, hhost⟩ := exists_hostIn ∅ hmem
    rw [served] at hhost
    rw [hhost]
    rfl

/-! ## 3. The recorded host -/

theorem probe_of_free {taken : Std.ExtTreeSet UInt8} {host : UInt8} (tries : Nat)
    (h : taken.contains host = false) : probe taken tries host = host := by
  cases tries with
  | zero => rfl
  | succ tries => rw [probe, if_neg (by rw [h]; exact Bool.false_ne_true)]

theorem hostIn_of_free {host : UInt8} {l : List (UInt64 × Id × UInt8)}
    {taken : Std.ExtTreeSet UInt8} (hvalid : recordedHost host = host)
    (hmem : ∃ ts, (ts, id, host) ∈ l) (hone : ∀ o ∈ l, o.2.1 = id → o.2.2 = host)
    (hfree : (takenBefore id taken l).contains host = false) :
    hostIn id taken l = some host := by
  induction l generalizing taken with
  | nil =>
    obtain ⟨ts, h⟩ := hmem
    cases h
  | cons o l ih =>
    rw [hostIn]
    rw [takenBefore] at hfree
    by_cases hid : o.2.1 = id
    · rw [if_pos hid] at hfree ⊢
      rw [hone o List.mem_cons_self hid, hvalid, probe_of_free 253 hfree]
    · rw [if_neg hid] at hfree ⊢
      refine ih ?_ (fun o' ho' => hone o' (List.mem_cons_of_mem _ ho')) hfree
      obtain ⟨ts, h⟩ := hmem
      rcases List.mem_cons.mp h with he | h
      · exact absurd (congrArg (fun o => o.2.1) he).symm hid
      · exact ⟨ts, h⟩

/-- **An undisputed host is the member's address.** -/
theorem addressIn_recorded {host : UInt8} (h : Undisputed P now cfg E id host) :
    addressIn P now cfg E id = some (cfg.subnet.withHost host) := by
  obtain ⟨m, hm, rfl⟩ := Option.map_eq_some_iff.mp h.recorded
  have hvalid : recordedHost m.virtualIp.host = m.virtualIp.host := by
    rw [recordedHost, if_pos (by simpa using h.valid)]
  have hin : hostIn id ∅ (served P now cfg E) = some m.virtualIp.host := by
    refine hostIn_of_free hvalid ⟨_, mem_ipOrder_of_member _ hm⟩ ?_ h.free
    intro o ho hid
    obtain ⟨m', hm', -, hhost⟩ := mem_ipOrder.mp ho
    rw [hid, hm] at hm'
    obtain rfl := Option.some.inj hm'
    exact hhost
  rw [addressIn, hin]
  rfl

end Nullgate
