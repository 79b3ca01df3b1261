/-
  File:      Nullgate/Roster/Survivors.lean
  Subject:   WHO KEEPS ITS ADDRESS when one more member is admitted, or one is removed.

  Every member probes from the host its entry records, in the order of admission. So the last
  one admitted moves nobody. A removed member gives up its host, and whoever has gone past that
  host ends up there: the others stay only where nobody has.

  * `pick_honoured`: who is admitted last at the lowest free host gets it, and nobody moves;
  * `Displaces` -- the host of one member stands in another one's way;
  * `survivors_stay_iff`: a removal moves nobody exactly when the removed member's host stands
    in nobody's way.
-/
import Nullgate.Roster.Hosts
import Nullgate.Roster.Behind

namespace Nullgate

open Nullgate.Lib

variable {P : Primitives} {now : UInt64} {cfg : Config} {E : List Entry} {id : Id}

/-! ## 1. The pick of the admitter -/

/-- **There is a lowest free host** as long as not all 253 are taken. -/
theorem lowestFreeHost_free {r : Roster} (hroom : r.members.size < 253) (subnet : Ipv4Addr) :
    ∃ host : UInt8, 2 ≤ host ∧ host ≤ 254 ∧ r.lowestFreeHost subnet = subnet.withHost host ∧
      ∀ id ip, r.addressOf id = some ip → ip.host ≠ host := by
  set taken := r.members.toList.map fun x => x.2.virtualIp.host with htaken
  have hpick : r.lowestFreeHost subnet = subnet.withHost
      ((((List.range' 2 253).map Nat.toUInt8).find? fun h => h ∉ taken).getD 254) := rfl
  have hheld : ∀ id ip, r.addressOf id = some ip → ip.host ∈ taken := by
    intro id ip h
    obtain ⟨m, hm, rfl⟩ := Option.map_eq_some_iff.mp h
    exact List.mem_map.mpr ⟨(id, m), Std.ExtTreeMap.mem_toList_iff_getElem?_eq_some.mpr hm, rfl⟩
  cases hfind : ((List.range' 2 253).map Nat.toUInt8).find? fun h => h ∉ taken with
  | none =>
    -- all 253 hosts would be taken, by fewer members
    have hsub : hosts ⊆ taken.toFinset := fun h hh => by
      rw [hosts, List.mem_toFinset] at hh
      simpa using List.find?_eq_none.mp hfind h hh
    have hcard := (Finset.card_le_card hsub).trans (List.toFinset_card_le taken)
    rw [card_hosts, htaken, List.length_map, Std.ExtTreeMap.length_toList] at hcard
    omega
  | some host =>
    rw [hfind] at hpick
    have hmem : host ∈ hosts := List.mem_toFinset.mpr (List.mem_of_find?_eq_some hfind)
    obtain ⟨hlow, hhigh⟩ := mem_hosts.mp hmem
    have hfree : host ∉ taken := by simpa using List.find?_some hfind
    exact ⟨host, UInt8.le_iff_toNat_le.mpr hlow, UInt8.le_iff_toNat_le.mpr hhigh, hpick,
      fun id ip h he => hfree (he ▸ hheld id ip h)⟩

/-- Who is admitted last is served last. -/
theorem ipOrder_insert {members : Std.ExtTreeMap Id Member} {m : Member} {ts : UInt64}
    {admittedTs : Std.ExtTreeMap Id UInt64} (hnew : members[id]? = none)
    (hlast : ∀ other, members[other]?.isSome = true →
      toLex (admittedTs[other]?.getD 0, other) < toLex (ts, id)) :
    ipOrder (members.insert id m) (admittedTs.insert id ts) =
      ipOrder members admittedTs ++ [(ts, id, m.virtualIp.host)] := by
  have hkeep : ∀ other, other ≠ id → (members.insert id m)[other]? = members[other]? ∧
      (admittedTs.insert id ts)[other]? = admittedTs[other]? := fun other hne => by
    simp [Std.ExtTreeMap.getElem?_insert, hne.symm]
  refine (strictBy_ipOrder _ _).ext ?_ fun o => ?_
  · refine StrictBy.append_iff.mpr ⟨strictBy_ipOrder _ _, List.pairwise_singleton _ _, ?_⟩
    intro o ho o' ho'
    rw [List.mem_singleton.mp ho']
    obtain ⟨m', hm', hts, -⟩ := mem_ipOrder.mp ho
    rw [hts]
    exact hlast o.2.1 (by rw [hm']; rfl)
  · rw [List.mem_append, List.mem_singleton, mem_ipOrder, mem_ipOrder]
    by_cases hid : o.2.1 = id
    · have hm : (members.insert id m)[o.2.1]? = some m := by rw [hid]; simp
      have hts : (admittedTs.insert id ts)[o.2.1]? = some ts := by rw [hid]; simp
      constructor
      · intro h
        obtain ⟨m', hm', hts', hhost⟩ := h
        rw [hm] at hm'
        rw [hts] at hts'
        obtain rfl := Option.some.inj hm'
        exact Or.inr (Prod.ext hts' (Prod.ext hid hhost))
      · intro h
        rcases h with ⟨m', hm', -⟩ | h
        · rw [hid, hnew] at hm'
          cases hm'
        · exact ⟨m, hm, by rw [hts, h]; rfl, by rw [h]⟩
    · have hne : o ≠ (ts, id, m.virtualIp.host) := fun h => hid (by rw [h])
      rw [or_iff_left hne, (hkeep o.2.1 hid).1, (hkeep o.2.1 hid).2]

section Behind

variable {e : Entry}

/-- **The admitter's pick is honoured**: who is admitted behind everybody else at the lowest free
    host gets that address, and everybody else keeps the one they have. -/
theorem pick_honoured {hostname : String} {role : Role} {inv : Nonce} {ts : UInt64}
    (hcf : CollisionFree P now cfg (E ++ [e])) (hlate : ∀ x ∈ E, orderKey P x < orderKey P e)
    (hop : e.op = .add id hostname role
      ((Roster.build P now cfg E).lowestFreeHost cfg.subnet).octets inv ts)
    (hauth : authentic P now cfg e = true)
    (hrule : authorised cfg (foldAll P now cfg E) e = true)
    (hnew : (Roster.build P now cfg E).isMember id = false)
    (hlast : ∀ other, (Roster.build P now cfg E).isMember other = true →
      admission P now cfg E other < toLex (ts, id))
    (hroom : (Roster.build P now cfg E).members.size < 253) :
    (Roster.build P now cfg (E ++ [e])).addressOf id =
        some ((Roster.build P now cfg E).lowestFreeHost cfg.subnet) ∧
      ∀ other, (Roster.build P now cfg E).isMember other = true →
        (Roster.build P now cfg (E ++ [e])).addressOf other =
          (Roster.build P now cfg E).addressOf other := by
  obtain ⟨host, hlow, hhigh, hpick, hfree⟩ := lowestFreeHost_free hroom cfg.subnet
  rw [hpick] at hop ⊢
  have hmember : ∀ other, (Roster.build P now cfg E).isMember other =
      (foldAll P now cfg E).roster.members[other]?.isSome := fun other => by
    rw [Roster.build, finish_isMember, Roster.isMember]
    exact Std.ExtTreeMap.contains_eq_isSome_getElem?
  have hserved : served P now cfg (E ++ [e]) = served P now cfg E ++ [(ts, id, host)] := by
    rw [served, foldAll_behind hcf hlate, if_pos hauth, foldEntry_of_authorised hrule, effect, hop]
    refine ipOrder_insert ?_ fun other h => hlast other (by rw [hmember, h])
    rw [hmember, Option.isSome_eq_false_iff, Option.isNone_iff_eq_none] at hnew
    exact hnew
  have hnot : host ∉ takenBehind nextHost 253 ∅ ((served P now cfg E).map wish) := fun h => by
    rw [mem_takenBehind, or_iff_right (Finset.notMem_empty host)] at h
    obtain ⟨x, hx, rfl⟩ := List.mem_map.mp h
    exact hfree _ _ (addressOf_of_mem_slots hx) rfl
  have hslots : slots P now cfg (E ++ [e]) = slots P now cfg E ++ [(id, host)] := by
    rw [slots, hserved, List.map_append, assign_append, List.map_singleton, wish,
      recordedHost_of_mem hlow hhigh, assign, seek_of_free hnot]
    rfl
  refine ⟨addressOf_of_mem_slots (by rw [hslots]; simp), fun other hother => ?_⟩
  obtain ⟨host', hslot⟩ := mem_slots_of_isMember hother
  rw [addressOf_of_mem_slots hslot]
  exact addressOf_of_mem_slots (by rw [hslots]; exact List.mem_append_left _ hslot)

/-- The members of the rivals' network, one after the other. -/
theorem mem_rivals {id : Id}
    (h : (Roster.build .plain 100 Sample.config Sample.rivals).isMember id = true) :
    id ∈ [Sample.key 2, Sample.key 3, Sample.key 4] := by
  have hkeys : (Roster.build .plain 100 Sample.config Sample.rivals).members.keys =
      [Sample.key 2, Sample.key 3, Sample.key 4] := by decide +kernel
  rw [← hkeys]
  exact Std.ExtTreeMap.mem_keys.mpr (Std.ExtTreeMap.contains_iff_mem.mp h)

/-- Device 5 is admitted behind the rivals, at the lowest free host, which is 3. -/
theorem pick_honoured_rivals :
    (Roster.build .plain 100 Sample.config (Sample.rivals ++
        [Sample.signed 2 (.add (Sample.key 5) "host" .peer (10, 99, 0, 3) (Sample.nonce 7) 5)])
      ).addressOf (Sample.key 5) =
        some ((Roster.build .plain 100 Sample.config Sample.rivals).lowestFreeHost
          Sample.config.subnet) := by
  have hlast : ∀ other ∈ [Sample.key 2, Sample.key 3, Sample.key 4],
      admission .plain 100 Sample.config Sample.rivals other < toLex (5, Sample.key 5) := by
    decide +kernel
  have hpick : ((Roster.build .plain 100 Sample.config Sample.rivals).lowestFreeHost
      Sample.config.subnet).octets = (10, 99, 0, 3) := by decide +kernel
  exact (pick_honoured (by decide +kernel) (by decide +kernel) (by rw [hpick]; rfl)
    (by decide +kernel) (by decide +kernel) (by decide +kernel)
    (fun other h => hlast other (mem_rivals h)) (by decide +kernel)).1

/-! ## 2. What stands in whose way -/

section

variable (P : Primitives) (now : UInt64) (cfg : Config) (E : List Entry)

/-- The hosts of the members admitted before `k`. -/
def heldBefore (k : UInt64 ×ₗ Id) : Finset UInt8 :=
  (((Roster.build P now cfg E).members.toList.filter fun x =>
    admission P now cfg E x.1 < k).map fun x => x.2.virtualIp.host).toFinset

/-- **The host of `m` stands in the way of `x`**: `x`, admitted later, has gone past it on its way
    from the host recorded for it, and no other member admitted before `x` holds it. -/
def Displaces (m x : Id) : Prop :=
  ∃ mm mx : Member, (Roster.build P now cfg E).member m = some mm ∧
    (foldAll P now cfg E).roster.members[x]? = some mx ∧
    admission P now cfg E m < admission P now cfg E x ∧
    (∀ other, other ≠ m → admission P now cfg E other < admission P now cfg E x →
      (Roster.build P now cfg E).addressOf other ≠ some mm.virtualIp) ∧
    Passes nextHost (heldBefore P now cfg E (admission P now cfg E x)) 253
      (recordedHost mx.virtualIp.host) mm.virtualIp.host ∧
    (Roster.build P now cfg E).addressOf x ≠ some mm.virtualIp

end

theorem mem_heldBefore {k : UInt64 ×ₗ Id} {host : UInt8} :
    host ∈ heldBefore P now cfg E k ↔ ∃ id, admission P now cfg E id < k ∧
      (Roster.build P now cfg E).addressOf id = some (cfg.subnet.withHost host) := by
  rw [heldBefore, List.mem_toFinset, List.mem_map]
  constructor
  · intro h
    obtain ⟨⟨id, m⟩, hm, rfl⟩ := h
    obtain ⟨hm, hlt⟩ := List.mem_filter.mp hm
    have haddr : (Roster.build P now cfg E).addressOf id = some m.virtualIp := by
      rw [Roster.addressOf, Roster.member, Std.ExtTreeMap.mem_toList_iff_getElem?_eq_some.mp hm]
      rfl
    obtain ⟨host, -, he⟩ := addressOf_eq_some_iff.mp haddr
    refine ⟨id, of_decide_eq_true hlt, haddr.trans (congrArg some ?_)⟩
    show m.virtualIp = cfg.subnet.withHost m.virtualIp.host
    rw [he]
    rfl
  · intro h
    obtain ⟨id, hlt, haddr⟩ := h
    obtain ⟨m, hm, he⟩ := Option.map_eq_some_iff.mp haddr
    refine ⟨(id, m), List.mem_filter.mpr ⟨?_, decide_eq_true hlt⟩, by rw [he]; rfl⟩
    exact Std.ExtTreeMap.mem_toList_iff_getElem?_eq_some.mpr hm

/-- Without a member, the others are served as before. -/
theorem ipOrder_erase (members : Std.ExtTreeMap Id Member) (admittedTs : Std.ExtTreeMap Id UInt64) :
    ipOrder (members.erase id) (admittedTs.erase id) =
      (ipOrder members admittedTs).filter fun o => o.2.1 ≠ id := by
  refine (strictBy_ipOrder _ _).ext ((strictBy_ipOrder _ _).filter _) fun o => ?_
  rw [List.mem_filter, mem_ipOrder, mem_ipOrder, decide_eq_true_eq]
  by_cases hid : o.2.1 = id
  · refine iff_of_false (fun h => ?_) fun h => h.2 hid
    obtain ⟨m, hm, -⟩ := h
    rw [hid, Std.ExtTreeMap.getElem?_erase_self] at hm
    cases hm
  · have hm : (members.erase id)[o.2.1]? = members[o.2.1]? := by
      simp [Std.ExtTreeMap.getElem?_erase, Ne.symm hid]
    have hts : (admittedTs.erase id)[o.2.1]? = admittedTs[o.2.1]? := by
      simp [Std.ExtTreeMap.getElem?_erase, Ne.symm hid]
    rw [hm, hts, and_iff_left hid]

/-- A table with the keys of another one, each once, and all its rows is the other one. -/
theorem eq_of_sub_of_map_fst {α β : Type} {l l' : List (α × β)}
    (hkeys : l.map Prod.fst = l'.map Prod.fst) (hnodup : (l'.map Prod.fst).Nodup)
    (hsub : ∀ x ∈ l, x ∈ l') : l = l' := by
  induction l generalizing l' with
  | nil => exact (List.map_eq_nil_iff.mp hkeys.symm).symm
  | cons x l ih =>
    cases l' with
    | nil => cases hkeys
    | cons y l' =>
      obtain ⟨hfst, hkeys⟩ := List.cons.inj hkeys
      obtain ⟨hy, hnodup⟩ := List.nodup_cons.mp hnodup
      have hx : x = y := (List.mem_cons.mp (hsub x List.mem_cons_self)).resolve_right fun h =>
        hy (hfst ▸ List.mem_map_of_mem h)
      rw [hx, ih hkeys hnodup fun z hz =>
        (List.mem_cons.mp (hsub z (List.mem_cons_of_mem _ hz))).resolve_left fun h => hy ?_]
      rw [← h, ← hkeys]
      exact List.mem_map_of_mem hz

/-- Who asks behind the requests `l` gets what `seek` finds there. -/
theorem mem_slots_behind {pre post : List (UInt64 × Id × UInt8)} {o : UInt64 × Id × UInt8}
    (hsplit : served P now cfg E = pre ++ o :: post) :
    (o.2.1, seek nextHost (takenBehind nextHost 253 ∅ (pre.map wish)) 253 (recordedHost o.2.2)) ∈
      slots P now cfg E := by
  rw [slots_split hsplit, List.map_cons, wish, assign]
  exact List.mem_append_right _ List.mem_cons_self

section Removed

variable {pre mid rest : List (UInt64 × Id × UInt8)} {o o' : UInt64 × Id × UInt8}
  {T : Finset UInt8} {b : UInt8}

/-- What those admitted before `o'` hold: what was taken before `o`, its host, and what `mid`
    got. -/
theorem held_split (hsplit : served P now cfg E = pre ++ o :: (mid ++ o' :: rest))
    (hT : takenBehind nextHost 253 ∅ (pre.map wish) = T)
    (hb : seek nextHost T 253 (recordedHost o.2.2) = b) :
    heldBefore P now cfg E (admission P now cfg E o'.2.1) =
        takenBehind nextHost 253 (insert b T) (mid.map wish) ∧
      (o'.2.1, seek nextHost (takenBehind nextHost 253 (insert b T) (mid.map wish)) 253
        (recordedHost o'.2.2)) ∈ slots P now cfg E := by
  have hsplit' : served P now cfg E = (pre ++ o :: mid) ++ o' :: rest := by
    rw [hsplit, List.append_assoc, List.cons_append]
  have htaken : takenBehind nextHost 253 ∅ ((pre ++ o :: mid).map wish) =
      takenBehind nextHost 253 (insert b T) (mid.map wish) := by
    rw [List.map_append, takenBehind_append, hT, List.map_cons, wish, takenBehind, hb]
  rw [← htaken]
  refine ⟨?_, mem_slots_behind hsplit'⟩
  ext host
  rw [mem_heldBefore, mem_takenBehind_iff hsplit']

/-- Who else holds the host of `o` when `o'` is served. -/
theorem held_by_other_iff (hsplit : served P now cfg E = pre ++ o :: (mid ++ o' :: rest))
    (hT : takenBehind nextHost 253 ∅ (pre.map wish) = T)
    (hb : seek nextHost T 253 (recordedHost o.2.2) = b) :
    (∃ other, other ≠ o.2.1 ∧ admission P now cfg E other < admission P now cfg E o'.2.1 ∧
        (Roster.build P now cfg E).addressOf other = some (cfg.subnet.withHost b)) ↔
      b ∈ T ∨ b ∈ (assign nextHost 253 (insert b T) (mid.map wish)).map Prod.snd := by
  have hsplit' : served P now cfg E = (pre ++ o :: mid) ++ o' :: rest := by
    rw [hsplit, List.append_assoc, List.cons_append]
  have hassign : assign nextHost 253 ∅ ((pre ++ o :: mid).map wish) =
      assign nextHost 253 ∅ (pre.map wish) ++
        (o.2.1, b) :: assign nextHost 253 (insert b T) (mid.map wish) := by
    rw [List.map_append, assign_append, hT, List.map_cons, wish, assign, hb]
  constructor
  · intro h
    obtain ⟨other, hne, hlt, haddr⟩ := h
    obtain ⟨host, hslot, he⟩ := addressOf_eq_some_iff.mp haddr
    obtain rfl := withHost_inj he
    have hmem := (mem_assign_before hsplit').mpr ⟨hlt, hslot⟩
    rw [hassign, List.mem_append, List.mem_cons] at hmem
    rcases hmem with hmem | hmem | hmem
    · rw [← hT]
      exact Or.inl (mem_takenBehind.mpr (Or.inr (List.mem_map_of_mem (f := Prod.snd) hmem)))
    · exact absurd (Prod.mk.inj hmem).1 hne
    · exact Or.inr (List.mem_map_of_mem (f := Prod.snd) hmem)
  · intro h
    have hother : ∃ other, (other, b) ∈ assign nextHost 253 ∅ (pre.map wish) ∨
        (other, b) ∈ assign nextHost 253 (insert b T) (mid.map wish) := by
      rcases h with h | h
      · rw [← hT, mem_takenBehind, or_iff_right (Finset.notMem_empty b)] at h
        obtain ⟨⟨other, host⟩, hx, rfl⟩ := List.mem_map.mp h
        exact ⟨other, Or.inl hx⟩
      · obtain ⟨⟨other, host⟩, hx, rfl⟩ := List.mem_map.mp h
        exact ⟨other, Or.inr hx⟩
    obtain ⟨other, hother⟩ := hother
    have hmem : (other, b) ∈ assign nextHost 253 ∅ ((pre ++ o :: mid).map wish) := by
      rw [hassign, List.mem_append, List.mem_cons]
      exact hother.imp_right Or.inr
    obtain ⟨hlt, hslot⟩ := (mem_assign_before hsplit').mp hmem
    refine ⟨other, fun he => ?_, hlt, addressOf_of_mem_slots hslot⟩
    -- `o` itself is served once
    have hnodup : ((assign nextHost 253 ∅ ((pre ++ o :: mid).map wish)).map Prod.fst).Nodup := by
      have hall : ((slots P now cfg E).map Prod.fst).Nodup := nodup_slots
      rw [slots_split hsplit', List.map_append] at hall
      exact (List.nodup_append.mp hall).1
    rw [hassign, List.map_append, List.map_cons, List.nodup_middle, List.nodup_cons,
      List.mem_append] at hnodup
    refine hnodup.1 (hother.imp ?_ ?_) <;>
    · intro h
      exact he ▸ List.mem_map_of_mem (f := Prod.fst) h

/-- **Whom the host of `m` stands in the way of**: those who go past it, while no other has it,
    and do not end there. -/
theorem displaces_iff (hsplit : served P now cfg E = pre ++ o :: (mid ++ o' :: rest))
    (hT : takenBehind nextHost 253 ∅ (pre.map wish) = T)
    (hb : seek nextHost T 253 (recordedHost o.2.2) = b) :
    Displaces P now cfg E o.2.1 o'.2.1 ↔
      b ∉ T ∧ b ∉ (assign nextHost 253 (insert b T) (mid.map wish)).map Prod.snd ∧
      Passes nextHost (takenBehind nextHost 253 (insert b T) (mid.map wish)) 253
        (recordedHost o'.2.2) b ∧
      seek nextHost (takenBehind nextHost 253 (insert b T) (mid.map wish)) 253
        (recordedHost o'.2.2) ≠ b := by
  obtain ⟨hheld, hslot⟩ := held_split hsplit hT hb
  have haddr := addressOf_of_mem_slots hslot
  have hothers := held_by_other_iff hsplit hT hb
  have haddrm : (Roster.build P now cfg E).addressOf o.2.1 = some (cfg.subnet.withHost b) := by
    have hm := mem_slots_behind hsplit
    rw [hT, hb] at hm
    exact addressOf_of_mem_slots hm
  have ho : o ∈ served P now cfg E := by simp [hsplit]
  have ho' : o' ∈ served P now cfg E := by simp [hsplit]
  have hlt : admission P now cfg E o.2.1 < admission P now cfg E o'.2.1 := by
    have hstrict : StrictBy (fun o : UInt64 × Id × UInt8 => toLex (o.1, o.2.1))
        (served P now cfg E) := strictBy_ipOrder _ _
    rw [hsplit] at hstrict
    rw [admission_of_served ho, admission_of_served ho']
    exact (hstrict.mem_after.mp (by simp)).2
  obtain ⟨mx, hmx, -, hhost⟩ := mem_ipOrder.mp ho'
  obtain ⟨mm, hmm, hip⟩ := Option.map_eq_some_iff.mp haddrm
  have hnone : (∀ other, other ≠ o.2.1 →
      admission P now cfg E other < admission P now cfg E o'.2.1 →
      (Roster.build P now cfg E).addressOf other ≠ some (cfg.subnet.withHost b)) ↔
      b ∉ T ∧ b ∉ (assign nextHost 253 (insert b T) (mid.map wish)).map Prod.snd := by
    rw [← not_or, ← hothers, not_exists]
    exact forall_congr' fun other => by rw [not_and, not_and]
  have hend : (Roster.build P now cfg E).addressOf o'.2.1 ≠ some (cfg.subnet.withHost b) ↔
      seek nextHost (takenBehind nextHost 253 (insert b T) (mid.map wish)) 253
        (recordedHost o'.2.2) ≠ b := by
    rw [haddr]
    exact not_congr ⟨fun h => withHost_inj (Option.some.inj h), fun h => by rw [h]⟩
  have hb' : b = mm.virtualIp.host := by
    rw [hip]
    rfl
  rw [← and_assoc, ← hnone, ← hend, ← hheld, hhost, ← hip, hb']
  constructor
  · intro h
    obtain ⟨mm', mx', hmm', hmx', -, hothers, hpass, hend⟩ := h
    obtain rfl := Option.some.inj (hmm.symm.trans hmm')
    obtain rfl := Option.some.inj (hmx.symm.trans hmx')
    exact ⟨hothers, hpass, hend⟩
  · intro h
    exact ⟨mm, mx, hmm, hmx, hlt, h⟩

/-- Who is in the way of whom: only of those served behind. -/
theorem exists_displaces_iff {post : List (UInt64 × Id × UInt8)}
    (hsplit : served P now cfg E = pre ++ o :: post) :
    (∀ x, ¬ Displaces P now cfg E o.2.1 x) ↔
      ∀ mid o' rest, post = mid ++ o' :: rest → ¬ Displaces P now cfg E o.2.1 o'.2.1 := by
  constructor
  · exact fun h mid o' rest _ => h o'.2.1
  · intro h x hx
    have hstrict : StrictBy (fun o : UInt64 × Id × UInt8 => toLex (o.1, o.2.1))
        (served P now cfg E) := strictBy_ipOrder _ _
    obtain ⟨mm, mx, -, hmx, hlt, -⟩ := id hx
    have ho : o ∈ served P now cfg E := by simp [hsplit]
    have hserved : _ ∈ served P now cfg E :=
      mem_ipOrder_of_member (foldAll P now cfg E).admittedTs hmx
    rw [admission_of_served ho, admission] at hlt
    rw [hsplit] at hstrict hserved
    have hbehind := hstrict.mem_after.mpr ⟨hserved, hlt⟩
    obtain ⟨mid, rest, hpost⟩ := List.append_of_mem hbehind
    exact h mid _ rest hpost hx

end Removed

/-- The addresses of the others stay when the host of `m` is given up exactly when the hosts
    given out behind `m` do. -/
theorem stay_iff_assign_eq {E' : List Entry} {pre post : List (UInt64 × Id × UInt8)}
    {o : UInt64 × Id × UInt8} (hsplit : served P now cfg E = pre ++ o :: post)
    (hserved : served P now cfg E' = pre ++ post) :
    (∀ x, x ≠ o.2.1 → (Roster.build P now cfg E).isMember x = true →
      (Roster.build P now cfg E').addressOf x = (Roster.build P now cfg E).addressOf x) ↔
    assign nextHost 253 (insert (seek nextHost (takenBehind nextHost 253 ∅ (pre.map wish)) 253
        (recordedHost o.2.2)) (takenBehind nextHost 253 ∅ (pre.map wish))) (post.map wish) =
      assign nextHost 253 (takenBehind nextHost 253 ∅ (pre.map wish)) (post.map wish) := by
  have hslots := slots_split hsplit
  have hslots' := slots_split hserved
  rw [List.map_cons, wish, assign] at hslots
  have hnodup : ((slots P now cfg E).map Prod.fst).Nodup := nodup_slots
  have hnodup' : ((slots P now cfg E').map Prod.fst).Nodup := nodup_slots
  rw [hslots, List.map_append, List.map_cons, List.nodup_middle, List.nodup_cons,
    List.mem_append, not_or] at hnodup
  obtain ⟨⟨-, hnot⟩, hnodup⟩ := hnodup
  rw [← List.map_append] at hnodup
  constructor
  · intro h
    refine eq_of_sub_of_map_fst (by rw [map_fst_assign, map_fst_assign]) ?_ fun x hx => ?_
    · rw [hslots', List.map_append] at hnodup'
      exact (List.nodup_append.mp hnodup').2.1
    · have hslot : x ∈ slots P now cfg E := by
        rw [hslots]
        exact List.mem_append_right _ (List.mem_cons_of_mem _ hx)
      have hne : x.1 ≠ o.2.1 := fun he => hnot (he ▸ List.mem_map_of_mem (f := Prod.fst) hx)
      have haddr := @addressOf_of_mem_slots P now cfg E x.1 x.2 hslot
      have hmember : (Roster.build P now cfg E).isMember x.1 = true := by
        obtain ⟨m, hm, -⟩ := Option.map_eq_some_iff.mp haddr
        rw [Roster.isMember, Std.ExtTreeMap.contains_eq_isSome_getElem?]
        exact Option.isSome_iff_exists.mpr ⟨m, hm⟩
      rw [← h x.1 hne hmember] at haddr
      obtain ⟨host, hslot', he⟩ := addressOf_eq_some_iff.mp haddr
      rw [← withHost_inj he, hslots'] at hslot'
      refine (List.mem_append.mp hslot').resolve_left fun hpre => ?_
      -- `x` is served behind `m`, once
      rw [List.map_append] at hnodup
      exact List.disjoint_of_nodup_append hnodup (List.mem_map_of_mem (f := Prod.fst) hpre)
        (List.mem_map_of_mem (f := Prod.fst) hx)
  · intro heq x hne hx
    rw [heq] at hslots
    obtain ⟨host, hslot⟩ := mem_slots_of_isMember hx
    rw [addressOf_of_mem_slots hslot]
    rw [hslots, List.mem_append, List.mem_cons] at hslot
    refine addressOf_of_mem_slots ?_
    rw [hslots', List.mem_append]
    exact hslot.imp_right fun h => h.resolve_left fun he => hne (Prod.mk.inj he).1

/-- **Everybody keeps its address**, when the one that stands at a place is given up, exactly when
    it stands in nobody's way. -/
theorem stay_iff_not_displaces {E' : List Entry} {pre post : List (UInt64 × Id × UInt8)}
    {o : UInt64 × Id × UInt8} (hsplit : served P now cfg E = pre ++ o :: post)
    (hserved : served P now cfg E' = pre ++ post) :
    (∀ x, x ≠ o.2.1 → (Roster.build P now cfg E).isMember x = true →
      (Roster.build P now cfg E').addressOf x = (Roster.build P now cfg E).addressOf x) ↔
    ∀ x, ¬ Displaces P now cfg E o.2.1 x := by
  rw [stay_iff_assign_eq hsplit hserved, exists_displaces_iff hsplit]
  generalize hT : takenBehind nextHost 253 ∅ (pre.map wish) = T
  generalize hb : seek nextHost T 253 (recordedHost o.2.2) = b
  by_cases hbT : b ∈ T
  · rw [Finset.insert_eq_of_mem hbT]
    refine iff_of_true rfl fun mid o' rest hpost hdis => ?_
    rw [hpost] at hsplit
    exact ((displaces_iff hsplit hT hb).mp hdis).1 hbT
  · rw [cycle_hosts.assign_insert_eq_iff wish_mem hbT]
    constructor
    · intro h mid o' rest hpost hdis
      rw [hpost] at hsplit
      obtain ⟨-, hfree, hpass, hne⟩ := (displaces_iff hsplit hT hb).mp hdis
      exact hne (h _ _ _ _ (by rw [hpost, List.map_append, List.map_cons]; rfl) hfree hpass)
    · intro h pre' i a post' hmap hfree hpass
      obtain ⟨mid, behind, hpost, rfl, hbehind⟩ := List.map_eq_append_iff.mp hmap
      obtain ⟨o', rest, rfl, ho', rfl⟩ := List.map_eq_cons_iff.mp hbehind
      obtain ⟨rfl, rfl⟩ := Prod.mk.inj ho'
      by_contra hne
      refine h mid o' rest hpost ?_
      rw [hpost] at hsplit
      exact (displaces_iff hsplit hT hb).mpr ⟨hbT, hfree, hpass, hne⟩

/-! ## 3. A member is removed -/

/-- Who is served behind a removal: all but the one removed. -/
theorem served_remove {m : Id} {ts : UInt64} (hcf : CollisionFree P now cfg (E ++ [e]))
    (hlate : ∀ x ∈ E, orderKey P x < orderKey P e) (hop : e.op = .remove m ts)
    (hauth : authentic P now cfg e = true)
    (hrule : authorised cfg (foldAll P now cfg E) e = true) :
    served P now cfg (E ++ [e]) = (served P now cfg E).filter fun o => o.2.1 ≠ m := by
  rw [served, foldAll_behind hcf hlate, if_pos hauth, foldEntry_of_authorised hrule, effect, hop]
  exact ipOrder_erase _ _

/-- Each device is served once. -/
theorem filter_served {pre post : List (UInt64 × Id × UInt8)} {o : UInt64 × Id × UInt8}
    (hsplit : served P now cfg E = pre ++ o :: post) :
    ((served P now cfg E).filter fun x => x.2.1 ≠ o.2.1) = pre ++ post := by
  have hnodup : ((served P now cfg E).map fun x => x.2.1).Nodup := nodup_ipOrder _ _
  rw [hsplit, List.map_append, List.map_cons, List.nodup_middle, List.nodup_cons,
    ← List.map_append] at hnodup
  have hkeep : ∀ x ∈ pre ++ post, x.2.1 ≠ o.2.1 := fun x hx he =>
    hnodup.1 (he ▸ List.mem_map_of_mem (f := fun x => x.2.1) hx)
  rw [hsplit, List.filter_append, List.filter_cons_of_neg (by simp), ← List.filter_append]
  exact List.filter_eq_self.mpr fun x hx => decide_eq_true (hkeep x hx)

/-- Who stands in somebody's way is served. -/
theorem served_of_displaces {m x : Id} (h : Displaces P now cfg E m x) :
    ∃ o ∈ served P now cfg E, o.2.1 = m := by
  obtain ⟨mm, -, hmm, -⟩ := h
  have haddr : (Roster.build P now cfg E).addressOf m = some mm.virtualIp := by
    rw [Roster.addressOf, hmm]
    rfl
  obtain ⟨host, hslot, -⟩ := addressOf_eq_some_iff.mp haddr
  have hfst := List.mem_map_of_mem (f := Prod.fst) hslot
  rw [map_fst_slots] at hfst
  exact List.mem_map.mp hfst

/-- **Who keeps its address when `m` is removed**: everybody, exactly when the host of `m` stands
    in nobody's way. -/
theorem survivors_stay_iff {m : Id} {ts : UInt64} (hcf : CollisionFree P now cfg (E ++ [e]))
    (hlate : ∀ x ∈ E, orderKey P x < orderKey P e) (hop : e.op = .remove m ts)
    (hauth : authentic P now cfg e = true)
    (hrule : authorised cfg (foldAll P now cfg E) e = true) :
    (∀ x, x ≠ m → (Roster.build P now cfg E).isMember x = true →
      (Roster.build P now cfg (E ++ [e])).addressOf x = (Roster.build P now cfg E).addressOf x) ↔
    ∀ x, ¬ Displaces P now cfg E m x := by
  have hserved := served_remove hcf hlate hop hauth hrule
  by_cases hm : ∃ o ∈ served P now cfg E, o.2.1 = m
  · obtain ⟨o, ho, rfl⟩ := hm
    obtain ⟨pre, post, hsplit⟩ := List.append_of_mem ho
    exact stay_iff_not_displaces hsplit (hserved.trans (filter_served hsplit))
  · -- nobody leaves
    have hsame : served P now cfg (E ++ [e]) = served P now cfg E := by
      rw [hserved]
      exact List.filter_eq_self.mpr fun o ho => decide_eq_true fun he => hm ⟨o, ho, he⟩
    have hslots : slots P now cfg (E ++ [e]) = slots P now cfg E := by rw [slots, hsame, slots]
    refine iff_of_true (fun x _ _ => ?_) fun x hdis => hm (served_of_displaces hdis)
    refine Option.ext fun ip => ?_
    rw [addressOf_eq_some_iff, addressOf_eq_some_iff, hslots]

/-- Device 3 holds the host that device 4 has asked for, and is removed: device 4 gets it. -/
theorem survivor_moves : ¬ ∀ (E : List Entry) (e : Entry) (m x : Id),
    CollisionFree .plain 100 Sample.config (E ++ [e]) →
    (∀ x ∈ E, orderKey .plain x < orderKey .plain e) →
    authentic .plain 100 Sample.config e = true → e.op = .remove m e.op.ts →
    authorised Sample.config (foldAll .plain 100 Sample.config E) e = true → x ≠ m →
    (Roster.build .plain 100 Sample.config E).isMember x = true →
    (Roster.build .plain 100 Sample.config (E ++ [e])).addressOf x =
      (Roster.build .plain 100 Sample.config E).addressOf x := by
  intro h
  have hmoved := h Sample.rivals (Sample.signed 2 (.remove (Sample.key 3) 5)) (Sample.key 3)
    (Sample.key 4) (by decide +kernel) (by decide +kernel) (by decide +kernel) rfl
    (by decide +kernel) (by decide) (by decide +kernel)
  revert hmoved
  decide +kernel

/-- Device 2, at an address of its own, can be removed without moving the rivals. -/
theorem survivors_stay_rivals :
    (∀ x, x ≠ Sample.key 2 →
        (Roster.build .plain 100 Sample.config Sample.rivals).isMember x = true →
        (Roster.build .plain 100 Sample.config
            (Sample.rivals ++ [Sample.signed 1 (.remove (Sample.key 2) 5)])).addressOf x =
          (Roster.build .plain 100 Sample.config Sample.rivals).addressOf x) ↔
      ∀ x, ¬ Displaces .plain 100 Sample.config Sample.rivals (Sample.key 2) x :=
  survivors_stay_iff (by decide +kernel) (by decide +kernel) rfl (by decide +kernel)
    (by decide +kernel)

end Behind

end Nullgate
