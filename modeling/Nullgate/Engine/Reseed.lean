/-
  File:      Nullgate/Engine/Reseed.lean
  Subject:   THE ROSTER DOCUMENT'S RE-SEED: whom a tick seeds again, and who counts as fresh.

  A change of the membership re-seeds everyone; the periodic self-heal only who is reachable: by
  a live connection, or by a heartbeat heard of late. How late is asked of the stamp the SENDER
  put on it, not of the time it was heard.

  * `docReseedTargets` -- the policy; `freshMembers` -- what the tick takes for fresh;
  * `lastSeen_isGreatest`: a peer's last-seen time is the greatest stamp so far;
  * `fresh_iff_claimed`: a member is fresh where some stamp claims it;
  * **`fresh_iff_heard_iff`**: fresh is heard of late, from the last reception on, exactly when the
    greatest stamp is the time of that reception;
  * `fresh_not_heard`: a far-future stamp, and what it does to the heartbeats behind it.
-/
import Mathlib.Order.Bounds.Basic
import Nullgate.Lib.Fold
import Nullgate.Presence.Tracker

namespace Nullgate

open Nullgate.Lib

/-! ## 1. Whom to seed -/

/-- The cadence of the periodic self-heal. -/
def DOC_RESYNC_MS : UInt64 := 30000

/-- A peer whose heartbeat we've heard within this window counts as reachable. -/
def PRESENCE_FRESH_MS : UInt64 := 300000

theorem toNat_saturatingSub (a b : UInt64) : (saturatingSub a b).toNat = a.toNat - b.toNat := by
  unfold saturatingSub
  split
  · rename_i hlt
    rw [UInt64.lt_iff_toNat_lt] at hlt
    show 0 = _
    omega
  · rename_i hle
    exact UInt64.toNat_sub_of_le _ _ (UInt64.not_lt.mp hle)

/-- The members but ourselves, in the order of their ids. -/
def memberIds (roster : Roster) (myId : Id) : List Id := roster.members.keys.filter (· ≠ myId)

/-- **Which members to re-seed this tick**, `none` to skip it. -/
def docReseedTargets (members connected : List Id) (isFresh : Id → Bool) (changed due : Bool) :
    Option (List Id) :=
  if members.isEmpty then none
  else if changed then some members
  else if !due then none
  else
    let targets := members.filter fun id => connected.contains id || isFresh id
    if targets.isEmpty then none else some targets

namespace PresenceTracker

/-- The virtual addresses of the roster, as a tick sets them. -/
def setVirtualIps (t : PresenceTracker) (roster : Roster) : PresenceTracker :=
  roster.members.toList.foldl (fun t (id, m) => t.setVirtualIp id m.virtualIp) t

/-- The peer's last heartbeat is of late, by its stamp. -/
def isFresh (t : PresenceTracker) (now : UInt64) (id : Id) : Bool :=
  match t.peers[id]? with
  | some e => saturatingSub now e.lastSeen ≤ PRESENCE_FRESH_MS
  | none => false

/-- **The members a tick at the time `now` takes for fresh.** -/
def freshMembers (t : PresenceTracker) (roster : Roster) (myId : Id) (now : UInt64) : List Id :=
  (memberIds roster myId).filter ((t.setVirtualIps roster).isFresh now)

/-! ## 2. The time of the last heartbeat -/

/-- Within the window before `now`, or after it. -/
def Within (now ts : UInt64) : Prop := saturatingSub now ts ≤ PRESENCE_FRESH_MS

instance decidableWithin (now ts : UInt64) : Decidable (Within now ts) :=
  inferInstanceAs (Decidable (saturatingSub now ts ≤ PRESENCE_FRESH_MS))

/-- A later stamp is within the window where an earlier one is. -/
theorem Within.mono {now ts ts' : UInt64} (h : Within now ts) (hts : ts ≤ ts') :
    Within now ts' := by
  rw [Within, UInt64.le_iff_toNat_le, toNat_saturatingSub] at h ⊢
  rw [UInt64.le_iff_toNat_le] at hts
  omega

/-- Setting the virtual addresses keeps the last-seen times, and knows every member. -/
theorem foldl_setVirtualIp (members : List (Id × Member)) (t : PresenceTracker) (p : Id) :
    let t' := members.foldl (fun t (x : Id × Member) => t.setVirtualIp x.1 x.2.virtualIp) t
    (t'.entry p).lastSeen = (t.entry p).lastSeen ∧
      ((∃ m, (p, m) ∈ members) ∨ p ∈ t.peers → p ∈ t'.peers) := by
  induction members generalizing t with
  | nil => exact ⟨rfl, fun h => h.resolve_left fun ⟨m, hm⟩ => by cases hm⟩
  | cons x members ih =>
    obtain ⟨hseen, hmem⟩ := ih (t.setVirtualIp x.1 x.2.virtualIp)
    have hentry := entry_update t x.1 p fun e => ({ e with virtualIp := some x.2.virtualIp }, false)
    have hstored : x.1 = p ∨ p ∈ t.peers → p ∈ (t.setVirtualIp x.1 x.2.virtualIp).peers := by
      intro h
      refine Std.ExtTreeMap.mem_insert.mpr (h.imp (fun hp => ?_) id)
      rw [hp]
      exact Std.ReflCmp.compare_self
    refine ⟨hseen.trans ?_, fun h => hmem ?_⟩
    · rw [setVirtualIp, hentry]
      split
      · rename_i hp
        rw [hp]
      · rfl
    · rcases h with ⟨m, hm⟩ | hp
      · rcases List.mem_cons.mp hm with hx | hm
        · exact Or.inr (hstored (Or.inl (congrArg Prod.fst hx).symm))
        · exact Or.inl ⟨m, hm⟩
      · exact Or.inr (hstored (Or.inr hp))

/-- **A member is fresh exactly if the time of its last heartbeat is within the window.** -/
theorem mem_freshMembers_iff {t : PresenceTracker} {roster : Roster} {myId p : Id} {now : UInt64}
    (hp : p ∈ memberIds roster myId) :
    p ∈ t.freshMembers roster myId now ↔ Within now (t.entry p).lastSeen := by
  obtain ⟨hseen, hmem⟩ := foldl_setVirtualIp roster.members.toList t p
  have hkey : p ∈ roster.members := Std.ExtTreeMap.mem_keys.mp (List.mem_filter.mp hp).1
  have hin : p ∈ (t.setVirtualIps roster).peers := by
    refine hmem (Or.inl ⟨roster.members[p], ?_⟩)
    rw [Std.ExtTreeMap.mem_toList_iff_getElem?_eq_some]
    exact Std.ExtTreeMap.getElem?_eq_some_getElem hkey
  have hentry : (t.setVirtualIps roster).peers[p]? = some ((t.setVirtualIps roster).entry p) := by
    rw [entry, Std.ExtTreeMap.getElem?_eq_some_getElem hin, Option.getD_some]
  rw [freshMembers, List.mem_filter, isFresh, hentry, and_iff_right hp, decide_eq_true_eq, Within,
    ← hseen]
  exact Iff.rfl

/-! ## 3. What is heard, and what is claimed -/

/-- The tracker behind calls, each with the local time of its reception. -/
def hear (t : PresenceTracker) (x : UInt64 × PresenceCall) : PresenceTracker := t.step x.2

/-- The stamps of `p` so far: those of its heartbeats, and the one known at the start. -/
def stamps (t : PresenceTracker) (p : Id) (calls : List (UInt64 × PresenceCall)) : Set UInt64 :=
  {ts | ts = (t.entry p).lastSeen ∨ ∃ r h, (r, .heartbeat p h) ∈ calls ∧ h.ts = ts}

/-- The local times at which heartbeats of `p` were received. -/
def receptions (p : Id) (calls : List (UInt64 × PresenceCall)) : Set UInt64 :=
  {r | ∃ h, (r, .heartbeat p h) ∈ calls}

/-- A heartbeat of `p` was received in the window before `now`. -/
def HeardWithin (p : Id) (calls : List (UInt64 × PresenceCall)) (now : UInt64) : Prop :=
  ∃ r h, (r, .heartbeat p h) ∈ calls ∧ r ≤ now ∧ now - r ≤ PRESENCE_FRESH_MS

/-- A stamp of `p` claims the window before `now`, or a time after it. -/
def ClaimedWithin (t : PresenceTracker) (p : Id) (calls : List (UInt64 × PresenceCall))
    (now : UInt64) : Prop :=
  ∃ ts ∈ stamps t p calls, Within now ts

/-- The windows behind two times end together: the times are the same, or both windows last to the
    end of the clock. -/
def EndTogether (ts r : UInt64) : Prop :=
  ts = r ∨ (UInt64.size ≤ ts.toNat + PRESENCE_FRESH_MS.toNat + 1 ∧
    UInt64.size ≤ r.toNat + PRESENCE_FRESH_MS.toNat + 1)

/-- The greatest stamp of `p` so far is the time of the last reception. -/
def StampedAsReceived (t : PresenceTracker) (p : Id) (calls : List (UInt64 × PresenceCall)) :
    Prop :=
  ∃ ts r, IsGreatest (stamps t p calls) ts ∧ IsGreatest (receptions p calls) r ∧ EndTogether ts r

/-- No stamp of `p` so far claims a time after `ts`. -/
def NoneLater (t : PresenceTracker) (p : Id) (calls : List (UInt64 × PresenceCall))
    (ts : UInt64) : Prop :=
  ∀ ts' ∈ stamps t p calls, ts' ≤ ts

/-- What a call does to the last-seen time of `p`. -/
theorem lastSeen_step (t : PresenceTracker) (c : PresenceCall) (p : Id) :
    (∃ h, c = .heartbeat p h ∧ (t.entry p).lastSeen ≤ h.ts ∧
        ((t.step c).entry p).lastSeen = h.ts) ∨
      ((t.step c).entry p).lastSeen = (t.entry p).lastSeen ∧
        ∀ h, c = .heartbeat p h → h.ts ≤ (t.entry p).lastSeen := by
  by_cases hc : c.about = p
  · rw [entry_step_self hc]
    cases c with
    | heartbeat id h =>
      obtain rfl : id = p := hc
      rw [onEntry]
      by_cases hold : h.ts < (t.entry id).lastSeen
      · rw [PeerStatus.heartbeat_old hold]
        refine Or.inr ⟨rfl, ?_⟩
        rintro h' ⟨⟩
        exact UInt64.le_of_lt hold
      · rw [(PeerStatus.heartbeat_new hold).1]
        exact Or.inl ⟨h, rfl, UInt64.not_lt.mp hold, rfl⟩
    | connection id info online =>
      rw [onEntry, (PeerStatus.connection_eq _ _ _).1]
      exact Or.inr ⟨rfl, fun h hc => by cases hc⟩
    | virtualIp id ip => exact Or.inr ⟨rfl, fun h hc => by cases hc⟩
    | location id location => exact Or.inr ⟨rfl, fun h hc => by cases hc⟩
  · rw [entry_step_of_ne hc]
    refine Or.inr ⟨rfl, ?_⟩
    rintro h rfl
    exact absurd rfl hc

/-- **A peer's last-seen time is the greatest of its stamps.** -/
theorem lastSeen_isGreatest (t : PresenceTracker) (p : Id) (calls : List (UInt64 × PresenceCall)) :
    IsGreatest (stamps t p calls) ((run hear t calls).entry p).lastSeen := by
  induction calls using List.reverseRecOn with
  | nil =>
    refine ⟨Or.inl rfl, ?_⟩
    rintro ts (rfl | ⟨r, h, hmem, -⟩)
    · exact UInt64.le_refl _
    · cases hmem
  | append_singleton calls x ih =>
    obtain ⟨r, c⟩ := x
    obtain ⟨hin, hmax⟩ := ih
    rw [run_append]
    -- a stamp of the longer sequence is an old one, or the last call's
    have hcases : ∀ ts, ts ∈ stamps t p (calls ++ [(r, c)]) ↔
        ts ∈ stamps t p calls ∨ ∃ h, c = .heartbeat p h ∧ h.ts = ts := by
      intro ts
      simp only [stamps, Set.mem_ofPred_eq, List.mem_append, List.mem_singleton, Prod.mk.injEq,
        or_and_right, exists_or, or_assoc]
      refine or_congr_right (or_congr_right ⟨?_, ?_⟩)
      · rintro ⟨_, h, ⟨rfl, hc⟩, hts⟩
        exact ⟨h, hc.symm, hts⟩
      · rintro ⟨h, hc, hts⟩
        exact ⟨r, h, ⟨rfl, hc.symm⟩, hts⟩
    show IsGreatest _ ((((run hear t calls).step c).entry p).lastSeen)
    rcases lastSeen_step (run hear t calls) c p with ⟨h, hc, hle, hseen⟩ | ⟨hseen, hold⟩
    · rw [hseen]
      refine ⟨(hcases _).mpr (Or.inr ⟨h, hc, rfl⟩), fun ts hts => ?_⟩
      rcases (hcases ts).mp hts with hts | ⟨h', hc', rfl⟩
      · exact UInt64.le_trans (hmax hts) hle
      · obtain ⟨-, rfl⟩ := PresenceCall.heartbeat.inj (hc.symm.trans hc')
        exact UInt64.le_refl _
    · rw [hseen]
      refine ⟨(hcases _).mpr (Or.inl hin), fun ts hts => ?_⟩
      rcases (hcases ts).mp hts with hts | ⟨h', hc', rfl⟩
      · exact hmax hts
      · exact hold h' hc'

/-- **A member is fresh exactly if some stamp claims it.** -/
theorem fresh_iff_claimed {roster : Roster} {myId p : Id} (hp : p ∈ memberIds roster myId)
    {t : PresenceTracker} {calls : List (UInt64 × PresenceCall)} {now : UInt64} :
    p ∈ (run hear t calls).freshMembers roster myId now ↔ ClaimedWithin t p calls now := by
  obtain ⟨hin, hmax⟩ := lastSeen_isGreatest t p calls
  rw [mem_freshMembers_iff hp]
  exact ⟨fun h => ⟨_, hin, h⟩, fun ⟨ts, hts, h⟩ => h.mono (hmax hts)⟩

/-! ## 4. Stamps against receptions -/

theorem within_iff {now ts : UInt64} :
    Within now ts ↔ now.toNat ≤ ts.toNat + PRESENCE_FRESH_MS.toNat := by
  rw [Within, UInt64.le_iff_toNat_le, toNat_saturatingSub]
  omega

/-- The greatest stamp decides. -/
theorem claimed_iff {t : PresenceTracker} {p : Id} {calls : List (UInt64 × PresenceCall)}
    {now ts : UInt64} (hts : IsGreatest (stamps t p calls) ts) :
    ClaimedWithin t p calls now ↔ now.toNat ≤ ts.toNat + PRESENCE_FRESH_MS.toNat := by
  rw [← within_iff]
  exact ⟨fun ⟨ts', hin, h⟩ => h.mono (hts.2 hin), fun h => ⟨ts, hts.1, h⟩⟩

/-- From the last reception on, it decides. -/
theorem heard_iff {p : Id} {calls : List (UInt64 × PresenceCall)} {now r : UInt64}
    (hr : IsGreatest (receptions p calls) r) (hnow : r ≤ now) :
    HeardWithin p calls now ↔ now.toNat ≤ r.toNat + PRESENCE_FRESH_MS.toNat := by
  have hsub : ∀ r' : UInt64, r' ≤ now → (now - r').toNat = now.toNat - r'.toNat :=
    fun r' => UInt64.toNat_sub_of_le now r'
  constructor
  · rintro ⟨r', h, hmem, hle, hwithin⟩
    have hlast := UInt64.le_iff_toNat_le.mp (hr.2 ⟨h, hmem⟩)
    rw [UInt64.le_iff_toNat_le, hsub r' hle] at hwithin
    omega
  · intro h
    obtain ⟨hb, hmem⟩ := hr.1
    refine ⟨r, hb, hmem, hnow, ?_⟩
    rw [UInt64.le_iff_toNat_le, hsub r hnow]
    omega

/-- There is a last reception, unless nothing was heard. -/
theorem receptions_cases (p : Id) (calls : List (UInt64 × PresenceCall)) :
    receptions p calls = ∅ ∨ ∃ r, IsGreatest (receptions p calls) r := by
  induction calls with
  | nil => exact Or.inl (Set.eq_empty_of_forall_notMem fun r ⟨h, hmem⟩ => by cases hmem)
  | cons x calls ih =>
    have hcons : ∀ r, r ∈ receptions p (x :: calls) ↔
        (∃ h, x = (r, .heartbeat p h)) ∨ r ∈ receptions p calls := by
      intro r
      simp only [receptions, Set.mem_ofPred_eq, List.mem_cons, exists_or, eq_comm]
    by_cases hx : ∃ r h, x = (r, .heartbeat p h)
    · obtain ⟨r, h, rfl⟩ := hx
      have hhere : ∀ r' h', (r, PresenceCall.heartbeat p h) = (r', .heartbeat p h') → r' = r :=
        fun r' h' heq => (Prod.mk.inj heq).1.symm
      rcases ih with hnone | ⟨r', hr', hmax⟩
      · refine Or.inr ⟨r, (hcons r).mpr (Or.inl ⟨h, rfl⟩), fun r' hr' => ?_⟩
        rcases (hcons r').mp hr' with ⟨h', heq⟩ | hr'
        · rw [hhere r' h' heq]
        · rw [hnone] at hr'
          cases hr'
      · rcases UInt64.le_total r r' with hle | hle
        · refine Or.inr ⟨r', (hcons r').mpr (Or.inr hr'), fun r'' hr'' => ?_⟩
          rcases (hcons r'').mp hr'' with ⟨h', heq⟩ | hr''
          · rw [hhere r'' h' heq]
            exact hle
          · exact hmax hr''
        · refine Or.inr ⟨r, (hcons r).mpr (Or.inl ⟨h, rfl⟩), fun r'' hr'' => ?_⟩
          rcases (hcons r'').mp hr'' with ⟨h', heq⟩ | hr''
          · rw [hhere r'' h' heq]
          · exact UInt64.le_trans (hmax hr'') hle
    · have hsame : receptions p (x :: calls) = receptions p calls := by
        ext r
        rw [hcons, or_iff_right fun ⟨h, heq⟩ => hx ⟨r, h, heq⟩]
      rw [hsame]
      exact ih

/-- **Two windows that begin before `r` agree from `r` on** exactly if they end together. -/
theorem endTogether_iff {ts r : UInt64} :
    (∀ now : UInt64, r ≤ now → (now.toNat ≤ ts.toNat + PRESENCE_FRESH_MS.toNat ↔
        now.toNat ≤ r.toNat + PRESENCE_FRESH_MS.toNat)) ↔ EndTogether ts r := by
  have hts := ts.toNat_lt
  have hr := r.toNat_lt
  have hsize : UInt64.size = 2 ^ 64 := rfl
  rw [EndTogether, hsize]
  constructor
  · intro h
    by_contra hne
    obtain ⟨hne, hend⟩ := not_or.mp hne
    rw [← UInt64.toNat_inj] at hne
    -- the first time behind the window that ends first
    let first := min ts.toNat r.toNat + PRESENCE_FRESH_MS.toNat + 1
    have hfirst : first < 2 ^ 64 := by omega
    have htoNat : (UInt64.ofNat first).toNat = first := UInt64.toNat_ofNat_of_lt hfirst
    by_cases hle : r.toNat ≤ first
    · have hiff := h (UInt64.ofNat first) (by rw [UInt64.le_iff_toNat_le, htoNat]; exact hle)
      rw [htoNat] at hiff
      omega
    · have hiff := h r (UInt64.le_refl r)
      omega
  · rintro (rfl | hend) now -
    · exact Iff.rfl
    · have hnow := now.toNat_lt
      omega

theorem stampedAsReceived_iff {t : PresenceTracker} {p : Id} {calls : List (UInt64 × PresenceCall)}
    {ts r : UInt64} (hts : IsGreatest (stamps t p calls) ts)
    (hr : IsGreatest (receptions p calls) r) :
    StampedAsReceived t p calls ↔ EndTogether ts r := by
  constructor
  · rintro ⟨ts', r', hts', hr', h⟩
    have hsame : ts' = ts := UInt64.le_antisymm (hts.2 hts'.1) (hts'.2 hts.1)
    have hsame' : r' = r := UInt64.le_antisymm (hr.2 hr'.1) (hr'.2 hr.1)
    rwa [hsame, hsame'] at h
  · exact fun h => ⟨ts, r, hts, hr, h⟩

/-- A heartbeat is taken exactly if none before claims a later time. -/
theorem taken_iff {t : PresenceTracker} {p : Id} {calls : List (UInt64 × PresenceCall)}
    {r : UInt64} {h : Heartbeat} :
    ((run hear t (calls ++ [(r, .heartbeat p h)])).entry p).lastSeen = h.ts ↔
      NoneLater t p calls h.ts := by
  obtain ⟨hin, hmax⟩ := lastSeen_isGreatest t p calls
  rw [run_append]
  show (((run hear t calls).step _).entry p).lastSeen = _ ↔ _
  rcases lastSeen_step (run hear t calls) (.heartbeat p h) p with
    ⟨h', hc, hle, hseen⟩ | ⟨hseen, hold⟩
  · obtain ⟨-, rfl⟩ := PresenceCall.heartbeat.inj hc
    exact iff_of_true hseen fun ts hts => UInt64.le_trans (hmax hts) hle
  · rw [hseen]
    refine ⟨fun heq ts hts => heq ▸ hmax hts, fun hall => ?_⟩
    exact UInt64.le_antisymm (hall _ hin) (hold h rfl)

end PresenceTracker

open PresenceTracker in
/-- **Fresh is heard of late**, at every time from the last reception on, exactly when the greatest
    stamp is the time of the last reception. And a heartbeat is taken exactly when no earlier one
    claims a later time. -/
theorem fresh_iff_heard_iff {roster : Roster} {myId p : Id} (hp : p ∈ memberIds roster myId)
    (t : PresenceTracker) (calls : List (UInt64 × PresenceCall)) :
    ((∀ now, (∀ r ∈ receptions p calls, r ≤ now) →
        (p ∈ (run hear t calls).freshMembers roster myId now ↔ HeardWithin p calls now)) ↔
      StampedAsReceived t p calls) ∧
    ∀ before r h behind, calls = before ++ (r, .heartbeat p h) :: behind →
      (((run hear t (before ++ [(r, .heartbeat p h)])).entry p).lastSeen = h.ts ↔
        NoneLater t p before h.ts) := by
  refine ⟨?_, fun before r h behind _ => taken_iff⟩
  have hts := lastSeen_isGreatest t p calls
  simp only [fresh_iff_claimed hp, claimed_iff hts]
  rcases receptions_cases p calls with hnone | ⟨r, hr⟩
  · -- nothing was heard, and at the time 0 everybody is fresh
    refine iff_of_false (fun hall => ?_) fun hstamped => ?_
    · have hall0 := hall 0 fun r hr => by rw [hnone] at hr; cases hr
      obtain ⟨r, h, hmem, -⟩ := hall0.mp (Nat.zero_le _)
      have hin : r ∈ receptions p calls := ⟨h, hmem⟩
      rw [hnone] at hin
      cases hin
    · obtain ⟨ts, r, -, hr, -⟩ := hstamped
      have hin := hr.1
      rw [hnone] at hin
      cases hin
  · have hlast : ∀ now, (∀ r' ∈ receptions p calls, r' ≤ now) ↔ r ≤ now := fun now =>
      ⟨fun h => h r hr.1, fun h r' hr' => UInt64.le_trans (hr.2 hr') h⟩
    simp only [hlast]
    rw [stampedAsReceived_iff hts hr, ← endTogether_iff]
    exact forall_congr' fun now => forall_congr' fun hnow => iff_congr Iff.rfl (heard_iff hr hnow)

namespace Sample

/-- Device 5 is the only member. -/
def onlyFive : Roster where
  members := (∅ : Std.ExtTreeMap Id Member).insert (Bytes.fill 32 5)
    { hostname := "laptop", role := .peer, virtualIp := ⟨(10, 99, 0, 5)⟩,
      addedBy := Bytes.fill 32 5 }

/-- A heartbeat of device 5 received at `r` that claims the time `ts`. -/
def received (r ts : UInt64) : UInt64 × PresenceCall :=
  (r, .heartbeat (Bytes.fill 32 5)
    { hostname := "laptop", publicIp := none, accessDisabled := false, hidden := false, ts })

end Sample

open PresenceTracker Sample in
/-- With a true clock, a heartbeat heard a minute ago is one that makes fresh, and is taken. -/
theorem fresh_iff_heard_true_clock :
    (Bytes.fill 32 5 ∈
        (run hear {} [received 1000000 1000000]).freshMembers onlyFive (Bytes.fill 32 1) 1060000 ↔
      HeardWithin (Bytes.fill 32 5) [received 1000000 1000000] 1060000) ∧
    ((run hear {} [received 1000000 1000000]).entry (Bytes.fill 32 5)).lastSeen = 1000000 := by
  have hmember : Bytes.fill 32 5 ∈ memberIds onlyFive (Bytes.fill 32 1) := by decide +kernel
  have honly : ∀ r h, (r, PresenceCall.heartbeat (Bytes.fill 32 5) h) ∈
      [received 1000000 1000000] → r = 1000000 ∧ h.ts = 1000000 := by
    intro r h hmem
    obtain ⟨rfl, hcall⟩ := Prod.mk.inj (List.mem_singleton.mp hmem)
    obtain ⟨-, rfl⟩ := PresenceCall.heartbeat.inj hcall
    exact ⟨rfl, rfl⟩
  obtain ⟨hfresh, htaken⟩ := fresh_iff_heard_iff hmember {} [received 1000000 1000000]
  refine ⟨hfresh.mpr ⟨1000000, 1000000, ⟨Or.inr ⟨_, _, List.mem_singleton_self _, rfl⟩, ?_⟩,
    ⟨⟨_, List.mem_singleton_self _⟩, ?_⟩, Or.inl rfl⟩ 1060000 ?_, (htaken [] _ _ [] rfl).mpr ?_⟩
  · rintro ts (rfl | ⟨r, h, hmem, rfl⟩)
    · decide +kernel
    · rw [(honly r h hmem).2]
  · rintro r ⟨h, hmem⟩
    rw [(honly r h hmem).1]
  · rintro r ⟨h, hmem⟩
    rw [(honly r h hmem).1]
    decide
  · rintro ts (rfl | ⟨r, h, hmem, -⟩)
    · decide +kernel
    · cases hmem

open PresenceTracker Sample in
/-- One heartbeat with a far-future stamp: its sender is fresh days after, with nothing heard in
    the window, and its true heartbeats are not taken. -/
theorem fresh_not_heard :
    Bytes.fill 32 5 ∈ memberIds onlyFive (Bytes.fill 32 1) ∧
    Bytes.fill 32 5 ∈ (run hear {} [received 1000000 1000000000000]).freshMembers onlyFive
      (Bytes.fill 32 1) 1000000000 ∧
    ¬ HeardWithin (Bytes.fill 32 5) [received 1000000 1000000000000] 1000000000 ∧
    ((run hear {} [received 1000000 1000000000000, received 2000000 2000000]).entry
      (Bytes.fill 32 5)).lastSeen = 1000000000000 := by
  refine ⟨by decide +kernel, by decide +kernel, ?_, by decide +kernel⟩
  rintro ⟨r, h, hmem, -, hwithin⟩
  obtain ⟨rfl, -⟩ := Prod.mk.inj (List.mem_singleton.mp hmem)
  exact absurd hwithin (by decide)

end Nullgate
