/-
  File:      Nullgate/Presence/Silent.lean
  Subject:   A PEER THAT DOES NOT CHANGE: heartbeats and observations that say the same for ever.

  What the tracker reports as changed is what wakes the UI. Its two writers share one field, the
  public address.

  * `Interleaving`: heartbeats of one content and observations of one connection, in any order;
  * `Heard`, `Seen`: the status holds what a heartbeat, or an observation, brings;
  * **`idle_silent_iff`**: the reports are eventually no change exactly when not both writers go on
    with two addresses, and no heartbeat of the time zero is the first sighting over and over;
  * `idle_not_silent`.
-/
import Nullgate.Lib.Schedule
import Nullgate.Presence.Tracker

namespace Nullgate

open Nullgate.Lib Filter

/-! ## 1. Reports without end -/

/-- A heartbeat with its time stamp, or an observation with the address seen. -/
inductive Report where
  | heard (ts : UInt64)
  | seen (observed : Option String)
  deriving DecidableEq

/-- The stamp of the last heartbeat among the first `n` reports. -/
def lastStamp (reports : Nat → Report) : Nat → Option UInt64
  | 0 => none
  | n + 1 =>
    match reports n with
    | .heard ts => some ts
    | .seen _ => lastStamp reports n

/-- **An idle peer**: its heartbeats and the observations of its connection have one content, and
    the stamps rise by less than a visible jump. -/
structure Interleaving where
  tracker : PresenceTracker
  peer : Id
  /-- what each heartbeat says; the stamp is that of the report -/
  content : Heartbeat
  /-- what is observed each time, up to the address seen -/
  info : ConnInfo
  online : Bool
  reports : Nat → Report
  rising : ∀ n last ts, lastStamp reports n = some last → reports n = .heard ts →
    last ≤ ts ∧ ts - last < LAST_SEEN_JUMP_MS

namespace Interleaving

variable (I : Interleaving)

/-- The call of the `n`-th report. -/
def call (n : Nat) : PresenceCall :=
  match I.reports n with
  | .heard ts => .heartbeat I.peer { I.content with ts }
  | .seen observed => .connection I.peer { I.info with observed } I.online

/-- The tracker behind the first `n` reports. -/
def trackerAt (n : Nat) : PresenceTracker := upTo PresenceTracker.step I.tracker I.call n

/-- What the `n`-th report returns. -/
def changed (n : Nat) : Bool := ((I.trackerAt n).call (I.call n)).2

/-- The status shown behind the first `n` reports. -/
def status (n : Nat) : PeerStatus := (I.trackerAt n).entry I.peer

/-- **Only finitely many reports are a change.** -/
def Silent : Prop := ∀ᶠ n in atTop, I.changed n = false

/-! The conditions, on the reports and what is known at the start. -/

/-- The last heartbeat known at the start. -/
def known : UInt64 := (I.tracker.entry I.peer).lastSeen

/-- The `n`-th report is a heartbeat not older than what was known at the start. -/
def HeardAt (n : Nat) : Prop := ∃ ts, I.reports n = .heard ts ∧ I.known ≤ ts

def SeenAt (n : Nat) : Prop := ∃ observed, I.reports n = .seen observed

/-- A heartbeat of the time zero, for a peer never heard of. -/
def ZeroAt (n : Nat) : Prop := I.reports n = .heard 0 ∧ I.known = 0

/-- The heartbeats and the observations name two addresses. -/
def TwoAddresses : Prop :=
  I.content.publicIp.isSome ∧ I.info.publicIp.isSome ∧ I.content.publicIp ≠ I.info.publicIp

/-! ## 2. One report -/

theorem status_succ (n : Nat) :
    I.status (n + 1) = PresenceTracker.onEntry (I.status n) (I.call n) := by
  refine PresenceTracker.entry_step_self (t := I.trackerAt n) ?_
  unfold call
  cases I.reports n <;> rfl

variable {I} {n : Nat}

theorem status_heard {ts : UInt64} (h : I.reports n = .heard ts) :
    I.status (n + 1) = ((I.status n).heartbeat { I.content with ts }).1 ∧
      I.changed n = ((I.status n).heartbeat { I.content with ts }).2 := by
  rw [status_succ, changed, call, h]
  exact ⟨rfl, rfl⟩

theorem status_seen {observed : Option String} (h : I.reports n = .seen observed) :
    I.status (n + 1) = ((I.status n).connection { I.info with observed } I.online).1 ∧
      I.changed n = ((I.status n).connection { I.info with observed } I.online).2 := by
  rw [status_succ, changed, call, h]
  exact ⟨rfl, rfl⟩

/-- **The time of the last heartbeat taken** is the one known at the start or the last stamp. -/
theorem lastSeen_status (n : Nat) :
    I.known ≤ (I.status n).lastSeen ∧
      ((I.status n).lastSeen = I.known ∨ lastStamp I.reports n = some (I.status n).lastSeen) := by
  induction n with
  | zero => exact ⟨UInt64.le_refl _, Or.inl rfl⟩
  | succ n ih =>
    obtain ⟨hle, hlast⟩ := ih
    cases hrep : I.reports n with
    | seen observed =>
      rw [(status_seen hrep).1, (PeerStatus.connection_eq _ _ _).1, lastStamp, hrep]
      exact ⟨hle, hlast⟩
    | heard ts =>
      rw [(status_heard hrep).1, lastStamp, hrep]
      by_cases hold : ts < (I.status n).lastSeen
      · rw [PeerStatus.heartbeat_old hold]
        refine ⟨hle, Or.inl (hlast.resolve_right fun hstamp => ?_)⟩
        exact absurd (I.rising n _ ts hstamp hrep).1 (UInt64.not_le.mpr hold)
      · rw [(PeerStatus.heartbeat_new hold).1]
        exact ⟨UInt64.le_trans hle (UInt64.not_lt.mp hold), Or.inr rfl⟩

/-- A heartbeat is taken exactly if it is not older than what was known at the start. -/
theorem not_old_iff {ts : UInt64} (h : I.reports n = .heard ts) :
    ¬ ts < (I.status n).lastSeen ↔ I.known ≤ ts := by
  obtain ⟨hle, hlast⟩ := I.lastSeen_status n
  refine ⟨fun hnew => UInt64.le_trans hle (UInt64.not_lt.mp hnew), fun hts => ?_⟩
  rw [UInt64.not_lt]
  rcases hlast with hknown | hstamp
  · rw [hknown]
    exact hts
  · exact (I.rising n _ ts hstamp h).1

/-! ## 3. Where the status holds what is reported -/

/-- The status holds what a heartbeat says. -/
structure Heard (I : Interleaving) (n : Nat) : Prop where
  lastSeen : lastStamp I.reports n = some (I.status n).lastSeen
  known : I.known ≤ (I.status n).lastSeen
  ne_zero : (I.status n).lastSeen ≠ 0
  hostname : (I.status n).hostname = some I.content.hostname
  accessDisabled : (I.status n).accessDisabled = I.content.accessDisabled
  hidden : (I.status n).hidden = I.content.hidden
  publicIp : I.content.publicIp.isSome → (I.status n).publicIp = I.content.publicIp

/-- The status holds what an observation brings. -/
structure Seen (I : Interleaving) (n : Nat) : Prop where
  online : (I.status n).online = I.online
  direct : (I.status n).direct = I.info.direct
  localIp : I.info.localIp.isSome → (I.status n).localIp = I.info.localIp
  publicIp : I.info.publicIp.isSome → (I.status n).publicIp = I.info.publicIp

/-- Behind a heartbeat the status holds what it says, -/
theorem heard_succ (h : I.HeardAt n) (hzero : ¬ I.ZeroAt n) : I.Heard (n + 1) := by
  obtain ⟨ts, hrep, hts⟩ := h
  have hnew := (not_old_iff hrep).mpr hts
  have hstatus := (status_heard hrep).1.trans (PeerStatus.heartbeat_new hnew).1
  refine ⟨?_, ?_, ?_, ?_, ?_, ?_, ?_⟩ <;> rw [hstatus]
  · rw [lastStamp, hrep]
  · exact hts
  · rintro rfl
    exact hzero ⟨hrep, UInt64.le_antisymm hts (UInt64.zero_le)⟩
  · intro hip
    exact if_pos hip

/-- and behind an observation what it brings. -/
theorem seen_succ (h : I.SeenAt n) : I.Seen (n + 1) := by
  obtain ⟨observed, hrep⟩ := h
  have hstatus := (status_seen hrep).1.trans (PeerStatus.connection_eq _ _ _).1
  refine ⟨?_, ?_, ?_, ?_⟩ <;> rw [hstatus]
  · intro hip
    exact if_pos hip
  · intro hip
    exact if_pos hip

/-- **A heartbeat that says what the status holds is no change.** -/
theorem Heard.unchanged {ts : UInt64} (h : I.Heard n) (hrep : I.reports n = .heard ts) :
    I.changed n = false := by
  have hrise := I.rising n _ ts h.lastSeen hrep
  have hnew : ¬ ts < (I.status n).lastSeen := UInt64.not_lt.mpr hrise.1
  rw [(status_heard hrep).2, ← Bool.not_eq_true, (PeerStatus.heartbeat_new hnew).2]
  rintro (hfirst | hjump | hname | haccess | hhidden | ⟨hip, hne⟩)
  · exact h.ne_zero hfirst
  · rw [saturatingSub, if_neg hnew] at hjump
    exact UInt64.lt_asymm hjump hrise.2
  · exact hname h.hostname
  · exact haccess h.accessDisabled
  · exact hhidden h.hidden
  · exact hne (h.publicIp hip)

/-- **An observation of what the status holds is no change.** -/
theorem Seen.unchanged {observed : Option String} (h : I.Seen n)
    (hrep : I.reports n = .seen observed) : I.changed n = false := by
  rw [(status_seen hrep).2, ← Bool.not_eq_true, (PeerStatus.connection_eq _ _ _).2]
  rintro (honline | hdirect | ⟨hip, hne⟩ | ⟨hip, hne⟩)
  · exact honline h.online
  · exact hdirect h.direct
  · exact hne (h.localIp hip)
  · exact hne (h.publicIp hip)

/-- A heartbeat too old changes nothing. -/
theorem old_unchanged {ts : UInt64} (hrep : I.reports n = .heard ts) (hold : ¬ I.known ≤ ts) :
    I.status (n + 1) = I.status n ∧ I.changed n = false := by
  have hlt : ts < (I.status n).lastSeen := by
    by_contra hnew
    exact hold ((not_old_iff hrep).mp hnew)
  rw [(status_heard hrep).1, (status_heard hrep).2, PeerStatus.heartbeat_old hlt]
  exact ⟨rfl, rfl⟩

/-- **What a heartbeat said is kept**, but for another address observed. -/
theorem Heard.succ (h : I.Heard n) (haddr : I.SeenAt n → ¬ I.TwoAddresses) : I.Heard (n + 1) := by
  cases hrep : I.reports n with
  | heard ts =>
    have hrise := I.rising n _ ts h.lastSeen hrep
    refine heard_succ ⟨ts, hrep, UInt64.le_trans h.known hrise.1⟩ fun hzero => ?_
    obtain rfl : ts = 0 := Report.heard.inj (hrep.symm.trans hzero.1)
    exact h.ne_zero (UInt64.le_antisymm hrise.1 UInt64.zero_le)
  | seen observed =>
    have hstatus := (status_seen hrep).1.trans (PeerStatus.connection_eq _ _ _).1
    refine ⟨?_, ?_, ?_, ?_, ?_, ?_, ?_⟩ <;> rw [hstatus]
    · rw [lastStamp, hrep]
      exact h.lastSeen
    · exact h.known
    · exact h.ne_zero
    · exact h.hostname
    · exact h.accessDisabled
    · exact h.hidden
    · intro hip
      show (if I.info.publicIp.isSome then _ else _) = _
      by_cases hinfo : I.info.publicIp.isSome
      · rw [if_pos hinfo]
        by_contra hne
        exact haddr ⟨observed, hrep⟩ ⟨hip, hinfo, Ne.symm hne⟩
      · rw [if_neg hinfo]
        exact h.publicIp hip

/-- **What was observed is kept**, but for another address in a heartbeat. -/
theorem Seen.succ (h : I.Seen n) (haddr : I.HeardAt n → ¬ I.TwoAddresses) : I.Seen (n + 1) := by
  cases hrep : I.reports n with
  | seen observed => exact seen_succ ⟨observed, hrep⟩
  | heard ts =>
    by_cases hts : I.known ≤ ts
    · have hnew := (not_old_iff hrep).mpr hts
      have hstatus := (status_heard hrep).1.trans (PeerStatus.heartbeat_new hnew).1
      refine ⟨?_, ?_, ?_, ?_⟩ <;> rw [hstatus]
      · exact h.online
      · exact h.direct
      · exact h.localIp
      · intro hip
        show (if I.content.publicIp.isSome then _ else _) = _
        by_cases hcontent : I.content.publicIp.isSome
        · rw [if_pos hcontent]
          by_contra hne
          exact haddr ⟨ts, hrep, hts⟩ ⟨hcontent, hip, hne⟩
        · rw [if_neg hcontent]
          exact h.publicIp hip
    · obtain ⟨online, direct, localIp, publicIp⟩ := h
      rw [← (old_unchanged hrep hts).1] at online direct localIp publicIp
      exact ⟨online, direct, localIp, publicIp⟩

/-! ## 4. A report that is no change -/

/-- It leaves the address alone. -/
theorem publicIp_of_unchanged (h : I.changed n = false) :
    (I.status (n + 1)).publicIp = (I.status n).publicIp := by
  rw [← Bool.not_eq_true] at h
  cases hrep : I.reports n with
  | heard ts =>
    rw [(status_heard hrep).1, PeerStatus.publicIp_heartbeat]
    rw [(status_heard hrep).2] at h
    split
    · rename_i hw
      rw [(PeerStatus.heartbeat_new hw.1).2] at h
      by_contra hne
      exact h (Or.inr (Or.inr (Or.inr (Or.inr (Or.inr ⟨hw.2, Ne.symm hne⟩)))))
    · rfl
  | seen observed =>
    rw [(status_seen hrep).1, PeerStatus.publicIp_connection]
    rw [(status_seen hrep).2, (PeerStatus.connection_eq _ _ _).2] at h
    split
    · rename_i hip
      by_contra hne
      exact h (Or.inr (Or.inr (Or.inr ⟨hip, Ne.symm hne⟩)))
    · rfl

/-- **A heartbeat that is taken shows its address**, and another one before is a change. -/
theorem publicIp_heard (h : I.HeardAt n) (hip : I.content.publicIp.isSome) :
    (I.status (n + 1)).publicIp = I.content.publicIp ∧
      ((I.status n).publicIp ≠ I.content.publicIp → I.changed n = true) := by
  obtain ⟨ts, hrep, hts⟩ := h
  have hnew := (not_old_iff hrep).mpr hts
  rw [(status_heard hrep).1, (status_heard hrep).2, PeerStatus.publicIp_heartbeat,
    (PeerStatus.heartbeat_new hnew).2]
  exact ⟨if_pos ⟨hnew, hip⟩, fun hne => Or.inr (Or.inr (Or.inr (Or.inr (Or.inr ⟨hip, hne⟩))))⟩

/-- **An observation shows its address**, and another one before is a change. -/
theorem publicIp_seen (h : I.SeenAt n) (hip : I.info.publicIp.isSome) :
    (I.status (n + 1)).publicIp = I.info.publicIp ∧
      ((I.status n).publicIp ≠ I.info.publicIp → I.changed n = true) := by
  obtain ⟨observed, hrep⟩ := h
  rw [(status_seen hrep).1, (status_seen hrep).2, PeerStatus.publicIp_connection,
    (PeerStatus.connection_eq _ _ _).2]
  exact ⟨if_pos hip, fun hne => Or.inr (Or.inr (Or.inr ⟨hip, hne⟩))⟩

/-- A heartbeat of the time zero is a first sighting each time. -/
theorem changed_zero (h : I.ZeroAt n) : I.changed n = true := by
  obtain ⟨hrep, hknown⟩ := h
  have hnew : ¬ (0 : UInt64) < (I.status n).lastSeen :=
    (not_old_iff hrep).mpr (by rw [hknown])
  rw [(status_heard hrep).2, (PeerStatus.heartbeat_new hnew).2]
  exact Or.inl (UInt64.le_antisymm (UInt64.not_lt.mp hnew) UInt64.zero_le)

/-! ## 5. The steady state -/

/-- From some report on, each one finds what it says. -/
theorem silent_of_settled (hheard : ∀ᶠ n in atTop, I.HeardAt n → I.Heard n)
    (hseen : ∀ᶠ n in atTop, I.SeenAt n → I.Seen n) : I.Silent := by
  refine (hheard.and hseen).mono fun n hn => ?_
  cases hrep : I.reports n with
  | seen observed => exact (hn.2 ⟨observed, hrep⟩).unchanged hrep
  | heard ts =>
    by_cases hts : I.known ≤ ts
    · exact (hn.1 ⟨ts, hrep, hts⟩).unchanged hrep
    · exact (old_unchanged hrep hts).2

/-- What heartbeats say settles, where no other address is observed from some time on. -/
theorem heard_settles (hzero : ∀ᶠ n in atTop, ¬ I.ZeroAt n)
    (haddr : ∀ᶠ n in atTop, I.SeenAt n → ¬ I.TwoAddresses) :
    ∀ᶠ n in atTop, I.HeardAt n → I.Heard n :=
  eventually_of_kept (hzero.mono fun _ hz hn => heard_succ hn hz)
    (haddr.mono fun _ ha hn => hn.succ ha)

/-- What is observed settles, where no other address is told from some time on. -/
theorem seen_settles (haddr : ∀ᶠ n in atTop, I.HeardAt n → ¬ I.TwoAddresses) :
    ∀ᶠ n in atTop, I.SeenAt n → I.Seen n :=
  eventually_of_kept (Eventually.of_forall fun _ hn => seen_succ hn)
    (haddr.mono fun _ ha hn => hn.succ ha)

/-- Where nothing changes, the address stays. -/
theorem publicIp_of_silent {N : Nat} (h : ∀ n, N ≤ n → I.changed n = false) {n : Nat}
    (hn : N ≤ n) : (I.status n).publicIp = (I.status N).publicIp := by
  induction n, hn using Nat.le_induction with
  | base => rfl
  | succ n hn ih => rw [publicIp_of_unchanged (h n hn), ih]

/-- Two addresses, one told and one observed over and over, do not come to rest. -/
theorem not_silent_of_twoAddresses (haddr : I.TwoAddresses) (hheard : ∃ᶠ n in atTop, I.HeardAt n)
    (hseen : ∃ᶠ n in atTop, I.SeenAt n) : ¬ I.Silent := by
  intro hsilent
  obtain ⟨hcontent, hinfo, hne⟩ := haddr
  obtain ⟨N, hN⟩ := eventually_atTop.mp hsilent
  obtain ⟨n, hn, hHeard⟩ := frequently_atTop.mp hheard N
  obtain ⟨m, hm, hSeen⟩ := frequently_atTop.mp hseen N
  have htold : (I.status n).publicIp = I.content.publicIp := by
    by_contra hother
    exact absurd ((publicIp_heard hHeard hcontent).2 hother) (by rw [hN n hn]; decide)
  have hobserved : (I.status m).publicIp = I.info.publicIp := by
    by_contra hother
    exact absurd ((publicIp_seen hSeen hinfo).2 hother) (by rw [hN m hm]; decide)
  rw [publicIp_of_silent hN hn] at htold
  rw [publicIp_of_silent hN hm] at hobserved
  exact hne (htold.symm.trans hobserved)

end Interleaving

/-- **The steady state is silent** exactly when the peer and the observations do not both go on
    naming two addresses, and a peer never heard of does not go on sending the time zero. -/
theorem idle_silent_iff (I : Interleaving) :
    I.Silent ↔
      ¬ (I.TwoAddresses ∧ (∃ᶠ n in atTop, I.HeardAt n) ∧ ∃ᶠ n in atTop, I.SeenAt n) ∧
      ¬ ∃ᶠ n in atTop, I.ZeroAt n := by
  constructor
  · intro hsilent
    refine ⟨fun ⟨haddr, hheard, hseen⟩ => ?_, fun hzero => ?_⟩
    · exact Interleaving.not_silent_of_twoAddresses haddr hheard hseen hsilent
    · obtain ⟨n, hn, hunchanged⟩ := (hzero.and_eventually hsilent).exists
      exact absurd (Interleaving.changed_zero hn) (by rw [hunchanged]; decide)
  · rintro ⟨haddr, hzero⟩
    rw [not_frequently] at hzero
    by_cases htwo : I.TwoAddresses
    · -- one of the two falls silent, so the other finds its own address
      rcases not_and_or.mp fun h => haddr ⟨htwo, h⟩ with hheard | hseen
      · rw [not_frequently] at hheard
        exact Interleaving.silent_of_settled (hheard.mono fun n hn h => absurd h hn)
          (Interleaving.seen_settles (hheard.mono fun n hn h => absurd h hn))
      · rw [not_frequently] at hseen
        exact Interleaving.silent_of_settled
          (Interleaving.heard_settles hzero (hseen.mono fun n hn h => absurd h hn))
          (hseen.mono fun n hn h => absurd h hn)
    · exact Interleaving.silent_of_settled
        (Interleaving.heard_settles hzero (Eventually.of_forall fun n _ => htwo))
        (Interleaving.seen_settles (Eventually.of_forall fun n _ => htwo))

namespace Sample

/-- A clock that rises by a second and a half each time, as far as 64 bits go. -/
def stampAt (n : Nat) : UInt64 := UInt64.ofNat (min (1000 + 1500 * n) (UInt64.size - 1))

theorem stampAt_toNat (n : Nat) : (stampAt n).toNat = min (1000 + 1500 * n) (UInt64.size - 1) :=
  UInt64.toNat_ofNat_of_lt (by simp only [UInt64.size]; omega)

/-- A heartbeat, an observation, a heartbeat, ... -/
def inTurn (n : Nat) : Report := if n % 2 = 0 then .heard (stampAt n) else .seen none

theorem lastStamp_inTurn {n : Nat} {last : UInt64} (h : lastStamp inTurn n = some last) :
    ∃ m, m < n ∧ n ≤ m + 2 ∧ m % 2 = 0 ∧ last = stampAt m := by
  induction n with
  | zero => exact absurd h (by simp [lastStamp])
  | succ n ih =>
    unfold lastStamp at h
    by_cases hn : n % 2 = 0
    · rw [inTurn, if_pos hn] at h
      exact ⟨n, by omega, by omega, hn, (Option.some.inj h).symm⟩
    · rw [inTurn, if_neg hn] at h
      obtain ⟨m, hm, hle, heven, hlast⟩ := ih h
      exact ⟨m, by omega, by omega, heven, hlast⟩

theorem stampAt_rises {m n : Nat} (hm : m < n) (hn : n ≤ m + 2) :
    stampAt m ≤ stampAt n ∧ stampAt n - stampAt m < LAST_SEEN_JUMP_MS := by
  have hle : stampAt m ≤ stampAt n := by
    rw [UInt64.le_iff_toNat_le, stampAt_toNat, stampAt_toNat]
    omega
  refine ⟨hle, ?_⟩
  rw [UInt64.lt_iff_toNat_lt, UInt64.toNat_sub_of_le _ _ hle, stampAt_toNat, stampAt_toNat,
    show LAST_SEEN_JUMP_MS.toNat = 600000 from rfl]
  omega

/-- Device 5 tells one address, and another is observed. -/
def twoAddresses : Interleaving where
  tracker := {}
  peer := Bytes.fill 32 5
  content := { hostname := "laptop", publicIp := some "203.0.113.9", accessDisabled := false,
               hidden := false, ts := 0 }
  info := { direct := some true, publicIp := some "198.51.100.7" }
  online := true
  reports := inTurn
  rising n last ts hlast hts := by
    obtain ⟨m, hm, hle, -, rfl⟩ := lastStamp_inTurn hlast
    by_cases hn : n % 2 = 0
    · rw [inTurn, if_pos hn] at hts
      rw [← Report.heard.inj hts]
      exact stampAt_rises hm hle
    · rw [inTurn, if_neg hn] at hts
      exact Report.noConfusion hts

theorem known_twoAddresses : twoAddresses.known = 0 := by
  decide +kernel

theorem heardAt_twoAddresses {n : Nat} (hn : n % 2 = 0) : twoAddresses.HeardAt n :=
  ⟨stampAt n, if_pos hn, by rw [known_twoAddresses]; exact UInt64.zero_le⟩

theorem seenAt_twoAddresses {n : Nat} (hn : n % 2 ≠ 0) : twoAddresses.SeenAt n :=
  ⟨none, if_neg hn⟩

/-- Before a heartbeat its address is not shown, and before an observation only its address is. -/
theorem publicIp_twoAddresses (n : Nat) :
    if n % 2 = 0 then (twoAddresses.status n).publicIp ≠ some "203.0.113.9"
    else (twoAddresses.status n).publicIp = some "203.0.113.9" := by
  cases n with
  | zero => decide +kernel
  | succ n =>
    by_cases hn : n % 2 = 0
    · rw [if_neg (by omega)]
      exact (Interleaving.publicIp_heard (heardAt_twoAddresses hn) rfl).1
    · rw [if_pos (by omega), (Interleaving.publicIp_seen (seenAt_twoAddresses hn) rfl).1]
      decide

end Sample

/-- With two addresses in turn, each report is a change for ever. -/
theorem idle_not_silent :
    (∀ n, Sample.twoAddresses.changed n = true) ∧ ¬ Sample.twoAddresses.Silent := by
  have hall : ∀ n, Sample.twoAddresses.changed n = true := fun n => by
    have haddr := Sample.publicIp_twoAddresses n
    by_cases hn : n % 2 = 0
    · rw [if_pos hn] at haddr
      exact (Interleaving.publicIp_heard (Sample.heardAt_twoAddresses hn) rfl).2 haddr
    · rw [if_neg hn] at haddr
      refine (Interleaving.publicIp_seen (Sample.seenAt_twoAddresses hn) rfl).2 ?_
      rw [haddr]
      decide
  refine ⟨hall, fun hsilent => ?_⟩
  obtain ⟨n, hn⟩ := hsilent.exists
  exact absurd (hall n) (by rw [hn]; decide)

end Nullgate
