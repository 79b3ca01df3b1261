/-
  File:      Nullgate/Gui/Notify.lean
  Subject:   "CAME ONLINE" (`notify.rs`, and the agent's loop in `agent.rs`): who is announced.

  The agent compares each status with the one before, and keeps for each peer the time it was
  first seen dark. It forgets the time of a peer that is missing from the list. What is
  announced goes to `notify`, which may still drop a title it has shown just before.

  * `onlineTransitionNotifies`, `notifyNewlyOnline` -- the decision for one peer, and the loop;
  * `mem_announced_iff`, `stamp_iff`: what the loop announces, and what it remembers;
  * `Stamped`: a peer's stamp is no earlier than the last time it was shown online;
  * **`no_false_online_iff`**: nobody is announced who was online within the debounce, exactly if
    nobody was who comes back to the list online.
-/
import Mathlib.Data.List.Nodup
import Nullgate.Lib.Fold
import Std.Data.ExtTreeMap

namespace Nullgate

open Nullgate.Lib

/-! ## 1. The status -/

/-- A member as the interface shows it. -/
structure MemberView where
  nodeId : String
  hostname : Option String
  /-- this client's own nickname for the member -/
  label : Option String
  virtualIp : Option String
  online : Bool
  isSelf : Bool
  deriving DecidableEq

/-- **A status** on the device `selfId`: the members, each listed once. -/
structure NetworkStatus (selfId : String) where
  members : List MemberView
  nodup : (members.map MemberView.nodeId).Nodup
  self_iff : ∀ m ∈ members, m.isSelf = true ↔ m.nodeId = selfId

variable {selfId : String}

/-- The status shows the peer online. -/
def NetworkStatus.ShowsOnline (s : NetworkStatus selfId) (p : String) : Prop :=
  ∃ m ∈ s.members, m.nodeId = p ∧ m.online = true

instance decidableShowsOnline (s : NetworkStatus selfId) (p : String) :
    Decidable (s.ShowsOnline p) :=
  inferInstanceAs (Decidable (∃ m ∈ s.members, m.nodeId = p ∧ m.online = true))

/-- Since when each peer has been seen dark. -/
abbrev OfflineSince := Std.ExtTreeMap String Nat

/-! ## 2. The decision -/

/-- **The decision for one peer**, and what is remembered of it. -/
def onlineTransitionNotifies (nodeId : String) (online haveBaseline wasOnlinePrev : Bool)
    (offlineSince : OfflineSince) (now debounce : Nat) : OfflineSince × Bool :=
  if !online then
    -- the earliest stamp is kept
    (if offlineSince.contains nodeId then offlineSince else offlineSince.insert nodeId now, false)
  else
    let wasOfflineFor := offlineSince[nodeId]?.map (now - ·)
    let offlineSince := offlineSince.erase nodeId
    if !haveBaseline || wasOnlinePrev then (offlineSince, false)
    else (offlineSince, wasOfflineFor.all fun d => debounce ≤ d)

/-- Whether the status before shows the peer online. -/
def wasOnlinePrev (prev : Option (NetworkStatus selfId)) (nodeId : String) : Bool :=
  match prev with
  | some p => p.members.any fun q => q.nodeId = nodeId && q.online
  | none => false

/-- The loop's turn for one member. -/
def notifyMember (debounce now : Nat) (prev : Option (NetworkStatus selfId))
    (acc : OfflineSince × List MemberView) (m : MemberView) : OfflineSince × List MemberView :=
  if m.isSelf then acc
  else
    let (offlineSince, announce) := onlineTransitionNotifies m.nodeId m.online prev.isSome
      (wasOnlinePrev prev m.nodeId) acc.1 now debounce
    (offlineSince, if announce then acc.2 ++ [m] else acc.2)

/-- **Who is announced at a status**, and what is remembered: nothing of a peer not in it. -/
def notifyNewlyOnline (debounce now : Nat) (prev : Option (NetworkStatus selfId))
    (new : NetworkStatus selfId) (offlineSince : OfflineSince) : OfflineSince × List MemberView :=
  let (offlineSince, announced) := new.members.foldl (notifyMember debounce now prev)
    (offlineSince, [])
  (offlineSince.filter fun id _ => new.members.any fun m => m.nodeId = id, announced)

/-- `short_id`. -/
def shortId (hex : String) : String := String.ofList (hex.toList.take 10)

/-- The text of an announcement. -/
def cameOnline (m : MemberView) : String :=
  ((m.label.or m.hostname).getD (shortId m.nodeId)) ++ " came online"

/-! ## 3. The loop -/

section Loop

variable {debounce now : Nat} {prev : Option (NetworkStatus selfId)} {m : MemberView} {p : String}

/-- The decision, by the stamp the peer has. -/
def Announces (debounce now : Nat) (prev : Option (NetworkStatus selfId)) (stamps : OfflineSince)
    (m : MemberView) : Prop :=
  m.isSelf = false ∧ m.online = true ∧ prev.isSome = true ∧ wasOnlinePrev prev m.nodeId = false ∧
    ∀ t, stamps[m.nodeId]? = some t → debounce ≤ now - t

/-- What is remembered of the peer of a member. -/
def stampOf (now : Nat) (stamps : OfflineSince) (m : MemberView) : Option Nat :=
  if m.online then none else some (stamps[m.nodeId]?.getD now)

/-- **One turn**: announce or not, -/
theorem notifyMember_announced (acc : OfflineSince × List MemberView) (x : MemberView) :
    x ∈ (notifyMember debounce now prev acc m).2 ↔
      x ∈ acc.2 ∨ x = m ∧ Announces debounce now prev acc.1 m := by
  unfold notifyMember onlineTransitionNotifies Announces
  cases m.isSelf with
  | true => simp
  | false =>
    cases m.online with
    | false => simp
    | true =>
      cases hbase : prev.isSome with
      | false => simp
      | true =>
        cases hwas : wasOnlinePrev prev m.nodeId with
        | true => simp
        | false =>
          cases hstamp : acc.1[m.nodeId]? with
          | none => simp
          | some t =>
            by_cases hlong : debounce ≤ now - t
            · simp [hlong]
            · simp [hlong]

/-- What a decision remembers: no stamp of a peer online, the earliest one of a peer dark. -/
theorem transition_stamp (nodeId : String) (online haveBaseline was : Bool)
    (stamps : OfflineSince) :
    (onlineTransitionNotifies nodeId online haveBaseline was stamps now debounce).1[p]? =
      if nodeId = p then if online then none else some (stamps[nodeId]?.getD now)
      else stamps[p]? := by
  unfold onlineTransitionNotifies
  cases online with
  | false =>
    simp only [Bool.not_false, if_true, Bool.false_eq_true, if_false]
    by_cases hin : stamps.contains nodeId
    · rw [if_pos hin]
      split
      · rename_i hp
        rw [Std.ExtTreeMap.contains_eq_isSome_getElem?] at hin
        obtain ⟨t, ht⟩ := Option.isSome_iff_exists.mp hin
        rw [← hp, ht, Option.getD_some]
      · rfl
    · rw [if_neg hin, Std.ExtTreeMap.getElem?_insert]
      rw [Std.ExtTreeMap.contains_eq_isSome_getElem?, Option.not_isSome_iff_eq_none] at hin
      simp only [hin, Option.getD_none, Std.LawfulEqCmp.compare_eq_iff_eq]
  | true =>
    simp only [Bool.not_true, Bool.false_eq_true, if_false, if_true]
    split <;> simp only [Std.ExtTreeMap.getElem?_erase, Std.LawfulEqCmp.compare_eq_iff_eq]

/-- and remember the one peer. -/
theorem notifyMember_stamp (acc : OfflineSince × List MemberView) :
    (notifyMember debounce now prev acc m).1[p]? =
      if m.nodeId = p ∧ m.isSelf = false then stampOf now acc.1 m else acc.1[p]? := by
  unfold notifyMember
  cases m.isSelf with
  | true => simp
  | false =>
    simp only [Bool.false_eq_true, if_false, and_true, transition_stamp]
    rfl

/-- Who is announced in the loop: the decisions are independent, as no peer comes twice. -/
theorem foldl_announced {members : List MemberView} (hnodup : (members.map MemberView.nodeId).Nodup)
    (acc : OfflineSince × List MemberView) (x : MemberView) :
    x ∈ (members.foldl (notifyMember debounce now prev) acc).2 ↔
      x ∈ acc.2 ∨ x ∈ members ∧ Announces debounce now prev acc.1 x := by
  induction members generalizing acc with
  | nil => simp
  | cons m members ih =>
    rw [List.map_cons, List.nodup_cons] at hnodup
    obtain ⟨hfresh, hnodup⟩ := hnodup
    rw [List.foldl_cons, ih hnodup, notifyMember_announced, List.mem_cons, or_assoc, or_and_right]
    refine or_congr_right (or_congr ?_ ?_)
    · exact and_congr_right fun hx => by rw [hx]
    · refine and_congr_right fun hx => ?_
      have hne : m.nodeId ≠ x.nodeId := fun h => hfresh (h ▸ List.mem_map_of_mem hx)
      rw [Announces, Announces, notifyMember_stamp, if_neg fun h => hne h.1]

/-- What the loop remembers of a peer that is not in the list, -/
theorem foldl_stamp_of_not_mem {members : List MemberView}
    (hnot : ∀ m ∈ members, m.nodeId = p → m.isSelf = true) (acc : OfflineSince × List MemberView) :
    (members.foldl (notifyMember debounce now prev) acc).1[p]? = acc.1[p]? := by
  induction members generalizing acc with
  | nil => rfl
  | cons m members ih =>
    rw [List.foldl_cons, ih fun x hx => hnot x (List.mem_cons_of_mem _ hx), notifyMember_stamp,
      if_neg]
    rintro ⟨hp, hself⟩
    rw [hnot m List.mem_cons_self hp] at hself
    cases hself

/-- and of one that is. -/
theorem foldl_stamp_of_mem {members : List MemberView}
    (hnodup : (members.map MemberView.nodeId).Nodup) (hm : m ∈ members) (hself : m.isSelf = false)
    (acc : OfflineSince × List MemberView) :
    (members.foldl (notifyMember debounce now prev) acc).1[m.nodeId]? = stampOf now acc.1 m := by
  induction members generalizing acc with
  | nil => cases hm
  | cons x members ih =>
    rw [List.map_cons, List.nodup_cons] at hnodup
    obtain ⟨hfresh, hnodup⟩ := hnodup
    rw [List.foldl_cons]
    rcases List.mem_cons.mp hm with rfl | hm
    · rw [foldl_stamp_of_not_mem, notifyMember_stamp, if_pos ⟨rfl, hself⟩]
      exact fun y hy hid => absurd (hid ▸ List.mem_map_of_mem hy) hfresh
    · have hne : x.nodeId ≠ m.nodeId := fun h => hfresh (h ▸ List.mem_map_of_mem hm)
      rw [ih hnodup hm, stampOf, stampOf, notifyMember_stamp]
      simp only [hne, false_and, if_false]

/-- **Who is announced at a status.** -/
theorem mem_announced_iff {new : NetworkStatus selfId} {stamps : OfflineSince} {x : MemberView} :
    x ∈ (notifyNewlyOnline debounce now prev new stamps).2 ↔
      x ∈ new.members ∧ Announces debounce now prev stamps x := by
  rw [notifyNewlyOnline]
  dsimp only
  rw [foldl_announced new.nodup]
  simp

/-- **What is remembered behind a status**: since when the peers that it lists have been dark, -/
theorem stamp_iff {new : NetworkStatus selfId} {stamps : OfflineSince} {t : Nat}
    (hp : p ≠ selfId) :
    (notifyNewlyOnline debounce now prev new stamps).1[p]? = some t ↔
      ∃ m ∈ new.members, m.nodeId = p ∧ m.online = false ∧ stamps[p]?.getD now = t := by
  rw [notifyNewlyOnline]
  dsimp only
  rw [Std.ExtTreeMap.getElem?_filter', Option.filter_eq_some_iff]
  simp only [List.any_eq_true, decide_eq_true_eq]
  have hself : ∀ m ∈ new.members, m.nodeId = p → m.isSelf = false := fun m hm hid => by
    rw [← Bool.not_eq_true, new.self_iff m hm, hid]
    exact hp
  constructor
  · rintro ⟨hstamp, m, hm, rfl⟩
    rw [foldl_stamp_of_mem new.nodup hm (hself m hm rfl), stampOf] at hstamp
    cases honline : m.online with
    | true =>
      rw [honline] at hstamp
      cases hstamp
    | false =>
      rw [honline] at hstamp
      exact ⟨m, hm, rfl, honline, Option.some.inj hstamp⟩
  · rintro ⟨m, hm, rfl, honline, rfl⟩
    refine ⟨?_, m, hm, rfl⟩
    rw [foldl_stamp_of_mem new.nodup hm (hself m hm rfl), stampOf, honline]
    rfl

/-- and nothing of the device itself. -/
theorem stamp_self {new : NetworkStatus selfId} {stamps : OfflineSince}
    (h : stamps[selfId]? = none) :
    (notifyNewlyOnline debounce now prev new stamps).1[selfId]? = none := by
  rw [notifyNewlyOnline]
  dsimp only
  rw [Std.ExtTreeMap.getElem?_filter', foldl_stamp_of_not_mem, h]
  · rfl
  · exact fun m hm hid => (new.self_iff m hm).mpr hid

end Loop

/-! ## 4. The agent -/

variable (selfId) in
/-- What reaches the agent and concerns the status: one, none, or that the daemon is gone. -/
inductive AgentMsg where
  | status (s : Option (NetworkStatus selfId))
  | daemonDown

variable (selfId) in
/-- **The agent**: the status before, and the stamps; and, to say what it does, the time and the
    statuses so far with theirs. -/
structure Agent where
  state : Option (NetworkStatus selfId) := none
  offlineSince : OfflineSince := ∅
  clock : Nat := 0
  shown : List (Nat × NetworkStatus selfId) := []

namespace Agent

/-- The agent behind a message that comes `e.1` later. -/
def step (debounce : Nat) (a : Agent selfId) (e : Nat × AgentMsg selfId) : Agent selfId :=
  let now := a.clock + e.1
  match e.2 with
  | .status (some s) =>
    { state := some s
      offlineSince := (notifyNewlyOnline debounce now a.state s a.offlineSince).1
      clock := now
      shown := (now, s) :: a.shown }
  -- no baseline while disconnected
  | .status none => { a with state := none, clock := now }
  | .daemonDown => { a with state := none, clock := now }

/-- Who is announced at a message. -/
def announced (debounce : Nat) (a : Agent selfId) (e : Nat × AgentMsg selfId) : List MemberView :=
  match e.2 with
  | .status (some s) => (notifyNewlyOnline debounce (a.clock + e.1) a.state s a.offlineSince).2
  | _ => []

/-- The texts shown at a message. -/
def toasts (debounce : Nat) (a : Agent selfId) (e : Nat × AgentMsg selfId) : List String :=
  (a.announced debounce e).map cameOnline

/-- The peer was shown online less than the debounce before `now`. -/
def OnlineWithin (debounce : Nat) (a : Agent selfId) (now : Nat) (p : String) : Prop :=
  ∃ t s, (t, s) ∈ a.shown ∧ now - t < debounce ∧ s.ShowsOnline p

/-- **No false "came online"**: nobody is announced who was shown online within the debounce. -/
def NoFalse (debounce : Nat) (a : Agent selfId) (e : Nat × AgentMsg selfId) : Prop :=
  ∀ m ∈ a.announced debounce e, ¬ a.OnlineWithin debounce (a.clock + e.1) m.nodeId

/-- Nobody comes back to the list online: a peer that the status shows online, and that the one
    just before did not list, was not shown online within the debounce. -/
def NoReturn (debounce : Nat) (a : Agent selfId) (e : Nat × AgentMsg selfId) : Prop :=
  ∀ s prev, e.2 = .status (some s) → a.state = some prev →
    ∀ m ∈ s.members, m.isSelf = false → m.online = true →
      (∀ q ∈ prev.members, q.nodeId ≠ m.nodeId) →
      ¬ a.OnlineWithin debounce (a.clock + e.1) m.nodeId

/-! What a run keeps. -/

/-- **The stamps are true**: a peer with a stamp has not been shown online since, and of the peers
    of the last status those have one that it lists dark. -/
structure Stamped (a : Agent selfId) : Prop where
  past : ∀ t s, (t, s) ∈ a.shown → t ≤ a.clock
  self : a.offlineSince[selfId]? = none
  since : ∀ p t, a.offlineSince[p]? = some t →
    t ≤ a.clock ∧ ∀ t' s, (t', s) ∈ a.shown → s.ShowsOnline p → t' ≤ t
  listed : ∀ prev p t, a.state = some prev → a.offlineSince[p]? = some t →
    ∃ m ∈ prev.members, m.nodeId = p
  dark : ∀ prev, a.state = some prev → ∀ m ∈ prev.members, m.isSelf = false → m.online = false →
    ∃ t, a.offlineSince[m.nodeId]? = some t

theorem stamped_init : Stamped ({} : Agent selfId) where
  past t s h := by cases h
  self := Std.ExtTreeMap.getElem?_empty
  since p t h := by cases Std.ExtTreeMap.getElem?_empty.symm.trans h
  listed prev p t h := by cases h
  dark prev h := by cases h

/-- A peer that a status lists once, and dark, is not shown online. -/
theorem not_showsOnline {s : NetworkStatus selfId} {m : MemberView} (hm : m ∈ s.members)
    (hdark : m.online = false) : ¬ s.ShowsOnline m.nodeId := by
  rintro ⟨q, hq, hid, honline⟩
  obtain rfl : q = m := List.inj_on_of_nodup_map s.nodup hq hm hid
  rw [hdark] at honline
  cases honline

/-- Without a status time passes, and the baseline is gone. -/
theorem Stamped.offline {a : Agent selfId} (h : a.Stamped) (wait : Nat) :
    Stamped { a with state := none, clock := a.clock + wait } where
  past t s hts := Nat.le_trans (h.past t s hts) (Nat.le_add_right _ _)
  self := h.self
  since p t ht := ⟨Nat.le_trans (h.since p t ht).1 (Nat.le_add_right _ _), (h.since p t ht).2⟩
  listed prev p t hprev := by cases hprev
  dark prev hprev := by cases hprev

/-- The stamp a dark peer has behind a status is the one it had, or new: it was not shown online
    since. -/
theorem Stamped.since_stamp {a : Agent selfId} (h : a.Stamped) {wait t : Nat} {p : String}
    (hstamp : a.offlineSince[p]?.getD (a.clock + wait) = t) :
    t ≤ a.clock + wait ∧ ∀ t' s, (t', s) ∈ a.shown → s.ShowsOnline p → t' ≤ t := by
  cases hbefore : a.offlineSince[p]? with
  | none =>
    rw [hbefore] at hstamp
    obtain rfl : a.clock + wait = t := hstamp
    exact ⟨Nat.le_refl _, fun t' s hts _ =>
      Nat.le_trans (h.past t' s hts) (Nat.le_add_right _ _)⟩
  | some t₀ =>
    rw [hbefore] at hstamp
    obtain rfl : t₀ = t := hstamp
    obtain ⟨hle, hsince⟩ := h.since _ _ hbefore
    exact ⟨Nat.le_trans hle (Nat.le_add_right _ _), hsince⟩

/-- A status keeps the stamps true. -/
theorem Stamped.status {debounce : Nat} {a : Agent selfId} (h : a.Stamped) (wait : Nat)
    (s : NetworkStatus selfId) : (a.step debounce (wait, .status (some s))).Stamped := by
  have hself : (notifyNewlyOnline debounce (a.clock + wait) a.state s a.offlineSince).1[selfId]?
      = none := stamp_self h.self
  have hne : ∀ p t, (notifyNewlyOnline debounce (a.clock + wait) a.state s
      a.offlineSince).1[p]? = some t → p ≠ selfId := by
    rintro p t ht rfl
    rw [hself] at ht
    cases ht
  refine ⟨?_, hself, ?_, ?_, ?_⟩
  · intro t s' hts
    rcases List.mem_cons.mp hts with heq | hts
    · exact Nat.le_of_eq (congrArg Prod.fst heq)
    · exact Nat.le_trans (h.past t s' hts) (Nat.le_add_right _ _)
  · intro p t ht
    obtain ⟨m, hm, rfl, hdark, hstamp⟩ := (stamp_iff (hne p t ht)).mp ht
    obtain ⟨hle, hsince⟩ := h.since_stamp hstamp
    refine ⟨hle, fun t' s' hts honline => ?_⟩
    rcases List.mem_cons.mp hts with heq | hts
    · obtain ⟨rfl, rfl⟩ := Prod.mk.inj heq
      exact absurd honline (not_showsOnline hm hdark)
    · exact hsince t' s' hts honline
  · intro prev p t hprev ht
    obtain rfl : s = prev := Option.some.inj hprev
    obtain ⟨m, hm, hid, -⟩ := (stamp_iff (hne p t ht)).mp ht
    exact ⟨m, hm, hid⟩
  · intro prev hprev m hm hother hdark
    obtain rfl : s = prev := Option.some.inj hprev
    have hid : m.nodeId ≠ selfId := fun hid => by
      rw [(s.self_iff m hm).mpr hid] at hother
      cases hother
    exact ⟨_, (stamp_iff hid).mpr ⟨m, hm, rfl, hdark, rfl⟩⟩

/-- **Every message keeps the stamps true.** -/
theorem stamped_step {debounce : Nat} {a : Agent selfId} (h : a.Stamped)
    (e : Nat × AgentMsg selfId) : (a.step debounce e).Stamped := by
  obtain ⟨wait, msg⟩ := e
  cases msg with
  | daemonDown => exact h.offline wait
  | status s =>
    cases s with
    | none => exact h.offline wait
    | some s => exact h.status wait s

/-- **One message**: an announcement is false exactly for a peer that comes back to the list. -/
theorem noFalse_iff {debounce : Nat} {a : Agent selfId} (h : a.Stamped)
    (e : Nat × AgentMsg selfId) : a.NoFalse debounce e ↔ a.NoReturn debounce e := by
  obtain ⟨wait, msg⟩ := e
  constructor
  · rintro hno s prev rfl hprev m hm hself honline habsent
    refine hno m (mem_announced_iff.mpr ⟨hm, hself, honline, ?_, ?_, fun t ht => ?_⟩)
    · rw [hprev]
      rfl
    · rw [hprev, wasOnlinePrev, ← Bool.not_eq_true, List.any_eq_true]
      rintro ⟨q, hq, hwas⟩
      rw [Bool.and_eq_true, decide_eq_true_eq] at hwas
      exact habsent q hq hwas.1
    · obtain ⟨q, hq, hid⟩ := h.listed prev _ t hprev ht
      exact absurd hid (habsent q hq)
  · intro hno m hm
    cases msg with
    | daemonDown => cases hm
    | status s =>
      cases s with
      | none => cases hm
      | some s =>
        obtain ⟨hin, hself, honline, hbase, hwas, hlong⟩ := mem_announced_iff.mp hm
        obtain ⟨prev, hprev⟩ := Option.isSome_iff_exists.mp hbase
        by_cases hlisted : ∃ q ∈ prev.members, q.nodeId = m.nodeId
        · -- it was listed dark, so it has a stamp, and that is old enough
          obtain ⟨q, hq, hid⟩ := hlisted
          have hdark : q.online = false := by
            rw [hprev, wasOnlinePrev, ← Bool.not_eq_true, List.any_eq_true] at hwas
            by_contra hon
            rw [Bool.not_eq_false] at hon
            exact hwas ⟨q, hq, by simp [hid, hon]⟩
          have hother : q.isSelf = false := by
            rw [← Bool.not_eq_true, prev.self_iff q hq, hid, ← s.self_iff m hin, hself]
            exact Bool.false_ne_true
          obtain ⟨t, ht⟩ := h.dark prev hprev q hq hother hdark
          rw [hid] at ht
          rintro ⟨t', s', hts, hwithin, hshown⟩
          have hle := (h.since _ _ ht).2 t' s' hts hshown
          have hdebounce : debounce ≤ a.clock + wait - t := hlong t ht
          have hwithin : a.clock + wait - t' < debounce := hwithin
          omega
        · exact hno s prev rfl hprev m hin hself honline fun q hq hid => hlisted ⟨q, hq, hid⟩

end Agent

/-- **No false "came online"** in a run, exactly if at none of its statuses a peer comes back to
    the list online that was shown online within the debounce. -/
theorem no_false_online_iff (debounce : Nat) (msgs : List (Nat × AgentMsg selfId)) :
    EachStep (Agent.step debounce) (Agent.NoFalse debounce) {} msgs ↔
      EachStep (Agent.step debounce) (Agent.NoReturn debounce) {} msgs :=
  eachStep_congr Agent.stamped_init (fun _ e h => Agent.stamped_step h e)
    fun _ e h => Agent.noFalse_iff h e

namespace Sample

/-- Device "5e", online. -/
def laptopView : MemberView :=
  { nodeId := "5e", hostname := some "laptop", label := none, virtualIp := some "10.99.0.5",
    online := true, isSelf := false }

/-- The status with the laptop in it, -/
def listed : NetworkStatus "3c" := ⟨[laptopView], by decide, by decide⟩

/-- and the one this device has while it is disconnected. -/
def emptied : NetworkStatus "3c" := ⟨[], by decide, by decide⟩

end Sample

open Sample in
/-- This device disconnects for twenty seconds, and the laptop, online all the time, is announced:
    the debounce is two minutes. -/
theorem false_online :
    (({} : Agent "3c").step 120 (0, .status (some listed)) |>.step 120 (10, .status (some emptied))
      |>.toasts 120 (20, .status (some listed))) = ["laptop came online"] ∧
    ¬ EachStep (Agent.step 120) (Agent.NoFalse 120) {}
      [(0, .status (some listed)), (10, .status (some emptied)), (20, .status (some listed))] := by
  have hannounced : (({} : Agent "3c").step 120 (0, .status (some listed))
      |>.step 120 (10, .status (some emptied))
      |>.announced 120 (20, .status (some listed))) = [laptopView] := by decide +kernel
  refine ⟨?_, fun ⟨_, _, hno, _⟩ => ?_⟩
  · rw [Agent.toasts, hannounced]
    decide
  · refine hno laptopView (by rw [hannounced]; exact List.mem_singleton_self _)
      ⟨0, listed, List.mem_cons_of_mem _ List.mem_cons_self, by decide, laptopView, ?_, rfl, rfl⟩
    exact List.mem_singleton_self _

end Nullgate
