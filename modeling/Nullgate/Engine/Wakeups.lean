/-
  File:      Nullgate/Engine/Wakeups.lean
  Subject:   THE MAINTENANCE LOOP (`engine.rs`, `Engine::start`) AND WHO WAKES IT.

  The loop runs a tick, reads the pace, and sleeps until the pace has passed or it is notified. The
  document's watcher, a network-change hint, a change of pace, a heartbeat of a peer in dial backoff
  and a packet without a connection each store what the tick is to see, and then notify it.

  * `Maintained` -- a device of `Membership.Synced` with its loop and the hints on their way;
  * `Maintained.step` -- the loop, its timer, the tasks that hint, and what else the device does;
  * `step_toSynced`: all of it is what `Synced.step` says of the device;
  * **`asleep_current`**: while the loop sleeps nothing asks for a tick, but for an activation, and
    the cached roster is the fold of what the device holds;
  * **`hint_ticks`**: behind every hint a tick begins, whether or not the timer ever fires.
-/
import Nullgate.Lib.Replicated
import Nullgate.Lib.Schedule
import Nullgate.Lib.Wakeup
import Nullgate.Lifecycle.Device
import Nullgate.Membership.Synced

namespace Nullgate

open Nullgate.Lib Synced

/-! ## 1. The loop -/

/-- Maintenance pace while the app is in front, and in the background. -/
def TICK_INTERACTIVE_MS : UInt64 := 3000

def TICK_BACKGROUND_MS : UInt64 := 60000

/-- Where the maintenance loop stands. -/
inductive Phase where
  /-- about to run a tick -/
  | start
  /-- in a tick that has taken its flags -/
  | working
  /-- behind a tick, about to sleep -/
  | ended
  /-- asleep for this long at most -/
  | parked (ms : UInt64)
  deriving DecidableEq

/-- **A device with its maintenance loop.** -/
structure Maintained (α : Type) extends Synced α where
  background : Bool := false
  tickNotify : Notify := {}
  loop : Phase := .start
  /-- tasks that have stored their hint and not notified yet -/
  posts : Nat := 0
  lastRecoveryBurst : UInt64 := 0
  /-- the device was activated, and no tick has taken its flags since -/
  activated : Bool := false

/-- What happens to it. -/
inductive LoopEvent (α : Type) where
  /-- the loop goes on -/
  | advance (nowCoarse now : UInt64) (failed : Option String)
  /-- the timer of the sleep fires -/
  | elapse
  | insert (a : Holding α)
  | watch
  | refresh (now : UInt64)
  | softDisconnect
  | activate (cfg : StoredConfig) (doc : Doc) (author : AuthorId)
  | networkChanged (now : UInt64)
  | setPace (background : Bool)
  /-- a heartbeat of a peer in backoff, a demand-dial kick, or a node that has been rebuilt -/
  | hint
  /-- a task that hints notifies the loop -/
  | post

variable {α : Type}

namespace Maintained

variable (C : Crates) (D : DocCrates α)

/-- How long the loop sleeps at this pace. -/
def pace (x : Maintained α) : UInt64 :=
  if x.background then TICK_BACKGROUND_MS else TICK_INTERACTIVE_MS

/-- The loop goes on by one stretch. -/
def advance (x : Maintained α) (nowCoarse now : UInt64) (failed : Option String) : Maintained α :=
  match x.loop with
  | .start =>
    let y := x.toSynced.beginTick nowCoarse
    { x with
      toSynced := y
      loop := if y.ticking.isSome then .working else .ended
      activated := x.activated && y.ticking.isNone }
  | .working =>
    match x.ticking with
    | some (cfg, rebuild) =>
      { x with toSynced := x.toSynced.endTick C D cfg rebuild now failed, loop := .ended }
    | none => { x with loop := .ended }
  | .ended =>
    let (n, through) := x.tickNotify.wait
    { x with tickNotify := n, loop := if through then .start else .parked x.pace }
  | .parked _ =>
    if x.tickNotify.waiter = some true then
      { x with tickNotify := x.tickNotify.resume, loop := .start }
    else x

/-- `network_changed`: a hint too soon behind the last burst only wakes the loop. -/
def networkChanged (x : Maintained α) (now : UInt64) : Maintained α :=
  if saturatingSub now x.lastRecoveryBurst < Device.RECOVERY_BURST_COOLDOWN_MS then
    { x with posts := x.posts + 1 }
  else { x with lastRecoveryBurst := now, forceRecover := true, posts := x.posts + 1 }

/-- **One step.** -/
def step [SemilatticeSup α] (x : Maintained α) : LoopEvent α → Maintained α
  | .advance nowCoarse now failed => x.advance C D nowCoarse now failed
  | .elapse =>
    match x.loop with
    | .parked _ => { x with tickNotify := x.tickNotify.abandon, loop := .start }
    | _ => x
  | .insert a => { x with toSynced := x.toSynced.insert a }
  | .watch =>
    if x.notes then { x with toSynced := x.toSynced.step C D .watch, posts := x.posts + 1 } else x
  | .refresh now => { x with toSynced := x.toSynced.step C D (.refresh now) }
  | .softDisconnect => { x with toSynced := x.toSynced.step C D .softDisconnect }
  | .activate cfg doc author =>
    { x with toSynced := x.toSynced.step C D (.activate cfg doc author), activated := true }
  | .networkChanged now => x.networkChanged now
  | .setPace background => { x with background, posts := x.posts + 1 }
  | .hint => { x with posts := x.posts + 1 }
  | .post =>
    match x.posts with
    | 0 => x
    | n + 1 => { x with posts := n, tickNotify := x.tickNotify.notifyOne }

/-! ## 2. The loop as a device of the document -/

/-- What a step is to the device and its document. -/
def heard (x : Maintained α) : LoopEvent α → Option (SyncEvent α)
  | .advance nowCoarse now failed =>
    match x.loop, x.ticking with
    | .start, none => some (.turn nowCoarse now failed)
    | .working, some _ => some (.turn nowCoarse now failed)
    | _, _ => none
  | .insert a => some (.insert a)
  | .watch => if x.notes then some .watch else none
  | .refresh now => some (.refresh now)
  | .softDisconnect => some .softDisconnect
  | .activate cfg doc author => some (.activate cfg doc author)
  | .networkChanged now =>
    if saturatingSub now x.lastRecoveryBurst < Device.RECOVERY_BURST_COOLDOWN_MS then none
    else some .networkChanged
  | _ => none

/-- A tick is under way only while the loop works on it. -/
def Orderly (x : Maintained α) : Prop := x.ticking.isSome = true → x.loop = .working

variable {C D} {x : Maintained α}

/-- **The loop simulates the device**: each step is the one that is heard, or none. -/
theorem step_toSynced [SemilatticeSup α] (h : x.Orderly) (ev : LoopEvent α) :
    (x.step C D ev).toSynced = match x.heard ev with
      | some ev' => x.toSynced.step C D ev'
      | none => x.toSynced := by
  cases ev with
  | advance nowCoarse now failed =>
    cases hl : x.loop with
    | start =>
      have hidle : x.ticking = none := by
        cases ht : x.ticking with
        | none => rfl
        | some p =>
          have hw := h (by rw [ht]; rfl)
          rw [hl] at hw
          cases hw
      simp [step, advance, heard, hl, hidle, Synced.step]
    | working => cases ht : x.ticking <;> simp [step, advance, heard, hl, ht, Synced.step]
    | ended => simp [step, advance, heard, hl]
    | parked ms =>
      simp only [step, advance, heard, hl]
      split <;> rfl
  | elapse =>
    simp only [step, heard]
    split <;> rfl
  | watch =>
    simp only [step, heard]
    split <;> rfl
  | networkChanged now =>
    simp only [step, networkChanged, heard]
    split <;> rfl
  | post =>
    simp only [step, heard]
    split <;> rfl
  | _ => rfl

/-! ## 3. What the steps keep -/

/-- A flag of the next tick is set. -/
def Flagged (x : Maintained α) : Prop := x.docsDirty = true ∨ x.forceRecover = true

/-- A tick will begin without the timer: the loop is about to run one, a notification waits to be
    taken, or one is about to be posted. -/
def Roused (x : Maintained α) : Prop := x.loop = .start ∨ x.tickNotify.Pending ∨ 0 < x.posts

/-- **What every step keeps.** -/
structure Ok (x : Maintained α) : Prop where
  notify : x.tickNotify.Ok
  waits : x.tickNotify.waiter.isSome = true ↔ ∃ ms, x.loop = .parked ms
  orderly : x.Orderly
  configured : x.doc.isSome = true → x.config.isSome = true
  flagged : x.doc.isSome = true → x.Flagged → x.activated = true ∨ x.Roused

/-- The tick that ends leaves the flags alone, or the device offline. -/
theorem endTick_cases (x : Synced α) (cfg : StoredConfig) (rebuild : Bool) (now : UInt64)
    (failed : Option String) :
    ((x.endTick C D cfg rebuild now failed).doc = none ∧
      (x.endTick C D cfg rebuild now failed).ticking = none) ∨
    ∃ b roster, x.endTick C D cfg rebuild now failed =
      { x with ticking := none, wasMember := b, roster } := by
  have henforce : ∀ roster, ((enforce { x with ticking := none } roster).doc = none ∧
      (enforce { x with ticking := none } roster).ticking = none) ∨
      ∃ b r, enforce { x with ticking := none } roster =
        { x with ticking := none, wasMember := b, roster := r } := fun roster => by
    rcases enforce_cases { x with ticking := none } roster with ⟨hoff, ht, -⟩ | ⟨b, heq⟩
    · exact Or.inl ⟨hoff, ht⟩
    · exact Or.inr ⟨b, roster, heq⟩
  unfold endTick
  dsimp only
  split
  · split
    · exact Or.inr ⟨_, _, rfl⟩
    · exact Or.inr ⟨_, _, rfl⟩
    · exact henforce _
  · exact henforce _

/-- A waiter that is parked sleeps, or has been woken. -/
theorem Ok.asleep_or_woken (h : x.Ok) {ms : UInt64} (hl : x.loop = .parked ms) :
    x.tickNotify.waiter = some false ∨ x.tickNotify.waiter = some true := by
  obtain ⟨b, hb⟩ := Option.isSome_iff_exists.mp (h.waits.mpr ⟨ms, hl⟩)
  cases b
  · exact Or.inl hb
  · exact Or.inr hb

theorem Ok.awake (h : x.Ok) (hl : ∀ ms, x.loop ≠ .parked ms) : x.tickNotify.waiter = none := by
  cases hw : x.tickNotify.waiter with
  | none => rfl
  | some b =>
    obtain ⟨ms, hms⟩ := h.waits.mp (by rw [hw]; rfl)
    exact absurd hms (hl ms)

theorem not_ticking (h : x.Orderly) (hl : x.loop ≠ .working) : x.ticking = none := by
  cases ht : x.ticking with
  | none => rfl
  | some p => exact absurd (h (by rw [ht]; rfl)) hl

/-- **A stretch of the loop keeps it.** -/
theorem Ok.advance (h : x.Ok) (nowCoarse now : UInt64) (failed : Option String) :
    (x.advance C D nowCoarse now failed).Ok := by
  unfold Maintained.advance
  split
  · rename_i hl
    have hawake := h.awake fun ms hms => by rw [hl] at hms; cases hms
    have hidle := not_ticking h.orderly fun hw => by rw [hl] at hw; cases hw
    have hwaits : ∀ b : Bool, x.tickNotify.waiter.isSome = true ↔
        ∃ ms, (if b then Phase.working else .ended) = .parked ms := fun b => by
      cases b <;> simp [hawake]
    cases hdoc : x.doc with
    | none =>
      have heq : x.toSynced.beginTick nowCoarse = x.toSynced := by simp [beginTick, hdoc]
      simp only [heq]
      refine ⟨h.notify, hwaits _, fun ht => ?_, h.configured, fun hon => ?_⟩
      · rw [hidle] at ht
        cases ht
      · rw [hdoc] at hon
        cases hon
    | some d =>
      obtain ⟨cfg, hcfg⟩ := Option.isSome_iff_exists.mp (h.configured (by rw [hdoc]; rfl))
      -- a tick of an online device has taken both flags
      simp only [beginTick, hdoc, hcfg, Option.isSome_some, if_true]
      exact ⟨h.notify, hwaits true, fun _ => rfl, fun _ => rfl, fun _ hf => by
        rcases hf with hf | hf <;> cases hf⟩
  · rename_i hl
    have hawake := h.awake fun ms hms => by rw [hl] at hms; cases hms
    have hwaits : x.tickNotify.waiter.isSome = true ↔ ∃ ms, Phase.ended = .parked ms := by
      simp [hawake]
    have hflagged : x.doc.isSome = true → x.Flagged → x.activated = true ∨
        x.tickNotify.Pending ∨ 0 < x.posts := fun hon hf =>
      (h.flagged hon hf).imp_right fun hr => hr.resolve_left fun hs => by rw [hl] at hs; cases hs
    split
    · rename_i cfg rebuild ht
      rcases endTick_cases (C := C) (D := D) x.toSynced cfg rebuild now failed with
        ⟨hoff, hidle⟩ | ⟨b, roster, heq⟩
      · refine ⟨h.notify, hwaits, fun hw => ?_, fun hon => ?_, fun hon => ?_⟩
        · rw [hidle] at hw
          cases hw
        · rw [hoff] at hon
          cases hon
        · rw [hoff] at hon
          cases hon
      · rw [heq]
        exact ⟨h.notify, hwaits, fun hw => (by cases hw), h.configured, fun hon hf =>
          (hflagged hon hf).imp_right Or.inr⟩
    · rename_i ht
      refine ⟨h.notify, hwaits, fun hw => ?_, h.configured, fun hon hf =>
        (hflagged hon hf).imp_right Or.inr⟩
      rw [ht] at hw
      cases hw
  · rename_i hl
    have hawake := h.awake fun ms hms => by rw [hl] at hms; cases hms
    have hidle := not_ticking h.orderly fun hw => by rw [hl] at hw; cases hw
    have horderly : ∀ p : Phase, x.ticking.isSome = true → p = .working := fun p ht => by
      rw [hidle] at ht
      cases ht
    cases hthrough : x.tickNotify.wait.2 with
    | true =>
      have hn := Notify.wait_through hthrough
      simp only [hthrough, hn, if_true]
      exact ⟨Notify.ok_of_awake hawake, by simp [hawake], horderly _, h.configured,
        fun _ _ => Or.inr (Or.inl rfl)⟩
    | false =>
      obtain ⟨hpermit, hn⟩ := Notify.wait_asleep hthrough
      simp only [hthrough, hn, Bool.false_eq_true, if_false]
      refine ⟨fun _ => hpermit, by simp, horderly _, h.configured, fun hon hf => ?_⟩
      -- no permit was there, so what rouses the loop is a post on its way
      refine (h.flagged hon hf).imp_right fun hr => Or.inr (Or.inr ?_)
      rcases hr with hs | (hp | hw) | hposts
      · rw [hl] at hs
        cases hs
      · rw [hpermit] at hp
        cases hp
      · rw [hawake] at hw
        cases hw
      · exact hposts
  · rename_i ms hl
    split
    · have hidle := not_ticking h.orderly fun hw => by rw [hl] at hw; cases hw
      refine ⟨Notify.ok_of_awake rfl, by simp [Notify.resume], fun ht => ?_, h.configured,
        fun _ _ => Or.inr (Or.inl rfl)⟩
      rw [hidle] at ht
      cases ht
    · exact h

/-- What is about to be posted, and an activation, excuse whatever flag is set. -/
theorem Ok.roused {y : Maintained α} (h : x.Ok) (hnotify : y.tickNotify = x.tickNotify)
    (hloop : y.loop = x.loop) (hticking : y.ticking = x.ticking)
    (hconf : y.doc.isSome = true → y.config.isSome = true)
    (hflag : y.doc.isSome = true → y.Flagged → y.activated = true ∨ y.Roused) : y.Ok where
  notify := hnotify ▸ h.notify
  waits := by
    rw [hnotify, hloop]
    exact h.waits
  orderly ht := by
    rw [hloop]
    exact h.orderly (hticking ▸ ht)
  configured := hconf
  flagged := hflag

/-- **Every step keeps it.** -/
theorem Ok.step [SemilatticeSup α] (h : x.Ok) (ev : LoopEvent α) : (x.step C D ev).Ok := by
  have hposted : ∀ y : Maintained α, 0 < y.posts → y.doc.isSome = true → y.Flagged →
      y.activated = true ∨ y.Roused := fun y hp _ _ => Or.inr (Or.inr (Or.inr hp))
  cases ev with
  | advance nowCoarse now failed => exact h.advance nowCoarse now failed
  | elapse =>
    simp only [Maintained.step]
    split
    · rename_i ms hl
      have hidle := not_ticking h.orderly fun hw => by rw [hl] at hw; cases hw
      refine ⟨Notify.ok_of_awake rfl, by simp [Notify.abandon], fun ht => ?_, h.configured,
        fun _ _ => Or.inr (Or.inl rfl)⟩
      rw [hidle] at ht
      cases ht
    · exact h
  | insert a => exact h.roused rfl rfl rfl h.configured h.flagged
  | watch =>
    simp only [Maintained.step]
    split
    · exact h.roused rfl rfl rfl h.configured (hposted _ (Nat.succ_pos _))
    · exact h
  | refresh now =>
    simp only [Maintained.step, Synced.step, beginRefresh]
    repeat' split
    all_goals exact h.roused rfl rfl rfl h.configured h.flagged
  | softDisconnect => exact h.roused rfl rfl rfl (fun hon => by cases hon) fun hon => by cases hon
  | activate cfg doc author =>
    exact h.roused rfl rfl rfl (fun _ => rfl) fun _ _ => Or.inl rfl
  | networkChanged now =>
    simp only [Maintained.step, networkChanged]
    split
    · exact h.roused rfl rfl rfl h.configured (hposted _ (Nat.succ_pos _))
    · exact h.roused rfl rfl rfl h.configured (hposted _ (Nat.succ_pos _))
  | setPace background => exact h.roused rfl rfl rfl h.configured (hposted _ (Nat.succ_pos _))
  | hint => exact h.roused rfl rfl rfl h.configured (hposted _ (Nat.succ_pos _))
  | post =>
    simp only [Maintained.step]
    split
    · exact h
    · refine ⟨Notify.ok_notifyOne _, ?_, h.orderly, h.configured, fun _ _ =>
        Or.inr (Or.inr (Or.inl (Notify.pending_notifyOne _)))⟩
      rw [Notify.isSome_waiter_notifyOne]
      exact h.waits

/-- A device that has just started, with its loop. -/
structure Fresh (x : Maintained α) : Prop where
  booted : x.toSynced.Booted
  start : x.loop = .start
  waiter : x.tickNotify.waiter = none

theorem Fresh.ok (h : x.Fresh) : x.Ok where
  notify := Notify.ok_of_awake h.waiter
  waits := by simp [h.waiter, h.start]
  orderly ht := by
    rw [h.booted.idle] at ht
    cases ht
  configured hon := by
    rw [h.booted.offline] at hon
    cases hon
  flagged hon := by
    rw [h.booted.offline] at hon
    cases hon

/-- The loop sleeps, and nothing has woken it. -/
def Asleep (x : Maintained α) : Prop := x.tickNotify.waiter = some false

/-- The step is one the device's cache stays current under. -/
def Keeps (C : Crates) (D : DocCrates α) (rc : Config) (clock : UInt64) (x : Maintained α)
    (ev : LoopEvent α) : Prop :=
  ∀ ev', x.heard ev = some ev' → x.toSynced.Keeps C D rc clock ev'

/-- **Nothing asks a loop that sleeps for a tick**, unless the device was activated while it slept,
    or a hint is on its way. -/
theorem Ok.of_asleep (h : x.Ok) (hasleep : x.Asleep) (hposts : x.posts = 0)
    (honline : x.doc.isSome = true) (hactivated : x.activated = false) :
    x.docsDirty = false ∧ x.forceRecover = false ∧ x.ticking = none := by
  have hpending := Notify.not_pending_of_asleep h.notify hasleep
  obtain ⟨ms, hl⟩ := h.waits.mp (by rw [hasleep]; rfl)
  have hflagged : ¬ x.Flagged := fun hf => by
    rcases h.flagged honline hf with hact | hs | hp | hposts'
    · rw [hactivated] at hact
      cases hact
    · rw [hl] at hs
      cases hs
    · exact hpending hp
    · omega
  refine ⟨Bool.eq_false_iff.mpr fun hd => hflagged (Or.inl hd),
    Bool.eq_false_iff.mpr fun hf => hflagged (Or.inr hf),
    not_ticking h.orderly fun hw => ?_⟩
  rw [hl] at hw
  cases hw

end Maintained

open Maintained

variable {C : Crates} {D : DocCrates α} {x : Maintained α}

/-- **While the loop sleeps, it misses nothing.** Take any run of a device from its start: ticks,
    document events, network hints, changes of pace and going online and offline, in any
    interleaving, and each hint in two steps, what it stores and the notification. In a state where
    the loop of an online device sleeps, no hint is on its way, and no activation came since the
    last tick, no flag is set and no tick is under way; and if the watcher has no event in hand and
    the run kept to the rule of the cache (no failed read, no fold overtaken, agreeing clocks, one
    network), the cached roster is the fold of what the device holds. -/
theorem asleep_current [SemilatticeSup α] (rc : Config) (clock : UInt64) (hfresh : x.Fresh)
    (l : List (LoopEvent α)) (hasleep : (run (Maintained.step C D) x l).Asleep)
    (hposts : (run (Maintained.step C D) x l).posts = 0)
    (honline : (run (Maintained.step C D) x l).doc.isSome = true)
    (hactivated : (run (Maintained.step C D) x l).activated = false) :
    ((run (Maintained.step C D) x l).docsDirty = false ∧
      (run (Maintained.step C D) x l).forceRecover = false ∧
      (run (Maintained.step C D) x l).ticking = none) ∧
    (EachStep (Maintained.step C D) (Maintained.Keeps C D rc clock) x l →
      (run (Maintained.step C D) x l).notes = false →
      (run (Maintained.step C D) x l).roster =
        (run (Maintained.step C D) x l).toSynced.view C D rc clock) := by
  have hok : (run (Maintained.step C D) x l).Ok :=
    run_invariant (fun z ev _ hz => hz.step ev) hfresh.ok
  have hidle := hok.of_asleep hasleep hposts honline hactivated
  refine ⟨hidle, fun hl hnotes => ?_⟩
  have hcurrent := run_invariant_of_eachStep
    (I := fun z : Maintained α => z.Ok ∧ z.toSynced.Configured C rc ∧
      z.toSynced.Current C D rc clock)
    (fun z ev hz hk => by
      refine ⟨hz.1.step ev, ?_⟩
      rw [step_toSynced hz.1.orderly ev]
      split
      · rename_i ev' hev
        have hkeeps := hk ev' hev
        exact ⟨hz.2.1.step ev' fun cfg doc author he => by rw [he] at hkeeps; exact hkeeps,
          hz.2.2.step hz.2.1 ev' hkeeps⟩
      · exact hz.2)
    ⟨hfresh.ok, hfresh.booted.configured, current_of_offline hfresh.booted.offline⟩ hl
  refine (hcurrent.2.2.cached honline).resolve_left ?_
  rintro (hn | hd | ⟨cfg, ht⟩)
  · rw [hnotes] at hn
    cases hn
  · rw [hidle.1] at hd
    cases hd
  · rw [hidle.2.2] at ht
    cases ht

/-! ## 4. Behind every hint a tick begins -/

namespace Maintained

/-- The loop goes on in this step. -/
def Goes : LoopEvent α → Prop
  | .advance _ _ _ => True
  | _ => False

/-- Within `n` stretches the loop takes the notification that waits for it. -/
def Near (n : Nat) (x : Maintained α) : Prop :=
  x.tickNotify.Pending ∧ (2 ≤ n ∨ (1 ≤ n ∧ x.loop ≠ .working))

/-- **What else happens leaves the loop where it is**, but for the timer, and takes no
    notification. -/
theorem step_aside [SemilatticeSup α] (x : Maintained α) {ev : LoopEvent α} (hgoes : ¬ Goes ev) :
    ((x.step C D ev).loop = .start ∧ x.loop ≠ .start) ∨
    ((x.step C D ev).loop = x.loop ∧
      (x.tickNotify.Pending → (x.step C D ev).tickNotify.Pending) ∧
      (0 < x.posts → 0 < (x.step C D ev).posts ∨ (x.step C D ev).tickNotify.Pending)) := by
  cases ev with
  | advance nowCoarse now failed => exact absurd trivial hgoes
  | elapse =>
    simp only [Maintained.step]
    split
    · rename_i ms hl
      exact Or.inl ⟨rfl, fun hs => by rw [hl] at hs; cases hs⟩
    · exact Or.inr ⟨rfl, id, Or.inl⟩
  | watch =>
    simp only [Maintained.step]
    split
    · exact Or.inr ⟨rfl, id, fun _ => Or.inl (Nat.succ_pos _)⟩
    · exact Or.inr ⟨rfl, id, Or.inl⟩
  | networkChanged now =>
    simp only [Maintained.step, networkChanged]
    split
    · exact Or.inr ⟨rfl, id, fun _ => Or.inl (Nat.succ_pos _)⟩
    · exact Or.inr ⟨rfl, id, fun _ => Or.inl (Nat.succ_pos _)⟩
  | setPace background => exact Or.inr ⟨rfl, id, fun _ => Or.inl (Nat.succ_pos _)⟩
  | hint => exact Or.inr ⟨rfl, id, fun _ => Or.inl (Nat.succ_pos _)⟩
  | post =>
    simp only [Maintained.step]
    split
    · exact Or.inr ⟨rfl, id, Or.inl⟩
    · exact Or.inr ⟨rfl, fun _ => Notify.pending_notifyOne _,
        fun _ => Or.inr (Notify.pending_notifyOne _)⟩
  | _ => exact Or.inr ⟨rfl, id, Or.inl⟩

/-- **A stretch of the loop brings it nearer to its next tick.** -/
theorem Ok.near_advance {n : Nat} (h : x.Ok) (hnear : x.Near (n + 1)) (hl : x.loop ≠ .start)
    (nowCoarse now : UInt64) (failed : Option String) :
    (x.advance C D nowCoarse now failed).loop = .start ∨
      (x.advance C D nowCoarse now failed).Near n := by
  obtain ⟨hpending, hn⟩ := hnear
  unfold Maintained.advance
  split
  · rename_i hs
    exact absurd hs hl
  · rename_i hw
    -- a tick that ends: the notification is its permit
    have hn2 : 2 ≤ n + 1 := hn.resolve_right fun h1 => h1.2 hw
    split
    · exact Or.inr ⟨hpending, Or.inr ⟨by omega, fun hc => by cases hc⟩⟩
    · exact Or.inr ⟨hpending, Or.inr ⟨by omega, fun hc => by cases hc⟩⟩
  · rename_i he
    have hawake := h.awake fun ms hms => by rw [he] at hms; cases hms
    have hpermit : x.tickNotify.permit = true := hpending.resolve_right fun hw => by
      rw [hawake] at hw
      cases hw
    exact Or.inl (by simp [Notify.wait, hpermit])
  · rename_i ms hp
    rcases h.asleep_or_woken hp with hsleep | hwoken
    · exact absurd hpending (Notify.not_pending_of_asleep h.notify hsleep)
    · exact Or.inl (by simp [hwoken])

theorem posts_advance (x : Maintained α) (nowCoarse now : UInt64) (failed : Option String) :
    (x.advance C D nowCoarse now failed).posts = x.posts := by
  unfold Maintained.advance
  split
  · rfl
  · split <;> rfl
  · rfl
  · split <;> rfl

theorem Near.aside [SemilatticeSup α] {n : Nat} {ev : LoopEvent α} (h : x.Near n)
    (hgoes : ¬ Goes ev) : (x.step C D ev).loop = .start ∨ (x.step C D ev).Near n := by
  rcases x.step_aside (C := C) (D := D) hgoes with ⟨hs, -⟩ | ⟨hl, hpending, -⟩
  · exact Or.inl hs
  · exact Or.inr ⟨hpending h.1, by rw [hl]; exact h.2⟩

end Maintained

/-- **Behind every hint a tick begins.** In every run of a device from its start in which the loop
    goes on again and again and the tasks that hint get to notify it: behind each step that leaves a
    hint a tick begins, whether or not the timer ever fires. -/
theorem hint_ticks [SemilatticeSup α] (hfresh : x.Fresh) (sched : Nat → LoopEvent α)
    (hloop : ∀ t, ∃ t', t ≤ t' ∧ Goes (sched t')) (hpost : ∀ t, ∃ t', t ≤ t' ∧ sched t' = .post)
    {t : Nat} (hhint : (upTo (Maintained.step C D) x sched t).posts <
      (upTo (Maintained.step C D) x sched (t + 1)).posts) :
    ∃ t', t < t' ∧ (upTo (Maintained.step C D) x sched t').loop = .start ∧ Goes (sched t') := by
  obtain ⟨w, hw⟩ : ∃ w, w = upTo (Maintained.step C D) x sched := ⟨_, rfl⟩
  have hnext : ∀ m, w (m + 1) = (w m).step C D (sched m) := fun m => by
    rw [hw]
    rfl
  have hok : ∀ m, (w m).Ok := fun m => by
    rw [hw, upTo_eq_run]
    exact run_invariant (fun z ev _ hz => hz.step ev) hfresh.ok
  rw [← hw] at hhint ⊢
  refine Classical.byContradiction fun hno => ?_
  -- behind the hint the loop is never about to run a tick: it would run it
  have hstart : ∀ m, t < m → (w m).loop ≠ .start := by
    intro m hm hs
    obtain ⟨-, -, hticks⟩ := stays_until (P := fun k => (w k).loop = .start)
      (Q := fun _ => ∃ t', t < t' ∧ (w t').loop = .start ∧ Goes (sched t')) hs
      (fun k hk hP => by
        by_cases hgoes : Goes (sched k)
        · exact Or.inr ⟨k, by omega, hP, hgoes⟩
        · refine Or.inl ?_
          rw [hnext k]
          rcases (w k).step_aside (C := C) (D := D) hgoes with ⟨hs, -⟩ | ⟨hl, -⟩
          · exact hs
          · exact hl.trans hP)
      (fun k hk => by
        obtain ⟨m', hm', hgoes⟩ := hloop k
        exact ⟨m', hm', fun hP => ⟨m', by omega, hP, hgoes⟩⟩)
    exact hno hticks
  have hadvance : ∀ m, t < m → ∀ n, (w m).Near (n + 1) → Goes (sched m) → (w (m + 1)).Near n := by
    intro m hm n hn hgoes
    cases hev : sched m with
    | advance nowCoarse now failed =>
      have hstep := (hok m).near_advance (C := C) (D := D) hn (hstart m hm) nowCoarse now failed
      rw [hnext m, hev]
      refine hstep.resolve_left fun hs => hstart (m + 1) (by omega) ?_
      rw [hnext m, hev]
      exact hs
    | _ => simp [hev, Goes] at hgoes
  -- the hint gets posted
  obtain ⟨m, hm, hpending⟩ : ∃ m, t + 1 ≤ m ∧ (w m).tickNotify.Pending := by
    refine stays_until (P := fun k => 0 < (w k).posts) (by omega) (fun k hk hP => ?_) fun k hk => ?_
    · rw [hnext k]
      by_cases hgoes : Goes (sched k)
      · cases hev : sched k with
        | advance nowCoarse now failed =>
          exact Or.inl (by rw [Maintained.step, posts_advance]; exact hP)
        | _ => simp [hev, Goes] at hgoes
      · rcases (w k).step_aside (C := C) (D := D) hgoes with ⟨hs, -⟩ | ⟨-, -, hposts⟩
        · exact absurd (by rw [hnext k]; exact hs) (hstart (k + 1) (by omega))
        · exact hposts hP
    · obtain ⟨m', hm', hev⟩ := hpost k
      refine ⟨m', hm', fun hP => ?_⟩
      rw [hnext m', hev]
      obtain ⟨n, hn⟩ := Nat.exists_eq_succ_of_ne_zero (Nat.pos_iff_ne_zero.mp hP)
      simp only [Maintained.step, hn]
      exact Notify.pending_notifyOne _
  -- and every stretch brings the loop nearer to taking it
  have hnear : ∀ n m, t < m → ¬ (w m).Near n := fun n => by
    induction n with
    | zero =>
      rintro m hm ⟨-, h2 | ⟨h1, -⟩⟩
      · omega
      · omega
    | succ n ih =>
      intro m hm hn
      obtain ⟨m', hm', hn'⟩ := stays_until (P := fun k => (w k).Near (n + 1))
        (Q := fun k => (w k).Near n) hn
        (fun k hk hP => by
          by_cases hgoes : Goes (sched k)
          · exact Or.inr (hadvance k (by omega) n hP hgoes)
          · refine Or.inl ?_
            rw [hnext k]
            refine (hP.aside hgoes).resolve_left fun hs => hstart (k + 1) (by omega) ?_
            rw [hnext k]
            exact hs)
        (fun k hk => by
          obtain ⟨m', hm', hgoes⟩ := hloop k
          exact ⟨m', hm', fun hP => hadvance m' (by omega) n hP hgoes⟩)
      exact ih m' (by omega) hn'
  exact hnear 2 m (by omega) ⟨hpending, Or.inl le_rfl⟩

/-! ## 5. A device that hears of a change while it ticks -/

namespace Sample

def maintained : Maintained (Finset Record) := { holder 2 ⊥ with }

/-- Device 2 goes online, and takes in the genesis record while its first tick is under way. -/
def hearsMidway : List (LoopEvent (Finset Record)) :=
  [.activate (stored none) NET NET, .advance 1000 100 none, .insert genesisHeld, .watch,
    .advance 1000 100 none, .post, .advance 1000 100 none, .advance 1000 100 none,
    .advance 1000 100 none, .advance 1000 100 none]

def heardMidway : Maintained (Finset Record) :=
  run (Maintained.step .plain docs) maintained hearsMidway

theorem heardMidway_eq :
    heardMidway = run (Maintained.step .plain docs) maintained hearsMidway := rfl

/-- The events of the sample: one clock, no failure, and no `refresh_roster`. -/
inductive Plain : LoopEvent (Finset Record) → Prop
  | advance : Plain (.advance 1000 100 none)
  | insert : Plain (.insert genesisHeld)
  | watch : Plain .watch
  | activate : Plain (.activate (stored none) NET NET)
  | post : Plain .post

theorem plain_hearsMidway : ∀ ev ∈ hearsMidway, Plain ev := by
  intro ev hev
  simp only [hearsMidway, List.mem_cons, List.not_mem_nil, or_false] at hev
  rcases hev with rfl | rfl | rfl | rfl | rfl | rfl | rfl | rfl | rfl | rfl <;> constructor

/-- Such an event is a step of the device that leaves no fold on its way. -/
theorem Plain.heard {y : Maintained (Finset Record)} {ev : LoopEvent (Finset Record)}
    (hev : Plain ev) (h : y.refreshing = none) :
    y.Keeps .plain docs config 100 ev ∧
      ∀ ev', y.heard ev = some ev' → (y.toSynced.step .plain docs ev').refreshing = none := by
  cases hev with
  | advance =>
    have hturn : ∀ ev', y.heard (.advance 1000 100 none) = some ev' →
        ev' = .turn 1000 100 none := fun ev' he => by
      simp only [Maintained.heard] at he
      split at he
      · exact (Option.some.inj he).symm
      · exact (Option.some.inj he).symm
      · cases he
    refine ⟨fun ev' he => ?_, fun ev' he => ?_⟩
    · rw [hturn ev' he]
      exact fun _ _ => ⟨rfl, h, fun _ _ => Iff.rfl⟩
    · rw [hturn ev' he]
      exact (refreshing_turn ..).trans h
  | insert =>
    refine ⟨fun ev' he => ?_, fun ev' he => ?_⟩ <;> obtain rfl := Option.some.inj he
    · trivial
    · exact h
  | watch =>
    have hwatch : ∀ ev', y.heard .watch = some ev' → ev' = .watch := fun ev' he => by
      simp only [Maintained.heard] at he
      split at he
      · exact (Option.some.inj he).symm
      · cases he
    refine ⟨fun ev' he => ?_, fun ev' he => ?_⟩
    · rw [hwatch ev' he]
      trivial
    · rw [hwatch ev' he]
      exact h
  | activate =>
    refine ⟨fun ev' he => ?_, fun ev' he => ?_⟩ <;> obtain rfl := Option.some.inj he
    · exact rosterCfg_stored
    · exact h
  | post => exact ⟨fun ev' he => (by cases he), fun ev' he => by cases he⟩

theorem fresh_maintained : maintained.Fresh := ⟨⟨rfl, rfl, rfl⟩, rfl, rfl⟩

theorem keeps_hearsMidway : EachStep (Maintained.step .plain docs)
    (Maintained.Keeps .plain docs config 100) maintained hearsMidway := by
  refine eachStep_of_invariant (J := fun y => y.Ok ∧ y.refreshing = none)
    (D := fun _ ev => Plain ev) ⟨fresh_maintained.ok, rfl⟩ (fun y ev hy hev => ?_)
    (fun y ev hy hev => (hev.heard hy.2).1) (eachStep_of_forall plain_hearsMidway)
  refine ⟨hy.1.step ev, ?_⟩
  rw [step_toSynced hy.1.orderly ev]
  split
  · rename_i ev' he
    exact (hev.heard hy.2).2 ev' he
  · exact hy.2

/-- A pace that is set, a task that notifies, and a loop that goes on. -/
def pacing : Nat → LoopEvent (Finset Record)
  | 0 => .setPace true
  | n + 1 => if n % 2 = 0 then .post else .advance 1000 100 none

end Sample

theorem asleep_current_sample :
    Sample.heardMidway.roster =
        Sample.heardMidway.toSynced.view .plain Sample.docs Sample.config 100 ∧
      Sample.heardMidway.roster.isMember (Sample.key 2) = true := by
  have hasleep : Sample.heardMidway.Asleep := by
    show _ = _
    decide +kernel
  have hposts : Sample.heardMidway.posts = 0 := by decide +kernel
  have honline : Sample.heardMidway.doc.isSome = true := by decide +kernel
  have hactivated : Sample.heardMidway.activated = false := by decide +kernel
  have hnotes : Sample.heardMidway.notes = false := by decide +kernel
  have hmember : Sample.heardMidway.roster.isMember (Sample.key 2) = true := by decide +kernel
  have hcurrent := asleep_current (C := .plain) (D := Sample.docs) Sample.config 100
    Sample.fresh_maintained Sample.hearsMidway
  rw [← Sample.heardMidway_eq] at hcurrent
  exact ⟨(hcurrent hasleep hposts honline hactivated).2 Sample.keeps_hearsMidway hnotes, hmember⟩

theorem hint_ticks_sample : ∃ t', 0 < t' ∧
    (upTo (Maintained.step .plain Sample.docs) Sample.maintained Sample.pacing t').loop = .start ∧
      Goes (Sample.pacing t') := by
  refine hint_ticks (t := 0) Sample.fresh_maintained Sample.pacing (fun t => ?_) (fun t => ?_)
    (by decide)
  · refine ⟨2 * t + 2, by omega, ?_⟩
    have hodd : (2 * t + 1) % 2 ≠ 0 := by omega
    show Goes (if (2 * t + 1) % 2 = 0 then _ else _)
    rw [if_neg hodd]
    trivial
  · refine ⟨2 * t + 1, by omega, ?_⟩
    have heven : 2 * t % 2 = 0 := by omega
    show (if 2 * t % 2 = 0 then _ else _) = _
    rw [if_pos heven]

end Nullgate
