/-
  File:      Nullgate/Mesh/Dials.lean
  Subject:   DIALS IN FLIGHT (`engine.rs`): one per peer, and a slot that is always freed.

  `spawn_dials` takes a slot for each peer and spawns a dial behind it; `DialSlot` frees the
  slot when the dial's task ends, however it ends. Any number of calls and dials run at once.

  * `DialTask`, `dials` -- the points the calls and the dials stand at, and what they do;
  * `Counted`: the invariant, one equation for each peer between the slot and the tasks that
    hold it, one between the dials that run and the history;
  * `dial_dedup`: over every run, one dial for each peer at most, the slots are those of the
    unfinished dials, and a dial begins behind the outcome of the one before.
-/
import Mathlib.Data.Finset.Basic
import Nullgate.Lib.Tasks
import Nullgate.Roster.Build

namespace Nullgate

open Nullgate.Lib

/-! ## 1. The calls and the dials -/

/-- What happened to the dials, for the record; no field of the source. -/
inductive DialEvent where
  /-- `dial(peer)` is called -/
  | started (peer : Id)
  /-- `on_outcome(peer, success)` has returned -/
  | reported (peer : Id) (success : Bool)
  /-- the task panics, in the dial or in the callback -/
  | panicked (peer : Id)
  deriving DecidableEq

/-- The set of peers with a dial in flight, and the record, newest event first. -/
structure Dialing where
  dialing : Finset Id := ∅
  events : List DialEvent := []

/-- Where a call or a dial stands. -/
inductive DialTask where
  /-- `spawn_dials` at the head of its loop -/
  | call (toDial : List Id)
  /-- the slot of `peer` is taken, and its task not yet spawned -/
  | spawning (peer : Id) (toDial : List Id)
  /-- the task of a dial, before it is first polled -/
  | spawned (peer : Id)
  /-- waiting for the dial or its timeout -/
  | dialing (peer : Id)
  /-- about to report the outcome -/
  | report (peer : Id) (success : Bool)
  /-- about to drop its `DialSlot`, at its end or as it unwinds -/
  | dropping (peer : Id)
  | done
  deriving DecidableEq

/-- What a poll of the dial yields; a callback returns or panics. -/
inductive Polled where
  | pending
  | ok
  | err
  /-- the timeout fires -/
  | elapsed
  | panics
  deriving DecidableEq

namespace Dialing

def record (s : Dialing) (e : DialEvent) : Dialing := { s with events := e :: s.events }

def contains (s : Dialing) (peer : Id) : Bool := peer ∈ s.dialing

def insert (s : Dialing) (peer : Id) : Dialing := { s with dialing := Insert.insert peer s.dialing }

def remove (s : Dialing) (peer : Id) : Dialing := { s with dialing := s.dialing.erase peer }

section

variable (s : Dialing) (peer p : Id) (e : DialEvent)

@[simp] theorem contains_record : (s.record e).contains p = s.contains p := rfl

@[simp] theorem events_record : (s.record e).events = e :: s.events := rfl

@[simp] theorem contains_insert : (s.insert peer).contains p = (p = peer || s.contains p) := by
  simp [contains, insert]

@[simp] theorem contains_remove : (s.remove peer).contains p = (p ≠ peer && s.contains p) := by
  simp [contains, remove]

end

/-- **What a call or a dial does next.** -/
def stretch (s : Dialing) (polled : Polled) : DialTask → Dialing × DialTask × List DialTask
  | .call [] => (s, .done, [])
  | .call (peer :: toDial) =>
    if s.contains peer then (s, .call toDial, [])
    else (s.insert peer, .spawning peer toDial, [])
  | .spawning peer toDial => (s, .call toDial, [.spawned peer])
  | .spawned peer => (s.record (.started peer), .dialing peer, [])
  | .dialing peer =>
    match polled with
    | .pending => (s, .dialing peer, [])
    | .ok => (s, .report peer true, [])
    | .err | .elapsed => (s, .report peer false, [])
    | .panics => (s.record (.panicked peer), .dropping peer, [])
  | .report peer success =>
    match polled with
    | .panics => (s.record (.panicked peer), .dropping peer, [])
    | _ => (s.record (.reported peer success), .dropping peer, [])
  | .dropping peer => (s.remove peer, .done, [])
  | .done => (s, .done, [])

end Dialing

def DialTask.isCall : DialTask → Bool
  | call _ => true
  | _ => false

/-- **The dials of one device**: calls start at any time, and no task is ever aborted. -/
def dials : Program Dialing DialTask Polled Empty where
  stretch := Dialing.stretch
  starts := DialTask.isCall
  drop := fun _ => none
  env := fun s _ => s

namespace DialTask

/-- An unfinished dial of `p`. -/
def inFlight (p : Id) : DialTask → Bool
  | spawned peer | dialing peer | report peer _ | dropping peer => peer = p
  | _ => false

/-- A call between the slot of `p` and its task. -/
def spawns (p : Id) : DialTask → Bool
  | spawning peer _ => peer = p
  | _ => false

/-- The task holds the slot of `p`. -/
def holds (p : Id) (t : DialTask) : Bool := t.inFlight p || t.spawns p

/-- A dial of `p` that has begun and reported nothing yet. -/
def running (p : Id) : DialTask → Bool
  | dialing peer | report peer _ => peer = p
  | _ => false

/-- How many stretches the task has left, but for polls that are pending. -/
def remaining : DialTask → Nat
  | spawned _ => 4
  | dialing _ => 3
  | report _ _ => 2
  | dropping _ => 1
  | _ => 0

end DialTask

/-- **Every dial of `p` so far has reported or panicked**: the last event of `p` is no start. -/
def allReported (p : Id) : List DialEvent → Bool
  | [] => true
  | .started peer :: events => peer ≠ p && allReported p events
  | .reported peer _ :: events => peer = p || allReported p events
  | .panicked peer :: events => peer = p || allReported p events

/-- Every dial of `p` began when those before it had reported or panicked. -/
def Serial (p : Id) (events : List DialEvent) : Prop :=
  ∀ newer older, events = newer ++ .started p :: older → allReported p older = true

theorem Serial.cons {p : Id} {events : List DialEvent} {e : DialEvent} (h : Serial p events)
    (he : e = .started p → allReported p events = true) : Serial p (e :: events) := by
  intro newer older hsplit
  cases newer with
  | nil =>
    obtain ⟨rfl, rfl⟩ := List.cons.inj hsplit
    exact he rfl
  | cons x newer =>
    obtain ⟨-, hrest⟩ := List.cons.inj hsplit
    exact h newer older hrest

/-- Before a dial whose outcome is awaited the next one is not begun: between two there is an
    outcome, or a panic. -/
theorem exists_of_allReported {p : Id} {mid older : List DialEvent}
    (h : allReported p (mid ++ .started p :: older) = true) :
    (∃ success, .reported p success ∈ mid) ∨ .panicked p ∈ mid := by
  induction mid with
  | nil => simp [allReported] at h
  | cons e mid ih =>
    have hrest (h' : allReported p (mid ++ .started p :: older) = true) :
        (∃ success, .reported p success ∈ e :: mid) ∨ .panicked p ∈ e :: mid :=
      (ih h').imp (fun ⟨success, hm⟩ => ⟨success, List.mem_cons_of_mem _ hm⟩)
        (List.mem_cons_of_mem _)
    rw [List.cons_append] at h
    cases e with
    | started peer =>
      rw [allReported, Bool.and_eq_true] at h
      exact hrest h.2
    | reported peer success =>
      rw [allReported, Bool.or_eq_true, decide_eq_true_eq] at h
      rcases h with rfl | h
      · exact Or.inl ⟨success, List.mem_cons_self⟩
      · exact hrest h
    | panicked peer =>
      rw [allReported, Bool.or_eq_true, decide_eq_true_eq] at h
      rcases h with rfl | h
      · exact Or.inr List.mem_cons_self
      · exact hrest h

/-! ## 2. The invariant -/

/-- Where the slot of `p` is taken, one task holds it, and where a dial of `p` is not yet
    reported, one runs. -/
structure Counted (p : Id) (w : World Dialing DialTask) : Prop where
  slot : w.tasks.countP (DialTask.holds p) = (w.shared.contains p).toNat
  running : w.tasks.countP (DialTask.running p) =
    if allReported p w.shared.events then 0 else 1
  serial : Serial p w.shared.events

section

variable {p peer : Id} {w : World Dialing DialTask} {k : Nat} {t : DialTask}

theorem Counted.countP_le (h : Counted p w) : w.tasks.countP (DialTask.holds p) ≤ 1 := by
  rw [h.slot]
  exact Bool.toNat_le _

/-- A task that holds the slot and has not begun stands alone: no dial of the peer runs. -/
theorem Counted.allReported_of_holds (h : Counted p w) (hk : w.tasks[k]? = some t)
    (hholds : t.holds p = true) (hnot : t.running p = false) :
    allReported p w.shared.events = true := by
  have hnone : w.tasks.countP (DialTask.running p) = 0 := by
    refine List.countP_eq_zero.mpr fun t' ht' hrun => ?_
    rcases (mem_iff_eraseIdx hk).mp ht' with rfl | ht'
    · rw [hnot] at hrun
      cases hrun
    · have hfree := eq_false_of_countP hk hholds h.countP_le ht'
      cases t' <;> simp_all [DialTask.running, DialTask.holds, DialTask.inFlight]
  have hrunning := h.running
  rw [hnone] at hrunning
  split at hrunning
  · assumption
  · cases hrunning

/-- While a dial of the peer runs, its outcome is out. -/
theorem Counted.allReported_of_running (h : Counted p w) (hk : w.tasks[k]? = some t)
    (hrun : t.running p = true) : allReported p w.shared.events = false := by
  have hpos : 0 < w.tasks.countP (DialTask.running p) :=
    List.countP_pos_iff.mpr ⟨t, List.mem_of_getElem? hk, hrun⟩
  have hrunning := h.running
  split at hrunning
  · omega
  · rename_i hall
    simpa using hall

/-- The slot of a task that holds one is taken. -/
theorem Counted.contains_of_holds (h : Counted p w) (hk : w.tasks[k]? = some t)
    (hholds : t.holds p = true) : w.shared.contains p = true := by
  have hpos : 0 < w.tasks.countP (DialTask.holds p) :=
    List.countP_pos_iff.mpr ⟨t, List.mem_of_getElem? hk, hholds⟩
  rw [h.slot] at hpos
  have hone := Bool.toNat_le (w.shared.contains p)
  exact Bool.toNat_eq_one.mp (by omega)

/-- What a stretch has to show, by the task that runs and what it leaves. -/
theorem counted_stretch {s : Dialing} {t' : DialTask} {spawned : List DialTask}
    (h : Counted p w) (hk : w.tasks[k]? = some t)
    (hslot : (if t'.holds p then 1 else 0) + spawned.countP (DialTask.holds p) +
        (w.shared.contains p).toNat =
      (if t.holds p then 1 else 0) + (s.contains p).toNat)
    (hrunning : (if t'.running p then 1 else 0) + spawned.countP (DialTask.running p) +
        (if allReported p w.shared.events then 0 else 1) =
      (if t.running p then 1 else 0) + if allReported p s.events then 0 else 1)
    (hserial : Serial p s.events) :
    Counted p ⟨s, w.tasks.set k t' ++ spawned⟩ := by
  have hholds := countP_stretch (DialTask.holds p) t' spawned hk
  have hruns := countP_stretch (DialTask.running p) t' spawned hk
  have hold := h.slot
  have hrun := h.running
  refine ⟨?_, ?_, hserial⟩
  · show (w.tasks.set k t' ++ spawned).countP (DialTask.holds p) = (s.contains p).toNat
    omega
  · show (w.tasks.set k t' ++ spawned).countP (DialTask.running p) =
      if allReported p s.events then 0 else 1
    omega

/-- The end of a dial, by its outcome or by a panic: it runs no longer. -/
theorem Counted.ends {e : DialEvent} (h : Counted p w) (hk : w.tasks[k]? = some t)
    (ht : t.holds p = decide (peer = p)) (hrun : t.running p = decide (peer = p))
    (he : allReported p (e :: w.shared.events) =
      (decide (peer = p) || allReported p w.shared.events)) (hne : e ≠ .started p) :
    Counted p ⟨w.shared.record e, w.tasks.set k (.dropping peer) ++ []⟩ := by
  refine counted_stretch h hk ?_ ?_ (h.serial.cons fun heq => absurd heq hne)
  · rw [ht]
    simp [DialTask.holds, DialTask.inFlight, DialTask.spawns]
  · rw [hrun, Dialing.events_record, he]
    by_cases hp : peer = p
    · have hall := h.allReported_of_running hk (by simpa [hp] using hrun)
      simp [DialTask.running, hp, hall]
    · simp [DialTask.running, hp]

/-- **One stretch keeps the invariant.** -/
theorem Counted.go (h : Counted p w) (hk : w.tasks[k]? = some t) (polled : Polled) :
    Counted p ⟨(w.shared.stretch polled t).1,
      w.tasks.set k (w.shared.stretch polled t).2.1 ++ (w.shared.stretch polled t).2.2⟩ := by
  cases t with
  | call toDial =>
    cases toDial with
    | nil => exact counted_stretch h hk rfl rfl h.serial
    | cons peer toDial =>
      simp only [Dialing.stretch]
      split
      · exact counted_stretch h hk rfl rfl h.serial
      · rename_i hfree
        refine counted_stretch h hk ?_ rfl h.serial
        -- the slot was free, and the call now holds it
        by_cases hp : peer = p
        · subst hp
          simp [DialTask.holds, DialTask.inFlight, DialTask.spawns, hfree]
        · simp [DialTask.holds, DialTask.inFlight, DialTask.spawns, hp, eq_comm (a := p)]
  | spawning peer toDial =>
    refine counted_stretch h hk ?_ rfl h.serial
    simp [Dialing.stretch, DialTask.holds, DialTask.inFlight, DialTask.spawns]
  | spawned peer =>
    have hholds : (DialTask.spawned peer).holds peer = true := by
      simp [DialTask.holds, DialTask.inFlight]
    refine counted_stretch h hk rfl ?_ (h.serial.cons fun he => ?_)
    · by_cases hp : peer = p
      · subst hp
        have hall := h.allReported_of_holds hk hholds rfl
        simp [Dialing.stretch, Dialing.record, DialTask.running, allReported, hall]
      · simp [Dialing.stretch, Dialing.record, DialTask.running, allReported, hp]
    · obtain rfl := DialEvent.started.inj he
      exact h.allReported_of_holds hk hholds rfl
  | dialing peer =>
    cases polled with
    | panics => exact h.ends hk (Bool.or_false _) rfl rfl nofun
    | pending => exact counted_stretch h hk rfl rfl h.serial
    | ok => exact counted_stretch h hk rfl rfl h.serial
    | err => exact counted_stretch h hk rfl rfl h.serial
    | elapsed => exact counted_stretch h hk rfl rfl h.serial
  | report peer success =>
    cases polled with
    | panics => exact h.ends hk (Bool.or_false _) rfl rfl nofun
    | pending => exact h.ends hk (Bool.or_false _) rfl rfl nofun
    | ok => exact h.ends hk (Bool.or_false _) rfl rfl nofun
    | err => exact h.ends hk (Bool.or_false _) rfl rfl nofun
    | elapsed => exact h.ends hk (Bool.or_false _) rfl rfl nofun
  | dropping peer =>
    refine counted_stretch h hk ?_ rfl h.serial
    by_cases hp : peer = p
    · -- the slot is the task's own: it was taken
      subst hp
      have htaken := h.contains_of_holds hk (by simp [DialTask.holds, DialTask.inFlight])
      simp [Dialing.stretch, DialTask.holds, DialTask.inFlight, DialTask.spawns, htaken]
    · simp [Dialing.stretch, DialTask.holds, DialTask.inFlight, DialTask.spawns, hp,
        eq_comm (a := p)]
  | done => exact counted_stretch h hk rfl rfl h.serial

variable {a : Act DialTask Polled Empty}

theorem counted_nil (p : Id) : Counted p ⟨{}, []⟩ := ⟨rfl, rfl, fun newer older h => by simp at h⟩

/-- **Every action keeps the invariant.** -/
theorem Counted.step (h : Counted p w) (a : Act DialTask Polled Empty) :
    Counted p (dials.step w a) := by
  rcases dials.step_cases w a with ⟨-, -, he⟩ | ⟨k, polled, t, rfl, hk, he⟩ | ⟨t, rfl, ht, he⟩ |
    ⟨k, t, t', rfl, -, hd, he⟩ | ⟨e, -, -⟩
  · rwa [he]
  · rw [he]
    exact h.go hk polled
  · obtain ⟨toDial, rfl⟩ : ∃ toDial, t = .call toDial := by
      cases t with
      | call toDial => exact ⟨toDial, rfl⟩
      | _ => cases ht
    rw [he]
    refine ⟨?_, ?_, h.serial⟩
    · rw [List.countP_append, h.slot]
      rfl
    · rw [List.countP_append, h.running]
      rfl
  · cases hd
  · exact e.elim

theorem counted_run (p : Id) (acts : List (Act DialTask Polled Empty)) :
    Counted p (run dials.step ⟨{}, []⟩ acts) :=
  run_invariant (fun _ a _ h => h.step a) (counted_nil p)

/-! ## 3. What follows of the slots -/

/-- The slot is taken exactly while a task holds it. -/
theorem Counted.contains_iff (h : Counted p w) :
    w.shared.contains p = true ↔ ∃ t ∈ w.tasks, t.holds p = true := by
  rw [← List.countP_pos_iff, h.slot, ← Bool.toNat_eq_one]
  have hone := Bool.toNat_le (w.shared.contains p)
  omega

/-- Of the unfinished dials of a peer there is one at most. -/
theorem Counted.inFlight_le (h : Counted p w) : w.tasks.countP (DialTask.inFlight p) ≤ 1 := by
  refine le_trans (List.countP_mono_left fun t _ ht => ?_) h.countP_le
  rw [DialTask.holds, ht, Bool.true_or]

/-- **A dial stays unfinished, or ends with its slot free**, and each poll that is not pending
    brings its end nearer. -/
theorem ends_free (hk : w.tasks[k]? = some t) (ht : t.inFlight p = true) (polled : Polled) :
    ∃ t', (dials.step w (.go k polled)).tasks[k]? = some t' ∧
      (polled ≠ .pending → t'.remaining < t.remaining) ∧
      (t'.inFlight p = true ∨
        t' = .done ∧ (dials.step w (.go k polled)).shared.contains p = false) := by
  refine ⟨(w.shared.stretch polled t).2.1, ?_, ?_⟩
  · rw [Program.step_go hk]
    exact getElem?_stretch_self hk
  · rw [Program.step_go hk]
    cases t with
    | spawned peer => exact ⟨fun _ => Nat.lt_succ_self 3, Or.inl ht⟩
    | dialing peer =>
      cases polled with
      | pending => exact ⟨fun hne => absurd rfl hne, Or.inl ht⟩
      | ok => exact ⟨fun _ => Nat.lt_succ_self 2, Or.inl ht⟩
      | err => exact ⟨fun _ => Nat.lt_succ_self 2, Or.inl ht⟩
      | elapsed => exact ⟨fun _ => Nat.lt_succ_self 2, Or.inl ht⟩
      | panics => exact ⟨fun _ => show 1 < 3 by omega, Or.inl ht⟩
    | report peer success =>
      cases polled <;> exact ⟨fun _ => Nat.lt_succ_self 1, Or.inl ht⟩
    | dropping peer =>
      obtain rfl : peer = p := by simpa [DialTask.inFlight] using ht
      refine ⟨fun _ => Nat.zero_lt_one, Or.inr ⟨rfl, ?_⟩⟩
      show (w.shared.remove peer).contains peer = false
      simp
    | _ => cases ht

end

/-- The device behind the actions. -/
def dialsAfter (acts : List (Act DialTask Polled Empty)) : World Dialing DialTask :=
  run dials.step ⟨{}, []⟩ acts

/-- **Dial de-duplication**, over every run of calls, completions, errors, timeouts and panics,
    for every peer: one dial at most is unfinished; the slot is taken exactly while a dial is
    unfinished, or about to be spawned; a dial that ends frees the slot, whichever way it
    ends; and between the starts of two dials the first has reported, or panicked. -/
theorem dial_dedup (acts : List (Act DialTask Polled Empty)) (p : Id) :
    (dialsAfter acts).tasks.countP (DialTask.inFlight p) ≤ 1 ∧
    ((dialsAfter acts).shared.contains p = true ↔
      ∃ t ∈ (dialsAfter acts).tasks, t.inFlight p = true ∨ t.spawns p = true) ∧
    ((∀ t ∈ (dialsAfter acts).tasks, t.spawns p = false) →
      ((dialsAfter acts).shared.contains p = true ↔
        ∃ t ∈ (dialsAfter acts).tasks, t.inFlight p = true)) ∧
    (∀ k t polled, (dialsAfter acts).tasks[k]? = some t → t.inFlight p = true →
      ∃ t', (dials.step (dialsAfter acts) (.go k polled)).tasks[k]? = some t' ∧
        (polled ≠ .pending → t'.remaining < t.remaining) ∧
        (t'.inFlight p = true ∨ t' = .done ∧
          (dials.step (dialsAfter acts) (.go k polled)).shared.contains p = false)) ∧
    ∀ newer mid older, (dialsAfter acts).shared.events =
        newer ++ .started p :: (mid ++ .started p :: older) →
      (∃ success, .reported p success ∈ mid) ∨ .panicked p ∈ mid := by
  have h : Counted p (dialsAfter acts) := counted_run p acts
  have hslot : (dialsAfter acts).shared.contains p = true ↔
      ∃ t ∈ (dialsAfter acts).tasks, t.inFlight p = true ∨ t.spawns p = true := by
    rw [h.contains_iff]
    simp only [DialTask.holds, Bool.or_eq_true]
  refine ⟨h.inFlight_le, hslot, fun hnone => ?_, fun k t polled hk ht => ends_free hk ht polled,
    fun newer mid older he => exists_of_allReported (h.serial newer _ he)⟩
  rw [hslot]
  refine exists_congr fun t => and_congr_right fun ht => ?_
  rw [hnone t ht]
  simp

end Nullgate
