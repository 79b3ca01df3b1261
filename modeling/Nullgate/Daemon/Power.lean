/-
  File:      Nullgate/Daemon/Power.lean
  Subject:   SLEEP AND WAKE (`power.rs`): a device leaves the network to sleep, and comes back.

  The callback of the power events waits for `on_sleep` before it acknowledges a sleep; `on_wake`
  runs in a task of its own. A flag says whether the next full wake is to rejoin: `on_sleep` sets
  it before it disconnects, `on_wake` takes it back before it connects. So the intent to be online
  is in one of three places: the network, the flag, or a task that has taken it.

  * `PowerHandler.step`: events, the callback, the tasks, and the rest of the engine;
  * `KeepsFaith`: offline from every acknowledgement to the next full wake, and online again
    behind it if the device was online to begin with;
  * **`sleep_keeps_faith`**: so it is in every state of every run whose steps satisfy `Undisturbed`;
  * `wakes_asleep`: a task that began to connect before the sleep gets there during it.
-/
import Nullgate.Lifecycle.Recovery

namespace Nullgate

open Nullgate.Lib

/-! ## 1. The events -/

def CAP_CPU : UInt32 := 0x01

def CAP_GRAPHICS : UInt32 := 0x02

inductive Transition where
  | sleep
  | darkWake
  | fullWake
  deriving DecidableEq

/-- `classify`: what a change of the system's capabilities means. -/
def classify (capabilities : UInt32) : Transition :=
  if capabilities &&& CAP_CPU = 0 then .sleep
  else if capabilities &&& CAP_GRAPHICS = 0 then .darkWake
  else .fullWake

/-! ## 2. The handler -/

/-- Where the callback is. -/
inductive SleepPoint where
  | idle
  /-- `on_sleep`, for the status -/
  | checking
  /-- online: it is about to set the flag -/
  | marking
  /-- in `set_online(false)` -/
  | leaving (j : Job)
  /-- `on_sleep` has returned -/
  | acking
  deriving DecidableEq

/-- Where a task of `on_wake` is. -/
inductive WakePoint where
  | swapping
  /-- in `set_online(true)` -/
  | joining (j : Job)
  | done
  deriving DecidableEq

/-- `on_sleep` disconnects the device. -/
def SleepPoint.leaves : SleepPoint → Bool
  | .leaving _ => true
  | _ => false

/-- The task has taken the intent to connect. -/
def WakePoint.joins : WakePoint → Bool
  | .joining _ => true
  | _ => false

structure PowerHandler where
  device : Device
  resumeOnWake : Bool := false
  callback : SleepPoint := .idle
  wakes : List WakePoint := []
  /-- a sleep was acknowledged, and no full wake came since -/
  asleep : Bool := false

namespace PowerHandler

variable (C : Crates) (s : PowerHandler)

/-- `status().online`, false where there is no network. -/
def online : Bool := s.device.config.isSome && s.device.doc.isSome

/-- A power event: the callback takes the next one once it is done with the last. -/
def event (t : Transition) : PowerHandler :=
  if s.callback ≠ .idle then s
  else
    match t with
    | .sleep => { s with callback := .checking }
    | .darkWake => s
    | .fullWake => { s with asleep := false, wakes := s.wakes ++ [.swapping] }

/-- What the callback does next: `on_sleep`, and the acknowledgement. -/
def sleepNext (i : Inputs) : PowerHandler :=
  match s.callback with
  | .idle => s
  | .checking => { s with callback := if s.online then .marking else .acking }
  | .marking => { s with resumeOnWake := true, callback := .leaving .offline }
  | .leaving j =>
    let (d, j) := runCall C s.device i j
    { s with
      device := d
      callback := match j with
        | .returned _ => .acking
        | j => .leaving j }
  | .acking => { s with callback := .idle, asleep := true }

/-- What a task of `on_wake` does next. -/
def wakeNext (k : Nat) (i : Inputs) : PowerHandler :=
  match s.wakes[k]? with
  | some .swapping =>
    { s with
      resumeOnWake := false
      wakes := s.wakes.set k (if s.resumeOnWake then .joining .online else .done) }
  | some (.joining j) =>
    let (d, j) := runCall C s.device i j
    { s with
      device := d
      wakes := s.wakes.set k (match j with
        | .returned _ => .done
        | j => .joining j) }
  | some .done => s
  | none => s

inductive PowerAct where
  | event (capabilities : UInt32)
  | callback (i : Inputs)
  | wake (k : Nat) (i : Inputs)
  /-- the rest of the engine -/
  | engine (d : Device)

def step : PowerAct → PowerHandler
  | .event capabilities => s.event (classify capabilities)
  | .callback i => s.sleepNext C i
  | .wake k i => s.wakeNext C k i
  | .engine d => { s with device := d }

/-! ## 3. The property and the condition -/

/-- Awake, and all tasks finished. -/
def Settled : Prop :=
  s.asleep = false ∧ s.callback = .idle ∧ ∀ w ∈ s.wakes, w = .done

/-- **Offline while asleep, and as before once awake**: `wanted` is whether the device was online
    before the first sleep. -/
structure KeepsFaith (wanted : Bool) : Prop where
  offline : s.asleep = true → s.device.doc = none
  restored : s.Settled → s.device.doc.isSome = wanted

/-- **A task of `on_wake` is not disturbed.**
    * It does not look whether the device is connected while `on_sleep` disconnects it.
    * Its connection does not fail.
    * It does not commit between the end of `on_sleep` and the next full wake. -/
def undisturbed (i : Inputs) : WakePoint → Bool
  | .joining .online => !s.callback.leaves
  | .joining .onlineRead => (s.device.config.or (s.device.loadConfig i.keystore)).isSome
  | .joining (.opening _ _) => i.opened.isOk
  | .joining (.committing _ _ _ _) => !s.asleep && s.callback ≠ .acking
  | _ => true

/-- **The condition on a step**: no task is disturbed, and the rest of the engine does not connect,
    disconnect or leave the network. -/
def Undisturbed : PowerAct → Prop
  | .engine d =>
    d.doc.isSome = s.device.doc.isSome ∧ d.config.isSome = s.device.config.isSome
  | .wake k i => ∀ w ∈ s.wakes[k]?, s.undisturbed i w = true
  | _ => True

instance decidableUndisturbed : ∀ a, Decidable (s.Undisturbed a)
  | .engine _ => inferInstanceAs (Decidable (_ ∧ _))
  | .wake k i => inferInstanceAs (Decidable (∀ w ∈ s.wakes[k]?, s.undisturbed i w = true))
  | .event _ | .callback _ => isTrue trivial

/-! ## 4. Where the intent is -/

/-- How often the intent is carried beside the network: by the flag, and by the tasks that have
    taken it. -/
def carriers : Nat := (if s.resumeOnWake then 1 else 0) + s.wakes.countP WakePoint.joins

/-- A stretch of `set_online(true)`. -/
def Joins : Job → Prop
  | .online | .onlineRead => True
  | .opening _ p | .committing _ _ _ p => p = .online
  | _ => False

/-- What holds at each point of the callback. -/
def AtCallback (s : PowerHandler) : SleepPoint → Prop
  | .idle | .checking => True
  | .marking => s.device.doc.isSome = true
  | .leaving j =>
    s.device.doc.isSome = true ∧ (j = .offline ∨ j = .reset .offline) ∧
      ∀ j', WakePoint.joining j' ∈ s.wakes → j' = .online
  | .acking => s.device.doc = none

/-- **The intent is in one place**: in the network, unless `on_sleep` is taking that down; else
    with one carrier, if the device was online to begin with, and with none if it was not. -/
structure Carried (wanted : Bool) (s : PowerHandler) : Prop where
  config : s.device.doc.isSome = true → s.device.config.isSome = true
  joins : ∀ j, WakePoint.joining j ∈ s.wakes → Joins j
  callback : AtCallback s s.callback
  asleep : s.asleep = true → s.device.doc = none
  connected : s.device.doc.isSome = true → wanted = true
  intent : s.carriers =
    if s.device.doc.isSome && !s.callback.leaves then 0 else wanted.toNat
  /-- while it is with the flag, the device sleeps or is about to, or a task will take it -/
  flag : s.resumeOnWake = true → s.asleep = true ∨ s.callback.leaves = true ∨
    s.callback = .acking ∨ WakePoint.swapping ∈ s.wakes

variable {C} {s} {wanted : Bool} {k : Nat} {j : Job} {i : Inputs}

theorem mem_of_getElem? {w : WakePoint} (hk : s.wakes[k]? = some w) : w ∈ s.wakes :=
  List.mem_of_getElem? hk

/-- A task goes on: what it was counts no longer, what it is does. -/
theorem countP_set {w : WakePoint} (w' : WakePoint) (hk : s.wakes[k]? = some w) :
    (s.wakes.set k w').countP WakePoint.joins + (if w.joins then 1 else 0) =
      s.wakes.countP WakePoint.joins + (if w'.joins then 1 else 0) := by
  obtain ⟨hlt, hw⟩ := List.getElem?_eq_some_iff.mp hk
  rw [List.countP_set hlt, hw]
  have hpos : w.joins = true → 0 < s.wakes.countP WakePoint.joins := fun hj =>
    List.countP_pos_iff.mpr ⟨w, List.mem_of_getElem? hk, hj⟩
  cases hj : w.joins with
  | false => simp
  | true =>
    have := hpos hj
    simp
    omega

/-- **A task that has taken the intent** is the one carrier, and the device is not online. -/
theorem Carried.of_joining (h : Carried wanted s) (hk : s.wakes[k]? = some (.joining j))
    (hleaves : s.callback.leaves = false) :
    s.device.doc = none ∧ s.resumeOnWake = false ∧ s.carriers = 1 ∧ wanted = true := by
  have hone : 0 < s.wakes.countP WakePoint.joins :=
    List.countP_pos_iff.mpr ⟨_, List.mem_of_getElem? hk, rfl⟩
  have hintent := h.intent
  rw [hleaves, Bool.not_false, Bool.and_true] at hintent
  have hcarriers : 0 < s.carriers := by
    rw [carriers]
    omega
  cases hdoc : s.device.doc with
  | some doc =>
    rw [hdoc, Option.isSome_some, if_pos rfl] at hintent
    omega
  | none =>
    rw [hdoc] at hintent
    have hw : s.carriers = wanted.toNat := hintent
    cases wanted with
    | false => simp [hw] at hcarriers
    | true =>
      refine ⟨rfl, ?_, hw, rfl⟩
      rw [carriers] at hw
      cases hr : s.resumeOnWake with
      | false => rfl
      | true =>
        rw [hr, if_pos rfl] at hw
        have hnat : true.toNat = 1 := rfl
        omega

/-- What holds at a point of the callback holds on where the device is connected as before, and
    no task gets past its first look while `on_sleep` disconnects it. -/
theorem AtCallback.of_doc {s' : PowerHandler} {c : SleepPoint} (hat : AtCallback s c)
    (hdoc : s'.device.doc.isSome = s.device.doc.isSome)
    (hwakes : c.leaves = true → ∀ j, WakePoint.joining j ∈ s'.wakes →
      WakePoint.joining j ∈ s.wakes ∨ j = .online) : AtCallback s' c := by
  cases c with
  | idle => trivial
  | checking => trivial
  | marking => exact hdoc.trans hat
  | leaving j =>
    obtain ⟨hon, hj, hall⟩ := hat
    refine ⟨hdoc.trans hon, hj, fun j' hj' => ?_⟩
    rcases hwakes rfl j' hj' with hj' | rfl
    · exact hall j' hj'
    · rfl
  | acking =>
    have hnone : s.device.doc = none := hat
    rw [hnone] at hdoc
    exact Option.not_isSome_iff_eq_none.mp (by rw [hdoc]; decide)

/-- **A flag that no callback looks after** waits for the next full wake, or for a task that is
    there. -/
theorem Carried.flag_left (h : Carried wanted s) (hleaves : s.callback.leaves = false)
    (hack : s.callback ≠ .acking) (hr : s.resumeOnWake = true) :
    s.asleep = true ∨ WakePoint.swapping ∈ s.wakes := by
  rcases h.flag hr with ha | hl | hc | hm
  · exact Or.inl ha
  · rw [hleaves] at hl
    cases hl
  · exact absurd hc hack
  · exact Or.inr hm

/-! ## 5. One step -/

/-- The device between two stretches of a connection: as far as the intent goes, it is the same. -/
theorem Carried.goesOn (h : Carried wanted s) (hk : s.wakes[k]? = some (.joining j))
    (hleaves : s.callback.leaves = false) {d : Device} {j' : Job} (hj' : Joins j')
    (hdoc : d.doc = s.device.doc) (hconfig : d.config = s.device.config) :
    Carried wanted { s with device := d, wakes := s.wakes.set k (.joining j') } := by
  obtain ⟨hnone, hflag, -, -⟩ := h.of_joining hk hleaves
  have hcount := countP_set (.joining j') hk
  have hcb : AtCallback { s with device := d, wakes := s.wakes.set k (.joining j') }
      s.callback :=
    h.callback.of_doc (congrArg Option.isSome hdoc) fun hl => absurd hl (by rw [hleaves]; decide)
  refine ⟨fun hd => ?_, fun j hj => ?_, hcb, fun ha => hdoc.trans (h.asleep ha), fun hd => ?_, ?_,
    fun hr => ?_⟩
  · exact hconfig ▸ h.config (hdoc ▸ hd)
  · rcases List.mem_or_eq_of_mem_set hj with hj | hj
    · exact h.joins j hj
    · obtain rfl := WakePoint.joining.inj hj
      exact hj'
  · exact h.connected (hdoc ▸ hd)
  · have hintent := h.intent
    rw [← hdoc] at hintent
    rw [← hintent]
    simp only [carriers, WakePoint.joins, if_true] at hcount ⊢
    omega
  · exact absurd hr (by rw [hflag]; decide)

/-- While `on_sleep` disconnects, the tasks that have taken the intent have not looked yet. -/
theorem Carried.not_leaves (h : Carried wanted s) (hk : s.wakes[k]? = some (.joining j))
    (hj : j ≠ .online) : s.callback.leaves = false := by
  have hat := h.callback
  cases hc : s.callback with
  | leaving j' =>
    rw [hc] at hat
    exact absurd (hat.2.2 j (List.mem_of_getElem? hk)) hj
  | _ => rfl

/-- **The commit**: the intent is back in the network. -/
theorem Carried.commits (h : Carried wanted s) (hk : s.wakes[k]? = some (.joining j))
    (hj : j ≠ .online) (hawake : s.asleep = false) (hack : s.callback ≠ .acking) {d : Device}
    (hdoc : d.doc.isSome = true) (hconfig : d.config.isSome = true) :
    Carried wanted { s with device := d, wakes := s.wakes.set k .done } := by
  have hleaves := h.not_leaves hk hj
  obtain ⟨hnone, hflag, hone, hwanted⟩ := h.of_joining hk hleaves
  have hcount := countP_set .done hk
  have hcb : AtCallback { s with device := d, wakes := s.wakes.set k .done } s.callback := by
    cases hc : s.callback with
    | idle => trivial
    | checking => trivial
    | marking => exact hdoc
    | leaving j =>
      rw [hc] at hleaves
      cases hleaves
    | acking => exact absurd hc hack
  refine ⟨fun _ => hconfig, fun j hj => ?_, hcb, fun ha => ?_, fun _ => hwanted, ?_, fun hr => ?_⟩
  · rcases List.mem_or_eq_of_mem_set hj with hj | hj
    · exact h.joins j hj
    · cases hj
  · rw [hawake] at ha
    cases ha
  · have hzero : (s.wakes.set k .done).countP WakePoint.joins = 0 := by
      simp only [carriers, WakePoint.joins, hflag, if_true, Bool.false_eq_true, if_false]
        at hone hcount
      omega
    simp only [carriers, hdoc, hleaves, hflag, Bool.not_false, Bool.and_true, if_true,
      Bool.false_eq_true, if_false, Nat.zero_add]
    exact hzero
  · exact absurd hr (by rw [hflag]; decide)

/-- **A task takes the flag back**, or finds nothing to do. -/
theorem Carried.swaps (h : Carried wanted s) (hk : s.wakes[k]? = some .swapping) :
    Carried wanted { s with
      resumeOnWake := false
      wakes := s.wakes.set k (if s.resumeOnWake then .joining .online else .done) } := by
  have hjoins : ∀ w : WakePoint, (∀ j, w = .joining j → j = .online) →
      ∀ j, WakePoint.joining j ∈ s.wakes.set k w → WakePoint.joining j ∈ s.wakes ∨ j = .online := by
    intro w hw j hj
    rcases List.mem_or_eq_of_mem_set hj with hj | rfl
    · exact Or.inl hj
    · exact Or.inr (hw j rfl)
  have honline : ∀ j, (if s.resumeOnWake then WakePoint.joining .online else .done) = .joining j →
      j = .online := by
    intro j hj
    cases hr : s.resumeOnWake with
    | true =>
      rw [hr, if_pos rfl] at hj
      exact (WakePoint.joining.inj hj).symm
    | false =>
      rw [hr] at hj
      cases hj
  refine ⟨h.config, fun j hj => ?_, h.callback.of_doc rfl fun _ => hjoins _ honline, h.asleep,
    h.connected, ?_, fun hr => by cases hr⟩
  · rcases hjoins _ honline j hj with hj | rfl
    · exact h.joins j hj
    · trivial
  · -- the flag and the task change places
    have hintent := h.intent
    have hcount := countP_set
      (if s.resumeOnWake then .joining .online else .done) hk
    show carriers _ = _
    rw [← hintent]
    cases hr : s.resumeOnWake with
    | true =>
      simp only [carriers, hr, WakePoint.joins, if_true, Bool.false_eq_true, if_false] at hcount ⊢
      omega
    | false =>
      simp only [carriers, hr, WakePoint.joins, Bool.false_eq_true, if_false] at hcount ⊢
      omega

/-- An event: a full wake starts a task. -/
theorem Carried.event (h : Carried wanted s) (t : Transition) : Carried wanted (s.event t) := by
  unfold PowerHandler.event
  by_cases hidle : s.callback = .idle
  · rw [if_neg (not_not.mpr hidle)]
    have hintent := h.intent
    rw [hidle] at hintent
    cases t with
    | sleep =>
      refine ⟨h.config, h.joins, trivial, h.asleep, h.connected, hintent, fun hr => ?_⟩
      have hleft := h.flag_left (by rw [hidle]; rfl) (by rw [hidle]; decide) hr
      exact hleft.imp_right fun hm => Or.inr (Or.inr hm)
    | darkWake => exact h
    | fullWake =>
      have hjoins : ∀ j, WakePoint.joining j ∈ s.wakes ++ [.swapping] →
          WakePoint.joining j ∈ s.wakes := by
        intro j hj
        rcases List.mem_append.mp hj with hj | hj
        · exact hj
        · cases List.mem_singleton.mp hj
      refine ⟨h.config, fun j hj => h.joins j (hjoins j hj), ?_, (fun ha => by cases ha),
        h.connected, ?_, fun hr => ?_⟩
      · show AtCallback _ s.callback
        rw [hidle]
        trivial
      · rw [← h.intent]
        simp [carriers, WakePoint.joins]
      · exact Or.inr (Or.inr (Or.inr (List.mem_append_right _ (List.mem_singleton_self _))))
  · rwa [if_pos hidle]

/-- The rest of the engine goes on. -/
theorem Carried.engine (h : Carried wanted s) {d : Device}
    (hdoc : d.doc.isSome = s.device.doc.isSome)
    (hconfig : d.config.isSome = s.device.config.isSome) :
    Carried wanted { s with device := d } := by
  have hnone : s.device.doc = none → d.doc = none := by
    intro hs
    rw [hs] at hdoc
    exact Option.not_isSome_iff_eq_none.mp (by rw [hdoc]; decide)
  refine ⟨fun hd => ?_, h.joins, h.callback.of_doc hdoc fun _ j hj => Or.inl hj,
    fun ha => hnone (h.asleep ha), fun hd => ?_, ?_, h.flag⟩
  · exact hconfig.trans (h.config (hdoc.symm.trans hd))
  · exact h.connected (hdoc.symm.trans hd)
  · show s.carriers = _
    rw [h.intent, hdoc]

/-- The status says whether the device is connected. -/
theorem Carried.online_eq (h : Carried wanted s) : s.online = s.device.doc.isSome := by
  rw [online]
  cases hdoc : s.device.doc with
  | none => rw [Option.isSome_none, Bool.and_false]
  | some doc => rw [h.config (by rw [hdoc]; rfl), Option.isSome_some, Bool.true_and]

/-- **`on_sleep` sets the flag**: until then the device is online, and nobody carries the intent. -/
theorem Carried.marks (h : Carried wanted s) (hc : s.callback = .marking) :
    Carried wanted { s with resumeOnWake := true, callback := .leaving .offline } := by
  have hdoc : s.device.doc.isSome = true := by
    have hat := h.callback
    rw [hc] at hat
    exact hat
  have hnobody : s.wakes.countP WakePoint.joins = 0 := by
    have hintent := h.intent
    rw [hdoc, hc, carriers] at hintent
    simp only [SleepPoint.leaves, Bool.not_false, Bool.and_true, if_true] at hintent
    omega
  refine ⟨h.config, h.joins, ⟨hdoc, Or.inl rfl, fun j hj => ?_⟩, h.asleep, h.connected, ?_,
    fun _ => Or.inr (Or.inl rfl)⟩
  · exact absurd rfl (List.countP_eq_zero.mp hnobody _ hj)
  · simp only [carriers, hdoc, SleepPoint.leaves, h.connected hdoc, hnobody, if_true, Bool.not_true,
      Bool.and_false, Bool.false_eq_true, if_false]
    rfl

/-- **The callback's next step.** -/
theorem Carried.sleepNext (h : Carried wanted s) (i : Inputs) :
    Carried wanted (s.sleepNext C i) := by
  have hat := h.callback
  have hintent := h.intent
  cases hc : s.callback with
  | idle => rwa [PowerHandler.sleepNext, hc]
  | checking =>
    rw [hc] at hintent
    have hflag' := h.flag_left (by rw [hc]; rfl) (by rw [hc]; decide)
    rw [PowerHandler.sleepNext, hc, h.online_eq]
    cases hdoc : s.device.doc with
    | some doc =>
      refine ⟨h.config, h.joins, ?_, h.asleep, h.connected, hintent, fun hr => ?_⟩
      · show s.device.doc.isSome = true
        rw [hdoc]
        rfl
      · exact (hflag' hr).imp_right fun hm => Or.inr (Or.inr hm)
    | none =>
      refine ⟨h.config, h.joins, hdoc, h.asleep, h.connected, hintent, fun hr => ?_⟩
      exact (hflag' hr).imp_right fun hm => Or.inr (Or.inr hm)
  | marking =>
    rw [PowerHandler.sleepNext, hc]
    exact h.marks hc
  | leaving j =>
    rw [hc] at hat hintent
    obtain ⟨hdoc, rfl | rfl, hall⟩ := hat
    · rw [PowerHandler.sleepNext, hc]
      exact ⟨h.config, h.joins, ⟨hdoc, Or.inr rfl, hall⟩, h.asleep, h.connected, hintent,
        fun _ => Or.inr (Or.inl rfl)⟩
    · -- the state is reset: the intent is with its carrier alone
      rw [PowerHandler.sleepNext, hc]
      refine ⟨fun hd => (by cases hd), h.joins, rfl, fun _ => rfl, fun hd => (by cases hd), ?_,
        fun _ => Or.inr (Or.inr (Or.inl rfl))⟩
      rw [hdoc] at hintent
      exact hintent
  | acking =>
    rw [hc] at hat hintent
    rw [PowerHandler.sleepNext, hc]
    exact ⟨h.config, h.joins, trivial, fun _ => hat, h.connected, hintent, fun _ => Or.inl rfl⟩

/-- **The next step of a task**, where it is not disturbed. -/
theorem Carried.wakeNext (h : Carried wanted s) (hu : s.Undisturbed (.wake k i)) :
    Carried wanted (s.wakeNext C k i) := by
  cases hk : s.wakes[k]? with
  | none => rwa [PowerHandler.wakeNext, hk]
  | some w =>
    cases w with
    | swapping =>
      rw [PowerHandler.wakeNext, hk]
      exact h.swaps hk
    | done => rwa [PowerHandler.wakeNext, hk]
    | joining j =>
      have hj := h.joins j (List.mem_of_getElem? hk)
      rw [PowerHandler.wakeNext, hk]
      have hu : s.undisturbed i (.joining j) = true := hu _ hk
      cases j with
      | online =>
        -- the device is offline, so the look does not end it
        have hleaves : s.callback.leaves = false := by simpa [undisturbed] using hu
        obtain ⟨hnone, -⟩ := h.of_joining hk hleaves
        have hcall : runCall C s.device i .online =
            ({ s.device with wantsOffline := false }, .onlineRead) := by
          simp [runCall, hnone]
        simp only [hcall]
        exact h.goesOn hk hleaves trivial rfl rfl
      | onlineRead =>
        obtain ⟨cfg, hcfg⟩ := Option.isSome_iff_exists.mp hu
        have hcall : runCall C s.device i .onlineRead = (s.device, .opening cfg .online) := by
          simp only [runCall, hcfg]
        simp only [hcall]
        exact h.goesOn hk (h.not_leaves hk (fun he => by cases he)) rfl rfl rfl
      | opening cfg p =>
        obtain rfl : p = .online := hj
        obtain ⟨author, hopened⟩ : ∃ author, i.opened = .ok author := by
          cases ho : i.opened with
          | ok author => exact ⟨author, rfl⟩
          | error e =>
            rw [undisturbed, ho] at hu
            cases hu
        have hcall : runCall C s.device i (.opening cfg .online) =
            (s.device.arm, .committing cfg (cfg.secret.doc C) author .online) := by
          simp only [runCall, hopened]
        simp only [hcall]
        exact h.goesOn hk (h.not_leaves hk (fun he => by cases he)) rfl rfl rfl
      | committing cfg doc author p =>
        obtain rfl : p = .online := hj
        have hawake : s.asleep = false ∧ s.callback ≠ .acking := by simpa [undisturbed] using hu
        exact h.commits hk (fun he => by cases he) hawake.1 hawake.2 rfl rfl
      | _ => exact hj.elim

/-- **The step lemma.** -/
theorem Carried.step (h : Carried wanted s) {a : PowerAct} (hu : s.Undisturbed a) :
    Carried wanted (s.step C a) := by
  cases a with
  | event capabilities => exact h.event _
  | callback i => exact h.sleepNext i
  | wake k i => exact h.wakeNext hu
  | engine d => exact h.engine hu.1 hu.2

/-! ## 6. Every run -/

/-- Where the intent is in one place, it is kept. -/
theorem Carried.keepsFaith (h : Carried wanted s) : s.KeepsFaith wanted where
  offline := h.asleep
  restored := by
    rintro ⟨hawake, hidle, hdone⟩
    have hnobody : s.wakes.countP WakePoint.joins = 0 := by
      refine List.countP_eq_zero.mpr fun w hw => ?_
      rw [hdone w hw]
      decide
    have hintent := h.intent
    rw [hidle, carriers, hnobody] at hintent
    cases hdoc : s.device.doc with
    | some doc => exact (h.connected (by rw [hdoc]; rfl)).symm
    | none =>
      -- no task is left to take the flag, so it is not set
      have hr : s.resumeOnWake = false := by
        by_contra hr
        rcases h.flag_left (by rw [hidle]; rfl) (by rw [hidle]; decide)
          (Bool.not_eq_false _ ▸ hr) with ha | hm
        · rw [hawake] at ha
          cases ha
        · cases hdone _ hm
      rw [hr, hdoc] at hintent
      cases wanted with
      | false => rfl
      | true => cases hintent

/-- The handler of a device that is awake, before its first sleep. -/
def fresh (d : Device) : PowerHandler := { device := d }

theorem carried_fresh {d : Device} (hconfig : d.doc.isSome = true → d.config.isSome = true) :
    Carried d.doc.isSome (fresh d) := by
  refine ⟨hconfig, (fun j hj => by cases hj), trivial, (fun ha => by cases ha), fun hd => hd, ?_,
    fun hr => by cases hr⟩
  show 0 = if d.doc.isSome && !false then 0 else d.doc.isSome.toNat
  cases d.doc <;> rfl

/-- **Sleep and wake**: from a device that is online only with a network, over every sequence of
    power events and every interleaving of the callback, the tasks and the rest of the engine
    whose steps are undisturbed, the device is offline from every acknowledgement to the next full
    wake; and whenever it is awake with all tasks finished, it is online exactly if it was
    before the first sleep. -/
theorem sleep_keeps_faith (C : Crates) (d : Device) (l : List PowerAct)
    (hconfig : d.doc.isSome = true → d.config.isSome = true)
    (h : EachStep (step C) Undisturbed (fresh d) l) :
    Throughout (step C) (fun s => s.KeepsFaith d.doc.isSome) (fresh d) l := by
  intro pre post hl
  rw [hl, eachStep_append] at h
  exact (run_invariant_of_eachStep (I := Carried d.doc.isSome) (fun s a hs hu => hs.step hu)
    (carried_fresh hconfig) h.1).keepsFaith

namespace Sample

/-- Sleep: the CPU leaves. -/
def sleeps (steps : Nat) : List PowerAct := .event 0 :: List.replicate steps (.callback {})

/-- Sleep, a dark wake, and a full wake whose task runs to its end. -/
def night : List PowerAct :=
  sleeps 5 ++ [.event 0x09, .event 0x0f] ++ List.replicate 5 (.wake 0 {})

/-- Behind a full wake the machine sleeps again before the task has committed; then it does. -/
def shortWake : List PowerAct :=
  sleeps 5 ++ [.event 0x0f] ++ List.replicate 4 (.wake 0 {}) ++ sleeps 2 ++ [.wake 0 {}]

end Sample

theorem sleep_keeps_faith_night :
    Throughout (step .plain) (fun s => s.KeepsFaith true) (fresh Nullgate.Sample.isolated)
      Sample.night :=
  sleep_keeps_faith .plain Nullgate.Sample.isolated Sample.night (fun _ => rfl) (by decide +kernel)

/-- **A device wakes to sleep, and connects in its sleep.** -/
theorem wakes_asleep :
    ((run (step .plain) (fresh Nullgate.Sample.isolated) Sample.shortWake).asleep = true ∧
      (run (step .plain) (fresh Nullgate.Sample.isolated) Sample.shortWake).device.doc.isSome =
        true) ∧
    ¬ Throughout (step .plain) (fun s => s.KeepsFaith true) (fresh Nullgate.Sample.isolated)
      Sample.shortWake := by
  have hrun : (run (step .plain) (fresh Nullgate.Sample.isolated) Sample.shortWake).asleep =
        true ∧
      (run (step .plain) (fresh Nullgate.Sample.isolated) Sample.shortWake).device.doc.isSome =
        true := by decide +kernel
  refine ⟨hrun, fun h => ?_⟩
  have hnone := (throughout_end h).offline hrun.1
  have hsome := hrun.2
  rw [hnone] at hsome
  cases hsome

end PowerHandler

end Nullgate
