/-
  File:      Nullgate/Lifecycle/Recovery.lean
  Subject:   A REBUILD AND WHAT COMES OF IT: a device whose rebuild fails is healthy ever after.

  `rebuild_node` goes offline first and activates the stored config last; where it fails in
  between, the device stays offline. `health_check` takes a device that is offline for one whose
  user went offline, and has nothing to check.

  * `RebuildAt`: where a rebuild stands that runs alone, and the device with it;
  * `Stalled`: offline, and nothing in flight would go online;
  * `rebuild_stalls`: behind a rebuild that has failed, wherever it did, every health check
    reports a healthy device, counts no strike and rebuilds nothing.
-/
import Nullgate.Lifecycle.Effects

namespace Nullgate

open Nullgate.Lib

/-! ## 1. A rebuild alone -/

/-- The config is as it was, and the device is offline, with no connection. -/
structure Disconnected (d₀ d : Device) : Prop where
  config : d.config = d₀.config
  doc : d.doc = none
  conns : d.mesh.conns = ∅

/-- **Where the rebuild of a device stands**, and what it has done so far. -/
def RebuildAt (d₀ d : Device) : Job → Prop
  | .rebuild | .rebuildRead => d.config = d₀.config ∧ d.doc = d₀.doc
  | .reset (.rebuild cfg) => cfg = d₀.config ∧ d.config = d₀.config ∧ d.mesh.conns = ∅
  | .spawning cfg => cfg = d₀.config ∧ Disconnected d₀ d
  | .opening cfg .rebuild | .committing cfg _ _ .rebuild => d₀.config = some cfg ∧ Disconnected d₀ d
  | .checked .rebuilt => d.config = d₀.config ∧ d.doc.isSome = d₀.config.isSome
  | .checked .failed => Disconnected d₀ d
  | _ => False

variable {C : Crates} {d d₀ : Device} {j j' : Job} {i : Inputs} {w : World Device Job}
  {a : Act Job Inputs Arrival}

theorem rebuildAt_arrive (e : Arrival) (h : RebuildAt d₀ d j) : RebuildAt d₀ (arrive d e) j := by
  obtain ⟨hconfig, -, -, hdoc, hconns⟩ := arriveEffect d e
  have hdisc : Disconnected d₀ d → Disconnected d₀ (arrive d e) := fun h =>
    ⟨hconfig.trans h.config, hdoc.trans h.doc, hconns.trans h.conns⟩
  unfold RebuildAt at h ⊢
  split at h
  · exact ⟨hconfig.trans h.1, hdoc.trans h.2⟩
  · exact ⟨hconfig.trans h.1, hdoc.trans h.2⟩
  · exact ⟨h.1, hconfig.trans h.2.1, hconns.trans h.2.2⟩
  · exact ⟨h.1, hdisc h.2⟩
  · exact ⟨h.1, hdisc h.2⟩
  · exact ⟨h.1, hdisc h.2⟩
  · exact ⟨hconfig.trans h.1, hdoc ▸ h.2⟩
  · exact hdisc h
  · exact h.elim

/-- **A rebuild goes its way**, up to where it fails or has activated what it had read. -/
theorem rebuildAt_run (i : Inputs) (h : RebuildAt d₀ d j) :
    RebuildAt d₀ (runCall C d i j).1 (runCall C d i j).2 := by
  unfold RebuildAt at h
  split at h
  · simp only [runCall]
    split
    · exact h
    · exact h
  · exact ⟨h.1, h.1, rfl⟩
  · exact ⟨h.1, h.2.1, rfl, h.2.2⟩
  · rename_i cfg
    simp only [runCall]
    split
    · exact ⟨h.2.config, h.2.doc, h.2.conns⟩
    · split
      · exact ⟨h.2.config, h.2.doc, h.2.conns⟩
      · cases cfg with
        | some cfg => exact ⟨h.1.symm, h.2⟩
        | none => exact ⟨h.2.config, by rw [← h.1]; exact congrArg _ h.2.doc⟩
  · simp only [runCall]
    split
    · exact ⟨h.1, h.2.config, h.2.doc, h.2.conns⟩
    · exact ⟨h.2.config, h.2.doc, h.2.conns⟩
  · exact ⟨h.1.symm, by rw [h.1]; rfl⟩
  · exact h
  · exact h
  · exact h.elim

/-- It is no task of the engine, and no client holds it. -/
theorem drop_rebuildAt (h : RebuildAt d₀ d j) : j.isTask = false ∧ j.drop = none := by
  unfold RebuildAt at h
  split at h <;> first | exact ⟨rfl, rfl⟩ | exact h.elim

/-- **A rebuild alone**, at every point of its run. -/
theorem rebuildAt_alone {l : List (Act Job Inputs Arrival)} (hl : ∀ a ∈ l, a.solo) :
    (run (lifecycle C).step ⟨d, [.rebuild]⟩ l).Alone (RebuildAt d) := by
  refine run_invariant (I := World.Alone (RebuildAt d)) (fun w a ha hw => ?_)
    ⟨.rebuild, rfl, rfl, rfl⟩
  refine call_alone hw (hl a ha) (fun j hj => (drop_rebuildAt hj).1)
    (fun i j hj => rebuildAt_run i hj) (fun j j' hd hj => ?_) fun j e _ hj => rebuildAt_arrive e hj
  rw [(drop_rebuildAt hj).2] at hd
  cases hd

/-- A rebuild that has failed leaves the device offline. -/
theorem disconnected_of_failed {l : List (Act Job Inputs Arrival)} (hl : ∀ a ∈ l, a.solo)
    (h : (run (lifecycle C).step ⟨d, [.rebuild]⟩ l).tasks = [.checked .failed]) :
    Disconnected d (run (lifecycle C).step ⟨d, [.rebuild]⟩ l).shared := by
  obtain ⟨j, hj, hat⟩ := rebuildAt_alone (C := C) (d := d) hl
  obtain rfl := List.singleton_inj.mp (hj.symm.trans h)
  exact hat

/-! ## 2. Offline for good -/

namespace Job

/-- The tick, what it has dialed, and what a health check has come to. -/
def checking : Job → Bool
  | .task _ _ | .health | .burst | .checked _ => true
  | _ => false

/-- No client waits for it. -/
theorem not_requested_of_checking {j : Job} (h : j.checking = true) : j.requested = false := by
  cases j <;> first | rfl | cases h

end Job

/-- **The device is offline**, and nothing in flight would go online. -/
def Stalled (w : World Device Job) : Prop :=
  w.Inv (fun d => d.doc = none) fun _ j => j.checking = true

/-- A health check starts or goes on, the tick does, or something happens outside. -/
def Checks : Act Job Inputs Arrival → Prop
  | .start j => j.checking = true
  | _ => True

/-- **The health check reports a healthy device**: no strike, no rebuild. -/
def ReportsHealthy (C : Crates) (w : World Device Job) (a : Act Job Inputs Arrival) : Prop :=
  ∀ k i, a = .go k i → w.tasks[k]? = some .health →
    ((lifecycle C).step w a).tasks[k]? = some (.checked .healthy) ∧
      ((lifecycle C).step w a).shared.unhealthyChecks = 0

theorem stalled_run (i : Inputs) (hdoc : d.doc = none) (hj : j.checking = true) :
    (runJob C d i j).1.doc = none ∧ (runJob C d i j).2.1.checking = true ∧
      ∀ j' ∈ (runJob C d i j).2.2, j'.checking = true := by
  cases j with
  | task r t =>
    have he := taskEffect (C := C) d i r t
    refine ⟨?_, rfl, fun j' hj' => ?_⟩
    · show (d.runTask C i r t).1.doc = none
      rw [he.doc, hdoc, ite_self]
    · obtain ⟨t', -, rfl⟩ := List.mem_map.mp hj'
      rfl
  | health =>
    have hhealthy : d.healthy = true := by rw [Device.healthy, hdoc]; rfl
    simp only [runJob, runCall, hhealthy, if_true]
    exact ⟨hdoc, rfl, List.forall_mem_nil _⟩
  | burst =>
    refine ⟨?_, rfl, List.forall_mem_nil _⟩
    show (d.recoveryBurst i.now).doc = none
    rw [d.recoveryBurst_eq]
    exact hdoc
  | checked action => exact ⟨hdoc, rfl, List.forall_mem_nil _⟩
  | _ => cases hj

theorem stalled_step (h : Stalled w) (ha : Checks a) : Stalled ((lifecycle C).step w a) := by
  refine Program.step_inv h (fun k i j _ hk => ?_) (fun j hj _ => ?_) (fun j j' hd hj => ?_)
    fun e _ => ⟨(arriveEffect w.shared e).doc.trans h.shared, fun _ h => h⟩
  · obtain ⟨hdoc, hnext, hspawned⟩ :=
      stalled_run (C := C) i h.shared (h.tasks j (List.mem_of_getElem? hk))
    exact ⟨hdoc, hnext, hspawned, fun _ h => h⟩
  · subst hj
    exact ha
  · rcases Job.drop_cases hd with ⟨hreq, -⟩ | ⟨r, t, t', -, -, rfl⟩
    · rw [Job.not_requested_of_checking hj] at hreq
      cases hreq
    · rfl

/-- **A health check of a device that is offline reports a healthy one.** -/
theorem reportsHealthy_of_stalled (h : Stalled w) : ReportsHealthy C w a := by
  intro k i ha hk
  subst ha
  have hdoc : w.shared.doc = none := h.shared
  have hhealthy : w.shared.healthy = true := by rw [Device.healthy, hdoc]; rfl
  rw [Program.step_go hk]
  have hrun : (lifecycle C).stretch w.shared i .health =
      ({ w.shared with unhealthyChecks := 0 }, .checked .healthy, []) := by
    show runJob C w.shared i .health = _
    simp only [runJob, runCall, hhealthy, if_true]
  rw [hrun]
  exact ⟨getElem?_stretch_self hk, rfl⟩

/-! ## 3. The ladder -/

/-- With no connection, the health check counts a strike or attempts a rebuild. -/
def Escalates (C : Crates) (w : World Device Job) (a : Act Job Inputs Arrival) : Prop :=
  ∀ k i, a = .go k i → w.tasks[k]? = some .health → w.shared.mesh.conns = ∅ →
    w.shared.unhealthyChecks < ((lifecycle C).step w a).shared.unhealthyChecks ∨
      ((lifecycle C).step w a).tasks[k]? = some .rebuild

/-- **The recovery ladder goes on**: in every later sequence of health checks each of them
    escalates. -/
def KeepsEscalating (C : Crates) (w : World Device Job) : Prop :=
  ∀ l, (∀ a ∈ l, a = .start .health ∨ ∃ k i, a = .go k i) →
    EachStep (lifecycle C).step (Escalates C) w l

theorem eachStep_of_stalled {l : List (Act Job Inputs Arrival)} (h : Stalled w)
    (hl : ∀ a ∈ l, Checks a) : EachStep (lifecycle C).step (ReportsHealthy C) w l := by
  induction l generalizing w with
  | nil => trivial
  | cons a l ih =>
    exact ⟨reportsHealthy_of_stalled h,
      ih (stalled_step h (hl a List.mem_cons_self)) fun a' ha' =>
        hl a' (List.mem_cons_of_mem _ ha')⟩

/-- One health check is enough: the next one, at the place behind all others. -/
theorem not_keepsEscalating (h : Stalled w) (hconns : w.shared.mesh.conns = ∅) :
    ¬ KeepsEscalating C w := by
  intro hkeeps
  have hlast : (w.tasks ++ [Job.health])[w.tasks.length]? = some .health := by simp
  have hstep := hkeeps [.start .health, .go w.tasks.length {}] fun a ha => by
    rcases List.mem_cons.mp ha with rfl | ha
    · exact Or.inl rfl
    · exact Or.inr ⟨_, {}, List.mem_singleton.mp ha⟩
  obtain ⟨-, hgo, -⟩ := hstep
  have hstalled : Stalled ((lifecycle C).step w (.start .health)) := stalled_step h rfl
  obtain ⟨htask, hstrikes⟩ := reportsHealthy_of_stalled (C := C) hstalled _ {} rfl hlast
  rcases hgo _ {} rfl hlast hconns with hgrown | hrebuild
  · rw [hstrikes] at hgrown
    exact absurd hgrown (not_lt.mpr (Nat.zero_le _))
  · rw [htask] at hrebuild
    cases hrebuild

theorem stalled_of_disconnected (hdisc : Disconnected d w.shared)
    (hfail : w.tasks = [.checked .failed]) :
    Stalled w := by
  refine ⟨hdisc.doc, fun j hj => ?_⟩
  rw [hfail] at hj
  obtain rfl := List.mem_singleton.mp hj
  rfl

variable (C) in
/-- **Behind a failed rebuild the ladder is at its end.** Let a rebuild run alone and fail,
    wherever it does. (1) The device is offline with its config in place. (2) The next health
    check does not escalate. (3) However health checks, ticks and hints go on, each health check
    reports a healthy device, with no strike and no rebuild. -/
theorem rebuild_stalls (d : Device) (l : List (Act Job Inputs Arrival)) (hl : ∀ a ∈ l, a.solo)
    (hfail : (run (lifecycle C).step ⟨d, [.rebuild]⟩ l).tasks = [.checked .failed]) :
    Disconnected d (run (lifecycle C).step ⟨d, [.rebuild]⟩ l).shared ∧
      ¬ KeepsEscalating C (run (lifecycle C).step ⟨d, [.rebuild]⟩ l) ∧
      ∀ l', (∀ a ∈ l', Checks a) →
        EachStep (lifecycle C).step (ReportsHealthy C)
          (run (lifecycle C).step ⟨d, [.rebuild]⟩ l) l' := by
  have hdisc := disconnected_of_failed hl hfail
  have hstalled := stalled_of_disconnected hdisc hfail
  exact ⟨hdisc, not_keepsEscalating hstalled hdisc.conns,
    fun l' hl' => eachStep_of_stalled hstalled hl'⟩

/-! ## 4. An instance -/

namespace Sample

/-- Device 5, online in the sample's network with its members cached, and with no connection. -/
def isolated : Device :=
  { deviceKey := key 5, myId := key 5, config := some (stored none), doc := some NET
    author := some NET, disk := (stored none).onDisk, wasMember := true
    roster := Roster.build .plain 100 config admitted }

/-- Its rebuild cannot bind a fresh node. -/
def bindFails : List (Act Job Inputs Arrival) :=
  List.replicate 3 (.go 0 {}) ++ [.go 0 { spawned := .error "bind" }]

end Sample

/-- It stalls. -/
theorem rebuild_stalls_sample :
    (run (lifecycle .plain).step ⟨Sample.isolated, [.rebuild]⟩
      Sample.bindFails).shared.doc = none :=
  (rebuild_stalls .plain Sample.isolated Sample.bindFails (by decide) (by decide +kernel)).1.doc

/-- **The recovery ladder stalls**: a device that is online among others fails to bind a fresh
    node, and no health check escalates again. -/
theorem recovery_ladder_stalls :
    ¬ ∀ (d : Device) (l : List (Act Job Inputs Arrival)), d.doc.isSome = true →
      otherMembers d.toInner ≠ [] → (∀ a ∈ l, a.solo) →
      (run (lifecycle .plain).step ⟨d, [.rebuild]⟩ l).tasks = [.checked .failed] →
      KeepsEscalating .plain (run (lifecycle .plain).step ⟨d, [.rebuild]⟩ l) := by
  intro h
  have hkeeps := h Sample.isolated Sample.bindFails rfl (by decide +kernel) (by decide)
    (by decide +kernel)
  refine not_keepsEscalating ?_ (by decide +kernel) hkeeps
  exact ⟨by decide +kernel, by decide +kernel⟩

end Nullgate
