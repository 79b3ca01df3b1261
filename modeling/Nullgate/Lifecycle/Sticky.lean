/-
  File:      Nullgate/Lifecycle/Sticky.lean
  Subject:   THE USER'S OFFLINE CHOICE, and the one step that goes against it.

  `soft_disconnect` keeps the config on purpose. Of all that runs inside the engine, one thing
  goes online from it: a `rebuild_node` that has read it.

  * `Job.reactivates`: a rebuild with a config it will activate;
  * `StaysOffline`, `HeedsOffline`: the property of a step, and the condition on it;
  * `offline_sticky`: where no rebuild reads a config of a device whose user has gone offline,
    and going offline completes with no such rebuild in flight, the choice is kept; a rebuild
    alone keeps it exactly where being online is having a network.
-/
import Nullgate.Lifecycle.Recovery

namespace Nullgate

open Nullgate.Lib

/-! ## 1. The property and the condition -/

/-- A rebuild that has read a config, and will activate it. -/
def Job.reactivates : Job → Bool
  | .reset (.rebuild cfg) | .spawning cfg => cfg.isSome
  | .opening _ .rebuild | .committing _ _ _ .rebuild => true
  | _ => false

/-- **A step inside the engine does not go online** while the user wants the device offline. The
    other steps are those of the calls of clients. -/
def StaysOffline (C : Crates) (w : World Device Job) (a : Act Job Inputs Arrival) : Prop :=
  w.shared.wantsOffline = true → w.shared.doc = none →
    (∀ k i, a = .go k i → ∀ j ∈ w.tasks[k]?, j.requested = false) →
    ((lifecycle C).step w a).shared.doc = none

/-- **No rebuild works against the user**: it reads no config while the user wants the device
    offline, and going offline completes only when no rebuild holds one. -/
def HeedsOffline (w : World Device Job) : Act Job Inputs Arrival → Prop
  | .go k _ =>
    (w.tasks[k]? = some .rebuildRead → w.shared.wantsOffline = true → w.shared.config = none) ∧
      (w.tasks[k]? = some (.reset .offline) → ∀ j ∈ w.tasks, j.reactivates = false)
  | _ => True

instance decidableHeedsOffline : ∀ (w : World Device Job) (a : Act Job Inputs Arrival),
    Decidable (HeedsOffline w a)
  | w, .go k _ => inferInstanceAs (Decidable ((w.tasks[k]? = some .rebuildRead → _ → _) ∧
      (w.tasks[k]? = some (.reset .offline) → ∀ j ∈ w.tasks, _ = _)))
  | _, .start _ | _, .drop _ | _, .env _ => isTrue trivial

variable {C : Crates} {d : Device} {j j' : Job} {w : World Device Job}
  {a : Act Job Inputs Arrival}

/-! ## 2. One stretch -/

/-- **Inside the engine, the commit of a rebuild alone goes online.** -/
theorem doc_run (i : Inputs) (hdoc : d.doc = none) (hint : j.requested = false)
    (hno : j.reactivates = false) : (runJob C d i j).1.doc = none := by
  cases j with
  | task r t =>
    have he := (taskEffect (C := C) d i r t).doc
    show (d.runTask C i r t).1.doc = none
    rw [he, hdoc, ite_self]
  | opening cfg p =>
    cases p with
    | rebuild => cases hno
    | _ => cases hint
  | committing cfg doc author p =>
    cases p with
    | rebuild => cases hno
    | _ => cases hint
  | health =>
    simp only [runJob, runCall]
    split
    · exact hdoc
    · split <;> exact hdoc
  | burst =>
    simp only [runJob, runCall]
    rw [d.recoveryBurst_eq]
    exact hdoc
  | rebuild =>
    simp only [runJob, runCall]
    split <;> exact hdoc
  | rebuildRead => exact hdoc
  | spawning cfg =>
    simp only [runJob, runCall]
    split
    · exact hdoc
    · split
      · exact hdoc
      · cases cfg with
        | none => exact hdoc
        | some cfg => cases hno
  | reset b =>
    cases b with
    | rebuild cfg => rfl
    | _ => cases hint
  | forget b =>
    cases b with
    | rebuild cfg => exact hdoc
    | _ => cases hint
  | returned r => exact hdoc
  | checked action => exact hdoc
  | done => exact hdoc
  | _ => cases hint

/-- **A rebuild holds a config only if it read one**: where none did, none does behind a stretch,
    unless a rebuild has just read one. -/
theorem reactivates_run (i : Inputs) (hno : j.reactivates = false)
    (hread : j = .rebuildRead → d.config = none) :
    (runJob C d i j).2.1.reactivates = false := by
  have hgoes := goesOn_run (C := C) d i j
  generalize (runJob C d i j).2.1 = j' at hgoes
  cases hgoes with
  | opened cfg doc author p =>
    cases p with
    | rebuild => cases hno
    | _ => rfl
  | disconnects =>
    rw [hread rfl]
    rfl
  | spawns cfg => exact hno
  | reactivates cfg => cases hno
  | forgets b => cases b <;> rfl
  | _ => rfl

/-! ## 3. Every run -/

/-- While the user wants the device offline, no rebuild holds a config. -/
def Heeded (w : World Device Job) : Prop :=
  w.Inv (fun _ => True) fun d j => d.wantsOffline = true → j.reactivates = false

/-- The wish is there behind a stretch if it was, or going offline has completed. -/
theorem wantsOffline_run (d : Device) (i : Inputs) (j : Job)
    (h : (runJob C d i j).1.wantsOffline = true) :
    d.wantsOffline = true ∨ j = .reset .offline := by
  by_cases hj : j.inTask = true
  · cases j with
    | task r t => exact Or.inl ((taskEffect (C := C) d i r t).wantsOffline ▸ h)
    | refresh cfg r t => exact Or.inl ((taskEffect (C := C) d i r t).wantsOffline ▸ h)
    | _ => cases hj
  · rw [(callEffect (C := C) d i j (Bool.not_eq_true _ ▸ hj)).wantsOffline, Bool.and_eq_true,
      Bool.or_eq_true, decide_eq_true_eq] at h
    exact h.2

theorem heeded_step (h : Heeded w) (ha : HeedsOffline w a) :
    Heeded ((lifecycle C).step w a) := by
  refine Program.step_inv_others h (fun k i j hact hk => ?_) (fun j _ hj _ => ?_)
    (fun j j' hd hj hwants => ?_) fun e _ => ⟨trivial, fun j hj hwants => hj ?_⟩
  · subst hact
    obtain ⟨hread, hcompletes⟩ := ha
    -- the wish held before, or this stretch completes it, and no rebuild is in flight
    have hnone : (runJob C w.shared i j).1.wantsOffline = true →
        ∀ j' ∈ w.tasks, j'.reactivates = false := by
      intro hwants j' hj'
      rcases wantsOffline_run w.shared i j hwants with hw | rfl
      · exact h.tasks j' hj' hw
      · exact hcompletes hk j' hj'
    refine ⟨trivial, fun hwants => ?_, fun j' hj' _ => ?_, fun j' hj' _ hwants => ?_⟩
    · refine reactivates_run i (hnone hwants j (List.mem_of_getElem? hk)) fun hj => ?_
      subst hj
      exact hread hk ((wantsOffline_run w.shared i _ hwants).resolve_right nofun)
    · obtain ⟨r, t, r', t', -, rfl, -⟩ := spawned_run hj'
      rfl
    · exact hnone hwants j' (List.mem_of_mem_eraseIdx hj')
  · cases j <;> first | rfl | cases hj
  · rcases Job.drop_cases hd with ⟨-, rfl⟩ | ⟨r, t, t', -, -, rfl⟩ <;> rfl
  · exact (arriveEffect w.shared e).wantsOffline ▸ hwants

/-- **Where no rebuild holds a config, no step inside the engine goes online.** -/
theorem staysOffline_step (h : Heeded w) : StaysOffline C w a := by
  intro hwants hdoc hint
  rcases (lifecycle C).step_cases w a with ⟨-, -, he⟩ | ⟨k, i, j, rfl, hk, he⟩ | ⟨j, rfl, -, he⟩ |
    ⟨k, j, j', rfl, -, -, he⟩ | ⟨e, rfl, he⟩
  · rwa [he]
  · rw [he]
    exact doc_run i hdoc (hint k i rfl j hk) (h.tasks j (List.mem_of_getElem? hk) hwants)
  · rwa [he]
  · rwa [he]
  · rw [he]
    exact (arriveEffect w.shared e).doc.trans hdoc

/-! ## 4. The offline choice -/

variable (C) in
/-- **The user's offline choice is sticky** as long as the rebuilds heed it. (1) In every run
    whose rebuilds do, no step inside the engine goes online while the user wants the device
    offline. (2) A rebuild alone that succeeds keeps whether the device was online exactly if it
    was online just when it has a network. -/
theorem offline_sticky (d : Device) (l : List (Act Job Inputs Arrival)) :
    (EachStep (lifecycle C).step HeedsOffline ⟨d, []⟩ l →
      EachStep (lifecycle C).step (StaysOffline C) ⟨d, []⟩ l) ∧
    ((∀ a ∈ l, a.solo) →
      (run (lifecycle C).step ⟨d, [.rebuild]⟩ l).tasks = [.checked .rebuilt] →
      ((run (lifecycle C).step ⟨d, [.rebuild]⟩ l).shared.doc.isSome = d.doc.isSome ↔
        d.config.isSome = d.doc.isSome)) := by
  refine ⟨fun h => ?_, fun hl hdone => ?_⟩
  · have hstart : Heeded ⟨d, []⟩ := ⟨trivial, List.forall_mem_nil _⟩
    exact eachStep_of_invariant hstart (fun w a hw ha => heeded_step hw ha)
      (fun w a hw _ => staysOffline_step hw) h
  · obtain ⟨j, hj, hat⟩ := rebuildAt_alone (C := C) (d := d) hl
    obtain rfl := List.singleton_inj.mp (hj.symm.trans hdone)
    rw [hat.2]

namespace Sample

/-- The node that is bound afresh has the device's id. -/
def freshNode : Inputs := { spawned := .ok (key 5) }

/-- The user takes the device offline at place 0; then the relay settings want a rebuild, which
    runs at place 1. -/
def offlineThenRebuilt : List (Act Job Inputs Arrival) :=
  [.start .offline, .go 0 {}, .go 0 {}, .start .rebuild] ++ List.replicate 6 (.go 1 freshNode)

end Sample

/-- A device goes offline, and the user's choice is kept; one that is online is so behind a
    rebuild. -/
theorem offline_sticky_sample :
    EachStep (lifecycle .plain).step (StaysOffline .plain) ⟨Sample.isolated, []⟩
        [.start .offline, .go 0 {}, .go 0 {}] ∧
      (run (lifecycle .plain).step ⟨Sample.isolated, [.rebuild]⟩
        (List.replicate 6 (.go 0 Sample.freshNode))).shared.doc.isSome = true :=
  ⟨(offline_sticky .plain Sample.isolated _).1 (by decide +kernel),
    ((offline_sticky .plain Sample.isolated _).2 (by decide) (by decide +kernel)).mpr rfl⟩

/-- **A rebuild goes against the user**: the device is offline by choice, and the commit of a
    rebuild takes it online. -/
theorem offline_not_sticky :
    ¬ ∀ (d : Device) (l : List (Act Job Inputs Arrival)),
      EachStep (lifecycle .plain).step (StaysOffline .plain) ⟨d, []⟩ l := by
  intro h
  have hkeeps := eachStep_iff.mp (h Sample.isolated Sample.offlineThenRebuilt)
    (Sample.offlineThenRebuilt.take 9) (.go 1 Sample.freshNode) [] rfl
  have hdoc := hkeeps (by decide +kernel) (by decide +kernel) fun k i hk j hj => by
    cases hk
    revert j
    decide +kernel
  revert hdoc
  decide +kernel

end Nullgate
