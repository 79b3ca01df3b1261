/-
  File:      Nullgate/Lifecycle/Rotation.lean
  Subject:   A ROTATION AND THE ORIGINATOR KEY: the one write on which it depends.

  `rotate_network` tears the old network down, and with it both secrets, before it saves the
  new config. In between the key is in a local variable only.

  * `Held`: the key is in the config in memory, or in the secret store;
  * `RotateAt`: where the rotation stands, and where the key is then;
  * `rotation_keeps_key_iff`: whatever fails and wherever the client hangs up, the key is held
    throughout exactly if that `save_config` ends well.
-/
import Nullgate.Lifecycle.Effects

namespace Nullgate

open Nullgate.Lib

/-! ## 1. The key -/

/-- The key is in the config in memory. -/
def InConfig (sk : SigningKey) (d : Device) : Prop :=
  d.config.bind StoredConfig.originatorSecret = some sk

/-- **The device holds the key**: in its config, or in the secret store. -/
def Held (sk : SigningKey) (d : Device) : Prop :=
  InConfig sk d ∨ d.disk.originatorSecret = some sk

instance decidableHeld (sk : SigningKey) (d : Device) : Decidable (Held sk d) :=
  inferInstanceAs (Decidable (_ = _ ∨ _ = _))

/-- **Where the rotation stands**: before the teardown has completed the key is in the config,
    behind it in the secret store. -/
def RotateAt (sk : SigningKey) (d : Device) : Job → Prop
  | .rotate => InConfig sk d
  | .rotateRead originator => originator = sk ∧ InConfig sk d
  | .publish _ p | .writing _ _ _ p =>
    match p with
    | .removal r _ => r.originator = sk ∧ InConfig sk d
    | _ => d.disk.originatorSecret = some sk
  | .sleeping r | .reset (.rotate r) | .forget (.rotate r) => r.originator = sk ∧ InConfig sk d
  | .opening _ (.found _) | .committing _ _ _ (.found _) => d.disk.originatorSecret = some sk
  | .refresh _ _ t => t.refreshing = true ∧ d.disk.originatorSecret = some sk
  | .returned _ | .done => True
  | _ => False

/-- The rotation that forgets the old network next. -/
def Job.rotation? : Job → Option Rotation
  | .forget (.rotate r) => some r
  | _ => none

/-- **The new config is saved**: in the stretch that forgets the old one, each of the three writes
    of `save_config` ends well. -/
def RotationSaves (w : World Device Job) : Act Job Inputs Arrival → Prop
  | .go k i => ∀ j ∈ w.tasks[k]?, ∀ r ∈ j.rotation?,
      i.saving.error? (r.fresh i.freshSecret) = none
  | _ => True

instance decidableRotationSaves : ∀ (w : World Device Job) (a : Act Job Inputs Arrival),
    Decidable (RotationSaves w a)
  | w, .go k i => inferInstanceAs (Decidable (∀ j ∈ w.tasks[k]?, ∀ r ∈ j.rotation?,
      i.saving.error? (r.fresh i.freshSecret) = none))
  | _, .start _ | _, .drop _ | _, .env _ => isTrue trivial

variable {C : Crates} {d : Device} {j j' : Job} {sk : SigningKey} {w : World Device Job}
  {a : Act Job Inputs Arrival}

/-! ## 2. One stretch -/

theorem held_congr {d' : Device} (hconfig : d'.config = d.config) (hdisk : d'.disk = d.disk) :
    Held sk d' ↔ Held sk d := by
  rw [Held, Held, InConfig, InConfig, hconfig, hdisk]

theorem originatorKey_of_inConfig (h : InConfig sk d) : originatorKey d.toInner = .ok sk := by
  obtain ⟨cfg, hcfg, hkey⟩ := Option.bind_eq_some_iff.mp h
  simp [originatorKey, Inner.network, hcfg, hkey, bind, Except.bind]

/-- A config that was not saved leaves no key on a disk that had none. -/
theorem originatorSecret_leaves {cfg : StoredConfig} {disk : OnDisk} {s : Saving}
    (h : disk.originatorSecret = none) (he : s.error? cfg ≠ none) (torn : Bool) :
    (s.leaves cfg disk torn).1.originatorSecret = none := by
  cases s with
  | done => exact absurd rfl he
  | configFails lost => cases lost <;> exact h
  | secretFails lost => exact h
  | originatorFails lost =>
    simp only [Saving.leaves]
    split
    · exact h
    · rfl

/-- Behind the teardown the key is where the new config was saved, or nowhere. -/
theorem held_saveAndOpen_iff (i : Inputs) (r : Rotation) (hr : r.originator = sk) :
    (Held sk (d.forget.saveAndOpen i (r.fresh i.freshSecret) r.originator).1 ↔
      i.saving.error? (r.fresh i.freshSecret) = none) ∧
    RotateAt sk (d.forget.saveAndOpen i (r.fresh i.freshSecret) r.originator).1
      (d.forget.saveAndOpen i (r.fresh i.freshSecret) r.originator).2 := by
  rcases d.forget.saveAndOpen_cases i (r.fresh i.freshSecret) r.originator with
    ⟨he, hs⟩ | ⟨e, he, hs⟩
  · rw [hs]
    have hkey : (r.fresh i.freshSecret).onDisk.originatorSecret = some sk := by rw [← hr]; rfl
    exact ⟨iff_of_true (Or.inr hkey) he, hkey⟩
  · rw [hs]
    refine ⟨iff_of_false (fun h => ?_) (by rw [he]; exact nofun), trivial⟩
    rcases h with hconfig | hdisk
    · cases hconfig
    · have hnone : (i.saving.leaves (r.fresh i.freshSecret) d.forget.disk
          d.forget.cborTorn).1.originatorSecret = none :=
        originatorSecret_leaves rfl (by rw [he]; exact nofun) _
      rw [hnone] at hdisk
      cases hdisk

/-- What a stretch of a rotation does: it goes on, and holds the key as long as it saves. -/
structure RotateEffect (sk : SigningKey) (d : Device) (j : Job) (i : Inputs) (d' : Device)
    (j' : Job) : Prop where
  next : RotateAt sk d' j'
  held : Held sk d → (Held sk d' ↔ ∀ r ∈ j.rotation?,
    i.saving.error? (r.fresh i.freshSecret) = none)

theorem rotateAt_removeNext (i : Inputs) {r : Rotation} (others : List Id)
    (h : r.originator = sk ∧ InConfig sk d) :
    RotateAt sk d (Device.removeNext C i r others) := by
  cases others with
  | nil => exact h
  | cons id others => exact h

/-- What is published for the new network follows its save. -/
theorem rotateAt_publishEnds (i : Inputs) (result : Except String Unit) (entry : Entry)
    {p : Publication} (h : RotateAt sk d (.publish entry p)) :
    RotateAt sk d (Device.publishEnds C i result p) := by
  cases p with
  | removal r others => exact rotateAt_removeNext i others h
  | genesis cfg originator =>
    cases result with
    | error e => trivial
    | ok u => exact h
  | invite cfg =>
    cases result with
    | error e => trivial
    | ok u => exact ⟨rfl, h⟩

/-- **A stretch of a rotation**: it loses the key exactly where the new config is not saved. -/
theorem rotateEffect (i : Inputs) (hat : RotateAt sk d j) :
    RotateEffect sk d j i (runCall C d i j).1 (runCall C d i j).2 := by
  -- most stretches touch neither config nor disk
  have hkeep : ∀ {j : Job} {d' : Device} {j' : Job}, j.rotation? = none →
      d'.config = d.config → d'.disk = d.disk → RotateAt sk d' j' →
      RotateEffect sk d j i d' j' := fun hj hconfig hdisk hat =>
    ⟨hat, fun h => iff_of_true ((held_congr hconfig hdisk).mpr h) fun r hr => by
      rw [hj] at hr
      cases hr⟩
  unfold RotateAt at hat
  split at hat
  · have hkey := originatorKey_of_inConfig hat
    simp only [runCall, hkey]
    exact hkeep rfl rfl rfl ⟨rfl, hat⟩
  · obtain ⟨horiginator, hconfig⟩ := hat
    simp only [runCall]
    split
    · exact hkeep rfl rfl rfl trivial
    · exact hkeep rfl rfl rfl (rotateAt_removeNext i _ ⟨horiginator, hconfig⟩)
  · rename_i entry p
    have hpub : RotateAt sk d (.publish entry p) := hat
    simp only [runCall]
    split
    · rename_i e _
      exact hkeep rfl rfl rfl (rotateAt_publishEnds i (.error e) entry hpub)
    · exact hkeep rfl rfl rfl hat
  · rename_i doc author entry p
    have hpub : RotateAt sk d (.publish entry p) := hat
    simp only [runCall]
    split
    · exact hkeep rfl rfl rfl
        (rotateAt_publishEnds (d := d.write doc [entry]) i (.ok ()) entry hpub)
    · rename_i e _
      exact hkeep rfl rfl rfl (rotateAt_publishEnds i (.error e) entry hpub)
  · exact hkeep rfl rfl rfl hat
  · exact hkeep rfl rfl rfl hat
  · rename_i r
    obtain ⟨hsaves, hnext⟩ := held_saveAndOpen_iff (d := d) i r hat.1
    refine ⟨hnext, fun _ => hsaves.trans ⟨fun he r' h => ?_, fun h => h r rfl⟩⟩
    cases h
    exact he
  · simp only [runCall]
    split
    · exact hkeep rfl rfl rfl hat
    · exact hkeep rfl rfl rfl trivial
  · exact ⟨hat, fun _ => iff_of_true (Or.inr hat) fun r hr => by cases hr⟩
  · rename_i cfg r t
    obtain ⟨ht, hkey⟩ := hat
    obtain ⟨-, hforgets, hnext⟩ := refreshing_runTask (C := C) d i r ht
    have he := taskEffect (C := C) d i r t
    have hdisk : (d.runTask C i r t).1.disk = d.disk := by rw [he.disk, hforgets]; rfl
    have hconfig : (d.runTask C i r t).1.config = d.config := by rw [he.config, hforgets]; rfl
    simp only [runCall]
    refine hkeep rfl hconfig hdisk ?_
    unfold refreshed
    split
    · trivial
    · exact ⟨hnext, hdisk ▸ hkey⟩
  · exact hkeep rfl rfl rfl trivial
  · exact hkeep rfl rfl rfl trivial
  · exact hat.elim

/-! ## 3. Every run -/

/-- A dropped rotation owes nothing. -/
theorem rotateAt_drop (h : j.drop = some j') (hat : RotateAt sk d j) : RotateAt sk d j' := by
  rcases Job.drop_cases h with ⟨-, rfl⟩ | ⟨r, t, t', rfl, -, -⟩
  · trivial
  · exact hat.elim

theorem rotateAt_arrive (e : Arrival) (h : RotateAt sk d j) : RotateAt sk (arrive d e) j := by
  have he := arriveEffect d e
  have hconfig : InConfig sk d → InConfig sk (arrive d e) := fun h => by
    rw [InConfig, he.config]
    exact h
  have hdisk : d.disk.originatorSecret = some sk →
      (arrive d e).disk.originatorSecret = some sk := fun h => he.disk ▸ h
  unfold RotateAt at h ⊢
  split at h
  · exact hconfig h
  · exact ⟨h.1, hconfig h.2⟩
  · split at h
    · exact ⟨h.1, hconfig h.2⟩
    · exact hdisk h
  · split at h
    · exact ⟨h.1, hconfig h.2⟩
    · exact hdisk h
  · exact ⟨h.1, hconfig h.2⟩
  · exact ⟨h.1, hconfig h.2⟩
  · exact ⟨h.1, hconfig h.2⟩
  · exact hdisk h
  · exact hdisk h
  · exact ⟨h.1, hdisk h.2⟩
  · trivial
  · trivial
  · exact h.elim

theorem isTask_rotateAt (hat : RotateAt sk d j) : j.isTask = false := by
  cases j <;> first | rfl | exact hat.elim

theorem rotateAt_step (hw : w.Alone (RotateAt sk)) (ha : a.solo) :
    ((lifecycle C).step w a).Alone (RotateAt sk) :=
  call_alone hw ha (fun _ hat => isTask_rotateAt hat) (fun i _ hat => (rotateEffect i hat).next)
    (fun _ _ hd hat => rotateAt_drop hd hat) fun _ e _ hat => rotateAt_arrive e hat

/-- **A step of a rotation alone keeps the key exactly if it saves what it has to.** -/
theorem held_step_iff (hw : w.Alone (RotateAt sk)) (ha : a.solo) (hheld : Held sk w.shared) :
    Held sk ((lifecycle C).step w a).shared ↔ RotationSaves w a := by
  obtain ⟨j, hj, hat⟩ := hw
  have hspawns : ∀ i, ((lifecycle C).stretch w.shared i j).2.2 = [] := fun i => by
    rw [show (lifecycle C).stretch w.shared i j = runJob C w.shared i j from rfl,
      runJob_call w.shared i (isTask_rotateAt hat)]
  rcases (lifecycle C).step_solo hj ha hspawns with
    ⟨rfl, -, he⟩ | ⟨i, rfl, he⟩ | ⟨j', rfl, -, he⟩ | ⟨e, rfl, he⟩
  · rw [he]
    exact iff_of_true hheld trivial
  · have hstretch : ((lifecycle C).stretch w.shared i j).1 = (runCall C w.shared i j).1 := by
      rw [show (lifecycle C).stretch w.shared i j = runJob C w.shared i j from rfl,
        runJob_call w.shared i (isTask_rotateAt hat)]
    have hk : w.tasks[0]? = some j := by rw [hj]; rfl
    rw [he]
    show Held sk ((lifecycle C).stretch w.shared i j).1 ↔ _
    rw [hstretch]
    refine ((rotateEffect (C := C) i hat).held hheld).trans
      ⟨fun h j' hj' r hr => ?_, fun h r hr => ?_⟩
    · obtain rfl := Option.some.inj (hk.symm.trans hj')
      exact h r hr
    · exact h j hk r hr
  · rw [he]
    exact iff_of_true hheld trivial
  · rw [he]
    have harrive := arriveEffect w.shared e
    exact iff_of_true ((held_congr harrive.config harrive.disk).mpr hheld) trivial

/-! ## 4. A rotation and the key -/

variable (C) in
/-- **A rotation and the key.** Let a device whose config has the originator's key rotate its
    network, whatever fails on the way and wherever the client hangs up. The device holds the key
    throughout exactly if the config of the new network is saved where the old one is forgotten. -/
theorem rotation_keeps_key_iff (d : Device) (sk : SigningKey) (hkey : InConfig sk d)
    (l : List (Act Job Inputs Arrival)) (hl : ∀ a ∈ l, a.solo) :
    Throughout (lifecycle C).step (fun w => Held sk w.shared) ⟨d, [.rotate]⟩ l ↔
      EachStep (lifecycle C).step RotationSaves ⟨d, [.rotate]⟩ l := by
  have hsolo : EachStep (lifecycle C).step (fun _ a => a.solo) ⟨d, [.rotate]⟩ l :=
    eachStep_of_forall hl
  exact throughout_iff_of_eachStep (J := World.Alone (RotateAt sk)) hsolo
    (fun w a hw ha => rotateAt_step hw ha) (fun w a hw ha hheld => held_step_iff hw ha hheld)
    ⟨.rotate, rfl, hkey⟩ (Or.inl hkey)

namespace Sample

/-- Device 1, alone in the sample's network, with the originator's key. -/
def originator : Device :=
  { deviceKey := key 1, myId := key 1, config := some (stored (some (key 1))), doc := some NET
    author := some NET, disk := (stored (some (key 1))).onDisk }

/-- Its rotation, up to where the new config is saved with the outcome `saving`. -/
def rotates (saving : Saving) : List (Act Job Inputs Arrival) :=
  List.replicate 4 (.go 0 {}) ++ [.go 0 { saving, freshSecret := ⟨key 8⟩ }]

end Sample

/-- It holds the key where the client hangs up behind the save. -/
theorem rotation_keeps_key_sample :
    Throughout (lifecycle .plain).step (fun w => Held (Sample.key 1) w.shared)
      ⟨Sample.originator, [.rotate]⟩ (Sample.rotates .done ++ [.drop 0]) :=
  (rotation_keeps_key_iff .plain Sample.originator (Sample.key 1) rfl _ (by decide)).mpr
    (by decide +kernel)

/-- **A rotation can lose the key**: the disk is full when the new config is to be written. -/
theorem rotation_loses_key :
    ¬ ∀ (d : Device) (sk : SigningKey), InConfig sk d →
      ∀ l : List (Act Job Inputs Arrival), (∀ a ∈ l, a.solo) →
        Held sk (run (lifecycle .plain).step ⟨d, [.rotate]⟩ l).shared := by
  intro h
  have hheld := h Sample.originator (Sample.key 1) rfl (Sample.rotates (.configFails false))
    (by decide)
  revert hheld
  decide +kernel

end Nullgate
