/-
  File:      Nullgate/Lifecycle/Latched.lean
  Subject:   WHERE A MEMBER HAS ITS MEMBERSHIP FROM: the latch, the roster that is cached, and the
             rosters on their way to the cache.

  A tick evicts the device once `was_member` is set. `soft_disconnect` clears the latch in its first
  stretch and the cached roster in its last; a fold may set either one again, and an activation
  clears neither.

  * `Device.FoldsItself`: a fold gets a roster that has this device;
  * `shown_stretch`: nothing else makes it a member;
  * `Belongs`, `belongs_step`: the same over the steps of a run.
-/
import Nullgate.Lifecycle.Effects

namespace Nullgate

open Nullgate.Lib

/-! ## 1. Who has the device -/

/-- The task is about to cache a roster that has this device. -/
def Task.shows (me : Id) (t : Task) : Bool := t.roster?.any fun roster => roster.isMember me

namespace Job

/-- The tick or the `refresh_roster` that the job is. -/
def fold? : Job → Option (Reading × Task)
  | .task r t | .refresh _ r t => some (r, t)
  | _ => none

def shows (me : Id) (j : Job) : Bool := j.fold?.any fun x => x.2.shows me

end Job

/-- **A fold that has this device**: the task folds the entries it has read, and the roster has the
    device. -/
def Device.FoldsItself (C : Crates) (d : Device) (i : Inputs) (r : Reading) (t : Task) : Prop :=
  ∃ cfg entries, t.folds? = some cfg ∧ r.loaded = some (.ok entries) ∧
    (Roster.build C.toPrimitives i.now (cfg.rosterCfg C) entries).isMember d.myId = true

variable {C : Crates} {l : Live} {a : Answers} {d d' : Device} {i : Inputs} {r : Reading}
  {t t' : Task} {j : Job} {w : World Device Job} {act : Act Job Inputs Arrival}

/-! ## 2. One stretch of a task -/

theorem shown_sweepNext (l : Live) (a : Answers) (roster : Roster) (stale : List (Id × Conn)) :
    (l.sweepNext a roster stale).1.shown = l.shown := by
  rw [Live.sweepNext_eq]
  rfl

theorem Task.folding_of_folds? {cfg : StoredConfig} (h : t.folds? = some cfg) :
    t.folding = true := by
  unfold Task.folds? at h
  split at h
  · rfl
  · rfl
  · cases h

/-- What a fold leaves: the latch was set, or the roster that was cached has the device, or the one
    that was folded. -/
theorem shown_latched {roster : Roster}
    (h : { l with wasMember := l.wasMember || roster.isMember l.myId }.shown = true ∨
      roster.isMember l.myId = true) : l.shown = true ∨ roster.isMember l.myId = true := by
  rcases h with hshown | hm
  · rcases Live.shown_iff.mp hshown with hw | hcached
    · exact (Bool.or_eq_true_iff.mp hw).imp_left fun hw => Live.shown_iff.mpr (Or.inl hw)
    · exact Or.inl (Live.shown_iff.mpr (Or.inr hcached))
  · exact Or.inr hm

/-- **What makes the device a member**: it was one, or the roster a fold gets has it. -/
theorem shown_stretch (l : Live) (a : Answers) (t : Task)
    (h : (stretch C l a t).1.shown = true ∨ (stretch C l a t).2.1.shows l.myId = true) :
    l.shown = true ∨ t.shows l.myId = true ∨
      ∃ cfg roster, t.folds? = some cfg ∧ l.foldRoster C a cfg true = .ok roster ∧
        roster.isMember l.myId = true := by
  have hs := stretched C l a t
  generalize (stretch C l a t).1 = l', (stretch C l a t).2.1 = t',
    (stretch C l a t).2.2 = spawned at hs h
  -- where the task goes on with no roster, the device is what it was
  have hplain : (l'.shown = true → l.shown = true) → t'.roster? = none → l.shown = true := by
    intro hshown hnone
    rcases h with h | h
    · exact hshown h
    · rw [Task.shows, hnone] at h
      cases h
  cases hs with
  | @enforce cfg rebuild roster l₁ next hroster hlive hnext =>
    subst hnext
    rw [shown_sweepNext, Task.shows, Live.roster?_sweepNext, hlive] at h
    rcases shown_latched h with hshown | hm
    · exact Or.inl hshown
    · cases rebuild with
      | true => exact Or.inr (Or.inr ⟨cfg, roster, rfl, hroster, hm⟩)
      | false =>
        -- the cached roster is copied
        obtain rfl : l.roster = roster := Except.ok.inj hroster
        exact Or.inl (Live.shown_iff.mpr (Or.inr hm))
  | @sweep roster peer stale next hnext =>
    subst hnext
    rw [shown_sweepNext, Task.shows, Live.roster?_sweepNext] at h
    exact h.imp_right Or.inl
  | store roster connected =>
    rcases h with hshown | hshows
    · exact (Live.shown_iff.mp hshown).imp (fun hw => Live.shown_iff.mpr (Or.inl hw)) Or.inl
    · cases hshows
  | cache roster =>
    rcases h with hshown | hshows
    · exact (Live.shown_iff.mp hshown).imp (fun hw => Live.shown_iff.mpr (Or.inl hw)) Or.inl
    · cases hshows
  | @latch cfg roster hroster =>
    exact (shown_latched h).imp_right fun hm => Or.inr ⟨cfg, roster, rfl, hroster, hm⟩
  | pass ht ht' => exact Or.inl (hplain id (Task.roster?_of_plain ht'))
  | reset ht' => exact Or.inl (hplain Live.shown_resetState (Task.roster?_of_plain ht'))
  | @register t dialed peer conn next ht hnext =>
    subst hnext
    refine Or.inl (hplain id ?_)
    simp only [Live.registerConn]
    split <;> rfl
  | live => exact Or.inl (hplain id (Live.roster?_refreshNext _))
  | refresh peer live => exact Or.inl (hplain id (Live.roster?_refreshNext live))
  | watch hclosed => exact Or.inl (hplain id (by split <;> rfl))
  -- who goes offline gives up the latch, and keeps the cached roster
  | evict cfg rebuild =>
    exact Or.inl (hplain (fun h => Live.shown_iff.mpr (Or.inr h)) rfl)
  | disconnect f => exact Or.inl (hplain (fun h => Live.shown_iff.mpr (Or.inr h)) rfl)
  | _ => exact Or.inl (hplain id rfl)

/-- What a stretch spawns holds no roster. -/
theorem shows_spawned (l : Live) (a : Answers) (t : Task) {t' : Task}
    (ht' : t' ∈ (stretch C l a t).2.2) (me : Id) : t'.shows me = false := by
  have hs := stretched C l a t
  generalize (stretch C l a t).1 = l', (stretch C l a t).2.1 = t'',
    (stretch C l a t).2.2 = spawned at hs ht'
  cases hs with
  | store roster connected =>
    obtain ⟨peer, -, rfl⟩ := List.mem_map.mp ht'
    rfl
  | record dialed peer conn =>
    rcases List.mem_cons.mp ht' with rfl | ht'
    · rfl
    · obtain rfl := List.mem_singleton.mp ht'
      rfl
  | _ => cases ht'

/-- **The same of a task that reads the document before it folds it.** -/
theorem shown_runTask (d : Device) (i : Inputs) (r : Reading) (t : Task)
    (h : (d.runTask C i r t).1.shown = true ∨ (d.runTask C i r t).2.2.1.shows d.myId = true) :
    d.shown = true ∨ t.shows d.myId = true ∨ d.FoldsItself C i r t := by
  rcases d.runTask_cases (C := C) i r t with
    ⟨-, -, he⟩ | ⟨hloaded, l, a, t', spawned, ha, hs, he⟩
  · rw [he] at h
    exact h.imp_right Or.inl
  · rw [he, Device.record_eq] at h
    have hstretch := shown_stretch (C := C) d.toLive a t
    rw [hs] at hstretch
    refine (hstretch h).imp_right fun h => h.imp_right fun h => ?_
    obtain ⟨cfg, roster, ht, hroster, hm⟩ := h
    have hfolding : t.folding = true := Task.folding_of_folds? ht
    obtain ⟨x, hx⟩ := Option.isSome_iff_exists.mp (hloaded hfolding)
    have hread : a.loaded = x := by rw [ha, hx]; rfl
    have hnow : a.now = i.now := by rw [ha]
    rw [Live.foldRoster, if_pos rfl, hread, hnow] at hroster
    cases x with
    | error e => cases hroster
    | ok entries =>
      obtain rfl := Except.ok.inj hroster
      exact ⟨cfg, entries, ht, hx, hm⟩

theorem shows_spawned_runTask (d : Device) (i : Inputs) (r : Reading) (t : Task) {t' : Task}
    (ht' : t' ∈ (d.runTask C i r t).2.2.2) (me : Id) : t'.shows me = false := by
  rcases d.runTask_cases (C := C) i r t with ⟨-, -, he⟩ | ⟨-, l, a, t'', spawned, -, hs, he⟩
  · rw [he] at ht'
    cases ht'
  · rw [he] at ht'
    exact shows_spawned (C := C) d.toLive a t (by rw [hs]; exact ht') me

/-! ## 3. One step of a run -/

/-- Nobody becomes another device. -/
theorem myId_run (d : Device) (i : Inputs) (j : Job) : (runJob C d i j).1.myId = d.myId := by
  cases hj : j.inTask with
  | false => exact (callEffect d i j hj).myId
  | true =>
    cases j with
    | task r t => exact (taskEffect d i r t).myId
    | refresh cfg r t => exact (taskEffect d i r t).myId
    | _ => cases hj

/-- What starts has folded nothing. -/
theorem shows_of_starts (h : j.starts = true) (me : Id) : j.shows me = false := by
  cases j with
  | task r t => cases t <;> first | rfl | cases h
  | _ => first | rfl | cases h

/-- What is left of a job that is dropped works with no roster. -/
theorem shows_of_drop {j' : Job} (h : j.drop = some j') (me : Id) : j'.shows me = false := by
  rcases Job.drop_cases h with ⟨-, rfl⟩ | ⟨r, t, t', rfl, ht, rfl⟩
  · rfl
  · obtain ⟨rfl, -⟩ := Task.drop_cases ht
    rfl

/-- **The same of a job.** A call holds no roster, and gives the membership up. -/
theorem shown_run (d : Device) (i : Inputs) (j : Job)
    (h : (runJob C d i j).1.shown = true ∨
      ∃ j' ∈ (runJob C d i j).2.1 :: (runJob C d i j).2.2, j'.shows d.myId = true) :
    d.shown = true ∨ j.shows d.myId = true ∨
      ∃ r t, j.fold? = some (r, t) ∧ d.FoldsItself C i r t := by
  cases hj : j.inTask with
  | false =>
    have heff := callEffect (C := C) d i j hj
    have htask : j.isTask = false := by cases j <;> first | rfl | cases hj
    rcases h with h | ⟨j', hj', h⟩
    · exact Or.inl (heff.shown h)
    · -- the only fold a call goes on with has yet to read
      have hgoes := goesOn_run (C := C) d i j
      rw [runJob_call d i htask] at hj' hgoes
      obtain rfl := List.mem_singleton.mp hj'
      generalize (runCall C d i j).2 = j' at h hgoes
      cases hgoes with
      | task r r' t t' => cases hj
      | refresh cfg r r' t t' => cases hj
      | _ => cases h
  | true =>
    cases j with
    | task r t =>
      have hrun : (d.runTask C i r t).1.shown = true ∨
          (d.runTask C i r t).2.2.1.shows d.myId = true := by
        rcases h with h | ⟨j', hj', h⟩
        · exact Or.inl h
        · rcases List.mem_cons.mp hj' with rfl | hj'
          · exact Or.inr h
          · obtain ⟨t', ht', rfl⟩ := List.mem_map.mp hj'
            change t'.shows d.myId = true at h
            rw [shows_spawned_runTask d i r t ht'] at h
            cases h
      exact (shown_runTask d i r t hrun).imp_right fun h => h.imp_right fun h => ⟨r, t, rfl, h⟩
    | refresh cfg r t =>
      have hrun : (d.runTask C i r t).1.shown = true ∨
          (d.runTask C i r t).2.2.1.shows d.myId = true := by
        rcases h with h | ⟨j', hj', h⟩
        · exact Or.inl h
        · obtain rfl := List.mem_singleton.mp hj'
          refine Or.inr ?_
          change (refreshed cfg _ (d.runTask C i r t).2.2.1).shows d.myId = true at h
          unfold refreshed at h
          split at h
          · cases h
          · exact h
      exact (shown_runTask d i r t hrun).imp_right fun h => h.imp_right fun h => ⟨r, t, rfl, h⟩
    | _ => cases hj

/-- **The device is a member**, or a roster on its way to the cache has it. -/
def Belongs (w : World Device Job) : Prop :=
  w.shared.shown = true ∨ ∃ j ∈ w.tasks, j.shows w.shared.myId = true

/-- The step is the fold of what `r` has read, and this device is in the roster. -/
def FoldsItself (C : Crates) (r : Reading) (w : World Device Job) :
    Act Job Inputs Arrival → Prop
  | .go k i => ∃ j t, w.tasks[k]? = some j ∧ j.fold? = some (r, t) ∧ w.shared.FoldsItself C i r t
  | _ => False

/-- **A member has its membership from a fold.** -/
theorem belongs_step (h : Belongs ((lifecycle C).step w act)) :
    Belongs w ∨ ∃ r, FoldsItself C r w act := by
  rcases (lifecycle C).step_cases w act with ⟨-, -, he⟩ | ⟨k, i, j, rfl, hk, he⟩ |
    ⟨j, rfl, hstarts, he⟩ | ⟨k, j, j', rfl, hk, hd, he⟩ | ⟨e, rfl, he⟩
  · rw [he] at h
    exact Or.inl h
  · rw [he] at h
    have hid : (runJob C w.shared i j).1.myId = w.shared.myId := myId_run w.shared i j
    have hothers : ∀ j' ∈ w.tasks.eraseIdx k, j'.shows w.shared.myId = true → Belongs w :=
      fun j' hj' hshows => Or.inr ⟨j', List.mem_of_mem_eraseIdx hj', hshows⟩
    have hrun : Belongs w ∨ (runJob C w.shared i j).1.shown = true ∨
        ∃ j' ∈ (runJob C w.shared i j).2.1 :: (runJob C w.shared i j).2.2,
          j'.shows w.shared.myId = true := by
      rcases h with hshown | ⟨j', hj', hshows⟩
      · exact Or.inr (Or.inl hshown)
      · change j'.shows (runJob C w.shared i j).1.myId = true at hshows
        rw [hid] at hshows
        rcases (mem_stretch_iff hk).mp hj' with rfl | hother | hspawned
        · exact Or.inr (Or.inr ⟨_, List.mem_cons_self, hshows⟩)
        · exact Or.inl (hothers j' hother hshows)
        · exact Or.inr (Or.inr ⟨j', List.mem_cons_of_mem _ hspawned, hshows⟩)
    rcases hrun with hshown | hrun
    · exact Or.inl hshown
    · rcases shown_run w.shared i j hrun with hshown | hshows | ⟨r, t, hfold, hself⟩
      · exact Or.inl (Or.inl hshown)
      · exact Or.inl (Or.inr ⟨j, List.mem_of_getElem? hk, hshows⟩)
      · exact Or.inr ⟨r, j, t, hk, hfold, hself⟩
  · rw [he] at h
    rcases h with hshown | ⟨j', hj', hshows⟩
    · exact Or.inl (Or.inl hshown)
    · rcases List.mem_append.mp hj' with hj' | hj'
      · exact Or.inl (Or.inr ⟨j', hj', hshows⟩)
      · obtain rfl := List.mem_singleton.mp hj'
        exact absurd hshows (by rw [shows_of_starts hstarts]; exact Bool.false_ne_true)
  · rw [he] at h
    rcases h with hshown | ⟨j₀, hj₀, hshows⟩
    · exact Or.inl (Or.inl hshown)
    · rcases (mem_set_iff hk).mp hj₀ with rfl | hother
      · exact absurd hshows (by rw [shows_of_drop hd]; exact Bool.false_ne_true)
      · exact Or.inl (Or.inr ⟨j₀, List.mem_of_mem_eraseIdx hother, hshows⟩)
  · rw [he] at h
    have harrive := arriveEffect w.shared e
    rcases h with hshown | ⟨j, hj, hshows⟩
    · exact Or.inl (Or.inl (harrive.shown ▸ hshown))
    · exact Or.inl (Or.inr ⟨j, hj, harrive.myId ▸ hshows⟩)

end Nullgate
