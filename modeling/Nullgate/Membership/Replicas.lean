/-
  File:      Nullgate/Membership/Replicas.lean
  Subject:   MANY DEVICES, ONE DOCUMENT: what their cached rosters come to.

  The devices of a network write to the membership document, pass on what they hold, and fold it,
  each at its own pace.

  * `Move`, `worldStep` -- a delivery from one device to another, or a step of one by itself;
  * `History`, `Calm`, `KeepsGoing` -- a run of all devices, the time when nothing new is written,
    and that nobody stops for good;
  * `Turned`, `Due` -- what a turn of the maintenance loop does, and how many it takes;
  * **`rosters_converge`**: when writing stops and the devices go on syncing, all that are online
    come to cache the roster of everything that was written, and keep it.
-/
import Nullgate.Lib.Replicated
import Nullgate.Lib.Schedule
import Nullgate.Membership.Synced

namespace Nullgate

open Nullgate.Lib Synced

variable {α : Type} {C : Crates} {D : DocCrates α} {x : Synced α} {rc : Config} {clock : UInt64}

/-! ## 1. All devices -/

/-- What happens to the devices of a network. -/
inductive Move (ι α : Type) where
  /-- a part of what one device holds gets to another, or a sync between them finishes -/
  | deliver (src dst : ι) (a : Holding α)
  /-- a device by itself -/
  | own (d : ι) (ev : SyncEvent α)

section World

variable {ι : Type} [DecidableEq ι] [SemilatticeSup α]

variable (C D) in
def worldStep (s : ι → Synced α) : Move ι α → ι → Synced α
  | .deliver _ dst a => Function.update s dst ((s dst).insert a)
  | .own d ev => Function.update s d ((s d).step C D ev)

/-- **Nothing is written any more**: what is delivered is part of what its sender holds, no read
    fails, nobody goes offline or online, and no new `refresh_roster` begins. -/
def Calm (s : ι → Synced α) : Move ι α → Prop
  | .deliver src _ a => a ≤ (s src).held
  | .own _ .watch => True
  | .own _ (.turn _ _ failed) => failed = none
  | .own d (.refresh _) => (s d).refreshing.isSome = true
  | .own _ .networkChanged => True
  | .own _ _ => False

/-- A history of the devices. -/
structure History (C : Crates) (D : DocCrates α) (rc : Config) (clock : UInt64)
    (sched : Nat → Move ι α) (w : Nat → ι → Synced α) : Prop where
  booted : ∀ d, (w 0 d).Booted
  next : ∀ t, w (t + 1) = worldStep C D (w t) (sched t)
  /-- the devices are online in one network -/
  network : ∀ t d cfg doc author, sched t = .own d (.activate cfg doc author) → cfg.rosterCfg C = rc
  /-- the clocks of the ticks agree on what they read -/
  clocked : ∀ t d nowCoarse now failed, sched t = .own d (.turn nowCoarse now failed) →
    (w t d).Clocked D clock now

/-- **The devices go on**: syncs finish, watchers take their events, ticks begin and end, and what a
    `refresh_roster` has folded gets stored, again and again. -/
structure KeepsGoing (sched : Nat → Move ι α) (w : Nat → ι → Synced α) : Prop where
  synced : ∀ d t, ∃ t', t ≤ t' ∧ ∃ src a, sched t' = .deliver src d a
  watched : ∀ d t, ∃ t', t ≤ t' ∧ sched t' = .own d .watch
  turned : ∀ d t, ∃ t', t ≤ t' ∧ ∃ nowCoarse now failed,
    sched t' = .own d (.turn nowCoarse now failed)
  stored : ∀ d t, ∃ t', t ≤ t' ∧ (w t' d).refreshing = none

/-! ## 2. What they hold -/

namespace Synced

/-- **Only the document engine changes what a device holds.** -/
theorem held_step (x : Synced α) (ev : SyncEvent α) :
    (x.step C D ev).held = match ev with
      | .insert a => x.held ⊔ a
      | _ => x.held := by
  cases ev with
  | turn nowCoarse now failed =>
    unfold step
    dsimp only
    split
    · rcases x.beginTick_cases nowCoarse with heq | ⟨_, _, _, -, -, -, heq⟩ <;> rw [heq]
    · unfold endTick
      dsimp only
      split
      · split
        · rfl
        · rfl
        · exact held_enforce _ _
      · exact held_enforce _ _
  | refresh now =>
    unfold step beginRefresh
    dsimp only
    repeat' split
    all_goals rfl
  | _ => rfl

end Synced

variable {s : ι → Synced α} {m : Move ι α} {d : ι}

theorem held_le_worldStep (s : ι → Synced α) (m : Move ι α) (d : ι) :
    (s d).held ≤ (worldStep C D s m d).held := by
  cases m with
  | deliver src dst a =>
    rw [worldStep, Function.update_apply]
    split
    · rename_i heq
      rw [heq]
      exact le_sup_left
    · exact le_rfl
  | own d' ev =>
    rw [worldStep, Function.update_apply]
    split
    · rename_i heq
      rw [heq, held_step]
      cases ev with
      | insert a => exact le_sup_left
      | _ => exact le_rfl
    · exact le_rfl

/-- **A calm step adds nothing to the whole.** -/
theorem Calm.held_le [Fintype ι] [OrderBot α] (h : Calm s m) (d : ι) :
    (worldStep C D s m d).held ≤ whole fun i => (s i).held := by
  have hwhole := fun i => le_whole (fun i => (s i).held) i
  cases m with
  | deliver src dst a =>
    rw [worldStep, Function.update_apply]
    split
    · exact sup_le (hwhole dst) (le_trans h (hwhole src))
    · exact hwhole d
  | own d' ev =>
    rw [worldStep, Function.update_apply]
    split
    · rw [held_step]
      cases ev with
      | insert a => cases h
      | _ => exact hwhole d'
    · exact hwhole d

/-! ## 3. From a note to the cache -/

namespace Synced

/-- The device is offline, or caches the roster. -/
def Settled (R : Roster) (x : Synced α) : Prop := x.doc = none ∨ x.roster = R

/-- A tick that folds is under way. -/
def Folding (x : Synced α) : Prop := ∃ cfg, x.ticking = some (cfg, true)

/-- A step that passes by what leads to the cache. -/
structure Aside (x y : Synced α) : Prop where
  doc : y.doc = x.doc
  roster : y.roster = x.roster
  ticking : y.ticking = x.ticking
  dirty : y.docsDirty = x.docsDirty
  notes : x.notes = true → y.notes = true

/-- What a turn of the maintenance loop does, where a fold yields `R`: it settles the device, begins
    a tick, or ends one that does not fold. -/
inductive Turned (R : Roster) (x y : Synced α) : Prop
  | settled (h : y.Settled R)
  | began (idle : x.ticking = none) (doc : y.doc = x.doc) (roster : y.roster = x.roster)
      (notes : y.notes = x.notes) (dirty : x.docsDirty = true → y.Folding)
  | passed (cfg : StoredConfig) (ticking : x.ticking = some (cfg, false)) (idle : y.ticking = none)
      (doc : y.doc = x.doc) (roster : y.roster = x.roster) (notes : y.notes = x.notes)
      (dirty : y.docsDirty = x.docsDirty)

/-- **What one turn does.** -/
theorem turned (h : x.Configured C rc) (nowCoarse : UInt64) {now : UInt64}
    (hclock : x.Clocked D clock now) :
    Turned (x.view C D rc clock) x (x.step C D (.turn nowCoarse now none)) := by
  unfold step
  dsimp only
  split
  · rename_i hidle
    by_cases hoff : x.doc = none
    · exact .settled (Or.inl (by simp [beginTick, hoff]))
    · rcases x.beginTick_cases nowCoarse with heq | ⟨cfg, rebuild, last, hon, hcfg, hdue, heq⟩
      · -- an online device has a config, so a tick begins
        obtain ⟨d, hd⟩ := Option.ne_none_iff_exists'.mp hoff
        obtain ⟨cfg, hcfg, -⟩ := h.config (by rw [hd]; rfl)
        have hticking : (x.beginTick nowCoarse).ticking ≠ none := by simp [beginTick, hd, hcfg]
        rw [heq] at hticking
        exact absurd hidle hticking
      · rw [heq]
        exact .began hidle rfl rfl rfl fun hdirty => ⟨cfg, by rw [hdue hdirty]⟩
  · rename_i cfg rebuild hticking
    unfold endTick
    cases rebuild with
    | false =>
      simp only [Bool.false_eq_true, if_false]
      rcases enforce_cases { x with ticking := none } x.roster with ⟨hoff, -⟩ | ⟨b, heq⟩
      · exact .settled (Or.inl hoff)
      · rw [heq]
        exact .passed cfg hticking rfl rfl rfl rfl rfl
    | true =>
      have hfold : ({ x with ticking := none } : Synced α).fold C D (cfg.rosterCfg C) now =
          .ok (x.view C D rc clock) := by
        rw [h.ticking cfg true hticking]
        exact hclock.fold_eq
      simp only [if_true, hfold]
      rcases enforce_cases { x with ticking := none } (x.view C D rc clock) with
        ⟨hoff, -⟩ | ⟨b, heq⟩
      · exact .settled (Or.inl hoff)
      · rw [heq]
        exact .settled (Or.inr rfl)

/-- A step of a device that holds the whole. -/
inductive Onward (C : Crates) (D : DocCrates α) (R : Roster) (x y : Synced α) : Prop
  | aside (h : Aside x y)
  | watch (h : y = x.step C D .watch)
  | turn (h : Turned R x y)

variable {R : Roster} {y : Synced α}

theorem Settled.onward (h : x.Settled R) (hxy : Onward C D R x y) : y.Settled R := by
  cases hxy with
  | aside ha => exact h.imp (fun hd => ha.doc.trans hd) fun hr => ha.roster.trans hr
  | watch hw => exact hw ▸ h
  | turn ht =>
    cases ht with
    | settled hs => exact hs
    | began _ hdoc hroster => exact h.imp (fun hd => hdoc.trans hd) fun hr => hroster.trans hr
    | passed _ _ _ hdoc hroster => exact h.imp (fun hd => hdoc.trans hd) fun hr => hroster.trans hr

/-- The watcher has a note. -/
def Told (R : Roster) (x : Synced α) : Prop := x.Settled R ∨ x.notes = true

/-- The device settles within `n` turns: one of them ends a tick that does not fold, one begins a
    tick that does, and one ends it. -/
def Due (R : Roster) (n : Nat) (x : Synced α) : Prop :=
  x.Settled R ∨ (1 ≤ n ∧ x.Folding) ∨ (2 ≤ n ∧ x.docsDirty = true ∧ x.ticking = none) ∨
    (3 ≤ n ∧ x.docsDirty = true)

theorem Told.onward (h : x.Told R) (hxy : Onward C D R x y) : y.Told R ∨ y.Due R 3 := by
  rcases h with hs | hnotes
  · exact Or.inl (Or.inl (hs.onward hxy))
  cases hxy with
  | aside ha => exact Or.inl (Or.inr (ha.notes hnotes))
  | watch hw =>
    have hdirty : y.docsDirty = true := by
      rw [hw]
      simp [step, hnotes]
    exact Or.inr (Or.inr (Or.inr (Or.inr ⟨le_rfl, hdirty⟩)))
  | turn ht =>
    cases ht with
    | settled hs => exact Or.inl (Or.inl hs)
    | began _ _ _ hn => exact Or.inl (Or.inr (hn.trans hnotes))
    | passed _ _ _ _ _ hn => exact Or.inl (Or.inr (hn.trans hnotes))

theorem Told.watched (h : x.Told R) : (x.step C D .watch).Due R 3 := by
  rcases h with hs | hnotes
  · exact Or.inl hs
  · exact Or.inr (Or.inr (Or.inr ⟨le_rfl, by simp [step, hnotes]⟩))

omit [SemilatticeSup α] in
theorem Due.mono {n n' : Nat} (h : x.Due R n) (hn : n ≤ n') : x.Due R n' := by
  rcases h with hs | ⟨h1, hf⟩ | ⟨h2, hr⟩ | ⟨h3, hd⟩
  · exact Or.inl hs
  · exact Or.inr (Or.inl ⟨h1.trans hn, hf⟩)
  · exact Or.inr (Or.inr (Or.inl ⟨h2.trans hn, hr⟩))
  · exact Or.inr (Or.inr (Or.inr ⟨h3.trans hn, hd⟩))

omit [SemilatticeSup α] in
/-- **Each turn uses up one.** -/
theorem Due.turned {n : Nat} (h : x.Due R (n + 1)) (hxy : Turned R x y) : y.Due R n := by
  cases hxy with
  | settled hs => exact Or.inl hs
  | began hidle hdoc hroster _ hd =>
    rcases h with hs | ⟨-, cfg, hc⟩ | ⟨h2, hdirty, -⟩ | ⟨h3, hdirty⟩
    · exact Or.inl (hs.imp (fun h => hdoc.trans h) fun h => hroster.trans h)
    · rw [hidle] at hc
      cases hc
    · exact Or.inr (Or.inl ⟨by omega, hd hdirty⟩)
    · exact Or.inr (Or.inl ⟨by omega, hd hdirty⟩)
  | passed cfg hp hidle hdoc hroster _ hd =>
    rcases h with hs | ⟨-, cfg, hc⟩ | ⟨-, -, hr⟩ | ⟨h3, hdirty⟩
    · exact Or.inl (hs.imp (fun h => hdoc.trans h) fun h => hroster.trans h)
    · rw [hp] at hc
      cases hc
    · rw [hp] at hr
      cases hr
    · exact Or.inr (Or.inr (Or.inl ⟨by omega, hd.trans hdirty, hidle⟩))

/-- No other step uses up any, or adds to it. -/
theorem Due.onward {n : Nat} (h : x.Due R (n + 1)) (hxy : Onward C D R x y) : y.Due R (n + 1) := by
  cases hxy with
  | aside ha =>
    refine h.imp (fun hs => hs.onward (C := C) (D := D) (.aside ha)) (Or.imp ?_ (Or.imp ?_ ?_))
    · exact And.imp_right (Exists.imp fun _ hc => ha.ticking.trans hc)
    · exact And.imp_right (And.imp ha.dirty.trans ha.ticking.trans)
    · exact And.imp_right ha.dirty.trans
  | watch hw =>
    have hdirty : x.docsDirty = true → y.docsDirty = true := fun hd => by
      rw [hw]
      simp [step, hd]
    have hticking : y.ticking = x.ticking := by rw [hw]; rfl
    refine h.imp (fun hs => hs.onward (C := C) (D := D) (.watch hw)) (Or.imp ?_ (Or.imp ?_ ?_))
    · exact And.imp_right (Exists.imp fun _ hc => hticking.trans hc)
    · exact And.imp_right (And.imp hdirty hticking.trans)
    · exact And.imp_right hdirty
  | turn ht => exact (h.turned ht).mono (Nat.le_succ n)

end Synced

/-! ## 4. All devices settle -/

variable {sched : Nat → Move ι α} {w : Nat → ι → Synced α}

theorem History.configured (h : History C D rc clock sched w) (t : Nat) (d : ι) :
    (w t d).Configured C rc := by
  induction t with
  | zero => exact (h.booted d).configured
  | succ t ih =>
    rw [h.next t]
    cases hm : sched t with
    | deliver src dst a =>
      rw [worldStep, Function.update_apply]
      split
      · rename_i heq
        exact heq ▸ ih.step (D := D) (.insert a) fun cfg doc author hev => by cases hev
      · exact ih
    | own d' ev =>
      rw [worldStep, Function.update_apply]
      split
      · rename_i heq
        subst heq
        exact ih.step ev fun cfg doc author hev => h.network t d cfg doc author (hev ▸ hm)
      · exact ih

/-- **What a calm step is to one device** that holds what it will hold, and has no fold of a
    `refresh_roster` on its way. -/
theorem Calm.onward (h : Calm s m) (hconf : (s d).Configured C rc)
    (hclock : ∀ nowCoarse now failed, m = .own d (.turn nowCoarse now failed) →
      (s d).Clocked D clock now)
    (hstored : (s d).refreshing = none) :
    Onward C D ((s d).view C D rc clock) (s d) (worldStep C D s m d) ∧
      (worldStep C D s m d).refreshing = none := by
  have hself : Onward C D ((s d).view C D rc clock) (s d) (s d) := .aside ⟨rfl, rfl, rfl, rfl, id⟩
  cases m with
  | deliver src dst a =>
    rw [worldStep, Function.update_apply]
    split
    · rename_i heq
      subst heq
      exact ⟨.aside ⟨rfl, rfl, rfl, rfl, fun hn => by simp [Synced.insert, hn]⟩, hstored⟩
    · exact ⟨hself, hstored⟩
  | own d' ev =>
    rw [worldStep, Function.update_apply]
    split
    · rename_i heq
      subst heq
      cases ev with
      | watch => exact ⟨.watch rfl, hstored⟩
      | turn nowCoarse now failed =>
        obtain rfl : failed = none := h
        exact ⟨.turn (turned hconf nowCoarse (hclock nowCoarse now none rfl)),
          (refreshing_turn ..).trans hstored⟩
      | refresh now =>
        have hsome : (s d).refreshing.isSome = true := h
        rw [hstored] at hsome
        cases hsome
      | networkChanged => exact ⟨.aside ⟨rfl, rfl, rfl, rfl, id⟩, hstored⟩
      | insert a => cases h
      | softDisconnect => cases h
      | activate cfg doc author => cases h
    · exact ⟨hself, hstored⟩

/-- A sync that finishes leaves a note with a device that is online. -/
theorem History.told (h : History C D rc clock sched w) (hgo : KeepsGoing sched w) (d : ι) (N : Nat)
    {R : Roster} : ∃ t, N ≤ t ∧ (w t d).Told R := by
  obtain ⟨t, ht, src, a, hm⟩ := hgo.synced d N
  refine ⟨t + 1, by omega, ?_⟩
  rw [h.next t, hm, worldStep, Function.update_self]
  by_cases hoff : (w t d).doc = none
  · exact Or.inl (Or.inl hoff)
  · exact Or.inr (by simp [Synced.insert, Option.isSome_iff_ne_none.mpr hoff])

/-- What a turn does to a device that holds `W`. -/
theorem History.turned (h : History C D rc clock sched w) {t : Nat} {W : Holding α}
    {nowCoarse now : UInt64} {failed : Option String}
    (hm : sched t = .own d (.turn nowCoarse now failed)) (hcalm : Calm (w t) (sched t))
    (hheld : (w t d).held = W) :
    Turned (Roster.build C.toPrimitives clock rc (D.entries W)) (w t d) (w (t + 1) d) := by
  rw [hm] at hcalm
  obtain rfl : failed = none := hcalm
  have hturn := Synced.turned (h.configured t d) nowCoarse (h.clocked t d nowCoarse now none hm)
  rw [view, hheld] at hturn
  rw [h.next t, hm, worldStep, Function.update_self]
  exact hturn

/-- **A device that holds the whole settles.** -/
theorem History.settles (h : History C D rc clock sched w) (hgo : KeepsGoing sched w) {N : Nat}
    (hcalm : ∀ t, N ≤ t → Calm (w t) (sched t)) (d : ι) {W : Holding α}
    (hheld : ∀ t, N ≤ t → (w t d).held = W) {R : Roster}
    (hR : R = Roster.build C.toPrimitives clock rc (D.entries W)) :
    ∀ᶠ t in Filter.atTop, (w t d).Settled R := by
  obtain ⟨N', hN, hnone⟩ := hgo.stored d N
  have hnext : ∀ t, N' ≤ t → (w t d).refreshing = none →
      Onward C D R (w t d) (w (t + 1) d) ∧ (w (t + 1) d).refreshing = none := fun t ht hr => by
    have ho := (hcalm t (hN.trans ht)).onward (h.configured t d)
      (fun nowCoarse now failed hm => h.clocked t d nowCoarse now failed hm) hr
    rw [← h.next t, view, hheld t (hN.trans ht), ← hR] at ho
    exact ho
  have hstored : ∀ t, N' ≤ t → (w t d).refreshing = none := fun t ht => by
    induction t, ht using Nat.le_induction with
    | base => exact hnone
    | succ t ht ih => exact (hnext t ht ih).2
  have honward := fun t ht => (hnext t ht (hstored t ht)).1
  -- a sync leaves a note, the watcher makes a request of it, and three turns settle the device
  obtain ⟨t, ht, htold⟩ : ∃ t, N' ≤ t ∧ (w t d).Told R := h.told hgo d N'
  obtain ⟨t', ht', hdue⟩ : ∃ m, t ≤ m ∧ (w m d).Due R 3 := by
    refine stays_until (P := fun m => (w m d).Told R) htold
      (fun n hn hP => hP.onward (honward n (ht.trans hn))) fun n _ => ?_
    obtain ⟨m, hm, hwatch⟩ := hgo.watched d n
    refine ⟨m, hm, fun hP => ?_⟩
    rw [h.next m, hwatch, worldStep, Function.update_self]
    exact hP.watched
  have hcome : ∀ k t, N' ≤ t → (w t d).Due R k → ∃ m, N' ≤ m ∧ (w m d).Settled R := fun k => by
    induction k with
    | zero =>
      rintro t ht (hs | ⟨h1, -⟩ | ⟨h2, -⟩ | ⟨h3, -⟩)
      · exact ⟨t, ht, hs⟩
      all_goals omega
    | succ k ih =>
      intro t ht hd
      obtain ⟨m, hm, hd'⟩ : ∃ m, t ≤ m ∧ (w m d).Due R k := by
        refine stays_until (P := fun m => (w m d).Due R (k + 1)) hd
          (fun n hn hP => Or.inl (hP.onward (honward n (ht.trans hn)))) fun n hn => ?_
        obtain ⟨m, hm, nowCoarse, now, failed, hturn⟩ := hgo.turned d n
        have hm' : N ≤ m := hN.trans (ht.trans (hn.trans hm))
        have hturned := h.turned hturn (hcalm m hm') (hheld m hm')
        rw [← hR] at hturned
        exact ⟨m, hm, fun hP => hP.turned hturned⟩
      exact ih m (ht.trans hm) hd'
  exact eventually_of_stays (hcome 3 t' (ht.trans ht') hdue) fun n hn hs => hs.onward (honward n hn)

/-- **Rosters converge.** Let any number of devices write to the membership document and sync as
    they like; the entries may come from anyone, but no tick's clock takes one for dated ahead that
    another takes in. From some time on let nothing new be written and no read fail, let the
    devices go on, and let what each holds get to each other one, over as many others as it takes.
    Then there is a time from which on every device that is online caches the same roster: the fold
    of all that was held when the writing stopped. -/
theorem rosters_converge [Fintype ι] [OrderBot α] (h : History C D rc clock sched w)
    (hgo : KeepsGoing sched w) {T : Nat} (hcalm : ∀ t, T ≤ t → Calm (w t) (sched t))
    (hconn : ∀ i j, Relation.ReflTransGen (Reaches fun t d => (w t d).held) i j) :
    ∀ᶠ t in Filter.atTop, ∀ d, (w t d).doc.isSome = true →
      (w t d).roster =
        Roster.build C.toPrimitives clock rc (D.entries (whole fun d => (w T d).held)) := by
  have hgrow : Grows fun t d => (w t d).held := fun t d => by
    dsimp only
    rw [h.next t]
    exact held_le_worldStep (w t) (sched t) d
  have hnew : NothingNew (fun t d => (w t d).held) T := fun t ht d => by
    dsimp only
    rw [h.next t]
    exact (hcalm t ht).held_le d
  obtain ⟨N, hN⟩ := Filter.eventually_atTop.mp (eventually_whole hgrow hnew hconn)
  have hsettle := Filter.eventually_all.mpr fun d =>
    h.settles hgo (N := max N T) (fun t ht => hcalm t ((le_max_right N T).trans ht)) d
      (fun t ht => hN t ((le_max_left N T).trans ht) d) rfl
  filter_upwards [hsettle] with t ht d hon
  refine (ht d).resolve_left fun hoff => ?_
  rw [hoff] at hon
  cases hon

end World

/-! ## 5. Two devices -/

namespace Sample

/-- What two devices that are online do, over and over: sync both ways, hear of it, and tick. -/
def around : Nat → Move Bool (Finset Record)
  | 0 => .deliver false true genesisHeld
  | 1 => .deliver true false genesisHeld
  | 2 => .own false .watch
  | 3 => .own true .watch
  | 4 => .own false (.turn 1000 100 none)
  | _ => .own true (.turn 1000 100 none)

def syncing : Nat → Move Bool (Finset Record)
  | 0 => .own false (.activate (stored none) NET NET)
  | 1 => .own true (.activate (stored none) NET NET)
  | n + 2 => around (n % 6)

/-- Device 2 holds the genesis record, and device 3 nothing. -/
def twoHolders (d : Bool) : Synced (Finset Record) := cond d (holder 3 ⊥) (holder 2 genesisHeld)

def twoSync : Nat → Bool → Synced (Finset Record) :=
  upTo (worldStep .plain docs) twoHolders syncing

/-- Whatever stands in the round comes again and again. -/
theorem comes_around (k t : Nat) (hk : k < 6) : ∃ t', t ≤ t' ∧ syncing t' = around k :=
  ⟨6 * t + k + 2, by omega, by
    show around ((6 * t + k) % 6) = around k
    rw [Nat.mul_add_mod, Nat.mod_eq_of_lt hk]⟩

theorem twoSync_grows : Grows fun t d => (twoSync t d).held := fun t d =>
  held_le_worldStep (twoSync t) (syncing t) d

/-- No device comes to hold more than the genesis record and its blob. -/
theorem twoSync_le (t : Nat) (d : Bool) : (twoSync t d).held ≤ genesisHeld := by
  induction t generalizing d with
  | zero =>
    cases d
    · exact le_rfl
    · exact bot_le
  | succ t ih =>
    show (worldStep .plain docs (twoSync t) (syncing t) d).held ≤ genesisHeld
    have hown : ∀ d' ev, (∀ a, ev ≠ .insert a) →
        (worldStep .plain docs (twoSync t) (.own d' ev) d).held ≤ genesisHeld := fun d' ev hne => by
      rw [worldStep, Function.update_apply]
      split
      · rw [held_step]
        cases ev with
        | insert a => exact absurd rfl (hne a)
        | _ => exact ih d'
      · exact ih d
    have hdeliver : ∀ src dst,
        (worldStep .plain docs (twoSync t) (.deliver src dst genesisHeld) d).held ≤ genesisHeld :=
      fun src dst => by
        rw [worldStep, Function.update_apply]
        split
        · exact sup_le (ih dst) le_rfl
        · exact ih d
    rcases t with _ | _ | n
    · exact hown false _ fun a h => by cases h
    · exact hown true _ fun a h => by cases h
    · show (worldStep .plain docs (twoSync (n + 2)) (around (n % 6)) d).held ≤ genesisHeld
      unfold around
      split
      · exact hdeliver false true
      · exact hdeliver true false
      all_goals exact hown _ _ fun a h => by cases h

theorem twoSync_false (t : Nat) : (twoSync t false).held = genesisHeld :=
  le_antisymm (twoSync_le t false) (twoSync_grows.mono (Nat.zero_le t) false)

theorem twoSync_true {t : Nat} (ht : 3 ≤ t) : (twoSync t true).held = genesisHeld :=
  le_antisymm (twoSync_le t true) (le_trans le_sup_right (twoSync_grows.mono ht true))

theorem twoSync_stored (t : Nat) (d : Bool) : (twoSync t d).refreshing = none := by
  induction t generalizing d with
  | zero => cases d <;> rfl
  | succ t ih =>
    show (worldStep .plain docs (twoSync t) (syncing t) d).refreshing = none
    have hown : ∀ d' ev, ((twoSync t d').step .plain docs ev).refreshing = none →
        (worldStep .plain docs (twoSync t) (.own d' ev) d).refreshing = none := fun d' ev hev => by
      rw [worldStep, Function.update_apply]
      split
      · exact hev
      · exact ih d
    have hdeliver : ∀ src dst,
        (worldStep .plain docs (twoSync t) (.deliver src dst genesisHeld) d).refreshing = none :=
      fun src dst => by
        rw [worldStep, Function.update_apply]
        split
        · exact ih dst
        · exact ih d
    rcases t with _ | _ | n
    · exact hown false _ (ih false)
    · exact hown true _ (ih true)
    · show (worldStep .plain docs (twoSync (n + 2)) (around (n % 6)) d).refreshing = none
      unfold around
      split
      · exact hdeliver false true
      · exact hdeliver true false
      · exact hown false _ (ih false)
      · exact hown true _ (ih true)
      · exact hown false _ ((refreshing_turn ..).trans (ih false))
      · exact hown true _ ((refreshing_turn ..).trans (ih true))

theorem twoSync_history : History .plain docs config 100 syncing twoSync where
  booted d := by cases d <;> exact ⟨rfl, rfl, rfl⟩
  next t := rfl
  network t d cfg doc author hm := by
    rcases t with _ | _ | n
    · obtain ⟨rfl, hev⟩ := Move.own.inj hm
      obtain ⟨rfl, -⟩ := SyncEvent.activate.inj hev
      exact rosterCfg_stored
    · obtain ⟨rfl, hev⟩ := Move.own.inj hm
      obtain ⟨rfl, -⟩ := SyncEvent.activate.inj hev
      exact rosterCfg_stored
    · have hround : ∀ k, around k ≠ .own d (.activate cfg doc author) := fun k => by
        unfold around
        split <;> simp
      exact absurd hm (hround _)
  clocked t d nowCoarse now failed hm := by
    have hnow : now = 100 := by
      rcases t with _ | _ | n
      · cases hm
      · cases hm
      · revert hm
        show around (n % 6) = _ → _
        unfold around
        split <;> simp +contextual
    rw [hnow]
    exact fun e _ => Iff.rfl

theorem twoSync_goes : KeepsGoing syncing twoSync where
  synced d t := by
    cases d
    · obtain ⟨t', ht, hm⟩ := comes_around 1 t (by decide)
      exact ⟨t', ht, true, genesisHeld, hm⟩
    · obtain ⟨t', ht, hm⟩ := comes_around 0 t (by decide)
      exact ⟨t', ht, false, genesisHeld, hm⟩
  watched d t := by
    cases d
    · exact comes_around 2 t (by decide)
    · exact comes_around 3 t (by decide)
  turned d t := by
    cases d
    · obtain ⟨t', ht, hm⟩ := comes_around 4 t (by decide)
      exact ⟨t', ht, 1000, 100, none, hm⟩
    · obtain ⟨t', ht, hm⟩ := comes_around 5 t (by decide)
      exact ⟨t', ht, 1000, 100, none, hm⟩
  stored d t := ⟨t, le_rfl, twoSync_stored t d⟩

theorem twoSync_calm {t : Nat} (ht : 2 ≤ t) : Calm (twoSync t) (syncing t) := by
  obtain ⟨n, rfl⟩ := Nat.exists_eq_add_of_le' ht
  show Calm (twoSync (n + 2)) (around (n % 6))
  have hk : n % 6 < 6 := Nat.mod_lt n (by decide)
  rcases n with _ | n
  · exact (twoSync_false 2).ge
  · unfold around
    split
    · exact (twoSync_false _).ge
    · exact (twoSync_true (by omega)).ge
    all_goals trivial

theorem twoSync_reaches (i j : Bool) :
    Relation.ReflTransGen (Reaches fun t d => (twoSync t d).held) i j := by
  refine Relation.ReflTransGen.single fun t => ⟨max t 3, le_max_left t 3, ?_⟩
  refine (twoSync_le t i).trans ?_
  cases j
  · exact (twoSync_false _).ge
  · exact (twoSync_true (le_max_right t 3)).ge

/-- Together the two hold what the first one does. -/
theorem twoSync_whole : whole (fun d => (twoSync 2 d).held) = genesisHeld :=
  le_antisymm (whole_le fun d => twoSync_le 2 d)
    (le_trans (twoSync_false 2).ge (le_whole (fun d => (twoSync 2 d).held) false))

theorem getMany_genesisHeld : docs.getMany genesisHeld.1 = [genesisRecord] := by
  have hmem : genesisRecord ∈ genesisHeld.1 := Finset.mem_singleton_self _
  simp only [docs, List.filter_cons, hmem, decide_true, if_true, List.filter_nil]

theorem entries_genesisHeld : docs.entries genesisHeld = [genesis] := by
  have hsmall : (entryBytes genesis).length ≤ MAX_ENTRY_BYTES :=
    le_trans (length_entry_le rfl) (by decide)
  have hblob : (docs.replica genesisHeld).blobs genesisRecord.contentHash =
      some (entryBytes genesis) := docs.blobs_replica (Finset.mem_singleton_self _)
  have hcounted : genesisRecord.counted = true := by
    rw [genesisRecord, counted_publishEntry, decide_eq_true hsmall]
  have hparsed : genesisRecord.parsed? docs.reader (docs.replica genesisHeld).blobs =
      some genesis := parsed?_publishEntry hsmall hblob
  rw [DocCrates.entries, getMany_genesisHeld, readRecords, List.filter_cons_of_pos hcounted]
  simp [MAX_ENTRIES, hparsed]

end Sample

/-- The device that held nothing comes to cache the roster of the genesis record as well. -/
theorem rosters_converge_sample : ∀ᶠ t in Filter.atTop, ∀ d,
    (Sample.twoSync t d).doc.isSome = true →
      (Sample.twoSync t d).roster = Roster.build .plain 100 Sample.config [Sample.genesis] := by
  have hconv := rosters_converge Sample.twoSync_history Sample.twoSync_goes
    (fun t ht => Sample.twoSync_calm ht) Sample.twoSync_reaches
  rw [Sample.twoSync_whole, Sample.entries_genesisHeld] at hconv
  exact hconv

end Nullgate
