/-
  File:      Nullgate/Mesh/Ghosts.lean
  Subject:   GHOST CONNECTIONS: open, registered, and in no table.

  * `Live.NoGhost`: every open registered connection is the entry of its peer;
  * `noGhost_iff`: it holds in every state of a run exactly when the sweep, at each item of
    its snapshot, finds no other open connection in the place it clears (`SweepsOwn`);
  * `tick_leaves_none`: a peer that is in no roster any more, and whose registrations have
    ended, has no open connection behind the sweep of the next tick;
  * `ghost_connection`: a peer that connects again between two items of the sweep.
-/
import Nullgate.Engine.Stretches

namespace Nullgate

open Nullgate.Lib

/-! ## 1. The invariant -/

namespace Live

/-- **Every open registered connection is the entry of its peer.** -/
def NoGhost (l : Live) : Prop := ∀ r ∈ l.registered, l.mesh.Tracks r.1 r.2

/-- Every entry of the table is a registered connection. -/
def EntriesRegistered (l : Live) : Prop :=
  ∀ p c, l.mesh.conns[p]? = some c → (p, c) ∈ l.registered

/-- In the place of `p` stands nothing, the connection `c`, or a closed one. -/
def SweepOk (l : Live) (p : Id) (c : Conn) : Prop :=
  ∀ d ∈ l.mesh.conns[p]?, d.id = c.id ∨ l.mesh.isClosed d = true

instance decidableSweepOk (l : Live) (p : Id) (c : Conn) : Decidable (l.SweepOk p c) :=
  inferInstanceAs (Decidable (∀ d ∈ l.mesh.conns[p]?, _))

end Live

/-- The item of the sweep that the task runs next. -/
def Task.nextItem : Task → Option (Id × Conn)
  | .tickSweep _ _ (item :: _) => some item
  | _ => none

theorem Task.nextItem_eq {t : Task} {item : Id × Conn} (h : t.nextItem = some item) :
    ∃ roster peer stale, t = .tickSweep roster peer (item :: stale) := by
  unfold nextItem at h
  split at h
  · rename_i roster peer item' stale
    obtain rfl := Option.some.inj h
    exact ⟨roster, peer, stale, rfl⟩
  · cases h

variable {C : Crates} {l l' : Live} {t : Task}

theorem noGhost_change (h : MeshChange l t l') (hI : l.NoGhost)
    (hg : ∀ item ∈ t.nextItem, l.SweepOk item.1 item.2) : l'.NoGhost := by
  intro r hr
  cases h with
  | same mesh registered =>
    rw [registered] at hr
    rw [mesh]
    exact hI r hr
  | swept p c mesh registered which =>
    rw [registered] at hr
    rw [mesh, Mesh.tracks_sweepOne_iff (hI r hr)]
    intro hp
    cases hopen : l.mesh.isClosed r.2 with
    | true => exact Or.inl rfl
    | false =>
      right
      have hentry : l.mesh.conns[p]? = some r.2 := hp ▸ hI r hr hopen
      rcases which with hc | ⟨roster, q, stale, ht⟩
      · rw [Option.some.inj (hentry.symm.trans hc)]
      · rcases hg (p, c) (by rw [ht]; rfl) r.2 hentry with hid | hclosed
        · exact hid
        · rw [hopen] at hclosed
          cases hclosed
  | registered p c mesh registered which =>
    rw [registered] at hr
    rw [mesh]
    rcases List.mem_cons.mp hr with rfl | hr
    · exact Mesh.tracks_registerMesh_self l.myId l.mesh p c
    · exact (hI r hr).registerMesh l.myId p c
  | evicted p c mesh registered closed =>
    rw [registered] at hr
    rw [mesh]
    exact (hI r hr).evict closed p
  | drained mesh registered =>
    rw [registered] at hr
    rw [mesh]
    exact (hI r hr).drain

theorem entriesRegistered_change (h : MeshChange l t l') (hJ : l.EntriesRegistered) :
    l'.EntriesRegistered := by
  intro q d hd
  cases h with
  | same mesh registered =>
    rw [mesh] at hd
    rw [registered]
    exact hJ q d hd
  | swept p c mesh registered which =>
    rw [mesh, Mesh.sweepOne, Mesh.conns_remove] at hd
    rw [registered]
    split at hd
    · cases hd
    · exact hJ q d hd
  | registered p c mesh registered which =>
    rw [mesh] at hd
    rw [registered]
    rcases Mesh.registerMesh_entry hd with hd | ⟨rfl, rfl⟩
    · exact List.mem_cons_of_mem _ (hJ q d hd)
    · exact List.mem_cons_self
  | evicted p c mesh registered closed =>
    rw [mesh] at hd
    rw [registered]
    exact hJ q d (Mesh.evict_entry hd)
  | drained mesh registered =>
    rw [mesh, Mesh.conns_drain] at hd
    cases hd

/-! ## 2. Every run -/

/-- The next item of the sweep, if the action runs it, clears its own place. -/
def SweepsOwn (w : World Live Task) : Act Task Answers Outside → Prop
  | .go k _ => ∀ item ∈ w.tasks[k]?.bind Task.nextItem, w.shared.SweepOk item.1 item.2
  | _ => True

instance decidableSweepsOwn (w : World Live Task) : ∀ act, Decidable (SweepsOwn w act)
  | .go k _ => inferInstanceAs (Decidable (∀ item ∈ w.tasks[k]?.bind Task.nextItem, _))
  | .start _ => isTrue trivial
  | .drop _ => isTrue trivial
  | .env _ => isTrue trivial

theorem noGhost_outside (h : l.NoGhost) (e : Outside) : (outside l e).NoGhost := by
  cases e with
  | closed id => exact fun r hr => (h r hr).close ⟨id, .client⟩
  | _ => exact h

theorem entriesRegistered_step {w : World Live Task} (h : w.shared.EntriesRegistered)
    (act : Act Task Answers Outside) : ((engine C).step w act).shared.EntriesRegistered := by
  refine Program.step_shared h (fun a t => ?_) (fun e => ?_) act
  · exact entriesRegistered_change (stretched C w.shared a t).meshChange h
  · cases e <;> exact h

/-- **A stretch keeps the invariant exactly when the sweep clears its own place.** -/
theorem noGhost_stretch_iff (hJ : l.EntriesRegistered) (hI : l.NoGhost) (a : Answers)
    (t : Task) :
    (stretch C l a t).1.NoGhost ↔ ∀ item ∈ t.nextItem, l.SweepOk item.1 item.2 := by
  refine ⟨?_, ?_⟩
  · intro hI' item hitem d hd
    obtain ⟨p, c⟩ := item
    obtain ⟨roster, q, stale, rfl⟩ : ∃ roster q stale, t = .tickSweep roster q ((p, c) :: stale) :=
      Task.nextItem_eq hitem
    have htrack : (l.mesh.sweepOne p c).Tracks p d := hI' (p, d) (hJ p d hd)
    exact ((Mesh.tracks_sweepOne_iff (hI (p, d) (hJ p d hd))).mp htrack rfl).symm
  · intro hg
    exact noGhost_change (stretched C l a t).meshChange hI hg

/-- So does a step. -/
theorem noGhost_step_iff {w : World Live Task} (hJ : w.shared.EntriesRegistered)
    (hI : w.shared.NoGhost) (act : Act Task Answers Outside) :
    ((engine C).step w act).shared.NoGhost ↔ SweepsOwn w act := by
  refine (Program.step_shared_iff (I := Live.NoGhost)
    (Q := fun l _ t => ∀ item ∈ t.nextItem, l.SweepOk item.1 item.2) hI
    (fun a t => noGhost_stretch_iff hJ hI a t) (fun e => noGhost_outside hI e) act).trans ?_
  cases act with
  | go k a =>
    refine ⟨?_, ?_⟩
    · intro h item hitem
      obtain ⟨t, ht, hnext⟩ := Option.mem_bind_iff.mp hitem
      exact h k a rfl t ht item hnext
    · intro h k' a' hact t ht item hitem
      cases hact
      exact h item (Option.mem_bind_iff.mpr ⟨t, ht, hitem⟩)
  | _ => exact iff_of_true (fun k a ha => by cases ha) trivial

/-- **No ghost connections**, in every run of the tasks, exactly when each item of a sweep
    clears the place of the connection it closes. -/
theorem noGhost_iff {w : World Live Task} (hJ : w.shared.EntriesRegistered)
    (hI : w.shared.NoGhost) (acts : List (Act Task Answers Outside)) :
    Throughout (engine C).step (fun w => w.shared.NoGhost) w acts ↔
      EachStep (engine C).step SweepsOwn w acts :=
  throughout_iff (J := fun w : World Live Task => w.shared.EntriesRegistered)
    (fun _ act h => entriesRegistered_step h act) (fun _ act hJ hI => noGhost_step_iff hJ hI act)
    hJ hI

/-! ## 3. A peer that has been removed -/

/-- The task dials `P`, or holds a roster that has `P`. -/
def Task.Reaches (P : Id) : Task → Prop
  | .dial peer => peer = P
  | .tickSweep roster _ _ => roster.isMember P = true
  | .tickStore roster _ => roster.isMember P = true
  | .refreshStore roster => roster.isMember P = true
  | _ => False

/-- **`P` has left**: the cached roster does not have it, and no task is about to bring it
    back. -/
def Away (P : Id) (w : World Live Task) : Prop :=
  w.Inv (fun l => l.roster.isMember P = false) (fun _ t => ¬ t.Reaches P)

variable (C) in
/-- What the action folds is a roster without `P`. -/
def FoldsWithout (P : Id) (w : World Live Task) : Act Task Answers Outside → Prop
  | .go k a => ∀ cfg roster,
      w.tasks[k]? = some (.tickFold cfg true) ∨ w.tasks[k]? = some (.refreshFold cfg) →
      w.shared.foldRoster C a cfg true = .ok roster → roster.isMember P = false
  | _ => True

variable {P : Id} {a : Answers} {roster : Roster}

theorem not_reaches_sweepNext (h : roster.isMember P = false) (l : Live)
    (stale : List (Id × Conn)) : ¬ (l.sweepNext a roster stale).2.Reaches P := by
  intro hr
  have hm : roster.isMember P = true := by
    cases stale with
    | nil => exact hr
    | cons x stale => exact hr
  rw [h] at hm
  cases hm

theorem not_reaches_of_plain (h : t.plain = true) : ¬ t.Reaches P := by
  intro hr
  cases t with
  | dial peer => cases h
  | tickSweep roster peer stale => cases h
  | tickStore roster connected => cases h
  | refreshStore roster => cases h
  | _ => exact hr

/-- No stretch brings back a peer that has left. -/
theorem away_stretched {t' : Task} {spawned : List Task} (h : Stretched C l a t l' t' spawned)
    (hI : l.roster.isMember P = false) (ht : ¬ t.Reaches P)
    (hfold : ∀ cfg roster, t = .tickFold cfg true ∨ t = .refreshFold cfg →
      l.foldRoster C a cfg true = .ok roster → roster.isMember P = false) :
    l'.roster.isMember P = false ∧ ¬ t'.Reaches P ∧ ∀ t'' ∈ spawned, ¬ t''.Reaches P := by
  cases h with
  | pass _ ht' => exact ⟨hI, not_reaches_of_plain ht', List.forall_mem_nil _⟩
  | @enforce cfg rebuild roster l₁ next hroster hlive hnext =>
    have hm : roster.isMember P = false := by
      cases rebuild with
      | true => exact hfold cfg roster (Or.inl rfl) hroster
      | false => exact Except.ok.inj hroster ▸ hI
    subst hnext hlive
    refine ⟨?_, not_reaches_sweepNext hm _ _, List.forall_mem_nil _⟩
    rw [Live.roster_sweepNext]
    exact hI
  | @sweep roster peer stale next hnext =>
    have hm : roster.isMember P = false := (Bool.not_eq_true _).mp ht
    subst hnext
    refine ⟨?_, not_reaches_sweepNext hm _ _, List.forall_mem_nil _⟩
    rw [Live.roster_sweepNext]
    exact hI
  | store roster connected =>
    have hm : roster.isMember P = false := (Bool.not_eq_true _).mp ht
    refine ⟨hm, id, fun t' ht' => ?_⟩
    -- only members of the roster are dialed
    obtain ⟨q, hq, rfl⟩ := List.mem_map.mp ht'
    rintro rfl
    have hmem := Std.ExtTreeMap.mem_keys.mp (List.mem_filter.mp hq).1
    rw [Roster.isMember, Std.ExtTreeMap.contains_iff_mem.mpr hmem] at hm
    cases hm
  | live =>
    refine ⟨hI, ?_, List.forall_mem_nil _⟩
    cases a.liveOrder.list l.mesh.conns.keys <;> exact id
  | refresh peer live =>
    refine ⟨hI, ?_, List.forall_mem_nil _⟩
    cases live <;> exact id
  | @register t dialed peer conn next _ hnext =>
    subst hnext
    refine ⟨hI, ?_, List.forall_mem_nil _⟩
    simp only [Live.registerConn]
    split <;> exact id
  | record dialed peer conn =>
    refine ⟨hI, id, fun t' ht' => ?_⟩
    rcases List.mem_pair.mp ht' with rfl | rfl <;> exact id
  | @watch peer conn hclosed =>
    refine ⟨hI, ?_, List.forall_mem_nil _⟩
    split <;> exact id
  | reset ht' => exact ⟨rfl, not_reaches_of_plain ht', List.forall_mem_nil _⟩
  | @latch cfg roster hroster =>
    have hm := hfold cfg roster (Or.inr rfl) hroster
    exact ⟨hI, (Bool.not_eq_true _).mpr hm, List.forall_mem_nil _⟩
  | cache roster => exact ⟨(Bool.not_eq_true _).mp ht, id, List.forall_mem_nil _⟩
  | _ => exact ⟨hI, id, List.forall_mem_nil _⟩

/-- **A step brings back no peer that has left**, if the rosters it folds do not have it. -/
theorem away_step {w : World Live Task} (h : Away P w) {act : Act Task Answers Outside}
    (hfold : FoldsWithout C P w act) : Away P ((engine C).step w act) := by
  refine Program.step_inv h (fun k a t hact hk => ?_) (fun t _ ht => ?_) (fun t t' hd _ => ?_)
    fun e _ => ?_
  · subst hact
    obtain ⟨hI, hnext, hspawned⟩ := away_stretched (stretched C w.shared a t) h.shared
      (h.tasks t (List.mem_of_getElem? hk)) fun cfg roster ht hr =>
        hfold cfg roster (by rcases ht with rfl | rfl <;> simp [hk]) hr
    exact ⟨hI, hnext, hspawned, fun _ h => h⟩
  · exact not_reaches_of_plain (Task.plain_of_starts ht)
  · obtain ⟨rfl, -⟩ := Task.drop_cases hd
    exact id
  · refine ⟨?_, fun _ h => h⟩
    cases e <;> exact h.shared

/-- Where a tick has got to: everything the table holds for `P` is still to be swept. -/
def SweptFor (P : Id) (l : Live) : Task → Prop
  | .tickSweep _ _ stale => ∀ c, l.mesh.conns[P]? = some c → (P, c) ∈ stale
  | _ => l.mesh.conns[P]? = none

theorem sweptFor_of_none (h : l.mesh.conns[P]? = none) (t : Task) : SweptFor P l t := by
  cases t with
  | tickSweep roster peer stale =>
    intro c hc
    rw [h] at hc
    cases hc
  | _ => exact h

/-- Of a peer that has left, no stretch puts a connection into the table. -/
theorem conns_change (h : MeshChange l t l') (hI : l.roster.isMember P = false)
    (ht : ¬ t.Reaches P) {c : Conn} (hc : l'.mesh.conns[P]? = some c) :
    l.mesh.conns[P]? = some c := by
  cases h with
  | same mesh registered => rwa [mesh] at hc
  | swept p d mesh registered which =>
    rw [mesh, Mesh.sweepOne, Mesh.conns_remove] at hc
    split at hc
    · cases hc
    · exact hc
  | registered p d mesh registered which =>
    rw [mesh] at hc
    have hne : p ≠ P := by
      rintro rfl
      rcases which with rfl | hm
      · exact ht rfl
      · rw [hI] at hm
        cases hm
    rwa [Mesh.registerMesh_conns_of_ne hne] at hc
  | evicted p d mesh registered closed =>
    rw [mesh] at hc
    exact Mesh.evict_entry hc
  | drained mesh registered =>
    rw [mesh, Mesh.conns_drain] at hc
    cases hc

/-- A state that only lost connections to `P` is as far as before. -/
theorem sweptFor_mono (h : ∀ c, l'.mesh.conns[P]? = some c → l.mesh.conns[P]? = some c)
    (hs : SweptFor P l t) : SweptFor P l' t := by
  cases t with
  | tickSweep roster peer stale => exact fun c hc => hs c (h c hc)
  | _ =>
    refine sweptFor_of_none ?_ _
    refine Option.eq_none_iff_forall_ne_some.mpr fun c hc => ?_
    have hn : l.mesh.conns[P]? = none := hs
    rw [h c hc] at hn
    cases hn

/-- The next item of the sweep leaves only the rest of the snapshot to be swept. -/
theorem sweptFor_sweepNext {stale : List (Id × Conn)}
    (h : ∀ c, l.mesh.conns[P]? = some c → (P, c) ∈ stale) :
    SweptFor P (l.sweepNext a roster stale).1 (l.sweepNext a roster stale).2 := by
  cases stale with
  | nil =>
    refine sweptFor_of_none ?_ _
    rw [Live.sweepNext, Live.mesh_enableOwnTun]
    exact Option.eq_none_iff_forall_ne_some.mpr fun c hc => List.not_mem_nil (h c hc)
  | cons x stale =>
    obtain ⟨p, d⟩ := x
    intro c hc
    have hc' : ((l.mesh.close d).remove p).conns[P]? = some c := hc
    rw [Mesh.conns_remove] at hc'
    split at hc'
    · cases hc'
    · rename_i hp
      rcases List.mem_cons.mp (h c hc') with heq | hmem
      · exact absurd (Prod.mk.inj heq).1.symm hp
      · exact hmem

/-- The stretch of the tick itself takes it further. -/
theorem sweptFor_stretch (hI : l.roster.isMember P = false) (ht : ¬ t.Reaches P)
    (hs : SweptFor P l t) : SweptFor P (stretch C l a t).1 (stretch C l a t).2.1 := by
  by_cases hsweep : ∃ roster peer stale, t = .tickSweep roster peer stale
  · obtain ⟨roster, peer, stale, rfl⟩ := hsweep
    exact sweptFor_sweepNext hs
  · have hnone : l.mesh.conns[P]? = none := by
      cases t with
      | tickSweep roster peer stale => exact absurd ⟨roster, peer, stale, rfl⟩ hsweep
      | _ => exact hs
    refine sweptFor_of_none (Option.eq_none_iff_forall_ne_some.mpr fun c hc => ?_) _
    rw [conns_change (stretched C l a t).meshChange hI ht hc] at hnone
    cases hnone

/-- The fold stretch takes the snapshot: what the table holds for `P` is in it. -/
theorem sweptFor_fold {cfg : StoredConfig} {rebuild : Bool}
    (hr : l.foldRoster C a cfg rebuild = .ok roster) (hm : roster.isMember P = false) :
    SweptFor P (stretch C l a (.tickFold cfg rebuild)).1
      (stretch C l a (.tickFold cfg rebuild)).2.1 := by
  rcases l.foldTick_cases C a cfg rebuild with
    ⟨e, he, -⟩ | ⟨roster', -, -, he⟩ | ⟨roster', hr', he⟩
  · rw [hr] at he
    cases he
  · rw [stretch, he]
    exact sweptFor_of_none Mesh.conns_drain _
  · obtain rfl := Except.ok.inj (hr.symm.trans hr')
    rw [stretch, he]
    refine sweptFor_sweepNext fun c hc => (a.staleOrder.perm _).mem_iff.mpr ?_
    exact Live.mem_stale.mpr ⟨hc, hm⟩

/-- The tick at the place `k` sweeps, while `P` has left. -/
structure Sweeping (P : Id) (k : Nat) (w : World Live Task) : Prop where
  away : Away P w
  swept : ∃ t, w.tasks[k]? = some t ∧ SweptFor P w.shared t

theorem sweeping_step {w : World Live Task} {k : Nat} (h : Sweeping P k w)
    {act : Act Task Answers Outside} (hfold : FoldsWithout C P w act) :
    Sweeping P k ((engine C).step w act) := by
  refine ⟨away_step h.away hfold, ?_⟩
  obtain ⟨t, hk, hs⟩ := h.swept
  have ht : ¬ t.Reaches P := h.away.tasks t (List.mem_of_getElem? hk)
  rcases (engine C).step_cases w act with ⟨-, -, he⟩ | ⟨j, a, t', rfl, hj, he⟩ | ⟨t', rfl, -, he⟩ |
    ⟨j, t', t'', rfl, hj, hd, he⟩ | ⟨e, rfl, he⟩
  · rw [he]
    exact ⟨t, hk, hs⟩
  · rw [he]
    by_cases hjk : k = j
    · subst hjk
      obtain rfl := Option.some.inj (hk.symm.trans hj)
      exact ⟨_, getElem?_stretch_self hk, sweptFor_stretch h.away.shared ht hs⟩
    · have hother := h.away.tasks t' (List.mem_of_getElem? hj)
      exact ⟨t, getElem?_stretch_of_ne hjk hk, sweptFor_mono (fun c hc =>
        conns_change (stretched C w.shared a t').meshChange h.away.shared hother hc) hs⟩
  · rw [he]
    exact ⟨t, List.getElem?_append_left (List.getElem?_eq_some_iff.mp hk).1 ▸ hk, hs⟩
  · rw [he]
    by_cases hjk : k = j
    · subst hjk
      obtain rfl := Option.some.inj (hk.symm.trans hj)
      have hnone : w.shared.mesh.conns[P]? = none := by
        cases t with
        | tickSweep roster peer stale => cases hd
        | _ => exact hs
      have hlt : k < w.tasks.length := (List.getElem?_eq_some_iff.mp hk).1
      exact ⟨t'', List.getElem?_set_self hlt, sweptFor_of_none hnone t''⟩
    · exact ⟨t, (List.getElem?_set_ne (Ne.symm hjk)).trans hk, hs⟩
  · rw [he]
    refine ⟨t, hk, sweptFor_mono (fun c hc => ?_) hs⟩
    cases e <;> exact hc

/-! ## 4. No ghosts, and the one there is -/

/-- **No ghost connections.** (1) In every run, each open registered connection is in every
    state the entry of its peer exactly when each item of a sweep finds in the place it clears
    nothing, the connection it closes, or a closed one. (2) Let `P` have left, with no
    registration or dial of it and no roster that has it in flight. Behind the sweep of a tick
    no connection to `P` is open, in every run whose sweeps clear their own places and whose
    folds leave `P` out. -/
theorem no_ghost_connections {w : World Live Task} (hJ : w.shared.EntriesRegistered)
    (hI : w.shared.NoGhost) :
    (∀ acts, Throughout (engine C).step (fun w => w.shared.NoGhost) w acts ↔
      EachStep (engine C).step SweepsOwn w acts) ∧
    ∀ (P : Id) (k : Nat) (cfg : StoredConfig) (rebuild : Bool) (a : Answers) (roster : Roster)
      (acts : List (Act Task Answers Outside)) (w' : World Live Task),
      w' = run (engine C).step w (.go k a :: acts) →
      w.tasks[k]? = some (.tickFold cfg rebuild) →
      w.shared.foldRoster C a cfg rebuild = .ok roster → Away P w →
      EachStep (engine C).step (FoldsWithout C P) w (.go k a :: acts) →
      EachStep (engine C).step SweepsOwn w (.go k a :: acts) →
      (∀ roster peer stale, w'.tasks[k]? ≠ some (.tickSweep roster peer stale)) →
      ∀ c, (P, c) ∈ w'.shared.registered → w'.shared.mesh.isClosed c = true := by
  have hiff := fun acts => noGhost_iff (C := C) (w := w) hJ hI acts
  refine ⟨hiff, fun P k cfg rebuild a roster acts w' hw' hk hr haway hfold hsweeps hend c hc => ?_⟩
  have hghost : w'.shared.NoGhost := by
    rw [hw']
    exact (hiff _).mpr hsweeps _ [] (List.append_nil _).symm
  have hm : roster.isMember P = false := by
    cases rebuild with
    | true => exact hfold.1 cfg roster (Or.inl hk) hr
    | false => exact Except.ok.inj hr ▸ haway.shared
  -- the fold stretch takes the snapshot, and the rest of the run works through it
  have hstart : Sweeping P k ((engine C).step w (.go k a)) := by
    refine ⟨away_step haway hfold.1, ?_⟩
    rw [Program.step_go hk]
    exact ⟨_, getElem?_stretch_self hk, sweptFor_fold hr hm⟩
  have hsweeping : Sweeping P k w' := by
    rw [hw', run_cons]
    exact run_invariant_of_eachStep (I := Sweeping P k) (fun _ _ h hf => sweeping_step h hf)
      hstart hfold.2
  obtain ⟨t, ht, hs⟩ := hsweeping.swept
  have hnone : w'.shared.mesh.conns[P]? = none := by
    cases t with
    | tickSweep roster peer stale => exact absurd ht (hend roster peer stale)
    | _ => exact hs
  cases hopen : w'.shared.mesh.isClosed c with
  | true => rfl
  | false =>
    have hentry : w'.shared.mesh.conns[P]? = some c := hghost (P, c) hc hopen
    rw [hnone] at hentry
    cases hentry

namespace Sample

/-- The originator has removed 5 and 6 again. -/
def removed : List Entry :=
  admitted ++ [signed 1 (.remove (key 5) 4), signed 1 (.remove (key 6) 5)]

/-- 5 and 6 are connected. A tick folds the removals and sweeps 5; before it sweeps 6, device
    6 connects again, against the roster still cached. -/
def reconnects : List (Act Task Answers Outside) :=
  online ++ accepts 3 15 5 ++ accepts 6 16 6 ++ [.env .docChanged, .start .tickStart] ++
    List.replicate 3 (.go 9 (answers 200 removed)) ++ accepts 10 26 6 ++ [.go 9 {}]

end Sample

theorem no_ghost_connections_sample :
    Throughout (engine .plain).step (fun w => w.shared.NoGhost) Sample.booted
      (Sample.online ++ Sample.accepts 3 15 5) :=
  ((no_ghost_connections (C := .plain) (w := Sample.booted)
    (fun p c h => by simp [Sample.booted] at h) fun r h => by cases h).1 _).mpr (by decide +kernel)

/-- **A ghost connection**: the sweep closes the connection it has seen, and removes the new
    one from the table. -/
theorem ghost_connection :
    ¬ ∀ acts, Throughout (engine .plain).step (fun w => w.shared.NoGhost) Sample.booted acts := by
  intro h
  have hghost := h Sample.reconnects Sample.reconnects [] (List.append_nil _).symm
  have hreg : (Sample.key 6, (⟨26, .server⟩ : Conn)) ∈
      (run (engine .plain).step Sample.booted Sample.reconnects).shared.registered := by
    decide +kernel
  have hentry := hghost _ hreg (by decide +kernel)
  have hnone : (run (engine .plain).step Sample.booted Sample.reconnects).shared.mesh.conns[
      Sample.key 6]? = none := by decide +kernel
  rw [hnone] at hentry
  cases hentry

end Nullgate
