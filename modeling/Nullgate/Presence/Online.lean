/-
  File:      Nullgate/Presence/Online.lean
  Subject:   THE ONLINE FLAG AGAINST THE CONNECTION TABLE.

  A peer is shown online by a flag in the tracker, behind one lock; the connections are in a
  table behind another. Registration, close watcher, sweep and refresh change the table or
  look at it first and write the flag at their next await.

  * `Task.about`: whether a task is still to write the flag of a peer;
  * `FlagsAgree`: the flag of every peer no task is still to write agrees with the table;
  * `flags_agree_iff`: it does in every state of a run exactly when each write agrees with
    the table at that moment, or another task is still to write (`WritesTrue`);
  * `flag_of_closed`: the refresh writes what it saw before the watcher ran.
-/
import Nullgate.Engine.Stretches

namespace Nullgate

open Nullgate.Lib

/-! ## 1. Who writes the flag -/

namespace Live

/-- The flag of `p` agrees with the table. -/
def Agrees (l : Live) (p : Id) : Prop := l.presence.online p = l.mesh.conns.contains p

instance decidableAgrees (l : Live) (p : Id) : Decidable (l.Agrees p) :=
  inferInstanceAs (Decidable (_ = _))

/-- The peer, if the flag `b` would disagree with the table. -/
def missed (l : Live) (peer : Id) (b : Bool) : List Id :=
  if l.mesh.conns.contains peer = b then [] else [peer]

end Live

namespace Task

/-- The task is still to write the flag of `p`. -/
def about (p : Id) : Task → Bool
  | .tickSweep _ peer _ => peer = p
  | .tickRefresh peer live => peer = p || live.contains p
  | .record _ peer _ => peer = p
  | .offline peer => peer = p
  | .disconnected _ => true
  | _ => false

/-- The peers whose flag the task is about to write against the table. -/
def misses (l : Live) : Task → List Id
  | .tickSweep _ peer _ => l.missed peer false
  | .tickRefresh peer _ => l.missed peer true
  | .record _ peer _ => l.missed peer true
  | .offline peer => l.missed peer false
  | .disconnected _ => l.mesh.conns.keys
  | _ => []

/-- The peers whose flag disagrees with the table, and would be left so if the task were
    dropped. -/
def leaves (l : Live) : Task → List Id
  | .record true peer _ =>
    if l.presence.online peer = l.mesh.conns.contains peer then [] else [peer]
  | _ => []

end Task

/-- Another task than the one at `k` is still to write the flag of `p`. -/
def OtherAbout (w : World Live Task) (k : Nat) (p : Id) : Prop :=
  ∃ t ∈ w.tasks.eraseIdx k, t.about p = true

instance decidableOtherAbout (w : World Live Task) (k : Nat) (p : Id) :
    Decidable (OtherAbout w k p) := inferInstanceAs (Decidable (∃ t ∈ w.tasks.eraseIdx k, _ = true))

/-- **Each write of a flag agrees with the table at that moment**, or another task is still to
    write it; and no registration is dropped before its write. -/
def WritesTrue (w : World Live Task) : Act Task Answers Outside → Prop
  | .go k _ => ∀ t ∈ w.tasks[k]?, ∀ p ∈ t.misses w.shared, OtherAbout w k p
  | .drop k => ∀ t ∈ w.tasks[k]?, ∀ p ∈ t.leaves w.shared, OtherAbout w k p
  | _ => True

instance decidableWritesTrue (w : World Live Task) : ∀ act, Decidable (WritesTrue w act)
  | .go k _ => inferInstanceAs (Decidable (∀ t ∈ w.tasks[k]?, ∀ p ∈ t.misses w.shared, _))
  | .drop k => inferInstanceAs (Decidable (∀ t ∈ w.tasks[k]?, ∀ p ∈ t.leaves w.shared, _))
  | .start _ => isTrue trivial
  | .env _ => isTrue trivial

/-- **The flags agree with the table**, for every peer whose flag no task is still to write. -/
def FlagsAgree (w : World Live Task) : Prop :=
  ∀ p, (∀ t ∈ w.tasks, t.about p = false) → w.shared.Agrees p

/-! ## 2. One stretch -/

variable {C : Crates} {l l' : Live} {t : Task} {a : Answers} {roster : Roster} {p : Id}

namespace Live

theorem Agrees.congr (h : l.Agrees p) (hflag : l'.presence.online p = l.presence.online p)
    (hconns : l'.mesh.conns.contains p = l.mesh.conns.contains p) : l'.Agrees p := by
  rw [Agrees, hflag, hconns]
  exact h

theorem mem_missed {peer : Id} {b : Bool} :
    p ∈ l.missed peer b ↔ p = peer ∧ l.mesh.conns.contains p ≠ b := by
  unfold missed
  split
  · rename_i h
    refine iff_of_false List.not_mem_nil ?_
    rintro ⟨rfl, hne⟩
    exact hne h
  · rename_i h
    rw [List.mem_singleton]
    refine ⟨?_, And.left⟩
    rintro rfl
    exact ⟨rfl, h⟩

theorem online_observe (l : Live) (peer : Id) (info : ConnInfo) (b : Bool) :
    (l.observe peer info b).presence.online p = if peer = p then b else l.presence.online p :=
  PresenceTracker.online_recordConnection _ _ _ _ _

/-- A write that is not against the table leaves the flag of `p` agreeing. -/
theorem agrees_observe {peer : Id} {b : Bool} (info : ConnInfo) (h : peer ≠ p → l.Agrees p)
    (hm : p ∉ l.missed peer b) : (l.observe peer info b).Agrees p := by
  rw [Agrees, online_observe]
  split
  · rename_i hp
    by_contra hne
    exact hm (mem_missed.mpr ⟨hp.symm, fun hc => hne hc.symm⟩)
  · rename_i hp
    exact h hp

/-- A write against the table leaves it disagreeing. -/
theorem not_agrees_observe {peer : Id} {b : Bool} (info : ConnInfo)
    (hm : p ∈ l.missed peer b) : ¬ (l.observe peer info b).Agrees p := by
  obtain ⟨rfl, hne⟩ := mem_missed.mp hm
  intro h
  rw [Agrees, online_observe, if_pos rfl] at h
  exact hne h.symm

end Live

theorem contains_remove_of_ne {m : Mesh} {peer : Id} (h : peer ≠ p) :
    (m.remove peer).conns.contains p = m.conns.contains p := by
  simp [Mesh.remove, Std.ExtTreeMap.contains_erase, h]

theorem contains_registerMesh_of_ne {m : Mesh} {me peer : Id} {c : Conn} (h : peer ≠ p) :
    (m.registerMesh me peer c).1.conns.contains p = m.conns.contains p := by
  rw [Std.ExtTreeMap.contains_eq_isSome_getElem?, Std.ExtTreeMap.contains_eq_isSome_getElem?,
    Mesh.registerMesh_conns_of_ne h]

/-- What the next item of the sweep takes out, its task is still to record. -/
theorem agrees_sweepNext (h : l.Agrees p) (stale : List (Id × Conn)) :
    (l.sweepNext a roster stale).1.Agrees p ∨ (l.sweepNext a roster stale).2.about p = true := by
  cases stale with
  | nil =>
    left
    refine h.congr ?_ ?_
    · rw [Live.sweepNext, Live.presence_enableOwnTun]
    · rw [Live.sweepNext, Live.mesh_enableOwnTun]
  | cons x stale =>
    obtain ⟨peer, c⟩ := x
    by_cases hp : peer = p
    · exact Or.inr (by simp [Live.sweepNext, Task.about, hp])
    · exact Or.inl (h.congr rfl (contains_remove_of_ne hp))

theorem agrees_registerConn (h : l.Agrees p) (dialed : Bool) (peer : Id) (c : Conn) :
    (l.registerConn dialed peer c).1.Agrees p ∨
      (l.registerConn dialed peer c).2.about p = true := by
  by_cases hp : peer = p
  · subst hp
    by_cases hv : (l.mesh.registerMesh l.myId peer c).2 = .keepExisting
    · left
      refine h.congr rfl ?_
      rw [Live.registerConn, Mesh.registerMesh_loser hv]
      rfl
    · exact Or.inr (by simp [Live.registerConn, hv, Task.about])
  · exact Or.inl (h.congr rfl (contains_registerMesh_of_ne hp))

theorem online_foldl_setVirtualIp (members : List (Id × Member)) (tr : PresenceTracker) :
    (members.foldl (fun t (x : Id × Member) => t.setVirtualIp x.1 x.2.virtualIp) tr).online p =
      tr.online p := by
  induction members generalizing tr with
  | nil => rfl
  | cons x members ih => rw [List.foldl_cons, ih, PresenceTracker.online_setVirtualIp]

theorem about_refreshNext (live : List Id) :
    (Live.refreshNext live).about p = live.contains p := by
  cases live with
  | nil => rfl
  | cons q live =>
    rw [Live.refreshNext, Task.about, List.contains_cons]
    by_cases h : q = p
    · simp [h]
    · simp [h, Ne.symm h]

theorem not_about_of_plain (h : t.plain = true) : t.about p = false := by
  cases t with
  | tickSweep roster peer stale => cases h
  | tickRefresh peer live => cases h
  | record dialed peer conn => cases h
  | offline peer => cases h
  | disconnected forget => cases h
  | _ => rfl

/-- **A stretch leaves the flag agreeing, or still to be written**, unless it writes it against
    the table. -/
theorem agrees_stretched {t' : Task} {spawned : List Task}
    (hs : Stretched C l a t l' t' spawned) (h : l.Agrees p ∨ t.about p = true)
    (ht : p ∉ t.misses l) : l'.Agrees p ∨ t'.about p = true := by
  have hquiet : t.about p = false → l.Agrees p := fun hno => h.resolve_right (by simp [hno])
  cases hs with
  | pass ht _ =>
    refine Or.inl (hquiet ?_)
    rcases ht with ht | ⟨peer, rfl⟩
    · exact not_about_of_plain ht
    · rfl
  | read nowCoarse cfg rebuild => exact Or.inl ((hquiet rfl).congr rfl rfl)
  | evict cfg rebuild => exact Or.inr rfl
  | @enforce cfg rebuild roster l₁ next hroster hlive hnext =>
    subst hnext hlive
    refine agrees_sweepNext ((hquiet rfl).congr ?_ ?_) _
    · rfl
    · rfl
  | @sweep roster peer stale next hnext =>
    subst hnext
    refine agrees_sweepNext (Live.agrees_observe {} (fun hp => hquiet ?_) ht) stale
    simp [Task.about, hp]
  | store roster connected =>
    exact Or.inl ((hquiet rfl).congr (online_foldl_setVirtualIp _ _) rfl)
  | live => exact Or.inl (hquiet rfl)
  | refresh peer live =>
    by_cases hlive : live.contains p = true
    · exact Or.inr ((about_refreshNext live).trans hlive)
    · refine Or.inl (Live.agrees_observe a.info (fun hp => hquiet ?_) ht)
      rw [Bool.not_eq_true] at hlive
      rw [Task.about, hlive, Bool.or_false]
      exact decide_eq_false hp
  | @register t dialed peer conn next ht hnext =>
    subst hnext
    refine agrees_registerConn (hquiet ?_) dialed peer conn
    rcases ht with rfl | ⟨⟨id, rfl⟩, -⟩
    · rfl
    · rfl
  | record dialed peer conn =>
    refine Or.inl (Live.agrees_observe {} (fun hp => hquiet ?_) ht)
    simp [Task.about, hp]
  | @watch peer conn hclosed =>
    rcases Mesh.evict_cases l.mesh peer conn with ⟨cur, -, -, he⟩ | ⟨-, he⟩
    · rw [he]
      by_cases hp : peer = p
      · exact Or.inr (by simp [Task.about, hp])
      · exact Or.inl ((hquiet rfl).congr rfl (contains_remove_of_ne hp))
    · rw [he]
      exact Or.inl (hquiet rfl)
  | offline peer =>
    refine Or.inl (Live.agrees_observe {} (fun hp => hquiet ?_) ht)
    simp [Task.about, hp]
  | disconnect forget => exact Or.inr rfl
  | reset _ =>
    left
    have hno : l.mesh.conns.contains p = false := by
      rw [← Bool.not_eq_true, Std.ExtTreeMap.contains_iff_mem]
      exact fun hmem => ht (Std.ExtTreeMap.mem_keys.mpr hmem)
    exact (PresenceTracker.online_empty p).trans hno.symm
  | forget => exact Or.inl ((hquiet rfl).congr rfl rfl)
  | latch hroster => exact Or.inl ((hquiet rfl).congr rfl rfl)
  | cache roster => exact Or.inl ((hquiet rfl).congr rfl rfl)

/-! ## 3. Snapshots, and writes against the table -/

/-- The peers of the snapshot a task goes through, the one it is at first. -/
def Task.snapshot : Task → List Id
  | .tickSweep _ peer stale => peer :: stale.map Prod.fst
  | .tickRefresh peer live => peer :: live
  | _ => []

theorem nodup_stale (l : Live) (roster : Roster) : ((l.stale roster).map Prod.fst).Nodup := by
  have hkeys : (l.mesh.conns.toList.map Prod.fst).Nodup := by
    rw [Std.ExtTreeMap.map_fst_toList_eq_keys]
    exact Std.ExtTreeMap.nodup_keys
  exact (List.filter_sublist.map Prod.fst).nodup hkeys

theorem snapshot_sweepNext {stale : List (Id × Conn)} (h : (stale.map Prod.fst).Nodup) :
    (l.sweepNext a roster stale).2.snapshot.Nodup := by
  cases stale with
  | nil => exact List.nodup_nil
  | cons x stale => exact h

theorem snapshot_refreshNext {live : List Id} (h : live.Nodup) :
    (Live.refreshNext live).snapshot.Nodup := by
  cases live with
  | nil => exact List.nodup_nil
  | cons x live => exact h

theorem misses_of_plain (h : t.plain = true ∨ ∃ peer, t = .dial peer) : t.misses l = [] := by
  rcases h with h | ⟨peer, rfl⟩
  · cases t with
    | tickSweep roster peer stale => cases h
    | tickRefresh peer live => cases h
    | record dialed peer conn => cases h
    | offline peer => cases h
    | disconnected forget => cases h
    | _ => rfl
  · rfl

theorem snapshot_of_plain (h : t.plain = true) : t.snapshot.Nodup := by
  cases t with
  | tickSweep roster peer stale => cases h
  | tickRefresh peer live => cases h
  | _ => exact List.nodup_nil

/-- A snapshot is of the keys of the table, so it names no peer twice. -/
theorem snapshot_stretched {t' : Task} {spawned : List Task}
    (hs : Stretched C l a t l' t' spawned) (h : t.snapshot.Nodup) :
    t'.snapshot.Nodup ∧ ∀ t'' ∈ spawned, t''.snapshot.Nodup := by
  have hnil : ([] : List Id).Nodup := List.nodup_nil
  cases hs with
  | pass _ ht' => exact ⟨snapshot_of_plain ht', List.forall_mem_nil _⟩
  | @enforce cfg rebuild roster l₁ next hroster hlive hnext =>
    subst hnext
    refine ⟨snapshot_sweepNext ?_, List.forall_mem_nil _⟩
    exact (((a.staleOrder.perm _).map Prod.fst).nodup_iff).mpr (nodup_stale l roster)
  | @sweep roster peer stale next hnext =>
    subst hnext
    exact ⟨snapshot_sweepNext (List.nodup_cons.mp h).2, List.forall_mem_nil _⟩
  | store roster connected =>
    refine ⟨hnil, fun t' ht' => ?_⟩
    obtain ⟨q, -, rfl⟩ := List.mem_map.mp ht'
    exact hnil
  | live =>
    refine ⟨snapshot_refreshNext ?_, List.forall_mem_nil _⟩
    exact ((a.liveOrder.perm _).nodup_iff).mpr Std.ExtTreeMap.nodup_keys
  | refresh peer live =>
    exact ⟨snapshot_refreshNext (List.nodup_cons.mp h).2, List.forall_mem_nil _⟩
  | @register t dialed peer conn next _ hnext =>
    subst hnext
    refine ⟨?_, List.forall_mem_nil _⟩
    simp only [Live.registerConn]
    split <;> exact hnil
  | record dialed peer conn =>
    refine ⟨hnil, fun t' ht' => ?_⟩
    rcases List.mem_pair.mp ht' with rfl | rfl <;> exact hnil
  | @watch peer conn hclosed =>
    refine ⟨?_, List.forall_mem_nil _⟩
    split <;> exact hnil
  | reset ht' => exact ⟨snapshot_of_plain ht', List.forall_mem_nil _⟩
  | _ => exact ⟨hnil, List.forall_mem_nil _⟩

/-- **A flag written against the table is wrong behind the stretch**, and nothing the stretch
    leaves behind is still to write it. -/
theorem missed_stretched {t' : Task} {spawned : List Task}
    (hs : Stretched C l a t l' t' spawned) (h : t.snapshot.Nodup) (hp : p ∈ t.misses l) :
    ¬ l'.Agrees p ∧ t'.about p = false ∧ ∀ t'' ∈ spawned, t''.about p = false := by
  cases hs with
  | @sweep roster peer stale next hnext =>
    subst hnext
    have hno := Live.not_agrees_observe {} hp
    obtain ⟨rfl, -⟩ := Live.mem_missed.mp hp
    cases stale with
    | nil =>
      refine ⟨fun hag => hno (hag.congr ?_ ?_), rfl, List.forall_mem_nil _⟩
      · rw [Live.sweepNext, Live.presence_enableOwnTun]
      · rw [Live.sweepNext, Live.mesh_enableOwnTun]
    | cons x stale =>
      -- the next item is of another peer
      have hne : x.1 ≠ p := by
        rintro rfl
        exact (List.nodup_cons.mp h).1 List.mem_cons_self
      refine ⟨fun hag => hno (hag.congr rfl (contains_remove_of_ne hne).symm), ?_,
        List.forall_mem_nil _⟩
      simp [Live.sweepNext, Task.about, hne]
  | refresh peer live =>
    refine ⟨Live.not_agrees_observe a.info hp, ?_, List.forall_mem_nil _⟩
    obtain ⟨rfl, -⟩ := Live.mem_missed.mp hp
    rw [about_refreshNext]
    simpa using (List.nodup_cons.mp h).1
  | record dialed peer conn =>
    refine ⟨Live.not_agrees_observe {} hp, rfl, fun t'' ht'' => ?_⟩
    rcases List.mem_pair.mp ht'' with rfl | rfl <;> rfl
  | offline peer => exact ⟨Live.not_agrees_observe {} hp, rfl, List.forall_mem_nil _⟩
  | reset ht' =>
    refine ⟨fun hag => ?_, not_about_of_plain ht', List.forall_mem_nil _⟩
    have hc : l.mesh.conns.contains p = true :=
      Std.ExtTreeMap.contains_iff_mem.mpr (Std.ExtTreeMap.mem_keys.mp hp)
    have hflag : false = l.mesh.conns.contains p := (PresenceTracker.online_empty p).symm.trans hag
    rw [hc] at hflag
    cases hflag
  | pass ht _ =>
    rw [misses_of_plain ht] at hp
    cases hp
  | register ht _ =>
    rcases ht with rfl | ⟨⟨id, rfl⟩, -⟩ <;> cases hp
  | _ => cases hp

/-! ## 4. One step -/

/-- No task of `w` goes through a peer twice. -/
def Distinct (w : World Live Task) : Prop :=
  w.Inv (fun _ => True) (fun _ t => t.snapshot.Nodup)

theorem distinct_step {w : World Live Task} (h : Distinct w) (act : Act Task Answers Outside) :
    Distinct ((engine C).step w act) := by
  refine Program.step_inv h (fun k a t _ hk => ?_) (fun t _ ht => ?_) (fun t t' hd _ => ?_)
    fun e _ => ⟨trivial, fun _ h => h⟩
  · obtain ⟨hnext, hspawned⟩ := snapshot_stretched (stretched C w.shared a t)
      (h.tasks t (List.mem_of_getElem? hk))
    exact ⟨trivial, hnext, hspawned, fun _ h => h⟩
  · exact snapshot_of_plain (Task.plain_of_starts ht)
  · obtain ⟨rfl, -⟩ := Task.drop_cases hd
    exact List.nodup_nil

theorem mem_leaves {t : Task} {l : Live} :
    p ∈ t.leaves l ↔ (∃ conn, t = .record true p conn) ∧ ¬ l.Agrees p := by
  unfold Task.leaves
  split
  · rename_i peer conn
    split
    · rename_i hag
      refine iff_of_false List.not_mem_nil ?_
      rintro ⟨⟨conn', ht⟩, hno⟩
      cases ht
      exact hno hag
    · rename_i hno
      rw [List.mem_singleton]
      refine ⟨?_, ?_⟩
      · intro hp
        subst hp
        exact ⟨⟨conn, rfl⟩, hno⟩
      · intro h'
        obtain ⟨⟨conn', ht⟩, -⟩ := h'
        cases ht
        rfl
  · rename_i hno
    refine iff_of_false List.not_mem_nil ?_
    rintro ⟨⟨conn, rfl⟩, -⟩
    exact hno p conn rfl

theorem agrees_outside (e : Outside) : (outside l e).Agrees p ↔ l.Agrees p := by
  cases e with
  | heartbeat peer h =>
    rw [Live.Agrees, outside, PresenceTracker.online_recordHeartbeat]
    rfl
  | location peer location =>
    rw [Live.Agrees, outside, PresenceTracker.online_setLocation]
    rfl
  | _ => rfl

/-- Nobody else is still to write the flag of `p`. -/
theorem not_otherAbout {w : World Live Task} {k : Nat} :
    ¬ OtherAbout w k p ↔ ∀ t ∈ w.tasks.eraseIdx k, t.about p = false := by
  simp [OtherAbout]

/-- A stretch keeps the flags in agreement exactly when what it writes against the table is
    still to be written by another task. -/
theorem flagsAgree_go_iff {w : World Live Task} {k : Nat} (hJ : Distinct w) (hI : FlagsAgree w)
    (hk : w.tasks[k]? = some t) :
    FlagsAgree ((engine C).step w (.go k a)) ↔ ∀ p ∈ t.misses w.shared, OtherAbout w k p := by
  have hs := stretched C w.shared a t
  have hnodup : t.snapshot.Nodup := hJ.tasks t (List.mem_of_getElem? hk)
  rw [Program.step_go hk]
  refine ⟨?_, ?_⟩
  · intro hI' p hp
    obtain ⟨hno, hnext, hspawned⟩ := missed_stretched hs hnodup hp
    by_contra hother
    rw [not_otherAbout] at hother
    refine hno (hI' p fun t' ht' => ?_)
    rcases (mem_stretch_iff hk).mp ht' with rfl | ht' | ht'
    · exact hnext
    · exact hother t' ht'
    · exact hspawned t' ht'
  · intro hw p hquiet
    have hothers : ∀ t' ∈ w.tasks.eraseIdx k, t'.about p = false := fun t' ht' =>
      hquiet t' ((mem_stretch_iff hk).mpr (Or.inr (Or.inl ht')))
    have hmiss : p ∉ t.misses w.shared := fun hp => not_otherAbout.mpr hothers (hw p hp)
    have hbefore : w.shared.Agrees p ∨ t.about p = true := by
      cases hab : t.about p with
      | true => exact Or.inr rfl
      | false =>
        refine Or.inl (hI p fun t' ht' => ?_)
        rcases (mem_iff_eraseIdx hk).mp ht' with rfl | ht'
        · exact hab
        · exact hothers t' ht'
    refine (agrees_stretched hs hbefore hmiss).resolve_right ?_
    exact (Bool.not_eq_true _).mpr (hquiet _ ((mem_stretch_iff hk).mpr (Or.inl rfl)))

/-- So does the end of a task that is dropped. -/
theorem flagsAgree_drop_iff {w : World Live Task} {k : Nat} {t' : Task} (hI : FlagsAgree w)
    (hk : w.tasks[k]? = some t) (hd : t.drop = some t') :
    FlagsAgree ⟨w.shared, w.tasks.set k t'⟩ ↔ ∀ p ∈ t.leaves w.shared, OtherAbout w k p := by
  obtain ⟨rfl, hdropped⟩ := Task.drop_cases hd
  refine ⟨?_, ?_⟩
  · intro hI' p hp
    by_contra hother
    rw [not_otherAbout] at hother
    refine (mem_leaves.mp hp).2 (hI' p fun t' ht' => ?_)
    rcases (mem_set_iff hk).mp ht' with rfl | ht'
    · rfl
    · exact hother t' ht'
  · intro hw p hquiet
    have hothers : ∀ t' ∈ w.tasks.eraseIdx k, t'.about p = false := fun t' ht' =>
      hquiet t' ((mem_set_iff hk).mpr (Or.inr ht'))
    by_contra hno
    have hleft : p ∉ t.leaves w.shared := fun hp => not_otherAbout.mpr hothers (hw p hp)
    refine hno (hI p fun t' ht' => ?_)
    rcases (mem_iff_eraseIdx hk).mp ht' with rfl | ht'
    · rcases hdropped with ⟨peer, rfl⟩ | ⟨peer, conn, rfl⟩
      · rfl
      · refine decide_eq_false ?_
        rintro rfl
        exact hleft (mem_leaves.mpr ⟨⟨conn, rfl⟩, hno⟩)
    · exact hothers t' ht'

/-- **A step keeps the flags in agreement exactly when what it writes agrees**, or is still to
    be written by another task. -/
theorem flagsAgree_step_iff {w : World Live Task} (hJ : Distinct w) (hI : FlagsAgree w)
    (act : Act Task Answers Outside) :
    FlagsAgree ((engine C).step w act) ↔ WritesTrue w act := by
  rcases (engine C).step_cases w act with ⟨hgo, hdrop, he⟩ | ⟨k, a, t, rfl, hk, -⟩ |
    ⟨t, rfl, ht, he⟩ | ⟨k, t, t', rfl, hk, hd, he⟩ | ⟨e, rfl, he⟩
  · rw [he]
    refine iff_of_true hI ?_
    cases act with
    | go k a =>
      rw [WritesTrue, hgo k a rfl]
      exact fun t ht => by cases ht
    | drop k =>
      intro t ht p hp
      obtain ⟨⟨conn, rfl⟩, -⟩ := mem_leaves.mp hp
      have hnone := hdrop k rfl
      rw [Option.mem_def.mp ht] at hnone
      cases hnone
    | _ => trivial
  · rw [flagsAgree_go_iff hJ hI hk, WritesTrue, hk]
    simp
  · rw [he]
    refine iff_of_true (fun p hquiet => hI p fun t' ht' => ?_) trivial
    exact hquiet t' (List.mem_append_left _ ht')
  · rw [he, flagsAgree_drop_iff hI hk hd, WritesTrue, hk]
    simp
  · rw [he]
    exact iff_of_true (fun p hquiet => (agrees_outside e).mpr (hI p hquiet)) trivial

/-! ## 5. Every run -/

theorem Task.not_about_of_settled (h : t.midway = false) : t.about p = false := by
  cases t with
  | tickSweep roster peer stale => cases h
  | tickRefresh peer live => cases h
  | record dialed peer conn => cases h
  | offline peer => cases h
  | disconnected forget => cases h
  | _ => rfl

/-- **The online flag is the live connection**, in every state of a run for every peer whose
    flag no task is still to write, exactly when each write agrees with the table or comes
    before another one. Then the two are the same for every peer wherever no task is
    midway. -/
theorem flags_agree_iff {w : World Live Task} (hJ : Distinct w) (hI : FlagsAgree w)
    (acts : List (Act Task Answers Outside)) :
    (Throughout (engine C).step FlagsAgree w acts ↔ EachStep (engine C).step WritesTrue w acts) ∧
    (EachStep (engine C).step WritesTrue w acts →
      Throughout (engine C).step (fun w => Settled w → ∀ p, w.shared.Agrees p) w acts) := by
  have hiff : Throughout (engine C).step FlagsAgree w acts ↔
      EachStep (engine C).step WritesTrue w acts :=
    throughout_iff (fun _ act h => distinct_step h act)
      (fun _ act hJ hI => flagsAgree_step_iff hJ hI act) hJ hI
  refine ⟨hiff, fun hw pre post hl hset p => ?_⟩
  exact hiff.mpr hw pre post hl p fun t ht => Task.not_about_of_settled (hset t ht)

namespace Sample

/-- The tick and the dials of device 2, which is online, end; then device 5 connects. -/
def connects : List (Act Task Answers Outside) :=
  online ++ [.go 0 {}, .go 1 {}, .go 2 {}] ++ accepts 3 15 5

/-- A tick has seen the connection of 5 and waits to record 5 online. The connection is lost,
    and its watcher runs to the end; then the tick goes on. -/
def lostInRefresh : List (Act Task Answers Outside) :=
  connects ++ [.start .tickStart] ++ List.replicate 5 (.go 6 (answers 200 admitted)) ++
    [.go 7 {}, .env (.closed 15), .go 5 {}, .go 5 {}, .go 4 {}, .go 6 {}]

theorem distinct_booted : Distinct booted := ⟨trivial, List.forall_mem_nil _⟩

theorem flagsAgree_booted : FlagsAgree booted := fun p _ => by
  simp [Live.Agrees, booted]

end Sample

theorem flags_agree_iff_sample :
    Throughout (engine .plain).step FlagsAgree Sample.booted Sample.connects ∧
      ∀ p, (run (engine .plain).step Sample.booted Sample.connects).shared.Agrees p := by
  have hw : EachStep (engine .plain).step WritesTrue Sample.booted Sample.connects := by
    decide +kernel
  have hiff := flags_agree_iff (C := .plain) Sample.distinct_booted Sample.flagsAgree_booted
    Sample.connects
  exact ⟨hiff.1.mpr hw, hiff.2 hw Sample.connects [] (List.append_nil _).symm (by decide +kernel)⟩

/-- **A flag without a connection**: the refresh records online the peer it has seen in the
    table, behind the watcher that took it out. -/
theorem flag_of_closed :
    ¬ ∀ acts, Throughout (engine .plain).step (fun w => Settled w → ∀ p, w.shared.Agrees p)
      Sample.booted acts := by
  intro h
  have hag := h Sample.lostInRefresh Sample.lostInRefresh [] (List.append_nil _).symm
    (by decide +kernel) (Sample.key 5)
  exact absurd hag (by decide +kernel)

end Nullgate
