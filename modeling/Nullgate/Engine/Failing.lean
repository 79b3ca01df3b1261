/-
  File:      Nullgate/Engine/Failing.lean
  Subject:   A TICK THAT FAILS: what it was asked for, and who remembers.

  A tick takes the requests (a change of the document, a recovery burst, the catch-all's clock)
  before it reads the document, and returns early if that fails.

  * `DocSync` -- the engine with what the re-seed reads; `DocSync.tick` -- the tick with it;
  * `rebuildDue_behind_iff`: when the next tick reads the document again;
  * `reseeds_everyone_iff`: when a tick re-seeds every member;
  * **`failed_tick_keeps_iff`**: what a failed tick was asked for is done exactly if something asks
    for it again, or the clocks make it due by themselves;
  * `failed_tick_forgets`.
-/
import Nullgate.Engine.Reseed
import Nullgate.Engine.Tick
import Nullgate.Roster.Access

namespace Nullgate

open Nullgate.Lib

variable (C : Crates)

/-! ## 1. The tick with its re-seed -/

/-- The engine, with what the roster document's re-seed reads. -/
structure DocSync extends Inner where
  presence : PresenceTracker := {}
  /-- the members the document's swarm has been seeded with -/
  docSyncSet : List Id := []
  /-- the last time the swarm was seeded -/
  lastDocSync : UInt64 := 0

namespace DocSync

/-- What one tick reads: its clocks, the document, and the live connections. -/
structure Pass where
  nowCoarse : UInt64
  /-- the clock of the fold -/
  now : UInt64
  /-- the clock of the re-seed -/
  nowSync : UInt64
  loaded : Except String (List Entry)
  connected : List Id

/-- The re-seed of a tick that works with `roster`, and whom it seeds. -/
def reseed (s : DocSync) (roster : Roster) (force : Bool) (f : Pass) : DocSync × Option (List Id) :=
  let presence := s.presence.setVirtualIps roster
  let ids := memberIds roster s.myId
  let changed := s.docSyncSet ≠ ids
  let due := saturatingSub f.nowSync s.lastDocSync > DOC_RESYNC_MS
  match docReseedTargets ids f.connected (presence.isFresh f.nowSync) (changed || force) due with
  | some targets => ({ s with presence, docSyncSet := ids, lastDocSync := f.nowSync }, some targets)
  | none => ({ s with presence, docSyncSet := ids }, none)

/-- Going offline clears what was seeded, and what is known of the peers. -/
def cleared (s : DocSync) (i : Inner) : DocSync :=
  { s with toInner := i, presence := {}, docSyncSet := [], lastDocSync := 0 }

/-- **One maintenance pass**: how it ends, and whom it seeds. -/
def tick (s : DocSync) (f : Pass) : DocSync × TickEnd × Option (List Id) :=
  let (i, ended) := Nullgate.tick C s.toInner f.nowCoarse f.now f.loaded
  match ended with
  | .refreshed =>
    let (s', targets) := { s with toInner := i }.reseed i.roster s.forceRecover f
    (s', .refreshed, targets)
  | .evicted => (s.cleared i, .evicted, none)
  | ended => ({ s with toInner := i }, ended, none)

/-- What happens to the engine. -/
inductive Event where
  | tick (f : Pass)
  /-- the live-sync watcher saw the document change -/
  | docChanged
  /-- a network-change hint fires a recovery burst -/
  | networkChanged
  | softDisconnect
  | activate (cfg : StoredConfig) (doc : Doc) (author : AuthorId)
  | presence (c : PresenceCall)

def step (s : DocSync) : Event → DocSync
  | .tick f => (s.tick C f).1
  | .docChanged => { s with docsDirty := true }
  | .networkChanged => { s with forceRecover := true, lastDocSync := 0 }
  | .softDisconnect => s.cleared (softDisconnect s.toInner)
  | .activate cfg doc author => { s with toInner := activate s.toInner cfg doc author }
  | .presence c => { s with presence := s.presence.step c }

/-- The engine behind a tick and the events after it. -/
abbrev behind (s : DocSync) (f : Pass) (mid : List Event) : DocSync :=
  run (step C) (s.step C (.tick f)) mid

/-- How a tick would end. -/
def ends (s : DocSync) (f : Pass) : TickEnd := (s.tick C f).2.1

/-- Whom a tick seeds. -/
def seeds (s : DocSync) (f : Pass) : Option (List Id) := (s.tick C f).2.2

/-- The roster a tick works with: the one it folds, or the cached one. -/
def worksWith (s : DocSync) (f : Pass) : Roster :=
  (Nullgate.tick C s.toInner f.nowCoarse f.now f.loaded).1.roster

variable {C} {s : DocSync} {f : Pass}

theorem ends_eq : s.ends C f = (Nullgate.tick C s.toInner f.nowCoarse f.now f.loaded).2 := by
  unfold ends tick
  generalize Nullgate.tick C s.toInner f.nowCoarse f.now f.loaded = r
  obtain ⟨i, ended⟩ := r
  cases ended <;> rfl

/-! ## 2. How a tick ends, and what it leaves -/

variable (s f) in
/-- **All that a tick can do to the requests.** -/
inductive Ticked : DocSync → TickEnd → Prop
  | idle (offline : s.doc = none ∨ s.config = none) : Ticked s .idle
  | failed (e : String) (online : s.doc.isSome = true)
      (due : rebuildDue s.toInner f.nowCoarse = true) (loaded : f.loaded = .error e) :
      Ticked { s with forceRecover := false, docsDirty := false, lastRosterRebuild := f.nowCoarse }
        (.failed e)
  | evicted (i : Inner) : Ticked (s.cleared (teardown i)) .evicted
  | refreshed (s' : DocSync) (dirty : s'.docsDirty = false) (force : s'.forceRecover = false) :
      Ticked s' .refreshed

theorem reseed_toInner (s : DocSync) (roster : Roster) (force : Bool) (f : Pass) :
    (s.reseed roster force f).1.toInner = s.toInner := by
  unfold reseed
  dsimp only
  split <;> rfl

/-- A tick has nothing to do, fails to read, or gets as far as the roster. -/
theorem tick_cases (i : Inner) (nowCoarse now : UInt64) (loaded : Except String (List Entry)) :
    ((i.doc = none ∨ i.config = none) ∧ Nullgate.tick C i nowCoarse now loaded = (i, .idle)) ∨
    (i.doc.isSome = true ∧ rebuildDue i nowCoarse = true ∧ ∃ e, loaded = .error e ∧
      Nullgate.tick C i nowCoarse now loaded =
        ({ i with forceRecover := false, docsDirty := false, lastRosterRebuild := nowCoarse },
          .failed e)) ∨
    ∃ i' roster, i'.docsDirty = false ∧ i'.forceRecover = false ∧ i'.myId = i.myId ∧
      Nullgate.tick C i nowCoarse now loaded = enforceRoster i' roster := by
  unfold Nullgate.tick
  cases hdoc : i.doc with
  | none => exact Or.inl ⟨Or.inl rfl, rfl⟩
  | some d =>
    cases hcfg : i.config with
    | none => exact Or.inl ⟨Or.inr rfl, rfl⟩
    | some cfg =>
      refine Or.inr ?_
      dsimp only
      split
      · rename_i hdue
        cases loaded with
        | error e => exact Or.inl ⟨rfl, hdue, e, rfl, by rw [← hdoc, ← hcfg]⟩
        | ok E => refine Or.inr ⟨_, _, ?_, ?_, ?_, rfl⟩ <;> rfl
      · refine Or.inr ⟨_, _, ?_, ?_, ?_, rfl⟩ <;> rfl

/-- A tick that goes through leaves no request, whomever it seeds. -/
theorem Ticked.reseed {i : Inner} (hdirty : i.docsDirty = false) (hforce : i.forceRecover = false)
    (roster : Roster) (force : Bool) :
    s.Ticked f (({ s with toInner := i } : DocSync).reseed roster force f).1 .refreshed := by
  have hinner := reseed_toInner { s with toInner := i } roster force f
  exact .refreshed _ ((congrArg Inner.docsDirty hinner).trans hdirty)
    ((congrArg Inner.forceRecover hinner).trans hforce)

variable (C s f) in
theorem ticked : s.Ticked f (s.tick C f).1 (s.ends C f) := by
  rw [ends_eq]
  unfold tick
  rcases tick_cases (C := C) s.toInner f.nowCoarse f.now f.loaded with
    ⟨hoff, htick⟩ | ⟨honline, hdue, e, hload, htick⟩ | ⟨i, roster, hdirty, hforce, -, htick⟩
  · rw [htick]
    exact .idle hoff
  · rw [htick]
    exact .failed e honline hdue hload
  · rw [htick, enforceRoster]
    by_cases hmember : roster.isMember i.myId
    · rw [if_pos hmember]
      exact Ticked.reseed (i := { i with roster, wasMember := true }) hdirty hforce roster _
    · rw [if_neg hmember]
      by_cases hwas : i.wasMember
      · rw [if_pos hwas]
        exact .evicted i
      · rw [if_neg hwas]
        exact Ticked.reseed (i := { i with roster }) hdirty hforce roster _

/-! ## 3. The next tick -/

/-- Something asks for a new fold. -/
def Event.Asks : Event → Prop
  | .docChanged => True
  | .networkChanged => True
  | .activate _ _ _ => True
  | _ => False

/-- No tick, or one that has nothing to do. -/
def Quiet (s : DocSync) : Event → Prop
  | .tick f => s.ends C f = .idle
  | _ => True

/-- No tick that goes through. -/
def Unsuccessful (s : DocSync) : Event → Prop
  | .tick f => s.ends C f = .idle ∨ ∃ e, s.ends C f = .failed e
  | _ => True

theorem step_tick_idle (h : s.ends C f = .idle) : s.step C (.tick f) = s := by
  have hticked := ticked C s f
  rw [h] at hticked
  show (s.tick C f).1 = _
  generalize (s.tick C f).1 = s' at hticked
  cases hticked
  rfl

/-- What a failed tick leaves. -/
theorem step_tick_failed {e : String} (h : s.ends C f = .failed e) :
    s.step C (.tick f) =
      { s with forceRecover := false, docsDirty := false, lastRosterRebuild := f.nowCoarse } := by
  have hticked := ticked C s f
  rw [h] at hticked
  show (s.tick C f).1 = _
  generalize (s.tick C f).1 = s' at hticked
  cases hticked
  rfl

/-- While nobody asks, the flags stay clear and the clock stays. -/
theorem clear_of_unasked {mid : List Event} {n : UInt64}
    (hquiet : EachStep (step C) (Quiet (C := C)) s mid) (hunasked : ∀ ev ∈ mid, ¬ ev.Asks)
    (h0 : s.docsDirty = false ∧ s.forceRecover = false ∧ s.lastRosterRebuild = n) :
    (run (step C) s mid).docsDirty = false ∧ (run (step C) s mid).forceRecover = false ∧
      (run (step C) s mid).lastRosterRebuild = n := by
  refine run_invariant_of_eachStep
    (I := fun s => s.docsDirty = false ∧ s.forceRecover = false ∧ s.lastRosterRebuild = n) ?_ h0
    (eachStep_and hunasked hquiet)
  rintro s ev h ⟨hev, hq⟩
  cases ev with
  | tick f => rw [step_tick_idle hq]; exact h
  | docChanged => exact absurd trivial hev
  | networkChanged => exact absurd trivial hev
  | softDisconnect => exact ⟨rfl, rfl, h.2.2⟩
  | activate cfg doc author => exact absurd trivial hev
  | presence c => exact h

/-- A fold is asked for, or the device is offline. -/
def Pending (s : DocSync) : Prop :=
  s.doc = none ∨ s.docsDirty = true ∨ s.forceRecover = true

/-- Who asks is heard, -/
theorem pending_asked {ev : Event} (h : ev.Asks) : (s.step C ev).Pending := by
  cases ev with
  | docChanged => exact Or.inr (Or.inl rfl)
  | networkChanged => exact Or.inr (Or.inr rfl)
  | activate cfg doc author => exact Or.inr (Or.inl rfl)
  | tick f => exact absurd h id
  | softDisconnect => exact absurd h id
  | presence c => exact absurd h id

/-- and not forgotten before the next tick. -/
theorem pending_step {ev : Event} (hq : Quiet (C := C) s ev) (h : s.Pending) :
    (s.step C ev).Pending := by
  cases ev with
  | tick f => rw [step_tick_idle hq]; exact h
  | docChanged => exact Or.inr (Or.inl rfl)
  | networkChanged => exact Or.inr (Or.inr rfl)
  | softDisconnect => exact Or.inl rfl
  | activate cfg doc author => exact Or.inr (Or.inl rfl)
  | presence c => exact h

/-- **The tick behind a failed one reads the document again** exactly if something asked for it in
    between, or the catch-all is due once more. -/
theorem rebuildDue_behind_iff {e : String} (hfail : s.ends C f = .failed e) {mid : List Event}
    (hquiet : EachStep (step C) (Quiet (C := C)) (s.step C (.tick f)) mid) {f' : Pass}
    (hnext : (s.behind C f mid).ends C f' ≠ .idle) :
    rebuildDue (s.behind C f mid).toInner f'.nowCoarse = true ↔
      (∃ ev ∈ mid, ev.Asks) ∨
        saturatingSub f'.nowCoarse f.nowCoarse > ROSTER_REBUILD_CATCHALL_MS := by
  by_cases hasked : ∃ ev ∈ mid, ev.Asks
  · refine iff_of_true ?_ (Or.inl hasked)
    obtain ⟨ev, hev, hasks⟩ := hasked
    obtain ⟨before, after, rfl⟩ := List.append_of_mem hev
    rw [eachStep_append] at hquiet
    have hpending : (s.behind C f (before ++ ev :: after)).Pending := by
      rw [behind, run_append, run_cons]
      exact run_invariant_of_eachStep (fun s ev h hq => pending_step hq h) (pending_asked hasks)
        hquiet.2.2
    generalize s.behind C f (before ++ ev :: after) = s' at hpending hnext ⊢
    rcases hpending with hoff | hdirty | hforce
    · refine absurd ?_ hnext
      rw [ends_eq, Nullgate.tick, hoff]
    · simp [rebuildDue, hdirty]
    · simp [rebuildDue, hforce]
  · rw [or_iff_right hasked]
    rw [behind, step_tick_failed hfail]
    rw [step_tick_failed hfail] at hquiet
    obtain ⟨hdirty, hforce, hlast⟩ := clear_of_unasked hquiet
      (fun ev hev h => hasked ⟨ev, hev, h⟩) ⟨rfl, rfl, rfl⟩
    rw [rebuildDue, hdirty, hforce, hlast]
    simp

/-! ## 4. Whom a tick seeds -/

/-- A member is seeded on a change, or if the self-heal is due and the member is reachable. -/
theorem mem_docReseedTargets_iff {members connected : List Id} {isFresh : Id → Bool}
    {changed due : Bool} {id : Id} (hid : id ∈ members) :
    id ∈ (docReseedTargets members connected isFresh changed due).getD [] ↔
      changed = true ∨ due = true ∧ (id ∈ connected ∨ isFresh id = true) := by
  have hne : members.isEmpty = false := by
    cases members with
    | nil => cases hid
    | cons x members => rfl
  unfold docReseedTargets
  rw [hne, if_neg Bool.false_ne_true]
  cases changed with
  | true => exact iff_of_true hid (Or.inl rfl)
  | false =>
    cases due with
    | false => simp
    | true =>
      have hmem : id ∈ members.filter (fun id => connected.contains id || isFresh id) ↔
          id ∈ connected ∨ isFresh id = true := by
        rw [List.mem_filter, and_iff_right hid, Bool.or_eq_true, List.contains_iff_mem]
      simp only [Bool.not_true, Bool.false_eq_true, if_false, false_or, true_and]
      rw [← hmem]
      split
      · rename_i hempty
        rw [List.isEmpty_iff.mp hempty]
        rfl
      · rfl

variable (s f) in
/-- The condition for a member to be seeded, before a tick that works with `roster`. -/
def Seedable (roster : Roster) (force : Bool) (id : Id) : Prop :=
  s.docSyncSet ≠ memberIds roster s.myId ∨ force = true ∨
    saturatingSub f.nowSync s.lastDocSync > DOC_RESYNC_MS ∧
      (id ∈ f.connected ∨ (s.presence.setVirtualIps roster).isFresh f.nowSync id = true)

/-- **Whom a tick seeds that goes through.** -/
theorem mem_seeds_iff (h : s.ends C f = .refreshed) {id : Id}
    (hid : id ∈ memberIds (s.worksWith C f) s.myId) :
    id ∈ (s.seeds C f).getD [] ↔ s.Seedable f (s.worksWith C f) s.forceRecover id := by
  have hmy : (Nullgate.tick C s.toInner f.nowCoarse f.now f.loaded).1.myId = s.myId := by
    rcases tick_cases (C := C) s.toInner f.nowCoarse f.now f.loaded with
      ⟨-, htick⟩ | ⟨-, -, e, -, htick⟩ | ⟨i, roster, -, -, hmy, htick⟩
    · rw [htick]
    · rw [htick]
    · rw [htick, enforceRoster]
      split
      · exact hmy
      · split
        · exact hmy
        · exact hmy
  rw [ends_eq] at h
  unfold seeds tick worksWith at *
  generalize Nullgate.tick C s.toInner f.nowCoarse f.now f.loaded = r at *
  obtain ⟨i, ended⟩ := r
  dsimp only at h hmy hid ⊢
  subst h
  dsimp only [reseed]
  rw [hmy]
  have hiff : id ∈ (docReseedTargets (memberIds i.roster s.myId) f.connected
        ((s.presence.setVirtualIps i.roster).isFresh f.nowSync)
        (decide (s.docSyncSet ≠ memberIds i.roster s.myId) || s.forceRecover)
        (decide (saturatingSub f.nowSync s.lastDocSync > DOC_RESYNC_MS))).getD [] ↔ _ :=
    mem_docReseedTargets_iff hid
  rw [Seedable, ← or_assoc]
  simp only [Bool.or_eq_true, decide_eq_true_eq] at hiff
  rw [← hiff]
  split
  · rename_i targets htargets
    rw [htargets]
  · rename_i htargets
    rw [htargets]

/-! ## 5. The burst behind failures -/

variable (C) in
/-- What an event writes to the flag of the recovery burst. -/
def writesForce (s : DocSync) : Event → Option Bool
  | .tick f => if s.ends C f = .idle then none else some false
  | .networkChanged => some true
  | .softDisconnect => some false
  | _ => none

variable (C) in
/-- **The flag of the recovery burst as a register.** -/
def force : Register (step C) Bool where
  obs s := s.forceRecover
  writes := writesForce C
  law s ev := by
    cases ev with
    | tick f =>
      rw [writesForce]
      by_cases hidle : s.ends C f = .idle
      · rw [if_pos hidle, step_tick_idle hidle]
        rfl
      · rw [if_neg hidle]
        show (s.tick C f).1.forceRecover = false
        have hticked := ticked C s f
        generalize (s.tick C f).1 = s' at hticked ⊢
        generalize s.ends C f = ended at hticked hidle
        cases hticked with
        | idle offline => exact absurd rfl hidle
        | failed e online due loaded => rfl
        | evicted i => rfl
        | refreshed s' dirty force => exact force
    | _ => rfl

variable (C) in
/-- **The burst is asked for again**: the last that wrote the flag in `mid` is a hint. -/
def AskedAgain (s : DocSync) (mid : List Event) : Prop := (force C).LastWrite s mid true

theorem forceRecover_behind_iff {e : String} (hfail : s.ends C f = .failed e) (mid : List Event) :
    (s.behind C f mid).forceRecover = true ↔
      AskedAgain C (s.step C (.tick f)) mid := by
  have hclear : (force C).obs (s.step C (.tick f)) ≠ true := by
    rw [step_tick_failed hfail]
    exact Bool.false_ne_true
  exact ⟨fun h => (force C).lastWrite_of_ne h hclear, fun h => (force C).obs_of_lastWrite h⟩

variable (C) in
/-- **What a failed tick was asked for is done** exactly if it is asked for again. (1) The next tick
    that has a network reads the document again exactly if something asked for it since, or the
    catch-all is due once more. (2) The first later tick that goes through carries a burst out
    exactly if each member is to be seeded anyway: the members have changed, the burst was asked
    for again, or the self-heal is due and reaches the member. -/
theorem failed_tick_keeps_iff {s : DocSync} {f : Pass} {e : String}
    (hfail : s.ends C f = .failed e) :
    rebuildDue s.toInner f.nowCoarse = true ∧
    (∀ mid f', EachStep (step C) (Quiet (C := C)) (s.step C (.tick f)) mid →
      (s.behind C f mid).ends C f' ≠ .idle →
      (rebuildDue (s.behind C f mid).toInner f'.nowCoarse = true ↔
        (∃ ev ∈ mid, ev.Asks) ∨
          saturatingSub f'.nowCoarse f.nowCoarse > ROSTER_REBUILD_CATCHALL_MS)) ∧
    ∀ mid f', EachStep (step C) (Unsuccessful (C := C)) (s.step C (.tick f)) mid →
      let s' := s.behind C f mid
      s'.ends C f' = .refreshed →
      let roster := s'.worksWith C f'
      ((s.forceRecover = true → ∀ id ∈ memberIds roster s'.myId, id ∈ (s'.seeds C f').getD []) ↔
        (s.forceRecover = true → ∀ id ∈ memberIds roster s'.myId,
          s'.docSyncSet ≠ memberIds roster s'.myId ∨ AskedAgain C (s.step C (.tick f)) mid ∨
            saturatingSub f'.nowSync s'.lastDocSync > DOC_RESYNC_MS ∧
              (id ∈ f'.connected ∨
                (s'.presence.setVirtualIps roster).isFresh f'.nowSync id = true))) := by
  refine ⟨?_, fun mid f' hquiet hnext => rebuildDue_behind_iff hfail hquiet hnext, ?_⟩
  · have hticked := ticked C s f
    rw [hfail] at hticked
    generalize (s.tick C f).1 = s' at hticked
    cases hticked
    assumption
  · intro mid f' _ s' hok roster
    refine imp_congr_right fun _ => forall_congr' fun id => forall_congr' fun hid => ?_
    rw [mem_seeds_iff hok hid, Seedable, forceRecover_behind_iff hfail]

end DocSync

namespace Sample

/-- Device 3 has been online since the time 100, and has seeded the members of `joined`. -/
def seeded : DocSync :=
  DocSync.step .plain { toInner := device } (.tick ⟨100, 100, 100, .ok joined, []⟩)

/-- The document changes and the network does, -/
def alerted : DocSync := run (DocSync.step .plain) seeded [.docChanged, .networkChanged]

/-- but reading the document fails. -/
def unread : DocSync.Pass := ⟨20000, 20000, 20000, .error "blob not found", []⟩

/-- Three seconds later it could be read. -/
def readable : DocSync.Pass := ⟨23000, 23000, 400000, .ok joined, []⟩

end Sample

open Sample in
/-- Asked for again behind the failure, the document is read and the burst carried out. -/
theorem failed_tick_asked_again :
    rebuildDue (alerted.behind .plain unread [.docChanged]).toInner readable.nowCoarse = true ∧
    (key 2) ∈ ((alerted.behind .plain unread [.networkChanged]).seeds .plain readable).getD [] := by
  have hfail : alerted.ends .plain unread = .failed "blob not found" := by decide +kernel
  obtain ⟨-, hread, hburst⟩ := DocSync.failed_tick_keeps_iff .plain hfail
  have hagain : DocSync.AskedAgain .plain (alerted.step .plain (.tick unread)) [.networkChanged] :=
    ⟨[], _, [], rfl, rfl, Register.noWrite_nil _⟩
  refine ⟨(hread [.docChanged] readable ⟨trivial, trivial⟩ (by decide +kernel)).mpr ?_,
    (hburst [.networkChanged] readable ⟨trivial, trivial⟩ (by decide +kernel)).mpr ?_
      (by decide +kernel) (key 2) (by decide +kernel)⟩
  · exact Or.inl ⟨.docChanged, List.mem_singleton_self _, trivial⟩
  · exact fun _ id _ => Or.inr (Or.inl hagain)

open Sample in
/-- **A failed tick forgets**: the next one does not read the document, and seeds nobody, where it
    would have seeded device 2 had the first one not failed. -/
theorem failed_tick_forgets :
    alerted.docsDirty = true ∧ alerted.forceRecover = true ∧
    alerted.ends .plain unread = .failed "blob not found" ∧
    (alerted.behind .plain unread []).ends .plain readable = .refreshed ∧
    rebuildDue (alerted.behind .plain unread []).toInner readable.nowCoarse = false ∧
    memberIds ((alerted.behind .plain unread []).worksWith .plain readable) (key 3) = [key 2] ∧
    (alerted.behind .plain unread []).seeds .plain readable = none ∧
    alerted.seeds .plain readable = some [key 2] := by
  decide +kernel

end Nullgate
