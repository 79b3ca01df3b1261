/-
  File:      Nullgate/Engine/Offline.lean
  Subject:   OFFLINE IS QUIESCENT: what `soft_disconnect` has cleared, and who writes it back.

  `soft_disconnect` clears everything but the state behind the async lock in one stretch, and
  that state in a second one. Tasks that were in flight go on with the roster, the config or
  the connection they hold.

  * `Live.Offline`: no connection, route, TUN or roster, and the latch is open;
  * `Task.brings`, `Task.caches`: the stretches that would write something back;
  * `stays_offline`: there is none if no task holds a roster, a fold or a dial;
  * `offline_quiescent`: the device stays offline exactly as long as there is none;
  * `online_after_disconnect`: a tick that was waiting for the fold brings all of it back.
-/
import Nullgate.Engine.Stretches

namespace Nullgate

open Nullgate.Lib

/-! ## 1. What is cleared, and what writes it back -/

namespace Live

/-- No connection, no route and no TUN, and the latch is open. -/
structure Cleared (l : Live) : Prop where
  conns : l.mesh.conns = ∅
  routes : l.routes = {}
  tun : l.tun = none
  assignedIp : l.assignedIp = none
  wasMember : l.wasMember = false

/-- **The device is offline.** -/
structure Offline (l : Live) : Prop extends Cleared l where
  roster : l.roster = .default

/-- The TUN may be brought up now. -/
def opensTun (l : Live) (a : Answers) : Bool := !a.tunDisabled && !l.tunAttempted

end Live

namespace Task

/-- **The stretch writes back what is cleared**: the fold of a roster with this device, or of
    one that fills the routes; the end of a sweep that brings up the TUN; a registration; the
    latch of the early refresh. -/
def brings (C : Crates) (l : Live) (a : Answers) : Task → Bool
  | .tickFold cfg rebuild => (l.foldRoster C a cfg rebuild).toOption.any fun roster =>
      roster.isMember l.myId || (rebuild && !roster.members.isEmpty)
  | .tickSweep roster _ [] => roster.isMember l.myId && l.opensTun a
  | .dial _ => a.dialed.isSome
  | .gate peer _ => l.roster.isMember peer
  | .refreshFold cfg => (l.foldRoster C a cfg true).toOption.any fun roster =>
      roster.isMember l.myId
  | _ => false

/-- The stretch caches a roster that is not the default one. -/
def caches : Task → Bool
  | .tickStore roster _ => roster ≠ .default
  | .refreshStore roster => roster ≠ .default
  | _ => false

end Task

variable {C : Crates} {l : Live} {a : Answers} {t : Task} {roster : Roster}

/-! ## 2. One stretch -/

theorem fromRoster_eq_empty_iff :
    RouteTable.fromRoster roster = {} ↔ roster.members.isEmpty = true := by
  rw [RouteTable.fromRoster, RouteTable.mk.injEq, List.map_eq_nil_iff, ← List.isEmpty_iff,
    Std.ExtTreeMap.isEmpty_toList]

namespace Live

theorem Cleared.congr {l' : Live} (h : l.Cleared) (hconns : l'.mesh.conns = l.mesh.conns)
    (hroutes : l'.routes = l.routes) (htun : l'.tun = l.tun)
    (hassigned : l'.assignedIp = l.assignedIp) (hlatch : l'.wasMember = l.wasMember) :
    l'.Cleared where
  conns := hconns ▸ h.conns
  routes := hroutes ▸ h.routes
  tun := htun ▸ h.tun
  assignedIp := hassigned ▸ h.assignedIp
  wasMember := hlatch ▸ h.wasMember

theorem cleared_goOffline (l : Live) : l.goOffline.Cleared := ⟨rfl, rfl, rfl, rfl, rfl⟩

theorem cleared_enableOwnTun_iff (h : l.Cleared) :
    (l.enableOwnTun a roster).Cleared ↔ (roster.isMember l.myId && l.opensTun a) = false := by
  have hm : roster.isMember l.myId = (roster.member l.myId).isSome :=
    Std.ExtTreeMap.contains_eq_isSome_getElem?
  rw [hm, enableOwnTun]
  cases hme : roster.member l.myId with
  | none => exact iff_of_true h rfl
  | some me =>
    simp only [enableTun, opensTun, Option.isSome_some, Bool.true_and]
    split
    · rename_i hd
      exact iff_of_true h (by rw [hd]; rfl)
    · rename_i hd
      split
      · rename_i hatt
        exact iff_of_true h (by rw [hatt, Bool.not_true, Bool.and_false])
      · rename_i hatt
        refine iff_of_false (fun hc => ?_) (by simp [hd, hatt])
        cases hc.assignedIp

theorem cleared_sweepNext_iff (h : l.Cleared) (stale : List (Id × Conn)) :
    (l.sweepNext a roster stale).1.Cleared ↔
      (stale = [] → (roster.isMember l.myId && l.opensTun a) = false) := by
  cases stale with
  | nil => simp [sweepNext, cleared_enableOwnTun_iff h]
  | cons x stale =>
    refine iff_of_true ⟨?_, h.routes, h.tun, h.assignedIp, h.wasMember⟩ fun hnil => by cases hnil
    show l.mesh.conns.erase x.1 = ∅
    rw [h.conns, Std.ExtTreeMap.erase_empty]

/-- A registration of a device without connections fills the table. -/
theorem not_cleared_registerConn (h : l.Cleared) (dialed : Bool) (peer : Id) (c : Conn) :
    ¬ (l.registerConn dialed peer c).1.Cleared := by
  intro hc
  have hentry : (l.mesh.registerMesh l.myId peer c).1.conns[peer]? = some c := by
    refine Mesh.registerMesh_conns_self fun hv => ?_
    simp [Mesh.registerMesh, Mesh.register, h.conns] at hv
  have hempty : (l.mesh.registerMesh l.myId peer c).1.conns = ∅ := hc.conns
  rw [hempty] at hentry
  cases hentry

end Live

open Live

/-- The fold stretch, of a device that is cleared. -/
theorem cleared_foldTick_iff (h : l.Cleared) (cfg : StoredConfig) (rebuild : Bool) :
    (l.foldTick C a cfg rebuild).1.Cleared ↔ (Task.tickFold cfg rebuild).brings C l a = false := by
  rw [Task.brings]
  rcases l.foldTick_cases C a cfg rebuild with
    ⟨e, hr, he⟩ | ⟨roster, -, hlatch, -⟩ | ⟨roster, hr, he⟩
  · rw [he, hr]
    exact iff_of_true h rfl
  · rw [h.wasMember] at hlatch
    cases hlatch
  · rw [he, hr, Except.toOption, Option.any_some, Bool.or_eq_false_iff]
    refine ⟨?_, ?_⟩
    · intro hc
      have hm : (l.wasMember || roster.isMember l.myId) = false :=
        (wasMember_sweepNext _ a _ _).symm.trans hc.wasMember
      have hroutes : (if rebuild then .fromRoster roster else l.routes) = ({} : RouteTable) :=
        (routes_sweepNext _ a _ _).symm.trans hc.routes
      refine ⟨(Bool.or_eq_false_iff.mp hm).2, ?_⟩
      cases rebuild with
      | false => rfl
      | true => rw [fromRoster_eq_empty_iff.mp hroutes]; rfl
    · intro h'
      obtain ⟨hm, hroutes⟩ := h'
      have hlatch : (l.wasMember || roster.isMember l.myId) = false :=
        Bool.or_eq_false_iff.mpr ⟨h.wasMember, hm⟩
      have hempty : (if rebuild then .fromRoster roster else l.routes) = ({} : RouteTable) := by
        cases rebuild with
        | false => exact h.routes
        | true => exact fromRoster_eq_empty_iff.mpr (by simpa using hroutes)
      have hcleared : Live.Cleared { l with
          wasMember := l.wasMember || roster.isMember l.myId
          routes := if rebuild then .fromRoster roster else l.routes } :=
        ⟨h.conns, hempty, h.tun, h.assignedIp, hlatch⟩
      exact (cleared_sweepNext_iff hcleared _).mpr fun _ => Bool.and_eq_false_imp.mpr (by simp [hm])

/-- **A stretch leaves the device cleared exactly when it writes nothing back.** -/
theorem cleared_stretch_iff (h : l.Cleared) :
    (stretch C l a t).1.Cleared ↔ t.brings C l a = false := by
  have hkeep : ∀ l' : Live, l'.mesh.conns = l.mesh.conns → l'.routes = l.routes → l'.tun = l.tun →
      l'.assignedIp = l.assignedIp → l'.wasMember = l.wasMember →
      (l'.Cleared ↔ false = false) := fun l' h₁ h₂ h₃ h₄ h₅ =>
    iff_of_true (h.congr h₁ h₂ h₃ h₄ h₅) rfl
  cases t with
  | tickRead nowCoarse =>
    rw [stretch, single, readTick]
    split
    · exact hkeep _ rfl rfl rfl rfl rfl
    · exact hkeep _ rfl rfl rfl rfl rfl
  | tickFold cfg rebuild => exact cleared_foldTick_iff h cfg rebuild
  | tickSweep roster peer stale =>
    have hobserved : (l.observe peer {} false).Cleared := h.congr rfl rfl rfl rfl rfl
    refine (cleared_sweepNext_iff hobserved stale).trans ?_
    cases stale with
    | nil => simp [Task.brings, observe, opensTun]
    | cons x stale => simp [Task.brings]
  | dial peer =>
    cases hd : a.dialed with
    | some id =>
      refine iff_of_false ?_ (by simp [Task.brings, hd])
      rw [stretch, hd]
      exact not_cleared_registerConn h true peer ⟨id, .client⟩
    | none =>
      refine iff_of_true ?_ (by simp [Task.brings, hd])
      rw [stretch, hd]
      exact h
  | gate peer id =>
    rw [stretch, single, gateConn, Task.brings]
    split
    · rename_i hm
      exact iff_of_false (not_cleared_registerConn h false peer ⟨id, .server⟩) (by simp [hm])
    · rename_i hm
      exact iff_of_true h (by simpa using hm)
  | handshake id =>
    rw [stretch]
    split <;> exact iff_of_true h rfl
  | watch peer conn =>
    rw [stretch, single, watchConn]
    split
    · -- there is no entry to evict
      refine iff_of_true ?_ rfl
      rcases Mesh.evict_cases l.mesh peer conn with ⟨cur, hcur, -, -⟩ | ⟨-, he⟩
      · rw [h.conns] at hcur
        cases hcur
      · rw [he]
        exact h.congr rfl rfl rfl rfl rfl
    · exact iff_of_true h rfl
  | disconnect forget => exact iff_of_true (cleared_goOffline l) rfl
  | refreshFold cfg =>
    rw [stretch, single, foldRefresh, Task.brings]
    cases l.foldRoster C a cfg true with
    | error e => exact iff_of_true h rfl
    | ok roster =>
      refine ⟨fun hc => ?_, fun hm => h.congr rfl rfl rfl rfl ?_⟩
      · exact (Bool.or_eq_false_iff.mp hc.wasMember).2
      · show (l.wasMember || roster.isMember l.myId) = l.wasMember
        rw [show roster.isMember l.myId = false from hm, Bool.or_false]
  | _ => exact hkeep _ rfl rfl rfl rfl rfl

theorem caches_of_plain (h : t.plain = true) : t.caches = false := by
  cases t with
  | tickStore roster connected => cases h
  | refreshStore roster => cases h
  | _ => rfl

/-- Only two stretches cache a roster. -/
theorem roster_stretched {l' : Live} {t' : Task} {spawned : List Task}
    (hs : Stretched C l a t l' t' spawned) (h : l.roster = .default) :
    l'.roster = .default ↔ t.caches = false := by
  cases hs with
  | pass ht _ =>
    refine iff_of_true h ?_
    rcases ht with ht | ⟨peer, rfl⟩
    · exact caches_of_plain ht
    · rfl
  | @enforce cfg rebuild roster l₁ next _ hlive hnext =>
    subst hnext hlive
    exact iff_of_true ((roster_sweepNext _ _ _ _).trans h) rfl
  | @sweep roster peer stale next hnext =>
    subst hnext
    exact iff_of_true ((roster_sweepNext _ _ _ _).trans h) rfl
  | store roster connected => simp [storeTick, Task.caches]
  | @register t dialed peer conn next ht hnext =>
    subst hnext
    refine iff_of_true h ?_
    rcases ht with rfl | ⟨⟨id, rfl⟩, -⟩ <;> rfl
  | reset ht' => exact iff_of_true rfl rfl
  | cache roster => simp [Task.caches]
  | _ => exact iff_of_true h rfl

/-- **A stretch leaves the device offline exactly when it writes nothing back and caches no
    roster.** -/
theorem offline_stretch_iff (h : l.Offline) :
    (stretch C l a t).1.Offline ↔ t.brings C l a = false ∧ t.caches = false := by
  rw [← cleared_stretch_iff h.toCleared, ← roster_stretched (stretched C l a t) h.roster]
  exact ⟨fun ho => ⟨ho.toCleared, ho.roster⟩, fun ho => ⟨ho.1, ho.2⟩⟩

/-! ## 3. One step -/

variable (C) in
/-- The action writes nothing back. -/
def KeepsCleared (w : World Live Task) : Act Task Answers Outside → Prop
  | .go k a => ∀ t ∈ w.tasks[k]?, t.brings C w.shared a = false
  | _ => True

variable (C) in
/-- The action writes nothing back, and caches no roster. -/
def KeepsOffline (w : World Live Task) : Act Task Answers Outside → Prop
  | .go k a => ∀ t ∈ w.tasks[k]?, t.brings C w.shared a = false ∧ t.caches = false
  | _ => True

instance decidableKeepsCleared (w : World Live Task) : ∀ act, Decidable (KeepsCleared C w act)
  | .go k a => inferInstanceAs (Decidable (∀ t ∈ w.tasks[k]?, t.brings C w.shared a = false))
  | .start _ => isTrue trivial
  | .drop _ => isTrue trivial
  | .env _ => isTrue trivial

instance decidableKeepsOffline (w : World Live Task) : ∀ act, Decidable (KeepsOffline C w act)
  | .go k a => inferInstanceAs (Decidable (∀ t ∈ w.tasks[k]?, t.brings C w.shared a = false ∧ _))
  | .start _ => isTrue trivial
  | .drop _ => isTrue trivial
  | .env _ => isTrue trivial

theorem cleared_step_iff {w : World Live Task} (h : w.shared.Cleared)
    (act : Act Task Answers Outside) :
    ((engine C).step w act).shared.Cleared ↔ KeepsCleared C w act := by
  refine (Program.step_shared_iff (I := Live.Cleared)
    (Q := fun l a t => t.brings C l a = false) h (fun _ _ => cleared_stretch_iff h)
    (fun e => ?_) act).trans ?_
  · cases e <;> exact h.congr rfl rfl rfl rfl rfl
  · cases act <;> simp [KeepsCleared]

theorem offline_step_iff {w : World Live Task} (h : w.shared.Offline)
    (act : Act Task Answers Outside) :
    ((engine C).step w act).shared.Offline ↔ KeepsOffline C w act := by
  refine (Program.step_shared_iff (I := Live.Offline)
    (Q := fun l a t => t.brings C l a = false ∧ t.caches = false) h
    (fun _ _ => offline_stretch_iff h) (fun e => ?_) act).trans ?_
  · cases e <;> exact ⟨h.toCleared.congr rfl rfl rfl rfl rfl, h.roster⟩
  · cases act <;> simp [KeepsOffline]

/-! ## 4. Tasks that hold nothing -/

/-- The task holds no roster, is not about to fold one, and dials nobody. -/
def Task.idle : Task → Bool
  | .tickFold _ _ | .tickSweep _ _ _ | .tickStore _ _ | .dial _ => false
  | .refreshFold _ | .refreshStore _ => false
  | _ => true

/-- `activate` commits. -/
def activates : Act Task Answers Outside → Bool
  | .env (.activate _ _ _) => true
  | _ => false

/-- **The device is down**: offline and without a document, and no task holds anything. -/
def Down (w : World Live Task) : Prop :=
  w.Inv (fun l => l.Offline ∧ l.doc = none) (fun _ t => t.idle = true)

/-- A task that holds nothing writes nothing back to a device that is offline. -/
theorem keeps_of_idle (h : l.Offline) (ht : t.idle = true) :
    t.brings C l a = false ∧ t.caches = false := by
  cases t with
  | tickFold cfg rebuild => cases ht
  | tickSweep roster peer stale => cases ht
  | tickStore roster connected => cases ht
  | dial peer => cases ht
  | refreshFold cfg => cases ht
  | refreshStore roster => cases ht
  | gate peer id =>
    -- the gate lets nobody pass
    refine ⟨?_, rfl⟩
    rw [Task.brings, h.roster]
    exact Std.ExtTreeMap.contains_empty
  | _ => exact ⟨rfl, rfl⟩

theorem idle_refreshNext (live : List Id) : (refreshNext live).idle = true := by
  cases live <;> rfl

/-- Without a document it comes to hold nothing either: a new tick ends at once. -/
theorem idle_stretch (hdoc : l.doc = none) (hroster : l.roster = .default)
    (ht : t.idle = true) :
    (stretch C l a t).1.doc = none ∧ (stretch C l a t).2.1.idle = true ∧
      ∀ t' ∈ (stretch C l a t).2.2, t'.idle = true := by
  have hnil : ∀ t' ∈ ([] : List Task), t'.idle = true := List.forall_mem_nil _
  cases t with
  | tickFold cfg rebuild => cases ht
  | tickSweep roster peer stale => cases ht
  | tickStore roster connected => cases ht
  | dial peer => cases ht
  | refreshFold cfg => cases ht
  | refreshStore roster => cases ht
  | tickRead nowCoarse =>
    have hread : l.readTick nowCoarse = (l, .done) := by simp [readTick, hdoc]
    rw [stretch, hread, single]
    exact ⟨hdoc, rfl, hnil⟩
  | refreshRead =>
    have hread : l.readRefresh = .done := by simp [readRefresh, hdoc]
    rw [stretch, hread]
    exact ⟨hdoc, rfl, hnil⟩
  | tickLive => exact ⟨hdoc, idle_refreshNext _, hnil⟩
  | tickRefresh peer live => exact ⟨hdoc, idle_refreshNext live, hnil⟩
  | incoming id =>
    refine ⟨hdoc, ?_, hnil⟩
    rw [stretch]
    split <;> rfl
  | handshake id =>
    rw [stretch]
    split <;> exact ⟨hdoc, rfl, hnil⟩
  | gate peer id =>
    have hgate : l.gateConn peer id = (l, .done) := by
      simp [gateConn, hroster, Roster.isMember, Roster.default]
    rw [stretch, hgate, single]
    exact ⟨hdoc, rfl, hnil⟩
  | record dialed peer conn =>
    refine ⟨hdoc, rfl, fun t' ht' => ?_⟩
    rcases List.mem_pair.mp ht' with rfl | rfl <;> rfl
  | reader peer conn =>
    refine ⟨hdoc, ?_, hnil⟩
    rw [stretch]
    split <;> rfl
  | watch peer conn =>
    rw [stretch, single, watchConn]
    split
    · refine ⟨hdoc, ?_, hnil⟩
      dsimp only
      split <;> rfl
    · exact ⟨hdoc, rfl, hnil⟩
  | disconnected forget =>
    refine ⟨rfl, ?_, hnil⟩
    rw [stretch]
    split <;> rfl
  | _ => exact ⟨hdoc, rfl, hnil⟩

theorem down_step {w : World Live Task} (h : Down w) {act : Act Task Answers Outside}
    (hact : activates act = false) : Down ((engine C).step w act) := by
  obtain ⟨hoff, hdoc⟩ := h.shared
  refine Program.step_inv h (fun k a t _ hk => ?_) (fun t _ ht => ?_) (fun t t' hd _ => ?_)
    fun e he => ?_
  · have ht : t.idle = true := h.tasks t (List.mem_of_getElem? hk)
    obtain ⟨hdoc', hnext, hspawned⟩ := idle_stretch hdoc hoff.roster ht
    exact ⟨⟨(offline_stretch_iff hoff).mpr (keeps_of_idle hoff ht), hdoc'⟩, hnext, hspawned,
      fun _ h => h⟩
  · cases t with
    | tickStart => rfl
    | incoming id => rfl
    | disconnect forget => rfl
    | refreshRead => rfl
    | _ => cases ht
  · obtain ⟨rfl, -⟩ := Task.drop_cases hd
    rfl
  · subst he
    refine ⟨⟨?_, ?_⟩, fun _ h => h⟩
    · cases e <;> exact ⟨hoff.toCleared.congr rfl rfl rfl rfl rfl, hoff.roster⟩
    · cases e with
      | activate cfg doc author => cases hact
      | _ => exact hdoc

/-- **A device that is down stays offline** until the next `activate`, whatever ticks,
    requests and accepted connections come. -/
theorem stays_offline {w : World Live Task} {acts : List (Act Task Answers Outside)}
    (h : Down w) (hacts : ∀ act ∈ acts, activates act = false) :
    Throughout (engine C).step (fun w => w.shared.Offline) w acts := by
  rintro pre post rfl
  have hdown : Down (run (engine C).step w pre) := run_invariant (I := Down)
    (fun _ act hact hw => down_step hw (hacts act (List.mem_append_left _ hact))) h
  exact hdown.shared.1

/-! ## 5. Every run -/

/-- The end of `soft_disconnect` takes a device that is still cleared offline. -/
theorem offline_resetState (h : l.Cleared) : l.resetState.Offline :=
  ⟨h.congr rfl rfl rfl rfl rfl, rfl⟩

/-- **Offline is quiescent.** Let `soft_disconnect`, at the place `k`, go offline, `mid` run
    before it resets the state, and `post` behind it. (1) The device is cleared all through
    `mid` and offline in every state from the reset on, whether or not a task is midway in it,
    exactly when no stretch of `mid` writes anything back, and none of `post` does or caches a
    roster. (2) None of `post` does, until the next `activate`, if no task holds a roster, a
    fold or a dial when the state has been reset. -/
theorem offline_quiescent {w w₁ w₂ : World Live Task} {k : Nat} {forget : Bool}
    {a a' : Answers} {mid post : List (Act Task Answers Outside)}
    (hk : w.tasks[k]? = some (.disconnect forget)) (hw₁ : w₁ = (engine C).step w (.go k a))
    (hk₁ : (run (engine C).step w₁ mid).tasks[k]? = some (.disconnected forget))
    (hw₂ : w₂ = (engine C).step (run (engine C).step w₁ mid) (.go k a')) :
    (Throughout (engine C).step (fun w => w.shared.Cleared) w₁ mid ∧
        Throughout (engine C).step (fun w => w.shared.Offline) w₂ post ↔
      EachStep (engine C).step (KeepsCleared C) w₁ mid ∧
        EachStep (engine C).step (KeepsOffline C) w₂ post) ∧
    (EachStep (engine C).step (KeepsCleared C) w₁ mid → (∀ t ∈ w₂.tasks, t.idle = true) →
      (∀ act ∈ post, activates act = false) →
      Throughout (engine C).step (fun w => w.shared.Offline) w₂ post) := by
  have hcleared : w₁.shared.Cleared := by
    rw [hw₁, Program.step_go hk]
    exact cleared_goOffline _
  have hmid : Throughout (engine C).step (fun w => w.shared.Cleared) w₁ mid ↔
      EachStep (engine C).step (KeepsCleared C) w₁ mid :=
    throughout_iff (J := fun _ => True) (fun _ _ _ => trivial)
      (fun _ act _ h => cleared_step_iff h act) trivial hcleared
  have hreset : w₂.shared = (run (engine C).step w₁ mid).shared.resetState := by
    rw [hw₂, Program.step_go hk₁]
    rfl
  have hoffline : EachStep (engine C).step (KeepsCleared C) w₁ mid → w₂.shared.Offline := by
    intro hkeeps
    rw [hreset]
    exact offline_resetState (hmid.mpr hkeeps mid [] (List.append_nil _).symm)
  refine ⟨?_, fun hkeeps hidle hacts => ?_⟩
  · rw [hmid]
    refine and_congr_right fun hkeeps => ?_
    exact throughout_iff (J := fun _ => True) (fun _ _ _ => trivial)
      (fun _ act _ h => offline_step_iff h act) trivial (hoffline hkeeps)
  · have hdoc : w₂.shared.doc = none := by rw [hreset]; rfl
    exact stays_offline ⟨⟨hoffline hkeeps, hdoc⟩, hidle⟩ hacts

namespace Sample

/-- Device 2 is online, its first tick has ended, device 5 is connected to it, and
    `soft_disconnect` has begun. -/
def meshed : World Live Task :=
  run (engine .plain).step booted
    (online ++ [.go 0 {}, .go 1 {}, .go 2 {}] ++ accepts 3 15 5 ++ [.start (.disconnect false)])

def cleared : World Live Task := (engine .plain).step meshed (.go 6 {})

/-- The watcher of the connection has run, and then `soft_disconnect` to its end. -/
def down : World Live Task :=
  (engine .plain).step (run (engine .plain).step cleared [.go 5 {}]) (.go 6 {})

/-- Behind it runs a new tick. -/
def ticksOn : List (Act Task Answers Outside) := [.start .tickStart, .go 7 {}, .go 7 {}, .go 4 {}]

/-- Device 2 is online, and a tick has read document and config; before it folds them,
    `soft_disconnect` goes offline. -/
def disconnecting : List (Act Task Answers Outside) :=
  online ++ [.go 0 {}, .go 1 {}, .go 2 {}, .env .docChanged, .start .tickStart] ++
    List.replicate 2 (.go 3 (answers 200 admitted)) ++ [.start (.disconnect false), .go 4 {}]

/-- The tick goes on to its end, and so do its dials. -/
def resumes : List (Act Task Answers Outside) :=
  List.replicate 3 (.go 3 (answers 200 admitted)) ++ [.go 5 {}, .go 6 {}]

end Sample

theorem offline_quiescent_sample :
    Throughout (engine .plain).step (fun w => w.shared.Offline) Sample.down Sample.ticksOn := by
  have hk : Sample.meshed.tasks[6]? = some (.disconnect false) := by decide +kernel
  have hw₁ : Sample.cleared = (engine .plain).step Sample.meshed (.go 6 {}) := rfl
  have hk₁ : (run (engine .plain).step Sample.cleared [.go 5 {}]).tasks[6]? =
      some (.disconnected false) := by decide +kernel
  have hw₂ : Sample.down = (engine .plain).step (run (engine .plain).step Sample.cleared
      [.go 5 {}]) (.go 6 {}) := rfl
  exact ((offline_quiescent hk hw₁ hk₁ hw₂).1.mpr (by decide +kernel)).2

/-- **Back online after a disconnect**: the tick that was waiting for the fold latches again,
    fills the routes, brings up the TUN and caches the roster. -/
theorem online_after_disconnect :
    ¬ ∀ (pre post : List (Act Task Answers Outside)) (k : Nat),
      (run (engine .plain).step Sample.booted pre).tasks[k]? = some (.disconnected false) →
      (∀ act ∈ post, activates act = false) →
      Settled (run (engine .plain).step Sample.booted (pre ++ .go k {} :: post)) →
      (run (engine .plain).step Sample.booted (pre ++ .go k {} :: post)).shared.Offline := by
  intro h
  have hoff := h Sample.disconnecting Sample.resumes 4 (by decide +kernel) (by decide +kernel)
    (by decide +kernel)
  have hlatch : (run (engine .plain).step Sample.booted
      (Sample.disconnecting ++ .go 4 {} :: Sample.resumes)).shared.wasMember = true := by
    decide +kernel
  rw [hoff.wasMember] at hlatch
  cases hlatch

end Nullgate
