/-
  File:      Nullgate/Engine/Stretches.lean
  Subject:   WHAT ONE STRETCH CAN DO: the tick against its one-step model, and the connections.

  * `tick_alone`: the stretches of a tick that nobody interrupts do what `tick` does;
  * `Live.foldTick_cases`, `Live.sweepNext_cases`: the ends of the two stretches of a tick
    that touch the most;
  * `Stretched`, `stretched`: all that a stretch can do, case by case;
  * `MeshChange`: the five things a stretch can do to the connections.
-/
import Nullgate.Engine.Runtime

namespace Nullgate

open Nullgate.Lib

/-! ## 1. A tick that nobody interrupts -/

variable {C : Crates} {a : Answers} {l l' l'' : Live} {t t' t'' : Task} {roster : Roster}

variable (C a) in
/-- The task `t`, running alone, gets from `l` to the point `t'` and the state `l'`. -/
def Alone (l : Live) (t : Task) (l' : Live) (t' : Task) : Prop :=
  ∀ ts, ∃ n ts', run (engine C).step ⟨l, t :: ts⟩ (List.replicate n (.go 0 a)) = ⟨l', t' :: ts'⟩

theorem Alone.refl (l : Live) (t : Task) : Alone C a l t l t := fun ts => ⟨0, ts, rfl⟩

theorem Alone.head {spawned : List Task} (h : stretch C l a t = (l', t', spawned))
    (h' : Alone C a l' t' l'' t'') : Alone C a l t l'' t'' := by
  intro ts
  obtain ⟨n, ts', hrun⟩ := h' (ts ++ spawned)
  refine ⟨n + 1, ts', ?_⟩
  have hstep : (engine C).step ⟨l, t :: ts⟩ (.go 0 a) = ⟨l', t' :: (ts ++ spawned)⟩ := by
    simp [Program.step, engine, h]
  rw [List.replicate_succ, run_cons, hstep, hrun]

/-- From the sweep on, a tick caches its roster and changes nothing else of `Inner`. -/
theorem alone_sweepNext (stale : List (Id × Conn)) (l : Live) :
    ∃ l', Alone C a (l.sweepNext a roster stale).1 (l.sweepNext a roster stale).2 l' .tickLive ∧
      l'.toInner = { l.toInner with roster } := by
  induction stale generalizing l with
  | nil =>
    refine ⟨_, Alone.head rfl (Alone.refl _ _), ?_⟩
    have hown : (l.enableOwnTun a roster).toInner = l.toInner := by
      unfold Live.enableOwnTun Live.enableTun
      split
      · split
        · rfl
        split <;> rfl
      · rfl
    show { (l.enableOwnTun a roster).toInner with roster } = _
    rw [hown]
  | cons x stale ih =>
    obtain ⟨peer, conn⟩ := x
    obtain ⟨l', hal, hinner⟩ :=
      ih (({ l with mesh := l.mesh.sweepOne peer conn } : Live).observe peer {} false)
    exact ⟨l', Alone.head rfl hal, hinner⟩

variable (C a roster) in
theorem alone_enforce (l : Live) (rebuild : Bool) :
    ∃ l', Alone C a (l.enforce a roster rebuild).1 (l.enforce a roster rebuild).2 l' .tickLive ∧
      l'.toInner = { l.toInner with roster } := by
  cases rebuild with
  | false => exact alone_sweepNext _ l
  | true => exact alone_sweepNext _ { l with routes := .fromRoster roster }

/-- Behind the fold, a tick does what `enforceRoster` says. -/
theorem alone_fold {cfg : StoredConfig} {rebuild : Bool}
    (h : l.foldRoster C a cfg rebuild = .ok roster) :
    ∃ l' t', Alone C a l (.tickFold cfg rebuild) l' t' ∧ (t' = .tickLive ∨ t' = .done) ∧
      l'.toInner = (enforceRoster l.toInner roster).1 := by
  have hstretch : stretch C l a (.tickFold cfg rebuild) =
      ((l.foldTick C a cfg rebuild).1, (l.foldTick C a cfg rebuild).2, []) := rfl
  unfold Live.foldTick at hstretch
  rw [h] at hstretch
  simp only at hstretch
  unfold enforceRoster
  split
  · rename_i hm
    rw [if_pos hm] at hstretch
    obtain ⟨l', hal, hinner⟩ := alone_enforce C a roster { l with wasMember := true } rebuild
    exact ⟨l', _, Alone.head hstretch hal, Or.inl rfl, hinner⟩
  · rename_i hm
    rw [if_neg hm] at hstretch
    split
    · rename_i hw
      rw [if_pos hw] at hstretch
      -- the eviction: offline, reset, and the config forgotten
      have htail : Alone C a l.goOffline (.disconnected true) l.goOffline.resetState.forget .done :=
        Alone.head rfl (Alone.head rfl (Alone.refl _ _))
      exact ⟨_, _, Alone.head hstretch htail, Or.inr rfl, rfl⟩
    · rename_i hw
      rw [if_neg hw] at hstretch
      obtain ⟨l', hal, hinner⟩ := alone_enforce C a roster l rebuild
      exact ⟨l', _, Alone.head hstretch hal, Or.inl rfl, hinner⟩

/-- **The stretches of a tick that nobody interrupts do what `tick` does** to the device, up
    to the refresh of the live peers. -/
theorem tick_alone (l : Live) (a : Answers) :
    ∃ l' t', Alone C a l .tickStart l' t' ∧ (t' = .tickLive ∨ t' = .done) ∧
      l'.toInner = (tick C l.toInner a.nowCoarse a.now a.loaded).1 := by
  unfold tick
  split
  · rename_i doc cfg hdoc hcfg
    have hread : stretch C l a (.tickRead a.nowCoarse) =
        (l.consume a.nowCoarse (rebuildDue l.toInner a.nowCoarse),
          .tickFold cfg (rebuildDue l.toInner a.nowCoarse), []) := by
      simp [stretch, single, Live.readTick, hdoc, hcfg]
    split
    · rename_i hdue
      rw [hdue] at hread
      cases hload : a.loaded with
      | error e =>
        have hfold : stretch C (l.consume a.nowCoarse true) a (.tickFold cfg true) =
            (l.consume a.nowCoarse true, .done, []) := by
          simp [stretch, single, Live.foldTick, Live.foldRoster, hload, Except.map]
        exact ⟨_, .done, Alone.head rfl (Alone.head hread (Alone.head hfold (Alone.refl _ _))),
          Or.inr rfl, rfl⟩
      | ok entries =>
        have hroster : (l.consume a.nowCoarse true).foldRoster C a cfg true =
            .ok (Roster.build C.toPrimitives a.now (cfg.rosterCfg C) entries) := by
          simp [Live.foldRoster, hload, Except.map]
        obtain ⟨l', t', hal, ht, hinner⟩ := alone_fold hroster
        exact ⟨l', t', Alone.head rfl (Alone.head hread hal), ht, hinner⟩
    · rename_i hdue
      rw [Bool.not_eq_true] at hdue
      rw [hdue] at hread
      have hroster : (l.consume a.nowCoarse false).foldRoster C a cfg false = .ok l.roster := rfl
      obtain ⟨l', t', hal, ht, hinner⟩ := alone_fold hroster
      exact ⟨l', t', Alone.head rfl (Alone.head hread hal), ht, hinner⟩
  · rename_i hoff
    have hidle : l.readTick a.nowCoarse = (l, .done) := by
      unfold Live.readTick
      split
      · rename_i doc cfg hdoc hcfg
        exact (hoff doc cfg hdoc hcfg).elim
      · rfl
    have hread : stretch C l a (.tickRead a.nowCoarse) = (l, .done, []) := by
      rw [stretch, hidle, single]
    exact ⟨l, .done, Alone.head rfl (Alone.head hread (Alone.refl _ _)), Or.inr rfl, rfl⟩

/-! ## 2. The fold and the sweep -/

namespace Task

/-- The roster the task is about to cache. -/
def roster? : Task → Option Roster
  | .tickSweep roster _ _ | .tickStore roster _ | .refreshStore roster => some roster
  | _ => none

/-- The config under which the task is about to fold the document. -/
def folds? : Task → Option StoredConfig
  | .tickFold cfg true | .refreshFold cfg => some cfg
  | _ => none

end Task

namespace Live

/-- **How the fold stretch ends**: with a failure, with the eviction of a device that was a
    member, or with the sweep of the roster it has folded, behind the latch and the routes. -/
theorem foldTick_cases (C : Crates) (l : Live) (a : Answers) (cfg : StoredConfig)
    (rebuild : Bool) :
    (∃ e, l.foldRoster C a cfg rebuild = .error e ∧ l.foldTick C a cfg rebuild = (l, .done)) ∨
    (∃ roster, l.foldRoster C a cfg rebuild = .ok roster ∧ l.wasMember = true ∧
      l.foldTick C a cfg rebuild = (l.goOffline, .disconnected true)) ∨
    ∃ roster, l.foldRoster C a cfg rebuild = .ok roster ∧
      l.foldTick C a cfg rebuild =
        { l with
          wasMember := l.wasMember || roster.isMember l.myId
          routes := if rebuild then .fromRoster roster else l.routes }.sweepNext a roster
            (a.staleOrder.list (l.stale roster)) := by
  unfold foldTick
  cases hf : l.foldRoster C a cfg rebuild with
  | error e => exact Or.inl ⟨e, rfl, rfl⟩
  | ok roster =>
    right
    simp only
    split
    · rename_i hm
      refine Or.inr ⟨roster, rfl, ?_⟩
      rw [hm, Bool.or_true]
      cases rebuild <;> rfl
    · rename_i hm
      split
      · rename_i hw
        exact Or.inl ⟨roster, rfl, hw, rfl⟩
      · rename_i hw
        refine Or.inr ⟨roster, rfl, ?_⟩
        rw [Bool.not_eq_true] at hm
        rw [hm, Bool.or_false]
        cases rebuild <;> rfl

/-- A device's own TUN changes nothing but the TUN. -/
theorem enableOwnTun_eq (l : Live) (a : Answers) (roster : Roster) :
    l.enableOwnTun a roster =
      { l with
        tun := (l.enableOwnTun a roster).tun
        tunAttempted := (l.enableOwnTun a roster).tunAttempted
        assignedIp := (l.enableOwnTun a roster).assignedIp } := by
  unfold enableOwnTun enableTun
  split
  · split
    · rfl
    split <;> rfl
  · rfl

@[simp] theorem mesh_enableOwnTun (l : Live) (a : Answers) (roster : Roster) :
    (l.enableOwnTun a roster).mesh = l.mesh := by rw [enableOwnTun_eq]

@[simp] theorem registered_enableOwnTun (l : Live) (a : Answers) (roster : Roster) :
    (l.enableOwnTun a roster).registered = l.registered := by rw [enableOwnTun_eq]

@[simp] theorem presence_enableOwnTun (l : Live) (a : Answers) (roster : Roster) :
    (l.enableOwnTun a roster).presence = l.presence := by rw [enableOwnTun_eq]

/-- An item of the sweep changes nothing but the connections and the TUN. -/
theorem sweepNext_eq (l : Live) (a : Answers) (roster : Roster) (stale : List (Id × Conn)) :
    (l.sweepNext a roster stale).1 =
      { l with
        mesh := (l.sweepNext a roster stale).1.mesh
        tun := (l.sweepNext a roster stale).1.tun
        tunAttempted := (l.sweepNext a roster stale).1.tunAttempted
        assignedIp := (l.sweepNext a roster stale).1.assignedIp } := by
  cases stale with
  | nil =>
    show l.enableOwnTun a roster =
      { l with
        mesh := (l.enableOwnTun a roster).mesh
        tun := (l.enableOwnTun a roster).tun
        tunAttempted := (l.enableOwnTun a roster).tunAttempted
        assignedIp := (l.enableOwnTun a roster).assignedIp }
    rw [mesh_enableOwnTun]
    exact enableOwnTun_eq l a roster
  | cons x stale => rfl

theorem roster_sweepNext (l : Live) (a : Answers) (roster : Roster) (stale : List (Id × Conn)) :
    (l.sweepNext a roster stale).1.roster = l.roster := by rw [sweepNext_eq]

theorem routes_sweepNext (l : Live) (a : Answers) (roster : Roster) (stale : List (Id × Conn)) :
    (l.sweepNext a roster stale).1.routes = l.routes := by rw [sweepNext_eq]

theorem wasMember_sweepNext (l : Live) (a : Answers) (roster : Roster)
    (stale : List (Id × Conn)) :
    (l.sweepNext a roster stale).1.wasMember = l.wasMember := by rw [sweepNext_eq]

theorem roster?_sweepNext (l : Live) (a : Answers) (roster : Roster)
    (stale : List (Id × Conn)) : (l.sweepNext a roster stale).2.roster? = some roster := by
  cases stale <;> rfl

theorem roster?_refreshNext (live : List Id) : (refreshNext live).roster? = none := by
  cases live <;> rfl

@[simp] theorem mem_stale {l : Live} {roster : Roster} {p : Id} {c : Conn} :
    (p, c) ∈ l.stale roster ↔ l.mesh.conns[p]? = some c ∧ roster.isMember p = false := by
  simp [stale, Std.ExtTreeMap.mem_toList_iff_getElem?_eq_some]

end Live

/-- Nothing is left of a task that is dropped: it was a dial, or a dial that has registered. -/
theorem Task.drop_cases {t t' : Task} (h : t.drop = some t') :
    t' = .done ∧ ((∃ peer, t = .dial peer) ∨ ∃ peer conn, t = .record true peer conn) := by
  unfold Task.drop at h
  split at h
  · rename_i peer
    exact ⟨(Option.some.inj h).symm, Or.inl ⟨peer, rfl⟩⟩
  · rename_i peer conn
    exact ⟨(Option.some.inj h).symm, Or.inr ⟨peer, conn, rfl⟩⟩
  · cases h

/-! ## 3. All that a stretch can do -/

/-- The task holds no roster and no snapshot, owes the tracker nothing, and dials nobody. -/
def Task.plain : Task → Bool
  | .tickSweep _ _ _ | .tickStore _ _ | .tickRefresh _ _ | .dial _ => false
  | .record _ _ _ | .offline _ | .disconnected _ | .refreshStore _ => false
  | _ => true

theorem Task.plain_of_starts {t : Task} (h : t.starts = true) : t.plain = true := by
  cases t with
  | tickStart => rfl
  | incoming id => rfl
  | disconnect forget => rfl
  | refreshRead => rfl
  | _ => cases h

theorem Task.roster?_of_plain {t : Task} (h : t.plain = true) : t.roster? = none := by
  cases t with
  | tickSweep roster peer stale => cases h
  | tickStore roster connected => cases h
  | refreshStore roster => cases h
  | _ => rfl

/-- **What a stretch can do**: the state behind it, where the task then stands, and what it has
    spawned. -/
inductive Stretched (C : Crates) (l : Live) (a : Answers) : Task → Live → Task → List Task → Prop
  /-- nothing, and the task waits somewhere else or has ended -/
  | pass {t t' : Task} (ht : t.plain = true ∨ ∃ peer, t = .dial peer) (ht' : t'.plain = true) :
    Stretched C l a t l t' []
  | read (nowCoarse : UInt64) (cfg : StoredConfig) (rebuild : Bool) :
    Stretched C l a (.tickRead nowCoarse) (l.consume nowCoarse rebuild) (.tickFold cfg rebuild) []
  | evict (cfg : StoredConfig) (rebuild : Bool) :
    Stretched C l a (.tickFold cfg rebuild) l.goOffline (.disconnected true) []
  | enforce {cfg : StoredConfig} {rebuild : Bool} {roster : Roster} {l₁ : Live} {next : Live × Task}
    (hroster : l.foldRoster C a cfg rebuild = .ok roster)
    (hlive : l₁ = { l with
      wasMember := l.wasMember || roster.isMember l.myId
      routes := if rebuild then .fromRoster roster else l.routes })
    (hnext : next = l₁.sweepNext a roster (a.staleOrder.list (l.stale roster))) :
    Stretched C l a (.tickFold cfg rebuild) next.1 next.2 []
  | sweep {roster : Roster} {peer : Id} {stale : List (Id × Conn)} {next : Live × Task}
    (hnext : next = (l.observe peer {} false).sweepNext a roster stale) :
    Stretched C l a (.tickSweep roster peer stale) next.1 next.2 []
  | store (roster : Roster) (connected : List Id) :
    Stretched C l a (.tickStore roster connected) (l.storeTick a roster connected).1 .tickLive
      ((l.toDial a roster connected).map .dial)
  | live : Stretched C l a .tickLive l (Live.refreshNext (a.liveOrder.list l.mesh.conns.keys)) []
  | refresh (peer : Id) (live : List Id) :
    Stretched C l a (.tickRefresh peer live) (l.observe peer a.info true)
      (Live.refreshNext live) []
  /-- a dial, or an accepted connection of a member, is registered -/
  | register {t : Task} {dialed : Bool} {peer : Id} {conn : Conn} {next : Live × Task}
    (ht : t = .dial peer ∨ (∃ id, t = .gate peer id) ∧ l.roster.isMember peer = true)
    (hnext : next = l.registerConn dialed peer conn) :
    Stretched C l a t next.1 next.2 []
  | record (dialed : Bool) (peer : Id) (conn : Conn) :
    Stretched C l a (.record dialed peer conn) (l.observe peer {} true) .done
      [.reader peer conn, .watch peer conn]
  | watch {peer : Id} {conn : Conn} (hclosed : l.mesh.isClosed conn = true) :
    Stretched C l a (.watch peer conn) { l with mesh := (l.mesh.evict peer conn).1 }
      (if (l.mesh.evict peer conn).2 then .offline peer else .done) []
  | offline (peer : Id) : Stretched C l a (.offline peer) (l.observe peer {} false) .done []
  | disconnect (forget : Bool) :
    Stretched C l a (.disconnect forget) l.goOffline (.disconnected forget) []
  | reset {forget : Bool} {t' : Task} (ht' : t'.plain = true) :
    Stretched C l a (.disconnected forget) l.resetState t' []
  | forget : Stretched C l a .forgetConfig l.forget .done []
  | latch {cfg : StoredConfig} {roster : Roster}
    (hroster : l.foldRoster C a cfg true = .ok roster) :
    Stretched C l a (.refreshFold cfg)
      { l with wasMember := l.wasMember || roster.isMember l.myId } (.refreshStore roster) []
  | cache (roster : Roster) :
    Stretched C l a (.refreshStore roster) { l with roster } .done []

/-- **All that a stretch can do.** -/
theorem stretched (C : Crates) (l : Live) (a : Answers) (t : Task) :
    Stretched C l a t (stretch C l a t).1 (stretch C l a t).2.1 (stretch C l a t).2.2 := by
  cases t with
  | tickStart => exact .pass (Or.inl rfl) rfl
  | tickRead nowCoarse =>
    simp only [stretch, single, Live.readTick]
    split
    · exact .read nowCoarse _ _
    · exact .pass (Or.inl rfl) rfl
  | tickFold cfg rebuild =>
    rcases l.foldTick_cases C a cfg rebuild with
      ⟨e, -, he⟩ | ⟨roster, -, -, he⟩ | ⟨roster, hr, he⟩
    · rw [stretch, he]
      exact .pass (Or.inl rfl) rfl
    · rw [stretch, he]
      exact .evict cfg rebuild
    · rw [stretch, he]
      exact .enforce hr rfl rfl
  | tickSweep roster peer stale => exact .sweep rfl
  | tickStore roster connected => exact .store roster connected
  | tickLive => exact .live
  | tickRefresh peer live => exact .refresh peer live
  | dial peer =>
    cases hd : a.dialed with
    | some id =>
      simp only [stretch, hd]
      exact .register (Or.inl rfl) rfl
    | none =>
      simp only [stretch, hd]
      exact .pass (Or.inr ⟨peer, rfl⟩) rfl
  | incoming id =>
    refine .pass (Or.inl rfl) ?_
    rw [stretch]
    split <;> rfl
  | handshake id =>
    cases hv : a.verified with
    | some peer =>
      simp only [stretch, hv]
      exact .pass (Or.inl rfl) rfl
    | none =>
      simp only [stretch, hv]
      exact .pass (Or.inl rfl) rfl
  | gate peer id =>
    simp only [stretch, single, Live.gateConn]
    split
    · rename_i hm
      exact .register (Or.inr ⟨⟨id, rfl⟩, hm⟩) rfl
    · exact .pass (Or.inl rfl) rfl
  | record dialed peer conn => exact .record dialed peer conn
  | reader peer conn =>
    refine .pass (Or.inl rfl) ?_
    rw [stretch]
    split <;> rfl
  | watch peer conn =>
    simp only [stretch, single, Live.watchConn]
    split
    · rename_i hc
      exact .watch hc
    · exact .pass (Or.inl rfl) rfl
  | offline peer => exact .offline peer
  | disconnect forget => exact .disconnect forget
  | disconnected forget =>
    refine .reset ?_
    rw [stretch]
    split <;> rfl
  | forgetConfig => exact .forget
  | refreshRead =>
    refine .pass (Or.inl rfl) ?_
    rw [stretch, Live.readRefresh]
    split <;> rfl
  | refreshFold cfg =>
    cases hr : l.foldRoster C a cfg true with
    | error e =>
      simp only [stretch, single, Live.foldRefresh, hr]
      exact .pass (Or.inl rfl) rfl
    | ok roster =>
      simp only [stretch, single, Live.foldRefresh, hr]
      exact .latch hr
  | refreshStore roster => exact .cache roster
  | done => exact .pass (Or.inl rfl) rfl

/-! ## 4. The connections -/

/-- **What a stretch of the task `t` can do to the connections.** -/
inductive MeshChange (l : Live) (t : Task) (l' : Live) : Prop where
  | same (mesh : l'.mesh = l.mesh) (registered : l'.registered = l.registered)
  /-- the sweep takes an entry out, or the next connection of its snapshot -/
  | swept (p : Id) (c : Conn) (mesh : l'.mesh = l.mesh.sweepOne p c)
      (registered : l'.registered = l.registered)
      (which : l.mesh.conns[p]? = some c ∨
        ∃ roster q stale, t = .tickSweep roster q ((p, c) :: stale))
  | registered (p : Id) (c : Conn) (mesh : l'.mesh = (l.mesh.registerMesh l.myId p c).1)
      (registered : l'.registered = (p, c) :: l.registered)
      (which : t = .dial p ∨ l.roster.isMember p = true)
  | evicted (p : Id) (c : Conn) (mesh : l'.mesh = (l.mesh.evict p c).1)
      (registered : l'.registered = l.registered) (closed : l.mesh.isClosed c = true)
  | drained (mesh : l'.mesh = l.mesh.drain) (registered : l'.registered = l.registered)

theorem meshChange_sweepNext {l l₀ : Live} {t : Task} {stale : List (Id × Conn)}
    (hmesh : l.mesh = l₀.mesh) (hreg : l.registered = l₀.registered)
    (h : ∀ p c rest, stale = (p, c) :: rest →
      l₀.mesh.conns[p]? = some c ∨ ∃ roster q stale, t = .tickSweep roster q ((p, c) :: stale)) :
    MeshChange l₀ t (l.sweepNext a roster stale).1 := by
  cases stale with
  | nil => exact .same (by simp [Live.sweepNext, hmesh]) (by simp [Live.sweepNext, hreg])
  | cons x rest =>
    obtain ⟨p, c⟩ := x
    exact .swept p c (by simp [Live.sweepNext, hmesh]) hreg (h p c rest rfl)

/-- **The five things a stretch can do to the connections.** -/
theorem Stretched.meshChange {spawned : List Task} (h : Stretched C l a t l' t' spawned) :
    MeshChange l t l' := by
  cases h with
  | @enforce cfg rebuild roster l₁ next hroster hlive hnext =>
    subst hnext hlive
    refine meshChange_sweepNext rfl rfl fun p c rest hrest => Or.inl ?_
    -- the first item of the snapshot is an entry of the table
    have hmem : (p, c) ∈ a.staleOrder.list (l.stale roster) := by
      rw [hrest]
      exact List.mem_cons_self
    exact (Live.mem_stale.mp ((a.staleOrder.perm _).mem_iff.mp hmem)).1
  | @sweep roster peer stale next hnext =>
    subst hnext
    refine meshChange_sweepNext rfl rfl fun p c rest hrest => Or.inr ⟨roster, peer, rest, ?_⟩
    rw [hrest]
  | @register t dialed peer conn next ht hnext =>
    subst hnext
    exact .registered peer conn rfl rfl (ht.imp_right fun h => h.2)
  | @watch peer conn hclosed => exact .evicted peer conn rfl rfl hclosed
  | evict cfg rebuild => exact .drained rfl rfl
  | disconnect forget => exact .drained rfl rfl
  | _ => exact .same rfl rfl

end Nullgate
