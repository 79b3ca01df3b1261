/-
  File:      Nullgate/Engine/Address.lean
  Subject:   THE TUN'S ADDRESS AND THE ROSTER'S: one is opened once, the other folded anew.

  The TUN keeps the address it was opened with; every fold of the document assigns the
  addresses afresh, and an admission that sorts in before this device's may take its host.

  * `OneAddress`: the TUN, the cached roster and the rosters in flight agree;
  * `SameAddress`: what is folded gives this device the address it has;
  * `tun_address_iff`: the one holds throughout a run exactly as long as the other does, and
    it does as long as nobody disputes the recorded host;
  * `tun_address_moved`: an admission from before this device's own.
-/
import Nullgate.Engine.Stretches
import Nullgate.Roster.Addresses

namespace Nullgate

open Nullgate.Lib

/-! ## 1. The condition -/

/-- **The addresses this device has**: its TUN's, and its own in the cached roster and in the
    rosters about to be cached. -/
def addresses (w : World Live Task) : List Ipv4Addr :=
  w.shared.tun.toList ++ (w.shared.roster.addressOf w.shared.myId).toList ++
    w.tasks.filterMap fun t => t.roster?.bind fun roster => roster.addressOf w.shared.myId

def OneAddress (w : World Live Task) : Prop := ∀ ip ∈ addresses w, ∀ ip' ∈ addresses w, ip = ip'

/-- The document that is folded gives this device the address it has. -/
def SameAddress (C : Crates) (w : World Live Task) : Act Task Answers Outside → Prop
  | .go k a => ∀ t ∈ w.tasks[k]?, ∀ cfg ∈ t.folds?, ∀ entries ∈ a.loaded.toOption,
      ∀ ip ∈ addressIn C.toPrimitives a.now (cfg.rosterCfg C) entries w.shared.myId,
        ∀ ip' ∈ addresses w, ip' = ip
  | _ => True

/-- **The TUN routes from the address the roster has for this device.** -/
def Live.TunMatches (l : Live) : Prop :=
  ∀ ip ∈ l.tun, ∀ me ∈ l.roster.member l.myId, me.virtualIp = ip

/-- A TUN that is up has been attempted. -/
def Live.TunOnce (l : Live) : Prop := l.tun.isSome = true → l.tunAttempted = true

variable {C : Crates} {l l' : Live} {a : Answers} {t t' : Task} {roster : Roster}
  {w : World Live Task} {ip : Ipv4Addr}

theorem mem_addresses :
    ip ∈ addresses w ↔ w.shared.tun = some ip ∨
      w.shared.roster.addressOf w.shared.myId = some ip ∨
      ∃ t ∈ w.tasks, ∃ roster, t.roster? = some roster ∧
        roster.addressOf w.shared.myId = some ip := by
  rw [addresses, List.mem_append, List.mem_append, Option.mem_toList, Option.mem_toList,
    List.mem_filterMap, or_assoc]
  simp only [Option.bind_eq_some_iff]

/-! ## 2. The fold and the sweep -/

namespace Live

theorem myId_sweepNext (l : Live) (a : Answers) (roster : Roster) (stale : List (Id × Conn)) :
    (l.sweepNext a roster stale).1.myId = l.myId := by rw [sweepNext_eq]

/-- The TUN is opened at this device's address in the roster. -/
theorem tun_enableOwnTun (l : Live) (a : Answers) (roster : Roster) :
    (l.enableOwnTun a roster).tun = l.tun ∨
      l.tunAttempted = false ∧ (l.enableOwnTun a roster).tun = roster.addressOf l.myId := by
  unfold enableOwnTun Roster.addressOf
  cases roster.member l.myId with
  | none => exact Or.inl rfl
  | some me =>
    simp only [enableTun]
    split
    · exact Or.inl rfl
    · split
      · exact Or.inl rfl
      · rename_i hatt
        split
        · exact Or.inr ⟨by simpa using hatt, rfl⟩
        · exact Or.inl rfl

theorem tun_sweepNext (l : Live) (a : Answers) (roster : Roster) (stale : List (Id × Conn)) :
    (l.sweepNext a roster stale).1.tun = l.tun ∨
      l.tunAttempted = false ∧
        (l.sweepNext a roster stale).1.tun = roster.addressOf l.myId := by
  cases stale with
  | nil => exact tun_enableOwnTun l a roster
  | cons x stale => exact Or.inl rfl

theorem tunOnce_sweepNext (h : l.TunOnce) (a : Answers) (roster : Roster)
    (stale : List (Id × Conn)) : (l.sweepNext a roster stale).1.TunOnce := by
  cases stale with
  | cons x stale => exact h
  | nil =>
    show (l.enableOwnTun a roster).TunOnce
    unfold enableOwnTun enableTun
    split
    · split
      · exact h
      · split
        · exact h
        · exact fun _ => rfl
    · exact h

end Live

open Live

section Stretch

variable {A : Ipv4Addr → Prop} {k : Nat}

/-- What holds of the addresses there are, and of those that a stretch brings, holds of those
    behind it. -/
theorem addresses_stretch {spawned : List Task} (hk : w.tasks[k]? = some t)
    (hA : ∀ ip ∈ addresses w, A ip)
    (hid : l'.myId = w.shared.myId) (htun : ∀ ip, l'.tun = some ip → A ip)
    (hroster : ∀ ip, l'.roster.addressOf w.shared.myId = some ip → A ip)
    (hnext : ∀ roster, t'.roster? = some roster → ∀ ip,
      roster.addressOf w.shared.myId = some ip → A ip)
    (hspawned : ∀ t'' ∈ spawned, t''.roster? = none) :
    ∀ ip ∈ addresses ⟨l', w.tasks.set k t' ++ spawned⟩, A ip := by
  intro ip h
  rcases mem_addresses.mp h with hip | hip | ⟨t'', ht'', roster, hr, hip⟩
  · exact htun ip hip
  · rw [show (World.shared ⟨l', w.tasks.set k t' ++ spawned⟩ : Live).myId = _ from hid] at hip
    exact hroster ip hip
  · rw [show (World.shared ⟨l', w.tasks.set k t' ++ spawned⟩ : Live).myId = _ from hid] at hip
    rcases (mem_stretch_iff hk).mp ht'' with rfl | ht'' | ht''
    · exact hnext roster hr ip hip
    · exact hA ip <| mem_addresses.mpr
        (Or.inr (Or.inr ⟨t'', List.mem_of_mem_eraseIdx ht'', roster, hr, hip⟩))
    · rw [hspawned t'' ht''] at hr
      cases hr

/-- The same of the sweep of a roster. -/
theorem addresses_sweepNext (hk : w.tasks[k]? = some t) (hA : ∀ ip ∈ addresses w, A ip)
    (hid : l.myId = w.shared.myId) (htun : l.tun = w.shared.tun)
    (hcached : l.roster = w.shared.roster)
    (hown : ∀ ip, roster.addressOf w.shared.myId = some ip → A ip) (stale : List (Id × Conn)) :
    ∀ ip ∈ addresses ⟨(l.sweepNext a roster stale).1,
      w.tasks.set k (l.sweepNext a roster stale).2 ++ []⟩, A ip := by
  refine addresses_stretch hk hA ((l.myId_sweepNext a roster stale).trans hid) ?_ ?_ ?_
    (List.forall_mem_nil _)
  · intro ip hip
    rcases l.tun_sweepNext a roster stale with he | ⟨-, he⟩
    · rw [he, htun] at hip
      exact hA ip (mem_addresses.mpr (Or.inl hip))
    · rw [he, hid] at hip
      exact hown ip hip
  · intro ip hip
    rw [roster_sweepNext, hcached] at hip
    exact hA ip (mem_addresses.mpr (Or.inr (Or.inl hip)))
  · intro roster' hr ip hip
    rw [roster?_sweepNext] at hr
    obtain rfl := Option.some.inj hr
    exact hown ip hip

/-- An address that another task holds, or the TUN or the cached roster, stays. -/
theorem mem_addresses_stretch {ip : Ipv4Addr} {spawned : List Task} (hk : w.tasks[k]? = some t)
    (hid : l'.myId = w.shared.myId) (htun : ∀ ip, w.shared.tun = some ip → l'.tun = some ip)
    (hroster : l'.roster = w.shared.roster) (ht : t.roster? = none) (h : ip ∈ addresses w) :
    ip ∈ addresses ⟨l', w.tasks.set k t' ++ spawned⟩ := by
  refine mem_addresses.mpr ?_
  show l'.tun = some ip ∨ l'.roster.addressOf l'.myId = some ip ∨ _
  rw [hid, hroster]
  rcases mem_addresses.mp h with hip | hip | ⟨t'', ht'', roster, hr, hip⟩
  · exact Or.inl (htun ip hip)
  · exact Or.inr (Or.inl hip)
  · rcases (mem_iff_eraseIdx hk).mp ht'' with rfl | ht''
    · rw [ht] at hr
      cases hr
    · exact Or.inr (Or.inr ⟨t'', (mem_stretch_iff hk).mpr (Or.inr (Or.inl ht'')), roster, hr,
        hid ▸ hip⟩)

end Stretch

/-! ## 3. One stretch -/

/-- **A stretch that folds nothing gives this device no new address.** -/
theorem addresses_of_not_folds {k : Nat} (hk : w.tasks[k]? = some t) (hfolds : t.folds? = none) :
    ∀ ip ∈ addresses ⟨(stretch C w.shared a t).1,
      w.tasks.set k (stretch C w.shared a t).2.1 ++ (stretch C w.shared a t).2.2⟩,
      ip ∈ addresses w := by
  have hs := stretched C w.shared a t
  generalize (stretch C w.shared a t).1 = l' at hs ⊢
  generalize (stretch C w.shared a t).2.1 = t' at hs ⊢
  generalize (stretch C w.shared a t).2.2 = spawned at hs ⊢
  have htun : ∀ ip, w.shared.tun = some ip → ip ∈ addresses w := fun ip hip =>
    mem_addresses.mpr (Or.inl hip)
  have hroster : ∀ ip, w.shared.roster.addressOf w.shared.myId = some ip → ip ∈ addresses w :=
    fun ip hip => mem_addresses.mpr (Or.inr (Or.inl hip))
  have hheld : ∀ roster, t.roster? = some roster → ∀ ip,
      roster.addressOf w.shared.myId = some ip → ip ∈ addresses w := fun roster hr ip hip =>
    mem_addresses.mpr (Or.inr (Or.inr ⟨t, List.mem_of_getElem? hk, roster, hr, hip⟩))
  have hnil : ∀ t'' ∈ ([] : List Task), t''.roster? = none := List.forall_mem_nil _
  have hdown : ∀ ip, (none : Option Ipv4Addr) = some ip → ip ∈ addresses w := fun ip h =>
    absurd h (Option.not_mem_none ip)
  have hnone : ∀ roster, (none : Option Roster) = some roster → ∀ ip,
      roster.addressOf w.shared.myId = some ip → ip ∈ addresses w := fun roster h =>
    absurd h (Option.not_mem_none roster)
  have hempty : ∀ ip, Roster.default.addressOf w.shared.myId = some ip → ip ∈ addresses w := by
    intro ip hip
    rw [Roster.addressOf, Roster.member, Roster.default, Std.ExtTreeMap.getElem?_empty] at hip
    cases hip
  cases hs with
  | pass _ ht' =>
    refine addresses_stretch hk (fun _ h => h) rfl htun hroster (fun roster hr => ?_) hnil
    rw [Task.roster?_of_plain ht'] at hr
    cases hr
  | read nowCoarse cfg rebuild =>
    exact addresses_stretch hk (fun _ h => h) rfl htun hroster hnone hnil
  | evict cfg rebuild =>
    exact addresses_stretch hk (fun _ h => h) rfl hdown hroster hnone hnil
  | @enforce cfg rebuild roster l₁ next hfold hlive hnext =>
    cases rebuild with
    | true => cases hfolds
    | false =>
      -- the tick works with a copy of the cached roster
      obtain rfl := Except.ok.inj hfold
      subst hnext
      exact addresses_sweepNext (l := l₁) hk (fun _ h => h) (by rw [hlive]) (by rw [hlive])
        (by rw [hlive]) hroster _
  | @sweep roster peer stale next hnext =>
    subst hnext
    exact addresses_sweepNext (l := w.shared.observe peer {} false) hk (fun _ h => h) rfl rfl
      rfl (hheld roster rfl) stale
  | store roster connected =>
    refine addresses_stretch hk (fun _ h => h) rfl htun (hheld roster rfl) hnone fun t'' ht'' => ?_
    obtain ⟨peer, -, rfl⟩ := List.mem_map.mp ht''
    rfl
  | live =>
    refine addresses_stretch hk (fun _ h => h) rfl htun hroster (fun roster hr => ?_) hnil
    rw [roster?_refreshNext] at hr
    cases hr
  | refresh peer live =>
    refine addresses_stretch hk (fun _ h => h) rfl htun hroster (fun roster hr => ?_) hnil
    rw [roster?_refreshNext] at hr
    cases hr
  | @register t dialed peer conn next ht hnext =>
    subst hnext
    refine addresses_stretch hk (fun _ h => h) rfl htun hroster (fun roster hr => ?_) hnil
    unfold registerConn at hr
    simp only at hr
    split at hr <;> cases hr
  | record dialed peer conn =>
    refine addresses_stretch hk (fun _ h => h) rfl htun hroster hnone fun t'' ht'' => ?_
    rcases List.mem_pair.mp ht'' with rfl | rfl <;> rfl
  | watch hclosed =>
    refine addresses_stretch hk (fun _ h => h) rfl htun hroster (fun roster hr => ?_) hnil
    split at hr <;> cases hr
  | offline peer => exact addresses_stretch hk (fun _ h => h) rfl htun hroster hnone hnil
  | disconnect forget => exact addresses_stretch hk (fun _ h => h) rfl hdown hroster hnone hnil
  | reset ht' =>
    refine addresses_stretch hk (fun _ h => h) rfl htun hempty (fun roster hr => ?_) hnil
    rw [Task.roster?_of_plain ht'] at hr
    cases hr
  | forget => exact addresses_stretch hk (fun _ h => h) rfl htun hroster hnone hnil
  | latch hfold => cases hfolds
  | cache roster => exact addresses_stretch hk (fun _ h => h) rfl htun (hheld roster rfl) hnone hnil

theorem folds?_eq_some {cfg : StoredConfig} (h : t.folds? = some cfg) :
    t = .tickFold cfg true ∨ t = .refreshFold cfg := by
  unfold Task.folds? at h
  split at h
  · exact Or.inl (by rw [Option.some.inj h])
  · exact Or.inr (by rw [Option.some.inj h])
  · cases h

/-- The roster of a fold, by the entries it has loaded. -/
theorem addressOf_foldRoster {cfg : StoredConfig} (h : l.foldRoster C a cfg true = .ok roster) :
    ∃ entries, a.loaded = .ok entries ∧ ∀ id,
      roster.addressOf id = addressIn C.toPrimitives a.now (cfg.rosterCfg C) entries id := by
  unfold foldRoster at h
  rw [if_pos rfl] at h
  cases hl : a.loaded with
  | error e =>
    rw [hl] at h
    cases h
  | ok entries =>
    rw [hl] at h
    obtain rfl := Except.ok.inj h
    exact ⟨entries, rfl, fun id => addressOf_build⟩

theorem isMember_eq_addressOf (id : Id) : roster.isMember id = (roster.addressOf id).isSome := by
  rw [Roster.addressOf, Option.isSome_map]
  exact Std.ExtTreeMap.contains_eq_isSome_getElem?

/-- A device that is in the roster is not evicted. -/
theorem foldTick_ne_evict {cfg : StoredConfig} {rebuild : Bool}
    (h : l.foldRoster C a cfg rebuild = .ok roster) (hm : roster.isMember l.myId = true) :
    l.foldTick C a cfg rebuild ≠ (l.goOffline, .disconnected true) := by
  have hnext : (l.foldTick C a cfg rebuild).2.roster? = some roster := by
    unfold foldTick
    rw [h]
    simp only [hm, if_true, enforce]
    exact roster?_sweepNext _ _ _ _
  intro he
  rw [he] at hnext
  cases hnext

/-- A fold that does not have this device gives it nothing. -/
theorem addresses_of_folds_none {k : Nat} {cfg : StoredConfig} (hk : w.tasks[k]? = some t)
    (hfolds : t.folds? = some cfg)
    (hnone : ∀ entries, a.loaded = .ok entries →
      addressIn C.toPrimitives a.now (cfg.rosterCfg C) entries w.shared.myId = none) :
    ∀ ip ∈ addresses ⟨(stretch C w.shared a t).1,
      w.tasks.set k (stretch C w.shared a t).2.1 ++ (stretch C w.shared a t).2.2⟩,
      ip ∈ addresses w := by
  have htun : ∀ ip, w.shared.tun = some ip → ip ∈ addresses w := fun ip hip =>
    mem_addresses.mpr (Or.inl hip)
  have hroster : ∀ ip, w.shared.roster.addressOf w.shared.myId = some ip → ip ∈ addresses w :=
    fun ip hip => mem_addresses.mpr (Or.inr (Or.inl hip))
  have hown : ∀ roster, w.shared.foldRoster C a cfg true = .ok roster → ∀ ip,
      roster.addressOf w.shared.myId = some ip → ip ∈ addresses w := by
    intro roster hr ip hip
    obtain ⟨entries, hl, haddr⟩ := addressOf_foldRoster hr
    rw [haddr, hnone entries hl] at hip
    cases hip
  have hended : ∀ roster, (none : Option Roster) = some roster → ∀ ip,
      roster.addressOf w.shared.myId = some ip → ip ∈ addresses w := fun roster h =>
    absurd h (Option.not_mem_none roster)
  have hdown : ∀ ip, (none : Option Ipv4Addr) = some ip → ip ∈ addresses w := fun ip h =>
    absurd h (Option.not_mem_none ip)
  rcases folds?_eq_some hfolds with rfl | rfl
  · rw [stretch, single]
    rcases w.shared.foldTick_cases C a cfg true with ⟨e, -, he⟩ | ⟨roster, -, -, he⟩ |
      ⟨roster, hr, he⟩
    · rw [he]
      exact addresses_stretch hk (fun _ h => h) rfl htun hroster hended (List.forall_mem_nil _)
    · rw [he]
      exact addresses_stretch hk (fun _ h => h) rfl hdown hroster hended (List.forall_mem_nil _)
    · rw [he]
      generalize hl₁ : ({ w.shared with
        wasMember := w.shared.wasMember || roster.isMember w.shared.myId
        routes := if true then .fromRoster roster else w.shared.routes } : Live) = l₁
      exact addresses_sweepNext (l := l₁) hk (fun _ h => h) (by rw [← hl₁]) (by rw [← hl₁])
        (by rw [← hl₁]) (hown roster hr) _
  · rw [stretch, single, foldRefresh]
    cases hr : w.shared.foldRoster C a cfg true with
    | error e =>
      exact addresses_stretch hk (fun _ h => h) rfl htun hroster hended (List.forall_mem_nil _)
    | ok roster =>
      refine addresses_stretch hk (fun _ h => h) rfl htun hroster (fun roster' hr' => ?_)
        (List.forall_mem_nil _)
      obtain rfl := Option.some.inj hr'
      exact hown roster hr

/-- **A fold that has this device gives it the address of the fold**, and it keeps those it
    has. -/
theorem addresses_of_folds {k : Nat} {cfg : StoredConfig} {entries : List Entry} {ip : Ipv4Addr}
    (honce : w.shared.TunOnce) (hk : w.tasks[k]? = some t) (hfolds : t.folds? = some cfg)
    (hloaded : a.loaded = .ok entries)
    (hip : addressIn C.toPrimitives a.now (cfg.rosterCfg C) entries w.shared.myId = some ip) :
    ∀ ip', ip' ∈ addresses ⟨(stretch C w.shared a t).1,
      w.tasks.set k (stretch C w.shared a t).2.1 ++ (stretch C w.shared a t).2.2⟩ ↔
      ip' = ip ∨ ip' ∈ addresses w := by
  -- the fold yields a roster with this device at `ip`
  obtain ⟨roster, hr, haddr⟩ : ∃ roster, w.shared.foldRoster C a cfg true = .ok roster ∧
      roster.addressOf w.shared.myId = some ip := by
    refine ⟨Roster.build C.toPrimitives a.now (cfg.rosterCfg C) entries, ?_, ?_⟩
    · rw [foldRoster, if_pos rfl, hloaded]
      rfl
    · rw [addressOf_build, hip]
  have hm : roster.isMember w.shared.myId = true := by
    rw [isMember_eq_addressOf, haddr]
    rfl
  have htun : ∀ ip', w.shared.tun = some ip' → ip' = ip ∨ ip' ∈ addresses w := fun ip' h =>
    Or.inr (mem_addresses.mpr (Or.inl h))
  have hroster : ∀ ip', w.shared.roster.addressOf w.shared.myId = some ip' →
      ip' = ip ∨ ip' ∈ addresses w := fun ip' h => Or.inr (mem_addresses.mpr (Or.inr (Or.inl h)))
  have hown : ∀ ip', roster.addressOf w.shared.myId = some ip' → ip' = ip ∨ ip' ∈ addresses w :=
    fun ip' h => Or.inl (Option.some.inj (h.symm.trans haddr))
  have hnotheld : t.roster? = none := by
    rcases folds?_eq_some hfolds with rfl | rfl <;> rfl
  -- the task behind the fold holds it
  have hheld : ∀ {l' : Live} {t' : Task}, t'.roster? = some roster →
      l'.myId = w.shared.myId → ip ∈ addresses ⟨l', w.tasks.set k t' ++ []⟩ := by
    intro l' t' ht' hid
    refine mem_addresses.mpr (Or.inr (Or.inr
      ⟨t', (mem_stretch_iff hk).mpr (Or.inl rfl), roster, ht', ?_⟩))
    show roster.addressOf l'.myId = some ip
    rw [hid, haddr]
  intro ip'
  rcases folds?_eq_some hfolds with rfl | rfl
  · rw [stretch, single]
    rcases w.shared.foldTick_cases C a cfg true with ⟨e, he, -⟩ | ⟨roster', hr', -, he⟩ |
      ⟨roster', hr', he⟩
    · rw [hr] at he
      cases he
    · -- a device that is in the roster is not evicted
      obtain rfl := Except.ok.inj (hr'.symm.trans hr)
      exact absurd he (foldTick_ne_evict hr hm)
    · obtain rfl := Except.ok.inj (hr'.symm.trans hr)
      rw [he]
      generalize hl₁ : ({ w.shared with
        wasMember := w.shared.wasMember || roster'.isMember w.shared.myId
        routes := if true then .fromRoster roster' else w.shared.routes } : Live) = l₁
      have hid : l₁.myId = w.shared.myId := by rw [← hl₁]
      have honce₁ : l₁.TunOnce := by rw [← hl₁]; exact honce
      have htun₁ : l₁.tun = w.shared.tun := by rw [← hl₁]
      constructor
      · exact addresses_sweepNext (l := l₁) hk (fun _ h => Or.inr h) hid htun₁ (by rw [← hl₁])
          hown _ ip'
      · intro h
        rcases h with rfl | h
        · exact hheld (roster?_sweepNext _ _ _ _) ((l₁.myId_sweepNext _ _ _).trans hid)
        · refine mem_addresses_stretch hk ((l₁.myId_sweepNext _ _ _).trans hid)
            (fun ip'' hup => ?_) ?_ hnotheld h
          · -- the TUN that is up stays
            rw [← htun₁] at hup
            rcases l₁.tun_sweepNext a roster' _ with htun' | ⟨hatt, -⟩
            · rw [htun', hup]
            · rw [honce₁ (by rw [hup]; rfl)] at hatt
              cases hatt
          · rw [roster_sweepNext, ← hl₁]
  · rw [stretch, single, foldRefresh, hr]
    constructor
    · refine addresses_stretch hk (fun _ h => Or.inr h) rfl htun hroster (fun roster' hr' => ?_)
        (List.forall_mem_nil _) ip'
      obtain rfl := Option.some.inj hr'
      exact hown
    · intro h
      rcases h with rfl | h
      · exact hheld rfl rfl
      · exact mem_addresses_stretch hk rfl (fun _ h => h) rfl hnotheld h

/-- **One stretch leaves one address exactly if what it folds gives the device its own.** -/
theorem oneAddress_stretch_iff {k : Nat} (h : OneAddress w) (honce : w.shared.TunOnce)
    (hk : w.tasks[k]? = some t) :
    OneAddress ⟨(stretch C w.shared a t).1,
      w.tasks.set k (stretch C w.shared a t).2.1 ++ (stretch C w.shared a t).2.2⟩ ↔
      SameAddress C w (.go k a) := by
  have hsame : SameAddress C w (.go k a) ↔ ∀ cfg ∈ t.folds?, ∀ entries ∈ a.loaded.toOption,
      ∀ ip ∈ addressIn C.toPrimitives a.now (cfg.rosterCfg C) entries w.shared.myId,
        ∀ ip' ∈ addresses w, ip' = ip := by
    show (∀ t' ∈ w.tasks[k]?, _) ↔ _
    rw [hk]
    exact ⟨fun hs => hs t rfl, fun hs t' ht' => by obtain rfl := Option.some.inj ht'; exact hs⟩
  have hsub : (∀ ip ∈ addresses ⟨(stretch C w.shared a t).1,
      w.tasks.set k (stretch C w.shared a t).2.1 ++ (stretch C w.shared a t).2.2⟩,
      ip ∈ addresses w) → OneAddress ⟨(stretch C w.shared a t).1,
      w.tasks.set k (stretch C w.shared a t).2.1 ++ (stretch C w.shared a t).2.2⟩ :=
    fun hs ip hip ip' hip' => h ip (hs ip hip) ip' (hs ip' hip')
  rw [hsame]
  cases hfolds : t.folds? with
  | none => exact iff_of_true (hsub (addresses_of_not_folds hk hfolds)) nofun
  | some cfg =>
    cases hl : a.loaded with
    | error e =>
      refine iff_of_true (hsub (addresses_of_folds_none hk hfolds fun entries he => ?_)) nofun
      rw [hl] at he
      cases he
    | ok entries =>
      cases hip : addressIn C.toPrimitives a.now (cfg.rosterCfg C) entries w.shared.myId with
      | none =>
        refine iff_of_true (hsub (addresses_of_folds_none hk hfolds fun entries' he => ?_)) ?_
        · rw [hl] at he
          obtain rfl := Except.ok.inj he
          exact hip
        · intro cfg' hc entries' he ip hip'
          obtain rfl := Option.some.inj hc
          obtain rfl := Option.some.inj he
          rw [hip] at hip'
          cases hip'
      | some ip =>
        have hmem := addresses_of_folds honce hk hfolds hl hip
        constructor
        · intro hone cfg' hc entries' he ip₁ hip₁ ip' hip'
          obtain rfl := Option.some.inj hc
          obtain rfl := Option.some.inj he
          obtain rfl := Option.some.inj (hip.symm.trans hip₁)
          exact hone ip' ((hmem ip').mpr (Or.inr hip')) ip ((hmem ip).mpr (Or.inl rfl))
        · intro hs
          have hall : ∀ ip', (ip' = ip ∨ ip' ∈ addresses w) → ip' = ip := by
            intro ip' h'
            rcases h' with rfl | h'
            · rfl
            · exact hs cfg rfl entries rfl ip hip ip' h'
          intro ip₁ hip₁ ip₂ hip₂
          rw [hall ip₁ ((hmem ip₁).mp hip₁), hall ip₂ ((hmem ip₂).mp hip₂)]

/-! ## 4. Every run -/

variable (C) in
/-- The TUN is up only where it has been attempted. -/
theorem tunOnce_step (h : w.shared.TunOnce) (act : Act Task Answers Outside) :
    ((engine C).step w act).shared.TunOnce := by
  refine Program.step_shared (I := Live.TunOnce) h (fun a t => ?_) (fun e => ?_) act
  · show (stretch C w.shared a t).1.TunOnce
    have hs := stretched C w.shared a t
    generalize (stretch C w.shared a t).1 = l' at hs ⊢
    generalize (stretch C w.shared a t).2.1 = t' at hs
    generalize (stretch C w.shared a t).2.2 = spawned at hs
    cases hs with
    | evict cfg rebuild => exact nofun
    | @enforce cfg rebuild roster l₁ next hfold hlive hnext =>
      subst hnext
      have honce : l₁.TunOnce := by rw [hlive]; exact h
      exact tunOnce_sweepNext honce a roster _
    | @sweep roster peer stale next hnext =>
      subst hnext
      exact tunOnce_sweepNext (l := w.shared.observe peer {} false) h a roster stale
    | @register t dialed peer conn next ht hnext =>
      subst hnext
      exact h
    | disconnect forget => exact nofun
    | _ => exact h
  · cases e <;> exact h

theorem oneAddress_step_iff (h : OneAddress w) (honce : w.shared.TunOnce)
    (act : Act Task Answers Outside) :
    OneAddress ((engine C).step w act) ↔ SameAddress C w act := by
  refine Program.step_iff h (fun hidle => ?_) (fun k i t hact hk => ?_) (fun t _ ht => ?_)
    (fun k t t' _ hk hd ip hip ip' hip' => ?_) fun e _ => ?_
  · cases act with
    | go k i =>
      intro t ht
      rw [hidle k i rfl] at ht
      cases ht
    | _ => trivial
  · subst hact
    exact oneAddress_stretch_iff h honce hk
  · have hnew : t.roster? = none := Task.roster?_of_plain (Task.plain_of_starts ht)
    have hsame : addresses ⟨w.shared, w.tasks ++ [t]⟩ = addresses w := by
      simp [addresses, hnew]
    rw [OneAddress, hsame]
    exact h
  · obtain ⟨rfl, -⟩ := Task.drop_cases hd
    have hsub : ∀ ip ∈ addresses ⟨w.shared, w.tasks.set k .done ++ []⟩, ip ∈ addresses w :=
      addresses_stretch hk (fun _ h => h) rfl (fun ip h => mem_addresses.mpr (Or.inl h))
      (fun ip h => mem_addresses.mpr (Or.inr (Or.inl h))) nofun (List.forall_mem_nil _)
    rw [List.append_nil] at hsub
    exact h ip (hsub ip hip) ip' (hsub ip' hip')
  · have hsame : addresses ⟨outside w.shared e, w.tasks⟩ = addresses w := by
      cases e <;> rfl
    show OneAddress ⟨outside w.shared e, w.tasks⟩
    rw [OneAddress, hsame]
    exact h

theorem tunMatches_of_oneAddress (h : OneAddress w) : w.shared.TunMatches := by
  intro ip htun me hme
  refine h me.virtualIp (mem_addresses.mpr (Or.inr (Or.inl ?_))) ip
    (mem_addresses.mpr (Or.inl htun))
  rw [Roster.addressOf, show w.shared.roster.member w.shared.myId = some me from hme]
  rfl

/-- **The TUN address is the roster address.** In every run that begins with the TUN down,
    (1) the TUN, the cached roster and the rosters in flight agree on this device's address in
    every state, exactly as long as each document that is folded gives it the address it has;
    (2) then the TUN routes from the address the roster has for it; (3) a fold gives it the
    address that its admission records, if the host is valid and nobody admitted before it
    has got that host. -/
theorem tun_address_iff {l : Live} (hl : l.tun = none) (acts : List (Act Task Answers Outside)) :
    (Throughout (engine C).step OneAddress ⟨l, []⟩ acts ↔
      EachStep (engine C).step (SameAddress C) ⟨l, []⟩ acts) ∧
    (EachStep (engine C).step (SameAddress C) ⟨l, []⟩ acts →
      (run (engine C).step ⟨l, []⟩ acts).shared.TunMatches) ∧
    ∀ now cfg entries id host, Undisputed C.toPrimitives now cfg entries id host →
      addressIn C.toPrimitives now cfg entries id = some (cfg.subnet.withHost host) := by
  have honce : l.TunOnce := by
    intro h
    rw [hl] at h
    cases h
  have hone : OneAddress ⟨l, []⟩ := by
    have haddr : addresses ⟨l, []⟩ = (l.roster.addressOf l.myId).toList := by
      simp [addresses, hl]
    intro ip hip ip' hip'
    rw [haddr, Option.mem_toList] at hip hip'
    exact Option.some.inj (hip.symm.trans hip')
  have hiff := throughout_iff (J := fun w => w.shared.TunOnce) (I := OneAddress)
    (Q := SameAddress C) (l := acts) (fun w act h => tunOnce_step C h act)
    (fun w act honce h => oneAddress_step_iff h honce act) honce hone
  exact ⟨hiff, fun hsame => tunMatches_of_oneAddress (throughout_end (hiff.mpr hsame)),
    fun _ _ _ _ _ h => addressIn_recorded h⟩

/-! ## 5. An address that moves -/

instance decidableSameAddress (w : World Live Task) : ∀ act, Decidable (SameAddress C w act)
  | .go k a => inferInstanceAs (Decidable (∀ t ∈ w.tasks[k]?, ∀ cfg ∈ t.folds?,
      ∀ entries ∈ a.loaded.toOption, ∀ ip ∈ addressIn _ _ _ _ _, ∀ ip' ∈ addresses w, ip' = ip))
  | .start _ => isTrue trivial
  | .drop _ => isTrue trivial
  | .env _ => isTrue trivial

instance decidableTunMatches (l : Live) : Decidable l.TunMatches :=
  inferInstanceAs (Decidable (∀ ip ∈ l.tun, ∀ me ∈ l.roster.member l.myId, me.virtualIp = ip))

namespace Sample

/-- A Controller admits `node` at host 4, the lowest that is free in its roster. -/
def admits (signer node : UInt8) (ts : UInt64) : Entry :=
  signed signer (.add (key node) "host" .peer (10, 99, 0, 4) (nonce 7) ts)

/-- Controller 2 has admitted device 5. -/
def admittedBy2 : List Entry := setup ++ [add 1 3 .controller 0 2, admits 2 5 5]

/-- Controller 3 had admitted device 6 just before, which comes to be known later. -/
def admittedBy3 : List Entry := admittedBy2 ++ [admits 3 6 4]

/-- The daemon of device 5 has just started. -/
def booted5 : Live := { deviceKey := key 5, myId := key 5 }

/-- It goes online, and its first tick brings up the TUN; it dials at 1 and 2. -/
def tunUp : List (Act Task Answers Outside) :=
  [.env (.activate (stored none) NET NET), .start .tickStart] ++
    List.replicate 6 (.go 0 (answers 100 admittedBy2)) ++ [.go 1 {}, .go 2 {}]

/-- The document changes, and the next tick folds it; it dials at 4, 5 and 6. -/
def tunStays : List (Act Task Answers Outside) :=
  tunUp ++ [.env .docChanged, .start .tickStart] ++
    List.replicate 6 (.go 3 (answers 200 admittedBy3)) ++ [.go 4 {}, .go 5 {}, .go 6 {}]

end Sample

theorem tun_address_sample :
    (run (engine .plain).step ⟨Sample.booted5, []⟩ Sample.tunUp).shared.TunMatches :=
  (tun_address_iff (C := .plain) (l := Sample.booted5) rfl Sample.tunUp).2.1 (by decide +kernel)

/-- **The address moves under the TUN**: an admission from before this device's own takes its
    host. -/
theorem tun_address_moved :
    ¬ ∀ (l : Live) (acts : List (Act Task Answers Outside)), l.tun = none →
      Settled (run (engine .plain).step ⟨l, []⟩ acts) →
      (run (engine .plain).step ⟨l, []⟩ acts).shared.TunMatches := by
  intro h
  have hmatch := h Sample.booted5 Sample.tunStays rfl (by decide +kernel)
  revert hmatch
  decide +kernel

end Nullgate
