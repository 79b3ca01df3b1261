/-
  File:      Nullgate/Engine/Dissolve.lean
  Subject:   CLOSING THE ROLL (`set_frozen`) AND DISSOLVING A NETWORK (`delete_network`).

  Both are ops of the originator, and both are meant to bind whoever writes later: a frozen roll
  admits nobody, and behind the removals of `delete_network` nobody is left to let anyone in. What
  sorts behind the op is powerless then; what sorts before it counts as it ever did, also when it
  arrives later.

  * `frozen_run`, **`frozen_admits_nobody`**: while no thaw sorts behind a freeze, whoever is a
    member was one in the roster of what sorts before it;
  * `foldFrom_removals`, `foldFrom_powerless`: what removals do, and what signers without authority
    do behind them;
  * **`deletion_final`**: the members behind a deletion are those whose removal was not published,
    whatever the removed ones write; and a device that folds its removal leaves for good.
-/
import Nullgate.Engine.Admin
import Nullgate.Roster.Convergence

namespace Nullgate

open Nullgate.Lib

variable {P : Primitives} {now : UInt64} {rc : Config} {E F : List Entry} {o : Entry}

/-! ## 1. A frozen roll -/

/-- Only the originator thaws. -/
theorem isOrig_of_thaw {s : FoldState} {e : Entry} (h : authorised rc s e = true)
    (hw : frozenWrite e = some false) : isOrig rc e = true := by
  unfold frozenWrite at hw
  split at hw
  · rename_i hop
    simpa [authorised, hop] using h
  · cases hw

/-- An `add` is let in on an open roll alone. -/
theorem open_of_admits {s : FoldState} {e : Entry} {x : Id} (h : authorised rc s e = true)
    (hx : e.admits? = some x) : s.roster.frozen = false := by
  unfold Entry.admits? at hx
  split at hx
  · rename_i hop
    exact ((authorised_add hop).mp h).1
  · cases hx

/-- **While the roll is frozen nobody gets in.** -/
theorem frozen_run {s : FoldState} {l : List Entry}
    (hl : ∀ e ∈ l, isOrig rc e = true → frozenWrite e ≠ some false)
    (hs : s.roster.frozen = true) :
    (foldFrom rc s l).roster.frozen = true ∧
      ∀ x, (foldFrom rc s l).roster.isMember x = true → s.roster.isMember x = true := by
  refine run_invariant (I := fun t : FoldState => t.roster.frozen = true ∧
    ∀ x, t.roster.isMember x = true → s.roster.isMember x = true) (fun t e he ht => ?_)
    ⟨hs, fun x hx => hx⟩
  obtain ⟨hfrozen, hmember⟩ := ht
  refine ⟨?_, fun x hx => ?_⟩
  · have hlaw := (frozenReg rc).law t e
    cases hw : (frozenReg rc).writes t e with
    | none =>
      rw [hw, Option.getD_none] at hlaw
      exact hlaw.trans hfrozen
    | some b =>
      rw [hw, Option.getD_some] at hlaw
      simp only [frozenReg] at hw
      split at hw
      · rename_i hauth
        cases b with
        | true => exact hlaw
        | false => exact absurd hw (hl e he (isOrig_of_thaw hauth hw))
      · cases hw
  · have hlaw := (memberReg rc x).law t e
    cases hw : (memberReg rc x).writes t e with
    | none =>
      rw [hw, Option.getD_none] at hlaw
      exact hmember x (hlaw.symm.trans hx)
    | some b =>
      rw [hw, Option.getD_some] at hlaw
      obtain rfl : b = true := hlaw.symm.trans hx
      simp only [memberReg] at hw
      split at hw
      · rename_i hauth
        have hopen := open_of_admits hauth (memberWrite_eq_true.mp hw)
        rw [hfrozen] at hopen
        cases hopen
      · cases hw

/-- The roster of what sorts before an entry. -/
def rosterBefore (P : Primitives) (now : UInt64) (rc : Config) (E : List Entry) (o : Entry) :
    Roster :=
  Roster.build P now rc (E.filter fun e => decide (orderKey P e < orderKey P o))

/-- The state that an entry meets is the fold of what sorts before it. -/
theorem foldAll_before (hcf : CollisionFree P now rc (E ++ [o])) :
    foldAll P now rc (E.filter fun e => decide (orderKey P e < orderKey P o)) =
      stateAt P now rc (E ++ [o]) o := by
  refine congrArg (foldFrom rc .init) ((strictBy_ordered _).ext
    ((strictBy_ordered (E ++ [o])).filter _) fun e => ?_)
  have hsub : CollisionFree P now rc
      (E.filter fun e => decide (orderKey P e < orderKey P o)) :=
    hcf.mono fun e he _ => List.mem_append_left _ (List.mem_filter.mp he).1
  rw [mem_ordered hsub, List.mem_filter, List.mem_filter, mem_ordered hcf, List.mem_append,
    List.mem_singleton, decide_eq_true_eq]
  constructor
  · exact fun h => ⟨⟨Or.inl h.1.1, h.2⟩, h.1.2⟩
  · intro h
    rcases h.1.1 with he | rfl
    · exact ⟨⟨he, h.2⟩, h.1.2⟩
    · exact absurd h.2 (lt_irrefl _)

/-- **A frozen roll admits nobody.** The originator freezes the roll. In every roster folded from
    the freeze and any other entries, as long as no thaw of the originator sorts behind it, the roll
    is frozen, and every member is one in the roster of the entries that sort before the freeze:
    Controllers with their invites, the originator's own `add`s, nothing that sorts behind it lets
    anyone in. -/
theorem frozen_admits_nobody {C : Crates} {i : Inner} {cfg : StoredConfig} {sk : SigningKey}
    {nowMs : UInt64} (hlawful : C.toPrimitives.Lawful) (hk : HoldsMasterKey C i cfg sk)
    (h : setFrozen C i nowMs true = .ok o) (now : UInt64) (hts : nowMs ≤ ceiling now)
    (E : List Entry) (hcf : CollisionFree C.toPrimitives now (cfg.rosterCfg C) (E ++ [o]))
    (hthaw : ∀ e ∈ E, isOrig (cfg.rosterCfg C) e = true → frozenWrite e = some false →
      orderKey C.toPrimitives e < orderKey C.toPrimitives o) :
    (Roster.build C.toPrimitives now (cfg.rosterCfg C) (E ++ [o])).frozen = true ∧
      ∀ x, (Roster.build C.toPrimitives now (cfg.rosterCfg C) (E ++ [o])).isMember x = true →
        (rosterBefore C.toPrimitives now (cfg.rosterCfg C) E o).isMember x = true := by
  obtain rfl := setFrozen_ok hk h
  have hm : MasterOp C.toPrimitives now (cfg.rosterCfg C)
      (signOp C.toPrimitives (cfg.secret.networkId C) sk (.freeze true nowMs)) :=
    masterOp_signOp hlawful hk.matching _
  obtain ⟨o, ho⟩ : ∃ o, o = signOp C.toPrimitives (cfg.secret.networkId C) sk
    (.freeze true nowMs) := ⟨_, rfl⟩
  have hop : o.op = .freeze true nowMs := by rw [ho]; rfl
  rw [← ho] at hm hcf hthaw ⊢
  have hmem : o ∈ ordered C.toPrimitives now (cfg.rosterCfg C) (E ++ [o]) :=
    (mem_ordered hcf).mpr ⟨by simp, by rw [hm.authentic, hop]; exact decide_eq_true hts⟩
  obtain ⟨pre, post, hsplit⟩ := List.append_of_mem hmem
  have hstrict : StrictBy (orderKey C.toPrimitives) (pre ++ o :: post) :=
    hsplit ▸ strictBy_ordered _
  have hpre : stateAt C.toPrimitives now (cfg.rosterCfg C) (E ++ [o]) o =
      foldFrom (cfg.rosterCfg C) .init pre := landing_of_split (strictBy_ordered _) hsplit
  have hfold : foldAll C.toPrimitives now (cfg.rosterCfg C) (E ++ [o]) =
      foldFrom (cfg.rosterCfg C)
        (foldEntry (cfg.rosterCfg C) (foldFrom (cfg.rosterCfg C) .init pre) o) post := by
    unfold foldAll
    rw [hsplit, foldFrom, run_append, run_cons]
  -- the freeze itself closes the roll and leaves the members
  have hauth : authorised (cfg.rosterCfg C) (foldFrom (cfg.rosterCfg C) .init pre) o = true :=
    authorised_of_isOrig hm.isOrig (by simp [Entry.admits?, hop])
  have heffect := foldEntry_of_authorised hauth
  simp only [effect, hop] at heffect
  have hthaw' : ∀ e ∈ post, isOrig (cfg.rosterCfg C) e = true → frozenWrite e ≠ some false := by
    intro e he horig hw
    obtain ⟨hin, hlt⟩ := hstrict.mem_after.mp he
    rw [← hsplit] at hin
    rcases List.mem_append.mp (ordered_sub hin).1 with hE | hE
    · exact absurd (hthaw e hE horig hw) (lt_asymm hlt)
    · rw [List.mem_singleton.mp hE] at hlt
      exact lt_irrefl _ hlt
  obtain ⟨hfrozen, hmember⟩ := frozen_run (s := foldEntry _ _ o) hthaw' (by rw [heffect])
  rw [← hfold] at hfrozen hmember
  refine ⟨hfrozen, fun x hx => ?_⟩
  rw [Roster.build, finish_isMember] at hx
  have hx' := hmember x hx
  rw [heffect] at hx'
  rwa [rosterBefore, Roster.build, finish_isMember, foldAll_before hcf, hpre]

/-! ## 2. Deleting a network -/

/-- The other members of the cached roster. -/
def Inner.others (i : Inner) : List Id :=
  (i.roster.members.toList.map Prod.fst).filter fun id => decide (id ≠ i.myId)

/-- **`delete_network`**: what it publishes, and the device behind it. `clock` is what the device's
    clock shows as the removal of a member is signed, `written` whether the document takes it; a
    publication that fails is passed over. -/
def deleteNetwork (C : Crates) (i : Inner) (clock : Id → UInt64) (written : Id → Bool) :
    Except String (List Entry × Inner) := do
  let originator ← originatorKey i
  -- `unwrap` of the config: `originatorKey` has failed where there is none
  let cfg ← i.network
  let removals := i.others.filterMap fun id =>
    match publish i (signOp C.toPrimitives (cfg.secret.networkId C) originator
        (.remove id (clock id))) with
    | .error _ => none
    | .ok entry => if written id then some entry else none
  .ok (removals, teardown i)

/-- A list of removals signed with the master key, each in the reader's window. -/
def Removals (P : Primitives) (now : UInt64) (rc : Config) (D : List Entry) : Prop :=
  ∀ d ∈ D, isOrig rc d = true ∧ authentic P now rc d = true ∧ ∃ x ts, d.op = .remove x ts

/-- **What removals do.** -/
theorem foldFrom_removals {D : List Entry} (s : FoldState) (x : Id)
    (hD : ∀ d ∈ D, isOrig rc d = true ∧ ∃ x ts, d.op = .remove x ts) :
    (foldFrom rc s D).roster.tier? x =
      if ∃ d ∈ D, d.removes? = some x then none else s.roster.tier? x := by
  induction D generalizing s with
  | nil => simp [foldFrom]
  | cons d D ih =>
    obtain ⟨horig, y, ts, hop⟩ := hD d List.mem_cons_self
    have hauth : authorised rc s d = true :=
      authorised_of_isOrig horig (by simp [Entry.admits?, hop])
    have hrem : d.removes? = some y := by simp [Entry.removes?, hop]
    have hlaw := (tierReg rc x).law s d
    simp only [tierReg, hauth, if_true, tierWrite, hop] at hlaw
    rw [foldFrom, run_cons, ← foldFrom, ih _ fun d' hd' => hD d' (List.mem_cons_of_mem _ hd'), hlaw]
    by_cases hxy : y = x
    · subst hxy
      simp [hrem]
    · simp [hrem, hxy]

/-- **Signers without authority do nothing.** -/
theorem foldFrom_powerless {l : List Entry} (s : FoldState)
    (hl : ∀ f ∈ l, f.signer ≠ rc.originatorId ∧ s.roster.tier? f.signer ≠ some .controller) :
    foldFrom rc s l = s := by
  induction l with
  | nil => rfl
  | cons f l ih =>
    have hnot : authorised rc s f = false := by
      refine Bool.eq_false_iff.mpr fun hauth => ?_
      obtain ⟨horig, htier⟩ := hl f List.mem_cons_self
      rcases Bool.or_eq_true_iff.mp (isAdmin_of_authorised hauth) with h | h
      · exact horig (of_decide_eq_true h)
      · exact htier (of_decide_eq_true h)
    rw [foldFrom, run_cons, foldEntry_of_not_authorised hnot]
    exact ih fun f' hf' => hl f' (List.mem_cons_of_mem _ hf')

/-- The signer has no authority in the roster, or loses it to the removals. -/
def LosesAuthority (rc : Config) (r : Roster) (D : List Entry) (signer : Id) : Prop :=
  signer ≠ rc.originatorId ∧
    (r.tier? signer = some .controller → ∃ d ∈ D, d.removes? = some signer)

/-- **The members behind removals**, whatever those write behind them who had authority only before
    them. -/
theorem isMember_removals {D : List Entry} (hcf : CollisionFree P now rc (E ++ D ++ F))
    (hD : Removals P now rc D) (hbehind : ∀ e ∈ E, ∀ d ∈ D, orderKey P e < orderKey P d)
    (hlater : ∀ e ∈ E ++ D, ∀ f ∈ F, orderKey P e < orderKey P f)
    (hF : ∀ f ∈ F, LosesAuthority rc (Roster.build P now rc E) D f.signer) (x : Id) :
    (Roster.build P now rc (E ++ D ++ F)).isMember x = true ↔
      (Roster.build P now rc E).isMember x = true ∧ ∀ d ∈ D, d.removes? ≠ some x := by
  have hcf' : CollisionFree P now rc (E ++ D) :=
    hcf.mono fun e he _ => List.mem_append_left _ he
  have hcfD : CollisionFree P now rc D := hcf'.mono fun d hd _ => List.mem_append_right _ hd
  have hmem : ∀ d, d ∈ ordered P now rc D ↔ d ∈ D := fun d => by
    rw [mem_ordered hcfD]
    exact and_iff_left_of_imp fun hd => (hD d hd).2.1
  have htier : ∀ y, (foldAll P now rc (E ++ D)).roster.tier? y =
      if ∃ d ∈ D, d.removes? = some y then none else (Roster.build P now rc E).tier? y := by
    intro y
    have hrun := foldFrom_removals (foldAll P now rc E) y
      fun d hd => ⟨(hD d ((hmem d).mp hd)).1, (hD d ((hmem d).mp hd)).2.2⟩
    simp only [hmem] at hrun
    rw [foldAll_append hcf' hbehind, hrun, Roster.build, finish_tier?]
  have hpowerless : foldAll P now rc (E ++ D ++ F) = foldAll P now rc (E ++ D) := by
    rw [foldAll_append hcf hlater]
    refine foldFrom_powerless _ fun f hf => ?_
    obtain ⟨horig, hloses⟩ := hF f (ordered_sub hf).1
    refine ⟨horig, fun hcontroller => ?_⟩
    rw [htier] at hcontroller
    split at hcontroller
    · cases hcontroller
    · rename_i hkept
      exact hkept (hloses hcontroller)
  rw [Roster.isMember_eq, Roster.isMember_eq, Roster.build, finish_tier?, hpowerless, htier]
  by_cases hx : ∃ d ∈ D, d.removes? = some x
  · rw [if_pos hx]
    obtain ⟨d, hd, hrem⟩ := hx
    exact iff_of_false Bool.false_ne_true fun h => h.2 d hd hrem
  · rw [if_neg hx]
    exact (and_iff_left fun d hd hrem => hx ⟨d, hd, hrem⟩).symm

/-- What `delete_network` publishes. -/
theorem deleteNetwork_ok {C : Crates} {i i' : Inner} {cfg : StoredConfig} {sk : SigningKey}
    {clock : Id → UInt64} {written : Id → Bool} {D : List Entry}
    (hk : HoldsMasterKey C i cfg sk) (h : deleteNetwork C i clock written = .ok (D, i')) :
    i' = teardown i ∧ ∀ d ∈ D, ∃ x ∈ i.others, written x = true ∧
      d = signOp C.toPrimitives (cfg.secret.networkId C) sk (.remove x (clock x)) := by
  simp only [deleteNetwork, hk.originatorKey_eq, hk.network_eq, bind, Except.bind] at h
  obtain ⟨rfl, rfl⟩ := Prod.mk.inj (Except.ok.inj h)
  refine ⟨rfl, fun d hd => ?_⟩
  obtain ⟨x, hx, hsome⟩ := List.mem_filterMap.mp hd
  split at hsome
  · cases hsome
  · rename_i entry hpublish
    split at hsome
    · rename_i hwritten
      obtain rfl := Option.some.inj hsome
      exact ⟨x, hx, hwritten, publish_ok hpublish⟩
    · cases hsome

/-! ## 3. A device that is removed -/

/-- The device has left its network. -/
structure Inner.Gone (i : Inner) : Prop where
  config : i.config = none
  doc : i.doc = none
  roster : i.roster = .default
  disk : i.disk = {}

theorem myId_enforceRoster (i : Inner) (r : Roster) : (enforceRoster i r).1.myId = i.myId := by
  unfold enforceRoster
  split
  · rfl
  · split <;> rfl

theorem myId_step {C : Crates} (i : Inner) (ev : Event) : (step C i ev).myId = i.myId := by
  cases ev with
  | tick nowCoarse now loaded =>
    show (tick C i nowCoarse now loaded).1.myId = i.myId
    unfold tick
    split
    · split
      · cases loaded with
        | error e => rfl
        | ok entries => exact myId_enforceRoster _ _
      · exact myId_enforceRoster _ _
    · rfl
  | _ => rfl

/-- Without an activation, who has left stays away. -/
theorem Inner.Gone.step {C : Crates} {i : Inner} (h : i.Gone) (ev : Event)
    (hev : ∀ cfg doc author, ev ≠ .activate cfg doc author) : (Nullgate.step C i ev).Gone := by
  cases ev with
  | tick nowCoarse now loaded =>
    have htick : tick C i nowCoarse now loaded = (i, .idle) := by
      unfold tick
      rw [h.doc]
    rw [Nullgate.step, htick]
    exact h
  | docChanged | networkChanged => exact ⟨h.config, h.doc, h.roster, h.disk⟩
  | softDisconnect => exact ⟨h.config, rfl, rfl, h.disk⟩
  | activate cfg doc author => exact absurd rfl (hev cfg doc author)

/-- **A latched device that folds a roster without itself leaves.** -/
theorem gone_of_evicted {C : Crates} {i : Inner} {nowCoarse now : UInt64}
    {loaded : Except String (List Entry)} {cfg : StoredConfig} {L : List Entry}
    (h : FoldsLatched i nowCoarse loaded cfg L)
    (hm : (Roster.build C.toPrimitives now (cfg.rosterCfg C) L).isMember i.myId = false) :
    (tick C i nowCoarse now loaded).1.Gone := by
  obtain ⟨d, hd⟩ := Option.isSome_iff_exists.mp h.online
  simp only [tick, hd, h.config, h.due, h.loaded, if_true, enforceRoster, hm, h.latched]
  exact ⟨rfl, rfl, rfl, rfl⟩

/-- **A deletion is final.** The originator deletes the network; some of the removals may fail to be
    written. Take all entries that sort before them, known to the originator or not, and any that
    sort behind and are signed neither by the originator nor by a Controller that was spared.
    (1) The members of the roster are those from before whose removal was not published.
    (2) A device whose removal was published, and which has been a member since it went online,
    leaves at the first tick that folds these entries, and is not in the network from then on,
    unless it is activated again. -/
theorem deletion_final {C : Crates} {i i' : Inner} {cfg : StoredConfig} {sk : SigningKey}
    {clock : Id → UInt64} {written : Id → Bool} {D : List Entry} {now : UInt64} {E F : List Entry}
    (hlawful : C.toPrimitives.Lawful) (hk : HoldsMasterKey C i cfg sk)
    (h : deleteNetwork C i clock written = .ok (D, i')) (hclock : ∀ x, clock x ≤ ceiling now)
    (hcf : CollisionFree C.toPrimitives now (cfg.rosterCfg C) (E ++ D ++ F))
    (hbehind : ∀ e ∈ E, ∀ d ∈ D, orderKey C.toPrimitives e < orderKey C.toPrimitives d)
    (hlater : ∀ e ∈ E ++ D, ∀ f ∈ F, orderKey C.toPrimitives e < orderKey C.toPrimitives f)
    (hF : ∀ f ∈ F, LosesAuthority (cfg.rosterCfg C)
      (Roster.build C.toPrimitives now (cfg.rosterCfg C) E) D f.signer) :
    (∀ x, (Roster.build C.toPrimitives now (cfg.rosterCfg C) (E ++ D ++ F)).isMember x = true ↔
      (Roster.build C.toPrimitives now (cfg.rosterCfg C) E).isMember x = true ∧
        ∀ d ∈ D, d.removes? ≠ some x) ∧
    ∀ (j : Inner) (pre post : List Event) (nowCoarse : UInt64) (cfg' : StoredConfig)
      (L : List Entry), (∃ d ∈ D, d.removes? = some j.myId) →
      FoldsLatched (run (step C) j pre) nowCoarse (.ok L) cfg' L →
      cfg'.rosterCfg C = cfg.rosterCfg C →
      (∀ e, authentic C.toPrimitives now (cfg.rosterCfg C) e = true → (e ∈ E ++ D ++ F ↔ e ∈ L)) →
      (∀ ev ∈ post, ∀ c doc author, ev ≠ .activate c doc author) →
      (run (step C) j (pre ++ .tick nowCoarse now (.ok L) :: post)).Gone := by
  obtain ⟨-, hD⟩ := deleteNetwork_ok hk h
  have hremovals : Removals C.toPrimitives now (cfg.rosterCfg C) D := by
    intro d hd
    obtain ⟨x, -, -, rfl⟩ := hD d hd
    have hm : MasterOp C.toPrimitives now (cfg.rosterCfg C)
        (signOp C.toPrimitives (cfg.secret.networkId C) sk (.remove x (clock x))) :=
      masterOp_signOp hlawful hk.matching _
    exact ⟨hm.isOrig, hm.authentic.trans (decide_eq_true (hclock x)), x, clock x, rfl⟩
  have hmembers := isMember_removals hcf hremovals hbehind hlater hF
  refine ⟨hmembers, fun j pre post nowCoarse cfg' L hremoved hfolds hcfg hL hpost => ?_⟩
  have hid : ∀ l : List Event, (run (step C) j l).myId = j.myId := fun l =>
    run_invariant (I := fun y : Inner => y.myId = j.myId) 
      (fun y ev _ hy => (myId_step y ev).trans hy) rfl
  have hout : (Roster.build C.toPrimitives now (cfg'.rosterCfg C) L).isMember
      (run (step C) j pre).myId = false := by
    rw [hcfg, ← build_congr hcf hL, hid, Bool.eq_false_iff]
    intro hin
    obtain ⟨d, hd, hrem⟩ := hremoved
    exact ((hmembers j.myId).mp hin).2 d hd hrem
  rw [run_append, run_cons]
  exact run_invariant (I := Inner.Gone) (fun y ev hev hy => hy.step ev (hpost ev hev))
    (gone_of_evicted hfolds hout)

/-! ## 4. A network of three -/

namespace Sample

/-- Device 2's roster behind the join of device 3. -/
def deleter : Inner := { master with roster := Roster.build .plain 100 config joined }

/-- What it publishes, with its clock at 6. -/
def removals : List Entry := [signed 1 (.remove (key 3) 6)]

/-- Device 3 has been a member, and hears of a change. -/
def bystander : List Event := [.tick 100 100 (.ok joined), .docChanged]

theorem deleter_key : HoldsMasterKey .plain deleter (stored (some (key 1))) (key 1) :=
  ⟨rfl, rfl, rfl⟩

theorem deleteNetwork_eq :
    deleteNetwork .plain deleter (fun _ => 6) (fun _ => true) =
      .ok (removals, teardown deleter) := by
  have hothers : deleter.others = [key 3] := by decide +kernel
  simp only [deleteNetwork, deleter_key.originatorKey_eq, deleter_key.network_eq, bind, Except.bind,
    hothers]
  rfl

end Sample

/-- A Controller's `add` behind the freeze is passed over. -/
theorem frozen_admits_nobody_sample :
    (Roster.build .plain 100 Sample.config (Sample.joined ++ [Sample.add 2 4 .peer 7 8] ++
        [Sample.signed 1 (.freeze true 6)])).frozen = true ∧
      ∀ x, (Roster.build .plain 100 Sample.config (Sample.joined ++ [Sample.add 2 4 .peer 7 8] ++
          [Sample.signed 1 (.freeze true 6)])).isMember x = true →
        (rosterBefore .plain 100 Sample.config (Sample.joined ++ [Sample.add 2 4 .peer 7 8])
          (Sample.signed 1 (.freeze true 6))).isMember x = true := by
  have hfreeze : setFrozen .plain Sample.master 6 true =
      .ok (Sample.signed 1 (.freeze true 6)) := by
    simp only [setFrozen, Sample.masterKey.originatorKey_eq, Sample.masterKey.network_eq, bind,
      Except.bind]
    rfl
  exact frozen_admits_nobody Primitives.plain_lawful Sample.masterKey hfreeze 100 (by decide) _
    (by decide) (by decide)

/-- Device 3 is removed, and lets device 4 in; it has left when it has folded that. -/
theorem deletion_final_sample :
    (Roster.build .plain 100 Sample.config (Sample.joined ++ Sample.removals ++
        [Sample.add 3 4 .peer 7 8])).isMember (Sample.key 3) = false ∧
      (run (step .plain) Sample.device (Sample.bystander ++
        .tick 200 100 (.ok (Sample.joined ++ Sample.removals ++ [Sample.add 3 4 .peer 7 8])) ::
          [.docChanged, .tick 300 300 (.ok [])])).Gone := by
  obtain ⟨hmembers, hgone⟩ := deletion_final (E := Sample.joined)
    (F := [Sample.add 3 4 .peer 7 8]) Primitives.plain_lawful Sample.deleter_key
    Sample.deleteNetwork_eq (fun _ => by decide : ∀ _, (6 : UInt64) ≤ ceiling 100) (by decide)
    (by decide) (by decide) (fun f hf => by
      obtain rfl := List.mem_singleton.mp hf
      exact ⟨by decide, fun _ => by decide⟩)
  refine ⟨?_, ?_⟩
  · rw [Bool.eq_false_iff]
    exact fun h => ((hmembers (Sample.key 3)).mp h).2 _ List.mem_cons_self (by decide)
  · exact hgone Sample.device Sample.bystander _ 200 (Sample.stored none) _ (by decide)
      ⟨by decide, by decide, by decide, rfl, by decide⟩ rfl (fun e _ => Iff.rfl) (by simp)

end Nullgate
