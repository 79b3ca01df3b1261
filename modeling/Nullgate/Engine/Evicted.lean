/-
  File:      Nullgate/Engine/Evicted.lean
  Subject:   WHAT TAKES A MEMBER ITS ACCESS: in the fold, at the ticks, in the engine.

  A tick evicts the device that was a member and is not in the roster it folds. Without a
  `remove` that happens as soon as a fold withdraws the `add` the membership stands on.

  * `Upholds`: a fold leaves the `add`s of the device standing that a fold before it let in;
  * `Witnessed`: a latched device was in the roster of one of the folds so far;
  * `access_taken`: over every run of ticks, network events, disconnects and activations in which
    the folds uphold each other, evictions come from an authorised `remove` of the device; and the
    stretches of a tick that nobody interrupts are such a tick;
  * `access_taken_without_remove`: an entry set without any `remove` can evict a member all the
    same, see `member_not_kept`.
-/
import Nullgate.Engine.Stretches
import Nullgate.Roster.Access

namespace Nullgate

open Nullgate.Lib

variable (C : Crates)

/-! ## 1. Evictions by a `remove` -/

/-- The fold of `E` lets in an entry that removes `m`. -/
def AcceptedRemove (P : Primitives) (now : UInt64) (cfg : Config) (E : List Entry) (m : Id) :
    Prop :=
  ∃ r ∈ ordered P now cfg E, accepted P now cfg E r = true ∧ r.removes? = some m

/-- Of a node that is no member although an `add` of it has authority, a `remove` has it too. -/
theorem acceptedRemove_of_add {P : Primitives} {now : UInt64} {cfg : Config} {E : List Entry}
    {m : Id} {a : Entry} (ha : a ∈ ordered P now cfg E) (hacc : accepted P now cfg E a = true)
    (hadm : a.admits? = some m) (hm : (Roster.build P now cfg E).isMember m = false) :
    AcceptedRemove P now cfg E m := by
  by_contra hno
  have hv : Vouched P now cfg E m :=
    ⟨a, ha, hacc, hadm, fun r hr _ hr' hrem => hno ⟨r, hr, hr', hrem⟩⟩
  rw [isMember_build_iff.mpr hv] at hm
  cases hm

/-- If a tick evicts the device, the entries it folded hold an authorised `remove` of it. -/
def EvictsByRemove (i : Inner) : Event → Prop
  | .tick nowCoarse now loaded => (tick C i nowCoarse now loaded).2 = .evicted →
      ∃ cfg E, i.config = some cfg ∧ loaded = .ok E ∧
        AcceptedRemove C.toPrimitives now (cfg.rosterCfg C) E i.myId
  | _ => True

/-- What a tick reads from the document. -/
def Event.loaded? : Event → Option (List Entry)
  | .tick _ _ (.ok entries) => some entries
  | _ => none

/-- The entry set only grows from one tick of the run to the next. -/
def Growing (events : List Event) : Prop :=
  (events.filterMap Event.loaded?).Pairwise fun E E' => ∀ e ∈ E, e ∈ E'

/-! ## 2. Which folds keep a device -/

/-- A fold: its clock, and the entries it reads. -/
structure Fold where
  now : UInt64
  entries : List Entry

/-- What a tick folds, if it folds. -/
def Event.fold? : Event → Option Fold
  | .tick _ now (.ok entries) => some ⟨now, entries⟩
  | _ => none

/-- The node is in the roster of the fold. -/
def Fold.Has (x : Fold) (cfg : Config) (m : Id) : Prop :=
  (Roster.build C.toPrimitives x.now cfg x.entries).isMember m = true

/-- **The later fold upholds the earlier one's `add`s of `m`**: those with authority there are
    among its entries, with authority. -/
def Upholds (cfg : Config) (m : Id) (x y : Fold) : Prop :=
  ∀ a ∈ ordered C.toPrimitives x.now cfg x.entries, a.admits? = some m →
    accepted C.toPrimitives x.now cfg x.entries a = true →
    a ∈ ordered C.toPrimitives y.now cfg y.entries ∧
      accepted C.toPrimitives y.now cfg y.entries a = true

/-- A fold that lost a node upheld so far has an authorised `remove` of it. -/
theorem Upholds.acceptedRemove {cfg : Config} {m : Id} {x y : Fold} (h : Upholds C cfg m x y)
    (hx : x.Has C cfg m)
    (hy : (Roster.build C.toPrimitives y.now cfg y.entries).isMember m = false) :
    AcceptedRemove C.toPrimitives y.now cfg y.entries m := by
  obtain ⟨a, ha, hacc, hadm, -⟩ := isMember_build_iff.mp hx
  obtain ⟨hmem, hacc'⟩ := h a ha hadm hacc
  exact acceptedRemove_of_add hmem hacc' hadm hy

/-- The event activates no other network than `cfg`'s. -/
def Event.Under (cfg : Config) : Event → Prop
  | .activate c _ _ => c.rosterCfg C = cfg
  | _ => True

/-- **Behind the folds `xs`**: the device `m` is in the network of `cfg`, if in any, and has been
    latched, and has cached a roster with itself in it, only by one of the folds. -/
structure Witnessed (cfg : Config) (m : Id) (xs : List Fold) (i : Inner) : Prop where
  self : i.myId = m
  config : ∀ c, i.config = some c → c.rosterCfg C = cfg
  latched : i.Latched
  seen : i.roster.isMember m = true → ∃ x ∈ xs, x.Has C cfg m

variable {C} {cfg : Config} {m : Id} {xs : List Fold} {i : Inner}

theorem not_isMember_default (m : Id) : Roster.default.isMember m = false := by
  simp [Roster.default, Roster.isMember]

/-- Offline nothing is cached. -/
theorem Witnessed.offline (hself : i.myId = m) (hconfig : ∀ c, i.config = some c →
    c.rosterCfg C = cfg) (hlatch : i.wasMember = false) (hroster : i.roster = .default) :
    Witnessed C cfg m xs i where
  self := hself
  config := hconfig
  latched hw := by
    rw [hlatch] at hw
    cases hw
  seen hm := by
    rw [hroster, not_isMember_default] at hm
    cases hm

/-- A roster is cached that is one of the folds', or is cached already. -/
theorem Witnessed.enforceRoster (h : Witnessed C cfg m xs i) {r : Roster}
    (hr : r.isMember m = true → ∃ x ∈ xs, x.Has C cfg m) :
    Witnessed C cfg m xs (enforceRoster i r).1 := by
  have hlatched := latched_enforceRoster i r
  unfold Nullgate.enforceRoster at hlatched ⊢
  split
  · exact ⟨h.self, h.config, fun _ => by assumption, hr⟩
  · split
    · exact .offline h.self (fun c hc => by cases hc) rfl rfl
    · rename_i hw
      exact ⟨h.self, h.config, fun hw' => absurd hw' hw, hr⟩

theorem Witnessed.mono {ys : List Fold} (h : Witnessed C cfg m xs i) (hsub : ∀ x ∈ xs, x ∈ ys) :
    Witnessed C cfg m ys i :=
  ⟨h.self, h.config, h.latched, fun hm => by
    obtain ⟨x, hx, hhas⟩ := h.seen hm
    exact ⟨x, hsub x hx, hhas⟩⟩

/-- The flags a tick clears are none the witnesses speak of. -/
theorem Witnessed.congr (h : Witnessed C cfg m xs i) {j : Inner} (hself : j.myId = i.myId)
    (hconfig : j.config = i.config) (hlatch : j.wasMember = i.wasMember)
    (hroster : j.roster = i.roster) : Witnessed C cfg m xs j := by
  refine ⟨hself.trans h.self, ?_, ?_, ?_⟩
  · rw [hconfig]
    exact h.config
  · rw [Inner.Latched, hlatch, hroster, hself]
    exact h.latched
  · rw [hroster]
    exact h.seen

/-- A tick keeps the witnesses, if what it folds is one of them. -/
theorem Witnessed.tick {nowCoarse now : UInt64} {loaded : Except String (List Entry)}
    (h : Witnessed C cfg m xs i)
    (hloaded : ∀ E, loaded = .ok E → (⟨now, E⟩ : Fold) ∈ xs) :
    Witnessed C cfg m xs (tick C i nowCoarse now loaded).1 := by
  unfold Nullgate.tick
  split
  · rename_i d c hd hc
    dsimp only
    split
    · cases loaded with
      | error e => exact h.congr rfl rfl rfl rfl
      | ok E =>
        refine Witnessed.enforceRoster ?_ fun hm => ?_
        · exact h.congr rfl rfl rfl rfl
        · rw [h.config c hc] at hm
          exact ⟨⟨now, E⟩, hloaded E rfl, hm⟩
    · refine Witnessed.enforceRoster ?_ h.seen
      exact h.congr rfl rfl rfl rfl
  · exact h

/-- **Every step keeps the witnesses**, and a fold adds itself. -/
theorem Witnessed.step (h : Witnessed C cfg m xs i) {ev : Event} (hev : ev.Under C cfg) :
    Witnessed C cfg m (xs ++ ev.fold?.toList) (step C i ev) := by
  have hmono := h.mono fun x hx => List.mem_append_left ev.fold?.toList hx
  cases ev with
  | tick nowCoarse now loaded =>
    refine hmono.tick fun E hE => ?_
    rw [hE]
    exact List.mem_append_right _ List.mem_cons_self
  | docChanged => exact hmono.congr rfl rfl rfl rfl
  | networkChanged => exact hmono.congr rfl rfl rfl rfl
  | softDisconnect => exact .offline h.self h.config rfl rfl
  | activate c doc author =>
    refine ⟨h.self, fun c' hc' => ?_, h.latched, hmono.seen⟩
    obtain rfl := Option.some.inj hc'
    exact hev

/-- The witnesses behind a run. -/
theorem Witnessed.run {events : List Event} (h : Witnessed C cfg m xs i)
    (hev : ∀ ev ∈ events, ev.Under C cfg) :
    Witnessed C cfg m (xs ++ events.filterMap Event.fold?) (run (Nullgate.step C) i events) := by
  induction events generalizing xs i with
  | nil =>
    rw [List.filterMap_nil, List.append_nil]
    exact h
  | cons ev events ih =>
    have hcons : (ev :: events).filterMap Event.fold? =
        ev.fold?.toList ++ events.filterMap Event.fold? := by
      rw [List.filterMap_cons]
      cases ev.fold? <;> rfl
    rw [hcons, ← List.append_assoc, run_cons]
    exact ih (h.step (hev ev List.mem_cons_self)) fun ev' hev' =>
      hev ev' (List.mem_cons_of_mem _ hev')

/-- **A tick evicts by a `remove`**, where it upholds the folds so far. -/
theorem Witnessed.evictsByRemove (h : Witnessed C cfg m xs i) {ev : Event}
    (hup : ∀ x ∈ xs, ∀ y ∈ ev.fold?, Upholds C cfg m x y) : EvictsByRemove C i ev := by
  cases ev with
  | tick nowCoarse now loaded =>
    intro he
    obtain ⟨c, E, hf, hm⟩ := (evicts_iff C h.latched).mp he
    have hroster := h.latched hf.latched
    rw [h.self] at hroster hm ⊢
    obtain ⟨x, hx, hhas⟩ := h.seen hroster
    have hfold : (Event.tick nowCoarse now loaded).fold? = some ⟨now, E⟩ := by
      rw [hf.loaded]
      rfl
    refine ⟨c, E, hf.config, hf.loaded, ?_⟩
    rw [h.config c hf.config] at hm ⊢
    exact (hup x hx _ hfold).acceptedRemove C hhas hm
  | _ => trivial

variable (C) in
/-- **What takes access away.** (1) Let `F` hold no `remove`. A member of `E` is a member of
    `E ∪ F` where no `add` of it loses its authority there and no `remove` of it gains one, and so
    where all entries of `E` about it sort before those of `F`. (2) In every run in which each fold
    upholds the `add`s of the device from those before it, whatever else they hold, a tick that
    evicts the device does so on an authorised `remove` of it. (3) Such a tick is what the stretches
    of a tick come to that nobody interrupts. -/
theorem access_taken :
    (∀ now cfg E F m, CollisionFree C.toPrimitives now cfg (E ++ F) →
      (∀ f ∈ F, f.removes? = none) →
      (Roster.build C.toPrimitives now cfg E).isMember m = true →
      (¬ Reversed C.toPrimitives now cfg E F m →
        (Roster.build C.toPrimitives now cfg (E ++ F)).isMember m = true) ∧
      ((∀ e ∈ E, e.About m →
          ∀ f ∈ F, orderKey C.toPrimitives e < orderKey C.toPrimitives f) →
        (Roster.build C.toPrimitives now cfg (E ++ F)).isMember m = true)) ∧
    (∀ cfg m xs (i : Inner) (events : List Event), Witnessed C cfg m xs i →
      (∀ ev ∈ events, ev.Under C cfg) →
      (xs ++ events.filterMap Event.fold?).Pairwise (Upholds C cfg m) →
      EachStep (step C) (EvictsByRemove C) i events) ∧
    ∀ (l : Live) (a : Answers), ∃ l' t', Alone C a l .tickStart l' t' ∧
      (t' = .tickLive ∨ t' = .done) ∧
      l'.toInner = (tick C l.toInner a.nowCoarse a.now a.loaded).1 := by
  refine ⟨fun now cfg E F m hcf hF hm => ⟨fun hsame => member_kept_of_verdicts hcf hF hsame hm,
    fun hlate => member_kept_behind hcf hF hlate hm⟩, ?_, tick_alone⟩
  intro cfg m xs i events h hev hup
  rw [eachStep_iff]
  rintro pre ev post rfl
  have hpre := h.run fun ev' hev' => hev ev' (List.mem_append_left _ hev')
  refine hpre.evictsByRemove fun x hx y hy => ?_
  -- the fold of the tick stands behind the witnesses
  have hsplit : xs ++ (pre ++ ev :: post).filterMap Event.fold? =
      (xs ++ pre.filterMap Event.fold?) ++ y :: post.filterMap Event.fold? := by
    rw [List.filterMap_append, List.filterMap_cons_some hy, List.append_assoc]
  rw [hsplit] at hup
  exact (List.pairwise_append.mp hup).2.2 x hx y List.mem_cons_self

/-! ## 3. A device evicted by an invite -/

namespace Sample

/-- It folds the join, then the late invite arrives and it folds again. -/
def eviction : List Event :=
  [.tick 100 100 (.ok joined), .docChanged, .tick 200 200 (.ok (joined ++ [lateInvite]))]

/-- It folds the join, then the originator removes it and it folds again. -/
def removal : List Event :=
  [.tick 100 100 (.ok joined), .docChanged,
    .tick 200 200 (.ok (joined ++ [signed 1 (.remove (key 3) 6)]))]

theorem device_witnessed : Witnessed .plain config (key 3) [] device where
  self := rfl
  config c hc := by
    obtain rfl := Option.some.inj hc
    rfl
  latched h := by cases h
  seen h := by
    rw [show device.roster = .default from rfl, not_isMember_default] at h
    cases h

end Sample

/-- An invite behind the join of device 3 does not cost it its membership, and its eviction comes
    from the `remove`. -/
theorem access_taken_sample :
    (Roster.build .plain 100 Sample.config
        (Sample.joined ++ [Sample.signed 1 (.setInvite .peer (Sample.nonce 8) false 6)])).isMember
      (Sample.key 3) = true ∧
    EachStep (step .plain) (EvictsByRemove .plain) Sample.device Sample.removal := by
  obtain ⟨hmember, hrun, -⟩ := access_taken .plain
  refine ⟨(hmember 100 Sample.config Sample.joined _ (Sample.key 3) (by decide) (by decide)
    member_not_kept.1).2 (by decide), ?_⟩
  refine hrun Sample.config (Sample.key 3) [] Sample.device Sample.removal
    Sample.device_witnessed (fun ev hev => ?_) ?_
  · simp only [Sample.removal, List.mem_cons, List.not_mem_nil, or_false] at hev
    rcases hev with rfl | rfl | rfl <;> trivial
  · refine List.pairwise_pair.mpr ?_
    show ∀ a ∈ ordered _ _ _ _, _
    decide

/-- **Access is lost without a `remove`**: neither do all members of `E` stay members of
    `E ∪ F` for every `F` without a `remove`, nor does an eviction need a `remove`. -/
theorem access_taken_without_remove :
    (¬ ∀ E F : List Entry, CollisionFree .plain 100 Sample.config (E ++ F) →
      (∀ f ∈ F, authentic .plain 100 Sample.config f = true ∧ f.removes? = none) →
      ∀ m, (Roster.build .plain 100 Sample.config E).isMember m = true →
        (Roster.build .plain 100 Sample.config (E ++ F)).isMember m = true) ∧
    ¬ ∀ (i : Inner) (events : List Event), i.wasMember = false → Growing events →
      EachStep (step .plain) (EvictsByRemove .plain) i events := by
  refine ⟨?_, ?_⟩
  · intro h
    have hk := h Sample.joined [Sample.lateInvite] (by decide) (by decide) (Sample.key 3)
      member_not_kept.1
    rw [member_not_kept.2] at hk
    cases hk
  · intro h
    have hgrow : Growing Sample.eviction :=
      List.pairwise_pair.mpr fun e he => List.mem_append_left _ he
    obtain ⟨-, -, hev, -⟩ := h Sample.device Sample.eviction rfl hgrow
    obtain ⟨cfg, E, -, hE, r, hr, -, hrem⟩ := hev (by decide)
    obtain rfl := Except.ok.inj hE
    have hnone : ∀ e ∈ Sample.joined ++ [Sample.lateInvite], e.removes? = none := by decide
    rw [hnone r (ordered_sub hr).1] at hrem
    cases hrem

end Nullgate
