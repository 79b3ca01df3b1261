/-
  File:      Nullgate/Membership/Synced.lean
  Subject:   A DEVICE AND ITS DOCUMENT: what its cached roster is a cache of.

  The device holds records of the membership document and some of the blobs they name, and folds
  them when something asks its maintenance loop to: the watcher of the document's live events, a
  recovery burst, or the catch-all. A tick takes its flags before it reads the document.

  * `DocCrates` -- the linked document engine: what a replica of it yields when read;
  * `Synced` -- the engine of `Engine.State`, what it holds, the events its watcher has not taken
    yet, a tick between its flags and the document, and a `refresh_roster` that has not stored its
    fold yet;
  * `Synced.step` -- what happens to it, task by task;
  * `Current.step`: what every step keeps; **`cached_roster_current`**: a device with nothing in
    hand caches the fold of what it holds.
-/
import Mathlib.Data.Finset.Lattice.Basic
import Nullgate.Engine.Tick
import Nullgate.Membership.Document

namespace Nullgate

open Nullgate.Lib

/-! ## 1. The clock of a fold -/

/-- Clocks that put every entry on the same side of the ceiling yield the same roster. -/
theorem build_clock {P : Primitives} {cfg : Config} {now clock : UInt64} {l : List Entry}
    (h : ∀ e ∈ l, e.op.ts ≤ ceiling now ↔ e.op.ts ≤ ceiling clock) :
    Roster.build P now cfg l = Roster.build P clock cfg l := by
  have hvalid : valid P now cfg l = valid P clock cfg l :=
    List.foldl_ext _ _ _ fun m e he => by
      rw [keepEntry, keepEntry, authentic, authentic, decide_eq_decide.mpr (h e he)]
  unfold Roster.build foldAll ordered
  rw [hvalid]

/-! ## 2. What a device holds -/

/-- **The linked crates of a document**, whose replicas are elements of `α`: the stream of
    `get_many(Query::all())` in the store's order, the value a hash stands for, and the reader. -/
structure DocCrates (α : Type) where
  getMany : α → List Record
  content : Bytes 32 → List UInt8
  reader : EntryReader

/-- Records of the document, and the blobs that are there. -/
abbrev Holding (α : Type) := α × Finset (Bytes 32)

variable {α : Type}

/-- The document and its blobs, as the device reads them. -/
def DocCrates.replica (D : DocCrates α) (h : Holding α) : Replica where
  stream := (D.getMany h.1).map .ok
  blobs hash := if hash ∈ h.2 then some (D.content hash) else none

theorem DocCrates.blobs_replica (D : DocCrates α) {h : Holding α} {hash : Bytes 32}
    (hmem : hash ∈ h.2) : (D.replica h).blobs hash = some (D.content hash) := if_pos hmem

/-- The entries a read yields. -/
def DocCrates.entries (D : DocCrates α) (h : Holding α) : List Entry :=
  (readRecords (D.getMany h.1)).filterMap (Record.parsed? D.reader (D.replica h).blobs)

theorem DocCrates.loadEntries_replica (D : DocCrates α) (h : Holding α) :
    loadEntries D.reader (D.replica h) = .ok (D.entries h) := loadEntries_eq rfl

/-! ## 3. A device -/

/-- **The engine of a device, and its part of the document.** -/
structure Synced (α : Type) extends Inner where
  held : Holding α
  /-- live events of the document the watcher has not taken yet -/
  notes : Bool := false
  /-- a tick that has taken its flags and not read the document: its config, and whether it folds -/
  ticking : Option (StoredConfig × Bool) := none
  /-- the fold of a `refresh_roster` that has not stored it -/
  refreshing : Option Roster := none

/-- What happens to one device. -/
inductive SyncEvent (α : Type) where
  /-- the document engine takes in records or blobs, or finishes a sync -/
  | insert (a : Holding α)
  /-- the watcher takes the live events -/
  | watch
  /-- the maintenance loop goes on: a tick begins, or the one under way reads and ends -/
  | turn (nowCoarse now : UInt64) (failed : Option String)
  /-- a `refresh_roster` begins, or the one under way stores its fold -/
  | refresh (now : UInt64)
  | networkChanged
  | softDisconnect
  | activate (cfg : StoredConfig) (doc : Doc) (author : AuthorId)

namespace Synced

variable (C : Crates) (D : DocCrates α)

/-- What the device reads off its replica at clock `now`. -/
def fold (x : Synced α) (cfg : Config) (now : UInt64) : Except String Roster :=
  buildRoster C.toPrimitives now cfg D.reader (D.replica x.held)

/-- The tick takes its flags. -/
def beginTick (x : Synced α) (nowCoarse : UInt64) : Synced α :=
  match x.doc, x.config with
  | some _, some cfg =>
    let rebuild := rebuildDue x.toInner nowCoarse
    { x with
      forceRecover := false
      docsDirty := false
      lastRosterRebuild := if rebuild then nowCoarse else x.lastRosterRebuild
      ticking := some (cfg, rebuild) }
  | _, _ => x

/-- The tick behind the rebuild. An eviction aborts the watcher. -/
def enforce (x : Synced α) (roster : Roster) : Synced α :=
  match enforceRoster x.toInner roster with
  | (i, .evicted) => { x with toInner := i, notes := false }
  | (i, _) => { x with toInner := i }

/-- The tick reads the document, or the cached roster, and ends. -/
def endTick (x : Synced α) (cfg : StoredConfig) (rebuild : Bool) (now : UInt64)
    (failed : Option String) : Synced α :=
  let x := { x with ticking := none }
  if rebuild then
    match failed, x.fold C D (cfg.rosterCfg C) now with
    | some _, _ => x
    | none, .error _ => x
    | none, .ok roster => x.enforce roster
  else x.enforce x.roster

/-- `refresh_roster`, up to its store. -/
def beginRefresh (x : Synced α) (now : UInt64) : Synced α :=
  match x.doc, x.config with
  | some _, some cfg =>
    match x.fold C D (cfg.rosterCfg C) now with
    | .error _ => x
    | .ok roster =>
      { x with wasMember := x.wasMember || roster.isMember x.myId, refreshing := some roster }
  | _, _ => x

/-- What the document engine takes in. The watcher of a device that is offline is gone. -/
def insert [SemilatticeSup α] (x : Synced α) (a : Holding α) : Synced α :=
  { x with held := x.held ⊔ a, notes := x.notes || x.doc.isSome }

/-- **One step of a device.** -/
def step [SemilatticeSup α] (x : Synced α) : SyncEvent α → Synced α
  | .insert a => x.insert a
  | .watch => { x with docsDirty := x.docsDirty || x.notes, notes := false }
  | .turn nowCoarse now failed =>
    match x.ticking with
    | none => x.beginTick nowCoarse
    | some (cfg, rebuild) => x.endTick C D cfg rebuild now failed
  | .refresh now =>
    match x.refreshing with
    | none => x.beginRefresh C D now
    | some roster => { x with roster, refreshing := none }
  | .networkChanged => { x with forceRecover := true }
  | .softDisconnect => { x with toInner := softDisconnect x.toInner, notes := false }
  | .activate cfg doc author => { x with toInner := activate x.toInner cfg doc author }

/-- The fold of what the device holds, under the clock `clock`. -/
def view (x : Synced α) (rc : Config) (clock : UInt64) : Roster :=
  Roster.build C.toPrimitives clock rc (D.entries x.held)

/-- The clocks put every entry the device holds on the same side of the ceiling. -/
def Clocked (x : Synced α) (clock now : UInt64) : Prop :=
  ∀ e ∈ D.entries x.held, e.op.ts ≤ ceiling now ↔ e.op.ts ≤ ceiling clock

/-! ## 4. The cache of one device -/

/-- The device has something in hand that makes it fold again. -/
def InHand (x : Synced α) : Prop :=
  x.notes = true ∨ x.docsDirty = true ∨ ∃ cfg, x.ticking = some (cfg, true)

/-- The step does not come between a change of the document and its fold: no read fails, no fold
    is overtaken by a `refresh_roster` that read the document before it, the clocks agree, and the
    device stays in its network. -/
def Keeps (rc : Config) (clock : UInt64) (x : Synced α) : SyncEvent α → Prop
  | .turn _ now failed => ∀ cfg, x.ticking = some (cfg, true) →
      failed = none ∧ x.refreshing = none ∧ x.Clocked D clock now
  | .refresh now => x.refreshing = none → x.Clocked D clock now
  | .activate cfg _ _ => cfg.rosterCfg C = rc
  | _ => True

/-- The device's config, and the one its tick works with, are of the network. -/
structure Configured (rc : Config) (x : Synced α) : Prop where
  config : x.doc.isSome = true → ∃ cfg, x.config = some cfg ∧ cfg.rosterCfg C = rc
  ticking : ∀ cfg b, x.ticking = some (cfg, b) → cfg.rosterCfg C = rc

/-- **What the steps keep**: an online device caches the fold of what it holds, or has in hand what
    makes it fold again; and so does a fold on its way into the cache. -/
structure Current (rc : Config) (clock : UInt64) (x : Synced α) : Prop where
  cached : x.doc.isSome = true → x.InHand ∨ x.roster = x.view C D rc clock
  stored : ∀ r, x.refreshing = some r → x.doc.isSome = true → x.InHand ∨ r = x.view C D rc clock

variable {C D} {x : Synced α} {rc : Config} {clock now : UInt64}

theorem fold_eq (cfg : Config) : x.fold C D cfg now =
    .ok (Roster.build C.toPrimitives now cfg (D.entries x.held)) := by
  rw [fold, buildRoster, D.loadEntries_replica]
  rfl

/-- A fold under a clock that agrees is the view. -/
theorem Clocked.fold_eq (h : x.Clocked D clock now) :
    x.fold C D rc now = .ok (x.view C D rc clock) := by
  rw [Synced.fold_eq, view, build_clock h]

/-- **A tick evicts the device, or caches the roster.** -/
theorem enforce_cases (x : Synced α) (roster : Roster) :
    ((x.enforce roster).doc = none ∧ (x.enforce roster).ticking = x.ticking ∧
      (x.enforce roster).held = x.held ∧ (x.enforce roster).refreshing = x.refreshing) ∨
    ∃ b, x.enforce roster = { x with wasMember := b, roster } := by
  unfold enforce enforceRoster
  by_cases hm : roster.isMember x.myId = true
  · exact Or.inr ⟨true, by simp [hm]⟩
  · by_cases hw : x.wasMember = true
    · exact Or.inl (by simp [hm, hw, teardown, softDisconnect])
    · exact Or.inr ⟨x.wasMember, by simp [hm, hw]⟩

/-- **A tick begins** where the device is online; what asks for a fold makes it fold. -/
theorem beginTick_cases (x : Synced α) (nowCoarse : UInt64) :
    x.beginTick nowCoarse = x ∨
    ∃ cfg rebuild last, x.doc.isSome = true ∧ x.config = some cfg ∧
      (x.docsDirty = true → rebuild = true) ∧
      x.beginTick nowCoarse =
        { x with
          forceRecover := false
          docsDirty := false
          lastRosterRebuild := last
          ticking := some (cfg, rebuild) } := by
  unfold beginTick
  split
  · rename_i hdoc hcfg
    exact Or.inr ⟨_, _, _, by rw [hdoc]; rfl, hcfg, fun h => by simp [rebuildDue, h], rfl⟩
  · exact Or.inl rfl

theorem held_enforce (x : Synced α) (roster : Roster) : (x.enforce roster).held = x.held := by
  rcases x.enforce_cases roster with ⟨-, -, hheld, -⟩ | ⟨b, heq⟩
  · exact hheld
  · rw [heq]

/-- A tick that has begun is under the device's config. -/
theorem Configured.config_eq {cfg : StoredConfig} (h : x.Configured C rc)
    (hon : x.doc.isSome = true) (hcfg : x.config = some cfg) : cfg.rosterCfg C = rc := by
  obtain ⟨cfg', hcfg', hrc⟩ := h.config hon
  obtain rfl := Option.some.inj (hcfg.symm.trans hcfg')
  exact hrc

theorem Configured.enforce (h : x.Configured C rc) (roster : Roster) :
    (x.enforce roster).Configured C rc := by
  rcases x.enforce_cases roster with ⟨hoff, ht, -, -⟩ | ⟨b, heq⟩
  · refine ⟨fun hon => ?_, fun cfg b hb => h.ticking cfg b (ht ▸ hb)⟩
    rw [hoff] at hon
    cases hon
  · rw [heq]
    exact ⟨h.config, h.ticking⟩

theorem Configured.beginTick (h : x.Configured C rc) (nowCoarse : UInt64) :
    (x.beginTick nowCoarse).Configured C rc := by
  rcases x.beginTick_cases nowCoarse with heq | ⟨cfg, rebuild, last, hon, hcfg, -, heq⟩
  · rw [heq]
    exact h
  · rw [heq]
    refine ⟨h.config, fun cfg' b ht => ?_⟩
    obtain ⟨rfl, -⟩ := Prod.mk.inj (Option.some.inj ht)
    exact h.config_eq hon hcfg

/-- **Every step stays in the network** the activations are of. -/
theorem Configured.step [SemilatticeSup α] (h : x.Configured C rc) (ev : SyncEvent α)
    (hact : ∀ cfg doc author, ev = .activate cfg doc author → cfg.rosterCfg C = rc) :
    (x.step C D ev).Configured C rc := by
  cases ev with
  | turn nowCoarse now failed =>
    show (match x.ticking with
      | none => x.beginTick nowCoarse
      | some (cfg, rebuild) => x.endTick C D cfg rebuild now failed).Configured C rc
    split
    · exact h.beginTick nowCoarse
    · have hidle : ({ x with ticking := none } : Synced α).Configured C rc :=
        ⟨h.config, fun cfg b ht => by cases ht⟩
      unfold endTick
      dsimp only
      split
      · split
        · exact hidle
        · exact hidle
        · exact hidle.enforce _
      · exact hidle.enforce _
  | refresh now =>
    show (match x.refreshing with
      | none => x.beginRefresh C D now
      | some roster => { x with roster, refreshing := none }).Configured C rc
    unfold beginRefresh
    split
    · split
      · split
        · exact h
        · exact ⟨h.config, h.ticking⟩
      · exact h
    · exact ⟨h.config, h.ticking⟩
  | softDisconnect => exact ⟨fun hon => (by cases hon), h.ticking⟩
  | activate cfg doc author => exact ⟨fun _ => ⟨cfg, rfl, hact cfg doc author rfl⟩, h.ticking⟩
  | _ => exact ⟨h.config, h.ticking⟩

/-- A step that leaves what is held and cached alone, and leaves in hand what was. -/
theorem Current.carry {y : Synced α} (h : x.Current C D rc clock)
    (hdoc : y.doc.isSome = true → x.doc.isSome = true) (hheld : y.held = x.held)
    (hroster : y.roster = x.roster) (hrefreshing : y.refreshing = x.refreshing)
    (hhand : x.InHand → y.InHand) : y.Current C D rc clock where
  cached hon := by
    rw [hroster, view, hheld]
    exact (h.cached (hdoc hon)).imp_left hhand
  stored r hr hon := by
    rw [view, hheld]
    exact (h.stored r (hrefreshing ▸ hr) (hdoc hon)).imp_left hhand

/-- A device that is offline has nothing to answer for. -/
theorem current_of_offline (hoff : x.doc = none) : x.Current C D rc clock where
  cached hon := by
    rw [hoff] at hon
    cases hon
  stored r hr hon := by
    rw [hoff] at hon
    cases hon

theorem Current.beginTick (h : x.Current C D rc clock) (hidle : x.ticking = none)
    (nowCoarse : UInt64) : (x.beginTick nowCoarse).Current C D rc clock := by
  rcases x.beginTick_cases nowCoarse with heq | ⟨cfg, rebuild, last, hon, hcfg, hdue, heq⟩
  · rw [heq]
    exact h
  · rw [heq]
    refine h.carry id rfl rfl rfl ?_
    -- the notes stay, and a flag that was set has become a tick that folds
    rintro (hnotes | hdirty | ⟨_, hticking⟩)
    · exact Or.inl hnotes
    · exact Or.inr (Or.inr ⟨cfg, by rw [hdue hdirty]⟩)
    · rw [hidle] at hticking
      cases hticking

/-- **A tick that ends** has folded what the device holds, or leaves the cache as it was. -/
theorem Current.endTick {cfg : StoredConfig} {rebuild : Bool} (h : x.Current C D rc clock)
    (hconf : x.Configured C rc) (hticking : x.ticking = some (cfg, rebuild))
    (failed : Option String)
    (hkeeps : rebuild = true → failed = none ∧ x.refreshing = none ∧ x.Clocked D clock now) :
    (x.endTick C D cfg rebuild now failed).Current C D rc clock := by
  unfold Synced.endTick
  cases rebuild with
  | false =>
    simp only [Bool.false_eq_true, if_false]
    rcases enforce_cases { x with ticking := none } x.roster with ⟨hoff, -⟩ | ⟨b, heq⟩
    · exact current_of_offline hoff
    · rw [heq]
      refine h.carry id rfl rfl rfl ?_
      rintro (hnotes | hdirty | ⟨_, ht⟩)
      · exact Or.inl hnotes
      · exact Or.inr (Or.inl hdirty)
      · rw [hticking] at ht
        cases ht
  | true =>
    obtain ⟨rfl, hrefreshing, hclock⟩ := hkeeps rfl
    have hfold : ({ x with ticking := none } : Synced α).fold C D (cfg.rosterCfg C) now =
        .ok (x.view C D rc clock) := by
      rw [hconf.ticking cfg true hticking]
      exact hclock.fold_eq
    simp only [if_true, hfold]
    rcases enforce_cases { x with ticking := none } (x.view C D rc clock) with ⟨hoff, -⟩ | ⟨b, heq⟩
    · exact current_of_offline hoff
    · rw [heq]
      refine ⟨fun _ => Or.inr rfl, fun r hr => ?_⟩
      have hnone : (none : Option Roster) = some r := hrefreshing ▸ hr
      cases hnone

/-- **What a `refresh_roster` folds** is what the device holds. -/
theorem Current.beginRefresh (h : x.Current C D rc clock) (hconf : x.Configured C rc)
    (hclock : x.Clocked D clock now) : (x.beginRefresh C D now).Current C D rc clock := by
  unfold Synced.beginRefresh
  split
  · rename_i d cfg hdoc hcfg
    rw [hconf.config_eq (by rw [hdoc]; rfl) hcfg, hclock.fold_eq]
    exact ⟨h.cached, fun r hr _ => Or.inr (Option.some.inj hr).symm⟩
  · exact h

/-- **Every step that keeps to the rule keeps the cache current.** -/
theorem Current.step [SemilatticeSup α] (h : x.Current C D rc clock) (hconf : x.Configured C rc)
    (ev : SyncEvent α) (hkeeps : x.Keeps C D rc clock ev) :
    (x.step C D ev).Current C D rc clock := by
  cases ev with
  | insert a =>
    -- an online device has a note of it
    have hhand : x.doc.isSome = true → (x.insert a).InHand := fun hon =>
      Or.inl (by simp [Synced.insert, hon])
    exact ⟨fun hon => Or.inl (hhand hon), fun r _ hon => Or.inl (hhand hon)⟩
  | watch =>
    refine h.carry id rfl rfl rfl ?_
    rintro (hnotes | hdirty | hticking)
    · exact Or.inr (Or.inl (by simp [Synced.step, hnotes]))
    · exact Or.inr (Or.inl (by simp [Synced.step, hdirty]))
    · exact Or.inr (Or.inr hticking)
  | turn nowCoarse now failed =>
    show (match x.ticking with
      | none => x.beginTick nowCoarse
      | some (cfg, rebuild) => x.endTick C D cfg rebuild now failed).Current C D rc clock
    split
    · rename_i hidle
      exact h.beginTick hidle nowCoarse
    · rename_i cfg rebuild hticking
      exact h.endTick hconf hticking failed fun hr => hkeeps cfg (by rw [hticking, hr])
  | refresh now =>
    show (match x.refreshing with
      | none => x.beginRefresh C D now
      | some roster => { x with roster, refreshing := none }).Current C D rc clock
    split
    · rename_i hnone
      exact h.beginRefresh hconf (hkeeps hnone)
    · rename_i roster hsome
      exact ⟨fun hon => h.stored roster hsome hon, fun r hr => by cases hr⟩
  | networkChanged => exact ⟨h.cached, h.stored⟩
  | softDisconnect => exact current_of_offline rfl
  | activate cfg doc author =>
    have hhand : (x.step C D (.activate cfg doc author)).InHand := Or.inr (Or.inl rfl)
    exact ⟨fun _ => Or.inl hhand, fun _ _ _ => Or.inl hhand⟩

/-- A turn of the maintenance loop leaves a fold on its way alone. -/
theorem refreshing_turn [SemilatticeSup α] (x : Synced α) (nowCoarse now : UInt64)
    (failed : Option String) :
    (x.step C D (.turn nowCoarse now failed)).refreshing = x.refreshing := by
  have henforce : ∀ (y : Synced α) roster, (y.enforce roster).refreshing = y.refreshing :=
    fun y roster => by
      rcases y.enforce_cases roster with ⟨-, -, -, hrefreshing⟩ | ⟨b, heq⟩
      · exact hrefreshing
      · rw [heq]
  show (match x.ticking with
    | none => x.beginTick nowCoarse
    | some (cfg, rebuild) => x.endTick C D cfg rebuild now failed).refreshing = x.refreshing
  split
  · rcases x.beginTick_cases nowCoarse with heq | ⟨_, _, _, -, -, -, heq⟩ <;> rw [heq]
  · unfold endTick
    dsimp only
    split
    · split
      · rfl
      · rfl
      · exact henforce _ _
    · exact henforce _ _

/-- A device that has just started. -/
structure Booted (x : Synced α) : Prop where
  offline : x.doc = none
  idle : x.ticking = none
  unread : x.refreshing = none

theorem Booted.configured (h : x.Booted) : x.Configured C rc where
  config hon := by
    rw [h.offline] at hon
    cases hon
  ticking cfg b ht := by
    rw [h.idle] at ht
    cases ht

end Synced

open Synced

variable {C : Crates} {D : DocCrates α} {x : Synced α} {rc : Config} {clock : UInt64}

/-- **The cached roster is the current one.** Along every run of a device from its start, whatever
    the document engine takes in and however its watcher and its ticks interleave with it: as long
    as no read fails, no fold is overtaken by an older `refresh_roster`, the clocks agree and the
    device stays in its network, an online device caches the fold of what it holds, unless it has in
    hand what makes it fold again. -/
theorem cached_roster_current [SemilatticeSup α] (hboot : x.Booted) (l : List (SyncEvent α))
    (hl : EachStep (Synced.step C D) (Synced.Keeps C D rc clock) x l)
    (honline : (run (Synced.step C D) x l).doc.isSome = true)
    (hidle : ¬ (run (Synced.step C D) x l).InHand) :
    (run (Synced.step C D) x l).roster = (run (Synced.step C D) x l).view C D rc clock := by
  have hrun := run_invariant_of_eachStep
    (I := fun y : Synced α => y.Configured C rc ∧ y.Current C D rc clock)
    (fun y ev hy hk => ⟨hy.1.step ev fun cfg doc author hev => by rw [hev] at hk; exact hk,
      hy.2.step hy.1 ev hk⟩)
    ⟨hboot.configured, current_of_offline hboot.offline⟩ hl
  exact (hrun.2.cached honline).resolve_left hidle

namespace Sample

/-- A document engine that knows of the genesis record. -/
def docs : DocCrates (Finset Record) where
  getMany records := [genesisRecord].filter (· ∈ records)
  content _ := entryBytes genesis
  reader := .derived

/-- The genesis record, and its blob. -/
def genesisHeld : Holding (Finset Record) := ({genesisRecord}, {genesisRecord.contentHash})

/-- A device that has just started. -/
def holder (seed : UInt8) (held : Holding (Finset Record)) : Synced (Finset Record) :=
  { deviceKey := key seed, myId := key seed, held }

theorem rosterCfg_stored : (stored none).rosterCfg .plain = config := by decide

/-- Device 2 goes online, takes in the genesis record, and ticks. -/
def takesIn : List (SyncEvent (Finset Record)) :=
  [.activate (stored none) NET NET, .insert genesisHeld, .watch, .turn 1000 100 none,
    .turn 1000 100 none]

/-- Device 2 behind it. -/
def tookIn : Synced (Finset Record) := run (Synced.step .plain docs) (holder 2 ⊥) takesIn

theorem tookIn_eq : tookIn = run (Synced.step .plain docs) (holder 2 ⊥) takesIn := rfl

end Sample

theorem cached_roster_current_sample :
    Sample.tookIn.roster = Sample.tookIn.view .plain Sample.docs Sample.config 100 ∧
      Sample.tookIn.roster.isMember (Sample.key 2) = true := by
  have hkeeps : EachStep (Synced.step .plain Sample.docs)
      (Synced.Keeps .plain Sample.docs Sample.config 100) (Sample.holder 2 ⊥) Sample.takesIn :=
    ⟨Sample.rosterCfg_stored, trivial, trivial, fun _ _ => ⟨rfl, rfl, fun _ _ => Iff.rfl⟩,
      fun _ _ => ⟨rfl, rfl, fun _ _ => Iff.rfl⟩, trivial⟩
  have honline : Sample.tookIn.doc.isSome = true := by decide +kernel
  have hnotes : Sample.tookIn.notes = false := by decide +kernel
  have hdirty : Sample.tookIn.docsDirty = false := by decide +kernel
  have hticking : Sample.tookIn.ticking.isNone = true := by decide +kernel
  have hidle : ¬ Sample.tookIn.InHand := by
    rintro (h | h | ⟨cfg, h⟩)
    · rw [hnotes] at h
      cases h
    · rw [hdirty] at h
      cases h
    · rw [h] at hticking
      cases hticking
  have hmember : Sample.tookIn.roster.isMember (Sample.key 2) = true := by decide +kernel
  have hview := cached_roster_current ⟨rfl, rfl, rfl⟩ Sample.takesIn hkeeps
  rw [← Sample.tookIn_eq] at hview
  exact ⟨hview honline hidle, hmember⟩

end Nullgate
