/-
  File:      Nullgate/Engine/Tick.lean
  Subject:   THE MAINTENANCE TICK: when the roster is folded, and when a device evicts itself.

  `tick` folds the document's entries again when something asked for it, and compares the
  device with the roster. A device that has been in a roster (`wasMember`) and is not in this
  one tears its network down.

  * `evicts_iff`: under the latch invariant (`Latched`: a latched device is in the cached
    roster), exactly the ticks that fold a roster without the device evict.
-/
import Nullgate.Engine.State

namespace Nullgate

open Nullgate.Lib

variable (C : Crates)

/-! ## 1. One pass -/

def ROSTER_REBUILD_CATCHALL_MS : UInt64 := 30000

/-- How a tick ended. -/
inductive TickEnd where
  /-- no network: nothing to do -/
  | idle
  /-- reading the document failed -/
  | failed (error : String)
  /-- the device left: it is in the roster no longer -/
  | evicted
  | refreshed
  deriving DecidableEq

/-- Something asked for a new fold: a document event, a recovery burst, or the catch-all. -/
def rebuildDue (i : Inner) (nowCoarse : UInt64) : Bool :=
  i.docsDirty || i.forceRecover ||
    saturatingSub nowCoarse i.lastRosterRebuild > ROSTER_REBUILD_CATCHALL_MS

/-- The tick behind the rebuild: latch, evict, or cache the roster. -/
def enforceRoster (i : Inner) (roster : Roster) : Inner × TickEnd :=
  if roster.isMember i.myId then ({ i with wasMember := true, roster }, .refreshed)
  else if i.wasMember then (teardown i, .evicted)
  else ({ i with roster }, .refreshed)

/-- **One maintenance pass** at coarse clock `nowCoarse`; `loaded` is what reading the
    document yields, and `now` the clock of the fold. -/
def tick (i : Inner) (nowCoarse now : UInt64) (loaded : Except String (List Entry)) :
    Inner × TickEnd :=
  match i.doc, i.config with
  | some _, some cfg =>
    let consumed := { i with forceRecover := false, docsDirty := false }
    if rebuildDue i nowCoarse then
      let consumed := { consumed with lastRosterRebuild := nowCoarse }
      match loaded with
      | .error e => (consumed, .failed e)
      | .ok entries =>
        enforceRoster consumed (Roster.build C.toPrimitives now (cfg.rosterCfg C) entries)
    else enforceRoster consumed i.roster
  | _, _ => (i, .idle)

/-! ## 2. Runs -/

/-- What happens to a device: ticks, and the events between them. -/
inductive Event where
  | tick (nowCoarse now : UInt64) (loaded : Except String (List Entry))
  /-- the live-sync watcher saw the document change -/
  | docChanged
  /-- a network-change hint fires a recovery burst -/
  | networkChanged
  | softDisconnect
  | activate (cfg : StoredConfig) (doc : Doc) (author : AuthorId)

def step (i : Inner) : Event → Inner
  | .tick nowCoarse now loaded => (tick C i nowCoarse now loaded).1
  | .docChanged => { i with docsDirty := true }
  | .networkChanged => { i with forceRecover := true }
  | .softDisconnect => softDisconnect i
  | .activate cfg doc author => activate i cfg doc author

/-- The device is in the cached roster once it has been in one. -/
def Inner.Latched (i : Inner) : Prop := i.wasMember = true → i.roster.isMember i.myId = true

theorem latched_enforceRoster (i : Inner) (r : Roster) : (enforceRoster i r).1.Latched := by
  unfold enforceRoster
  split
  · rename_i hm
    exact fun _ => hm
  · split
    · exact fun h => by cases h
    · rename_i hw
      exact fun h => absurd h hw

/-! ## 3. Self-eviction -/

/-- The tick folds the entries `E` under the config `cfg`, and the device has been a member. -/
structure FoldsLatched (i : Inner) (nowCoarse : UInt64) (loaded : Except String (List Entry))
    (cfg : StoredConfig) (E : List Entry) : Prop where
  online : i.doc.isSome = true
  config : i.config = some cfg
  due : rebuildDue i nowCoarse = true
  loaded : loaded = .ok E
  latched : i.wasMember = true

/-- **Exactly the ticks that fold a roster without the latched device evict.** -/
theorem evicts_iff {i : Inner} (h : i.Latched) {nowCoarse now : UInt64}
    {loaded : Except String (List Entry)} :
    (tick C i nowCoarse now loaded).2 = .evicted ↔
      ∃ cfg E, FoldsLatched i nowCoarse loaded cfg E ∧
        (Roster.build C.toPrimitives now (cfg.rosterCfg C) E).isMember i.myId = false := by
  refine ⟨?_, ?_⟩
  · intro he
    unfold tick at he
    split at he
    · rename_i d cfg hd hc
      split at he
      · rename_i hdue
        cases loaded with
        | error e => cases he
        | ok E =>
          simp only [enforceRoster] at he
          split at he
          · cases he
          · rename_i hm
            split at he
            · rename_i hw
              exact ⟨cfg, E, ⟨by rw [hd]; rfl, hc, hdue, rfl, hw⟩, by simpa using hm⟩
            · cases he
      · -- the cached roster holds the device as soon as it is latched
        simp only [enforceRoster] at he
        split at he
        · cases he
        · rename_i hm
          split at he
          · rename_i hw
            exact absurd (h hw) hm
          · cases he
    · cases he
  · rintro ⟨cfg, E, ⟨hd, hc, hdue, rfl, hw⟩, hm⟩
    obtain ⟨d, hd⟩ := Option.isSome_iff_exists.mp hd
    simp only [tick, hd, hc, hdue, if_true, enforceRoster, hm, hw]
    rfl

/-- Device 3, just online. -/
def Sample.device : Inner :=
  activate { deviceKey := Sample.key 3, myId := Sample.key 3 } (Sample.stored none) Sample.NET
    Sample.NET

end Nullgate
