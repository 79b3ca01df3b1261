/-
  File:      Nullgate/Relay/Apply.lean
  Subject:   A RELAY EDIT AND ITS APPLIERS (`engine.rs`), interleaved at their awaits.

  `set_relay_settings` awaits nothing: it validates, saves, swaps the settings in memory, raises
  the generation and spawns an applier. The appliers take turns behind a lock; one that a newer
  edit has overtaken returns.

  * `Relays` -- settings, generation and the endpoint's map;
  * `Applier` -- the points `set_relay_settings`, `apply_relay_map` with `settle_home_relay`, and
    `rebind_for_relay_tokens` wait at;
  * `relays` -- the program.
-/
import Nullgate.Lib.Tasks
import Nullgate.Relay.Settings

namespace Nullgate

open Nullgate.Lib

variable {Url : Type} [DecidableEq Url]

/-! ## 1. State and tasks -/

structure Relays (Url : Type) where
  settings : RelaySettings := {}
  /-- `relays.cbor`; no file reads as the default settings -/
  disk : RelaySettings := {}
  /-- what the path selector prefers -/
  preferred : List Url := []
  apply : RelayApply := .applied
  generation : Nat := 0
  /-- `relay_apply_lock` is held -/
  locked : Bool := false
  /-- the map of the live endpoint -/
  map : RelayMap Url := []
  /-- the settings before the last edit; no variable of the source -/
  previous : RelaySettings := {}
  /-- the settings last pushed or bound; no variable of the source -/
  pushed : RelaySettings := {}
  /-- the generation the endpoint was last bound at; no variable of the source -/
  boundAt : Nat := 0
  /-- the edit that last added or changed the token of a URL; no variable of the source -/
  changedAt : Url → Nat := fun _ => 0

/-- The locals of `apply_relay_map`. -/
structure Pass (Url : Type) where
  generation : Nat
  desired : RelayMap Url
  stale : List Url
  attempt : Nat := 1
  stuck : List String := []

/-- **Where a relay task waits.** -/
inductive Applier (Url : Type) where
  /-- `set_relay_settings`: about to begin -/
  | edit (settings : RelaySettings)
  /-- `apply_relay_map`: for the lock -/
  | apply (p : Pass Url)
  /-- in an attempt: before the inserts, then before the removals that are left -/
  | inserting (p : Pass Url) (rest : RelayMap Url)
  | removing (p : Pass Url) (rest : List Url)
  | backoff (p : Pass Url)
  | settling (p : Pass Url)
  /-- `rebind_for_relay_tokens`: for the lock, then in `rebuild_node` before and behind the bind -/
  | rebind (generation : Nat)
  | rebuilding (generation : Nat)
  | rebound (generation : Nat)
  /-- what `set_relay_settings` has returned -/
  | returned (result : Except String Unit)
  | ended (result : Except String Unit)

/-- What a stretch reads from outside. -/
structure RelayAnswers (Url : Type) where
  saved : Except String Unit := .ok ()
  /-- the socket actor answers within the timeout -/
  acked : Bool := true
  /-- the relay the endpoint is connected to -/
  home : Option Url := none
  /-- the settle window is over -/
  deadline : Bool := false
  /-- a fresh node is bound -/
  bound : Except String Unit := .ok ()
  /-- the network is activated on it -/
  activated : Except String Unit := .ok ()

variable (I : Iroh Url)

/-! ## 2. The edit -/

/-- The edit adds or changes the token of `u`. -/
def tokenChanged (old new : RelaySettings) (u : Url) : Bool :=
  (new.token? I u).join.isSome && new.token? I u ≠ old.token? I u

/-- **`set_relay_settings`**: nothing happens if the settings are invalid or cannot be saved. -/
def setRelaySettings (r : Relays Url) (a : RelayAnswers Url) (settings : RelaySettings) :
    Relays Url × Applier Url × List (Applier Url) :=
  match settings.desiredRelayConfigs I with
  | .error e => (r, .returned (.error e), [])
  | .ok desired =>
    match a.saved with
    | .error e => (r, .returned (.error e), [])
    | .ok () =>
      let old := r.settings
      let generation := r.generation + 1
      ({ r with
          settings, disk := settings, apply := .pending, generation, previous := old
          preferred := settings.urls I
          changedAt := fun u =>
            if tokenChanged I old settings u then generation else r.changedAt u },
        .returned (.ok ()),
        [if tokenChangeNeedsRebind I old settings then .rebind generation
          else .apply { generation, desired, stale := staleUrls I old desired }])

/-! ## 3. The appliers -/

def ATTEMPTS : Nat := 3

namespace Relays

variable {I} (r : Relays Url) (a : RelayAnswers Url) (p : Pass Url)

/-- The applier ends, and the next one may have the lock. -/
def release : Relays Url := { r with locked := false }

/-- A newer edit has landed: its applier owns the endpoint. -/
def superseded (generation : Nat) : Bool := r.generation ≠ generation

/-- The actor was stuck in every attempt. -/
def stuckReason : String :=
  let lastStuck := ", ".intercalate p.stuck
  "iroh's socket actor is blocked and never acknowledged the new relay map " ++
    s!"(stuck on: {lastStuck}); restart the daemon to apply it"

/-- Behind an attempt. -/
def endAttempt : Relays Url × Applier Url :=
  if p.stuck.isEmpty then (r, .settling p)
  else if r.superseded p.generation then (r.release, .ended (.ok ()))
  else if p.attempt < ATTEMPTS then (r, .backoff p)
  else
    ({ r.release with apply := .failed (stuckReason p) }, .ended (.error (stuckReason p)))

def settleReason (I : Iroh Url) (home : Url) : String :=
  s!"still using relay {I.display home}, which is no longer configured — iroh keeps a " ++
    "home relay until another one takes over, and none of the configured " ++
    "relays answered. Restart the daemon to leave it."

/-- `settle_home_relay`, one look. -/
def settle (I : Iroh Url) : Relays Url × Applier Url :=
  if r.superseded p.generation then (r.release, .ended (.ok ()))
  else
    match a.home with
    | none => ({ r.release with apply := .applied }, .ended (.ok ()))
    | some home =>
      if home ∈ p.desired.urls then
        ({ r.release with apply := .applied }, .ended (.ok ()))
      else if a.deadline then
        ({ r.release with apply := .failed (settleReason I home) },
          .ended (.error (settleReason I home)))
      else (r, .settling p)

/-- The end of a rebind; a newer edit owns the reported state. -/
def endRebind (generation : Nat) (result : Except String Unit) : Relays Url × Applier Url :=
  let result := result.mapError fun e =>
    s!"rebinding the endpoint for the new relay token failed: {e}; restart the daemon"
  let apply := match result with
    | .ok () => .applied
    | .error reason => .failed reason
  ({ r.release with apply := if r.superseded generation then r.apply else apply },
    .ended result)

/-- A fresh node is bound from `relays.cbor`; settings that do not parse are ignored. -/
def bind (I : Iroh Url) : Relays Url :=
  { r with
    map := (r.disk.desiredRelayConfigs I).toOption.getD I.defaultRelayConfigs
    preferred := r.disk.urls I
    pushed := r.disk
    boundAt := r.generation }

end Relays

/-- A call that the actor does not acknowledge in time is noted. -/
def Pass.noting (p : Pass Url) (a : RelayAnswers Url) (url : Url) : Pass Url :=
  if a.acked then p else { p with stuck := p.stuck ++ [I.display url] }

omit [DecidableEq Url] in
@[simp] theorem Pass.desired_noting {I : Iroh Url} {p : Pass Url} {a : RelayAnswers Url}
    {url : Url} : (p.noting I a url).desired = p.desired := by
  unfold Pass.noting
  split <;> rfl

omit [DecidableEq Url] in
@[simp] theorem Pass.stale_noting {I : Iroh Url} {p : Pass Url} {a : RelayAnswers Url}
    {url : Url} : (p.noting I a url).stale = p.stale := by
  unfold Pass.noting
  split <;> rfl

/-- The settings are valid, and can be saved. -/
def accepts (I : Iroh Url) (a : RelayAnswers Url) (settings : RelaySettings) : Bool :=
  (settings.desiredRelayConfigs I).isOk && a.saved.isOk

/-- **What a relay task does up to its next await.** A call to the endpoint changes the map at
    once, acknowledged or not. -/
def Applier.stretch (r : Relays Url) (a : RelayAnswers Url) :
    Applier Url → Relays Url × Applier Url × List (Applier Url)
  | .edit settings => setRelaySettings I r a settings
  | .apply p =>
    if r.locked then (r, .apply p, [])
    else if r.superseded p.generation then (r, .ended (.ok ()), [])
    else ({ r with locked := true, pushed := r.settings }, .inserting p p.desired, [])
  | .inserting p (c :: rest) =>
    ({ r with map := r.map.insert c }, .inserting (p.noting I a c.url) rest, [])
  | .inserting p [] => (r, .removing p p.stale, [])
  | .removing p (u :: rest) =>
    ({ r with map := r.map.remove u }, .removing (p.noting I a u) rest, [])
  | .removing p [] => ((r.endAttempt p).1, (r.endAttempt p).2, [])
  | .backoff p =>
    (r, .inserting { p with attempt := p.attempt + 1, stuck := [] } p.desired, [])
  | .settling p => ((r.settle a p I).1, (r.settle a p I).2, [])
  | .rebind generation =>
    if r.locked then (r, .rebind generation, [])
    else if r.superseded generation then (r, .ended (.ok ()), [])
    else ({ r with locked := true }, .rebuilding generation, [])
  | .rebuilding generation =>
    match a.bound with
    | .error e =>
      ((r.endRebind generation (.error e)).1, (r.endRebind generation (.error e)).2, [])
    | .ok () => (r.bind I, .rebound generation, [])
  | .rebound generation =>
    ((r.endRebind generation a.activated).1, (r.endRebind generation a.activated).2, [])
  | .returned result => (r, .returned result, [])
  | .ended result => (r, .ended result, [])

def Applier.starts : Applier Url → Bool
  | .edit _ => true
  | _ => false

/-- The device has started with these settings, and its endpoint runs the map they want. -/
def Relays.init (settings : RelaySettings) : Relays Url where
  settings
  disk := settings
  preferred := settings.urls I
  map := settings.desired I
  previous := settings
  pushed := settings

/-- The task has ended. -/
def Applier.isEnded : Applier Url → Bool
  | .returned _ | .ended _ => true
  | _ => false

end Nullgate
