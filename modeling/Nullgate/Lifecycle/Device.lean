/-
  File:      Nullgate/Lifecycle/Device.lean
  Subject:   A DEVICE THAT JOINS AND LEAVES NETWORKS (`engine.rs`): memory, disk, documents.

  * `Device` -- the device of `Live`, with the roster documents on it, what its health checks
    count, and the history the theorems about it speak of;
  * `saveConfig`, `loadConfig` -- a config on disk: the file, then the two secrets, one write
    after the other, any of which may fail;
  * `commit`, `forget` -- the state behind the async lock is set, or given up;
  * `health`, `recoveryBurst` -- the two lower rungs of the recovery ladder.
-/
import Nullgate.Engine.Publish
import Nullgate.Engine.Runtime

namespace Nullgate

open Nullgate.Lib

/-! ## 1. The device -/

/-- **The device**, with the documents on it. -/
structure Device extends Live where
  /-- what the roster documents hold, by their handles -/
  docs : Doc → List Entry := fun _ => []
  /-- `network.cbor` was cut off by a failed write and does not decode -/
  cborTorn : Bool := false
  unhealthyChecks : UInt32 := 0
  lastRebuild : UInt64 := 0
  lastRecoveryBurst : UInt64 := 0
  /-- `rebuild_lock` is held -/
  rebuilding : Bool := false
  /-- `set_online(false)` has completed, and nothing was called since that goes online; this and
      what follows are no fields of the source -/
  wantsOffline : Bool := false
  /-- how often a network was activated -/
  activations : Nat := 0
  /-- how often a document has changed -/
  edits : Nat := 0
  /-- the newest content whose fold has taken effect, and that of the cached roster -/
  seen : Nat := 0
  rosterAt : Nat := 0

/-- `docs_namespace_seed`, and the handle of the document it opens. -/
def NetworkSecret.doc (C : Crates) (s : NetworkSecret) : Doc :=
  C.verifyingKey (s.derive C "docs-namespace")

/-! ## 2. The config on disk -/

/-- What a config is on disk once all of it is written. -/
def StoredConfig.onDisk (cfg : StoredConfig) : OnDisk where
  networkCbor := some ⟨cfg.name, cfg.subnet, cfg.originatorId⟩
  networkSecret := some cfg.secret.bytes
  originatorSecret := cfg.originatorSecret

/-- **How `save_config` ends**: with all written, or with a write that fails; then what was
    there before is `lost`, or stands as it was. -/
inductive Saving where
  | done
  | configFails (lost : Bool)
  | secretFails (lost : Bool)
  | originatorFails (lost : Bool)
  deriving DecidableEq

namespace Saving

/-- The error of the write that fails. A config without originator secret has none to write. -/
def error? (cfg : StoredConfig) : Saving → Option String
  | .done => none
  | .configFails _ => some "write network config"
  | .secretFails _ => some "write secret file"
  | .originatorFails _ => if cfg.originatorSecret.isSome then some "write secret file" else none

/-- What is then on disk, and whether `network.cbor` is cut off. -/
def leaves (cfg : StoredConfig) (disk : OnDisk) (torn : Bool) : Saving → OnDisk × Bool
  | .done => (cfg.onDisk, false)
  | .configFails lost =>
    (if lost then { disk with networkCbor := none } else disk, torn || lost)
  | .secretFails lost =>
    ({ disk with
        networkCbor := cfg.onDisk.networkCbor
        networkSecret := if lost then none else disk.networkSecret }, false)
  | .originatorFails lost =>
    ({ cfg.onDisk with
        originatorSecret :=
          if cfg.originatorSecret.isSome && !lost then disk.originatorSecret else none }, false)

end Saving

namespace Device

variable (d : Device)

/-- **`save_config`**: the file, the network secret, and the originator's, which is deleted if
    the config has none. -/
def saveConfig (cfg : StoredConfig) (s : Saving) : Except String Unit × Device :=
  (match s.error? cfg with
    | some e => .error e
    | none => .ok (),
    { d with
      disk := (s.leaves cfg d.disk d.cborTorn).1
      cborTorn := (s.leaves cfg d.disk d.cborTorn).2 })

/-- `load_config`, where `readable` is whether the keystore answers. -/
def loadConfig (readable : Bool) : Option StoredConfig :=
  if d.cborTorn || !readable then none
  else
    match d.disk.networkCbor, d.disk.networkSecret with
    | some c, some secret =>
      some ⟨c.name, c.subnet, ⟨secret⟩, c.originatorId, d.disk.originatorSecret⟩
    | _, _ => none

/-! ## 3. Going online, leaving -/

/-- `activate` before its last lock: the next tick folds at once. -/
def arm : Device := { d with lastRosterRebuild := 0, docsDirty := true }

/-- **`activate` commits.** -/
def commit (cfg : StoredConfig) (doc : Doc) (author : AuthorId) : Device :=
  { d with
    config := some cfg
    doc := some doc
    author := some author
    activations := d.activations + 1 }

/-- `soft_disconnect` up to its await. -/
def goOffline : Device := { d with toLive := d.toLive.goOffline }

/-- `soft_disconnect` behind its await. -/
def resetState : Device := { d with toLive := d.toLive.resetState, rosterAt := d.seen }

/-- `teardown` behind `soft_disconnect`. -/
def forget : Device := { d with toLive := d.toLive.forget, cborTorn := false }

/-! ## 4. Documents -/

/-- Entries come into a document. -/
def write (doc : Doc) (entries : List Entry) : Device :=
  { d with
    docs := fun x => if x = doc then d.docs doc ++ entries else d.docs x
    edits := d.edits + 1 }

/-- `publish` behind its lock: document and author. -/
def openDoc : Except String (Doc × AuthorId) :=
  match d.doc, d.author with
  | none, _ => .error "no doc"
  | some _, none => .error "no author"
  | some doc, some author => .ok (doc, author)

/-! ## 5. The health of the node -/

def RECOVERY_BURST_COOLDOWN_MS : UInt64 := 20000

def REBUILD_AFTER_STRIKES : UInt32 := 2

def REBUILD_MIN_SPACING_MS : UInt64 := 600000

/-- `network_changed` behind the hint to iroh: a recovery burst, unless there was one just
    before. -/
def recoveryBurst (now : UInt64) : Device :=
  if saturatingSub now d.lastRecoveryBurst < RECOVERY_BURST_COOLDOWN_MS then d
  else { d with lastRecoveryBurst := now, forceRecover := true }

/-- `health_check` finds nothing wrong, or nothing to check. -/
def healthy : Bool :=
  d.doc.isNone || (otherMembers d.toInner).isEmpty || !d.mesh.conns.isEmpty

/-- A further strike makes a rebuild due. -/
def rebuildDue (now : UInt64) : Bool :=
  REBUILD_AFTER_STRIKES ≤ d.unhealthyChecks + 1 &&
    REBUILD_MIN_SPACING_MS ≤ saturatingSub now d.lastRebuild

end Device

/-- What a `health_check` found and did. -/
inductive HealthAction where
  | healthy
  | burst
  | rebuilt
  /-- the rebuild was attempted and failed -/
  | failed
  deriving DecidableEq

/-! ## 6. Small facts -/

theorem Saving.leaves_of_ok {cfg : StoredConfig} {s : Saving} (h : s.error? cfg = none)
    (disk : OnDisk) (torn : Bool) : s.leaves cfg disk torn = (cfg.onDisk, false) := by
  cases s with
  | done => rfl
  | configFails lost => cases h
  | secretFails lost => cases h
  | originatorFails lost =>
    have ho : cfg.originatorSecret = none := by simpa [error?] using h
    simp [leaves, StoredConfig.onDisk, ho]

namespace Device

variable {d : Device} {cfg : StoredConfig} {s : Saving}

/-- **Saving ends well exactly when all of the config is on disk**, or with an error. -/
theorem saveConfig_cases (d : Device) (cfg : StoredConfig) (s : Saving) :
    (s.error? cfg = none ∧
      d.saveConfig cfg s = (.ok (), { d with cborTorn := false, disk := cfg.onDisk })) ∨
    ∃ e, s.error? cfg = some e ∧ d.saveConfig cfg s =
      (.error e, { d with
        disk := (s.leaves cfg d.disk d.cborTorn).1
        cborTorn := (s.leaves cfg d.disk d.cborTorn).2 }) := by
  unfold saveConfig
  cases he : s.error? cfg with
  | some e => exact Or.inr ⟨e, rfl, rfl⟩
  | none => exact Or.inl ⟨rfl, by rw [Saving.leaves_of_ok he]⟩

/-- A recovery burst sets its two fields. -/
theorem recoveryBurst_eq (d : Device) (now : UInt64) :
    d.recoveryBurst now =
      { d with
        lastRecoveryBurst := (d.recoveryBurst now).lastRecoveryBurst
        forceRecover := (d.recoveryBurst now).forceRecover } := by
  unfold recoveryBurst
  split
  · rfl
  · rfl

end Device

end Nullgate
