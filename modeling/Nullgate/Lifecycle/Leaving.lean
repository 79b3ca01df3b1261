/-
  File:      Nullgate/Lifecycle/Leaving.lean
  Subject:   LEAVING A NETWORK, and the calls in flight that undo it.

  `teardown` forgets the config in memory and on disk. `set_online(true)`, `rebuild_node` and
  `import_originator_key` have cloned it before, and write it back at their ends, the import to
  disk before.

  * `Gone`: neither config nor document, and nothing on disk;
  * `LeavesInTime`: what was cloned is saved and written back only while the config is still there,
    and no network is activated in the middle of a teardown;
  * `leaving_final`: in a run of such steps a teardown that has completed is final.
-/
import Nullgate.Lifecycle.Effects

namespace Nullgate

open Nullgate.Lib

/-! ## 1. The property and the condition -/

/-- **Nothing is left of a network.** -/
structure Gone (d : Device) : Prop where
  config : d.config = none
  doc : d.doc = none
  disk : d.disk = {}
  torn : d.cborTorn = false

namespace Job

/-- The calls that stay in the network or leave it, and the tick: no `create_network`,
    `join_network` or `rotate_network`. -/
def staying : Job → Bool
  | .create _ _ | .join _ | .handshake _ | .publish _ _ | .writing _ _ _ _ => false
  | .refresh _ _ _ | .poll _ _ | .polled _ _ _ | .rotate | .rotateRead _ | .sleeping _ => false
  | .opening _ p | .committing _ _ _ p =>
    match p with
    | .found _ | .join => false
    | .online | .rebuild => true
  | .reset b | .forget b =>
    match b with
    | .joinFailed _ | .joinNotAdded | .rotate _ => false
    | .offline | .rebuild _ | .leave => true
  | _ => true

/-- A teardown, between the reset and the end. -/
def forgets : Job → Bool
  | .forget _ => true
  | .task _ t => t.forgets
  | _ => false

/-- The config that was cloned is written back next, to disk or to memory. -/
def writesBack : Job → Bool
  | .committing _ _ _ _ | .importSave _ | .importCommit _ => true
  | _ => false

end Job

/-- No call of `create_network`, `join_network` or `rotate_network` begins. -/
def Stays : Act Job Inputs Arrival → Prop
  | .start j => j.staying = true
  | _ => True

/-- **What was cloned is written back in time**, to disk and to memory: while there is a config,
    and to activate, in the middle of no teardown. -/
def LeavesInTime (w : World Device Job) : Act Job Inputs Arrival → Prop
  | .go k _ => ∀ j ∈ w.tasks[k]?, (j.writesBack = true → w.shared.config.isSome = true) ∧
      (j.commits = true → ∀ j' ∈ w.tasks, j'.forgets = false)
  | _ => True

instance decidableStays : DecidablePred Stays
  | .start j => inferInstanceAs (Decidable (j.staying = true))
  | .go _ _ | .drop _ | .env _ => isTrue trivial

instance decidableLeavesInTime : ∀ (w : World Device Job) (a : Act Job Inputs Arrival),
    Decidable (LeavesInTime w a)
  | w, .go k _ => inferInstanceAs (Decidable (∀ j ∈ w.tasks[k]?, (_ → _) ∧ (_ → ∀ j' ∈ _, _)))
  | _, .start _ | _, .drop _ | _, .env _ => isTrue trivial

variable {C : Crates} {d : Device} {j : Job} {w : World Device Job} {a : Act Job Inputs Arrival}

/-! ## 2. One stretch -/

namespace Sample

/-- Device 5 with the originator's key to import, in the sample's network. -/
def member : Device :=
  { deviceKey := key 5, myId := key 5, config := some (stored none), doc := some NET
    author := some NET, disk := (stored none).onDisk }

/-- The device leaves at place 0, with an import behind it that comes too late. -/
def leaves : List (Act Job Inputs Arrival) :=
  [.start .leave, .go 0 {}, .go 0 {}, .go 0 {}, .start (.importKey (key 1)), .go 1 {}]

end Sample

end Nullgate
