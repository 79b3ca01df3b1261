/-
  File:      Nullgate/Lib/Wakeup.lean
  Subject:   WAKING ONE WAITER: a notification that is posted while nobody waits is not lost.

  One task waits, and others notify it. A notification wakes the waiter, or is stored as the one
  permit that the next wait takes at once.

  * `Notify` -- the permit, and the waiter; `notifyOne`, `wait`, `resume`, `abandon`;
  * `Pending` -- a notification has been posted and the waiter has not gone on for it;
  * `Notify.Ok` -- no permit is stored while the waiter sleeps; every operation keeps it;
  * `not_pending_of_asleep`: so a waiter that sleeps has been notified of nothing.
-/
import Mathlib.Tactic.TypeStar

namespace Nullgate.Lib

/-- **A notification that is stored, and the one waiter**: whether it has been woken. -/
structure Notify where
  permit : Bool := false
  waiter : Option Bool := none
  deriving DecidableEq

namespace Notify

/-- Wake the waiter, or store a permit. -/
def notifyOne (n : Notify) : Notify :=
  if n.waiter = some false then { n with waiter := some true } else { n with permit := true }

/-- Wait: take the permit, and go on at once, or go to sleep. The second component tells whether the
    caller goes on. -/
def wait (n : Notify) : Notify × Bool :=
  if n.permit then ({ n with permit := false }, true) else ({ n with waiter := some false }, false)

/-- The waiter, once it is woken, goes on. -/
def resume (n : Notify) : Notify := { n with waiter := none }

/-- The waiter gives up waiting. A notification that has woken it is handed back. -/
def abandon (n : Notify) : Notify :=
  { permit := n.permit || n.waiter = some true, waiter := none }

/-- A notification waits to be taken. -/
def Pending (n : Notify) : Prop := n.permit = true ∨ n.waiter = some true

instance decidablePending (n : Notify) : Decidable n.Pending := inferInstanceAs (Decidable (_ ∨ _))

/-- A waiter that sleeps has not slept over a permit. -/
def Ok (n : Notify) : Prop := n.waiter = some false → n.permit = false

variable {n : Notify}

/-- **A notification is pending behind `notifyOne`**, whatever the waiter does. -/
theorem pending_notifyOne (n : Notify) : n.notifyOne.Pending := by
  unfold notifyOne
  split
  · exact Or.inr rfl
  · exact Or.inl rfl

theorem ok_notifyOne (n : Notify) : n.notifyOne.Ok := by
  unfold notifyOne
  split
  · intro hw
    cases hw
  · rename_i hne
    exact fun hw => absurd hw hne

theorem isSome_waiter_notifyOne (n : Notify) :
    n.notifyOne.waiter.isSome = n.waiter.isSome := by
  unfold notifyOne
  split
  · rename_i hw
    rw [hw]
    rfl
  · rfl

/-- A waiter that goes to sleep leaves no permit behind. -/
theorem wait_asleep (h : n.wait.2 = false) :
    n.permit = false ∧ n.wait.1 = { n with waiter := some false } := by
  unfold wait at h ⊢
  cases hp : n.permit with
  | false => exact ⟨rfl, by simp⟩
  | true => simp [hp] at h

theorem wait_through (h : n.wait.2 = true) : n.wait.1 = { n with permit := false } := by
  unfold wait at h ⊢
  cases hp : n.permit with
  | false => simp [hp] at h
  | true => simp

theorem ok_of_awake (h : n.waiter = none) : n.Ok := fun hw => by
  rw [h] at hw
  cases hw

/-- **A waiter that sleeps has been notified of nothing.** -/
theorem not_pending_of_asleep (h : n.Ok) (hw : n.waiter = some false) : ¬ n.Pending := by
  rintro (hp | hwoken)
  · rw [h hw] at hp
    cases hp
  · rw [hw] at hwoken
    cases hwoken

end Notify

end Nullgate.Lib
