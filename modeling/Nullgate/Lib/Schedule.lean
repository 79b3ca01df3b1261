/-
  File:      Nullgate/Lib/Schedule.lean
  Subject:   SCHEDULES: what happens if something happens whenever something can.

  A schedule names the action taken at each time. It is `Live` if it does not wait forever
  where an action could still change the state; which action it takes, and when, is free.

  * `AtRest` -- no action changes the state;
  * `Live.comes_to_rest`: if every action that changes anything uses up some of a measure,
    every live schedule comes to rest;
  * `AtRest.stays`: and from there on nothing happens;
  * `exists_iterate_fixed`: the same for a single party that takes turn after turn;
  * `eventually_of_kept`: what an event brings about and the later steps keep.
-/
import Mathlib.Logic.Function.Iterate
import Mathlib.Order.Filter.AtTopBot.Basic
import Nullgate.Lib.Fold

namespace Nullgate.Lib

variable {σ α : Type*} {step : σ → α → σ} {s : σ} {sched : Nat → α}

/-- The state at time `t`. -/
def upTo (step : σ → α → σ) (s : σ) (sched : Nat → α) : Nat → σ
  | 0 => s
  | t + 1 => step (upTo step s sched t) (sched t)

/-- No action changes the state. -/
def AtRest (step : σ → α → σ) (s : σ) : Prop := ∀ a, step s a = s

/-- **As long as something can happen, something happens.** -/
def Live (step : σ → α → σ) (s : σ) (sched : Nat → α) : Prop :=
  ∀ t, ¬ AtRest step (upTo step s sched t) →
    ∃ t', t ≤ t' ∧ upTo step s sched (t' + 1) ≠ upTo step s sched t'

/-- The state at a time is the one behind the actions before. -/
theorem upTo_eq_run (t : Nat) : upTo step s sched t = run step s ((List.range t).map sched) := by
  induction t with
  | zero => rfl
  | succ t ih =>
    rw [upTo, ih, List.range_succ, List.map_append, run_append]
    rfl

/-- **Rest is for good.** -/
theorem AtRest.stays {t : Nat} (h : AtRest step (upTo step s sched t)) {t' : Nat} (ht : t ≤ t') :
    upTo step s sched t' = upTo step s sched t := by
  induction t' with
  | zero => rw [Nat.le_zero.mp ht]
  | succ t' ih =>
    by_cases heq : t = t' + 1
    · rw [heq]
    · rw [upTo, ih (by omega)]
      exact h _

section Measure

variable {I : σ → Prop} {μ : σ → Nat}

/-- What uses up the measure does not give any of it back. -/
theorem measure_upTo_le (h0 : I s) (hstep : ∀ s a, I s → I (step s a))
    (hμ : ∀ s a, I s → step s a = s ∨ μ (step s a) < μ s) {t t' : Nat} (ht : t ≤ t') :
    I (upTo step s sched t') ∧ μ (upTo step s sched t') ≤ μ (upTo step s sched t) := by
  have hI : ∀ t, I (upTo step s sched t) := fun t => by
    induction t with
    | zero => exact h0
    | succ t ih => exact hstep _ _ ih
  refine ⟨hI t', ?_⟩
  induction t' with
  | zero => exact Nat.le_of_eq (by rw [Nat.le_zero.mp ht])
  | succ t' ih =>
    by_cases heq : t = t' + 1
    · exact Nat.le_of_eq (by rw [heq])
    · refine Nat.le_trans ?_ (ih (by omega))
      rcases hμ _ (sched t') (hI t') with hsame | hless
      · exact Nat.le_of_eq (congrArg μ hsame)
      · exact Nat.le_of_lt hless

/-- **Every live schedule comes to rest.** -/
theorem Live.comes_to_rest (hlive : Live step s sched) (h0 : I s)
    (hstep : ∀ s a, I s → I (step s a))
    (hμ : ∀ s a, I s → step s a = s ∨ μ (step s a) < μ s) :
    ∃ t, AtRest step (upTo step s sched t) := by
  have hall : ∀ n t, μ (upTo step s sched t) = n → ∃ t, AtRest step (upTo step s sched t) := by
    intro n
    induction n using Nat.strongRecOn with
    | ind n ih =>
      intro t ht
      by_cases hrest : AtRest step (upTo step s sched t)
      · exact ⟨t, hrest⟩
      · obtain ⟨t', hle, hne⟩ := hlive t hrest
        obtain ⟨hI, hless⟩ : I (upTo step s sched t') ∧
            μ (upTo step s sched t') ≤ μ (upTo step s sched t) := measure_upTo_le h0 hstep hμ hle
        refine ih _ ?_ (t' + 1) rfl
        have hdrop := (hμ _ (sched t') hI).resolve_left hne
        rw [← ht]
        exact Nat.lt_of_lt_of_le hdrop hless
  exact hall _ 0 rfl

end Measure

/-- **What goes on by itself comes to rest**, where each turn that changes anything uses up some of
    a measure. -/
theorem exists_iterate_fixed {f : σ → σ} (μ : σ → Nat) (h : ∀ s, f s = s ∨ μ (f s) < μ s) (s : σ) :
    ∃ n, f (f^[n] s) = f^[n] s := by
  have hall : ∀ m s, μ s = m → ∃ n, f (f^[n] s) = f^[n] s := by
    intro m
    induction m using Nat.strongRecOn with
    | ind m ih =>
      intro s hs
      rcases h s with hfix | hless
      · exact ⟨0, hfix⟩
      · obtain ⟨n, hn⟩ := ih (μ (f s)) (by omega) (f s) rfl
        exact ⟨n + 1, by rw [Function.iterate_succ_apply]; exact hn⟩
  exact hall _ s rfl

section Events

open Filter

/-- **What an event brings about and the later steps keep** holds at all but finitely many of these
    events. -/
theorem eventually_of_kept {P K : Nat → Prop} (hset : ∀ᶠ n in atTop, K n → P (n + 1))
    (hkeep : ∀ᶠ n in atTop, P n → P (n + 1)) : ∀ᶠ n in atTop, K n → P n := by
  obtain ⟨N, hN⟩ := eventually_atTop.mp (hset.and hkeep)
  by_cases hK : ∃ n, N ≤ n ∧ K n
  · obtain ⟨k, hk, hKk⟩ := hK
    have hall : ∀ n, k + 1 ≤ n → P n := fun n hn => by
      induction n, hn using Nat.le_induction with
      | base => exact (hN k hk).1 hKk
      | succ n hn ih => exact (hN n (by omega)).2 ih
    exact eventually_atTop.mpr ⟨k + 1, fun n hn _ => hall n hn⟩
  · exact eventually_atTop.mpr ⟨N, fun n hn hKn => absurd ⟨n, hn, hKn⟩ hK⟩

end Events

end Nullgate.Lib
