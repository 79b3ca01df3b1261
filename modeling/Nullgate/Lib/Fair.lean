/-
  File:      Nullgate/Lib/Fair.lean
  Subject:   TASKS UNDER A FAIR SCHEDULE: each of them gets on.

  A task stands where it is until an action runs it, or drops it. Where its place comes up again and
  again, it is run.

  * `Program.getElem?_step`: what an action leaves of a task;
  * **`Program.eventually_runs`**: a task that nothing drops is run, from where it stands.
-/
import Nullgate.Lib.Schedule
import Nullgate.Lib.Tasks

namespace Nullgate.Lib.Program

variable {σ τ ι ε : Type*} {P : Program σ τ ι ε} {w : World σ τ} {sched : Nat → Act τ ι ε}

/-- **An action that does not run a task leaves it where it stands**, unless it drops it. -/
theorem getElem?_step {a : Act τ ι ε} {k : Nat} {t : τ} (hk : w.tasks[k]? = some t)
    (hgo : ∀ i, a ≠ .go k i) (hdrop : a = .drop k → P.drop t = none) :
    (P.step w a).tasks[k]? = some t := by
  have hlt : k < w.tasks.length := (List.getElem?_eq_some_iff.mp hk).1
  rcases P.step_cases w a with ⟨-, -, he⟩ | ⟨j, i, t₀, rfl, hj, he⟩ | ⟨t₀, rfl, -, he⟩ |
    ⟨j, t₀, t', rfl, hj, hd, he⟩ | ⟨e, rfl, he⟩
  · rwa [he]
  · rw [he]
    exact getElem?_stretch_of_ne (fun hkj => hgo i (by rw [hkj])) hk
  · rw [he]
    exact (List.getElem?_append_left hlt).trans hk
  · rw [he]
    by_cases hkj : j = k
    · subst hkj
      obtain rfl := Option.some.inj (hj.symm.trans hk)
      rw [hdrop rfl] at hd
      cases hd
    · exact (List.getElem?_set_ne hkj).trans hk
  · rwa [he]

/-- What an action that runs a task leaves of it. -/
theorem getElem?_step_go {k : Nat} {t : τ} (hk : w.tasks[k]? = some t) (i : ι) :
    (P.step w (.go k i)).tasks[k]? = some (P.stretch w.shared i t).2.1 := by
  rw [step_go hk]
  exact getElem?_stretch_self hk

/-- **A task is run where it stands**, with an answer that moves it on, if such an answer comes up;
    with any other it goes on waiting. -/
theorem eventually_runs {A : ι → Prop} {N k : Nat} {t : τ}
    (hk : (upTo P.step w sched N).tasks[k]? = some t)
    (hdrop : ∀ n, N ≤ n → (upTo P.step w sched n).tasks[k]? = some t → sched n = .drop k →
      P.drop t = none)
    (hwaits : ∀ n i, N ≤ n → (upTo P.step w sched n).tasks[k]? = some t → sched n = .go k i →
      ¬ A i → (P.stretch (upTo P.step w sched n).shared i t).2.1 = t)
    (hgo : ∃ n, N ≤ n ∧ ∃ i, sched n = .go k i ∧ A i) :
    ∃ n i, N ≤ n ∧ sched n = .go k i ∧ A i ∧ (upTo P.step w sched n).tasks[k]? = some t := by
  classical
  obtain ⟨hle, i, hi, hA⟩ := Nat.find_spec hgo
  refine ⟨Nat.find hgo, i, hle, hi, hA, ?_⟩
  have hstands : ∀ n, N ≤ n → n ≤ Nat.find hgo → (upTo P.step w sched n).tasks[k]? = some t := by
    intro n hn
    induction n, hn using Nat.le_induction with
    | base => exact fun _ => hk
    | succ n hn ih =>
      intro hlt
      have hthere := ih (Nat.le_of_succ_le hlt)
      by_cases hrun : ∃ i, sched n = .go k i
      · obtain ⟨i, hi⟩ := hrun
        have hnot : ¬ A i := fun hA => Nat.find_min hgo hlt ⟨hn, i, hi, hA⟩
        show (P.step _ (sched n)).tasks[k]? = _
        rw [hi, getElem?_step_go hthere, hwaits n i hn hthere hi hnot]
      · exact getElem?_step hthere (not_exists.mp hrun) (hdrop n hn hthere)
  exact hstands _ hle (Nat.le_refl _)

/-- The same, where any answer moves it on. -/
theorem eventually_runs_any {N k : Nat} {t : τ}
    (hk : (upTo P.step w sched N).tasks[k]? = some t)
    (hdrop : ∀ n, N ≤ n → (upTo P.step w sched n).tasks[k]? = some t → sched n = .drop k →
      P.drop t = none)
    (hgo : ∃ n, N ≤ n ∧ ∃ i, sched n = .go k i) :
    ∃ n i, N ≤ n ∧ sched n = .go k i ∧ (upTo P.step w sched n).tasks[k]? = some t := by
  obtain ⟨m, hm, i, hi⟩ := hgo
  obtain ⟨n, i, hn, hi, -, hthere⟩ := eventually_runs (A := fun _ => True) hk hdrop
    (fun _ _ _ _ _ hno => absurd trivial hno) ⟨m, hm, i, hi, trivial⟩
  exact ⟨n, i, hn, hi, hthere⟩

end Nullgate.Lib.Program
