/-
  File:      Nullgate/Lib/Newest.lean
  Subject:   STAMPED REGISTERS: the newest entry has the last word, in whatever order they come.

  A register that keeps the stamp of its last write and leaves out what is older. An entry may
  carry no value for it; then it moves the stamp and leaves the value.

  * `Stamped`: the clock, the value, and what each entry writes;
  * `Stamped.run_of_newest`: where the newest entry carries a value, that is the value at the
    end, whatever the order and however often the entries come;
  * `Stamped.orderFree_iff`: and only there, unless no entry carries a value at all.
-/
import Nullgate.Lib.Fold
import Mathlib.Order.Lattice

namespace Nullgate.Lib

variable {σ α β ι : Type*} {step : σ → α → σ} [LinearOrder ι]

/-- A value under a clock. An entry stamped before the clock is left out; another one sets the
    clock, and the value if it carries one. -/
structure Stamped (step : σ → α → σ) (ι β : Type*) [LinearOrder ι] where
  clock : σ → ι
  obs : σ → β
  writes : α → Option (ι × Option β)
  other : ∀ s e, writes e = none → clock (step s e) = clock s ∧ obs (step s e) = obs s
  old : ∀ s e i v, writes e = some (i, v) → i < clock s →
    clock (step s e) = clock s ∧ obs (step s e) = obs s
  new : ∀ s e i v, writes e = some (i, v) → clock s ≤ i →
    clock (step s e) = i ∧ obs (step s e) = v.getD (obs s)

namespace Stamped

variable (R : Stamped step ι β) {s : σ} {l l' : List α} {e : α} {i : ι} {v : Option β}

/-- The entry `e` of `l` writes `v` under the greatest stamp of `l`. -/
structure Newest (l : List α) (e : α) (i : ι) (v : Option β) : Prop where
  mem : e ∈ l
  writes : R.writes e = some (i, v)
  le : ∀ e' ∈ l, ∀ i' v', R.writes e' = some (i', v') → i' ≤ i

/-- The entries of one stamp write the same. -/
def Distinct (l : List α) : Prop :=
  ∀ e ∈ l, ∀ e' ∈ l, ∀ i v v', R.writes e = some (i, v) → R.writes e' = some (i, v') → v = v'

theorem exists_newest (h : ∃ e ∈ l, (R.writes e).isSome) : ∃ e i v, R.Newest l e i v := by
  induction l with
  | nil =>
    obtain ⟨e, he, -⟩ := h
    cases he
  | cons x l ih =>
    by_cases hl : ∃ e ∈ l, (R.writes e).isSome
    · obtain ⟨e, i, v, hn⟩ := ih hl
      cases hx : R.writes x with
      | none =>
        refine ⟨e, i, v, List.mem_cons_of_mem _ hn.mem, hn.writes, fun e' he' i' v' hw => ?_⟩
        rcases List.mem_cons.mp he' with rfl | he'
        · rw [hx] at hw
          cases hw
        · exact hn.le e' he' i' v' hw
      | some w =>
        obtain ⟨j, u⟩ := w
        by_cases hj : j ≤ i
        · refine ⟨e, i, v, List.mem_cons_of_mem _ hn.mem, hn.writes, fun e' he' i' v' hw => ?_⟩
          rcases List.mem_cons.mp he' with rfl | he'
          · rw [hx] at hw
            obtain ⟨rfl, rfl⟩ := Prod.mk.inj (Option.some.inj hw)
            exact hj
          · exact hn.le e' he' i' v' hw
        · refine ⟨x, j, u, List.mem_cons_self, hx, fun e' he' i' v' hw => ?_⟩
          rcases List.mem_cons.mp he' with rfl | he'
          · rw [hx] at hw
            obtain ⟨rfl, rfl⟩ := Prod.mk.inj (Option.some.inj hw)
            exact le_refl _
          · exact (hn.le e' he' i' v' hw).trans (le_of_not_ge hj)
    · obtain ⟨e, he, hsome⟩ := h
      rcases List.mem_cons.mp he with rfl | he
      · obtain ⟨⟨i, v⟩, hw⟩ := Option.isSome_iff_exists.mp hsome
        refine ⟨e, i, v, List.mem_cons_self, hw, fun e' he' i' v' hw' => ?_⟩
        rcases List.mem_cons.mp he' with rfl | he'
        · rw [hw] at hw'
          obtain ⟨rfl, rfl⟩ := Prod.mk.inj (Option.some.inj hw')
          exact le_refl _
        · exact absurd ⟨e', he', by rw [hw']; rfl⟩ hl
      · exact absurd ⟨e, he, hsome⟩ hl

variable {R}

/-- Who is newest depends on the entries alone. -/
theorem Newest.congr (h : R.Newest l e i v) (hl : ∀ e, e ∈ l' ↔ e ∈ l) : R.Newest l' e i v :=
  ⟨(hl e).mpr h.mem, h.writes, fun e' he' => h.le e' ((hl e').mp he')⟩

theorem Distinct.congr (h : R.Distinct l) (hl : ∀ e, e ∈ l' ↔ e ∈ l) : R.Distinct l' :=
  fun e he e' he' => h e ((hl e).mp he) e' ((hl e').mp he')

/-- **The clock does not run past the newest entry.** -/
theorem clock_run_le (hle : ∀ e ∈ l, ∀ i' v', R.writes e = some (i', v') → i' ≤ i)
    (h0 : R.clock s ≤ i) : R.clock (run step s l) ≤ i := by
  refine run_invariant (I := fun s' => R.clock s' ≤ i) (fun s' e he h => ?_) h0
  cases hw : R.writes e with
  | none => rwa [(R.other s' e hw).1]
  | some w =>
    obtain ⟨i', v'⟩ := w
    by_cases hold : i' < R.clock s'
    · rwa [(R.old s' e i' v' hw hold).1]
    · rw [(R.new s' e i' v' hw (le_of_not_gt hold)).1]
      exact hle e he i' v' hw

/-- **Behind the newest entry nothing changes**: the others are older, or write the same. -/
theorem run_behind_newest {b : β} (hle : ∀ e' ∈ l, ∀ i' v', R.writes e' = some (i', v') →
      i' < i ∨ (i' = i ∧ v'.getD b = b)) (hs : R.clock s = i ∧ R.obs s = b) :
    R.clock (run step s l) = i ∧ R.obs (run step s l) = b := by
  refine run_invariant (I := fun s' => R.clock s' = i ∧ R.obs s' = b) (fun s' e he h => ?_) hs
  obtain ⟨hclock, hobs⟩ := h
  cases hw : R.writes e with
  | none =>
    obtain ⟨hc, ho⟩ := R.other s' e hw
    exact ⟨hc.trans hclock, ho.trans hobs⟩
  | some w =>
    obtain ⟨i', v'⟩ := w
    rcases hle e he i' v' hw with hlt | ⟨rfl, hv⟩
    · obtain ⟨hc, ho⟩ := R.old s' e i' v' hw (by rwa [hclock])
      exact ⟨hc.trans hclock, ho.trans hobs⟩
    · obtain ⟨hc, ho⟩ := R.new s' e i' v' hw (le_of_eq hclock)
      rw [hobs, hv] at ho
      exact ⟨hc, ho⟩

/-- The value behind the newest entry, from the state it meets: what comes later leaves it. -/
theorem run_from_newest {pre post : List α} (h : R.Newest (pre ++ e :: post) e i v)
    (hd : R.Distinct (pre ++ e :: post)) (h0 : R.clock s ≤ i) :
    R.clock (run step s (pre ++ e :: post)) = i ∧
      R.obs (run step s (pre ++ e :: post)) = v.getD (R.obs (run step s pre)) := by
  have hpre : R.clock (run step s pre) ≤ i :=
    clock_run_le (fun e' he' => h.le e' (List.mem_append_left _ he')) h0
  have he := R.new (run step s pre) e i v h.writes hpre
  rw [run_append, run_cons]
  refine run_behind_newest (fun e' he' i' v' hw => ?_) he
  have hmem : e' ∈ pre ++ e :: post := List.mem_append_right _ (List.mem_cons_of_mem _ he')
  rcases lt_or_eq_of_le (h.le e' hmem i' v' hw) with hlt | rfl
  · exact Or.inl hlt
  · obtain rfl := hd e' hmem e h.mem i' v' v hw h.writes
    refine Or.inr ⟨rfl, ?_⟩
    cases v' <;> rfl

/-- **The newest entry has the last word**, whatever the order. -/
theorem run_of_newest {b : β} (h : R.Newest l e i (some b)) (hd : R.Distinct l)
    (h0 : R.clock s ≤ i) : R.clock (run step s l) = i ∧ R.obs (run step s l) = b := by
  obtain ⟨pre, post, rfl⟩ := List.append_of_mem h.mem
  exact run_from_newest h hd h0

/-- The clock is the newest stamp, whether or not the entry carries a value. -/
theorem clock_run_of_newest (h : R.Newest l e i v) (hd : R.Distinct l) (h0 : R.clock s ≤ i) :
    R.clock (run step s l) = i := by
  obtain ⟨pre, post, rfl⟩ := List.append_of_mem h.mem
  exact (run_from_newest h hd h0).1

/-- Entries about something else leave the clock. -/
theorem clock_run_of_none (h : ∀ e ∈ l, R.writes e = none) :
    R.clock (run step s l) = R.clock s :=
  run_invariant (I := fun s' => R.clock s' = R.clock s)
    (fun s' e he hs => (R.other s' e (h e he)).1.trans hs) rfl

/-- Entries without a value leave it alone. -/
theorem obs_run_of_none (h : ∀ e ∈ l, ∀ i v, R.writes e = some (i, v) → v = none) :
    R.obs (run step s l) = R.obs s := by
  refine run_invariant (I := fun s' => R.obs s' = R.obs s) (fun s' e he hs => ?_) rfl
  cases hw : R.writes e with
  | none => exact (R.other s' e hw).2.trans hs
  | some w =>
    obtain ⟨i, v⟩ := w
    by_cases hold : i < R.clock s'
    · exact (R.old s' e i v hw hold).2.trans hs
    · have hnew := (R.new s' e i v hw (le_of_not_gt hold)).2
      rw [h e he i v hw, Option.getD_none] at hnew
      exact hnew.trans hs

/-- A value once set is not the first one again, if no entry carries that. -/
theorem obs_run_ne {b : β} (hne : ∀ e ∈ l, ∀ i u, R.writes e = some (i, some u) → u ≠ b)
    (hs : R.obs s ≠ b) : R.obs (run step s l) ≠ b := by
  refine run_invariant (I := fun s' => R.obs s' ≠ b) (fun s' e he h => ?_) hs
  cases hw : R.writes e with
  | none => rwa [(R.other s' e hw).2]
  | some w =>
    obtain ⟨i, v⟩ := w
    by_cases hold : i < R.clock s'
    · rwa [(R.old s' e i v hw hold).2]
    · rw [(R.new s' e i v hw (le_of_not_gt hold)).2]
      cases v with
      | none => exact h
      | some u => exact hne e he i u hw

/-- The clock at the end depends on the entries alone. -/
theorem clock_run_eq_of_mem {l₁ l₂ : List α} (hd : R.Distinct l)
    (h0 : ∀ e ∈ l, ∀ i v, R.writes e = some (i, v) → R.clock s ≤ i)
    (h₁ : ∀ e, e ∈ l₁ ↔ e ∈ l) (h₂ : ∀ e, e ∈ l₂ ↔ e ∈ l) :
    R.clock (run step s l₁) = R.clock (run step s l₂) := by
  by_cases hsome : ∃ e ∈ l, (R.writes e).isSome
  · obtain ⟨e, i, v, hn⟩ := R.exists_newest hsome
    have hstart := h0 e hn.mem i v hn.writes
    rw [clock_run_of_newest (hn.congr h₁) (hd.congr h₁) hstart,
      clock_run_of_newest (hn.congr h₂) (hd.congr h₂) hstart]
  · have hnone : ∀ x ∈ l, R.writes x = none := fun x hx =>
      Option.not_isSome_iff_eq_none.mp fun hs => hsome ⟨x, hx, hs⟩
    rw [clock_run_of_none fun x hx => hnone x ((h₁ x).mp hx),
      clock_run_of_none fun x hx => hnone x ((h₂ x).mp hx)]

/-- The entries of the newest one's value, or of none: the order does not matter, nor how often
    they come. -/
theorem obs_run_eq_of_mem {l₁ l₂ : List α} (hd : R.Distinct l)
    (h0 : ∀ e ∈ l, ∀ i v, R.writes e = some (i, v) → R.clock s ≤ i)
    (h : ∀ e i, R.Newest l e i none → ∀ e' ∈ l, ∀ i' v', R.writes e' = some (i', v') → v' = none)
    (h₁ : ∀ e, e ∈ l₁ ↔ e ∈ l) (h₂ : ∀ e, e ∈ l₂ ↔ e ∈ l) :
    R.obs (run step s l₁) = R.obs (run step s l₂) := by
  by_cases hsome : ∃ e ∈ l, (R.writes e).isSome
  · obtain ⟨e, i, v, hn⟩ := R.exists_newest hsome
    have hstart := h0 e hn.mem i v hn.writes
    cases v with
    | some b =>
      rw [(run_of_newest (hn.congr h₁) (hd.congr h₁) hstart).2,
        (run_of_newest (hn.congr h₂) (hd.congr h₂) hstart).2]
    | none =>
      have hnone := h e i hn
      rw [obs_run_of_none fun x hx => hnone x ((h₁ x).mp hx),
        obs_run_of_none fun x hx => hnone x ((h₂ x).mp hx)]
  · have hnone : ∀ x ∈ l, ∀ i v, R.writes x = some (i, v) → v = none :=
      fun x hx i v hw => absurd ⟨x, hx, by rw [hw]; rfl⟩ hsome
    rw [obs_run_of_none fun x hx => hnone x ((h₁ x).mp hx),
      obs_run_of_none fun x hx => hnone x ((h₂ x).mp hx)]

/-- **When the order does not matter**: exactly where the newest entry carries a value, or no
    entry does. No entry carries the value of the start, which is older than all. -/
theorem orderFree_iff (hd : R.Distinct l)
    (h0 : ∀ e ∈ l, ∀ i v, R.writes e = some (i, v) → R.clock s ≤ i)
    (hne : ∀ e ∈ l, ∀ i u, R.writes e = some (i, some u) → u ≠ R.obs s) :
    (∀ l₁ l₂, l₁.Perm l → l₂.Perm l → R.obs (run step s l₁) = R.obs (run step s l₂)) ↔
      ∀ e i, R.Newest l e i none → ∀ e' ∈ l, ∀ i' v', R.writes e' = some (i', v') → v' = none := by
  constructor
  · intro h e i hn e' he' i' v' hw
    cases v' with
    | none => rfl
    | some u =>
      exfalso
      obtain ⟨pre, post, hl⟩ := List.append_of_mem hn.mem
      obtain ⟨pre', post', hl'⟩ := List.append_of_mem he'
      have hperm : (e :: (pre ++ post)).Perm l := hl ▸ List.perm_middle.symm
      have hperm' : (e' :: (pre' ++ post')).Perm l := hl' ▸ List.perm_middle.symm
      -- the newest entry first: the others come too late
      have hn' : R.Newest ([] ++ e :: (pre ++ post)) e i none := hn.congr fun _ => hperm.mem_iff
      have hfirst : R.obs (run step s (e :: (pre ++ post))) = R.obs s :=
        (run_from_newest hn' (hd.congr fun _ => hperm.mem_iff)
          (h0 e hn.mem i none hn.writes)).2
      -- the entry with the value first: it is never taken back
      have hkept : R.obs (run step s (e' :: (pre' ++ post'))) ≠ R.obs s := by
        rw [run_cons]
        refine obs_run_ne (fun x hx => ?_) ?_
        · exact hne x (hperm'.mem_iff.mp (List.mem_cons_of_mem _ hx))
        · rw [(R.new s e' i' (some u) hw (h0 e' he' i' _ hw)).2]
          exact hne e' he' i' u hw
      exact hkept ((h _ _ hperm' hperm).trans hfirst)
  · intro h l₁ l₂ h₁ h₂
    exact obs_run_eq_of_mem hd h0 h (fun _ => h₁.mem_iff) fun _ => h₂.mem_iff

end Stamped

end Nullgate.Lib
