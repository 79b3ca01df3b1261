/-
  File:      Nullgate/Lib/Fold.lean
  Subject:   RUNS OF A STEP FUNCTION OVER A LIST: invariants, inert entries, registers.

  A replica computes its state by folding `step` over a list of entries. What such a
  development proves falls into three patterns, stated here once:

  * `run_invariant`: what every step preserves holds at the end of a run;
  * `run_filter_of_inert`: entries that change nothing WHERE THEY LAND may be left out.
    `run_prefixes_iff` says that this is also necessary, when every prefix is compared;
  * `Register`: one observation of the state together with what each entry writes to it.
    The value at the end of a run is the one written last, or the first one
    (`noWrite_or_lastWrite`), so the question whether a value survives is the question
    who writes last (`obs_run_eq_iff`).

  A position in the run of `l` is a split `l = pre ++ e :: post`: the entry `e` meets the
  state `run step s pre`.
-/
import Mathlib.Data.List.Induction

namespace Nullgate.Lib

variable {σ α β : Type*} {step : σ → α → σ}

/-! ## 1. Runs -/

/-- The state after folding `l` from `s`. -/
def run (step : σ → α → σ) (s : σ) (l : List α) : σ := l.foldl step s

@[simp] theorem run_nil (s : σ) : run step s [] = s := rfl

@[simp] theorem run_cons (s : σ) (e : α) (l : List α) :
    run step s (e :: l) = run step (step s e) l := rfl

@[simp] theorem run_append (s : σ) (l l' : List α) :
    run step s (l ++ l') = run step (run step s l) l' := List.foldl_append

/-- **What every step preserves, a run preserves.** -/
theorem run_invariant {I : σ → Prop} {l : List α}
    (hstep : ∀ s, ∀ e ∈ l, I s → I (step s e)) {s : σ} (h0 : I s) : I (run step s l) := by
  induction l generalizing s with
  | nil => exact h0
  | cons e l ih =>
    exact ih (fun s' e' he' => hstep s' e' (List.mem_cons_of_mem _ he'))
      (hstep s e List.mem_cons_self h0)

/-- The positions of a run that is one entry longer: the old ones, and the new last one. -/
theorem split_snoc {l pre post : List α} {x e : α} (h : l ++ [x] = pre ++ e :: post) :
    (l = pre ∧ x = e ∧ post = []) ∨ ∃ post', post = post' ++ [x] ∧ l = pre ++ e :: post' := by
  rcases List.eq_nil_or_concat post with rfl | ⟨post', y, rfl⟩
  · obtain ⟨hl, hx⟩ := List.append_inj' h rfl
    exact Or.inl ⟨hl, List.singleton_inj.mp hx, rfl⟩
  · rw [List.concat_eq_append, ← List.cons_append, ← List.append_assoc] at h
    obtain ⟨hl, hx⟩ := List.append_inj' h rfl
    obtain rfl := List.singleton_inj.mp hx
    exact Or.inr ⟨post', List.concat_eq_append, hl⟩

/-- Two positions of a list are the same, or one stands before the other. -/
theorem split_trichotomy {l pre pre' post post' : List α} {a a' : α}
    (h : l = pre ++ a :: post) (h' : l = pre' ++ a' :: post') :
    (pre = pre' ∧ a = a' ∧ post = post') ∨
      (∃ mid, post = mid ++ a' :: post' ∧ pre' = pre ++ a :: mid) ∨
      ∃ mid, post' = mid ++ a :: post ∧ pre = pre' ++ a' :: mid := by
  rcases List.append_eq_append_iff.mp (h.symm.trans h') with ⟨m, hp, hq⟩ | ⟨m, hp, hq⟩
  · cases m with
    | nil =>
      obtain ⟨rfl, rfl⟩ := List.cons.inj hq
      exact Or.inl ⟨by simpa using hp.symm, rfl, rfl⟩
    | cons x mid =>
      obtain ⟨rfl, hpost⟩ := List.cons.inj hq
      exact Or.inr (Or.inl ⟨mid, hpost, hp⟩)
  · cases m with
    | nil =>
      obtain ⟨rfl, rfl⟩ := List.cons.inj hq
      exact Or.inl ⟨by simpa using hp, rfl, rfl⟩
    | cons x mid =>
      obtain ⟨rfl, hpost⟩ := List.cons.inj hq
      exact Or.inr (Or.inr ⟨mid, hpost, hp⟩)

theorem split_singleton {pre post : List α} {x e : α} (h : [x] = pre ++ e :: post) :
    pre = [] ∧ x = e ∧ post = [] := by
  rcases split_snoc (l := []) h with ⟨hp, hx⟩ | ⟨post', -, h'⟩
  · exact ⟨hp.symm, hx⟩
  · simp at h'

/-- Every entry of the run satisfies `Q` in the state it meets. -/
def EachStep (step : σ → α → σ) (Q : σ → α → Prop) : σ → List α → Prop
  | _, [] => True
  | s, e :: l => Q s e ∧ EachStep step Q (step s e) l

instance decidableEachStep (Q : σ → α → Prop) [∀ s e, Decidable (Q s e)] :
    ∀ s l, Decidable (EachStep step Q s l)
  | _, [] => isTrue trivial
  | s, e :: l =>
    have := decidableEachStep Q (step s e) l
    inferInstanceAs (Decidable (Q s e ∧ EachStep step Q (step s e) l))

/-- The same by the positions of the run. -/
theorem eachStep_iff {Q : σ → α → Prop} {s : σ} {l : List α} :
    EachStep step Q s l ↔ ∀ pre e post, l = pre ++ e :: post → Q (run step s pre) e := by
  induction l generalizing s with
  | nil => exact iff_of_true trivial fun pre e post h => by simp at h
  | cons x l ih =>
    rw [EachStep, ih]
    constructor
    · intro h' pre e post h
      obtain ⟨hx, hl⟩ := h'
      cases pre with
      | nil =>
        obtain ⟨rfl, -⟩ := List.cons.inj h
        exact hx
      | cons y pre =>
        obtain ⟨rfl, hpre⟩ := List.cons.inj h
        exact hl pre e post hpre
    · intro h
      refine ⟨h [] x l rfl, fun pre e post hl => ?_⟩
      exact h (x :: pre) e post (by rw [hl, List.cons_append])

theorem eachStep_append {Q : σ → α → Prop} {s : σ} {l l' : List α} :
    EachStep step Q s (l ++ l') ↔ EachStep step Q s l ∧ EachStep step Q (run step s l) l' := by
  induction l generalizing s with
  | nil => exact ⟨fun h => ⟨trivial, h⟩, fun h => h.2⟩
  | cons e l ih => rw [List.cons_append, EachStep, EachStep, ih, run_cons, and_assoc]

theorem eachStep_true {s : σ} {l : List α} : EachStep step (fun _ _ => True) s l := by
  induction l generalizing s with
  | nil => trivial
  | cons e l ih => exact ⟨trivial, ih⟩

/-- What every entry satisfies, it satisfies where it lands. -/
theorem eachStep_of_forall {D : α → Prop} {s : σ} {l : List α} (hD : ∀ e ∈ l, D e) :
    EachStep step (fun _ e => D e) s l := by
  induction l generalizing s with
  | nil => trivial
  | cons e l ih =>
    exact ⟨hD e List.mem_cons_self, ih fun e' he' => hD e' (List.mem_cons_of_mem _ he')⟩

theorem eachStep_and {D : α → Prop} {Q : σ → α → Prop} {s : σ} {l : List α}
    (hD : ∀ e ∈ l, D e) (h : EachStep step Q s l) :
    EachStep step (fun s e => D e ∧ Q s e) s l := by
  induction l generalizing s with
  | nil => trivial
  | cons e l ih =>
    exact ⟨⟨hD e List.mem_cons_self, h.1⟩,
      ih (fun e' he' => hD e' (List.mem_cons_of_mem _ he')) h.2⟩

/-- Two conditions on the steps of a run, taken together. -/
theorem eachStep_both {Q Q' : σ → α → Prop} {s : σ} {l : List α} (h : EachStep step Q s l)
    (h' : EachStep step Q' s l) : EachStep step (fun s e => Q s e ∧ Q' s e) s l := by
  induction l generalizing s with
  | nil => trivial
  | cons e l ih => exact ⟨⟨h.1, h'.1⟩, ih h.2 h'.2⟩

/-- **An equivalence step by step**, over the runs whose steps satisfy `D`, where `J` is what these
    steps keep. -/
theorem eachStep_congr_of_eachStep {J : σ → Prop} {D Q Q' : σ → α → Prop} {s : σ} {l : List α}
    (hD : EachStep step D s l) (hJ : ∀ s e, J s → D s e → J (step s e))
    (h : ∀ s e, J s → D s e → (Q s e ↔ Q' s e)) (hJ0 : J s) :
    EachStep step Q s l ↔ EachStep step Q' s l := by
  induction l generalizing s with
  | nil => rfl
  | cons e l ih =>
    obtain ⟨hDe, hDl⟩ := hD
    exact and_congr (h s e hJ0 hDe) (ih hDl (hJ s e hJ0 hDe))

/-- The same over all runs. -/
theorem eachStep_congr {I : σ → Prop} {Q Q' : σ → α → Prop} {s : σ} {l : List α} (h0 : I s)
    (hstep : ∀ s e, I s → I (step s e)) (h : ∀ s e, I s → (Q s e ↔ Q' s e)) :
    EachStep step Q s l ↔ EachStep step Q' s l :=
  eachStep_congr_of_eachStep eachStep_true (fun s e hs _ => hstep s e hs)
    (fun s e hs _ => h s e hs) h0

/-- **What no step brings about does not hold at the end**: a property that a step keeps, and
    brings about only where `A` holds, fails at the end of a run exactly when it fails at the
    start and `A` holds at no step. -/
theorem not_run_iff {B : σ → Prop} {A : σ → α → Prop} {s : σ} {l : List α}
    (h : ∀ s e, B (step s e) ↔ B s ∨ A s e) :
    ¬ B (run step s l) ↔ ¬ B s ∧ EachStep step (fun s e => ¬ A s e) s l := by
  induction l generalizing s with
  | nil => simp [EachStep]
  | cons e l ih => rw [run_cons, ih, h, not_or, EachStep, and_assoc]

/-- **What holds at the end held at the start or was brought about**: a property that a step
    brings about only where `A` holds. -/
theorem run_brought {B : σ → Prop} {A : σ → α → Prop} {s : σ} {l : List α}
    (h : ∀ s e, B (step s e) → B s ∨ A s e) (hrun : B (run step s l)) :
    B s ∨ ∃ pre e post, l = pre ++ e :: post ∧ A (run step s pre) e := by
  induction l generalizing s with
  | nil => exact Or.inl hrun
  | cons e l ih =>
    rcases ih hrun with hs | ⟨pre, e', post, hl, ha⟩
    · rcases h s e hs with hs | ha
      · exact Or.inl hs
      · exact Or.inr ⟨[], e, l, rfl, ha⟩
    · exact Or.inr ⟨e :: pre, e', post, by rw [hl, List.cons_append], ha⟩

/-- What a step keeps where it satisfies `Q` holds at the end of a run whose steps do. -/
theorem run_invariant_of_eachStep {I : σ → Prop} {Q : σ → α → Prop} {s : σ} {l : List α}
    (hstep : ∀ s e, I s → Q s e → I (step s e)) (h0 : I s) (hQ : EachStep step Q s l) :
    I (run step s l) := by
  induction l generalizing s with
  | nil => exact h0
  | cons e l ih => exact ih (hstep s e h0 hQ.1) hQ.2

/-- **The rule for runs under a condition**: what the steps that satisfy `D` keep, and what such
    a step satisfies where that holds, each step satisfies of a run whose steps satisfy `D`. -/
theorem eachStep_of_invariant {J : σ → Prop} {D Q : σ → α → Prop} {s : σ} {l : List α} (hJ0 : J s)
    (hJ : ∀ s e, J s → D s e → J (step s e)) (hQ : ∀ s e, J s → D s e → Q s e)
    (hD : EachStep step D s l) : EachStep step Q s l := by
  induction l generalizing s with
  | nil => trivial
  | cons e l ih =>
    obtain ⟨hDe, hDl⟩ := hD
    exact ⟨hQ s e hJ0 hDe, ih (hJ s e hJ0 hDe) hDl⟩

/-- `I` holds in every state of the run. -/
def Throughout (step : σ → α → σ) (I : σ → Prop) (s : σ) (l : List α) : Prop :=
  ∀ pre post, l = pre ++ post → I (run step s pre)

/-- **An exact condition, step by step**, over the runs whose steps satisfy `D`: where such a
    step keeps `I` exactly when it satisfies `Q`, `I` holds throughout the run exactly when each
    step satisfies `Q`. `J` is what these steps keep. -/
theorem throughout_iff_of_eachStep {I J : σ → Prop} {D Q : σ → α → Prop} {s : σ} {l : List α}
    (hD : EachStep step D s l) (hJ : ∀ s e, J s → D s e → J (step s e))
    (h : ∀ s e, J s → D s e → I s → (I (step s e) ↔ Q s e)) (hJ0 : J s) (h0 : I s) :
    Throughout step I s l ↔ EachStep step Q s l := by
  induction l generalizing s with
  | nil =>
    refine iff_of_true (fun pre post hl => ?_) trivial
    obtain ⟨rfl, -⟩ := List.append_eq_nil_iff.mp hl.symm
    exact h0
  | cons e l ih =>
    obtain ⟨hDe, hDl⟩ := hD
    have hhead := h s e hJ0 hDe h0
    constructor
    · intro ht
      have he : I (step s e) := ht [e] l rfl
      refine ⟨hhead.mp he, (ih hDl (hJ s e hJ0 hDe) he).mp fun pre post hl => ?_⟩
      exact ht (e :: pre) post (by rw [hl, List.cons_append])
    · intro hQ pre post hl
      cases pre with
      | nil => exact h0
      | cons x pre =>
        obtain ⟨rfl, hrest⟩ := List.cons.inj hl
        exact (ih hDl (hJ s e hJ0 hDe) (hhead.mpr hQ.1)).mpr hQ.2 pre post hrest

/-- The same over all runs. -/
theorem throughout_iff {I J : σ → Prop} {Q : σ → α → Prop} {s : σ} {l : List α}
    (hJ : ∀ s e, J s → J (step s e)) (h : ∀ s e, J s → I s → (I (step s e) ↔ Q s e))
    (hJ0 : J s) (h0 : I s) : Throughout step I s l ↔ EachStep step Q s l :=
  throughout_iff_of_eachStep eachStep_true (fun s e hs _ => hJ s e hs)
    (fun s e hs _ => h s e hs) hJ0 h0

/-- What such steps keep holds at the end of the run. -/
theorem throughout_end {I : σ → Prop} {s : σ} {l : List α} (h : Throughout step I s l) :
    I (run step s l) := h l [] (List.append_nil l).symm

/-! ## 2. Inert entries -/

/-- **Entries that change nothing where they land may be left out.** `keep` says which
    entries stay; the state each dropped one meets is the state of the kept ones before it. -/
theorem run_filter_of_inert (keep : α → Bool) {l : List α} {s : σ}
    (h : ∀ pre e post, l = pre ++ e :: post → keep e = false →
      step (run step s (pre.filter keep)) e = run step s (pre.filter keep)) :
    run step s l = run step s (l.filter keep) := by
  induction l generalizing s with
  | nil => rfl
  | cons e l ih =>
    -- the state after `e` is the one the kept prefix reaches, whether `e` stays or goes
    have hhead : run step s [e] = run step s ([e].filter keep) := by
      cases he : keep e with
      | true => simp [he]
      | false => simpa [he] using h [] e l rfl he
    have htail := ih (s := run step s [e]) fun pre e' post hl he' => by
      have h' := h (e :: pre) e' post (by rw [hl, List.cons_append]) he'
      rw [← List.singleton_append, List.filter_append, run_append, ← hhead] at h'
      exact h'
    rw [← List.singleton_append, List.filter_append, run_append, run_append, htail, ← hhead]

/-- **Leaving the dropped entries out is invisible at every prefix exactly when each of
    them is inert where it lands.** -/
theorem run_prefixes_iff (keep : α → Bool) {l : List α} {s : σ} :
    (∀ pre post, l = pre ++ post → run step s pre = run step s (pre.filter keep)) ↔
      ∀ pre e post, l = pre ++ e :: post → keep e = false →
        step (run step s (pre.filter keep)) e = run step s (pre.filter keep) := by
  constructor
  · intro h pre e post hl he
    have h1 := h pre (e :: post) hl
    have h2 := h (pre ++ [e]) post (by rw [hl, List.append_assoc]; rfl)
    rw [run_append, List.filter_append, List.filter_cons_of_neg (by simp [he]), List.filter_nil,
      List.append_nil, h1] at h2
    exact h2
  · rintro h pre post rfl
    refine run_filter_of_inert keep fun pre' e post' hl he => h pre' e (post' ++ post) ?_ he
    rw [hl, List.append_assoc, List.cons_append]

/-! ## 3. Registers -/

/-- An observation of the state, with what an entry writes to it in the state it meets
    (`none`: it leaves the value alone). -/
structure Register (step : σ → α → σ) (β : Type*) where
  obs : σ → β
  writes : σ → α → Option β
  law : ∀ s e, obs (step s e) = (writes s e).getD (obs s)

namespace Register

variable (R : Register step β) {s : σ} {l : List α}

/-- No entry of `l`, folded from `s`, writes the register. -/
def NoWrite (s : σ) (l : List α) : Prop :=
  ∀ pre e post, l = pre ++ e :: post → R.writes (run step s pre) e = none

/-- The entry `e`, folded after `pre`, is the last of the run to write, and it writes `v`. -/
structure LastWriteAt (s : σ) (l pre : List α) (e : α) (post : List α) (v : β) : Prop where
  split : l = pre ++ e :: post
  writes : R.writes (run step s pre) e = some v
  quiet : R.NoWrite (run step s (pre ++ [e])) post

/-- The last value written in the run of `l` from `s` is `v`. -/
def LastWrite (s : σ) (l : List α) (v : β) : Prop :=
  ∃ pre e post, R.LastWriteAt s l pre e post v

theorem noWrite_nil : R.NoWrite s [] := fun pre e post h => by simp at h

/-- A quiet run followed by an entry that does not write is quiet. -/
theorem NoWrite.snoc {e : α} (h : R.NoWrite s l) (he : R.writes (run step s l) e = none) :
    R.NoWrite s (l ++ [e]) := by
  intro pre e' post hl
  rcases split_snoc hl with ⟨rfl, rfl, -⟩ | ⟨post', -, hl'⟩
  · exact he
  · exact h pre e' post' hl'

theorem LastWriteAt.snoc {pre post : List α} {e e' : α} {v : β}
    (h : R.LastWriteAt s l pre e post v) (he : R.writes (run step s l) e' = none) :
    R.LastWriteAt s (l ++ [e']) pre e (post ++ [e']) v where
  split := by rw [h.split, List.append_assoc, List.cons_append]
  writes := h.writes
  quiet := h.quiet.snoc R <| by
    rw [← run_append, List.append_assoc, List.singleton_append, ← h.split]
    exact he

theorem lastWriteAt_snoc {e : α} {v : β} (he : R.writes (run step s l) e = some v) :
    R.LastWriteAt s (l ++ [e]) l e [] v := ⟨rfl, he, R.noWrite_nil⟩

/-- **A run either leaves the register alone or has a last write.** -/
theorem noWrite_or_lastWrite (s : σ) (l : List α) :
    R.NoWrite s l ∨ ∃ v, R.LastWrite s l v := by
  induction l using List.reverseRecOn with
  | nil => exact Or.inl R.noWrite_nil
  | append_singleton l e ih =>
    cases he : R.writes (run step s l) e with
    | some v => exact Or.inr ⟨v, l, e, [], R.lastWriteAt_snoc he⟩
    | none =>
      rcases ih with h | ⟨v, pre, e', post, h⟩
      · exact Or.inl (h.snoc R he)
      · exact Or.inr ⟨v, pre, e', post ++ [e], h.snoc R he⟩

/-- A quiet run keeps the value. -/
theorem obs_of_noWrite (h : R.NoWrite s l) : R.obs (run step s l) = R.obs s := by
  induction l generalizing s with
  | nil => rfl
  | cons e l ih =>
    have he : R.writes s e = none := h [] e l rfl
    have hl : R.NoWrite (step s e) l := fun pre e' post hp => h (e :: pre) e' post (by rw [hp]; rfl)
    rw [run_cons, ih hl, R.law, he, Option.getD_none]

/-- **The last write decides the value.** -/
theorem obs_of_lastWrite {v : β} (h : R.LastWrite s l v) : R.obs (run step s l) = v := by
  obtain ⟨pre, e, post, hsplit, hw, hq⟩ := h
  have hl : l = (pre ++ [e]) ++ post := by rw [hsplit, List.append_assoc]; rfl
  rw [hl, run_append, R.obs_of_noWrite hq, run_append, run_cons, run_nil, R.law, hw,
    Option.getD_some]

/-- **A value survives a run exactly when the last write, if there is one, writes it.** -/
theorem obs_run_eq_iff {v : β} (h0 : R.obs s = v) :
    R.obs (run step s l) = v ↔ ∀ w, R.LastWrite s l w → w = v := by
  constructor
  · intro h w hw
    rw [← R.obs_of_lastWrite hw, h]
  · intro h
    rcases R.noWrite_or_lastWrite s l with hn | ⟨w, hw⟩
    · rw [R.obs_of_noWrite hn, h0]
    · rw [R.obs_of_lastWrite hw, h w hw]

/-- A value other than the first one was written, and written last. -/
theorem lastWrite_of_ne {v : β} (h : R.obs (run step s l) = v) (h0 : R.obs s ≠ v) :
    R.LastWrite s l v := by
  rcases R.noWrite_or_lastWrite s l with hn | ⟨w, hw⟩
  · exact absurd (R.obs_of_noWrite hn ▸ h) h0
  · rw [← h, R.obs_of_lastWrite hw]
    exact hw

end Register

end Nullgate.Lib
