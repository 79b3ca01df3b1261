/-
  File:      Nullgate/Lib/Landing.lean
  Subject:   WHERE AN ENTRY LANDS IN THE RUN OF A STRICTLY RISING LIST.

  The folded list rises strictly in its sort key, so a position of the run is given by the
  entry alone: the entry `e` meets the state behind the entries of smaller key (`landing`).
  What registers hold at the end of a run can then be said without splitting the list:

  * `obs_run_eq_iff_exists`: a value that is not the first one is there exactly when some
    entry writes it where it lands and none behind it writes;
  * `good_run_iff`: what an entry has made of the register stays good exactly when the last
    entry to write behind it, if there is one, writes something good.
-/
import Nullgate.Lib.Canonical
import Nullgate.Lib.Fold

namespace Nullgate.Lib

variable {σ α β κ : Type*} [LinearOrder κ] {step : σ → α → σ} {key : α → κ} {s : σ} {l : List α}

/-- The state the entry `e` meets in the run of `l` from `s`. -/
def landing (step : σ → α → σ) (key : α → κ) (s : σ) (l : List α) (e : α) : σ :=
  run step s (l.filter fun a => decide (key a < key e))

theorem landing_of_split {pre post : List α} {e : α} (h : StrictBy key l)
    (hl : l = pre ++ e :: post) : landing step key s l e = run step s pre := by
  have hs : StrictBy key (pre ++ e :: post) := hl ▸ h
  have hpre : l.filter (fun a => decide (key a < key e)) = pre := by
    refine (h.filter _).ext (StrictBy.append_iff.mp hs).1 fun a => ?_
    rw [List.mem_filter, decide_eq_true_eq, hs.mem_before, hl]
  rw [landing, hpre]

namespace Register

variable (R : Register step β)

/-- No entry of `l` behind `e` writes the register. -/
def QuietBehind (key : α → κ) (s : σ) (l : List α) (e : α) : Prop :=
  ∀ q ∈ l, key e < key q → R.writes (landing step key s l q) q = none

/-- Quiet behind an entry is what the rest of the run is. -/
theorem noWrite_iff_quietBehind {pre post : List α} {e : α} (h : StrictBy key l)
    (hl : l = pre ++ e :: post) :
    R.NoWrite (run step s (pre ++ [e])) post ↔ R.QuietBehind key s l e := by
  have hs : StrictBy key (pre ++ e :: post) := hl ▸ h
  -- an entry behind `e` lands behind `pre`, `e` and what stands between
  have hland : ∀ mid q post', post = mid ++ q :: post' →
      landing step key s l q = run step (run step s (pre ++ [e])) mid := by
    intro mid q post' hp
    have hq : l = (pre ++ e :: mid) ++ q :: post' := by rw [hl, hp]; simp
    rw [landing_of_split h hq]
    simp
  constructor
  · intro hn q hq hlt
    obtain ⟨mid, post', hp⟩ := List.append_of_mem (hs.mem_after.mpr ⟨hl ▸ hq, hlt⟩)
    rw [hland mid q post' hp]
    exact hn mid q post' hp
  · intro hq mid q post' hp
    have hmem : q ∈ post := by
      rw [hp]
      exact List.mem_append_right _ List.mem_cons_self
    obtain ⟨hql, hlt⟩ := hs.mem_after.mp hmem
    rw [← hland mid q post' hp]
    exact hq q (hl ▸ hql) hlt

/-- The last write of a run, said without splitting the list. -/
theorem lastWrite_iff {v : β} (h : StrictBy key l) :
    R.LastWrite s l v ↔
      ∃ a ∈ l, R.writes (landing step key s l a) a = some v ∧ R.QuietBehind key s l a := by
  constructor
  · intro h'
    obtain ⟨pre, a, post, hw⟩ := h'
    refine ⟨a, ?_, ?_, (R.noWrite_iff_quietBehind h hw.split).mp hw.quiet⟩
    · rw [hw.split]
      exact List.mem_append_right _ List.mem_cons_self
    · rw [landing_of_split h hw.split]
      exact hw.writes
  · intro h'
    obtain ⟨a, ha, hw, hq⟩ := h'
    obtain ⟨pre, post, hl⟩ := List.append_of_mem ha
    rw [landing_of_split h hl] at hw
    exact ⟨pre, a, post, hl, hw, (R.noWrite_iff_quietBehind h hl).mpr hq⟩

/-- **A value other than the first one is there at the end** exactly when some entry writes
    it where it lands, and no entry behind it writes. -/
theorem obs_run_eq_iff_exists {v : β} (h : StrictBy key l) (h0 : R.obs s ≠ v) :
    R.obs (run step s l) = v ↔
      ∃ a ∈ l, R.writes (landing step key s l a) a = some v ∧ R.QuietBehind key s l a := by
  rw [← R.lastWrite_iff h]
  exact ⟨fun hv => R.lastWrite_of_ne hv h0, fun hw => R.obs_of_lastWrite hw⟩

/-- The last entry of `l` to write the register behind `a`, if there is one, writes
    something good. -/
def GoodBehind (key : α → κ) (s : σ) (l : List α) (a : α) (good : β → Prop) : Prop :=
  ∀ r ∈ l, key a < key r → ∀ w, R.writes (landing step key s l r) r = some w →
    R.QuietBehind key s l r → good w

/-- **What an entry has made of the register stays good** exactly when the last entry to
    write behind it, if there is one, writes something good. -/
theorem good_run_iff (good : β → Prop) {a : α} (h : StrictBy key l) (ha : a ∈ l)
    (h0 : good (R.obs (step (landing step key s l a) a))) :
    good (R.obs (run step s l)) ↔ R.GoodBehind key s l a good := by
  obtain ⟨pre, post, hl⟩ := List.append_of_mem ha
  have hs : StrictBy key (pre ++ a :: post) := hl ▸ h
  rw [landing_of_split h hl] at h0
  constructor
  · intro hg r hr _ w hw hq
    rwa [R.obs_of_lastWrite ((R.lastWrite_iff h).mpr ⟨r, hr, hw, hq⟩)] at hg
  · intro hall
    have hrun : run step s l = run step (run step s (pre ++ [a])) post := by
      rw [← run_append, List.append_assoc, List.singleton_append, ← hl]
    rcases R.noWrite_or_lastWrite (run step s (pre ++ [a])) post with hn | ⟨w, hw⟩
    · rw [hrun, R.obs_of_noWrite hn]
      simpa using h0
    · rw [hrun, R.obs_of_lastWrite hw]
      obtain ⟨mid, r, post', hsplit, hwr, hquiet⟩ := hw
      have hlr : l = (pre ++ a :: mid) ++ r :: post' := by rw [hl, hsplit]; simp
      have hr : r ∈ post := by
        rw [hsplit]
        exact List.mem_append_right _ List.mem_cons_self
      obtain ⟨hrl, hlt⟩ := hs.mem_after.mp hr
      refine hall r (hl ▸ hrl) hlt w ?_ ((R.noWrite_iff_quietBehind h hlr).mp ?_)
      · rw [landing_of_split h hlr]
        simpa using hwr
      · simpa using hquiet

/-- The same for an entry that writes something good where it lands. -/
theorem good_run_iff_of_writes (good : β → Prop) {a : α} {v : β} (h : StrictBy key l) (ha : a ∈ l)
    (hw : R.writes (landing step key s l a) a = some v) (hv : good v) :
    good (R.obs (run step s l)) ↔ R.GoodBehind key s l a good := by
  refine R.good_run_iff good h ha ?_
  rw [R.law, hw, Option.getD_some]
  exact hv

end Register

end Nullgate.Lib
