/-
  File:      Nullgate/Lib/Tasks.lean
  Subject:   TASKS OVER A SHARED STATE, interleaved at their awaits.

  A task is the point a piece of asynchronous code stands at, with its locals. One action runs
  one task from there to its next await: the stretch changes the shared state, leaves the task
  at its next point, and may spawn others. Tasks keep their place in the list, so a place
  names a task for good. Actions come in any order.

  * `Program.step_cases`: all that one action can do;
  * `Program.step_iff`: the rule for a property of the state and the tasks, with the exact
    condition on the stretch; `Program.step_shared_iff` is that of the shared state alone;
  * `Program.step_inv`: the rule for an invariant of the shared state together with an
    assertion at each task, which the stretches of the others must not disturb;
  * `Program.step_seenTo`: the rule for what holds of the shared state unless there is a task that
    sees to it;
  * `Program.step_alone`: the rule for a task that runs alone;
  * `countP_stretch`: how many tasks of a kind there are behind a stretch.
-/
import Mathlib.Data.List.Perm.Basic
import Nullgate.Lib.Fold

namespace Nullgate.Lib

variable {σ τ ι ε : Type*}

/-! ## 1. Programs -/

/-- **What the tasks do**: `stretch s i t` is what `t` does up to its next await, where `i` is
    what it reads from outside: the shared state behind it, the point it has reached, and the
    tasks it has spawned. -/
structure Program (σ τ ι ε : Type*) where
  stretch : σ → ι → τ → σ × τ × List τ
  /-- the tasks that may start by themselves -/
  starts : τ → Bool
  /-- what is left of a task that is dropped where it stands, if it can be -/
  drop : τ → Option τ
  /-- what happens outside the tasks -/
  env : σ → ε → σ

/-- The shared state, and where each task stands. -/
structure World (σ τ : Type*) where
  shared : σ
  tasks : List τ := []

inductive Act (τ ι ε : Type*) where
  | go (k : Nat) (i : ι)
  | start (t : τ)
  | drop (k : Nat)
  | env (e : ε)

namespace Program

variable (P : Program σ τ ι ε)

def step (w : World σ τ) : Act τ ι ε → World σ τ
  | .go k i =>
    match w.tasks[k]? with
    | none => w
    | some t =>
      let (s, t', spawned) := P.stretch w.shared i t
      ⟨s, w.tasks.set k t' ++ spawned⟩
  | .start t => if P.starts t then ⟨w.shared, w.tasks ++ [t]⟩ else w
  | .drop k =>
    match w.tasks[k]?.bind P.drop with
    | none => w
    | some t' => ⟨w.shared, w.tasks.set k t'⟩
  | .env e => ⟨P.env w.shared e, w.tasks⟩

variable {P} {w : World σ τ} {a : Act τ ι ε}

theorem step_go {k : Nat} {t : τ} (h : w.tasks[k]? = some t) (i : ι) :
    P.step w (.go k i) =
      ⟨(P.stretch w.shared i t).1,
        w.tasks.set k (P.stretch w.shared i t).2.1 ++ (P.stretch w.shared i t).2.2⟩ := by
  simp [step, h]

variable (P w a) in
/-- **All that one action can do.** It does nothing at a place without a task, and where a task
    may not start or be dropped. -/
theorem step_cases :
    ((∀ k i, a = .go k i → w.tasks[k]? = none) ∧
      (∀ k, a = .drop k → w.tasks[k]?.bind P.drop = none) ∧ P.step w a = w) ∨
    (∃ k i t, a = .go k i ∧ w.tasks[k]? = some t ∧
      P.step w a = ⟨(P.stretch w.shared i t).1,
        w.tasks.set k (P.stretch w.shared i t).2.1 ++ (P.stretch w.shared i t).2.2⟩) ∨
    (∃ t, a = .start t ∧ P.starts t = true ∧ P.step w a = ⟨w.shared, w.tasks ++ [t]⟩) ∨
    (∃ k t t', a = .drop k ∧ w.tasks[k]? = some t ∧ P.drop t = some t' ∧
      P.step w a = ⟨w.shared, w.tasks.set k t'⟩) ∨
    ∃ e, a = .env e ∧ P.step w a = ⟨P.env w.shared e, w.tasks⟩ := by
  cases a with
  | go k i =>
    cases hk : w.tasks[k]? with
    | none => exact Or.inl ⟨fun k' i' h => by cases h; exact hk, nofun, by simp [step, hk]⟩
    | some t => exact Or.inr (Or.inl ⟨k, i, t, rfl, hk, step_go hk i⟩)
  | start t =>
    cases ht : P.starts t with
    | false => exact Or.inl ⟨nofun, nofun, by simp [step, ht]⟩
    | true => exact Or.inr (Or.inr (Or.inl ⟨t, rfl, ht, by simp [step, ht]⟩))
  | drop k =>
    cases hk : w.tasks[k]? with
    | none => exact Or.inl ⟨nofun, fun k' h => by cases h; simp [hk], by simp [step, hk]⟩
    | some t =>
      cases hd : P.drop t with
      | none =>
        exact Or.inl ⟨nofun, fun k' h => by cases h; simp [hk, hd], by simp [step, hk, hd]⟩
      | some t' =>
        exact Or.inr (Or.inr (Or.inr (Or.inl ⟨k, t, t', rfl, hk, hd, by simp [step, hk, hd]⟩)))
  | env e => exact Or.inr (Or.inr (Or.inr (Or.inr ⟨e, rfl, rfl⟩)))

end Program

/-! ## 2. Invariants -/

/-- The shared state satisfies `I`, and each task its assertion `L` in it. -/
structure World.Inv (I : σ → Prop) (L : σ → τ → Prop) (w : World σ τ) : Prop where
  shared : I w.shared
  tasks : ∀ t ∈ w.tasks, L w.shared t

/-- The shared state satisfies `G`, or there is a task that sees to it. -/
def World.SeenTo (G : σ → Prop) (C : τ → Prop) (w : World σ τ) : Prop :=
  G w.shared ∨ ∃ t ∈ w.tasks, C t

/-- A list is what stands at one place, and the rest. -/
theorem mem_iff_eraseIdx {l : List τ} {k : Nat} {t t' : τ} (h : l[k]? = some t) :
    t' ∈ l ↔ t' = t ∨ t' ∈ l.eraseIdx k := by
  rw [List.mem_iff_getElem?, List.mem_eraseIdx_iff_getElem?]
  constructor
  · intro h'
    obtain ⟨i, hi⟩ := h'
    by_cases hik : i = k
    · subst hik
      exact Or.inl (Option.some.inj (hi.symm.trans h))
    · exact Or.inr ⟨i, hik, hi⟩
  · intro h'
    rcases h' with rfl | ⟨i, -, hi⟩
    · exact ⟨k, h⟩
    · exact ⟨i, hi⟩

/-- Who is there when one task has moved on: the others, and the task where it now stands. -/
theorem mem_set_iff {l : List τ} {k : Nat} {t t' t'' : τ} (h : l[k]? = some t) :
    t'' ∈ l.set k t' ↔ t'' = t' ∨ t'' ∈ l.eraseIdx k := by
  have hk : k < l.length := (List.getElem?_eq_some_iff.mp h).1
  have hset : (l.set k t')[k]? = some t' := List.getElem?_set_self hk
  rw [mem_iff_eraseIdx hset, List.eraseIdx_set_eq]

/-- **Who is there behind a stretch**: the other tasks, the task where it ended, and what it
    spawned. -/
theorem mem_stretch_iff {l spawned : List τ} {k : Nat} {t t' t'' : τ} (h : l[k]? = some t) :
    t'' ∈ l.set k t' ++ spawned ↔ t'' = t' ∨ t'' ∈ l.eraseIdx k ∨ t'' ∈ spawned := by
  rw [List.mem_append, mem_set_iff h, or_assoc]

/-- The other tasks stand where they stood. -/
theorem getElem?_stretch_of_ne {l spawned : List τ} {j k : Nat} {t t' : τ} (hjk : j ≠ k)
    (h : l[j]? = some t) : (l.set k t' ++ spawned)[j]? = some t := by
  have hj : j < (l.set k t').length := by
    rw [List.length_set]
    exact (List.getElem?_eq_some_iff.mp h).1
  rw [List.getElem?_append_left hj, List.getElem?_set_ne hjk.symm, h]

/-- The task that ran stands where its stretch left it. -/
theorem getElem?_stretch_self {l spawned : List τ} {k : Nat} {t t' : τ} (h : l[k]? = some t) :
    (l.set k t' ++ spawned)[k]? = some t' := by
  have hk : k < l.length := (List.getElem?_eq_some_iff.mp h).1
  rw [List.getElem?_append_left (by rwa [List.length_set]), List.getElem?_set_self hk]

/-- Who stands at a place when one task has moved on. -/
theorem getElem?_set_cases {l : List τ} {j k : Nat} {t t' : τ} (h : (l.set k t')[j]? = some t) :
    l[j]? = some t ∨ (j = k ∧ t = t') := by
  by_cases hjk : k = j
  · subst hjk
    have hlt := (List.getElem?_eq_some_iff.mp h).1
    rw [List.length_set] at hlt
    rw [List.getElem?_set_self hlt] at h
    exact Or.inr ⟨rfl, (Option.some.inj h).symm⟩
  · rw [List.getElem?_set_ne hjk] at h
    exact Or.inl h

namespace Program

variable {P : Program σ τ ι ε} {w : World σ τ} {a : Act τ ι ε}

/-- **The rule for a property of the shared state and the tasks together.** Where it holds of
    what a stretch leaves exactly under the condition `C`, and no other action loses it, it
    holds behind the action exactly under `C`. The condition is empty where no task runs. -/
theorem step_iff {I : World σ τ → Prop} {C : Prop} (hI : I w)
    (hidle : (∀ k i, a = .go k i → w.tasks[k]? = none) → C)
    (hgo : ∀ k i t, a = .go k i → w.tasks[k]? = some t →
      (I ⟨(P.stretch w.shared i t).1,
        w.tasks.set k (P.stretch w.shared i t).2.1 ++ (P.stretch w.shared i t).2.2⟩ ↔ C))
    (hstart : ∀ t, a = .start t → P.starts t = true → I ⟨w.shared, w.tasks ++ [t]⟩)
    (hdrop : ∀ k t t', a = .drop k → w.tasks[k]? = some t → P.drop t = some t' →
      I ⟨w.shared, w.tasks.set k t'⟩)
    (henv : ∀ e, a = .env e → I ⟨P.env w.shared e, w.tasks⟩) : I (P.step w a) ↔ C := by
  rcases P.step_cases w a with ⟨hnone, -, he⟩ | ⟨k, i, t, rfl, hk, he⟩ | ⟨t, rfl, ht, he⟩ |
    ⟨k, t, t', rfl, hk, hd, he⟩ | ⟨e, rfl, he⟩
  · rw [he]
    exact iff_of_true hI (hidle hnone)
  · rw [he]
    exact hgo k i t rfl hk
  · rw [he]
    exact iff_of_true (hstart t rfl ht) (hidle fun k i ha => by cases ha)
  · rw [he]
    exact iff_of_true (hdrop k t t' rfl hk hd) (hidle fun k i ha => by cases ha)
  · rw [he]
    exact iff_of_true (henv e rfl) (hidle fun k i ha => by cases ha)

/-- **The rule for a property of the shared state.** Where a stretch of a task that is there leaves
    it exactly under the condition `Q`, so does the action that runs it; no other action loses
    it. -/
theorem step_shared_iff_of_mem {I : σ → Prop} {Q : σ → ι → τ → Prop} (hI : I w.shared)
    (hgo : ∀ i, ∀ t ∈ w.tasks, (I (P.stretch w.shared i t).1 ↔ Q w.shared i t))
    (henv : ∀ e, I (P.env w.shared e)) (a : Act τ ι ε) :
    I (P.step w a).shared ↔ ∀ k i, a = .go k i → ∀ t ∈ w.tasks[k]?, Q w.shared i t := by
  refine step_iff (I := fun w => I w.shared) hI (fun hnone k i ha t ht => ?_)
    (fun k i t ha hk => ?_) (fun _ _ _ => hI) (fun _ _ _ _ _ _ => hI) fun e _ => henv e
  · rw [hnone k i ha] at ht
    cases ht
  · refine (hgo i t (List.mem_of_getElem? hk)).trans
      ⟨fun hq k' i' ha' t' ht' => ?_, fun hq => hq k i ha t hk⟩
    cases ha.symm.trans ha'
    obtain rfl := Option.some.inj (hk.symm.trans ht')
    exact hq

/-- The same, where it is so of every task. -/
theorem step_shared_iff {I : σ → Prop} {Q : σ → ι → τ → Prop} (hI : I w.shared)
    (hgo : ∀ i t, I (P.stretch w.shared i t).1 ↔ Q w.shared i t)
    (henv : ∀ e, I (P.env w.shared e)) (a : Act τ ι ε) :
    I (P.step w a).shared ↔ ∀ k i, a = .go k i → ∀ t ∈ w.tasks[k]?, Q w.shared i t :=
  step_shared_iff_of_mem hI (fun i t _ => hgo i t) henv a

/-- What every stretch keeps, every action keeps. -/
theorem step_shared {I : σ → Prop} (hI : I w.shared)
    (hgo : ∀ i t, I (P.stretch w.shared i t).1) (henv : ∀ e, I (P.env w.shared e))
    (a : Act τ ι ε) : I (P.step w a).shared :=
  (step_shared_iff (Q := fun _ _ _ => True) hI (fun i t => iff_of_true (hgo i t) trivial)
    henv a).mpr fun _ _ _ _ _ => trivial

/-- **The rule for an invariant with assertions at the tasks**, where a stretch may rely on
    where the others stand: it keeps the invariant, brings about the assertion where it ends
    and for what it spawns, and disturbs no other. -/
theorem step_inv_others {I : σ → Prop} {L : σ → τ → Prop} (h : w.Inv I L)
    (hgo : ∀ k i t, a = .go k i → w.tasks[k]? = some t →
      I (P.stretch w.shared i t).1 ∧
      L (P.stretch w.shared i t).1 (P.stretch w.shared i t).2.1 ∧
      (∀ t' ∈ (P.stretch w.shared i t).2.2, L (P.stretch w.shared i t).1 t') ∧
      ∀ t' ∈ w.tasks.eraseIdx k, L w.shared t' → L (P.stretch w.shared i t).1 t')
    (hstart : ∀ t, a = .start t → P.starts t = true → L w.shared t)
    (hdrop : ∀ t t', P.drop t = some t' → L w.shared t → L w.shared t')
    (henv : ∀ e, a = .env e → I (P.env w.shared e) ∧
      ∀ t, L w.shared t → L (P.env w.shared e) t) :
    (P.step w a).Inv I L := by
  rcases P.step_cases w a with ⟨-, -, he⟩ | ⟨k, i, t, rfl, hk, he⟩ | ⟨t, rfl, ht, he⟩ |
    ⟨k, t, t', rfl, hk, hd, he⟩ | ⟨e, rfl, he⟩
  · rwa [he]
  · obtain ⟨hI, hnext, hspawned, hothers⟩ := hgo k i t rfl hk
    rw [he]
    refine ⟨hI, fun t' ht' => ?_⟩
    rcases (mem_stretch_iff hk).mp ht' with rfl | ht' | ht'
    · exact hnext
    · exact hothers t' ht' (h.tasks t' (List.mem_of_mem_eraseIdx ht'))
    · exact hspawned t' ht'
  · rw [he]
    refine ⟨h.shared, fun t' ht' => ?_⟩
    rcases List.mem_append.mp ht' with ht' | ht'
    · exact h.tasks t' ht'
    · obtain rfl := List.mem_singleton.mp ht'
      exact hstart t' rfl ht
  · rw [he]
    refine ⟨h.shared, fun t'' ht'' => ?_⟩
    rcases List.mem_or_eq_of_mem_set ht'' with ht'' | rfl
    · exact h.tasks t'' ht''
    · exact hdrop t t'' hd (h.tasks t (List.mem_of_getElem? hk))
  · rw [he]
    obtain ⟨hI, hL⟩ := henv e rfl
    exact ⟨hI, fun t ht => hL t (h.tasks t ht)⟩

/-- The same, where a stretch disturbs nobody wherever the others stand. -/
theorem step_inv {I : σ → Prop} {L : σ → τ → Prop} (h : w.Inv I L)
    (hgo : ∀ k i t, a = .go k i → w.tasks[k]? = some t →
      I (P.stretch w.shared i t).1 ∧
      L (P.stretch w.shared i t).1 (P.stretch w.shared i t).2.1 ∧
      (∀ t' ∈ (P.stretch w.shared i t).2.2, L (P.stretch w.shared i t).1 t') ∧
      ∀ t', L w.shared t' → L (P.stretch w.shared i t).1 t')
    (hstart : ∀ t, a = .start t → P.starts t = true → L w.shared t)
    (hdrop : ∀ t t', P.drop t = some t' → L w.shared t → L w.shared t')
    (henv : ∀ e, a = .env e → I (P.env w.shared e) ∧
      ∀ t, L w.shared t → L (P.env w.shared e) t) :
    (P.step w a).Inv I L := by
  refine step_inv_others h (fun k i t ha hk => ?_) hstart hdrop henv
  obtain ⟨hI, hnext, hspawned, hothers⟩ := hgo k i t ha hk
  exact ⟨hI, hnext, hspawned, fun t' _ => hothers t'⟩

/-- **The rule for what somebody sees to**: a stretch that finds `G`, or is of a task that sees to
    it, leaves `G`, or a task that does. -/
theorem step_seenTo {G : σ → Prop} {C : τ → Prop} (h : w.SeenTo G C)
    (hgo : ∀ k i t, a = .go k i → w.tasks[k]? = some t → G w.shared ∨ C t →
      G (P.stretch w.shared i t).1 ∨ C (P.stretch w.shared i t).2.1 ∨
        ∃ t' ∈ (P.stretch w.shared i t).2.2, C t')
    (hdrop : ∀ t t', P.drop t = some t' → C t → G w.shared ∨ C t')
    (henv : ∀ e, a = .env e → G w.shared → G (P.env w.shared e)) : (P.step w a).SeenTo G C := by
  rcases P.step_cases w a with ⟨-, -, he⟩ | ⟨k, i, t, rfl, hk, he⟩ | ⟨t, rfl, ht, he⟩ |
    ⟨k, t, t', rfl, hk, hd, he⟩ | ⟨e, rfl, he⟩
  · rwa [he]
  · have hrun : G w.shared ∨ C t → (P.step w (.go k i)).SeenTo G C := fun hGC => by
      rw [he]
      rcases hgo k i t rfl hk hGC with hG | hC | ⟨t', ht', hC⟩
      · exact Or.inl hG
      · exact Or.inr ⟨_, (mem_stretch_iff hk).mpr (Or.inl rfl), hC⟩
      · exact Or.inr ⟨t', (mem_stretch_iff hk).mpr (Or.inr (Or.inr ht')), hC⟩
    rcases h with hG | ⟨t₀, ht₀, hC⟩
    · exact hrun (Or.inl hG)
    · rcases (mem_iff_eraseIdx hk).mp ht₀ with rfl | hother
      · exact hrun (Or.inr hC)
      · rw [he]
        exact Or.inr ⟨t₀, (mem_stretch_iff hk).mpr (Or.inr (Or.inl hother)), hC⟩
  · rw [he]
    exact h.imp_right fun ⟨t₀, ht₀, hC⟩ => ⟨t₀, List.mem_append_left _ ht₀, hC⟩
  · rw [he]
    rcases h with hG | ⟨t₀, ht₀, hC⟩
    · exact Or.inl hG
    · rcases (mem_iff_eraseIdx hk).mp ht₀ with rfl | hother
      · exact (hdrop _ _ hd hC).imp_right fun hC' =>
          ⟨t', (mem_set_iff hk).mpr (Or.inl rfl), hC'⟩
      · exact Or.inr ⟨t₀, (mem_set_iff hk).mpr (Or.inr hother), hC⟩
  · rw [he]
    exact h.imp_left (henv e rfl)

end Program

/-! ## 3. One task alone -/

/-- The action concerns the task at place 0, or no task: none starts. -/
def Act.solo : Act τ ι ε → Prop
  | .go k _ | .drop k => k = 0
  | .start _ => False
  | .env _ => True

instance decidableSolo : DecidablePred (Act.solo : Act τ ι ε → Prop)
  | .go k _ | .drop k => inferInstanceAs (Decidable (k = 0))
  | .start _ => isFalse id
  | .env _ => isTrue trivial

/-- There is one task, and it satisfies its assertion. -/
def World.Alone (L : σ → τ → Prop) (w : World σ τ) : Prop := ∃ t, w.tasks = [t] ∧ L w.shared t

namespace Program

variable {P : Program σ τ ι ε} {w : World σ τ} {a : Act τ ι ε}

/-- **All that happens to a task alone**, where it spawns nothing. -/
theorem step_solo {t : τ} (ht : w.tasks = [t]) (ha : a.solo)
    (hnone : ∀ i, (P.stretch w.shared i t).2.2 = []) :
    (a = .drop 0 ∧ P.drop t = none ∧ P.step w a = w) ∨
    (∃ i, a = .go 0 i ∧
      P.step w a = ⟨(P.stretch w.shared i t).1, [(P.stretch w.shared i t).2.1]⟩) ∨
    (∃ t', a = .drop 0 ∧ P.drop t = some t' ∧ P.step w a = ⟨w.shared, [t']⟩) ∨
    ∃ e, a = .env e ∧ P.step w a = ⟨P.env w.shared e, [t]⟩ := by
  have hk : w.tasks[0]? = some t := by rw [ht]; rfl
  cases a with
  | go k i =>
    obtain rfl : k = 0 := ha
    refine Or.inr (Or.inl ⟨i, rfl, ?_⟩)
    rw [step_go hk, hnone, ht]
    rfl
  | start t => exact ha.elim
  | drop k =>
    obtain rfl : k = 0 := ha
    cases hd : P.drop t with
    | none => exact Or.inl ⟨rfl, rfl, by simp [step, hk, hd]⟩
    | some t' => exact Or.inr (Or.inr (Or.inl ⟨t', rfl, rfl, by simp [step, hd, ht]⟩))
  | env e => exact Or.inr (Or.inr (Or.inr ⟨e, rfl, by simp [step, ht]⟩))

/-- **The rule for a task alone**: what its stretches, its drop and the outside keep. -/
theorem step_alone {L : σ → τ → Prop} (h : w.Alone L) (ha : a.solo)
    (hgo : ∀ t i, L w.shared t → (P.stretch w.shared i t).2.2 = [] ∧
      L (P.stretch w.shared i t).1 (P.stretch w.shared i t).2.1)
    (hdrop : ∀ t t', P.drop t = some t' → L w.shared t → L w.shared t')
    (henv : ∀ t e, a = .env e → L w.shared t → L (P.env w.shared e) t) :
    (P.step w a).Alone L := by
  obtain ⟨t, ht, hL⟩ := h
  rcases P.step_solo ht ha fun i => (hgo t i hL).1 with
    ⟨-, -, he⟩ | ⟨i, -, he⟩ | ⟨t', -, hd, he⟩ | ⟨e, hae, he⟩
  · rw [he]
    exact ⟨t, ht, hL⟩
  · rw [he]
    exact ⟨_, rfl, (hgo t i hL).2⟩
  · rw [he]
    exact ⟨t', rfl, hdrop t t' hd hL⟩
  · rw [he]
    exact ⟨t, rfl, henv t e hae hL⟩

end Program

/-! ## 4. Counting the tasks of a kind -/

theorem countP_eraseIdx (p : τ → Bool) {l : List τ} {k : Nat} {t : τ} (h : l[k]? = some t) :
    (l.eraseIdx k).countP p + (if p t then 1 else 0) = l.countP p := by
  obtain ⟨hk, rfl⟩ := List.getElem?_eq_some_iff.mp h
  rw [← (List.getElem_cons_eraseIdx_perm hk).countP_eq p, List.countP_cons]

/-- **How many there are behind a stretch.** -/
theorem countP_stretch (p : τ → Bool) {l : List τ} {k : Nat} {t : τ} (t' : τ) (spawned : List τ)
    (h : l[k]? = some t) :
    (l.set k t' ++ spawned).countP p + (if p t then 1 else 0) =
      l.countP p + (if p t' then 1 else 0) + spawned.countP p := by
  have hk : k < l.length := (List.getElem?_eq_some_iff.mp h).1
  have hset : (l.set k t')[k]? = some t' := List.getElem?_set_self hk
  have hnew := countP_eraseIdx p hset
  have hold := countP_eraseIdx p h
  rw [List.eraseIdx_set_eq] at hnew
  rw [List.countP_append]
  omega

/-- Of a kind there is one of, the others are not. -/
theorem eq_false_of_countP {p : τ → Bool} {l : List τ} {k : Nat} {t t' : τ}
    (h : l[k]? = some t) (ht : p t = true) (hone : l.countP p ≤ 1) (ht' : t' ∈ l.eraseIdx k) :
    p t' = false := by
  have herase := countP_eraseIdx p h
  rw [if_pos ht] at herase
  have hnone : (l.eraseIdx k).countP p = 0 := by omega
  simpa using List.countP_eq_zero.mp hnone t' ht'

end Nullgate.Lib
