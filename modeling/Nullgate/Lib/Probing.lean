/-
  File:      Nullgate/Lib/Probing.lean
  Subject:   SLOTS BY PROBING: whoever comes gets the slot it asks for, or the next free one.

  Requests are served one after the other. Each starts at a slot of its own and goes on to
  the next one as long as the slot it looks at is taken, for `n` tries at most.

  * `seek`, `Passes`, `assign` -- one request, the slots it goes past, and a list of requests;
  * `assign_free`: on a cycle of `n` slots, up to `n` requests get slots of their own;
  * `assign_of_free`: who asks for a free slot gets that one;
  * `assign_insert_eq_iff`: the others keep their slots when one slot is given up, exactly when
    nobody has gone past it.
-/
import Mathlib.Data.Finset.Card
import Mathlib.Data.Fintype.Basic
import Mathlib.Logic.Function.Iterate

namespace Nullgate.Lib

variable {α ι : Type*} [DecidableEq α] {next : α → α} {T : Finset α} {n : Nat} {a b : α}

/-! ## 1. One request -/

/-- The slot that is found from `a`: the first one that is not taken, or where the tries end. -/
def seek (next : α → α) (T : Finset α) : Nat → α → α
  | 0, a => a
  | n + 1, a => if a ∈ T then seek next T n (next a) else a

/-- The slot `b` is taken and looked at, and so is every slot before it. -/
def Passes (next : α → α) (T : Finset α) (n : Nat) (a b : α) : Prop :=
  ∃ j < n, next^[j] a = b ∧ ∀ i ≤ j, next^[i] a ∈ T

instance decidablePasses : Decidable (Passes next T n a b) :=
  inferInstanceAs (Decidable (∃ j < n, next^[j] a = b ∧ ∀ i ≤ j, next^[i] a ∈ T))

theorem seek_of_free (h : a ∉ T) : seek next T n a = a := by
  cases n with
  | zero => rfl
  | succ n => rw [seek, if_neg h]

/-- **Where a request ends**: at the first slot that is free, or behind `n` that are taken. -/
theorem seek_cases (next : α → α) (T : Finset α) (n : Nat) (a : α) :
    (∃ k < n, seek next T n a = next^[k] a ∧ next^[k] a ∉ T) ∨
      (seek next T n a = next^[n] a ∧ ∀ j < n, next^[j] a ∈ T) := by
  induction n generalizing a with
  | zero => exact Or.inr ⟨rfl, fun j hj => absurd hj (Nat.not_lt_zero j)⟩
  | succ n ih =>
    by_cases ha : a ∈ T
    · rw [seek, if_pos ha]
      rcases ih (next a) with ⟨k, hk, he, hfree⟩ | ⟨he, htaken⟩
      · exact Or.inl ⟨k + 1, Nat.succ_lt_succ hk, he, hfree⟩
      · refine Or.inr ⟨he, fun j hj => ?_⟩
        cases j with
        | zero => exact ha
        | succ j => exact htaken j (Nat.lt_of_succ_lt_succ hj)
    · exact Or.inl ⟨0, Nat.succ_pos n, seek_of_free ha, ha⟩

omit [DecidableEq α] in
theorem not_passes_zero : ¬ Passes next T 0 a b := fun h => by
  obtain ⟨j, hj, -⟩ := h
  exact Nat.not_lt_zero j hj

omit [DecidableEq α] in
/-- Which slots a request goes past: its first one, if that is taken, and then those it goes past
    from the next one on. -/
theorem passes_succ :
    Passes next T (n + 1) a b ↔ a ∈ T ∧ (a = b ∨ Passes next T n (next a) b) := by
  constructor
  · intro h
    obtain ⟨j, hj, hb, htaken⟩ := h
    refine ⟨htaken 0 (Nat.zero_le j), ?_⟩
    cases j with
    | zero => exact Or.inl hb
    | succ j =>
      exact Or.inr ⟨j, Nat.lt_of_succ_lt_succ hj, hb, fun i hi =>
        htaken (i + 1) (Nat.succ_le_succ hi)⟩
  · intro h
    obtain ⟨ha, hb⟩ := h
    rcases hb with rfl | ⟨j, hj, hb, htaken⟩
    · exact ⟨0, Nat.succ_pos n, rfl, fun i hi => by rwa [Nat.le_zero.mp hi]⟩
    · refine ⟨j + 1, Nat.succ_lt_succ hj, hb, fun i hi => ?_⟩
      cases i with
      | zero => exact ha
      | succ i => exact htaken i (Nat.le_of_succ_le_succ hi)

/-- **A request that goes past `b` ends there once `b` is free.** -/
theorem seek_of_passes (hb : b ∉ T) (h : Passes next (insert b T) n a b) :
    seek next T n a = b := by
  induction n generalizing a with
  | zero => exact absurd h not_passes_zero
  | succ n ih =>
    obtain ⟨ha, h'⟩ := passes_succ.mp h
    by_cases hab : a = b
    · rw [hab, seek_of_free hb]
    · rw [seek, if_pos (Finset.mem_of_mem_insert_of_ne ha hab)]
      exact ih (h'.resolve_left hab)

/-- **A request that does not go past `b`** does not notice whether `b` is free. -/
theorem seek_of_not_passes (h : ¬ Passes next (insert b T) n a b) :
    seek next (insert b T) n a = seek next T n a := by
  induction n generalizing a with
  | zero => rfl
  | succ n ih =>
    rw [passes_succ, not_and_or, not_or] at h
    rcases h with ha | ⟨hab, hnext⟩
    · rw [seek_of_free ha, seek_of_free fun h => ha (Finset.mem_insert_of_mem h)]
    · rw [seek, seek, ih hnext]
      have hiff : a ∈ insert b T ↔ a ∈ T := by simp [hab]
      simp only [hiff]

/-! ## 2. Requests one after the other -/

/-- **Who gets which slot.** -/
def assign (next : α → α) (n : Nat) : Finset α → List (ι × α) → List (ι × α)
  | _, [] => []
  | T, (i, a) :: l => (i, seek next T n a) :: assign next n (insert (seek next T n a) T) l

/-- What is taken behind the requests `l`. -/
def takenBehind (next : α → α) (n : Nat) : Finset α → List (ι × α) → Finset α
  | T, [] => T
  | T, (_, a) :: l => takenBehind next n (insert (seek next T n a) T) l

variable {l l' : List (ι × α)} {i : ι}

theorem assign_append :
    assign next n T (l ++ l') = assign next n T l ++ assign next n (takenBehind next n T l) l' := by
  induction l generalizing T with
  | nil => rfl
  | cons x l ih =>
    obtain ⟨i, a⟩ := x
    rw [List.cons_append, assign, assign, ih, List.cons_append]
    rfl

theorem takenBehind_append :
    takenBehind next n T (l ++ l') = takenBehind next n (takenBehind next n T l) l' := by
  induction l generalizing T with
  | nil => rfl
  | cons x l ih => exact ih

theorem map_fst_assign : (assign next n T l).map Prod.fst = l.map Prod.fst := by
  induction l generalizing T with
  | nil => rfl
  | cons x l ih =>
    obtain ⟨i, a⟩ := x
    rw [assign, List.map_cons, List.map_cons, ih]

/-- Taken is what was taken before, and what was given out. -/
theorem mem_takenBehind :
    b ∈ takenBehind next n T l ↔ b ∈ T ∨ b ∈ (assign next n T l).map Prod.snd := by
  induction l generalizing T with
  | nil => exact (or_iff_left List.not_mem_nil).symm
  | cons x l ih =>
    obtain ⟨i, a⟩ := x
    rw [takenBehind, ih, assign, List.map_cons, List.mem_cons, Finset.mem_insert]
    tauto

/-- **Who asks for a free slot gets that one.** -/
theorem assign_of_free {pre post : List (ι × α)} (h : a ∉ takenBehind next n T pre) :
    (i, a) ∈ assign next n T (pre ++ (i, a) :: post) := by
  rw [assign_append, assign, seek_of_free h]
  exact List.mem_append_right _ List.mem_cons_self

/-! ## 3. On a cycle -/

/-- **The slots `C` form one cycle** of length `n`. -/
structure Cycle (next : α → α) (n : Nat) (C : Finset α) : Prop where
  card : C.card = n
  closed : ∀ a ∈ C, next a ∈ C
  reaches : ∀ a ∈ C, ∀ b ∈ C, ∃ k < n, next^[k] a = b
  period : ∀ a ∈ C, next^[n] a = a

variable {C : Finset α}

namespace Cycle

omit [DecidableEq α] in
theorem iterate_mem (h : Cycle next n C) (ha : a ∈ C) (k : Nat) : next^[k] a ∈ C := by
  induction k with
  | zero => exact ha
  | succ k ih =>
    rw [Function.iterate_succ_apply']
    exact h.closed _ ih

theorem seek_mem (h : Cycle next n C) (ha : a ∈ C) (T : Finset α) : seek next T n a ∈ C := by
  rcases seek_cases next T n a with ⟨k, -, he, -⟩ | ⟨he, -⟩
  · rw [he]
    exact h.iterate_mem ha k
  · rw [he]
    exact h.iterate_mem ha n

/-- As long as not all slots are taken, a free one is found. -/
theorem seek_free (h : Cycle next n C) (ha : a ∈ C) (hT : T.card < n) :
    seek next T n a ∉ T := by
  rcases seek_cases next T n a with ⟨k, -, he, hfree⟩ | ⟨-, htaken⟩
  · rwa [he]
  · -- every slot of the cycle would be taken
    have hsub : C ⊆ T := fun b hb => by
      obtain ⟨k, hk, rfl⟩ := h.reaches a ha b hb
      exact htaken k hk
    have hcard := Finset.card_le_card hsub
    rw [h.card] at hcard
    exact absurd hcard (not_le.mpr hT)

/-- **Up to as many requests as there are slots get slots of their own.** -/
theorem assign_free (h : Cycle next n C) (hl : ∀ x ∈ l, x.2 ∈ C) (hT : T.card + l.length ≤ n) :
    ((assign next n T l).map Prod.snd).Nodup ∧
      ∀ x ∈ assign next n T l, x.2 ∉ T ∧ x.2 ∈ C := by
  induction l generalizing T with
  | nil => exact ⟨List.nodup_nil, List.forall_mem_nil _⟩
  | cons x l ih =>
    obtain ⟨i, a⟩ := x
    have ha : a ∈ C := hl (i, a) List.mem_cons_self
    rw [List.length_cons] at hT
    have hfree : seek next T n a ∉ T := h.seek_free ha (by omega)
    have hcard : (insert (seek next T n a) T).card + l.length ≤ n := by
      rw [Finset.card_insert_of_notMem hfree]
      omega
    obtain ⟨hnodup, hall⟩ := ih (fun x hx => hl x (List.mem_cons_of_mem _ hx)) hcard
    rw [assign]
    refine ⟨List.nodup_cons.mpr ⟨fun hmem => ?_, hnodup⟩, fun x hx => ?_⟩
    · obtain ⟨x, hx, hslot⟩ := List.mem_map.mp hmem
      exact (hall x hx).1 (hslot ▸ Finset.mem_insert_self _ _)
    · rcases List.mem_cons.mp hx with rfl | hx
      · exact ⟨hfree, h.seek_mem ha T⟩
      · exact ⟨fun hT => (hall x hx).1 (Finset.mem_insert_of_mem hT), (hall x hx).2⟩

/-- A request that does not go past a taken slot does not end at it either. -/
theorem seek_ne (h : Cycle next n C) (ha : a ∈ C) (hn : ¬ Passes next (insert b T) n a b) :
    seek next (insert b T) n a ≠ b := by
  have hpos : 0 < n := by
    rw [← h.card]
    exact Finset.card_pos.mpr ⟨a, ha⟩
  intro he
  rcases seek_cases next (insert b T) n a with ⟨k, -, hk, hfree⟩ | ⟨hend, htaken⟩
  · exact hfree (by rw [← hk, he]; exact Finset.mem_insert_self b T)
  · -- the tries have come round to where they began
    have hab : a = b := by rw [← h.period a ha, ← hend, he]
    exact hn ⟨0, hpos, hab, fun i hi => htaken i (by omega)⟩

/-- **Giving up a slot moves nobody exactly when nobody else depends on it**: whoever goes past
    `b`, while no other has got `b`, ends up at `b` all the same. -/
theorem assign_insert_eq_iff (h : Cycle next n C) (hl : ∀ x ∈ l, x.2 ∈ C) (hb : b ∉ T) :
    assign next n (insert b T) l = assign next n T l ↔
      ∀ pre i a post, l = pre ++ (i, a) :: post →
        b ∉ (assign next n (insert b T) pre).map Prod.snd →
        Passes next (takenBehind next n (insert b T) pre) n a b →
        seek next (takenBehind next n (insert b T) pre) n a = b := by
  induction l generalizing T with
  | nil => exact iff_of_true rfl fun pre i a post hsplit => by simp at hsplit
  | cons x l ih =>
    obtain ⟨i, a⟩ := x
    have ha : a ∈ C := hl (i, a) List.mem_cons_self
    rw [assign, assign, List.cons.injEq]
    by_cases hp : Passes next (insert b T) n a b
    · have hseek : seek next T n a = b := seek_of_passes hb hp
      rw [hseek]
      by_cases hs : seek next (insert b T) n a = b
      · -- from here on the same slots are taken
        rw [hs, Finset.insert_idem]
        refine iff_of_true ⟨rfl, rfl⟩ fun pre i' a' post hsplit hfree hpass => ?_
        cases pre with
        | nil =>
          obtain ⟨hx, -⟩ := List.cons.inj hsplit
          obtain ⟨rfl, rfl⟩ := Prod.mk.inj hx
          exact hs
        | cons y pre =>
          obtain ⟨rfl, -⟩ := List.cons.inj hsplit
          rw [assign, List.map_cons, hs] at hfree
          exact absurd List.mem_cons_self hfree
      · exact iff_of_false (fun he => hs (Prod.mk.inj he.1).2) fun hall =>
          hs (hall [] i a l rfl List.not_mem_nil hp)
    · have hseek : seek next (insert b T) n a = seek next T n a := seek_of_not_passes hp
      have hne : seek next T n a ≠ b := hseek ▸ h.seek_ne ha hp
      have hb' : b ∉ insert (seek next T n a) T := by
        rw [Finset.mem_insert]
        exact not_or.mpr ⟨hne.symm, hb⟩
      rw [hseek, Finset.insert_comm, ih (fun x hx => hl x (List.mem_cons_of_mem _ hx)) hb']
      have hbehind : ∀ pre : List (ι × α), takenBehind next n (insert b T) ((i, a) :: pre) =
          takenBehind next n (insert b (insert (seek next T n a) T)) pre := fun pre => by
        rw [takenBehind, hseek, Finset.insert_comm]
      have hgot : ∀ pre : List (ι × α),
          b ∉ (assign next n (insert b T) ((i, a) :: pre)).map Prod.snd ↔
            b ∉ (assign next n (insert b (insert (seek next T n a) T)) pre).map Prod.snd :=
        fun pre => by
          rw [assign, hseek, Finset.insert_comm, List.map_cons, List.mem_cons, not_or]
          exact and_iff_right hne.symm
      constructor
      · intro hall pre i' a' post hsplit hfree hpass
        cases pre with
        | nil =>
          obtain ⟨hx, -⟩ := List.cons.inj hsplit
          obtain ⟨rfl, rfl⟩ := Prod.mk.inj hx
          exact absurd hpass hp
        | cons y pre =>
          obtain ⟨rfl, hrest⟩ := List.cons.inj hsplit
          rw [hgot] at hfree
          rw [hbehind] at hpass ⊢
          exact hall.2 pre i' a' post hrest hfree hpass
      · intro hall
        refine ⟨rfl, fun pre i' a' post hsplit hfree hpass => ?_⟩
        rw [← hgot] at hfree
        rw [← hbehind] at hpass ⊢
        exact hall ((i, a) :: pre) i' a' post (by rw [hsplit, List.cons_append]) hfree hpass

end Cycle

end Nullgate.Lib
