/-
  File:      Nullgate/Lib/Choice.lean
  Subject:   THE LEAST OF A LIST BY A KEY, and staying with what one has.

  A list of candidates with keys is walked once. `leastOf` keeps the first of the least.
  `choose` compares it with the candidate in use, and leaves that one only where a rule
  `switch` says so; a choice is `none` where the one in use stays.

  * `leastOf_eq_some`: it is in the list, and nothing in the list is less;
  * `choose_spec`: what is in use behind a choice is a candidate, and the rule gives no reason
    to leave it for a least one;
  * `choose_stable`: so choosing again changes nothing.
-/
import Mathlib.Order.Lattice
import Nullgate.Lib.Fold

namespace Nullgate.Lib

variable {α κ : Type*} [LinearOrder κ]

/-! ## 1. The least -/

/-- One candidate against the best so far; of two equal ones the first stays. -/
def lesser (best : Option (α × κ)) (x : α × κ) : Option (α × κ) :=
  if best.all fun b => x.2 < b.2 then some x else best

/-- The first of the candidates with the least key. -/
def leastOf (l : List (α × κ)) : Option (α × κ) := run lesser none l

theorem lesser_some (b x : α × κ) : lesser (some b) x = some (if x.2 < b.2 then x else b) := by
  unfold lesser
  by_cases h : x.2 < b.2 <;> simp [h]

theorem leastOf_snoc (l : List (α × κ)) (x : α × κ) :
    leastOf (l ++ [x]) = lesser (leastOf l) x := by
  unfold leastOf
  rw [run_append, run_cons, run_nil]

theorem leastOf_isSome_snoc (l : List (α × κ)) (x : α × κ) : (leastOf (l ++ [x])).isSome := by
  rw [leastOf_snoc]
  cases leastOf l with
  | none => rfl
  | some b => rw [lesser_some]; rfl

/-- There is a least one unless there is none at all. -/
theorem leastOf_eq_none {l : List (α × κ)} : leastOf l = none ↔ l = [] := by
  refine ⟨fun h => ?_, fun h => by rw [h]; rfl⟩
  rcases List.eq_nil_or_concat l with rfl | ⟨l', x, rfl⟩
  · rfl
  · have hsome := leastOf_isSome_snoc l' x
    rw [← List.concat_eq_append, h] at hsome
    cases hsome

/-- **The least one is in the list, and nothing in the list is less.** -/
theorem leastOf_eq_some {l : List (α × κ)} {b : α × κ} (h : leastOf l = some b) :
    b ∈ l ∧ ∀ x ∈ l, b.2 ≤ x.2 := by
  induction l using List.reverseRecOn generalizing b with
  | nil => cases h
  | append_singleton l x ih =>
    rw [leastOf_snoc] at h
    cases hl : leastOf l with
    | none =>
      rw [leastOf_eq_none.mp hl]
      rw [hl] at h
      obtain rfl := Option.some.inj h
      exact ⟨List.mem_singleton_self _, fun y hy => by rw [List.mem_singleton.mp hy]⟩
    | some a =>
      obtain ⟨hmem, hmin⟩ := ih hl
      rw [hl, lesser_some] at h
      obtain rfl := Option.some.inj h
      split
      · rename_i hlt
        refine ⟨by simp, fun y hy => ?_⟩
        rcases List.mem_append.mp hy with hy | hy
        · exact hlt.le.trans (hmin y hy)
        · rw [List.mem_singleton.mp hy]
      · rename_i hge
        refine ⟨List.mem_append_left _ hmem, fun y hy => ?_⟩
        rcases List.mem_append.mp hy with hy | hy
        · exact hmin y hy
        · rw [List.mem_singleton.mp hy]
          exact not_lt.mp hge

/-- The least key does not depend on which of the least candidates is kept. -/
theorem leastOf_unique {l : List (α × κ)} {b x : α × κ} (h : leastOf l = some b) (hx : x ∈ l)
    (hmin : ∀ y ∈ l, x.2 ≤ y.2) : b.2 = x.2 :=
  le_antisymm ((leastOf_eq_some h).2 x hx) (hmin b (leastOf_eq_some h).1)

/-! ## 2. The choice -/

variable [DecidableEq α] (switch : κ → κ → Bool)

/-- The candidates that are the one in use. -/
def inUse (current : Option α) (l : List (α × κ)) : List (α × κ) :=
  l.filter fun x => some x.1 = current

/-- **Leave the one in use for the best** where it is no candidate, or the rule says so of
    their keys. -/
def choose (current : Option α) (l : List (α × κ)) : Option α :=
  match leastOf l with
  | none => none
  | some best =>
    match leastOf (inUse current l) with
    | none => some best.1
    | some cur => if switch cur.2 best.2 then some best.1 else none

/-- What is in use behind a choice. -/
def settle (current : Option α) (l : List (α × κ)) : Option α :=
  (choose switch current l).or current

variable {switch} {current : Option α} {l : List (α × κ)}

omit [LinearOrder κ] in
theorem mem_inUse {a : α} {x : α × κ} : x ∈ inUse (some a) l ↔ x ∈ l ∧ x.1 = a := by
  simp [inUse]

/-- **What is in use behind a choice**, where there are candidates: one of them, with the least
    key `k` it has in the list, and the rule does not leave `k` for the least key of all. -/
theorem choose_spec (current : Option α) (hirrefl : ∀ k, switch k k = false) {best : α × κ}
    (hbest : leastOf l = some best) :
    ∃ a k, settle switch current l = some a ∧ (a, k) ∈ l ∧ (∀ x ∈ l, x.1 = a → k ≤ x.2) ∧
      switch k best.2 = false := by
  obtain ⟨hmem, hmin⟩ := leastOf_eq_some hbest
  have hmove : choose switch current l = some best.1 → ∃ a k, settle switch current l = some a ∧
      (a, k) ∈ l ∧ (∀ x ∈ l, x.1 = a → k ≤ x.2) ∧ switch k best.2 = false := fun h =>
    ⟨best.1, best.2, by rw [settle, h]; rfl, hmem, fun x hx _ => hmin x hx, hirrefl best.2⟩
  cases hcur : leastOf (inUse current l) with
  | none => exact hmove (by simp [choose, hbest, hcur])
  | some cur =>
    cases hs : switch cur.2 best.2 with
    | true => exact hmove (by simp [choose, hbest, hcur, hs])
    | false =>
      -- the one in use stays, with the least key it has
      obtain ⟨hin, hleast⟩ := leastOf_eq_some hcur
      obtain ⟨hcurmem, hname⟩ := List.mem_filter.mp hin
      have hcurrent : current = some cur.1 := (of_decide_eq_true hname).symm
      refine ⟨cur.1, cur.2, ?_, hcurmem, fun x hx he => ?_, hs⟩
      · have hnone : choose switch current l = none := by simp [choose, hbest, hcur, hs]
        rw [settle, hnone, hcurrent]
        rfl
      · refine hleast x ?_
        rw [hcurrent, mem_inUse]
        exact ⟨hx, he⟩

/-- **Choosing again changes nothing.** -/
theorem choose_stable (hirrefl : ∀ k, switch k k = false) :
    choose switch (settle switch current l) l = none := by
  cases hbest : leastOf l with
  | none => simp [choose, hbest]
  | some best =>
    obtain ⟨a, k, ha, hmem, hmin, hstay⟩ := choose_spec current hirrefl hbest
    rw [ha]
    have hin : (a, k) ∈ inUse (some a) l := mem_inUse.mpr ⟨hmem, rfl⟩
    cases hcur : leastOf (inUse (some a) l) with
    | none =>
      rw [leastOf_eq_none.mp hcur] at hin
      cases hin
    | some cur =>
      have hkey : cur.2 = k := leastOf_unique hcur hin fun y hy => by
        obtain ⟨hy, he⟩ := mem_inUse.mp hy
        exact hmin y hy he
      simp [choose, hbest, hcur, hkey, hstay]

end Nullgate.Lib
