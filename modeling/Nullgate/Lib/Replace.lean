/-
  File:      Nullgate/Lib/Replace.lean
  Subject:   REPLACING PATTERNS IN A TEXT, one after the other or all in one pass.

  A rule is a pattern and what is put in its place. `replaceAll` replaces the patterns one after
  the other, so a later one also finds what an earlier one has put in; `substitute` goes through
  the text once and does not look at what it puts in.

  * `substitute`, `replaceAll`, `count` -- the two ways, and how often a pattern occurs;
  * `Opened`: a pattern that begins with the opening sign and has no other. At an opening sign a
    text may be cut (`substitute_cut`, `count_cut`);
  * `replace_substitute`: the step from the rules done to one more;
  * **`verbatim_iff`**: one after the other is one pass, and replaces nothing else, exactly if
    what is put in makes no new pattern.
-/
import Mathlib.Data.List.Basic
import Mathlib.Data.List.Infix

namespace Nullgate.Lib

variable {α : Type*} [DecidableEq α]

/-! ## 1. Replacing -/

/-- The first rule whose pattern the text begins with. -/
def ruleAt (rules : List (List α × List α)) (s : List α) : Option (List α × List α) :=
  rules.find? fun r => r.1.isPrefixOf s

/-- One pass; the next `skip` signs belong to a pattern already replaced. -/
def substituteAux (rules : List (List α × List α)) : Nat → List α → List α
  | _, [] => []
  | skip + 1, _ :: s => substituteAux rules skip s
  | 0, c :: s =>
    match ruleAt rules (c :: s) with
    | some r => r.2 ++ substituteAux rules (r.1.length - 1) s
    | none => c :: substituteAux rules 0 s

/-- **All patterns in one pass**, from left to right. -/
def substitute (rules : List (List α × List α)) (s : List α) : List α := substituteAux rules 0 s

/-- One pattern, from left to right. -/
def replace (pat put s : List α) : List α := substitute [(pat, put)] s

/-- **One pattern after the other**, each in what the ones before have left. -/
def replaceAll (rules : List (List α × List α)) (s : List α) : List α :=
  rules.foldl (fun s r => replace r.1 r.2 s) s

/-- How often the pattern occurs. -/
def count (pat : List α) : List α → Nat
  | [] => 0
  | c :: s => (if pat.isPrefixOf (c :: s) then 1 else 0) + count pat s

variable {rules : List (List α × List α)} {r : List α × List α} {pat s u w : List α} {b c : α}

theorem substituteAux_eq (skip : Nat) (s : List α) :
    substituteAux rules skip s = substitute rules (s.drop skip) := by
  induction skip generalizing s with
  | zero => rfl
  | succ skip ih =>
    cases s with
    | nil => rfl
    | cons c s => exact ih s

theorem substitute_cons_some (h : ruleAt rules (c :: s) = some r) :
    substitute rules (c :: s) = r.2 ++ substitute rules (s.drop (r.1.length - 1)) := by
  rw [substitute, substituteAux, h]
  exact congrArg (r.2 ++ ·) (substituteAux_eq _ _)

theorem substitute_cons_none (h : ruleAt rules (c :: s) = none) :
    substitute rules (c :: s) = c :: substitute rules s := by
  rw [substitute, substituteAux, h]
  rfl

theorem ruleAt_some (h : ruleAt rules s = some r) : r ∈ rules ∧ r.1 <+: s :=
  ⟨List.mem_of_find?_eq_some h, List.isPrefixOf_iff_prefix.mp
    (List.find?_some (p := fun r : List α × List α => r.1.isPrefixOf s) h)⟩

theorem ruleAt_none_iff : ruleAt rules s = none ↔ ∀ r ∈ rules, ¬ r.1 <+: s := by
  rw [ruleAt, List.find?_eq_none]
  exact forall₂_congr fun r _ => not_congr List.isPrefixOf_iff_prefix

theorem count_cons (c : α) (s : List α) :
    count pat (c :: s) = (if pat <+: c :: s then 1 else 0) + count pat s := by
  rw [count]
  congr 1
  exact if_congr List.isPrefixOf_iff_prefix rfl rfl

/-! ## 2. Patterns that open -/

/-- A pattern that begins with the opening sign, and has no other. -/
def Opened (b : α) (pat : List α) : Prop := ∃ w, pat = b :: w ∧ b ∉ w

/-- **Rules whose patterns open**, none of them beginning with another. -/
structure Braced (b : α) (rules : List (List α × List α)) : Prop where
  nodup : rules.Nodup
  opened : ∀ r ∈ rules, Opened b r.1
  apart : ∀ r ∈ rules, ∀ r' ∈ rules, r.1 <+: r'.1 → r = r'

omit [DecidableEq α] in
/-- An occurrence does not reach over an opening sign. -/
theorem Opened.prefix_cut (h : Opened b pat) :
    pat <+: c :: u ++ b :: s ↔ pat <+: c :: u := by
  refine ⟨fun hpre => ?_, fun hpre => hpre.trans (List.prefix_append _ _)⟩
  rcases List.prefix_or_prefix_of_prefix hpre (List.prefix_append (c :: u) (b :: s)) with h' | h'
  · exact h'
  · obtain ⟨v, rfl⟩ := h'
    cases v with
    | nil => rw [List.append_nil]
    | cons x v =>
      -- else the opening sign would stand inside the pattern
      obtain ⟨w, hw, hb⟩ := h
      have hx : x = b := (List.cons_prefix_cons.mp ((List.prefix_append_right_inj _).mp hpre)).1
      obtain ⟨-, rfl⟩ := List.cons.inj hw
      exact absurd (by rw [hx]; simp) hb

omit [DecidableEq α] in
theorem Opened.misses (h : Opened b pat) (hc : c ≠ b) : ¬ pat <+: c :: s := by
  obtain ⟨w, rfl, -⟩ := h
  exact fun hpre => hc (List.cons_prefix_cons.mp hpre).1.symm

theorem ruleAt_cut (hopened : ∀ r ∈ rules, Opened b r.1) (c : α) (u s : List α) :
    ruleAt rules (c :: (u ++ b :: s)) = ruleAt rules (c :: u) := by
  unfold ruleAt
  induction rules with
  | nil => rfl
  | cons r rules ih =>
    have hhead : r.1.isPrefixOf (c :: (u ++ b :: s)) = r.1.isPrefixOf (c :: u) := by
      rw [Bool.eq_iff_iff, List.isPrefixOf_iff_prefix, List.isPrefixOf_iff_prefix]
      exact (hopened r List.mem_cons_self).prefix_cut
    rw [List.find?_cons, List.find?_cons, hhead,
      ih fun r hr => hopened r (List.mem_cons_of_mem _ hr)]

/-- **One pass may be cut at an opening sign.** -/
theorem substitute_cut (hopened : ∀ r ∈ rules, Opened b r.1) (u s : List α) :
    substitute rules (u ++ b :: s) = substitute rules u ++ substitute rules (b :: s) := by
  induction hlen : u.length using Nat.strongRecOn generalizing u with
  | ind n ih =>
    cases u with
    | nil => rfl
    | cons c u =>
      rw [List.length_cons] at hlen
      cases hrule : ruleAt rules (c :: u) with
      | none =>
        rw [substitute_cons_none hrule, List.cons_append,
          substitute_cons_none ((ruleAt_cut hopened c u s).trans hrule), ih _ (by omega) u rfl]
        rfl
      | some r =>
        have hle : r.1.length - 1 ≤ u.length := by
          have := (ruleAt_some hrule).2.length_le
          rw [List.length_cons] at this
          omega
        rw [substitute_cons_some hrule, List.cons_append,
          substitute_cons_some ((ruleAt_cut hopened c u s).trans hrule),
          List.drop_append_of_le_length hle, ih _ ?_ _ rfl, List.append_assoc]
        rw [List.length_drop]
        omega

/-- What has no opening sign stays. -/
theorem substitute_unopened (hopened : ∀ r ∈ rules, Opened b r.1) (hw : b ∉ w) (s : List α) :
    substitute rules (w ++ s) = w ++ substitute rules s := by
  induction w with
  | nil => rfl
  | cons c w ih =>
    have hc : c ≠ b := fun h => hw (h ▸ List.mem_cons_self)
    rw [List.cons_append, substitute_cons_none, ih fun h => hw (List.mem_cons_of_mem _ h)]
    · rfl
    · exact ruleAt_none_iff.mpr fun r hr => (hopened r hr).misses hc

/-- **So may the count.** -/
theorem count_cut (h : Opened b pat) (u s : List α) :
    count pat (u ++ b :: s) = count pat u + count pat (b :: s) := by
  induction u with
  | nil => rw [List.nil_append, count, Nat.zero_add]
  | cons c u ih =>
    rw [List.cons_append, count_cons, count_cons, ih, ← List.cons_append, Nat.add_assoc]
    congr 1
    exact if_congr h.prefix_cut rfl rfl

theorem count_unopened (h : Opened b pat) (hw : b ∉ w) (s : List α) :
    count pat (w ++ s) = count pat s := by
  induction w with
  | nil => rfl
  | cons c w ih =>
    have hc : c ≠ b := fun h => hw (h ▸ List.mem_cons_self)
    rw [List.cons_append, count_cons, if_neg (h.misses hc), Nat.zero_add,
      ih fun h => hw (List.mem_cons_of_mem _ h)]

/-! ## 3. A pattern at the front -/

/-- The pattern itself counts once. -/
theorem count_hit (h : Opened b pat) (s : List α) : count pat (pat ++ s) = 1 + count pat s := by
  obtain ⟨w, rfl, hb⟩ := h
  rw [List.cons_append, count_cons, ← List.cons_append, if_pos (List.prefix_append _ _),
    count_unopened ⟨w, rfl, hb⟩ hb]

/-- A rule of the pattern puts its own in, -/
theorem substitute_hit (hb : Braced b rules) (hr : r ∈ rules) (s : List α) :
    substitute rules (r.1 ++ s) = r.2 ++ substitute rules s := by
  have hrule : ruleAt rules (r.1 ++ s) = some r := by
    cases hfound : ruleAt rules (r.1 ++ s) with
    | none => exact absurd (List.prefix_append _ _) (ruleAt_none_iff.mp hfound r hr)
    | some r' =>
      obtain ⟨hr', hpre⟩ := ruleAt_some hfound
      rcases List.prefix_or_prefix_of_prefix hpre (List.prefix_append _ _) with h | h
      · rw [hb.apart r' hr' r hr h]
      · rw [hb.apart r hr r' hr' h]
  obtain ⟨w, hw, -⟩ := hb.opened r hr
  rw [hw, List.cons_append] at hrule ⊢
  rw [substitute_cons_some hrule, hw, List.length_cons, Nat.add_sub_cancel, List.drop_left]

/-- and rules of other patterns leave it. -/
theorem substitute_miss (hopened : ∀ r ∈ rules, Opened b r.1) (hpat : Opened b pat)
    (hother : ∀ r ∈ rules, ¬ r.1 <+: pat ∧ ¬ pat <+: r.1) (s : List α) :
    substitute rules (pat ++ s) = pat ++ substitute rules s := by
  obtain ⟨w, rfl, hb⟩ := hpat
  rw [List.cons_append, substitute_cons_none, substitute_unopened hopened hb]
  · rfl
  · refine ruleAt_none_iff.mpr fun r hr hpre => ?_
    rcases List.prefix_or_prefix_of_prefix hpre (List.prefix_append (b :: w) s) with h | h
    · exact (hother r hr).1 h
    · exact (hother r hr).2 h

/-- A pattern that occurs occurs for a first time. -/
theorem exists_first (h : count pat s ≠ 0) : ∃ u v, s = u ++ pat ++ v ∧ count pat u = 0 := by
  induction s with
  | nil => exact absurd rfl h
  | cons c s ih =>
    rw [count_cons] at h
    by_cases hpre : pat <+: c :: s
    · obtain ⟨v, hv⟩ := hpre
      exact ⟨[], v, hv.symm, rfl⟩
    · rw [if_neg hpre, Nat.zero_add] at h
      obtain ⟨u, v, rfl, hu⟩ := ih h
      refine ⟨c :: u, v, rfl, ?_⟩
      rw [count_cons, hu, if_neg]
      intro hcu
      refine hpre (hcu.trans ?_)
      rw [List.append_assoc]
      exact List.prefix_append (c :: u) _

/-! ## 4. One more rule -/

/-- Where the pattern does not occur, nothing is replaced, -/
theorem replace_of_count_zero (put : List α) (h : count pat s = 0) : replace pat put s = s := by
  induction s with
  | nil => rfl
  | cons c s ih =>
    rw [count_cons, Nat.add_eq_zero_iff] at h
    have hrule : ruleAt [(pat, put)] (c :: s) = none :=
      ruleAt_none_iff.mpr fun r hr hpre => by
        obtain rfl := List.mem_singleton.mp hr
        rw [if_pos hpre] at h
        exact Nat.one_ne_zero h.1
    rw [replace, substitute_cons_none hrule]
    exact congrArg (c :: ·) (ih h.2)

theorem count_drop_le (n : Nat) (s : List α) : count pat (s.drop n) ≤ count pat s := by
  induction n generalizing s with
  | zero => exact Nat.le_refl _
  | succ n ih =>
    cases s with
    | nil => exact Nat.le_refl _
    | cons c s =>
      rw [count_cons]
      exact Nat.le_trans (ih s) (Nat.le_add_left _ _)

/-- and a rule of the pattern does not matter. -/
theorem substitute_snoc_of_count_zero (put : List α) (h : count pat s = 0) :
    substitute (rules ++ [(pat, put)]) s = substitute rules s := by
  induction hlen : s.length using Nat.strongRecOn generalizing s with
  | ind n ih =>
    cases s with
    | nil => rfl
    | cons c s =>
      rw [List.length_cons] at hlen
      have hsame : ruleAt (rules ++ [(pat, put)]) (c :: s) = ruleAt rules (c :: s) := by
        rw [ruleAt, List.find?_append, List.find?_singleton, if_neg, Option.or_none]
        · rfl
        · rw [List.isPrefixOf_iff_prefix]
          intro hpre
          rw [count_cons, if_pos hpre] at h
          omega
      have htail : count pat s = 0 := by
        rw [count_cons] at h
        omega
      cases hrule : ruleAt rules (c :: s) with
      | none =>
        rw [substitute_cons_none (hsame.trans hrule), substitute_cons_none hrule,
          ih _ (by omega) htail rfl]
      | some r =>
        have hdrop : count pat (s.drop (r.1.length - 1)) = 0 :=
          Nat.eq_zero_of_le_zero (htail ▸ count_drop_le _ s)
        rw [substitute_cons_some (hsame.trans hrule), substitute_cons_some hrule,
          ih _ ?_ hdrop rfl]
        rw [List.length_drop]
        omega

section Snoc

variable {put : List α}

/-- What stands around the first occurrence of the last pattern, under the rules before it. -/
theorem substitute_around (hb : Braced b (rules ++ [(pat, put)])) (u v : List α) :
    substitute rules (u ++ pat ++ v) = substitute rules u ++ (pat ++ substitute rules v) := by
  have hopened : ∀ r ∈ rules, Opened b r.1 := fun r hr => hb.opened r (List.mem_append_left _ hr)
  have hpat : Opened b pat := hb.opened _ (List.mem_append_right _ (List.mem_singleton_self _))
  have hother : ∀ r ∈ rules, ¬ r.1 <+: pat ∧ ¬ pat <+: r.1 := fun r hr => by
    have hlast : (pat, put) ∈ rules ++ [(pat, put)] := by simp
    have hne : r ≠ (pat, put) := by
      rintro rfl
      exact (List.nodup_append.mp hb.nodup).2.2 _ hr _ (List.mem_singleton_self _) rfl
    have hin : r ∈ rules ++ [(pat, put)] := List.mem_append_left _ hr
    exact ⟨fun h => hne (hb.apart r hin _ hlast h), fun h => hne (hb.apart _ hlast r hin h).symm⟩
  rw [← substitute_miss hopened hpat hother]
  obtain ⟨w, rfl, -⟩ := hpat
  rw [List.append_assoc, List.cons_append, substitute_cut hopened]

/-- The placeholders of the text are still there behind the rules before. -/
theorem count_le_substitute (hb : Braced b (rules ++ [(pat, put)])) (s : List α) :
    count pat s ≤ count pat (substitute rules s) := by
  have hpat : Opened b pat := hb.opened _ (List.mem_append_right _ (List.mem_singleton_self _))
  induction hlen : s.length using Nat.strongRecOn generalizing s with
  | ind n ih =>
    by_cases hzero : count pat s = 0
    · rw [hzero]
      exact Nat.zero_le _
    · obtain ⟨u, v, rfl, hu⟩ := exists_first hzero
      obtain ⟨w, rfl, hw⟩ := id hpat
      rw [substitute_around hb, List.append_assoc, List.cons_append, List.cons_append,
        count_cut hpat, count_cut hpat, hu, ← List.cons_append, ← List.cons_append,
        count_hit hpat, count_hit hpat]
      have hv := ih v.length (by simp at hlen; omega) v rfl
      omega

/-- **The step to one more rule**: where what the rules before put in makes no new occurrence of
    its pattern, replacing it is as good as having it among the rules of the pass. -/
theorem replace_substitute (hb : Braced b (rules ++ [(pat, put)])) {s : List α}
    (h : count pat (substitute rules s) = count pat s) :
    replace pat put (substitute rules s) = substitute (rules ++ [(pat, put)]) s := by
  have hpat : Opened b pat := hb.opened _ (List.mem_append_right _ (List.mem_singleton_self _))
  have hone : Braced b [(pat, put)] :=
    { nodup := by simp
      opened := fun r hr => by rw [List.mem_singleton.mp hr]; exact hpat
      apart := fun r hr r' hr' _ => by rw [List.mem_singleton.mp hr, List.mem_singleton.mp hr'] }
  induction hlen : s.length using Nat.strongRecOn generalizing s with
  | ind n ih =>
    by_cases hzero : count pat s = 0
    · rw [replace_of_count_zero put (h.trans hzero), substitute_snoc_of_count_zero put hzero]
    · obtain ⟨u, v, rfl, hu⟩ := exists_first hzero
      -- nothing new in front of the first occurrence, nor behind it
      have hsplit : count pat (substitute rules u) = 0 ∧
          count pat (substitute rules v) = count pat v := by
        obtain ⟨w, rfl, hw⟩ := id hpat
        rw [substitute_around hb, List.append_assoc, List.cons_append, List.cons_append,
          count_cut hpat, count_cut hpat, hu, ← List.cons_append, ← List.cons_append,
          count_hit hpat, count_hit hpat] at h
        have hle := count_le_substitute hb v
        omega
      have hfront :
          replace pat put (substitute rules u) = substitute (rules ++ [(pat, put)]) u := by
        rw [replace_of_count_zero put hsplit.1, substitute_snoc_of_count_zero put hu]
      have hbehind := ih v.length (by
        obtain ⟨w, rfl, hw⟩ := hpat
        simp at hlen
        omega) hsplit.2 rfl
      have hpass : substitute (rules ++ [(pat, put)]) (u ++ pat ++ v) =
          substitute (rules ++ [(pat, put)]) u ++
            (put ++ substitute (rules ++ [(pat, put)]) v) := by
        rw [← substitute_hit hb (r := (pat, put)) (by simp)]
        obtain ⟨w, rfl, -⟩ := hpat
        rw [List.append_assoc, List.cons_append, substitute_cut hb.opened]
      have hreplace : replace pat put (substitute rules u ++ (pat ++ substitute rules v)) =
          replace pat put (substitute rules u) ++
            (put ++ replace pat put (substitute rules v)) := by
        rw [replace, replace, replace, ← substitute_hit hone (List.mem_singleton_self _)]
        obtain ⟨w, rfl, -⟩ := id hpat
        rw [List.cons_append, substitute_cut hone.opened]
      rw [substitute_around hb, hreplace, hfront, hbehind, hpass]

end Snoc

/-! ## 5. All the rules -/

/-- What the rules put in makes no new pattern for a later one. -/
def Fresh (rules : List (List α × List α)) (s : List α) : Prop :=
  ∀ i : Fin rules.length, count rules[i].1 (substitute (rules.take i) s) = count rules[i].1 s

/-- **Verbatim**: one after the other is one pass, and each pattern is found as often as the text
    has it, so nothing that is put in is looked at again. -/
def Verbatim (rules : List (List α × List α)) (s : List α) : Prop :=
  replaceAll rules s = substitute rules s ∧
    ∀ i : Fin rules.length, count rules[i].1 (replaceAll (rules.take i) s) = count rules[i].1 s

instance decidableFresh (rules : List (List α × List α)) (s : List α) : Decidable (Fresh rules s) :=
  inferInstanceAs (Decidable (∀ _, _))

omit [DecidableEq α] in
theorem Braced.of_append {rules' : List (List α × List α)} (h : Braced b (rules ++ rules')) :
    Braced b rules where
  nodup := (List.nodup_append.mp h.nodup).1
  opened r hr := h.opened r (List.mem_append_left _ hr)
  apart r hr r' hr' := h.apart r (List.mem_append_left _ hr) r' (List.mem_append_left _ hr')

theorem substitute_no_rules (s : List α) : substitute ([] : List (List α × List α)) s = s := by
  induction s with
  | nil => rfl
  | cons c s ih => rw [substitute_cons_none rfl, ih]

/-- **The first `k` rules, one after the other, do one pass**, where each of them finds its pattern
    as often as the text has it: in what the rules before have left, or in their pass. -/
theorem replaceAll_take (hb : Braced b rules) {k : Nat} (hk : k ≤ rules.length)
    (h : ∀ i : Fin rules.length, i.val < k →
      count rules[i].1 (replaceAll (rules.take i) s) = count rules[i].1 s ∨
        count rules[i].1 (substitute (rules.take i) s) = count rules[i].1 s) :
    replaceAll (rules.take k) s = substitute (rules.take k) s := by
  induction k with
  | zero => exact (substitute_no_rules s).symm
  | succ k ih =>
    have hbefore : replaceAll (rules.take k) s = substitute (rules.take k) s :=
      ih (by omega) fun i hi => h i (by omega)
    have hcount : count rules[k].1 (substitute (rules.take k) s) = count rules[k].1 s := by
      rcases h ⟨k, hk⟩ (by simp) with hleft | hpass
      · rw [← hbefore]
        exact hleft
      · exact hpass
    have hsnoc : rules.take (k + 1) = rules.take k ++ [(rules[k].1, rules[k].2)] :=
      List.take_succ_eq_append_getElem hk
    have hprefix : Braced b (rules.take k ++ [(rules[k].1, rules[k].2)]) := by
      rw [← hsnoc]
      have hall : Braced b (rules.take (k + 1) ++ rules.drop (k + 1)) := by
        rw [List.take_append_drop]
        exact hb
      exact hall.of_append
    rw [hsnoc, replaceAll, List.foldl_append]
    show replace rules[k].1 rules[k].2 (replaceAll (rules.take k) s) = _
    rw [hbefore, replace_substitute hprefix hcount]

/-- **One after the other is verbatim** exactly if what is put in makes no new pattern. -/
theorem verbatim_iff (hb : Braced b rules) : Verbatim rules s ↔ Fresh rules s := by
  constructor
  · rintro ⟨-, hcount⟩ i
    rw [← replaceAll_take hb (Nat.le_of_lt i.isLt) fun j _ => Or.inl (hcount j)]
    exact hcount i
  · intro hfresh
    refine ⟨?_, fun i => ?_⟩
    · have hall := replaceAll_take hb (Nat.le_refl _) fun j _ => Or.inr (hfresh j)
      rw [List.take_length] at hall
      exact hall
    · rw [replaceAll_take hb (Nat.le_of_lt i.isLt) fun j _ => Or.inr (hfresh j)]
      exact hfresh i

end Nullgate.Lib
