/-
  File:      Nullgate/Lib/Canonical.lean
  Subject:   THE CANONICAL ORDER OF A SET: lists that rise strictly in a key.

  A replica that sorts what it has received by a key without ties computes a list that
  depends on the SET it received only. This file holds the facts such a development
  needs about one list and about two:

  * `StrictBy key l`: every entry's key is below the keys of all entries behind it;
  * `StrictBy.ext`: two such lists with the same members are the same list;
  * `StrictBy.mem_before`: what stands before an entry is what has a smaller key, so a
    prefix is determined by its members (`StrictBy.prefix_filter`);
  * `strictBy_insertionSort`: sorting by the key yields such a list as soon as the
    key tells the entries apart.
-/
import Mathlib.Data.List.Sort

namespace Nullgate.Lib

variable {α κ : Type*} [LinearOrder κ] {key : α → κ}

/-- The list rises strictly in `key`. -/
def StrictBy (key : α → κ) (l : List α) : Prop := l.Pairwise fun a b => key a < key b

namespace StrictBy

variable {l l' pre post : List α} {a e : α}

theorem nodup (h : StrictBy key l) : l.Nodup :=
  h.imp fun hab e => absurd (congrArg key e) (ne_of_lt hab)

theorem filter (h : StrictBy key l) (p : α → Bool) : StrictBy key (l.filter p) :=
  List.Pairwise.filter p h

theorem sublist (h : StrictBy key l) (hs : l'.Sublist l) : StrictBy key l' :=
  List.Pairwise.sublist hs h

/-- On a strictly rising list the key tells the members apart. -/
theorem inj (h : StrictBy key l) {a b : α} (ha : a ∈ l) (hb : b ∈ l) (e : key a = key b) :
    a = b := by
  induction l with
  | nil => exact absurd ha List.not_mem_nil
  | cons x l ih =>
    obtain ⟨hx, hl⟩ := List.pairwise_cons.mp h
    rcases List.mem_cons.mp ha with rfl | ha'
    · rcases List.mem_cons.mp hb with rfl | hb'
      · rfl
      · exact absurd e (ne_of_lt (hx b hb'))
    · rcases List.mem_cons.mp hb with rfl | hb'
      · exact absurd e.symm (ne_of_lt (hx a ha'))
      · exact ih hl ha' hb'

/-- **Two strictly rising lists with the same members are equal.** -/
theorem ext (h : StrictBy key l) (h' : StrictBy key l') (hm : ∀ a, a ∈ l ↔ a ∈ l') :
    l = l' := by
  refine List.Perm.eq_of_pairwise (fun a b _ _ hab hba => ?_) h h'
    ((List.perm_ext_iff_of_nodup h.nodup h'.nodup).mpr hm)
  exact absurd hba (lt_asymm hab)

theorem append_iff : StrictBy key (l ++ l') ↔
    StrictBy key l ∧ StrictBy key l' ∧ ∀ a ∈ l, ∀ b ∈ l', key a < key b :=
  List.pairwise_append

/-- What stands before an entry are the members with a smaller key. -/
theorem mem_before (h : StrictBy key (pre ++ e :: post)) :
    a ∈ pre ↔ a ∈ pre ++ e :: post ∧ key a < key e := by
  obtain ⟨_, h2, h3⟩ := append_iff.mp h
  constructor
  · intro ha
    exact ⟨List.mem_append_left _ ha, h3 a ha e List.mem_cons_self⟩
  · intro h'
    obtain ⟨hm, hlt⟩ := h'
    rcases List.mem_append.mp hm with ha | ha
    · exact ha
    · exfalso
      rcases List.mem_cons.mp ha with rfl | ha
      · exact lt_irrefl _ hlt
      · exact lt_asymm hlt ((List.pairwise_cons.mp h2).1 a ha)

/-- What stands behind an entry are the members with a greater key. -/
theorem mem_after (h : StrictBy key (pre ++ e :: post)) :
    a ∈ post ↔ a ∈ pre ++ e :: post ∧ key e < key a := by
  obtain ⟨_, h2, h3⟩ := append_iff.mp h
  constructor
  · intro ha
    exact ⟨List.mem_append_right _ (List.mem_cons_of_mem _ ha),
      (List.pairwise_cons.mp h2).1 a ha⟩
  · intro h'
    obtain ⟨hm, hlt⟩ := h'
    rcases List.mem_append.mp hm with ha | ha
    · exact absurd hlt (lt_asymm (h3 a ha e List.mem_cons_self))
    · rcases List.mem_cons.mp ha with rfl | ha
      · exact absurd hlt (lt_irrefl _)
      · exact ha

/-- The members below a bound are a prefix. -/
theorem isPrefix_filter_lt (h : StrictBy key l) (k : κ) :
    l.filter (fun a => decide (key a < k)) <+: l := by
  induction l with
  | nil => exact List.prefix_rfl
  | cons x l ih =>
    obtain ⟨hx, hl⟩ := List.pairwise_cons.mp h
    by_cases hk : key x < k
    · rw [List.filter_cons_of_pos (by simpa using hk)]
      exact List.cons_prefix_cons.mpr ⟨rfl, ih hl⟩
    · -- behind an entry at or above the bound everything is above it
      have hnil : (x :: l).filter (fun a => decide (key a < k)) = [] := by
        refine List.filter_eq_nil_iff.mpr fun a ha => ?_
        rcases List.mem_cons.mp ha with rfl | ha'
        · simpa using hk
        · simpa using le_trans (not_lt.mp hk) (le_of_lt (hx a ha'))
      rw [hnil]
      exact List.nil_prefix

end StrictBy

/-- Sorting by a key that tells the entries apart yields a strictly rising list. -/
theorem strictBy_insertionSort {l : List α} (hnd : (l.map key).Nodup) :
    StrictBy key (l.insertionSort fun a b => key a ≤ key b) := by
  have hle := List.pairwise_insertionSort (fun a b : α => key a ≤ key b) l
  have hperm := List.perm_insertionSort (fun a b : α => key a ≤ key b) l
  have hne : (l.insertionSort fun a b => key a ≤ key b).Pairwise fun a b => key a ≠ key b :=
    List.pairwise_map.mp ((hperm.map key).nodup_iff.mpr hnd)
  exact (hle.and hne).imp fun h => lt_of_le_of_ne h.1 h.2

end Nullgate.Lib
