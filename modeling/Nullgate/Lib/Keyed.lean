/-
  File:      Nullgate/Lib/Keyed.lean
  Subject:   KEYED RECONCILIATION IN PLACE: a table of rows made to show a list of items.

  An interface that must not destroy what the user is about to click on keeps its rows from one
  update to the next: rows of items that are gone are removed, rows of items that are still there
  are updated, rows of new items are appended, and then all are put in order. What is on the screen
  should be what rendering the items from nothing would put there.

  * `Keyed` -- the rows by key, and the keys in the order they are shown in;
  * `Keyed.reconcile` -- remove, update or append, and sort;
  * `Keyed.Ok`: each row is shown once, and nothing else is; every `reconcile` keeps it;
  * **`looks_reconcile`**: behind it the screen shows the items in their order, each as it would be
    rendered afresh, as soon as an updated row looks like a new one.
-/
import Mathlib.Data.List.Sort
import Nullgate.Lib.Fold
import Std.Data.ExtTreeMap

namespace Nullgate.Lib

variable {κ ν τ γ : Type} [Ord κ] [Std.TransOrd κ]

/-- The rows by key, and what is shown from top to bottom. -/
structure Keyed (κ ν : Type) [Ord κ] where
  rows : Std.ExtTreeMap κ ν := ∅
  shown : List κ := []

namespace Keyed

/-- **Each row is shown once, and nothing else.** -/
structure Ok (k : Keyed κ ν) : Prop where
  nodup : k.shown.Nodup
  mem_iff : ∀ a, a ∈ k.shown ↔ (k.rows[a]?).isSome = true

/-- What the screen shows: each key with the look of its row. -/
def looks (look : ν → γ) (k : Keyed κ ν) : List (κ × γ) :=
  k.shown.filterMap fun a => (k.rows[a]?).map fun r => (a, look r)

/-- Remove the rows whose key does not satisfy `p`. -/
def retain (p : κ → Bool) (k : Keyed κ ν) : Keyed κ ν where
  rows := k.rows.filter fun a _ => p a
  shown := k.shown.filter fun a => !((k.rows[a]?).isSome && !p a)

/-- Put the rows in the order of the ranks. -/
def sortBy (rank : κ → Nat) (k : Keyed κ ν) : Keyed κ ν :=
  { k with shown := k.shown.insertionSort fun a b => rank a ≤ rank b }

theorem Ok.sortBy {k : Keyed κ ν} (h : k.Ok) (rank : κ → Nat) : (k.sortBy rank).Ok where
  nodup := (List.perm_insertionSort _ _).nodup_iff.mpr h.nodup
  mem_iff a := (List.mem_insertionSort _).trans (h.mem_iff a)

variable [Std.LawfulEqOrd κ]

theorem rows_retain (p : κ → Bool) (k : Keyed κ ν) (a : κ) :
    (k.retain p).rows[a]? = if p a then k.rows[a]? else none := by
  show (k.rows.filter fun a _ => p a)[a]? = _
  rw [Std.ExtTreeMap.getElem?_filter']
  cases k.rows[a]? <;> cases p a <;> rfl

theorem Ok.retain {k : Keyed κ ν} (h : k.Ok) (p : κ → Bool) : (k.retain p).Ok where
  nodup := h.nodup.filter _
  mem_iff a := by
    rw [rows_retain]
    show a ∈ k.shown.filter _ ↔ _
    rw [List.mem_filter, h.mem_iff a]
    cases hrow : k.rows[a]? with
    | none => cases p a <;> simp
    | some r => cases p a <;> simp

section Items

variable [DecidableEq κ] (key : τ → κ) (new : τ → ν) (upd : τ → ν → ν)

/-- Update the item's row, or append one. -/
def upsert (k : Keyed κ ν) (t : τ) : Keyed κ ν :=
  match k.rows[key t]? with
  | some r => { k with rows := k.rows.insert (key t) (upd t r) }
  | none => { rows := k.rows.insert (key t) (new t), shown := k.shown ++ [key t] }

/-- **Make the rows show the items.** -/
def reconcile (rank : κ → Nat) (k : Keyed κ ν) (items : List τ) : Keyed κ ν :=
  (run (upsert key new upd) (k.retain fun a => items.any fun t => key t = a) items).sortBy rank

variable {key new upd} {k : Keyed κ ν} {rank : κ → Nat} {items : List τ}

/-! ## 1. The rows -/

theorem rows_upsert (k : Keyed κ ν) (t : τ) (a : κ) :
    (k.upsert key new upd t).rows[a]? =
      if key t = a then some (((k.rows[a]?).map (upd t)).getD (new t)) else k.rows[a]? := by
  unfold upsert
  split
  · rename_i r hrow
    rw [Std.ExtTreeMap.getElem?_insert]
    by_cases ha : key t = a
    · subst ha
      simp [hrow]
    · simp [ha]
  · rename_i hrow
    rw [Std.ExtTreeMap.getElem?_insert]
    by_cases ha : key t = a
    · subst ha
      simp [hrow]
    · simp [ha]

/-- The rows behind the items, each key of which comes once. -/
theorem rows_run (hnodup : (items.map key).Nodup) (k : Keyed κ ν) (a : κ) :
    (run (upsert key new upd) k items).rows[a]? =
      match items.find? fun t => key t = a with
      | some t => some (((k.rows[a]?).map (upd t)).getD (new t))
      | none => k.rows[a]? := by
  induction items generalizing k with
  | nil => rfl
  | cons t items ih =>
    rw [List.map_cons, List.nodup_cons] at hnodup
    rw [run_cons, ih hnodup.2, rows_upsert]
    by_cases ha : key t = a
    · -- no later item has this key
      have hnone : items.find? (fun t => decide (key t = a)) = none := by
        refine List.find?_eq_none.mpr fun t' ht' heq => hnodup.1 ?_
        rw [ha, ← of_decide_eq_true heq]
        exact List.mem_map_of_mem ht'
      simp [ha, hnone]
    · simp [ha]

/-- **The rows behind a reconciliation**: one for each item, updated if it was there. -/
theorem rows_reconcile (hnodup : (items.map key).Nodup) (k : Keyed κ ν) (a : κ) :
    (k.reconcile key new upd rank items).rows[a]? =
      (items.find? fun t => key t = a).map fun t =>
        ((k.rows[a]?).map (upd t)).getD (new t) := by
  show (run (upsert key new upd) (k.retain _) items).rows[a]? = _
  rw [rows_run hnodup, rows_retain]
  cases hfind : items.find? fun t => key t = a with
  | some t =>
    have hkey : key t = a := by simpa using List.find?_some hfind
    have hany : (items.any fun t => key t = a) = true :=
      List.any_eq_true.mpr ⟨t, List.mem_of_find?_eq_some hfind, decide_eq_true hkey⟩
    simp only [hany, if_true, Option.map_some]
  | none =>
    have hany : (items.any fun t => key t = a) = false :=
      Bool.eq_false_iff.mpr fun h => by
        obtain ⟨t, ht, hkey⟩ := List.any_eq_true.mp h
        exact List.find?_eq_none.mp hfind t ht hkey
    simp [hany]

/-! ## 2. What is shown -/

theorem Ok.upsert (h : k.Ok) (t : τ) : (k.upsert key new upd t).Ok := by
  have hrows : ∀ a, (k.upsert key new upd t).rows[a]? = _ := rows_upsert k t
  unfold Keyed.upsert at hrows ⊢
  split at hrows
  · rename_i r hrow
    refine ⟨h.nodup, fun a => ?_⟩
    rw [hrows, h.mem_iff a]
    by_cases ha : key t = a
    · subst ha
      simp [hrow]
    · simp [ha]
  · rename_i hrow
    have hout : key t ∉ k.shown := fun hin => by
      have hsome := (h.mem_iff (key t)).mp hin
      rw [hrow] at hsome
      cases hsome
    refine ⟨List.nodup_append.mpr ⟨h.nodup, List.nodup_singleton _, fun a ha b hb hab => ?_⟩,
      fun a => ?_⟩
    · rw [hab, List.mem_singleton.mp hb] at ha
      exact hout ha
    · rw [hrows, List.mem_append, List.mem_singleton, h.mem_iff a]
      by_cases ha : key t = a
      · simp [ha]
      · simp [ha, Ne.symm ha]

theorem Ok.run (h : k.Ok) : (Lib.run (Keyed.upsert key new upd) k items).Ok :=
  run_invariant (fun _ t _ hk => hk.upsert t) h

theorem Ok.reconcile (h : k.Ok) (items : List τ) :
    (k.reconcile key new upd rank items).Ok :=
  ((h.retain _).run).sortBy rank

/-- **The screen shows the items in their order**: `ranked` are the items, put in the order of
    their ranks. -/
theorem shown_reconcile (h : k.Ok) (hnodup : (items.map key).Nodup) {ranked : List τ}
    (hperm : ranked.Perm items) (hrank : ranked.Pairwise fun s t => rank (key s) < rank (key t)) :
    (k.reconcile key new upd rank items).shown = ranked.map key := by
  have hok : (k.reconcile key new upd rank items).Ok := h.reconcile items
  have hmem : ∀ a, a ∈ (k.reconcile key new upd rank items).shown ↔ a ∈ ranked.map key := by
    intro a
    rw [hok.mem_iff, rows_reconcile hnodup, Option.isSome_map, List.find?_isSome,
      (hperm.map key).mem_iff, List.mem_map]
    simp
  have hranked : (ranked.map key).Nodup := (hperm.map key).nodup_iff.mpr hnodup
  -- both are strictly rising in the rank, and of the same keys
  have hshown : (k.reconcile key new upd rank items).shown.Pairwise fun a b => rank a ≤ rank b :=
    List.pairwise_insertionSort _ _
  have hrising : (ranked.map key).Pairwise fun a b => rank a < rank b :=
    List.pairwise_map.mpr hrank
  have hinj : ∀ a ∈ ranked.map key, ∀ b ∈ ranked.map key, rank a = rank b → a = b := by
    intro a ha b hb hab
    by_contra hne
    rcases List.pairwise_iff_get.mp hrising with hget
    obtain ⟨i, rfl⟩ := List.get_of_mem ha
    obtain ⟨j, rfl⟩ := List.get_of_mem hb
    rcases Nat.lt_trichotomy i.1 j.1 with hlt | heq | hgt
    · exact absurd hab (Nat.ne_of_lt (hget i j hlt))
    · exact hne (by rw [Fin.ext heq])
    · exact absurd hab.symm (Nat.ne_of_lt (hget j i hgt))
  refine ((List.perm_ext_iff_of_nodup hok.nodup hranked).mpr hmem).eq_of_pairwise ?_ hshown
    (hrising.imp Nat.le_of_lt)
  intro a b ha hb hab hba
  exact hinj a ((hmem a).mp ha) b hb (Nat.le_antisymm hab hba)

/-- **Rows updated in place look as if rendered afresh.** -/
theorem looks_reconcile (h : k.Ok) (hnodup : (items.map key).Nodup) {ranked : List τ}
    (hperm : ranked.Perm items) (hrank : ranked.Pairwise fun s t => rank (key s) < rank (key t))
    {look : ν → γ} {fresh : τ → γ} (hnew : ∀ t, look (new t) = fresh t)
    (hupd : ∀ t r, look (upd t r) = fresh t) :
    (k.reconcile key new upd rank items).looks look = ranked.map fun t => (key t, fresh t) := by
  rw [looks, shown_reconcile h hnodup hperm hrank, List.filterMap_map]
  rw [← List.filterMap_eq_map']
  refine List.filterMap_congr fun t ht => ?_
  have hfind : items.find? (fun t' => decide (key t' = key t)) = some t := by
    have hsome : (items.find? fun t' => decide (key t' = key t)).isSome = true :=
      List.find?_isSome.mpr ⟨t, hperm.mem_iff.mp ht, by simp⟩
    obtain ⟨t', ht'⟩ := Option.isSome_iff_exists.mp hsome
    have hsame : key t' = key t := by simpa using List.find?_some ht'
    rw [ht', List.inj_on_of_nodup_map hnodup (List.mem_of_find?_eq_some ht')
      (hperm.mem_iff.mp ht) hsame]
  simp only [Function.comp_apply, rows_reconcile hnodup, hfind, Option.map_some]
  cases k.rows[key t]? with
  | some r => simp [hupd]
  | none => simp [hnew]

end Items

end Keyed

end Nullgate.Lib
