/-
  File:      Nullgate/Roster/Order.lean
  Subject:   WHAT `Roster::build` FOLDS: one strictly rising list for every SET of entries.

  `valid` filters and deduplicates by content id, `ordered` sorts by `(ts, id)`. Whatever
  the input order, the folded list rises strictly in the sort key (`strictBy_ordered`); as
  long as no two authentic entries at hand share a content id (`CollisionFree`), its members
  are exactly the authentic entries (`mem_ordered`). So it is THE rising list of that set:
  two inputs with the same authentic entries fold the same list (`ordered_congr`), a subset
  folds a filtered list (`ordered_filter`), and entries that sort behind all others are
  folded behind them (`ordered_append`). Since the folded list rises strictly, the state an
  entry meets is given by the entry alone (`stateAt`).
-/
import Nullgate.Roster.Build
import Nullgate.Lib.Landing
import Mathlib.Order.Compare

namespace Nullgate

open Nullgate.Lib

variable {P : Primitives} {now : UInt64} {cfg : Config}

/-- No two authentic entries of the list share a content id. -/
def CollisionFree (P : Primitives) (now : UInt64) (cfg : Config) (l : List Entry) : Prop :=
  ∀ a ∈ l, ∀ b ∈ l, authentic P now cfg a = true → authentic P now cfg b = true →
    a.id P = b.id P → a = b

instance (l : List Entry) : Decidable (CollisionFree P now cfg l) :=
  inferInstanceAs (Decidable (∀ a ∈ l, ∀ b ∈ l, _ → _ → _ → _))

theorem CollisionFree.mono {l l' : List Entry} (h : CollisionFree P now cfg l)
    (hs : ∀ e ∈ l', authentic P now cfg e = true → e ∈ l) : CollisionFree P now cfg l' :=
  fun a ha b hb hA hB => h a (hs a ha hA) b (hs b hb hB) hA hB

/-! ## 1. The map of kept entries -/

/-- What stands under one content id, as a register of the filtering pass. -/
def slotReg (P : Primitives) (now : UInt64) (cfg : Config) (k : Bytes 32) :
    Register (keepEntry P now cfg) (Option Entry) where
  obs m := m[k]?
  writes _ e := if authentic P now cfg e ∧ e.id P = k then some (some e) else none
  law m e := by
    unfold keepEntry
    by_cases ha : authentic P now cfg e = true
    · simp only [ha, if_true, true_and, Std.ExtTreeMap.getElem?_insert, compare_eq_iff_eq]
      split <;> rfl
    · simp [ha]

theorem slotReg_writes {k : Bytes 32} {m : Std.ExtTreeMap (Bytes 32) Entry} {e : Entry}
    {v : Option Entry} (h : (slotReg P now cfg k).writes m e = some v) :
    v = some e ∧ authentic P now cfg e = true ∧ e.id P = k := by
  simp only [slotReg] at h
  split at h
  · rename_i hk
    exact ⟨(Option.some.inj h).symm, hk⟩
  · cases h

/-- A kept entry stands under its own id, and it is an authentic entry of the input. -/
theorem valid_some {entries : List Entry} {k : Bytes 32} {e : Entry}
    (h : (valid P now cfg entries)[k]? = some e) :
    k = e.id P ∧ e ∈ entries ∧ authentic P now cfg e = true := by
  have h0 : (slotReg P now cfg k).obs ∅ ≠ some e := by
    simp [slotReg]
  obtain ⟨pre, x, post, hw⟩ := (slotReg P now cfg k).lastWrite_of_ne h h0
  obtain ⟨hx, ha, hk⟩ := slotReg_writes hw.writes
  obtain rfl := Option.some.inj hx
  refine ⟨hk.symm, ?_, ha⟩
  rw [hw.split]
  exact List.mem_append_right _ List.mem_cons_self

/-- Where ids do not collide, every authentic entry of the input is kept. -/
theorem valid_of_mem {entries : List Entry} {e : Entry} (hcf : CollisionFree P now cfg entries)
    (he : e ∈ entries) (ha : authentic P now cfg e = true) :
    (valid P now cfg entries)[e.id P]? = some e := by
  rcases (slotReg P now cfg (e.id P)).noWrite_or_lastWrite ∅ entries with hn | ⟨v, hv⟩
  · -- `e` itself writes its slot
    obtain ⟨pre, post, hsplit⟩ := List.append_of_mem he
    have := hn pre e post hsplit
    simp [slotReg, ha] at this
  · rw [show (valid P now cfg entries)[e.id P]? = v from
      (slotReg P now cfg (e.id P)).obs_of_lastWrite hv]
    obtain ⟨pre, x, post, hw⟩ := hv
    obtain ⟨rfl, hx, hid⟩ := slotReg_writes hw.writes
    have hxe : x ∈ entries := by
      rw [hw.split]
      exact List.mem_append_right _ List.mem_cons_self
    rw [hcf x hxe e he hx ha hid]

theorem mem_valid_values {entries : List Entry} {e : Entry} :
    e ∈ (valid P now cfg entries).toList.map Prod.snd ↔
      (valid P now cfg entries)[e.id P]? = some e := by
  refine ⟨?_, ?_⟩
  · intro h
    obtain ⟨⟨k, e'⟩, hk, rfl⟩ := List.mem_map.mp h
    have hk' := Std.ExtTreeMap.mem_toList_iff_getElem?_eq_some.mp hk
    rwa [(valid_some hk').1] at hk'
  · intro h
    exact List.mem_map.mpr ⟨_, Std.ExtTreeMap.mem_toList_iff_getElem?_eq_some.mpr h, rfl⟩

/-! ## 2. The folded list -/

/-- **The folded list rises strictly in `(ts, id)`**, for every input. -/
theorem strictBy_ordered (entries : List Entry) :
    StrictBy (orderKey P) (ordered P now cfg entries) := by
  refine strictBy_insertionSort ?_
  rw [List.map_map]
  refine List.pairwise_map.mpr ?_
  refine (Std.ExtTreeMap.distinct_keys_toList (t := valid P now cfg entries)).imp_of_mem ?_
  intro a b ha hb hab he
  -- equal sort keys are equal ids, and each entry stands under its id
  have hid : a.2.id P = b.2.id P := congrArg (fun k => (ofLex k).2) he
  have ha' := valid_some (Std.ExtTreeMap.mem_toList_iff_getElem?_eq_some.mp ha)
  have hb' := valid_some (Std.ExtTreeMap.mem_toList_iff_getElem?_eq_some.mp hb)
  exact hab (compare_eq_iff_eq.mpr (by rw [ha'.1, hb'.1, hid]))

/-- What is folded is an authentic entry of the input. -/
theorem ordered_sub {entries : List Entry} {e : Entry} (h : e ∈ ordered P now cfg entries) :
    e ∈ entries ∧ authentic P now cfg e = true :=
  (valid_some (mem_valid_values.mp ((List.mem_insertionSort _).mp h))).2

/-- **Where ids do not collide, the folded entries are the authentic ones.** -/
theorem mem_ordered {entries : List Entry} {e : Entry} (hcf : CollisionFree P now cfg entries) :
    e ∈ ordered P now cfg entries ↔ e ∈ entries ∧ authentic P now cfg e = true := by
  refine ⟨ordered_sub, fun ⟨he, ha⟩ => ?_⟩
  exact (List.mem_insertionSort _).mpr (mem_valid_values.mpr (valid_of_mem hcf he ha))

/-- **The same authentic entries are folded in the same order.** -/
theorem ordered_congr {l l' : List Entry} (hcf : CollisionFree P now cfg l)
    (h : ∀ e, authentic P now cfg e = true → (e ∈ l ↔ e ∈ l')) :
    ordered P now cfg l = ordered P now cfg l' := by
  have hcf' : CollisionFree P now cfg l' := hcf.mono fun e he ha => (h e ha).mpr he
  refine (strictBy_ordered l).ext (strictBy_ordered l') fun e => ?_
  rw [mem_ordered hcf, mem_ordered hcf']
  exact and_congr_left (h e)

/-- **A subset folds what it keeps of the whole.** -/
theorem ordered_filter {l l' : List Entry} (hcf : CollisionFree P now cfg l')
    (hs : ∀ e ∈ l, e ∈ l') :
    ordered P now cfg l = (ordered P now cfg l').filter fun e => decide (e ∈ l) := by
  have hcfl : CollisionFree P now cfg l := hcf.mono fun e he _ => hs e he
  refine (strictBy_ordered l).ext ((strictBy_ordered l').filter _) fun e => ?_
  rw [mem_ordered hcfl, List.mem_filter, mem_ordered hcf, decide_eq_true_eq]
  constructor
  · exact fun ⟨he, ha⟩ => ⟨⟨hs e he, ha⟩, he⟩
  · exact fun ⟨⟨_, ha⟩, he⟩ => ⟨he, ha⟩

/-- **Entries that sort behind all others are folded behind them.** -/
theorem ordered_append {l l' : List Entry} (hcf : CollisionFree P now cfg (l ++ l'))
    (hlt : ∀ a ∈ l, ∀ b ∈ l', orderKey P a < orderKey P b) :
    ordered P now cfg (l ++ l') = ordered P now cfg l ++ ordered P now cfg l' := by
  have h1 : CollisionFree P now cfg l := hcf.mono fun e he _ => List.mem_append_left _ he
  have h2 : CollisionFree P now cfg l' := hcf.mono fun e he _ => List.mem_append_right _ he
  refine (strictBy_ordered _).ext ?_ fun e => ?_
  · refine StrictBy.append_iff.mpr ⟨strictBy_ordered l, strictBy_ordered l', ?_⟩
    exact fun a ha b hb => hlt a (ordered_sub ha).1 b (ordered_sub hb).1
  · rw [mem_ordered hcf, List.mem_append, List.mem_append, mem_ordered h1, mem_ordered h2]
    exact or_and_right

/-- The fold goes on with entries that sort behind all others. -/
theorem foldAll_append {l l' : List Entry} (hcf : CollisionFree P now cfg (l ++ l'))
    (hlt : ∀ a ∈ l, ∀ b ∈ l', orderKey P a < orderKey P b) :
    foldAll P now cfg (l ++ l') =
      foldFrom cfg (foldAll P now cfg l) (ordered P now cfg l') := by
  unfold foldAll
  rw [ordered_append hcf hlt, foldFrom, run_append]

/-! ## 3. Where an entry lands -/

/-- The state an entry `f` meets when it is folded among the entries `E`. -/
def stateAt (P : Primitives) (now : UInt64) (cfg : Config) (E : List Entry) (f : Entry) :
    FoldState :=
  landing (foldEntry cfg) (orderKey P) .init (ordered P now cfg E) f

end Nullgate
