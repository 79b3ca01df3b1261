/-
  File:      Nullgate/Roster/Access.lean
  Subject:   WHO IS A MEMBER, entry by entry, and what later-arriving entries cost.

  * `accepted` -- the verdict of the fold on an entry: it has the authority where it lands.
  * `isMember_build_iff`: a node is a member exactly when an accepted `add` admits it and no
    accepted `remove` behind that one removes it.
  * `accepted_congr`: a verdict depends on the entries that sort before, and on no others.
  * Entries without a `remove` that sort between the others can cost a member its membership
    (`member_not_kept`): an invite change, a freeze or a role change that lands before an `add`
    withdraws the verdict it had, and one that makes a Controller lends its old `remove`s
    authority. Where neither befalls the entries about a member, it stays
    (`member_kept_of_verdicts`), and so it does where they all sort before the new ones
    (`member_kept_behind`).
-/
import Nullgate.Roster.Order
import Nullgate.Roster.Rules

namespace Nullgate

open Nullgate.Lib

variable {P : Primitives} {now : UInt64} {cfg : Config} {E F : List Entry}

/-! ## 1. Verdicts -/

/-- The fold of `E` lets the entry in where it lands. -/
def accepted (P : Primitives) (now : UInt64) (cfg : Config) (E : List Entry) (e : Entry) : Bool :=
  authorised cfg (stateAt P now cfg E e) e

/-- What an entry writes to a membership, read off its verdict. -/
theorem memberReg_writes_iff {m : Id} {e : Entry} {b : Bool} :
    (memberReg cfg m).writes (stateAt P now cfg E e) e = some b ↔
      accepted P now cfg E e = true ∧ memberWrite e m = some b := by
  simp only [memberReg, accepted]
  split
  · rename_i h
    simp [h]
  · rename_i h
    simp [h]

/-- In the fold of `E` an accepted `add` admits `m`, and no accepted `remove` behind it
    removes `m`. -/
def Vouched (P : Primitives) (now : UInt64) (cfg : Config) (E : List Entry) (m : Id) : Prop :=
  ∃ a ∈ ordered P now cfg E, accepted P now cfg E a = true ∧ a.admits? = some m ∧
    ∀ r ∈ ordered P now cfg E, orderKey P a < orderKey P r → accepted P now cfg E r = true →
      r.removes? ≠ some m

/-- **Who is a member**: whoever an accepted `add` admits and no accepted `remove` behind
    that one removes. -/
theorem isMember_build_iff {m : Id} :
    (Roster.build P now cfg E).isMember m = true ↔ Vouched P now cfg E m := by
  have h0 : (memberReg cfg m).obs .init ≠ true := by
    simp [memberReg, FoldState.init, Roster.default, Roster.isMember]
  have hobs : (Roster.build P now cfg E).isMember m = true ↔
      (memberReg cfg m).obs (run (foldEntry cfg) .init (ordered P now cfg E)) = true := by
    rw [Roster.build, finish_isMember]
    rfl
  refine ⟨?_, ?_⟩
  · intro h
    -- the last accepted entry about the membership is an `add`
    obtain ⟨a, ha, hw, hq⟩ :=
      ((memberReg cfg m).obs_run_eq_iff_exists (strictBy_ordered E) h0).mp (hobs.mp h)
    obtain ⟨hacc, hadm⟩ := memberReg_writes_iff.mp hw
    refine ⟨a, ha, hacc, memberWrite_eq_true.mp hadm, fun r hr hlt hr' hrem => ?_⟩
    have hsome := memberReg_writes_iff.mpr ⟨hr', memberWrite_eq_false.mpr hrem⟩
    have hnone : (memberReg cfg m).writes (stateAt P now cfg E r) r = none := hq r hr hlt
    rw [hnone] at hsome
    cases hsome
  · intro h'
    obtain ⟨a, ha, hacc, hadm, hno⟩ := h'
    have hw := memberReg_writes_iff.mpr ⟨hacc, memberWrite_eq_true.mpr hadm⟩
    have hgood := (memberReg cfg m).good_run_iff_of_writes (· = true) (strictBy_ordered E) ha hw rfl
    refine hobs.mpr (hgood.mpr fun r hr hlt b hb _ => ?_)
    obtain ⟨hr', hb'⟩ := memberReg_writes_iff.mp hb
    cases b with
    | true => rfl
    | false => exact absurd (memberWrite_eq_false.mp hb') (hno r hr hlt hr')

/-- **A verdict depends on what sorts before**: two folds that read the same entries before `e`
    decide alike on it, at whatever clocks. -/
theorem accepted_congr {now' : UInt64} {E' : List Entry} {e : Entry}
    (h : ∀ x, orderKey P x < orderKey P e →
      (x ∈ ordered P now cfg E ↔ x ∈ ordered P now' cfg E')) :
    accepted P now cfg E e = accepted P now' cfg E' e := by
  have hbefore : (ordered P now cfg E).filter (fun x => decide (orderKey P x < orderKey P e)) =
      (ordered P now' cfg E').filter fun x => decide (orderKey P x < orderKey P e) := by
    refine ((strictBy_ordered E).filter _).ext ((strictBy_ordered E').filter _) fun x => ?_
    rw [List.mem_filter, List.mem_filter, decide_eq_true_eq]
    exact and_congr_left (h x)
  rw [accepted, accepted, stateAt, stateAt, landing, landing, hbefore]

/-! ## 2. What entries without a `remove` cost -/

/-- The entry is about the membership of `m`: it would admit `m`, or remove it. -/
def Entry.About (e : Entry) (m : Id) : Prop := e.admits? = some m ∨ e.removes? = some m

instance decidableAbout (e : Entry) (m : Id) : Decidable (e.About m) :=
  inferInstanceAs (Decidable (_ ∨ _))

/-- In the fold of `E ∪ F` an `add` of `m` in `E` loses the authority it has in the fold of `E`, or
    a `remove` of `m` in `E` gains one it does not have there. -/
def Reversed (P : Primitives) (now : UInt64) (cfg : Config) (E F : List Entry) (m : Id) : Prop :=
  ∃ e ∈ ordered P now cfg E,
    (e.admits? = some m ∧ accepted P now cfg E e = true ∧ accepted P now cfg (E ++ F) e = false) ∨
    (e.removes? = some m ∧ accepted P now cfg E e = false ∧ accepted P now cfg (E ++ F) e = true)

/-- **Where the verdicts stand, the members stay**: a member keeps its membership as long as
    no `add` of it loses its authority among the entries of `F`, and no `remove` of it gains one. -/
theorem member_kept_of_verdicts {m : Id} (hcf : CollisionFree P now cfg (E ++ F))
    (hF : ∀ f ∈ F, f.removes? = none) (hsame : ¬ Reversed P now cfg E F m)
    (hm : (Roster.build P now cfg E).isMember m = true) :
    (Roster.build P now cfg (E ++ F)).isMember m = true := by
  have hE : CollisionFree P now cfg E := hcf.mono fun e he _ => List.mem_append_left _ he
  obtain ⟨a, ha, hacc, hadm, hno⟩ := isMember_build_iff.mp hm
  obtain ⟨haE, hauth⟩ := ordered_sub ha
  refine isMember_build_iff.mpr
    ⟨a, (mem_ordered hcf).mpr ⟨List.mem_append_left _ haE, hauth⟩, ?_, hadm, ?_⟩
  · by_contra hlost
    rw [Bool.not_eq_true] at hlost
    exact hsame ⟨a, ha, Or.inl ⟨hadm, hacc, hlost⟩⟩
  · intro r hr hlt hr' hrem
    obtain ⟨hrL, hra⟩ := ordered_sub hr
    rcases List.mem_append.mp hrL with hrE | hrF
    · -- the `remove` was there before, and had no authority behind the `add`
      have hrE' : r ∈ ordered P now cfg E := (mem_ordered hE).mpr ⟨hrE, hra⟩
      cases hold : accepted P now cfg E r with
      | true => exact hno r hrE' hlt hold hrem
      | false => exact hsame ⟨r, hrE', Or.inr ⟨hrem, hold, hr'⟩⟩
    · rw [hF r hrF] at hrem
      cases hrem

/-- Entries behind those about `m` reverse no verdict on it. -/
theorem not_reversed_of_behind {m : Id} (hcf : CollisionFree P now cfg (E ++ F))
    (hlate : ∀ e ∈ E, e.About m → ∀ f ∈ F, orderKey P e < orderKey P f) :
    ¬ Reversed P now cfg E F m := by
  have hE : CollisionFree P now cfg E := hcf.mono fun e he _ => List.mem_append_left _ he
  have hsame : ∀ e ∈ ordered P now cfg E, e.About m →
      accepted P now cfg E e = accepted P now cfg (E ++ F) e := by
    intro e he habout
    refine accepted_congr fun x hx => ?_
    rw [mem_ordered hE, mem_ordered hcf, List.mem_append]
    refine and_congr_left fun _ => ⟨Or.inl, fun hx' => hx'.resolve_right fun hxF => ?_⟩
    exact lt_asymm hx (hlate e (ordered_sub he).1 habout x hxF)
  rintro ⟨e, he, ⟨hadm, hacc, hlost⟩ | ⟨hrem, hacc, hgained⟩⟩
  · rw [hsame e he (Or.inl hadm), hlost] at hacc
    cases hacc
  · rw [hsame e he (Or.inr hrem), hgained] at hacc
    cases hacc

/-- **Entries that sort behind those about a member**, and hold no `remove`, do not cost it its
    membership: a new invite or a freeze concerns later joins only. -/
theorem member_kept_behind {m : Id} (hcf : CollisionFree P now cfg (E ++ F))
    (hF : ∀ f ∈ F, f.removes? = none)
    (hlate : ∀ e ∈ E, e.About m → ∀ f ∈ F, orderKey P e < orderKey P f)
    (hm : (Roster.build P now cfg E).isMember m = true) :
    (Roster.build P now cfg (E ++ F)).isMember m = true :=
  member_kept_of_verdicts hcf hF (not_reversed_of_behind hcf hlate) hm

/-- Device 3 has joined with the Peer invite of the setup, at time 5. -/
def Sample.joined : List Entry := Sample.setup ++ [Sample.add 2 3 .peer 7 5]

/-- The originator's next Peer invite, stamped before that join: it arrives late, or its
    clock is behind. -/
def Sample.lateInvite : Entry := Sample.signed 1 (.setInvite .peer (Sample.nonce 8) false 4)

/-- **A new invite can cost a member its membership**: it holds no `remove`, but it lands
    before the `add` that cited the old one. -/
theorem member_not_kept :
    (Roster.build .plain 100 Sample.config Sample.joined).isMember (Sample.key 3) = true ∧
      (Roster.build .plain 100 Sample.config
        (Sample.joined ++ [Sample.lateInvite])).isMember (Sample.key 3) = false := by decide

end Nullgate
