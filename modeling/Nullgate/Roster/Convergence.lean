/-
  File:      Nullgate/Roster/Convergence.lean
  Subject:   CONVERGENCE: `Roster::build` is a function of a SET of entries.

  `Roster.ofFinset` reads a roster off a set. `build_eq_ofFinset` says that `build` does
  nothing else: the input list enters through the set of its authentic entries alone. So
  replicas that hold the same authentic entries hold the same roster, whatever arrived in
  which order, how often, and with what junk around it (`build_convergence`).
-/
import Nullgate.Roster.Order
import Mathlib.Data.Finset.Sort

namespace Nullgate

open Nullgate.Lib

variable {P : Primitives} {now : UInt64} {cfg : Config}

/-- **The same authentic entries yield the same roster.** -/
theorem build_congr {l l' : List Entry} (hcf : CollisionFree P now cfg l)
    (h : ∀ e, authentic P now cfg e = true → (e ∈ l ↔ e ∈ l')) :
    Roster.build P now cfg l = Roster.build P now cfg l' := by
  unfold Roster.build foldAll
  rw [ordered_congr hcf h]

/-! ## The roster of a set -/

/-- The set of authentic entries of a list. -/
def authenticSet (P : Primitives) (now : UInt64) (cfg : Config) (l : List Entry) : Finset Entry :=
  l.toFinset.filter fun e => authentic P now cfg e = true

/-- The roster of a set of entries: the fold over any listing of it. -/
noncomputable def Roster.ofFinset (P : Primitives) (now : UInt64) (cfg : Config)
    (S : Finset Entry) : Roster := Roster.build P now cfg S.toList

theorem mem_authenticSet {l : List Entry} {e : Entry} :
    e ∈ authenticSet P now cfg l ↔ e ∈ l ∧ authentic P now cfg e = true := by
  rw [authenticSet, Finset.mem_filter, List.mem_toFinset]

/-- **`build` reads the set of authentic entries and nothing else of its input.** -/
theorem build_eq_ofFinset {l : List Entry} (hcf : CollisionFree P now cfg l) :
    Roster.build P now cfg l = Roster.ofFinset P now cfg (authenticSet P now cfg l) := by
  refine build_congr hcf fun e ha => ?_
  rw [Finset.mem_toList, mem_authenticSet]
  exact (and_iff_left ha).symm

/-- An entry with a bad signature, of another network, or beyond the ceiling. -/
def Junk (P : Primitives) (now : UInt64) (cfg : Config) (e : Entry) : Prop :=
  e.verifySignature P = false ∨ e.networkId ≠ cfg.networkId ∨ ceiling now < e.op.ts

theorem junk_iff {e : Entry} : Junk P now cfg e ↔ authentic P now cfg e = false := by
  simp only [Junk, authentic, Bool.and_eq_false_iff, decide_eq_false_iff_not, not_le]
  tauto

/-- **Convergence.** As long as ids do not collide, the roster of a list is unchanged by
    permuting it, by repeating entries of it, and by adding junk; and any two lists with the
    same authentic entries have the same roster. -/
theorem build_convergence {l : List Entry} (hcf : CollisionFree P now cfg l) :
    (∀ l', l'.Perm l → Roster.build P now cfg l' = Roster.build P now cfg l) ∧
    (∀ d, (∀ e ∈ d, e ∈ l) → Roster.build P now cfg (l ++ d) = Roster.build P now cfg l) ∧
    (∀ j, (∀ e ∈ j, Junk P now cfg e) →
      ∀ l', l'.Perm (l ++ j) → Roster.build P now cfg l' = Roster.build P now cfg l) ∧
    (∀ l', (∀ e, authentic P now cfg e = true → (e ∈ l' ↔ e ∈ l)) →
      Roster.build P now cfg l' = Roster.build P now cfg l) := by
  have hset : ∀ l', (∀ e, authentic P now cfg e = true → (e ∈ l' ↔ e ∈ l)) →
      Roster.build P now cfg l' = Roster.build P now cfg l :=
    fun l' h => (build_congr hcf fun e ha => (h e ha).symm).symm
  refine ⟨fun l' hp => hset l' fun e _ => hp.mem_iff, fun d hd => hset _ fun e _ => ?_,
    fun j hj l' hp => hset l' fun e ha => ?_, hset⟩
  · rw [List.mem_append]
    exact ⟨fun h => h.elim id (hd e), Or.inl⟩
  · -- junk is not authentic, so it is not the entry asked about
    rw [hp.mem_iff, List.mem_append]
    refine ⟨fun h => h.resolve_right fun hm => ?_, Or.inl⟩
    rw [junk_iff.mp (hj e hm)] at ha
    cases ha

/-- The setup converges, with a Peer joined. -/
theorem build_convergence_sample :
    Roster.build .plain 100 Sample.config
        (Sample.add 2 3 .peer 7 2 :: Sample.peerInvite :: Sample.setup) =
      Roster.build .plain 100 Sample.config (Sample.setup ++ [Sample.add 2 3 .peer 7 2]) :=
  (build_convergence (l := Sample.setup ++ [Sample.add 2 3 .peer 7 2]) (by decide)).2.2.2 _
    fun e _ => by simp [Sample.setup]; tauto

end Nullgate
