/-
  File:      Nullgate/Lib/Replicated.lean
  Subject:   REPLICAS THAT MERGE: parties that each hold a part of one growing whole.

  What a party holds is an element of a join semilattice. It grows by what is written at the party,
  and by what others pass on of what they hold. The rules are about the history alone: what each
  party holds at each time.

  * `Grows`, `NothingNew`, `Reaches` -- nothing is dropped; nothing new is written; what one party
    holds gets to another one;
  * `Reaches.trans`, `reaches_of_reflTransGen`: it gets there over others;
  * **`eventually_whole`**: where nothing new is written, and everybody is reached from everybody,
    all hold the whole from some time on;
  * `stays_until`, `eventually_of_stays`: what is kept until an action that comes again and again
    makes something of it.
-/
import Mathlib.Data.Finset.Lattice.Fold
import Mathlib.Logic.Relation
import Mathlib.Order.Filter.AtTopBot.Basic
import Mathlib.Order.Filter.Finite

namespace Nullgate.Lib

section Replicas

variable {ι α : Type*} [SemilatticeSup α] {held : Nat → ι → α}

/-- Nobody drops what they hold. -/
def Grows (held : Nat → ι → α) : Prop := ∀ t i, held t i ≤ held (t + 1) i

/-- **What the first party holds gets to the second**, sooner or later, whenever it comes to hold
    it. -/
def Reaches (held : Nat → ι → α) (i j : ι) : Prop := ∀ t, ∃ t', t ≤ t' ∧ held t i ≤ held t' j

theorem Grows.mono (h : Grows held) {t t' : Nat} (ht : t ≤ t') (i : ι) : held t i ≤ held t' i := by
  induction t', ht using Nat.le_induction with
  | base => exact le_rfl
  | succ t' _ ih => exact ih.trans (h t' i)

theorem Reaches.refl (i : ι) : Reaches held i i := fun t => ⟨t, le_rfl, le_rfl⟩

/-- What gets to a party gets to those it reaches. -/
theorem Reaches.trans {i j k : ι} (hij : Reaches held i j) (hjk : Reaches held j k) :
    Reaches held i k := by
  intro t
  obtain ⟨t₁, h₁, hle₁⟩ := hij t
  obtain ⟨t₂, h₂, hle₂⟩ := hjk t₁
  exact ⟨t₂, h₁.trans h₂, hle₁.trans hle₂⟩

theorem reaches_of_reflTransGen {i j : ι} (h : Relation.ReflTransGen (Reaches held) i j) :
    Reaches held i j := by
  induction h with
  | refl => exact .refl i
  | tail _ hjk ih => exact ih.trans hjk

variable [Fintype ι] [OrderBot α]

/-- The whole: what all hold together. -/
def whole (s : ι → α) : α := Finset.univ.sup s

theorem le_whole (s : ι → α) (i : ι) : s i ≤ whole s := Finset.le_sup (Finset.mem_univ i)

theorem whole_le {s : ι → α} {a : α} (h : ∀ i, s i ≤ a) : whole s ≤ a :=
  Finset.sup_le fun i _ => h i

/-- From time `T` on, what a party comes to hold was there before. -/
def NothingNew (held : Nat → ι → α) (T : Nat) : Prop :=
  ∀ t, T ≤ t → ∀ i, held (t + 1) i ≤ whole (held t)

/-- The whole stays what it was. -/
theorem NothingNew.whole_le {T : Nat} (h : NothingNew held T) {t : Nat} (ht : T ≤ t) :
    whole (held t) ≤ whole (held T) := by
  induction t, ht using Nat.le_induction with
  | base => exact le_rfl
  | succ t ht ih => exact (Nullgate.Lib.whole_le (h t ht)).trans ih

/-- **All come to hold the whole.** -/
theorem eventually_whole {T : Nat} (hgrow : Grows held) (hnew : NothingNew held T)
    (hconn : ∀ i j, Relation.ReflTransGen (Reaches held) i j) :
    ∀ᶠ t in Filter.atTop, ∀ i, held t i = whole (held T) := by
  have hpair : ∀ j i, ∀ᶠ t in Filter.atTop, held T j ≤ held t i := fun j i => by
    obtain ⟨t', _, hle⟩ := reaches_of_reflTransGen (hconn j i) T
    exact Filter.eventually_atTop.mpr ⟨t', fun t ht => hle.trans (hgrow.mono ht i)⟩
  have hall := Filter.eventually_all.mpr fun i => Filter.eventually_all.mpr fun j => hpair j i
  filter_upwards [hall, Filter.eventually_ge_atTop T] with t hle hT i
  exact le_antisymm ((le_whole (held t) i).trans (hnew.whole_le hT)) (whole_le (hle i))

end Replicas

section Stages

variable {P Q : Nat → Prop}

/-- **What is kept until something comes of it**, where an action that makes something of it comes
    again and again. -/
theorem stays_until {t : Nat} (h : P t) (hkeep : ∀ n, t ≤ n → P n → P (n + 1) ∨ Q (n + 1))
    (hact : ∀ n, t ≤ n → ∃ m, n ≤ m ∧ (P m → Q (m + 1))) : ∃ m, t ≤ m ∧ Q m := by
  obtain ⟨m, hm, hPQ⟩ := hact t le_rfl
  have hall : ∀ n, t ≤ n → P n ∨ ∃ k, t ≤ k ∧ Q k := fun n hn => by
    induction n, hn using Nat.le_induction with
    | base => exact Or.inl h
    | succ n hn ih =>
      rcases ih with hP | hQ
      · exact (hkeep n hn hP).imp_right fun hQ => ⟨n + 1, by omega, hQ⟩
      · exact Or.inr hQ
  rcases hall m hm with hP | hQ
  · exact ⟨m + 1, by omega, hPQ hP⟩
  · exact hQ

/-- The same from a first stage that comes again and again, to one that stays. -/
theorem eventually_of_stays {N : Nat} (hcome : ∃ t, N ≤ t ∧ Q t)
    (hstay : ∀ n, N ≤ n → Q n → Q (n + 1)) : ∀ᶠ t in Filter.atTop, Q t := by
  obtain ⟨t, ht, hQ⟩ := hcome
  refine Filter.eventually_atTop.mpr ⟨t, fun n hn => ?_⟩
  induction n, hn using Nat.le_induction with
  | base => exact hQ
  | succ n hn ih => exact hstay n (ht.trans hn) ih

end Stages

end Nullgate.Lib
