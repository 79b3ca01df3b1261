/-
  File:      Nullgate/Lib/OnesComplement.lean
  Subject:   ONE'S-COMPLEMENT SUMS OF 16-BIT WORDS, and the checksum that completes one.

  * `endAround`: a sum with its carries added back until none is left; `endAround_mod` reads it
    modulo 65535, where zero and all ones are the same;
  * `endAround_complement`: the complement of a sum, added to it, gives all ones;
  * `wordSum`: the sum of the big-endian words of a byte string, a last odd byte padded;
    `wordSum_set` says what replacing one word does to it.
-/
import Mathlib.Data.List.Basic

namespace Nullgate.Lib

/-! ## 1. Carries -/

/-- **The sum with its carries added back.** -/
def endAround (n : Nat) : Nat :=
  if n < 65536 then n else endAround (n % 65536 + n / 65536)
termination_by n
decreasing_by omega

theorem endAround_le (n : Nat) : endAround n ≤ 65535 := by
  fun_induction endAround n with
  | case1 n h => omega
  | case2 n h ih => exact ih

theorem endAround_mod (n : Nat) : endAround n % 65535 = n % 65535 := by
  fun_induction endAround n with
  | case1 n h => rfl
  | case2 n h ih => omega

/-- A carry is never lost: only the empty sum is zero. -/
theorem endAround_pos {n : Nat} (hn : 0 < n) : 0 < endAround n := by
  fun_induction endAround n with
  | case1 n h => exact hn
  | case2 n h ih => exact ih (by omega)

/-- **All ones**, the sum of a string that verifies. -/
theorem endAround_eq_ones_iff {n : Nat} : endAround n = 65535 ↔ 0 < n ∧ n % 65535 = 0 := by
  have hmod := endAround_mod n
  have hle := endAround_le n
  constructor
  · intro h
    refine ⟨Nat.pos_of_ne_zero ?_, by omega⟩
    rintro rfl
    unfold endAround at h
    cases h
  · intro h
    have hpos := endAround_pos h.1
    omega

/-- **The complement completes a sum.** -/
theorem endAround_complement {n : Nat} (hn : 0 < n) :
    endAround (n + (65535 - endAround n)) = 65535 := by
  have hmod := endAround_mod n
  have hle := endAround_le n
  rw [endAround_eq_ones_iff]
  omega

/-! ## 2. Words -/

/-- **The sum of the words of a byte string.** -/
def wordSum : List UInt8 → Nat
  | [] => 0
  | [high] => high.toNat * 256
  | high :: low :: rest => high.toNat * 256 + low.toNat + wordSum rest

theorem wordSum_le (l : List UInt8) : wordSum l ≤ 65535 * ((l.length + 1) / 2) := by
  fun_induction wordSum l with
  | case1 => exact Nat.zero_le _
  | case2 high =>
    have hhigh := high.toNat_lt
    show high.toNat * 256 ≤ 65535 * ((1 + 1) / 2)
    omega
  | case3 high low rest ih =>
    have hhigh := high.toNat_lt
    have hlow := low.toNat_lt
    have hlen : (rest.length + 1 + 1 + 1) / 2 = (rest.length + 1) / 2 + 1 := by omega
    rw [List.length_cons, List.length_cons, hlen]
    omega

/-- **A word replaced**: at an even place, the sum changes by the word alone. -/
theorem wordSum_set (l : List UInt8) (k : Nat) (high low : UInt8) (h : 2 * k + 1 < l.length) :
    wordSum ((l.set (2 * k) high).set (2 * k + 1) low) +
        ((l.getD (2 * k) 0).toNat * 256 + (l.getD (2 * k + 1) 0).toNat) =
      wordSum l + (high.toNat * 256 + low.toNat) := by
  induction k generalizing l with
  | zero =>
    match l, h with
    | a :: b :: rest, _ =>
      show high.toNat * 256 + low.toNat + wordSum rest + (a.toNat * 256 + b.toNat) =
        a.toNat * 256 + b.toNat + wordSum rest + (high.toNat * 256 + low.toNat)
      omega
  | succ k ih =>
    match l, h with
    | a :: b :: rest, h =>
      have hrest : 2 * k + 1 < rest.length := by
        rw [List.length_cons, List.length_cons] at h
        omega
      have hih := ih rest hrest
      have hset : ((a :: b :: rest).set (2 * (k + 1)) high).set (2 * (k + 1) + 1) low =
          a :: b :: (rest.set (2 * k) high).set (2 * k + 1) low := rfl
      have hget : (a :: b :: rest).getD (2 * (k + 1)) 0 = rest.getD (2 * k) 0 ∧
          (a :: b :: rest).getD (2 * (k + 1) + 1) 0 = rest.getD (2 * k + 1) 0 := ⟨rfl, rfl⟩
      rw [hset, hget.1, hget.2]
      show a.toNat * 256 + b.toNat + _ + _ = a.toNat * 256 + b.toNat + wordSum rest + _
      omega

end Nullgate.Lib
