/-
  File:      Nullgate/Lib/Bytes.lean
  Subject:   FIXED-LENGTH BYTE STRINGS AND THEIR ORDER.

  A `[u8; n]` is a list of bytes that carries its own length (`Bytes n`). It is ordered
  the way the language orders arrays: byte by byte, the first difference decides. The
  machine words of Lean come with `≤` and `<` but without a `LinearOrder`; the two the
  development sorts by get one here, over the relations they already have.
-/
import Mathlib.Data.List.Lex
import Mathlib.Order.Compare

namespace Nullgate.Lib

instance linearOrderUInt8 : LinearOrder UInt8 where
  le_refl := UInt8.le_refl
  le_trans _ _ _ := UInt8.le_trans
  lt_iff_le_not_ge _ _ := Std.LawfulOrderLT.lt_iff _ _
  le_antisymm _ _ := UInt8.le_antisymm
  le_total := UInt8.le_total
  toDecidableLE := inferInstance
  toDecidableLT := inferInstance
  toDecidableEq := inferInstance
  toOrd := inferInstance
  compare_eq_compareOfLessAndEq _ _ := rfl

instance linearOrderUInt64 : LinearOrder UInt64 where
  le_refl := UInt64.le_refl
  le_trans _ _ _ := UInt64.le_trans
  lt_iff_le_not_ge _ _ := Std.LawfulOrderLT.lt_iff _ _
  le_antisymm _ _ := UInt64.le_antisymm
  le_total := UInt64.le_total
  toDecidableLE := inferInstance
  toDecidableLT := inferInstance
  toDecidableEq := inferInstance
  toOrd := inferInstance
  compare_eq_compareOfLessAndEq _ _ := rfl

instance transOrdUInt8 : Std.TransOrd UInt8 := inferInstance

/-- A byte string of length `n`. -/
@[ext] structure Bytes (n : Nat) where
  toList : List UInt8
  length_eq : toList.length = n
  deriving DecidableEq

namespace Bytes

variable {n : Nat}

theorem toList_injective : Function.Injective (Bytes.toList (n := n)) :=
  fun _ _ h => Bytes.ext h

/-- The lexicographic order of the bytes. -/
instance : LinearOrder (Bytes n) := LinearOrder.lift' Bytes.toList toList_injective

instance : Std.LawfulEqOrd (Bytes n) := ⟨fun h => compare_eq_iff_eq.mp h⟩

/-- The array `[b; n]`. -/
def fill (n : Nat) (b : UInt8) : Bytes n := ⟨List.replicate n b, List.length_replicate⟩

/-- The first `n` bytes of a list, zeros behind its end. -/
def pad (n : Nat) (l : List UInt8) : Bytes n :=
  ⟨(l ++ List.replicate n 0).take n, by simp⟩

/-- The array of `l`'s bytes, where `l` has the right length (`try_into`). -/
def ofList? (n : Nat) (l : List UInt8) : Option (Bytes n) :=
  if h : l.length = n then some ⟨l, h⟩ else none

@[simp] theorem ofList?_toList (b : Bytes n) : ofList? n b.toList = some b := by
  simp [ofList?, b.length_eq]

end Bytes

end Nullgate.Lib
