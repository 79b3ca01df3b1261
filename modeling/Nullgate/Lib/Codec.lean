/-
  File:      Nullgate/Lib/Codec.lean
  Subject:   CODECS: a writer, a reader, and the law that the reader undoes the writer.

  A `Codec` writes a value as bytes and reads one value off the front of a byte string. Its
  law is a field: what is written reads back, with whatever stands behind it left over. So a
  format is built from its parts and its round trip is never proved again. Length headers
  have 64 bits, so the law is about byte strings shorter than `2 ^ 64`.

  * `imap`, `seq`, `after`, `tagged` -- another type, one behind the other, behind fixed
    bytes, and a tag that says how to read the rest;
  * `beBytes`, `ofBe` -- big-endian numbers of a fixed width.
-/
import Mathlib.Data.List.Basic
import Mathlib.Tactic.Ring

namespace Nullgate.Lib

/-- **A codec**: values as bytes, one behind the other. -/
structure Codec (α : Type*) where
  enc : α → List UInt8
  dec : List UInt8 → Option (α × List UInt8)
  law : ∀ a rest, (enc a).length < UInt64.size → dec (enc a ++ rest) = some (a, rest)

namespace Codec

variable {α β : Type*}

/-- What is written alone reads back with nothing left over. -/
theorem dec_enc (c : Codec α) {a : α} (h : (c.enc a).length < UInt64.size) :
    c.dec (c.enc a) = some (a, []) := by
  simpa using c.law a [] h

/-- The codec of a type that is another one by a change of names. -/
def imap (c : Codec α) (f : α → β) (g : β → α) (h : ∀ b, f (g b) = b) : Codec β where
  enc b := c.enc (g b)
  dec l := (c.dec l).map fun (a, rest) => (f a, rest)
  law b rest hlen := by simp [c.law (g b) rest hlen, h]

/-- One value behind the other. -/
def seq (c : Codec α) (d : Codec β) : Codec (α × β) where
  enc p := c.enc p.1 ++ d.enc p.2
  dec l := (c.dec l).bind fun (a, rest) => (d.dec rest).map fun (b, rest) => ((a, b), rest)
  law p rest hlen := by
    rw [List.length_append] at hlen
    have ha := c.law p.1 (d.enc p.2 ++ rest) (lt_of_le_of_lt (Nat.le_add_right _ _) hlen)
    have hb := d.law p.2 rest (lt_of_le_of_lt (Nat.le_add_left _ _) hlen)
    simp [List.append_assoc, ha, hb]

theorem length_seq_le {c : Codec α} {d : Codec β} {a : α} {b : β} {m n : Nat}
    (hc : (c.enc a).length ≤ m) (hd : (d.enc b).length ≤ n) :
    ((c.seq d).enc (a, b)).length ≤ m + n := by
  show (c.enc a ++ d.enc b).length ≤ _
  rw [List.length_append]
  omega

theorem length_left_le_seq (c : Codec α) (d : Codec β) (a : α) (b : β) :
    (c.enc a).length ≤ ((c.seq d).enc (a, b)).length := by
  show _ ≤ (c.enc a ++ d.enc b).length
  rw [List.length_append]
  omega

theorem length_right_le_seq (c : Codec α) (d : Codec β) (a : α) (b : β) :
    (d.enc b).length ≤ ((c.seq d).enc (a, b)).length := by
  show _ ≤ (c.enc a ++ d.enc b).length
  rw [List.length_append]
  omega

/-- What stands behind the bytes `l` at the front of a byte string. -/
def strip (l bytes : List UInt8) : Option (List UInt8) :=
  if bytes.take l.length = l then some (bytes.drop l.length) else none

@[simp] theorem strip_append (l rest : List UInt8) : strip l (l ++ rest) = some rest := by
  simp [strip]

/-- A value behind fixed bytes. -/
def after (c : Codec α) (l : List UInt8) : Codec α where
  enc a := l ++ c.enc a
  dec bytes := (strip l bytes).bind c.dec
  law a rest hlen := by
    rw [List.length_append] at hlen
    have ha := c.law a rest (lt_of_le_of_lt (Nat.le_add_left _ _) hlen)
    simp [List.append_assoc, ha]

theorem length_le_after (c : Codec α) (l : List UInt8) (a : α) :
    (c.enc a).length ≤ ((c.after l).enc a).length := by
  show _ ≤ (l ++ c.enc a).length
  rw [List.length_append]
  omega

/-- A tag, and behind it a value of the type the tag names. -/
def tagged {τ : Type*} {β : τ → Type*} (tag : Codec τ) (body : ∀ t, Codec (β t)) :
    Codec (Σ t, β t) where
  enc p := tag.enc p.1 ++ (body p.1).enc p.2
  dec l := (tag.dec l).bind fun (t, rest) => ((body t).dec rest).map fun (b, rest) => (⟨t, b⟩, rest)
  law p rest hlen := by
    rw [List.length_append] at hlen
    have ht := tag.law p.1 ((body p.1).enc p.2 ++ rest)
      (lt_of_le_of_lt (Nat.le_add_right _ _) hlen)
    have hb := (body p.1).law p.2 rest (lt_of_le_of_lt (Nat.le_add_left _ _) hlen)
    simp [List.append_assoc, ht, hb]

end Codec

/-! ## Big-endian numbers -/

/-- The last `k` bytes of `n`, high byte first. -/
def beBytes : Nat → Nat → List UInt8
  | 0, _ => []
  | k + 1, n => (n / 256 ^ k).toUInt8 :: beBytes k n

/-- The number the bytes spell, high byte first. -/
def ofBe (l : List UInt8) : Nat := l.foldl (fun acc b => 256 * acc + b.toNat) 0

@[simp] theorem length_beBytes (k n : Nat) : (beBytes k n).length = k := by
  induction k with
  | zero => rfl
  | succ k ih => simp [beBytes, ih]

theorem foldl_beBytes (k n acc : Nat) :
    (beBytes k n).foldl (fun acc b => 256 * acc + b.toNat) acc =
      256 ^ k * acc + n % 256 ^ k := by
  induction k generalizing acc with
  | zero => simp [beBytes, Nat.mod_one]
  | succ k ih =>
    have hb : (n / 256 ^ k).toUInt8.toNat = n / 256 ^ k % 256 := rfl
    have hmod : n % 256 ^ (k + 1) = n % 256 ^ k + 256 ^ k * (n / 256 ^ k % 256) := by
      rw [pow_succ, Nat.mod_mul]
    rw [beBytes, List.foldl_cons, ih, hb, hmod]
    ring

/-- **A number below `256 ^ k` reads back from its `k` bytes.** -/
theorem ofBe_beBytes {k n : Nat} (h : n < 256 ^ k) : ofBe (beBytes k n) = n := by
  rw [ofBe, foldl_beBytes, Nat.mul_zero, Nat.zero_add, Nat.mod_eq_of_lt h]

end Nullgate.Lib
