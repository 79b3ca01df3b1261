/-
  File:      Nullgate/Lib/Base32.lean
  Subject:   BASE32 without padding: five bits a symbol, high bit first.

  * `toBits`, `ofBits` -- a number as its bits;
  * `encode`, `decode` -- bytes to symbols, and back: what is left over behind the last byte is
    less than a symbol, and zero;
  * `decode_encode`: what is written reads back;
  * `encode_of_decode`: what reads is what is written.
-/
import Nullgate.Lib.Bytes
import Mathlib.Data.List.Basic
import Mathlib.Tactic.Ring

namespace Nullgate.Lib.Base32

/-! ## 1. Bits -/

/-- The last `w` bits of `n`, high bit first. -/
def toBits : Nat → Nat → List Bool
  | 0, _ => []
  | w + 1, n => decide (n / 2 ^ w % 2 = 1) :: toBits w n

/-- The number the bits spell, high bit first. -/
def ofBits : List Bool → Nat
  | [] => 0
  | b :: l => (if b then 2 ^ l.length else 0) + ofBits l

@[simp] theorem length_toBits (w n : Nat) : (toBits w n).length = w := by
  induction w with
  | zero => rfl
  | succ w ih => rw [toBits, List.length_cons, ih]

theorem ofBits_lt (l : List Bool) : ofBits l < 2 ^ l.length := by
  induction l with
  | nil => exact Nat.one_pos
  | cons b l ih =>
    rw [ofBits, List.length_cons, pow_succ]
    cases b <;> simp <;> omega

/-- A number is its last bits, as far as they go. -/
theorem ofBits_toBits (w n : Nat) : ofBits (toBits w n) = n % 2 ^ w := by
  induction w with
  | zero => rw [pow_zero, Nat.mod_one]; rfl
  | succ w ih =>
    rw [toBits, ofBits, ih, length_toBits, pow_succ, Nat.mod_mul]
    by_cases hb : n / 2 ^ w % 2 = 1
    · simp only [hb, decide_true, if_true]
      ring
    · have hzero : n / 2 ^ w % 2 = 0 := by omega
      simp [hzero]

/-- Higher bits do not matter. -/
theorem toBits_add (w k n : Nat) : toBits w (2 ^ w * k + n) = toBits w n := by
  induction w generalizing k with
  | zero => rfl
  | succ w ih =>
    have hsplit : 2 ^ (w + 1) * k + n = 2 ^ w * (2 * k) + n := by ring
    have hdiv : (2 ^ w * (2 * k) + n) / 2 ^ w = 2 * k + n / 2 ^ w :=
      Nat.mul_add_div (Nat.two_pow_pos w) _ _
    have hmod : (2 * k + n / 2 ^ w) % 2 = n / 2 ^ w % 2 := by omega
    rw [toBits, toBits, hsplit, ih, hdiv, hmod]

/-- The bits of a number come apart at any place. -/
theorem toBits_append (w k n : Nat) : toBits (w + k) n = toBits w (n / 2 ^ k) ++ toBits k n := by
  induction w with
  | zero => rw [Nat.zero_add]; rfl
  | succ w ih =>
    have hdiv : n / 2 ^ (w + k) = n / 2 ^ k / 2 ^ w := by
      rw [Nat.div_div_eq_div_mul, ← pow_add, Nat.add_comm k w]
    rw [Nat.add_right_comm, toBits, ih, hdiv, toBits, List.cons_append]

/-- A higher place than the last one asked for does not matter. -/
theorem toBits_mod {w m : Nat} (h : w ≤ m) (n : Nat) : toBits w (n % 2 ^ m) = toBits w n := by
  have hsplit : n = 2 ^ w * (2 ^ (m - w) * (n / 2 ^ m)) + n % 2 ^ m := by
    rw [← Nat.mul_assoc, ← pow_add, Nat.add_sub_cancel' h]
    exact (Nat.div_add_mod n (2 ^ m)).symm
  conv_rhs => rw [hsplit, toBits_add]

/-- The bits of the number some bits spell. -/
theorem toBits_ofBits (l : List Bool) : toBits l.length (ofBits l) = l := by
  induction l with
  | nil => rfl
  | cons b l ih =>
    have hlt := ofBits_lt l
    have hpos := Nat.two_pow_pos l.length
    rw [List.length_cons, toBits, ofBits]
    have hrest : toBits l.length ((if b then 2 ^ l.length else 0) + ofBits l) = l := by
      have hmul : (if b then 2 ^ l.length else 0) = 2 ^ l.length * (if b then 1 else 0) := by
        cases b <;> simp
      rw [hmul, toBits_add, ih]
    rw [hrest]
    cases b with
    | true =>
      have hdiv : (2 ^ l.length + ofBits l) / 2 ^ l.length = 1 := by
        rw [Nat.add_div_left _ hpos, Nat.div_eq_of_lt hlt]
      simp [hdiv]
    | false => simp [Nat.div_eq_of_lt hlt]

/-! ## 2. Pieces of a fixed width -/

/-- The first `k` pieces of `w` bits. -/
def pieces (w : Nat) : Nat → List Bool → List (List Bool)
  | 0, _ => []
  | k + 1, l => l.take w :: pieces w k (l.drop w)

theorem length_of_mem_pieces {w k : Nat} {l piece : List Bool} (hl : w * k ≤ l.length)
    (h : piece ∈ pieces w k l) : piece.length = w := by
  induction k generalizing l with
  | zero => cases h
  | succ k ih =>
    rw [Nat.mul_succ] at hl
    rcases List.mem_cons.mp h with rfl | h
    · rw [List.length_take]
      omega
    · refine ih ?_ h
      rw [List.length_drop]
      omega

theorem flatten_pieces (w k : Nat) (l : List Bool) : (pieces w k l).flatten = l.take (w * k) := by
  induction k generalizing l with
  | zero => rfl
  | succ k ih => rw [pieces, List.flatten_cons, ih, Nat.mul_succ, Nat.add_comm, List.take_add]

/-- Pieces that were put together come apart again. -/
theorem pieces_flatMap {α : Type*} (w : Nat) (f : α → List Bool) (hf : ∀ a, (f a).length = w)
    (as : List α) (rest : List Bool) :
    pieces w as.length (as.flatMap f ++ rest) = as.map f := by
  induction as with
  | nil => rfl
  | cons a as ih =>
    rw [List.length_cons, pieces, List.flatMap_cons, List.append_assoc, List.take_left' (hf a),
      List.drop_left' (hf a), ih, List.map_cons]

/-- Pieces do not depend on what is behind them. -/
theorem pieces_take (w k : Nat) {l l' : List Bool} (h : l.take (w * k) = l'.take (w * k)) :
    pieces w k l = pieces w k l' := by
  induction k generalizing l l' with
  | zero => rfl
  | succ k ih =>
    have hhead : l.take w = l'.take w := by
      have hcut := congrArg (List.take w) h
      rwa [List.take_take, List.take_take, Nat.min_eq_left (Nat.le_mul_of_pos_right w k.succ_pos)]
        at hcut
    rw [Nat.mul_succ, Nat.add_comm, List.take_add, List.take_add, hhead] at h
    rw [pieces, pieces, hhead, ih (List.append_cancel_left h)]

/-! ## 3. Symbols -/

/-- The symbol of a value below 32. -/
def symbol (v : Nat) : Char := if v < 26 then Char.ofNat (65 + v) else Char.ofNat (24 + v)

/-- The value of a symbol. -/
def value? (c : Char) : Option Nat :=
  if 65 ≤ c.toNat ∧ c.toNat ≤ 90 then some (c.toNat - 65)
  else if 50 ≤ c.toNat ∧ c.toNat ≤ 55 then some (c.toNat - 24)
  else none

theorem value?_symbol {v : Nat} (h : v < 32) : value? (symbol v) = some v := by
  have hall : ∀ n < 32, value? (symbol n) = some n := by decide
  exact hall v h

/-- Symbols are capital letters and digits. -/
theorem symbol_mem {v : Nat} (h : v < 32) :
    symbol v ∈ "ABCDEFGHIJKLMNOPQRSTUVWXYZ234567".toList := by
  have hall : ∀ n < 32, symbol n ∈ "ABCDEFGHIJKLMNOPQRSTUVWXYZ234567".toList := by decide
  exact hall v h

/-! ## 4. Bytes as text -/

def byteBits (l : List UInt8) : List Bool := l.flatMap fun b => toBits 8 b.toNat

/-- The bytes as symbols, the last one filled up with zeros. -/
def encode (l : List UInt8) : List Char :=
  (pieces 5 ((8 * l.length + 4) / 5) (byteBits l ++ List.replicate 4 false)).map fun piece =>
    symbol (ofBits piece)

/-- The bits that symbols spell. -/
def symbolBits : List Char → Option (List Bool)
  | [] => some []
  | c :: cs => (value? c).bind fun v => (symbolBits cs).map fun bits => toBits 5 v ++ bits

/-- **The bytes that symbols spell**: behind the last byte less than a symbol is left, and it is
    zero. -/
def decode (cs : List Char) : Option (List UInt8) :=
  (symbolBits cs).bind fun bits =>
    let count := bits.length / 8
    if (bits.drop (8 * count)).length < 5 ∧ ∀ b ∈ bits.drop (8 * count), b = false then
      some ((pieces 8 count bits).map fun piece => (ofBits piece).toUInt8)
    else none

theorem length_byteBits (l : List UInt8) : (byteBits l).length = 8 * l.length := by
  induction l with
  | nil => rfl
  | cons b l ih =>
    rw [byteBits, List.flatMap_cons, List.length_append, length_toBits, List.length_cons]
    rw [byteBits] at ih
    omega

theorem byteBits_append (l l' : List UInt8) : byteBits (l ++ l') = byteBits l ++ byteBits l' :=
  List.flatMap_append

theorem symbolBits_map (ps : List (List Bool)) (h : ∀ piece ∈ ps, piece.length = 5) :
    symbolBits (ps.map fun piece => symbol (ofBits piece)) = some ps.flatten := by
  induction ps with
  | nil => rfl
  | cons piece ps ih =>
    have hlen := h piece List.mem_cons_self
    have hlt : ofBits piece < 32 := by
      have hlt := ofBits_lt piece
      rwa [hlen] at hlt
    have hpiece : toBits 5 (ofBits piece) = piece := by
      rw [← hlen]
      exact toBits_ofBits piece
    rw [List.map_cons, symbolBits, value?_symbol hlt, Option.bind_some,
      ih fun p hp => h p (List.mem_cons_of_mem _ hp), Option.map_some, hpiece, List.flatten_cons]

theorem symbolBits_encode (l : List UInt8) : symbolBits (encode l) =
    some (byteBits l ++ List.replicate (5 * ((8 * l.length + 4) / 5) - 8 * l.length) false) := by
  have hlen := length_byteBits l
  rw [encode, symbolBits_map, flatten_pieces, List.take_append, List.take_of_length_le (by omega),
    List.take_replicate, hlen]
  · congr 3
    omega
  · intro piece hpiece
    refine length_of_mem_pieces ?_ hpiece
    rw [List.length_append, List.length_replicate, hlen]
    omega

/-- **What is written reads back.** -/
theorem decode_encode (l : List UInt8) : decode (encode l) = some l := by
  have hlen := length_byteBits l
  have hcount : (byteBits l ++ List.replicate (5 * ((8 * l.length + 4) / 5) - 8 * l.length)
      false).length / 8 = l.length := by
    rw [List.length_append, List.length_replicate, hlen]
    omega
  have hdrop : (byteBits l ++ List.replicate (5 * ((8 * l.length + 4) / 5) - 8 * l.length)
      false).drop (8 * l.length) =
        List.replicate (5 * ((8 * l.length + 4) / 5) - 8 * l.length) false :=
    List.drop_left' hlen
  have hleft : (List.replicate (5 * ((8 * l.length + 4) / 5) - 8 * l.length) false).length < 5 := by
    rw [List.length_replicate]
    omega
  have hbytes :
      (l.map fun b => toBits 8 b.toNat).map (fun piece => (ofBits piece).toUInt8) = l := by
    rw [List.map_map]
    refine (List.map_congr_left fun b _ => ?_).trans (List.map_id l)
    show (ofBits (toBits 8 b.toNat)).toUInt8 = b
    rw [ofBits_toBits, Nat.mod_eq_of_lt b.toNat_lt]
    exact UInt8.ofNat_toNat
  rw [decode, symbolBits_encode, Option.bind_some]
  simp only [hcount, hdrop]
  rw [if_pos ⟨hleft, fun b hb => List.eq_of_mem_replicate hb⟩, byteBits,
    pieces_flatMap 8 (fun b : UInt8 => toBits 8 b.toNat) (fun b => length_toBits 8 b.toNat), hbytes]

/-- A symbol is that of its value. -/
theorem symbol_of_value? {c : Char} {v : Nat} (h : value? c = some v) : symbol v = c ∧ v < 32 := by
  unfold value? at h
  split at h
  · rename_i hletter
    obtain rfl := Option.some.inj h
    have hv : c.toNat - 65 < 26 := by omega
    rw [symbol, if_pos hv, show 65 + (c.toNat - 65) = c.toNat by omega, Char.ofNat_toNat]
    exact ⟨rfl, by omega⟩
  · split at h
    · rename_i hdigit
      obtain rfl := Option.some.inj h
      have hv : ¬ c.toNat - 24 < 26 := by omega
      rw [symbol, if_neg hv, show 24 + (c.toNat - 24) = c.toNat by omega, Char.ofNat_toNat]
      exact ⟨rfl, by omega⟩
    · cases h

/-- The bits that symbols spell are theirs alone. -/
theorem pieces_symbolBits {cs : List Char} {bits : List Bool} (h : symbolBits cs = some bits) :
    bits.length = 5 * cs.length ∧
      (pieces 5 cs.length bits).map (fun piece => symbol (ofBits piece)) = cs := by
  induction cs generalizing bits with
  | nil =>
    obtain rfl := Option.some.inj h
    exact ⟨rfl, rfl⟩
  | cons c cs ih =>
    rw [symbolBits, Option.bind_eq_some_iff] at h
    obtain ⟨v, hv, h⟩ := h
    obtain ⟨rest, hrest, rfl⟩ := Option.map_eq_some_iff.mp h
    obtain ⟨hlen, hmap⟩ := ih hrest
    obtain ⟨hsymbol, hlt⟩ := symbol_of_value? hv
    have hfive := length_toBits 5 v
    refine ⟨?_, ?_⟩
    · rw [List.length_append, hfive, hlen, List.length_cons]
      omega
    · rw [List.length_cons, pieces, List.take_left' hfive, List.drop_left' hfive, List.map_cons,
        hmap, ofBits_toBits, Nat.mod_eq_of_lt (show v < 2 ^ 5 from hlt), hsymbol]

/-- The bytes put together again are the bits they were cut from. -/
theorem byteBits_pieces (count : Nat) {bits : List Bool} (h : 8 * count ≤ bits.length) :
    byteBits ((pieces 8 count bits).map fun piece => (ofBits piece).toUInt8) =
      bits.take (8 * count) := by
  rw [← flatten_pieces, byteBits, List.flatMap_map, ← List.flatMap_id']
  refine List.flatMap_congr fun piece hpiece => ?_
  have hlen := length_of_mem_pieces h hpiece
  have hlt := ofBits_lt piece
  rw [hlen] at hlt
  have hbyte : ((ofBits piece).toUInt8).toNat = ofBits piece := Nat.mod_eq_of_lt hlt
  rw [hbyte, ← hlen, toBits_ofBits]

/-- **Each text is read in one way only**: what decodes is what is written of what it decodes to. -/
theorem encode_of_decode {cs : List Char} {l : List UInt8} (h : decode cs = some l) :
    encode l = cs := by
  obtain ⟨bits, hbits, h⟩ := Option.bind_eq_some_iff.mp h
  dsimp only at h
  split at h
  · rename_i hleft
    obtain ⟨hfew, hzero⟩ := hleft
    obtain rfl := Option.some.inj h
    obtain ⟨hlen, hsymbols⟩ := pieces_symbolBits hbits
    have hcount : 8 * (bits.length / 8) ≤ bits.length := Nat.mul_div_le _ _
    have hpieces : ∀ k (l : List Bool), (pieces 8 k l).length = k := fun k => by
      induction k with
      | zero => exact fun _ => rfl
      | succ k ih => exact fun l => congrArg (· + 1) (ih _)
    rw [List.length_drop] at hfew
    have hn : (8 * (bits.length / 8) + 4) / 5 = cs.length := by omega
    rw [encode, byteBits_pieces _ hcount, List.length_map, hpieces, hn]
    -- what is filled up with zeros has the bits in front
    have hrest : bits.drop (8 * (bits.length / 8)) =
        List.replicate (bits.length - 8 * (bits.length / 8)) false :=
      List.eq_replicate_iff.mpr ⟨List.length_drop, hzero⟩
    have htake : (bits.take (8 * (bits.length / 8)) ++ List.replicate 4 false).take
        (5 * cs.length) = bits.take (5 * cs.length) := by
      rw [← hlen, List.take_length, List.take_append, List.take_of_length_le (by simp),
        List.take_replicate, List.length_take, Nat.min_eq_left hcount,
        Nat.min_eq_left (by omega), ← hrest, List.take_append_drop]
    rw [pieces_take 5 cs.length htake, hsymbols]
  · cases h

/-- What is written are symbols. -/
theorem mem_encode {l : List UInt8} {c : Char} (h : c ∈ encode l) :
    c ∈ "ABCDEFGHIJKLMNOPQRSTUVWXYZ234567".toList := by
  obtain ⟨piece, hpiece, rfl⟩ := List.mem_map.mp h
  have hlen : piece.length = 5 := by
    refine length_of_mem_pieces ?_ hpiece
    rw [List.length_append, List.length_replicate, length_byteBits]
    omega
  have hlt := ofBits_lt piece
  rw [hlen] at hlt
  exact symbol_mem hlt

example : encode [0x66, 0x6f, 0x6f] = "MZXW6".toList := by decide

end Nullgate.Lib.Base32
