/-
  File:      Nullgate/Admission/Digits.lean
  Subject:   THE DIGITS OF A SAS (`admission.rs`): seven of six bits each.

  `sas_emojis` shifts bytes into an accumulator that it never masks, and takes six bits at a
  time off its low end.

  * `sixBitDigits` -- what the loop is for: the digits of a bit string;
  * `checkedSasLoop` -- the same loop, ended by a read past the bytes or past the table;
  * `sasLoop_eq`: whatever stands in the accumulator's high bits, the next emojis are those of
    the bits not yet used;
  * **`transcript_and_digits`**.
-/
import Nullgate.Admission.Handshake
import Nullgate.Lib.Base32

namespace Nullgate.Admission

open Nullgate.Lib Nullgate.Lib.Base32

variable (hmac : Bytes 32 → List UInt8 → Bytes 32)

/-! ## 1. Digits -/

/-- The first `count` digits of six bits, high bit first. -/
def sixBitDigits (count : Nat) (bits : List Bool) : List Nat := (pieces 6 count bits).map ofBits

/-- The loop with its panics: each read of the bytes and of the table may fail, and so may the
    subtraction. -/
def checkedSasLoop (bytes : List UInt8) : (missing : Nat) → (acc nbits : UInt32) → (idx : Nat) →
    Option (List String)
  | 0, _, _, _ => some []
  | missing + 1, acc, nbits, idx => do
    let (acc, nbits, idx) ←
      if nbits < 6 then do
        let b ← bytes[idx]?
        pure (acc <<< 8 ||| b.toUInt32, nbits + 8, idx + 1)
      else pure (acc, nbits, idx)
    guard (6 ≤ nbits ∧ nbits - 6 < 32)
    let nbits := nbits - 6
    let v := (acc >>> nbits) &&& 0x3f
    let emoji ← SAS_EMOJI[v.toNat]?
    let rest ← checkedSasLoop bytes missing acc nbits idx
    pure (emoji :: rest)

/-- The bits the loop has not used yet. -/
def unusedBits (bytes : List UInt8) (acc nbits : UInt32) (idx : Nat) : List Bool :=
  toBits nbits.toNat acc.toNat ++ byteBits (bytes.drop idx)

/-! ## 2. One turn of the loop -/

/-- The accumulator takes a byte in at its low end; what is shifted out was used. -/
theorem toBits_shiftIn {w : Nat} (hw : w ≤ 24) (acc : UInt32) (b : UInt8) :
    toBits (w + 8) (acc <<< 8 ||| b.toUInt32).toNat = toBits w acc.toNat ++ toBits 8 b.toNat := by
  have hb : b.toNat < 2 ^ 8 := b.toNat_lt
  have hval : (acc <<< 8 ||| b.toUInt32).toNat = 2 ^ 8 * (acc.toNat % 2 ^ 24) + b.toNat :=
    toNat_push_mod acc b
  have hdiv : (2 ^ 8 * (acc.toNat % 2 ^ 24) + b.toNat) / 2 ^ 8 = acc.toNat % 2 ^ 24 := by omega
  rw [hval, toBits_append, hdiv, toBits_mod hw, toBits_add]

/-- The low end of the accumulator, masked, is the first digit of its bits. -/
theorem ofBits_toBits_six {acc k : UInt32} (hk : k.toNat < 32) :
    ((acc >>> k) &&& 0x3f).toNat = ofBits (toBits 6 (acc.toNat / 2 ^ k.toNat)) := by
  have hmask : (acc.toNat / 2 ^ k.toNat) &&& 63 = acc.toNat / 2 ^ k.toNat % 64 :=
    Nat.and_two_pow_sub_one_eq_mod _ 6
  rw [ofBits_toBits, UInt32.toNat_and, UInt32.toNat_shiftRight, Nat.mod_eq_of_lt hk,
    Nat.shiftRight_eq_div_pow]
  exact hmask

section Turn

variable {bytes : List UInt8} {acc nbits : UInt32} {idx : Nat}

/-- **Taking a byte in** keeps the bits not used yet. -/
theorem unusedBits_shiftIn (hn : nbits.toNat < 6) (hidx : idx < bytes.length) :
    unusedBits bytes (acc <<< 8 ||| bytes[idx].toUInt32) (nbits + 8) (idx + 1) =
      unusedBits bytes acc nbits idx := by
  have hwidth : (nbits + 8).toNat = nbits.toNat + 8 := by
    rw [UInt32.toNat_add]
    show (nbits.toNat + 8) % 2 ^ 32 = _
    omega
  rw [unusedBits, unusedBits, hwidth, toBits_shiftIn (by omega), List.append_assoc,
    List.drop_eq_getElem_cons hidx, byteBits, byteBits, List.flatMap_cons]

/-- **Taking six bits off**: they are the first of those not used yet. -/
theorem unusedBits_take (hn : 6 ≤ nbits.toNat) :
    unusedBits bytes acc nbits idx =
      toBits 6 (acc.toNat / 2 ^ (nbits - 6).toNat) ++ unusedBits bytes acc (nbits - 6) idx := by
  have hwidth : (nbits - 6).toNat = nbits.toNat - 6 := UInt32.toNat_sub_of_le _ _ hn
  have hsplit : nbits.toNat = 6 + (nbits - 6).toNat := by omega
  rw [unusedBits, unusedBits, ← List.append_assoc, ← toBits_append, ← hsplit]

theorem lt_six (h : nbits.toNat < 6) : nbits < 6 := h

theorem not_lt_six (h : 6 ≤ nbits.toNat) : ¬ nbits < 6 := Nat.not_lt.mpr h

theorem toNat_add_eight (h : nbits.toNat < 8) : (nbits + 8).toNat = nbits.toNat + 8 := by
  rw [UInt32.toNat_add]
  show (nbits.toNat + 8) % 2 ^ 32 = _
  omega

theorem sasLoop_shiftIn (missing : Nat) (hn : nbits.toNat < 6) (hidx : idx < bytes.length) :
    sasLoop bytes (missing + 1) acc nbits idx =
      sasLoop bytes (missing + 1) (acc <<< 8 ||| bytes[idx].toUInt32) (nbits + 8) (idx + 1) := by
  have hfull : ¬ nbits + 8 < 6 := not_lt_six (by rw [toNat_add_eight (by omega)]; omega)
  have hget : bytes.getD idx 0 = bytes[idx] := by
    rw [List.getD_eq_getElem?_getD, List.getElem?_eq_getElem hidx, Option.getD_some]
  rw [sasLoop, sasLoop, if_pos (lt_six hn), if_neg hfull, hget]

theorem checkedSasLoop_shiftIn (missing : Nat) (hn : nbits.toNat < 6)
    (hidx : idx < bytes.length) :
    checkedSasLoop bytes (missing + 1) acc nbits idx =
      checkedSasLoop bytes (missing + 1) (acc <<< 8 ||| bytes[idx].toUInt32) (nbits + 8)
        (idx + 1) := by
  have hfull : ¬ nbits + 8 < 6 := not_lt_six (by rw [toNat_add_eight (by omega)]; omega)
  rw [checkedSasLoop, checkedSasLoop, if_pos (lt_six hn), if_neg hfull,
    List.getElem?_eq_getElem hidx]
  rfl

theorem sasLoop_take (missing : Nat) (hn : 6 ≤ nbits.toNat) :
    sasLoop bytes (missing + 1) acc nbits idx =
      SAS_EMOJI.getD ((acc >>> (nbits - 6)) &&& 0x3f).toNat "" ::
        sasLoop bytes missing acc (nbits - 6) idx := by
  rw [sasLoop, if_neg (not_lt_six hn)]

theorem checkedSasLoop_take (missing : Nat) (hn : 6 ≤ nbits.toNat) (hn' : nbits.toNat < 14) :
    checkedSasLoop bytes (missing + 1) acc nbits idx =
      (SAS_EMOJI[((acc >>> (nbits - 6)) &&& 0x3f).toNat]?).bind fun emoji =>
        (checkedSasLoop bytes missing acc (nbits - 6) idx).map (emoji :: ·) := by
  have hwidth : (nbits - 6).toNat = nbits.toNat - 6 := UInt32.toNat_sub_of_le _ _ hn
  have hguard : 6 ≤ nbits ∧ nbits - 6 < 32 := by
    refine ⟨hn, ?_⟩
    show (nbits - 6).toNat < 32
    omega
  rw [checkedSasLoop, if_neg (not_lt_six hn)]
  simp [guard, hguard, Option.map_eq_bind]

end Turn

/-! ## 3. The whole loop -/

theorem length_unusedBits (bytes : List UInt8) (acc nbits : UInt32) (idx : Nat) :
    (unusedBits bytes acc nbits idx).length = nbits.toNat + 8 * (bytes.length - idx) := by
  rw [unusedBits, List.length_append, length_toBits, length_byteBits, List.length_drop]

/-- Every digit has an emoji. -/
theorem getElem?_emoji {v : Nat} (h : v < 64) :
    SAS_EMOJI[v]? = some (SAS_EMOJI.getD v "") := by
  have hlen : v < SAS_EMOJI.length := h
  rw [List.getD_eq_getElem?_getD, List.getElem?_eq_getElem hlen, Option.getD_some]

/-- What holds of the loop from a point on: it does not panic, and its emojis are those of the
    next digits. -/
def SasLoopRight (bytes : List UInt8) (missing : Nat) (acc nbits : UInt32) (idx : Nat) : Prop :=
  checkedSasLoop bytes missing acc nbits idx = some (sasLoop bytes missing acc nbits idx) ∧
    (sasLoop bytes missing acc nbits idx).map some =
      (sixBitDigits missing (unusedBits bytes acc nbits idx)).map fun d => SAS_EMOJI[d]?

/-- One digit off a filled accumulator. -/
theorem sasLoopRight_take {bytes : List UInt8} {missing : Nat} {acc nbits : UInt32} {idx : Nat}
    (hn : 6 ≤ nbits.toNat) (hn' : nbits.toNat < 14)
    (h : SasLoopRight bytes missing acc (nbits - 6) idx) :
    SasLoopRight bytes (missing + 1) acc nbits idx := by
  obtain ⟨hchecked, hloop⟩ := h
  have hwidth : (nbits - 6).toNat = nbits.toNat - 6 := UInt32.toNat_sub_of_le _ _ hn
  have hv : ((acc >>> (nbits - 6)) &&& 0x3f).toNat =
      ofBits (toBits 6 (acc.toNat / 2 ^ (nbits - 6).toNat)) := ofBits_toBits_six (by omega)
  have hlt : ((acc >>> (nbits - 6)) &&& 0x3f).toNat < 64 := by
    rw [hv, ofBits_toBits]
    exact Nat.mod_lt _ (by decide)
  have hemoji := getElem?_emoji hlt
  refine ⟨?_, ?_⟩
  · rw [checkedSasLoop_take missing hn hn', sasLoop_take missing hn, hemoji, hchecked]
    rfl
  · rw [sasLoop_take missing hn, unusedBits_take hn, sixBitDigits, pieces,
      List.take_left' (length_toBits 6 _), List.drop_left' (length_toBits 6 _), List.map_cons,
      List.map_cons, List.map_cons, ← hv, hemoji, hloop]
    rfl

/-- **The next emojis are those of the next digits**, whatever the accumulator still holds, and
    the loop reads no byte that it does not need for them. -/
theorem sasLoop_eq (bytes : List UInt8) (missing : Nat) (acc nbits : UInt32) (idx : Nat)
    (hn : nbits.toNat < 8) (hbits : 6 * missing ≤ (unusedBits bytes acc nbits idx).length) :
    SasLoopRight bytes missing acc nbits idx := by
  induction missing generalizing acc nbits idx with
  | zero => exact ⟨rfl, rfl⟩
  | succ missing ih =>
    -- the turn behind the refill, if there was one
    have hturn : ∀ acc nbits idx, 6 ≤ nbits.toNat → nbits.toNat < 14 →
        6 * (missing + 1) ≤ (unusedBits bytes acc nbits idx).length →
        SasLoopRight bytes (missing + 1) acc nbits idx := by
      intro acc nbits idx hn hn' hbits
      have hwidth : (nbits - 6).toNat = nbits.toNat - 6 := UInt32.toNat_sub_of_le _ _ hn
      refine sasLoopRight_take hn hn' (ih _ _ _ (by omega) ?_)
      rw [length_unusedBits] at hbits ⊢
      omega
    by_cases hlow : nbits.toNat < 6
    · have hidx : idx < bytes.length := by
        rw [length_unusedBits] at hbits
        omega
      have hwidth := toNat_add_eight hn
      have hsame : unusedBits bytes (acc <<< 8 ||| bytes[idx].toUInt32) (nbits + 8) (idx + 1) =
          unusedBits bytes acc nbits idx := unusedBits_shiftIn hlow hidx
      have h := hturn (acc <<< 8 ||| bytes[idx].toUInt32) (nbits + 8) (idx + 1) (by omega)
        (by omega) (by rw [hsame]; exact hbits)
      rw [SasLoopRight, hsame] at h
      rw [SasLoopRight, checkedSasLoop_shiftIn missing hlow hidx, sasLoop_shiftIn missing hlow hidx]
      exact h
    · exact hturn acc nbits idx (by omega) (by omega) hbits

/-- From its start, the loop yields the first seven digits of any bytes that are enough. -/
theorem sasLoop_start {bytes : List UInt8} (h : 6 ≤ bytes.length) :
    checkedSasLoop bytes 7 0 0 0 = some (sasLoop bytes 7 0 0 0) ∧
      (sasLoop bytes 7 0 0 0).map some =
        (sixBitDigits 7 (byteBits bytes)).map fun d => SAS_EMOJI[d]? := by
  refine sasLoop_eq bytes 7 0 0 0 (by decide) ?_
  rw [length_unusedBits]
  show 42 ≤ 0 + 8 * (bytes.length - 0)
  omega

theorem sixBitDigits_congr {bits bits' : List Bool} (h : bits.take 42 = bits'.take 42) :
    sixBitDigits 7 bits = sixBitDigits 7 bits' := by
  rw [sixBitDigits, sixBitDigits, pieces_take 6 7 h]

/-- What stands behind the sixth byte has no part in the first seven digits. -/
theorem sixBitDigits_take_six {bytes : List UInt8} (h : 6 ≤ bytes.length) :
    sixBitDigits 7 (byteBits (bytes.take 6)) = sixBitDigits 7 (byteBits bytes) := by
  have hlen : (byteBits (bytes.take 6)).length = 48 := by
    rw [length_byteBits, List.length_take, Nat.min_eq_left h]
  refine sixBitDigits_congr ?_
  conv_rhs => rw [← List.take_append_drop 6 bytes, byteBits_append]
  rw [List.take_append_of_le_length (by omega)]

/-- **Two sessions share a transcript** exactly when they share their ids and their nonces, and
    a SAS is the list of the emojis of the seven digits of the first 42 bits, for which the loop
    reads six bytes. -/
theorem transcript_and_digits :
    (∀ (a b a' b' : Id) (na nb na' nb' : Bytes 32),
      transcript a b na nb = transcript a' b' na' nb' ↔
        s(a, b) = s(a', b') ∧ s(na, nb) = s(na', nb')) ∧
    ∀ (psk : Bytes 32) (t : List UInt8),
      let bytes := (hmac psk ("sas".toUTF8.data.toList ++ t)).toList
      (sasEmojis hmac psk t).map some =
        (sixBitDigits 7 ((byteBits bytes).take 42)).map (fun d => SAS_EMOJI[d]?) ∧
      checkedSasLoop (bytes.take 6) 7 0 0 0 = some (sasEmojis hmac psk t) := by
  refine ⟨fun a b a' b' na nb na' nb' => transcript_eq_iff, fun psk t => ?_⟩
  intro bytes
  have hlen : bytes.length = 32 := (hmac psk ("sas".toUTF8.data.toList ++ t)).length_eq
  have henough : 6 ≤ bytes.length := by omega
  have hfirst : 6 ≤ (bytes.take 6).length := by
    rw [List.length_take]
    omega
  obtain ⟨-, hdigits⟩ := sasLoop_start henough
  obtain ⟨hchecked, hdigits'⟩ := sasLoop_start hfirst
  have hbits : ((byteBits bytes).take 42).take 42 = (byteBits bytes).take 42 := by
    rw [List.take_take, Nat.min_self]
  refine ⟨?_, ?_⟩
  · rw [sixBitDigits_congr hbits]
    exact hdigits
  · have hsame : sasLoop (bytes.take 6) 7 0 0 0 = sasLoop bytes 7 0 0 0 := by
      rw [sixBitDigits_take_six henough, ← hdigits] at hdigits'
      exact List.map_injective_iff.mpr (Option.some_injective _) hdigits'
    rw [hchecked, hsame]
    rfl

end Nullgate.Admission
