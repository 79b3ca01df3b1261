/-
  File:      Nullgate/DataPlane/Clamp.lean
  Subject:   MSS CLAMPING IS A CORRECT REWRITE (`clamp_tcp_mss`, `recompute_tcp_checksum`).

  * `checkedClampTcpMss` -- the function with each access checked against the packet, and each
    addition of the sum against its 32 bits;
  * `TcpSyn`, `mssOf`, `TcpVerifies` -- the packets it is about, their MSS options, and what a
    receiver asks of the checksum;
  * `verifies_recompute`: the checksum that is written verifies;
  * `mss_clamping`: no access or addition fails; MSS values and checksum change and nothing
    else; no MSS above the maximum is left, and a second call finds none.
-/
import Nullgate.DataPlane.Options
import Nullgate.Lib.OnesComplement

namespace Nullgate

open Nullgate.Lib

/-! ## 1. Checked accesses and additions -/

/-- `u16::from_be_bytes([pkt[i], pkt[i + 1]])`, inside of the packet. -/
def checkedWord (pkt : List UInt8) (i : Nat) : Option UInt16 := do
  let high ← pkt[i]?
  let low ← pkt[i + 1]?
  return high.toUInt16 <<< 8 ||| low.toUInt16

/-- Two bytes written inside of the packet. -/
def checkedSetWord (pkt : List UInt8) (i : Nat) (v : UInt16) : Option (List UInt8) :=
  if i + 1 < pkt.length then some (setWord pkt i v) else none

/-- `a + b`, without overflow. -/
def checkedAdd (a b : UInt32) : Option UInt32 :=
  if a.toNat + b.toNat < UInt32.size then some (a + b) else none

/-- The option walk. -/
def checkedClampLoop (pkt : List UInt8) (i stop : Nat) (maxMss : UInt16) (changed : Bool) :
    Option (List UInt8 × Bool) :=
  if i + 1 < stop then
    match pkt[i]? with
    | none => none
    | some kind =>
      if kind = 0 then some (pkt, changed)
      else if kind = 1 then checkedClampLoop pkt (i + 1) stop maxMss changed
      else
        match pkt[i + 1]? with
        | none => none
        | some length =>
          let len := length.toNat
          if len < 2 ∨ i + len > stop then some (pkt, changed)
          else if kind = 2 ∧ len = 4 then
            match checkedWord pkt (i + 2) with
            | none => none
            | some mss =>
              if mss > maxMss then
                match checkedSetWord pkt (i + 2) maxMss with
                | none => none
                | some pkt => checkedClampLoop pkt (i + len) stop maxMss true
              else checkedClampLoop pkt (i + len) stop maxMss changed
          else checkedClampLoop pkt (i + len) stop maxMss changed
  else some (pkt, changed)
termination_by stop - i

/-- The loop over the segment. -/
def checkedSum (pkt : List UInt8) (i : Nat) (sum : UInt32) : Option UInt32 :=
  if i + 1 < pkt.length then
    match (checkedWord pkt i).bind fun word => checkedAdd sum word.toUInt32 with
    | none => none
    | some sum => checkedSum pkt (i + 2) sum
  else if i < pkt.length then do
    let high ← pkt[i]?
    checkedAdd sum (high.toUInt32 <<< 8)
  else some sum
termination_by pkt.length - i

theorem toNat_carried (sum : UInt32) :
    (sum &&& (0xffff : UInt32)).toNat = sum.toNat % 65536 ∧
      (sum >>> 16).toNat = sum.toNat / 65536 := by
  refine ⟨?_, ?_⟩
  · rw [UInt32.toNat_and]
    exact Nat.and_two_pow_sub_one_eq_mod _ 16
  · rw [UInt32.toNat_shiftRight]
    exact Nat.shiftRight_eq_div_pow _ 16

/-- `while sum >> 16 != 0`. -/
def checkedFold (sum : UInt32) : Option UInt32 :=
  if sum >>> 16 ≠ 0 then
    if (sum &&& (0xffff : UInt32)).toNat + (sum >>> 16).toNat < UInt32.size then
      checkedFold ((sum &&& (0xffff : UInt32)) + (sum >>> 16))
    else none
  else some sum
termination_by sum.toNat
decreasing_by
  rename_i hcarry _
  obtain ⟨hlow, hhigh⟩ := toNat_carried sum
  have hne : (sum >>> 16).toNat ≠ 0 := fun hz => hcarry (UInt32.toNat_inj.mp hz)
  rw [UInt32.toNat_add]
  refine lt_of_le_of_lt (Nat.mod_le _ _) ?_
  omega

/-- The pseudo-header of a segment of `n` bytes. -/
def checkedPseudo (pkt : List UInt8) (n : Nat) : Option UInt32 := do
  let sum := (← checkedWord pkt 12).toUInt32
  let sum ← checkedAdd sum (← checkedWord pkt 14).toUInt32
  let sum ← checkedAdd sum (← checkedWord pkt 16).toUInt32
  let sum ← checkedAdd sum (← checkedWord pkt 18).toUInt32
  let sum ← checkedAdd sum 6
  checkedAdd sum n.toUInt32

def checkedRecompute (pkt : List UInt8) (tcp : Nat) : Option (List UInt8) := do
  guard (tcp ≤ pkt.length)
  let pkt ← checkedSetWord pkt (tcp + 16) 0
  let sum ← checkedPseudo pkt (pkt.length - tcp)
  let sum ← checkedSum pkt tcp sum
  let sum ← checkedFold sum
  checkedSetWord pkt (tcp + 16) (~~~sum.toUInt16)

/-- **`clamp_tcp_mss`**, where an access outside of the packet or an overflow of the sum ends
    it. -/
def checkedClampTcpMss (pkt : List UInt8) (maxMss : UInt16) : Option (List UInt8 × Bool) :=
  if pkt.length < 20 then some (pkt, false)
  else do
    let first : UInt8 ← pkt[0]?
    if first >>> 4 ≠ 4 then return (pkt, false)
    let tcp := (first &&& 0x0f).toNat * 4
    if tcp < 20 ∨ pkt.length < tcp + 20 then return (pkt, false)
    if (← pkt[9]?) ≠ 6 then return (pkt, false)
    let dataOff := ((← pkt[tcp + 12]?) >>> 4).toNat * 4
    if dataOff < 20 ∨ pkt.length < tcp + dataOff then return (pkt, false)
    if (← pkt[tcp + 13]?) &&& 0x02 = 0 then return (pkt, false)
    let (pkt, changed) ← checkedClampLoop pkt (tcp + 20) (tcp + dataOff) maxMss false
    if changed then return (← checkedRecompute pkt tcp, true)
    return (pkt, false)

/-! ## 2. None of them fails -/

variable {pkt pkt' : List UInt8} {i j tcp stop : Nat} {v maxMss : UInt16}

theorem getElem?_byteAt (h : i < pkt.length) : pkt[i]? = some (byteAt pkt i) := by
  simp [byteAt, List.getD_eq_getElem?_getD, h]

theorem checkedWord_eq (h : i + 1 < pkt.length) : checkedWord pkt i = some (wordAt pkt i) := by
  unfold checkedWord
  rw [getElem?_byteAt h, getElem?_byteAt (by omega)]
  rfl

theorem checkedSetWord_eq (h : i + 1 < pkt.length) :
    checkedSetWord pkt i v = some (setWord pkt i v) := if_pos h

theorem checkedAdd_eq {a b : UInt32} (h : a.toNat + b.toNat < 4294967296) :
    checkedAdd a b = some (a + b) ∧ (a + b).toNat = a.toNat + b.toNat := by
  refine ⟨if_pos h, ?_⟩
  rw [UInt32.toNat_add]
  exact Nat.mod_eq_of_lt h

/-- **The walk stays inside of the header.** -/
theorem checkedClampLoop_eq (changed : Bool) (hstop : stop ≤ pkt.length) :
    checkedClampLoop pkt i stop maxMss changed =
      some (clampLoop pkt i stop maxMss changed) := by
  fun_induction clampLoop pkt i stop maxMss changed with
  | case1 pkt i changed hlt kind hend =>
    rw [checkedClampLoop, if_pos hlt, getElem?_byteAt (by omega)]
    dsimp only
    rw [if_pos hend]
  | case2 pkt i changed hlt kind hend hnop ih =>
    rw [checkedClampLoop, if_pos hlt, getElem?_byteAt (by omega)]
    dsimp only
    rw [if_neg hend, if_pos hnop, ih hstop]
  | case3 pkt i changed hlt kind hend hnop len hlen =>
    rw [checkedClampLoop, if_pos hlt, getElem?_byteAt (by omega), getElem?_byteAt (by omega)]
    dsimp only
    rw [if_neg hend, if_neg hnop, if_pos hlen]
  | case4 pkt i changed hlt kind hend hnop len hlen hmss ih =>
    obtain ⟨hkind, hfour, hgt⟩ := hmss
    have hin : i + 3 < pkt.length := by omega
    rw [checkedClampLoop, if_pos hlt, getElem?_byteAt (by omega), getElem?_byteAt (by omega),
      checkedWord_eq (by omega), checkedSetWord_eq (by omega)]
    dsimp only
    rw [if_neg hend, if_neg hnop, if_neg hlen, if_pos ⟨hkind, hfour⟩, if_pos hgt,
      ih (by rwa [length_setWord])]
  | case5 pkt i changed hlt kind hend hnop len hlen hmss ih =>
    rw [checkedClampLoop, if_pos hlt, getElem?_byteAt (by omega), getElem?_byteAt (by omega)]
    dsimp only
    rw [if_neg hend, if_neg hnop, if_neg hlen]
    split
    · rename_i hk
      have hfour : len = 4 := hk.2
      rw [checkedWord_eq (by omega)]
      dsimp only
      rw [if_neg fun hgt => hmss ⟨hk.1, hk.2, hgt⟩, ih hstop]
    · exact ih hstop
  | case6 pkt i changed hlt => rw [checkedClampLoop, if_neg hlt]

/-! ## 3. The sum -/

theorem toNat_high (high : UInt8) : (high.toUInt32 <<< 8).toNat = high.toNat * 256 := by
  have hhigh := high.toNat_lt
  rw [UInt32.toNat_shiftLeft, UInt8.toNat_toUInt32]
  show high.toNat <<< 8 % 4294967296 = _
  rw [Nat.shiftLeft_eq]
  omega

theorem toNat_pair (high low : UInt8) :
    (high.toUInt32 <<< 8 ||| low.toUInt32).toNat = high.toNat * 256 + low.toNat := by
  have hshift : high.toNat * 256 = high.toNat <<< 8 := by rw [Nat.shiftLeft_eq]
  rw [UInt32.toNat_or, toNat_high, UInt8.toNat_toUInt32, hshift,
    ← Nat.shiftLeft_add_eq_or_of_lt low.toNat_lt]

/-- The sum of the words, where it fits. -/
theorem toNat_sumWords (l : List UInt8) (sum : UInt32)
    (h : sum.toNat + wordSum l < 4294967296) :
    (sumWords l sum).toNat = sum.toNat + wordSum l := by
  fun_induction sumWords l sum with
  | case1 sum => rfl
  | case2 high sum =>
    rw [wordSum] at h ⊢
    rw [(checkedAdd_eq (by rwa [toNat_high])).2, toNat_high]
  | case3 high low rest sum ih =>
    rw [wordSum] at h ⊢
    rw [← toNat_pair, ← Nat.add_assoc] at h
    have hadd := (checkedAdd_eq (lt_of_le_of_lt (Nat.le_add_right _ _) h)).2
    rw [← hadd] at h
    rw [ih h, hadd, toNat_pair, Nat.add_assoc]

theorem drop_eq_pair (h : i + 1 < pkt.length) :
    pkt.drop i = byteAt pkt i :: byteAt pkt (i + 1) :: pkt.drop (i + 2) := by
  have hi : i < pkt.length := by omega
  rw [List.drop_eq_getElem_cons hi, List.drop_eq_getElem_cons h]
  simp [byteAt, List.getD_eq_getElem?_getD, hi, h]

/-- **No addition of the loop overflows**, where the sum fits. -/
theorem checkedSum_eq (n : Nat) (sum : UInt32) (hn : pkt.length - i = n)
    (h : sum.toNat + wordSum (pkt.drop i) < 4294967296) :
    checkedSum pkt i sum = some (sumWords (pkt.drop i) sum) := by
  induction n using Nat.strong_induction_on generalizing i sum with
  | _ n ih =>
    rw [checkedSum]
    split
    · rename_i hlt
      have hdrop := drop_eq_pair hlt
      have hword : (wordAt pkt i).toUInt32 =
          (byteAt pkt i).toUInt32 <<< 8 ||| (byteAt pkt (i + 1)).toUInt32 := by
        rw [← UInt32.toNat_inj, toNat_pair, UInt16.toNat_toUInt32, toNat_wordAt]
      rw [hdrop] at h ⊢
      rw [wordSum, ← toNat_pair, ← hword, ← Nat.add_assoc] at h
      have hadd := checkedAdd_eq (lt_of_le_of_lt (Nat.le_add_right _ _) h)
      rw [← hadd.2] at h
      rw [checkedWord_eq hlt, Option.bind_some, hadd.1]
      dsimp only
      rw [sumWords, ← hword]
      exact ih _ (by omega) _ rfl h
    · rename_i hlt
      split
      · rename_i hlast
        -- the last odd byte
        have hdrop : pkt.drop i = [byteAt pkt i] := by
          rw [List.drop_eq_getElem_cons hlast, List.drop_of_length_le (by omega)]
          simp [byteAt, List.getD_eq_getElem?_getD, hlast]
        rw [hdrop] at h ⊢
        rw [wordSum] at h
        rw [getElem?_byteAt hlast]
        exact (checkedAdd_eq (by rwa [toNat_high])).1
      · rename_i hlast
        rw [List.drop_of_length_le (by omega), sumWords]

/-- Adding the carries back, as `endAround` does. -/
theorem toNat_foldCarries (sum : UInt32) : (foldCarries sum).toNat = endAround sum.toNat := by
  fun_induction foldCarries sum with
  | case1 sum hcarry ih =>
    obtain ⟨hlow, hhigh⟩ := toNat_carried sum
    have hlt := sum.toNat_lt
    have hne : (sum >>> 16).toNat ≠ 0 := fun hz => hcarry (UInt32.toNat_inj.mp hz)
    have hadd := (checkedAdd_eq (a := sum &&& (0xffff : UInt32)) (b := sum >>> 16)
      (by omega)).2
    rw [ih, hadd, hlow, hhigh, endAround.eq_1 sum.toNat, if_neg (by omega)]
  | case2 sum hcarry =>
    obtain ⟨-, hhigh⟩ := toNat_carried sum
    rw [not_ne_iff] at hcarry
    rw [hcarry] at hhigh
    have hzero : sum.toNat / 65536 = 0 := hhigh.symm
    rw [endAround, if_pos (by omega)]

/-- **No fold overflows.** -/
theorem checkedFold_eq (sum : UInt32) : checkedFold sum = some (foldCarries sum) := by
  fun_induction foldCarries sum with
  | case1 sum hcarry ih =>
    obtain ⟨hlow, hhigh⟩ := toNat_carried sum
    have hlt := sum.toNat_lt
    have hsize : UInt32.size = 4294967296 := rfl
    rw [checkedFold, if_pos hcarry, if_pos (by omega), ih]
  | case2 sum hcarry => rw [checkedFold, if_neg hcarry]

/-! ## 4. The checksum -/

/-- The sum over the pseudo-header of a segment of `n` bytes. -/
def pseudoSum (pkt : List UInt8) (n : Nat) : Nat :=
  (wordAt pkt 12).toNat + (wordAt pkt 14).toNat + (wordAt pkt 16).toNat + (wordAt pkt 18).toNat +
    6 + n

/-- **The TCP checksum verifies**: pseudo-header and segment, as long as the IP header says, add
    up to all ones. -/
def TcpVerifies (pkt : List UInt8) : Prop :=
  let segment := (pkt.take (wordAt pkt 2).toNat).drop (ihl pkt)
  endAround (pseudoSum pkt segment.length + wordSum segment) = 65535

/-- The same sum in 32 bits. -/
def pseudo32 (pkt : List UInt8) (n : Nat) : UInt32 :=
  (wordAt pkt 12).toUInt32 + (wordAt pkt 14).toUInt32 + (wordAt pkt 16).toUInt32 +
    (wordAt pkt 18).toUInt32 + 6 + n.toUInt32

theorem pseudoSum_le (pkt : List UInt8) {n : Nat} (hn : n ≤ 65535) :
    pseudoSum pkt n ≤ 327681 := by
  have h12 := (wordAt pkt 12).toNat_lt
  have h14 := (wordAt pkt 14).toNat_lt
  have h16 := (wordAt pkt 16).toNat_lt
  have h18 := (wordAt pkt 18).toNat_lt
  unfold pseudoSum
  omega

/-- **No addition of the pseudo-header overflows.** -/
theorem checkedPseudo_eq {n : Nat} (h20 : 20 ≤ pkt.length) (hn : n ≤ 65535) :
    checkedPseudo pkt n = some (pseudo32 pkt n) ∧
      (pseudo32 pkt n).toNat = pseudoSum pkt n := by
  have hw : ∀ i, (wordAt pkt i).toUInt32.toNat = (wordAt pkt i).toNat ∧
      (wordAt pkt i).toNat < 65536 := fun i =>
    ⟨UInt16.toNat_toUInt32 .., (wordAt pkt i).toNat_lt⟩
  obtain ⟨e12, l12⟩ := hw 12
  obtain ⟨e14, l14⟩ := hw 14
  obtain ⟨e16, l16⟩ := hw 16
  obtain ⟨e18, l18⟩ := hw 18
  have hsix : (6 : UInt32).toNat = 6 := rfl
  have hn32 : n.toUInt32.toNat = n := by
    rw [Nat.toUInt32_eq, UInt32.toNat_ofNat']
    exact Nat.mod_eq_of_lt (by omega)
  obtain ⟨h1, t1⟩ := checkedAdd_eq (a := (wordAt pkt 12).toUInt32)
    (b := (wordAt pkt 14).toUInt32) (by omega)
  obtain ⟨h2, t2⟩ := checkedAdd_eq (b := (wordAt pkt 16).toUInt32) (show _ + _ < _ by
    rw [t1]; omega)
  obtain ⟨h3, t3⟩ := checkedAdd_eq (b := (wordAt pkt 18).toUInt32) (show _ + _ < _ by
    rw [t2]; omega)
  obtain ⟨h4, t4⟩ := checkedAdd_eq (b := 6) (show _ + _ < _ by rw [t3]; omega)
  obtain ⟨h5, t5⟩ := checkedAdd_eq (b := n.toUInt32) (show _ + _ < _ by rw [t4]; omega)
  refine ⟨?_, ?_⟩
  · unfold checkedPseudo
    rw [checkedWord_eq (by omega), checkedWord_eq (by omega), checkedWord_eq (by omega),
      checkedWord_eq (by omega)]
    simp only [Option.bind_eq_bind, Option.bind_some, h1, h2, h3, h4, h5, pseudo32]
  · unfold pseudo32 pseudoSum
    omega

/-- The sum behind the recomputation. -/
theorem toNat_segmentSum (h20 : 20 ≤ pkt.length) (hlen : pkt.length ≤ 65535) :
    (pseudo32 pkt (pkt.length - tcp)).toNat + wordSum (pkt.drop tcp) < 4294967296 := by
  have hsum := wordSum_le (pkt.drop tcp)
  rw [List.length_drop] at hsum
  have hpseudo := pseudoSum_le pkt (show pkt.length - tcp ≤ 65535 by omega)
  rw [(checkedPseudo_eq h20 (by omega)).2]
  have hhalf : (pkt.length - tcp + 1) / 2 ≤ 32768 := by omega
  have hbound := Nat.mul_le_mul_left 65535 hhalf
  exact lt_of_le_of_lt (Nat.add_le_add hpseudo (hsum.trans hbound)) (by decide)

theorem recompute_eq (pkt : List UInt8) (tcp : Nat) :
    recomputeTcpChecksum pkt tcp = setWord (setWord pkt (tcp + 16) 0) (tcp + 16)
      (~~~(foldCarries (sumWords ((setWord pkt (tcp + 16) 0).drop tcp)
        (pseudo32 (setWord pkt (tcp + 16) 0)
          ((setWord pkt (tcp + 16) 0).length - tcp)))).toUInt16) := rfl

/-- **The recomputation fails nowhere.** -/
theorem checkedRecompute_eq (h20 : 20 ≤ tcp) (h : tcp + 20 ≤ pkt.length)
    (hlen : pkt.length ≤ 65535) :
    checkedRecompute pkt tcp = some (recomputeTcpChecksum pkt tcp) := by
  have hset : checkedSetWord pkt (tcp + 16) 0 = some (setWord pkt (tcp + 16) 0) :=
    checkedSetWord_eq (by omega)
  have hlength : (setWord pkt (tcp + 16) 0).length = pkt.length := length_setWord
  rw [recompute_eq]
  unfold checkedRecompute
  generalize setWord pkt (tcp + 16) 0 = zeroed at hset hlength ⊢
  have hpseudo : checkedPseudo zeroed (zeroed.length - tcp) =
      some (pseudo32 zeroed (zeroed.length - tcp)) :=
    (checkedPseudo_eq (by omega) (by omega)).1
  have hsum : checkedSum zeroed tcp (pseudo32 zeroed (zeroed.length - tcp)) =
      some (sumWords (zeroed.drop tcp) (pseudo32 zeroed (zeroed.length - tcp))) :=
    checkedSum_eq _ _ rfl (toNat_segmentSum (by omega) (by omega))
  simp only [guard, show tcp ≤ pkt.length by omega, if_true, Option.bind_eq_bind, hset,
    Option.bind_some, hpseudo, hsum, checkedFold_eq, pure]
  exact checkedSetWord_eq (by omega)

/-- The segment of a packet with another word at an even place of it. -/
theorem wordSum_setWord {k : Nat} (hk : tcp + 2 * k + 1 < pkt.length) :
    wordSum ((setWord pkt (tcp + 2 * k) v).drop tcp) + (wordAt pkt (tcp + 2 * k)).toNat =
      wordSum (pkt.drop tcp) + v.toNat := by
  have hdrop : (setWord pkt (tcp + 2 * k) v).drop tcp =
      ((pkt.drop tcp).set (2 * k) (v >>> 8).toUInt8).set (2 * k + 1) v.toUInt8 := by
    unfold setWord
    rw [List.drop_set, List.drop_set, if_neg (by omega), if_neg (by omega)]
    congr 2 <;> omega
  have hget : ∀ n, (pkt.drop tcp).getD n 0 = byteAt pkt (tcp + n) := fun n => by
    simp [byteAt, List.getD_eq_getElem?_getD]
  have hset := wordSum_set (pkt.drop tcp) k (v >>> 8).toUInt8 v.toUInt8
    (by rw [List.length_drop]; omega)
  rw [hget, hget, toNat_high_low] at hset
  rw [hdrop, toNat_wordAt]
  exact hset

theorem pseudoSum_congr (hb : ∀ j < 20, byteAt pkt' j = byteAt pkt j) (n : Nat) :
    pseudoSum pkt' n = pseudoSum pkt n := by
  have hw : ∀ j < 19, wordAt pkt' j = wordAt pkt j := fun j hj =>
    wordAt_congr (hb j (by omega)) (hb (j + 1) (by omega))
  unfold pseudoSum
  rw [hw 12 (by omega), hw 14 (by omega), hw 16 (by omega), hw 18 (by omega)]

/-- The complement of a folded sum. -/
theorem toNat_check (sum : UInt32) :
    (~~~(foldCarries sum).toUInt16).toNat = 65535 - endAround sum.toNat := by
  have hle := endAround_le sum.toNat
  rw [UInt16.toNat_not, UInt32.toNat_toUInt16, toNat_foldCarries]
  show 65535 - endAround sum.toNat % 65536 = _
  omega

/-- **The checksum that is written completes the sum.** -/
theorem endAround_recompute (h20 : 20 ≤ tcp) (h : tcp + 20 ≤ pkt.length)
    (hlen : pkt.length ≤ 65535) :
    endAround (pseudoSum (recomputeTcpChecksum pkt tcp) (pkt.length - tcp) +
      wordSum ((recomputeTcpChecksum pkt tcp).drop tcp)) = 65535 := by
  have hlength : (setWord pkt (tcp + 16) 0).length = pkt.length := length_setWord
  have hzero : wordAt (setWord pkt (tcp + 16) 0) (tcp + 16) = 0 := wordAt_setWord (by omega)
  rw [recompute_eq, hlength]
  generalize setWord pkt (tcp + 16) 0 = zeroed at hlength hzero ⊢
  -- the plain sum, with a zero in the place of the checksum
  have hfits : (pseudo32 zeroed (pkt.length - tcp)).toNat + wordSum (zeroed.drop tcp) <
      4294967296 := by
    rw [← hlength]
    exact toNat_segmentSum (by omega) (by omega)
  have hpseudo : (pseudo32 zeroed (pkt.length - tcp)).toNat =
      pseudoSum zeroed (pkt.length - tcp) := (checkedPseudo_eq (by omega) (by omega)).2
  have hsum := toNat_sumWords _ _ hfits
  rw [hpseudo] at hsum
  have hcheck := toNat_check (sumWords (zeroed.drop tcp) (pseudo32 zeroed (pkt.length - tcp)))
  rw [hsum] at hcheck
  generalize ~~~(foldCarries (sumWords (zeroed.drop tcp)
    (pseudo32 zeroed (pkt.length - tcp)))).toUInt16 = check at hcheck ⊢
  have hword : wordSum ((setWord zeroed (tcp + 16) check).drop tcp) + 0 =
      wordSum (zeroed.drop tcp) + check.toNat := by
    have hset : wordSum ((setWord zeroed (tcp + 2 * 8) check).drop tcp) +
        (wordAt zeroed (tcp + 2 * 8)).toNat = wordSum (zeroed.drop tcp) + check.toNat :=
      wordSum_setWord (by omega)
    rwa [show tcp + 2 * 8 = tcp + 16 from rfl, hzero] at hset
  rw [Nat.add_zero] at hword
  rw [hword, hcheck, ← Nat.add_assoc, pseudoSum_congr fun j hj =>
    (sameBelow_setWord (show 20 ≤ tcp + 16 by omega) zeroed check).byte j hj]
  refine endAround_complement ?_
  unfold pseudoSum
  omega

/-! ## 5. The function -/

/-- The length of the TCP header, as the packet states it. -/
def dataOffset (pkt : List UInt8) : Nat := (byteAt pkt (ihl pkt + 12) >>> 4).toNat * 4

/-- **An IPv4 TCP SYN with a complete TCP header.** -/
structure TcpSyn (pkt : List UInt8) : Prop where
  ipv4 : isIpv4 pkt = true
  header : 20 ≤ ihl pkt
  tcp : byteAt pkt 9 = 6
  offset : 20 ≤ dataOffset pkt
  complete : ihl pkt + dataOffset pkt ≤ pkt.length
  syn : byteAt pkt (ihl pkt + 13) &&& 0x02 ≠ 0

/-- **The MSS options of a SYN** that the walk over its header reaches. -/
def mssOf (pkt : List UInt8) : List Nat :=
  mssOptions pkt (ihl pkt + 20) (ihl pkt + dataOffset pkt)

/-- The walk over the header of a SYN. -/
def walked (pkt : List UInt8) (maxMss : UInt16) : List UInt8 × Bool :=
  clampLoop pkt (ihl pkt + 20) (ihl pkt + dataOffset pkt) maxMss false

theorem isIpv4_iff : isIpv4 pkt = true ↔ 20 ≤ pkt.length ∧ byteAt pkt 0 >>> 4 = 4 := by
  simp [isIpv4]

theorem clampTcpMss_of_not_syn (h : ¬ TcpSyn pkt) : clampTcpMss pkt maxMss = (pkt, false) := by
  unfold clampTcpMss
  split
  · rfl
  rename_i hv4
  dsimp only
  split
  · rfl
  rename_i htcp
  split
  · rfl
  rename_i hoff
  split
  · rfl
  rename_i hsyn
  simp only [Bool.or_eq_true, decide_eq_true_eq, not_or, not_lt, ne_eq, not_not] at htcp hoff
  exact absurd ⟨by simpa using hv4, htcp.1.1, htcp.2, hoff.1, hoff.2, hsyn⟩ h

theorem clampTcpMss_of_syn (h : TcpSyn pkt) :
    clampTcpMss pkt maxMss =
      if (walked pkt maxMss).2 then (recomputeTcpChecksum (walked pkt maxMss).1 (ihl pkt), true)
      else ((walked pkt maxMss).1, false) := by
  have hcomplete := h.complete
  have hoffset := h.offset
  have htcp : ¬ ((decide (ihl pkt < 20) || decide (pkt.length < ihl pkt + 20) ||
      decide (byteAt pkt 9 ≠ 6)) = true) := by
    simp only [Bool.or_eq_true, decide_eq_true_eq, not_or, not_lt, ne_eq, not_not]
    exact ⟨⟨h.header, by omega⟩, h.tcp⟩
  have hoff : ¬ ((decide (dataOffset pkt < 20) ||
      decide (pkt.length < ihl pkt + dataOffset pkt)) = true) := by
    simp only [Bool.or_eq_true, decide_eq_true_eq, not_or, not_lt]
    exact ⟨hoffset, hcomplete⟩
  unfold clampTcpMss
  rw [if_neg (by simp [h.ipv4])]
  dsimp only
  rw [if_neg htcp]
  exact (if_neg hoff).trans (if_neg h.syn)

/-- **No access of the function is outside of the packet, and no addition overflows.** -/
theorem checkedClampTcpMss_eq (hlen : pkt.length ≤ 65535) :
    checkedClampTcpMss pkt maxMss = some (clampTcpMss pkt maxMss) := by
  by_cases h20 : pkt.length < 20
  · rw [clampTcpMss_of_not_syn fun h => by have := (isIpv4_iff.mp h.ipv4).1; omega]
    exact if_pos h20
  have hihl : (byteAt pkt 0 &&& 0x0f).toNat * 4 = ihl pkt := rfl
  unfold checkedClampTcpMss
  rw [if_neg h20, getElem?_byteAt (show 0 < pkt.length by omega),
    getElem?_byteAt (show 9 < pkt.length by omega)]
  simp only [Option.bind_eq_bind, Option.bind_some, hihl]
  split
  · rename_i hv4
    rw [clampTcpMss_of_not_syn fun h => hv4 (isIpv4_iff.mp h.ipv4).2]
    rfl
  rename_i hv4
  split
  · rename_i htcp
    rw [clampTcpMss_of_not_syn fun h => by
      have := h.header
      have := h.offset
      have := h.complete
      omega]
    rfl
  rename_i htcp
  split
  · rename_i hproto
    rw [clampTcpMss_of_not_syn fun h => hproto h.tcp]
    rfl
  rename_i hproto
  have hoffset : (byteAt pkt (ihl pkt + 12) >>> 4).toNat * 4 = dataOffset pkt := rfl
  rw [getElem?_byteAt (show ihl pkt + 12 < pkt.length by omega),
    getElem?_byteAt (show ihl pkt + 13 < pkt.length by omega)]
  simp only [Option.bind_some, hoffset]
  split
  · rename_i hoff
    rw [clampTcpMss_of_not_syn fun h => by
      have := h.offset
      have := h.complete
      omega]
    rfl
  rename_i hoff
  split
  · rename_i hsyn
    rw [clampTcpMss_of_not_syn fun h => h.syn hsyn]
    rfl
  rename_i hsyn
  have hTcpSyn : TcpSyn pkt :=
    ⟨isIpv4_iff.mpr ⟨by omega, not_not.mp hv4⟩, by omega, not_not.mp hproto, by omega, by omega,
      hsyn⟩
  rw [clampTcpMss_of_syn hTcpSyn, checkedClampLoop_eq false (by omega), Option.bind_some]
  have hlength : (walked pkt maxMss).1.length = pkt.length :=
    (lowered_clampLoop pkt _ _ maxMss false (by omega)).length
  show (if (walked pkt maxMss).2 = true then _ else _) = _
  split
  · show (checkedRecompute (walked pkt maxMss).1 (ihl pkt)).bind _ = _
    rw [checkedRecompute_eq (by omega) (by omega) (by omega)]
    rfl
  · rfl

/-! ## 6. The rewrite -/

/-- **What the function makes of a SYN.** -/
structure Rewritten (pkt : List UInt8) (maxMss : UInt16) (r : List UInt8 × Bool) : Prop where
  length : r.1.length = pkt.length
  other : ∀ j, ¬ IsMssValue pkt (ihl pkt + 20) (ihl pkt + dataOffset pkt) j →
    j ≠ ihl pkt + 16 → j ≠ ihl pkt + 17 → byteAt r.1 j = byteAt pkt j
  value : ∀ o ∈ mssOf pkt, wordAt r.1 (o + 2) =
    if maxMss < wordAt pkt (o + 2) then maxMss else wordAt pkt (o + 2)
  changed : r.2 = true ↔ ∃ o ∈ mssOf pkt, maxMss < wordAt pkt (o + 2)
  same : r.2 = false → r.1 = pkt

theorem rewritten_of_syn (h : TcpSyn pkt) (maxMss : UInt16) :
    Rewritten pkt maxMss (clampTcpMss pkt maxMss) := by
  have hlow : Lowered pkt (ihl pkt + 20) (ihl pkt + dataOffset pkt) maxMss
      (walked pkt maxMss).1 := lowered_clampLoop pkt _ _ maxMss false h.complete
  have hchanged : (walked pkt maxMss).2 = true ↔ ∃ o ∈ mssOf pkt, maxMss < wordAt pkt (o + 2) :=
    (changed_clampLoop pkt _ _ maxMss false h.complete).trans (by simp [mssOf])
  rw [clampTcpMss_of_syn h]
  split
  · rename_i hc
    have hkeep : ∀ j, j ≠ ihl pkt + 16 → j ≠ ihl pkt + 17 →
        byteAt (recomputeTcpChecksum (walked pkt maxMss).1 (ihl pkt)) j =
          byteAt (walked pkt maxMss).1 j := fun j h16 h17 => by
      rw [recompute_eq, byteAt_setWord_of_ne h16 h17, byteAt_setWord_of_ne h16 h17]
    refine ⟨?_, fun j hj h16 h17 => ?_, fun o ho => ?_, iff_of_true rfl (hchanged.mp hc), nofun⟩
    · rw [recompute_eq, length_setWord, length_setWord, hlow.length]
    · rw [hkeep j h16 h17, hlow.other j hj]
    · have hle := le_of_mem_mss ho
      rw [← hlow.value o ho]
      exact wordAt_congr (hkeep _ (by omega) (by omega)) (hkeep _ (by omega) (by omega))
  · rename_i hc
    refine ⟨hlow.length, fun j hj _ _ => hlow.other j hj, hlow.value,
      iff_of_false nofun fun hex => hc (hchanged.mpr hex), fun _ => ?_⟩
    exact clampLoop_unchanged pkt _ _ maxMss false h.complete ((Bool.not_eq_true _).mp hc)

namespace Rewritten

variable {r : List UInt8 × Bool}

/-- The bytes before the checksum stay. -/
theorem before (h : Rewritten pkt maxMss r) (hj : j < ihl pkt + 16) :
    byteAt r.1 j = byteAt pkt j :=
  h.other j (not_isMssValue_of_lt (by omega)) (by omega) (by omega)

/-- **A rewritten SYN is a SYN, with its MSS options in the same places.** -/
theorem syn (h : Rewritten pkt maxMss r) (hs : TcpSyn pkt) :
    TcpSyn r.1 ∧ ihl r.1 = ihl pkt ∧ mssOf r.1 = mssOf pkt := by
  have hheader := hs.header
  have hihl : ihl r.1 = ihl pkt := by rw [ihl, ihl, h.before (by omega)]
  have hoff : dataOffset r.1 = dataOffset pkt := by
    rw [dataOffset, dataOffset, hihl, h.before (by omega)]
  refine ⟨⟨?_, ?_, ?_, ?_, ?_, ?_⟩, hihl, ?_⟩
  · rw [isIpv4, h.length, h.before (by omega)]
    exact hs.ipv4
  · rw [hihl]
    exact hs.header
  · rw [h.before (by omega)]
    exact hs.tcp
  · rw [hoff]
    exact hs.offset
  · rw [hihl, hoff, h.length]
    exact hs.complete
  · rw [hihl, h.before (by omega)]
    exact hs.syn
  · unfold mssOf
    rw [hihl, hoff]
    exact mssOptions_congr fun j hj hv => h.other j hv (by omega) (by omega)

/-- **No MSS above the maximum is left.** -/
theorem le_max (h : Rewritten pkt maxMss r) {o : Nat} (ho : o ∈ mssOf pkt) :
    ¬ maxMss < wordAt r.1 (o + 2) := by
  rw [h.value o ho]
  split
  · exact UInt16.lt_irrefl _
  · rename_i hle
    exact hle

/-- **It reports a lowered value.** -/
theorem changed_iff (h : Rewritten pkt maxMss r) :
    r.2 = true ↔ ∃ o ∈ mssOf pkt, wordAt r.1 (o + 2) < wordAt pkt (o + 2) := by
  rw [h.changed]
  refine exists_congr fun o => and_congr_right fun ho => ?_
  rw [h.value o ho]
  split
  · rfl
  · rename_i hle
    exact iff_of_false hle (UInt16.lt_irrefl _)

end Rewritten

/-- A rewritten SYN has no value left to lower. -/
theorem clampTcpMss_again (h : TcpSyn pkt) (maxMss : UInt16) :
    clampTcpMss (clampTcpMss pkt maxMss).1 maxMss = ((clampTcpMss pkt maxMss).1, false) := by
  have hr := rewritten_of_syn h maxMss
  obtain ⟨hs, -, hmss⟩ := hr.syn h
  have hr' := rewritten_of_syn hs maxMss
  have hfalse : (clampTcpMss (clampTcpMss pkt maxMss).1 maxMss).2 = false := by
    rw [← Bool.not_eq_true, hr'.changed, hmss]
    rintro ⟨o, ho, hlt⟩
    exact hr.le_max ho hlt
  exact Prod.ext (hr'.same hfalse) hfalse

/-- **The checksum of a rewritten SYN verifies.** -/
theorem verifies_of_changed (h : TcpSyn pkt) (hlen : pkt.length ≤ 65535)
    (hchanged : (clampTcpMss pkt maxMss).2 = true) (htotal : (wordAt pkt 2).toNat = pkt.length) :
    TcpVerifies (clampTcpMss pkt maxMss).1 := by
  have hr := rewritten_of_syn h maxMss
  have hheader := h.header
  have hoffset := h.offset
  have hcomplete := h.complete
  have htotal' : (wordAt (clampTcpMss pkt maxMss).1 2).toNat =
      (clampTcpMss pkt maxMss).1.length := by
    rw [wordAt_congr (hr.before (by omega)) (hr.before (by omega)), htotal, hr.length]
  unfold TcpVerifies
  rw [htotal', List.take_length, (hr.syn h).2.1]
  dsimp only
  rw [List.length_drop, hr.length]
  rw [clampTcpMss_of_syn h] at hchanged ⊢
  split at hchanged
  · rename_i hwalk
    have hlength : (walked pkt maxMss).1.length = pkt.length :=
      (lowered_clampLoop pkt _ _ maxMss false hcomplete).length
    rw [if_pos hwalk, ← hlength]
    exact endAround_recompute hheader (by omega) (by omega)
  · cases hchanged

/-- **MSS clamping is a correct rewrite**, of every byte string of at most 65535 bytes. No
    access is outside of the packet, and no addition overflows. Only a SYN with a complete
    header is changed; what changes are values of MSS options and the checksum. Behind it no
    MSS is above the maximum; the answer says whether one was lowered; the checksum of a
    changed packet verifies; and a second call changes nothing. -/
theorem mss_clamping (pkt : List UInt8) (hlen : pkt.length ≤ 65535) (maxMss : UInt16) :
    checkedClampTcpMss pkt maxMss = some (clampTcpMss pkt maxMss) ∧
    ∀ pkt' changed, clampTcpMss pkt maxMss = (pkt', changed) →
      (¬ TcpSyn pkt → pkt' = pkt ∧ changed = false) ∧
      pkt'.length = pkt.length ∧
      (∀ j, byteAt pkt' j ≠ byteAt pkt j →
        IsMssValue pkt (ihl pkt + 20) (ihl pkt + dataOffset pkt) j ∨
          j = ihl pkt + 16 ∨ j = ihl pkt + 17) ∧
      (TcpSyn pkt' → ∀ o ∈ mssOf pkt', wordAt pkt' (o + 2) ≤ maxMss) ∧
      (changed = true ↔
        TcpSyn pkt ∧ ∃ o ∈ mssOf pkt, wordAt pkt' (o + 2) < wordAt pkt (o + 2)) ∧
      (changed = true → (wordAt pkt 2).toNat = pkt.length → TcpVerifies pkt') ∧
      clampTcpMss pkt' maxMss = (pkt', false) := by
  refine ⟨checkedClampTcpMss_eq hlen, fun pkt' changed hrun => ?_⟩
  by_cases h : TcpSyn pkt
  · have hr := rewritten_of_syn h maxMss
    have hsyn := hr.syn h
    have hagain := clampTcpMss_again h maxMss
    have hverifies : (clampTcpMss pkt maxMss).2 = true → (wordAt pkt 2).toNat = pkt.length →
        TcpVerifies (clampTcpMss pkt maxMss).1 := verifies_of_changed h hlen
    rw [hrun] at hr hsyn hagain hverifies
    refine ⟨fun hno => absurd h hno, hr.length, fun j hj => ?_, fun _ o ho => ?_, ?_,
      hverifies, hagain⟩
    · by_contra hno
      obtain ⟨hv, hsum⟩ := not_or.mp hno
      obtain ⟨h16, h17⟩ := not_or.mp hsum
      exact hj (hr.other j hv h16 h17)
    · exact UInt16.not_lt.mp (hr.le_max (hsyn.2.2 ▸ ho))
    · exact hr.changed_iff.trans ⟨fun hex => ⟨h, hex⟩, fun hex => hex.2⟩
  · rw [clampTcpMss_of_not_syn h] at hrun
    obtain ⟨rfl, rfl⟩ := Prod.mk.inj hrun
    exact ⟨fun _ => ⟨rfl, rfl⟩, rfl, fun j hj => absurd rfl hj, fun hs => absurd hs h,
      iff_of_false nofun fun hex => h hex.1, nofun, clampTcpMss_of_not_syn h⟩

namespace Sample

/-- A SYN of 44 bytes with an MSS of 1460. -/
def syn : List UInt8 :=
  [0x45, 0, 0, 44, 0, 0, 0x40, 0, 64, 6, 0, 0, 100, 64, 0, 2, 100, 64, 0, 5,
    0x9c, 0x40, 0x0d, 0x3d, 0, 0, 0, 1, 0, 0, 0, 0, 0x60, 0x02, 0xff, 0xff, 0, 0, 0, 0,
    2, 4, 0x05, 0xb4]

end Sample

theorem mss_clamping_syn : ∃ pkt', clampTcpMss Sample.syn 1220 = (pkt', true) ∧
    TcpVerifies pkt' ∧ clampTcpMss pkt' 1220 = (pkt', false) := by
  have hrun : clampTcpMss Sample.syn 1220 = ((clampTcpMss Sample.syn 1220).1, true) :=
    Prod.ext rfl (by decide +kernel)
  have h := (mss_clamping Sample.syn (by decide) 1220).2 _ true hrun
  exact ⟨_, hrun, h.2.2.2.2.2.1 rfl (by decide), h.2.2.2.2.2.2⟩

end Nullgate
