/-
  File:      Nullgate/DataPlane/Options.lean
  Subject:   THE OPTION WALK of `clamp_tcp_mss`: which MSS options it reaches, what it makes of
             them.

  The lengths of the options are the sender's: zero, overlong, repeated, or cut by the end of
  the header. What the walk reaches is read off the packet once, as a list of places.

  * `optionsFrom`, `mssOptions` -- the options on the walk, and the MSS options among them;
  * `mssOptions_congr`: the places do not depend on the MSS values;
  * `Lowered`, `lowered_clampLoop`: the walk replaces the values above the maximum, by the
    maximum, and nothing else;
  * `changed_clampLoop`: it reports whether there was one.
-/
import Nullgate.DataPlane.Router

namespace Nullgate

/-! ## 1. Words of a packet -/

section

variable {pkt pkt' : List UInt8} {i j : Nat} {v : UInt16}

@[simp] theorem length_setWord : (setWord pkt i v).length = pkt.length := by
  simp [setWord]

theorem byteAt_setWord_of_ne (h : j ≠ i) (h' : j ≠ i + 1) :
    byteAt (setWord pkt i v) j = byteAt pkt j := by
  simp [setWord, byteAt, List.getD_eq_getElem?_getD, List.getElem?_set_ne, h.symm, h'.symm]

theorem byteAt_setWord_high (h : i + 1 < pkt.length) :
    byteAt (setWord pkt i v) i = (v >>> 8).toUInt8 := by
  have hi : i < pkt.length := by omega
  simp [setWord, byteAt, List.getD_eq_getElem?_getD, hi]

theorem byteAt_setWord_low (h : i + 1 < pkt.length) :
    byteAt (setWord pkt i v) (i + 1) = v.toUInt8 := by
  simp [setWord, byteAt, List.getD_eq_getElem?_getD, h]

theorem toNat_wordAt (pkt : List UInt8) (i : Nat) :
    (wordAt pkt i).toNat = (byteAt pkt i).toNat * 256 + (byteAt pkt (i + 1)).toNat := by
  have hhigh := (byteAt pkt i).toNat_lt
  have hlow := (byteAt pkt (i + 1)).toNat_lt
  unfold wordAt
  rw [UInt16.toNat_or, UInt16.toNat_shiftLeft, UInt8.toNat_toUInt16, UInt8.toNat_toUInt16]
  show (byteAt pkt i).toNat <<< 8 % 65536 ||| (byteAt pkt (i + 1)).toNat = _
  have hshift : (byteAt pkt i).toNat <<< 8 % 65536 = (byteAt pkt i).toNat <<< 8 := by
    rw [Nat.shiftLeft_eq]
    omega
  rw [hshift, ← Nat.shiftLeft_add_eq_or_of_lt hlow, Nat.shiftLeft_eq]

theorem toNat_high_low (v : UInt16) :
    (v >>> 8).toUInt8.toNat * 256 + v.toUInt8.toNat = v.toNat := by
  have hv := v.toNat_lt
  rw [UInt16.toNat_toUInt8, UInt16.toNat_toUInt8, UInt16.toNat_shiftRight]
  show v.toNat >>> 8 % 256 * 256 + v.toNat % 256 = v.toNat
  rw [Nat.shiftRight_eq_div_pow]
  omega

/-- What is written is what is read back. -/
theorem wordAt_setWord (h : i + 1 < pkt.length) : wordAt (setWord pkt i v) i = v := by
  rw [← UInt16.toNat_inj, toNat_wordAt, byteAt_setWord_high h, byteAt_setWord_low h,
    toNat_high_low]

theorem wordAt_congr (h : byteAt pkt' i = byteAt pkt i)
    (h' : byteAt pkt' (i + 1) = byteAt pkt (i + 1)) : wordAt pkt' i = wordAt pkt i := by
  rw [wordAt, wordAt, h, h']

end

/-! ## 2. The options on the walk -/

/-- **Where the options begin that the walk reaches**, from `i` to `stop`. It ends at an end
    of list, at a length below 2, and at one that goes past `stop`. -/
def optionsFrom (pkt : List UInt8) (i stop : Nat) : List Nat :=
  if i + 1 < stop then
    if byteAt pkt i = 0 then []
    else if byteAt pkt i = 1 then optionsFrom pkt (i + 1) stop
    else
      if (byteAt pkt (i + 1)).toNat < 2 ∨ i + (byteAt pkt (i + 1)).toNat > stop then []
      else i :: optionsFrom pkt (i + (byteAt pkt (i + 1)).toNat) stop
  else []
termination_by stop - i

/-- Kind 2, length 4. -/
def isMss (pkt : List UInt8) (o : Nat) : Bool := byteAt pkt o = 2 && (byteAt pkt (o + 1)).toNat = 4

/-- **The MSS options that the walk reaches.** -/
def mssOptions (pkt : List UInt8) (i stop : Nat) : List Nat :=
  (optionsFrom pkt i stop).filter (isMss pkt)

/-- The byte `j` is of the value of an MSS option that the walk reaches. -/
def IsMssValue (pkt : List UInt8) (i stop j : Nat) : Prop :=
  ∃ o ∈ mssOptions pkt i stop, j = o + 2 ∨ j = o + 3

variable {pkt pkt' : List UInt8} {i j o stop : Nat} {maxMss : UInt16}

theorem le_of_mem_options (h : o ∈ optionsFrom pkt i stop) :
    i ≤ o ∧ o + (byteAt pkt (o + 1)).toNat ≤ stop := by
  fun_induction optionsFrom pkt i stop with
  | case1 => cases h
  | case2 i hlt hend hnop ih => exact ⟨by have := (ih h).1; omega, (ih h).2⟩
  | case3 => cases h
  | case4 i hlt hend hnop hlen ih =>
    rcases List.mem_cons.mp h with rfl | h
    · exact ⟨le_refl _, by omega⟩
    · exact ⟨by have := (ih h).1; omega, (ih h).2⟩
  | case5 => cases h

theorem isMss_iff : isMss pkt o = true ↔ byteAt pkt o = 2 ∧ (byteAt pkt (o + 1)).toNat = 4 := by
  simp [isMss]

theorem mem_mssOptions :
    o ∈ mssOptions pkt i stop ↔ o ∈ optionsFrom pkt i stop ∧ isMss pkt o = true := List.mem_filter

/-- An MSS option on the walk lies between `i` and `stop`. -/
theorem le_of_mem_mss (h : o ∈ mssOptions pkt i stop) : i ≤ o ∧ o + 4 ≤ stop := by
  obtain ⟨hmem, hmss⟩ := mem_mssOptions.mp h
  have hle := le_of_mem_options hmem
  rw [(isMss_iff.mp hmss).2] at hle
  exact hle

/-- Neither the kind nor the length of the option the walk stands at is a value. -/
theorem not_isMssValue_of_lt (h : j < i + 2) : ¬ IsMssValue pkt i stop j := by
  rintro ⟨o, ho, hj⟩
  have hle := le_of_mem_mss ho
  omega

theorem mssOptions_nop (hlt : i + 1 < stop) (hend : byteAt pkt i ≠ 0) (hnop : byteAt pkt i = 1) :
    mssOptions pkt i stop = mssOptions pkt (i + 1) stop := by
  unfold mssOptions
  rw [optionsFrom, if_pos hlt, if_neg hend, if_pos hnop]

theorem mssOptions_option (hlt : i + 1 < stop) (hend : byteAt pkt i ≠ 0)
    (hnop : byteAt pkt i ≠ 1)
    (hlen : ¬ ((byteAt pkt (i + 1)).toNat < 2 ∨ i + (byteAt pkt (i + 1)).toNat > stop)) :
    mssOptions pkt i stop = if isMss pkt i then
      i :: mssOptions pkt (i + (byteAt pkt (i + 1)).toNat) stop
      else mssOptions pkt (i + (byteAt pkt (i + 1)).toNat) stop := by
  unfold mssOptions
  rw [optionsFrom, if_pos hlt, if_neg hend, if_neg hnop, if_neg hlen, List.filter_cons]

/-- Behind an option, its own value is left behind too. -/
theorem isMssValue_of_option (hlt : i + 1 < stop) (hend : byteAt pkt i ≠ 0)
    (hnop : byteAt pkt i ≠ 1)
    (hlen : ¬ ((byteAt pkt (i + 1)).toNat < 2 ∨ i + (byteAt pkt (i + 1)).toNat > stop))
    (hj : i + (byteAt pkt (i + 1)).toNat ≤ j) (h : IsMssValue pkt i stop j) :
    IsMssValue pkt (i + (byteAt pkt (i + 1)).toNat) stop j := by
  obtain ⟨o, ho, hjo⟩ := h
  rw [mssOptions_option hlt hend hnop hlen] at ho
  split at ho
  · rename_i hmss
    rcases List.mem_cons.mp ho with rfl | ho
    · have hfour := (isMss_iff.mp hmss).2
      omega
    · exact ⟨o, ho, hjo⟩
  · exact ⟨o, ho, hjo⟩

theorem mssOptions_stop (hlt : ¬ i + 1 < stop) : mssOptions pkt i stop = [] := by
  unfold mssOptions
  rw [optionsFrom, if_neg hlt, List.filter_nil]

theorem mssOptions_end (hlt : i + 1 < stop) (hend : byteAt pkt i = 0) :
    mssOptions pkt i stop = [] := by
  unfold mssOptions
  rw [optionsFrom, if_pos hlt, if_pos hend, List.filter_nil]

theorem mssOptions_broken (hlt : i + 1 < stop) (hend : byteAt pkt i ≠ 0)
    (hnop : byteAt pkt i ≠ 1)
    (hlen : (byteAt pkt (i + 1)).toNat < 2 ∨ i + (byteAt pkt (i + 1)).toNat > stop) :
    mssOptions pkt i stop = [] := by
  unfold mssOptions
  rw [optionsFrom, if_pos hlt, if_neg hend, if_neg hnop, if_pos hlen, List.filter_nil]

/-- **The walk does not depend on the MSS values**: a packet with other ones has its MSS
    options in the same places. -/
theorem mssOptions_congr
    (h : ∀ j, i ≤ j → ¬ IsMssValue pkt i stop j → byteAt pkt' j = byteAt pkt j) :
    mssOptions pkt' i stop = mssOptions pkt i stop := by
  have hkind : byteAt pkt' i = byteAt pkt i := h i (le_refl _) (not_isMssValue_of_lt (by omega))
  have hlength : byteAt pkt' (i + 1) = byteAt pkt (i + 1) :=
    h (i + 1) (by omega) (not_isMssValue_of_lt (by omega))
  fun_induction optionsFrom pkt i stop with
  | case1 i hlt hend => rw [mssOptions_end hlt hend, mssOptions_end hlt (hkind.trans hend)]
  | case2 i hlt hend hnop ih =>
    have hrest : ∀ j, i + 1 ≤ j → ¬ IsMssValue pkt (i + 1) stop j →
        byteAt pkt' j = byteAt pkt j := by
      intro j hj hv
      refine h j (by omega) ?_
      unfold IsMssValue
      rwa [mssOptions_nop hlt hend hnop]
    rw [mssOptions_nop hlt hend hnop,
      mssOptions_nop hlt (by rwa [hkind]) (hkind.trans hnop)]
    exact ih hrest (hrest _ (le_refl _) (not_isMssValue_of_lt (by omega)))
      (hrest _ (by omega) (not_isMssValue_of_lt (by omega)))
  | case3 i hlt hend hnop hlen =>
    rw [mssOptions_broken hlt hend hnop hlen,
      mssOptions_broken hlt (by rwa [hkind]) (by rwa [hkind]) (by rwa [hlength])]
  | case4 i hlt hend hnop hlen ih =>
    have hrest : ∀ j, i + (byteAt pkt (i + 1)).toNat ≤ j →
        ¬ IsMssValue pkt (i + (byteAt pkt (i + 1)).toNat) stop j →
        byteAt pkt' j = byteAt pkt j := fun j hj hv =>
      h j (by omega) fun hv' => hv (isMssValue_of_option hlt hend hnop hlen hj hv')
    have htail := ih hrest (hrest _ (le_refl _) (not_isMssValue_of_lt (by omega)))
      (hrest _ (by omega) (not_isMssValue_of_lt (by omega)))
    have hmss : isMss pkt' i = isMss pkt i := by rw [isMss, isMss, hkind, hlength]
    rw [mssOptions_option hlt hend hnop hlen,
      mssOptions_option hlt (by rwa [hkind]) (by rwa [hkind]) (by rwa [hlength]), hlength, hmss,
      htail]
  | case5 i hlt => rw [mssOptions_stop hlt, mssOptions_stop hlt]

/-! ## 3. What the walk does -/

/-- **The MSS values above the maximum are lowered to it**, and every other byte is kept. -/
structure Lowered (pkt : List UInt8) (i stop : Nat) (maxMss : UInt16) (pkt' : List UInt8) :
    Prop where
  length : pkt'.length = pkt.length
  other : ∀ j, ¬ IsMssValue pkt i stop j → byteAt pkt' j = byteAt pkt j
  value : ∀ o ∈ mssOptions pkt i stop, wordAt pkt' (o + 2) =
    if maxMss < wordAt pkt (o + 2) then maxMss else wordAt pkt (o + 2)

theorem Lowered.none (h : mssOptions pkt i stop = []) : Lowered pkt i stop maxMss pkt where
  length := rfl
  other _ _ := rfl
  value o ho := by
    rw [h] at ho
    cases ho

theorem Lowered.of_eq {i' : Nat} (h : Lowered pkt i' stop maxMss pkt')
    (he : mssOptions pkt i stop = mssOptions pkt i' stop) : Lowered pkt i stop maxMss pkt' where
  length := h.length
  other j hj := h.other j (by unfold IsMssValue at hj; rwa [he] at hj)
  value o ho := h.value o (he ▸ ho)

/-- An MSS option in front of the rest of the walk. -/
theorem Lowered.cons {pkt₁ : List UInt8}
    (he : mssOptions pkt i stop = i :: mssOptions pkt (i + 4) stop)
    (hlength : pkt₁.length = pkt.length)
    (hother : ∀ j, j ≠ i + 2 → j ≠ i + 3 → byteAt pkt₁ j = byteAt pkt j)
    (hvalue : wordAt pkt₁ (i + 2) =
      if maxMss < wordAt pkt (i + 2) then maxMss else wordAt pkt (i + 2))
    (h : Lowered pkt₁ (i + 4) stop maxMss pkt') : Lowered pkt i stop maxMss pkt' := by
  have hrest : mssOptions pkt₁ (i + 4) stop = mssOptions pkt (i + 4) stop :=
    mssOptions_congr fun j hj _ => hother j (by omega) (by omega)
  have hbefore : ∀ j < i + 6, ¬ IsMssValue pkt₁ (i + 4) stop j := fun j hj =>
    not_isMssValue_of_lt (by omega)
  refine ⟨h.length.trans hlength, fun j hj => ?_, fun o ho => ?_⟩
  · have hj₁ : ¬ IsMssValue pkt₁ (i + 4) stop j := by
      rintro ⟨o, ho, hjo⟩
      exact hj ⟨o, by rw [he, ← hrest]; exact List.mem_cons_of_mem _ ho, hjo⟩
    have hji : ¬ (j = i + 2 ∨ j = i + 3) := fun hji =>
      hj ⟨i, by rw [he]; exact List.mem_cons_self, hji⟩
    rw [h.other j hj₁, hother j (fun hj => hji (Or.inl hj)) fun hj => hji (Or.inr hj)]
  · rw [he] at ho
    rcases List.mem_cons.mp ho with rfl | ho
    · rw [← hvalue]
      exact wordAt_congr (h.other _ (hbefore _ (by omega))) (h.other _ (hbefore _ (by omega)))
    · have hle := le_of_mem_mss ho
      have hsame : wordAt pkt₁ (o + 2) = wordAt pkt (o + 2) :=
        wordAt_congr (hother _ (by omega) (by omega)) (hother _ (by omega) (by omega))
      rw [h.value o (hrest ▸ ho), hsame]

/-- **The walk lowers the values, and does nothing else.** -/
theorem lowered_clampLoop (pkt : List UInt8) (i stop : Nat) (maxMss : UInt16) (changed : Bool)
    (hstop : stop ≤ pkt.length) :
    Lowered pkt i stop maxMss (clampLoop pkt i stop maxMss changed).1 := by
  fun_induction clampLoop pkt i stop maxMss changed with
  | case1 pkt i changed hlt kind hend => exact .none (mssOptions_end hlt hend)
  | case2 pkt i changed hlt kind hend hnop ih =>
    exact (ih hstop).of_eq (mssOptions_nop hlt hend hnop)
  | case3 pkt i changed hlt kind hend hnop len hlen =>
    exact .none (mssOptions_broken hlt hend hnop hlen)
  | case4 pkt i changed hlt kind hend hnop len hlen hmss ih =>
    obtain ⟨hkind, hfour, hgt⟩ := hmss
    have he := mssOptions_option hlt hend hnop hlen
    rw [if_pos (isMss_iff.mpr ⟨hkind, hfour⟩)] at he
    have hfour' : (byteAt pkt (i + 1)).toNat = 4 := hfour
    rw [hfour'] at he
    rw [show len = 4 from hfour] at ih hlen ⊢
    refine .cons he length_setWord (fun j h2 h3 => byteAt_setWord_of_ne h2 h3) ?_
      (ih (by rwa [length_setWord]))
    rw [if_pos hgt]
    exact wordAt_setWord (by omega)
  | case5 pkt i changed hlt kind hend hnop len hlen hmss ih =>
    have he := mssOptions_option hlt hend hnop hlen
    split at he
    · -- an MSS option that is low enough stays
      rename_i hisMss
      obtain ⟨hkind, hfour⟩ := isMss_iff.mp hisMss
      rw [hfour] at he
      have ih' := ih hstop
      rw [show len = 4 from hfour] at ih' ⊢
      exact .cons he rfl (fun _ _ _ => rfl) (if_neg fun hgt => hmss ⟨hkind, hfour, hgt⟩).symm ih'
    · exact (ih hstop).of_eq he
  | case6 pkt i changed hlt => exact .none (mssOptions_stop hlt)

/-- **The walk reports whether there was a value above the maximum.** -/
theorem changed_clampLoop (pkt : List UInt8) (i stop : Nat) (maxMss : UInt16) (changed : Bool)
    (hstop : stop ≤ pkt.length) :
    (clampLoop pkt i stop maxMss changed).2 = true ↔
      changed = true ∨ ∃ o ∈ mssOptions pkt i stop, maxMss < wordAt pkt (o + 2) := by
  fun_induction clampLoop pkt i stop maxMss changed with
  | case1 pkt i changed hlt kind hend => simp [mssOptions_end hlt hend]
  | case2 pkt i changed hlt kind hend hnop ih => rw [ih hstop, mssOptions_nop hlt hend hnop]
  | case3 pkt i changed hlt kind hend hnop len hlen =>
    simp [mssOptions_broken hlt hend hnop hlen]
  | case4 pkt i changed hlt kind hend hnop len hlen hmss ih =>
    obtain ⟨hkind, hfour, hgt⟩ := hmss
    rw [ih (by rwa [length_setWord]), mssOptions_option hlt hend hnop hlen,
      if_pos (isMss_iff.mpr ⟨hkind, hfour⟩)]
    exact iff_of_true (Or.inl rfl) (Or.inr ⟨i, List.mem_cons_self, hgt⟩)
  | case5 pkt i changed hlt kind hend hnop len hlen hmss ih =>
    rw [ih hstop, mssOptions_option hlt hend hnop hlen]
    split
    · rename_i hisMss
      obtain ⟨hkind, hfour⟩ := isMss_iff.mp hisMss
      have hlow : ¬ maxMss < wordAt pkt (i + 2) := fun hgt => hmss ⟨hkind, hfour, hgt⟩
      simp only [List.exists_mem_cons_iff, hlow, false_or]
      rfl
    · rfl
  | case6 pkt i changed hlt => simp [mssOptions_stop hlt]

/-- Where there was none, it leaves the packet as it is. -/
theorem clampLoop_unchanged (pkt : List UInt8) (i stop : Nat) (maxMss : UInt16) (changed : Bool)
    (hstop : stop ≤ pkt.length) (h : (clampLoop pkt i stop maxMss changed).2 = false) :
    (clampLoop pkt i stop maxMss changed).1 = pkt := by
  fun_induction clampLoop pkt i stop maxMss changed with
  | case1 => rfl
  | case2 pkt i changed hlt kind hend hnop ih => exact ih hstop h
  | case3 => rfl
  | case4 pkt i changed hlt kind hend hnop len hlen hmss ih =>
    have htrue := (changed_clampLoop (setWord pkt (i + 2) maxMss) (i + len) stop maxMss true
      (by rwa [length_setWord])).mpr (Or.inl rfl)
    rw [h] at htrue
    cases htrue
  | case5 pkt i changed hlt kind hend hnop len hlen hmss ih => exact ih hstop h
  | case6 => rfl

end Nullgate
