/-
  File:      Nullgate/Lib/Cbor.lean
  Subject:   CBOR, as a serializer writes it: definite lengths, shortest heads.

  * `head`, `readHead` -- major type and argument; the reader also takes longer heads;
  * `uint`, `byte`, `bool`, `text`, `bytes`, `fixed`, `enum` -- codecs of the items a derived
    serializer uses;
  * `field`, `record` -- the entries of a map with text keys;
  * `length_*_le` -- how long what they write can get.
-/
import Nullgate.Lib.Bytes
import Nullgate.Lib.Codec

namespace Nullgate.Lib.Cbor

/-! ## 1. Heads -/

/-- The initial byte: major type and additional information. -/
def initial (major info : Nat) : UInt8 := (32 * major + info).toUInt8

/-- The head of an item, with the shortest argument. -/
def head (major n : Nat) : List UInt8 :=
  if n < 24 then [initial major n]
  else if n < 256 ^ 1 then initial major 24 :: beBytes 1 n
  else if n < 256 ^ 2 then initial major 25 :: beBytes 2 n
  else if n < 256 ^ 4 then initial major 26 :: beBytes 4 n
  else initial major 27 :: beBytes 8 n

/-- The argument of `k` bytes. -/
def readArg (k : Nat) (l : List UInt8) : Option (Nat × List UInt8) :=
  if l.length < k then none else some (ofBe (l.take k), l.drop k)

/-- The argument of a head of the given major type, of any admitted width. -/
def readHead (major : Nat) : List UInt8 → Option (Nat × List UInt8)
  | [] => none
  | b :: rest =>
    if b.toNat / 32 ≠ major then none
    else
      let info := b.toNat % 32
      if info < 24 then some (info, rest)
      else if info = 24 then readArg 1 rest
      else if info = 25 then readArg 2 rest
      else if info = 26 then readArg 4 rest
      else if info = 27 then readArg 8 rest
      else none

theorem readArg_beBytes {k n : Nat} (h : n < 256 ^ k) (rest : List UInt8) :
    readArg k (beBytes k n ++ rest) = some (n, rest) := by
  have hlen : ¬ (beBytes k n ++ rest).length < k := by simp
  rw [readArg, if_neg hlen, List.take_left' (length_beBytes k n),
    List.drop_left' (length_beBytes k n), ofBe_beBytes h]

theorem initial_toNat {major info : Nat} (hm : major < 8) (hi : info < 32) :
    (initial major info).toNat = 32 * major + info := by
  show (32 * major + info) % 256 = 32 * major + info
  omega

/-- **A head reads back**, whatever stands behind it. -/
theorem readHead_head {major n : Nat} (hm : major < 8) (hn : n < UInt64.size)
    (rest : List UInt8) : readHead major (head major n ++ rest) = some (n, rest) := by
  have hdiv : ∀ info < 32, (initial major info).toNat / 32 = major := fun info hi => by
    rw [initial_toNat hm hi]
    omega
  have hmod : ∀ info < 32, (initial major info).toNat % 32 = info := fun info hi => by
    rw [initial_toNat hm hi]
    omega
  unfold head
  split
  · rename_i h
    simp [readHead, hdiv n (by omega), hmod n (by omega), h]
  split
  · rename_i h
    simp [readHead, hdiv 24, hmod 24, readArg_beBytes h]
  split
  · rename_i h
    simp [readHead, hdiv 25, hmod 25, readArg_beBytes h]
  split
  · rename_i h
    simp [readHead, hdiv 26, hmod 26, readArg_beBytes h]
  · simp [readHead, hdiv 27, hmod 27, readArg_beBytes (k := 8) hn]

theorem length_head_pos (major n : Nat) : 0 < (head major n).length := by
  unfold head
  repeat' split
  all_goals simp

theorem length_head_le (major n : Nat) : (head major n).length ≤ 9 := by
  unfold head
  repeat' split
  all_goals simp

theorem length_head_le_two {n : Nat} (h : n < 256) (major : Nat) : (head major n).length ≤ 2 := by
  unfold head
  split
  · simp
  · rw [if_pos (by omega)]
    simp

/-! ## 2. Items -/

/-- An unsigned integer of 64 bits. -/
def uint : Codec UInt64 where
  enc v := head 0 v.toNat
  dec l := (readHead 0 l).map fun (n, rest) => (n.toUInt64, rest)
  law v rest _ := by
    rw [readHead_head (by decide) v.toNat_lt]
    simp

/-- One byte, as an integer. -/
def byte : Codec UInt8 where
  enc b := head 0 b.toNat
  dec l := (readHead 0 l).bind fun (n, rest) => if n < 256 then some (n.toUInt8, rest) else none
  law b rest _ := by
    have hb : b.toNat < 256 := b.toNat_lt
    rw [readHead_head (by decide) (lt_trans hb (by decide))]
    simp [hb]

/-- The simple values `false` and `true`. -/
def bool : Codec Bool where
  enc b := [if b then 0xf5 else 0xf4]
  dec
    | [] => none
    | x :: rest =>
      if x = 0xf5 then some (true, rest) else if x = 0xf4 then some (false, rest) else none
  law b rest _ := by cases b <;> rfl

/-- A text string. -/
def text : Codec String where
  enc s := head 3 s.toUTF8.data.toList.length ++ s.toUTF8.data.toList
  dec l := (readHead 3 l).bind fun (n, rest) =>
    if rest.length < n then none
    else (String.fromUTF8? ⟨(rest.take n).toArray⟩).map fun s => (s, rest.drop n)
  law s rest hlen := by
    rw [List.length_append] at hlen
    have hn : s.toUTF8.data.toList.length < UInt64.size :=
      lt_of_le_of_lt (Nat.le_add_left _ _) hlen
    have hs : String.fromUTF8? s.toUTF8 = some s := by
      simp only [String.fromUTF8?, String.toUTF8_eq_toByteArray, dif_pos s.isValidUTF8]
      rfl
    rw [List.append_assoc, readHead_head (by decide) hn]
    simpa using hs

/-- `n` values, one behind the other. -/
def readMany {α : Type*} (read : List UInt8 → Option (α × List UInt8)) :
    Nat → List UInt8 → Option (List α × List UInt8)
  | 0, l => some ([], l)
  | n + 1, l => (read l).bind fun (a, rest) =>
    (readMany read n rest).map fun (as, rest) => (a :: as, rest)

theorem readMany_flatMap {α : Type*} (c : Codec α) (as : List α) (rest : List UInt8)
    (h : (as.flatMap c.enc).length < UInt64.size) :
    readMany c.dec as.length (as.flatMap c.enc ++ rest) = some (as, rest) := by
  induction as with
  | nil => rfl
  | cons a as ih =>
    rw [List.flatMap_cons, List.length_append] at h
    have ha := c.law a (as.flatMap c.enc ++ rest) (lt_of_le_of_lt (Nat.le_add_right _ _) h)
    have has := ih (lt_of_le_of_lt (Nat.le_add_left _ _) h)
    simp [readMany, List.append_assoc, ha, has]

theorem length_le_flatMap {α : Type*} (c : Codec α) (hpos : ∀ a, 0 < (c.enc a).length)
    (as : List α) : as.length ≤ (as.flatMap c.enc).length := by
  induction as with
  | nil => exact le_refl 0
  | cons a as ih =>
    have ha := hpos a
    rw [List.flatMap_cons, List.length_append, List.length_cons]
    omega

/-- An array of items, none of which is written as nothing. -/
def list {α : Type*} (c : Codec α) (hpos : ∀ a, 0 < (c.enc a).length) : Codec (List α) where
  enc as := head 4 as.length ++ as.flatMap c.enc
  dec l := (readHead 4 l).bind fun (n, rest) => readMany c.dec n rest
  law as rest hlen := by
    rw [List.length_append] at hlen
    have hbody : (as.flatMap c.enc).length < UInt64.size :=
      lt_of_le_of_lt (Nat.le_add_left _ _) hlen
    have hn : as.length < UInt64.size := lt_of_le_of_lt (length_le_flatMap c hpos as) hbody
    rw [List.append_assoc, readHead_head (by decide) hn]
    exact readMany_flatMap c as rest hbody

/-- A byte list, as an array of integers. -/
def bytes : Codec (List UInt8) := list byte fun b => length_head_pos 0 b.toNat

/-- A byte array of fixed length, as an array of integers. -/
def fixed (n : Nat) : Codec (Bytes n) where
  enc b := bytes.enc b.toList
  dec l := (bytes.dec l).bind fun (as, rest) => (Bytes.ofList? n as).map fun b => (b, rest)
  law b rest hlen := by simp [bytes.law b.toList rest hlen]

/-- The text `name t` for each `t` of an enumeration. -/
def enum {τ : Type*} (all : List τ) (name : τ → String) (hall : ∀ t, t ∈ all)
    (hinj : Function.Injective name) : Codec τ where
  enc t := text.enc (name t)
  dec l := (text.dec l).bind fun (s, rest) =>
    (all.find? fun t => name t = s).map fun t => (t, rest)
  law t rest hlen := by
    have hsome : (all.find? fun t' => name t' = name t).isSome :=
      List.find?_isSome.mpr ⟨t, hall t, by simp⟩
    obtain ⟨t', ht'⟩ := Option.isSome_iff_exists.mp hsome
    have hname : name t' = name t := by simpa using List.find?_some ht'
    rw [hinj hname] at ht'
    simp [text.law (name t) rest hlen, ht']

/-- An entry of a map, under a text key. -/
def field {α : Type*} (key : String) (c : Codec α) : Codec α := c.after (text.enc key)

/-- A map of `n` entries. -/
def record {α : Type*} (n : Nat) (c : Codec α) : Codec α := c.after (head 5 n)

/-! ## 3. Lengths -/

theorem length_uint_le (v : UInt64) : (uint.enc v).length ≤ 9 := length_head_le 0 v.toNat

theorem length_byte_le (b : UInt8) : (byte.enc b).length ≤ 2 := length_head_le_two b.toNat_lt 0

theorem length_bool (b : Bool) : (bool.enc b).length = 1 := rfl

theorem length_text_le (s : String) : (text.enc s).length ≤ 9 + s.utf8ByteSize := by
  have hhead := length_head_le 3 s.toUTF8.data.toList.length
  have hsize : s.toUTF8.data.toList.length = s.utf8ByteSize := rfl
  show (head 3 _ ++ _).length ≤ _
  rw [List.length_append]
  omega

theorem utf8ByteSize_le_length_text (s : String) : s.utf8ByteSize ≤ (text.enc s).length := by
  have hsize : s.toUTF8.data.toList.length = s.utf8ByteSize := rfl
  show _ ≤ (head 3 _ ++ _).length
  rw [List.length_append]
  omega

theorem length_bytes_le (l : List UInt8) : (bytes.enc l).length ≤ 9 + 2 * l.length := by
  have hhead := length_head_le 4 l.length
  have hbody : (l.flatMap byte.enc).length ≤ 2 * l.length := by
    induction l with
    | nil => exact le_refl 0
    | cons b l ih =>
      have hb := length_byte_le b
      have hl := ih (length_head_le 4 l.length)
      rw [List.flatMap_cons, List.length_append, List.length_cons]
      omega
  show (head 4 _ ++ _).length ≤ _
  rw [List.length_append]
  omega

theorem length_fixed_le {n : Nat} (b : Bytes n) : ((fixed n).enc b).length ≤ 9 + 2 * n := by
  have h := length_bytes_le b.toList
  rw [b.length_eq] at h
  exact h

/-- An entry of a map, under a key of at most `k` bytes. -/
theorem length_field_le {α : Type*} {key : String} {c : Codec α} {a : α} {k n : Nat}
    (hkey : key.utf8ByteSize ≤ k) (h : (c.enc a).length ≤ n) :
    ((field key c).enc a).length ≤ 9 + k + n := by
  have htext := length_text_le key
  show (text.enc key ++ c.enc a).length ≤ _
  rw [List.length_append]
  omega

theorem length_record_le {α : Type*} {n m : Nat} {c : Codec α} {a : α}
    (h : (c.enc a).length ≤ m) : ((record n c).enc a).length ≤ 9 + m := by
  have hhead := length_head_le 5 n
  show (head 5 n ++ c.enc a).length ≤ _
  rw [List.length_append]
  omega

end Nullgate.Lib.Cbor
