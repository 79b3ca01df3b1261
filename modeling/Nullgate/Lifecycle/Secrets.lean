/-
  File:      Nullgate/Lifecycle/Secrets.lean
  Subject:   STORED SECRETS: a secret that was stored is not taken for one that never was.

  A secret lives in the OS keystore or in a key file, and a marker file says in which. `store`
  and `load` go from one to the other as the keystore comes and goes, and every step on the disk
  may fail for itself; most of these failures are ignored. Who loads `Ok(None)` mints a new
  identity.

  * `RightLoad`: a load gives the bytes stored last, or an error;
  * `FileRead`: a read that fails with `NotFound` reads like a key file that never was;
  * **`secrets_kept_iff`**: over all histories, every load is right exactly when each call
    satisfies `Kept.Cond`, a condition on what is stored, on the disk and on the keystore;
  * `secret_vanishes`: the keystore takes the secret, the marker is not written, the key file is
    removed. `store` returns `Ok`, and the next load `Ok(None)`.
-/
import Nullgate.Engine.Admin
import Nullgate.Lib.Fold

namespace Nullgate

open Nullgate.Lib

/-! ## 1. Where a secret is -/

/-- What is held under one name: the password of the keystore entry, whether the marker exists,
    and the contents of the key file. -/
structure Secret where
  entry : Option (List Char)
  marker : Bool
  file : Option (List Char)
  deriving DecidableEq

/-- `parse_hex`. -/
def parseHex (hex : List Char) : Except String (Bytes 32) :=
  match decodeHexLower hex with
  | none => .error "secret is not valid hex"
  | some bytes =>
    match Bytes.ofList? 32 bytes with
    | none => .error "secret must be 32 bytes"
    | some b => .ok b

/-- How the write of a key file ends: it is all there, the file could not be opened, or the
    write stops behind some of the 64 characters. -/
inductive FileWrite where
  | done
  | notOpened
  | cut (k : Fin 64)
  deriving DecidableEq

/-- What `store` meets: whether the keystore takes the password (never where only files are
    used), and how the steps on the disk end. -/
structure StoreInputs where
  keystore : Bool
  markerWritten : Bool
  keyRemoved : Bool
  markerRemoved : Bool
  written : FileWrite
  deriving DecidableEq

/-- `write_secret_file`. -/
def writeSecretFile (file : Option (List Char)) (hex : List Char) :
    FileWrite → Option (List Char) × Except String Unit
  | .done => (some hex, .ok ())
  | .notOpened => (file, .error "write secret file")
  | .cut k => (some (hex.take k), .error "write secret file")

/-- `store`: the keystore first, the key file where it does not take the secret. Writing the
    marker and removing the other copy may fail, and nobody looks. -/
def Secret.store (s : Secret) (bytes : Bytes 32) (i : StoreInputs) :
    Secret × Except String Unit :=
  let hex := encodeHexLower bytes.toList
  if i.keystore then
    ({ entry := some hex
       marker := s.marker || i.markerWritten
       file := if i.keyRemoved then none else s.file }, .ok ())
  else
    let w := writeSecretFile s.file hex i.written
    ({ s with marker := s.marker && !i.markerRemoved, file := w.1 }, w.2)

/-- How far the keystore goes along with a load. -/
inductive Keystore where
  | noEntry
  | unavailable
  | opened
  deriving DecidableEq

/-- How the read of a key file ends: with what is there, with an error of the kind `NotFound`,
    or with another one. -/
inductive FileRead where
  | done
  | notFound
  | failed
  deriving DecidableEq

/-- What `load` meets: whether the marker can be looked for (`Path::exists` is false where it
    cannot), the keystore and the reason it gives when it hands out nothing, and how the read of
    the key file ends. -/
structure LoadInputs where
  stat : Bool
  keystore : Keystore
  reason : String
  read : FileRead
  deriving DecidableEq

/-- The text of the error for a keystore that does not hand out the secret. -/
def keystoreError (name reason : String) : String :=
  "secret '" ++ name ++ "' is stored in the OS keystore but it's unavailable (" ++ reason ++
    ") — unlock your login keyring or run in a desktop session"

/-- The keystore is required: what it has, or an error. -/
def Secret.fromKeystore (name : String) (s : Secret) (i : LoadInputs) :
    Except String (Option (Bytes 32)) :=
  match i.keystore with
  | .noEntry => .error "open keystore entry"
  | .unavailable => .error (keystoreError name i.reason)
  | .opened =>
    match s.entry with
    | none => .error (keystoreError name i.reason)
    | some hex => (parseHex hex).map some

/-- The key file. An error of the kind `NotFound` is taken for a file that does not exist. -/
def Secret.fromFile (s : Secret) (i : LoadInputs) : Except String (Option (Bytes 32)) :=
  match i.read with
  | .done =>
    match s.file with
    | none => .ok none
    | some hex => (parseHex (trim hex)).map some
  | .notFound => .ok none
  | .failed => .error "read secret file"

/-- `load`: behind the marker it is the keystore, without it the key file. -/
def Secret.load (name : String) (s : Secret) (i : LoadInputs) :
    Except String (Option (Bytes 32)) :=
  if s.marker && i.stat then s.fromKeystore name i else s.fromFile i

/-! ## 2. What parses -/

theorem isWhitespace_hexDigit {v : UInt8} (h : v < 16) : isWhitespace (hexDigit v) = false := by
  have hall : ∀ n < 16, isWhitespace (hexDigit (UInt8.ofNat n)) = false := by decide
  have hv := hall v.toNat (UInt8.lt_iff_toNat_lt.mp h)
  rwa [UInt8.ofNat_toNat] at hv

theorem isWhitespace_of_mem_hex {bytes : List UInt8} {c : Char}
    (h : c ∈ encodeHexLower bytes) : isWhitespace c = false := by
  induction bytes with
  | nil => cases h
  | cons b bytes ih =>
    have hlt : b.toNat < 256 := b.toNat_lt
    rw [encodeHexLower, List.mem_cons, List.mem_cons] at h
    rcases h with rfl | rfl | h
    · refine isWhitespace_hexDigit ?_
      rw [UInt8.lt_iff_toNat_lt, UInt8.toNat_div]
      show b.toNat / 16 < 16
      omega
    · refine isWhitespace_hexDigit ?_
      rw [UInt8.lt_iff_toNat_lt, UInt8.toNat_mod]
      show b.toNat % 16 < 16
      omega
    · exact ih h

/-- Hex has two characters a byte. -/
theorem length_of_decodeHexLower {hex : List Char} {bytes : List UInt8}
    (h : decodeHexLower hex = some bytes) : hex.length = 2 * bytes.length := by
  induction hex using decodeHexLower.induct generalizing bytes with
  | case1 =>
    obtain rfl := Option.some.inj h
    rfl
  | case2 c => cases h
  | case3 high low rest ih =>
    simp only [decodeHexLower, bind, Option.bind_eq_some_iff] at h
    obtain ⟨a, -, b, -, tail, htail, hbytes⟩ := h
    obtain rfl := Option.some.inj hbytes
    rw [List.length_cons, List.length_cons, List.length_cons, ih htail]
    omega

/-- **What was written is what is read.** -/
@[simp] theorem parseHex_encode (b : Bytes 32) : parseHex (encodeHexLower b.toList) = .ok b := by
  rw [parseHex, decodeHexLower_encode]
  simp only [Bytes.ofList?_toList]

/-- The hex of a secret has nothing to trim. -/
@[simp] theorem trim_encode (b : Bytes 32) :
    trim (encodeHexLower b.toList) = encodeHexLower b.toList := by
  have hne : encodeHexLower b.toList ≠ [] := by
    intro h
    have hlen := length_encodeHexLower b.toList
    rw [h, b.length_eq] at hlen
    cases hlen
  have := @trim_word [] [] _ hne (fun c hc => isWhitespace_of_mem_hex hc) (fun c hc => by cases hc)
  rwa [List.nil_append, List.append_nil] at this

theorem length_of_parseHex {hex : List Char} {b : Bytes 32} (h : parseHex hex = .ok b) :
    hex.length = 64 := by
  rw [parseHex] at h
  cases hd : decodeHexLower hex with
  | none => simp [hd] at h
  | some bytes =>
    rw [length_of_decodeHexLower hd]
    by_cases hlen : bytes.length = 32
    · omega
    · simp [hd, Bytes.ofList?, hlen] at h

theorem length_trim_le (s : List Char) : (trim s).length ≤ s.length := by
  rw [trim, List.length_reverse]
  refine (List.dropWhile_sublist _).length_le.trans ?_
  rw [List.length_reverse]
  exact (List.dropWhile_sublist _).length_le

/-- **A cut file does not parse.** -/
theorem parseHex_cut (hex : List Char) (k : Fin 64) (b : Bytes 32) :
    parseHex (trim (hex.take k)) ≠ .ok b := by
  intro h
  have hlen := length_of_parseHex h
  have htrim := length_trim_le (hex.take k)
  have htake : (hex.take k).length ≤ k := List.length_take_le _ _
  omega

/-! ## 3. Histories -/

/-- What is held, and the bytes of the last `store` that returned `Ok`. -/
structure Kept extends Secret where
  last : Option (Bytes 32)

inductive SecretCall where
  | store (bytes : Bytes 32) (i : StoreInputs)
  | load (i : LoadInputs)

/-- One call. -/
def Kept.step (s : Kept) : SecretCall → Kept
  | .store bytes i =>
    let r := s.toSecret.store bytes i
    { toSecret := r.1
      last := match r.2 with
        | .ok _ => some bytes
        | .error _ => s.last }
  | .load _ => s

/-- The bytes `b`, or an error. -/
def GivesBytes (b : Bytes 32) (r : Except String (Option (Bytes 32))) : Prop :=
  r = .ok (some b) ∨ ∃ e, r = .error e

/-- **A right answer**: once something was stored, it gives the bytes stored last. -/
def RightLoad (last : Option (Bytes 32)) (r : Except String (Option (Bytes 32))) : Prop :=
  ∀ b, last = some b → GivesBytes b r

/-- The load learns of the marker and of the key file whether they are there. -/
def LoadInputs.Finds (l : LoadInputs) : Prop := l.stat = true ∧ l.read ≠ .notFound

/-- **The secret is kept by a call**: behind a `store` every load is right that finds what is
    there, whatever keystore and read do then, and a load is right itself. -/
def Kept.Keeps (name : String) (s : Kept) : SecretCall → Prop
  | .store bytes i =>
    ∀ l : LoadInputs, l.Finds →
      RightLoad (s.step (.store bytes i)).last ((s.step (.store bytes i)).toSecret.load name l)
  | .load i => RightLoad s.last (s.toSecret.load name i)

/-- Nothing but `b` can be read from a text. -/
def Yields (hex : List Char) (b : Bytes 32) : Prop := ∀ b', parseHex hex = .ok b' → b' = b

/-- There is a key file, and nothing but `b` can be read from it. -/
def FileHas (file : Option (List Char)) (b : Bytes 32) : Prop :=
  ∃ hex, file = some hex ∧ Yields (trim hex) b

/-- There is nothing but `b` in the keystore. -/
def EntryHas (entry : Option (List Char)) (b : Bytes 32) : Prop :=
  ∀ hex, entry = some hex → Yields hex b

/-- **The condition on a call.**
    * Behind a `store` in the keystore the marker is there, or the key file stays and has the
      bytes already.
    * Behind a `store` in the key file there is no marker, or the keystore has the bytes already.
    * A `store` that fails to open the key file has not removed the marker, unless the key file
      has the bytes stored before.
    * A load that finds no marker: where there is one, the key file it reads has the bytes stored
      before; where it is told `NotFound`, nothing was stored before. -/
def Kept.Cond (s : Kept) : SecretCall → Prop
  | .store bytes i =>
    if i.keystore then
      s.marker = true ∨ i.markerWritten = true ∨ (i.keyRemoved = false ∧ FileHas s.file bytes)
    else
      match i.written with
      | .done => s.marker = false ∨ i.markerRemoved = true ∨ EntryHas s.entry bytes
      | .notOpened =>
        s.marker = true → i.markerRemoved = true → ∀ b, s.last = some b → FileHas s.file b
      | .cut _ => True
  | .load i =>
    (s.marker = true → i.stat = false) →
      match i.read with
      | .done => s.marker = true → ∀ b, s.last = some b → FileHas s.file b
      | .notFound => s.last = none
      | .failed => True

/-- Where the secret is, there is nothing but the bytes stored last. -/
def Kept.Safe (s : Kept) : Prop :=
  ∀ b, s.last = some b → if s.marker then EntryHas s.entry b else FileHas s.file b

/-! ## 4. The condition is exact -/

variable {name : String} {s : Kept}

theorem gives_map {hex : List Char} {b : Bytes 32} :
    GivesBytes b ((parseHex hex).map some) ↔ Yields hex b := by
  rw [Yields]
  cases parseHex hex with
  | error e => exact iff_of_true (Or.inr ⟨e, rfl⟩) fun b' h => by cases h
  | ok c =>
    constructor
    · rintro (h | ⟨e, h⟩)
      · intro b' hb'
        cases hb'
        cases h
        rfl
      · cases h
    · intro h
      rw [h c rfl]
      exact Or.inl rfl

theorem not_gives_none {b : Bytes 32} : ¬ GivesBytes b (.ok none) := by
  rintro (h | ⟨e, h⟩) <;> cases h

/-- **What the key file gives.** -/
theorem gives_fromFile {s : Secret} {i : LoadInputs} {b : Bytes 32} :
    GivesBytes b (s.fromFile i) ↔
      i.read ≠ .notFound ∧ (i.read = .done → FileHas s.file b) := by
  rw [Secret.fromFile]
  cases hr : i.read with
  | done =>
    rw [and_iff_right (by decide)]
    cases hf : s.file with
    | none =>
      refine iff_of_false not_gives_none fun h => ?_
      obtain ⟨hex, hhex, -⟩ := h rfl
      cases hhex
    | some hex =>
      refine gives_map.trans ⟨fun h _ => ⟨hex, rfl, h⟩, fun h => ?_⟩
      obtain ⟨hex', hhex, hy⟩ := h rfl
      cases hhex
      exact hy
  | notFound => exact iff_of_false not_gives_none fun h => h.1 rfl
  | failed => exact iff_of_true (Or.inr ⟨_, rfl⟩) ⟨by decide, fun h => by cases h⟩

/-- **What the keystore gives**, as far as it goes along. -/
theorem gives_fromKeystore {s : Secret} {i : LoadInputs} {b : Bytes 32} :
    GivesBytes b (s.fromKeystore name i) ↔ (i.keystore = .opened → EntryHas s.entry b) := by
  rw [Secret.fromKeystore]
  cases hk : i.keystore with
  | noEntry => exact iff_of_true (Or.inr ⟨_, rfl⟩) fun h => by cases h
  | unavailable => exact iff_of_true (Or.inr ⟨_, rfl⟩) fun h => by cases h
  | opened =>
    cases he : s.entry with
    | none => exact iff_of_true (Or.inr ⟨_, rfl⟩) fun _ hex h => by cases h
    | some hex =>
      refine gives_map.trans ⟨fun h _ hex' hhex => ?_, fun h => h rfl hex rfl⟩
      cases hhex
      exact h

/-- **Every load is right exactly where nothing else is held**: all that matters is that the
    load finds what is there. -/
theorem right_iff_safe :
    (∀ i : LoadInputs, i.Finds → RightLoad s.last (s.toSecret.load name i)) ↔ Kept.Safe s := by
  constructor
  · intro h b hb
    have hload := h ⟨true, .opened, "", .done⟩ ⟨rfl, by decide⟩ b hb
    rw [Secret.load, Bool.and_true] at hload
    by_cases hm : s.marker = true
    · rw [if_pos hm] at hload ⊢
      exact gives_fromKeystore.mp hload rfl
    · rw [if_neg hm] at hload ⊢
      exact (gives_fromFile.mp hload).2 rfl
  · intro h i hi b hb
    have hb' := h b hb
    rw [Secret.load, hi.1, Bool.and_true]
    by_cases hm : s.marker = true
    · rw [if_pos hm] at hb' ⊢
      exact gives_fromKeystore.mpr fun _ => hb'
    · rw [if_neg hm] at hb' ⊢
      exact gives_fromFile.mpr ⟨hi.2, fun _ => hb'⟩

theorem entryHas_encode (b : Bytes 32) : EntryHas (some (encodeHexLower b.toList)) b := by
  intro hex h b' hb'
  cases h
  rw [parseHex_encode] at hb'
  exact (Except.ok.inj hb').symm

theorem fileHas_encode (b : Bytes 32) : FileHas (some (encodeHexLower b.toList)) b := by
  refine ⟨_, rfl, fun b' hb' => ?_⟩
  rw [trim_encode, parseHex_encode] at hb'
  exact (Except.ok.inj hb').symm

/-- A cut key file has nothing else. -/
theorem fileHas_cut (hex : List Char) (k : Fin 64) (b : Bytes 32) : FileHas (some (hex.take k)) b :=
  ⟨_, rfl, fun b' hb' => absurd hb' (parseHex_cut hex k b')⟩

theorem safe_some_iff {s : Secret} {b : Bytes 32} :
    Kept.Safe ⟨s, some b⟩ ↔ if s.marker then EntryHas s.entry b else FileHas s.file b := by
  constructor
  · exact fun h => h b rfl
  · intro h b' hb'
    obtain rfl := Option.some.inj hb'
    exact h

/-- In the keystore: the marker decides whether anybody looks there. -/
theorem safe_keystore_iff {f : Option (List Char)} {m w r : Bool} {b : Bytes 32} :
    Kept.Safe ⟨⟨some (encodeHexLower b.toList), m || w, if r then none else f⟩, some b⟩ ↔
      m = true ∨ w = true ∨ (r = false ∧ FileHas f b) := by
  rw [safe_some_iff]
  by_cases hm : (m || w) = true
  · rw [if_pos hm, Bool.or_eq_true] at *
    refine iff_of_true (entryHas_encode b) ?_
    rcases hm with hm | hw
    · exact Or.inl hm
    · exact Or.inr (Or.inl hw)
  · rw [if_neg hm]
    rw [Bool.or_eq_true, not_or] at hm
    rw [or_iff_right hm.1, or_iff_right hm.2]
    by_cases hr : r = true
    · rw [hr, if_pos rfl]
      constructor
      · rintro ⟨hex, hnone, -⟩
        cases hnone
      · rintro ⟨hfalse, -⟩
        cases hfalse
    · rw [if_neg hr, Bool.not_eq_true] at *
      exact (and_iff_right hr).symm

/-- The marker is gone behind a store in the key file. -/
theorem not_marker_iff {m r : Bool} : ¬ (m && !r) = true ↔ m = false ∨ r = true := by
  cases m <;> cases r <;> decide

/-- In the key file: what is left of the keystore is a marker that could not be removed. -/
theorem safe_written_iff {e : Option (List Char)} {m r : Bool} {b : Bytes 32} :
    Kept.Safe ⟨⟨e, m && !r, some (encodeHexLower b.toList)⟩, some b⟩ ↔
      m = false ∨ r = true ∨ EntryHas e b := by
  rw [safe_some_iff, ← or_assoc, ← not_marker_iff]
  by_cases hm : (m && !r) = true
  · rw [if_pos hm, or_iff_right (not_not.mpr hm)]
  · rw [if_neg hm]
    exact iff_of_true (fileHas_encode b) (Or.inl hm)

/-- Behind a store that failed: the bytes stored before are where they were, unless the marker
    went. -/
theorem safe_failed_iff (h : Kept.Safe s) {f : Option (List Char)} {r : Bool}
    (hf : ∀ b, FileHas s.file b → FileHas f b) :
    Kept.Safe ⟨⟨s.entry, s.marker && !r, f⟩, s.last⟩ ↔
      (s.marker = true → r = true → ∀ b, s.last = some b → FileHas f b) := by
  constructor
  · intro h' hm hr b hb
    have hb' := h' b hb
    rwa [if_neg (not_marker_iff.mpr (Or.inr hr))] at hb'
  · intro hc b hb
    have hb' := h b hb
    by_cases hm : (s.marker && !r) = true
    · rw [if_pos hm]
      rwa [if_pos (Bool.and_eq_true_iff.mp hm).1] at hb'
    · rw [if_neg hm]
      by_cases hs : s.marker = true
      · exact hc hs ((not_marker_iff.mp hm).resolve_left (by rw [hs]; decide)) b hb
      · rw [if_neg hs] at hb'
        exact hf b hb'

/-- **Behind a `store` every load is right exactly when it satisfies the condition.** -/
theorem safe_store_iff (h : Kept.Safe s) (bytes : Bytes 32) (i : StoreInputs) :
    Kept.Safe (s.step (.store bytes i)) ↔ Kept.Cond s (.store bytes i) := by
  rw [Kept.step, Secret.store, Kept.Cond]
  by_cases hk : i.keystore = true
  · rw [if_pos hk, if_pos hk]
    exact safe_keystore_iff
  · rw [if_neg hk, if_neg hk]
    cases hw : i.written with
    | done => exact safe_written_iff
    | notOpened => exact safe_failed_iff h fun _ hf => hf
    | cut k =>
      refine (safe_failed_iff h fun b _ => fileHas_cut _ k b).trans (iff_true_intro ?_)
      exact fun _ _ b _ => fileHas_cut _ k b

/-- Where the secret is safe, the marker is what a load needs that reads what is in the key
    file. -/
theorem gives_file_iff (h : Kept.Safe s) (i : LoadInputs) :
    RightLoad s.last (s.toSecret.fromFile i) ↔
      match i.read with
      | .done => s.marker = true → ∀ b, s.last = some b → FileHas s.file b
      | .notFound => s.last = none
      | .failed => True := by
  simp only [RightLoad, gives_fromFile]
  cases i.read with
  | done =>
    constructor
    · exact fun hl _ b hb => (hl b hb).2 rfl
    · refine fun hc b hb => ⟨by decide, fun _ => ?_⟩
      by_cases hm : s.marker = true
      · exact hc hm b hb
      · have hb' := h b hb
        rwa [if_neg hm] at hb'
  | notFound =>
    constructor
    · intro hl
      by_contra hne
      obtain ⟨b, hb⟩ := Option.ne_none_iff_exists'.mp hne
      exact (hl b hb).1 rfl
    · intro hnone b hb
      rw [hnone] at hb
      cases hb
  | failed => exact iff_of_true (fun b _ => ⟨by decide, fun h => by cases h⟩) trivial

/-- **A call keeps the secret exactly when it satisfies the condition.** -/
theorem keeps_iff_cond (h : Kept.Safe s) (c : SecretCall) :
    Kept.Keeps name s c ↔ Kept.Cond s c := by
  cases c with
  | store bytes i => exact right_iff_safe.trans (safe_store_iff h bytes i)
  | load i =>
    rw [Kept.Keeps, Secret.load, Kept.Cond]
    by_cases hm : s.marker = true ∧ i.stat = true
    · rw [if_pos (Bool.and_eq_true_iff.mpr hm)]
      refine iff_of_true (fun b hb => ?_) fun hn => by
        have hstat := hn hm.1
        rw [hm.2] at hstat
        cases hstat
      have hb' := h b hb
      rw [if_pos hm.1] at hb'
      exact gives_fromKeystore.mpr fun _ => hb'
    · have hn : s.marker = true → i.stat = false := by
        intro hmark
        rw [← Bool.not_eq_true]
        exact fun hstat => hm ⟨hmark, hstat⟩
      rw [if_neg (fun hand => hm (Bool.and_eq_true_iff.mp hand))]
      exact (gives_file_iff h i).trans ⟨fun hc _ => hc, fun hc => hc hn⟩

/-- Where the secret is safe, a call that satisfies the condition keeps it so. -/
theorem Kept.Safe.step (h : Kept.Safe s) (c : SecretCall) (hc : Kept.Cond s c) :
    Kept.Safe (s.step c) := by
  cases c with
  | store bytes i => exact (safe_store_iff h bytes i).mpr hc
  | load i => exact h

/-- **When a secret is kept**: over every history of `store` and `load`, whatever the keystore and
    the disk do, each call keeps the secret exactly when each call satisfies the condition. -/
theorem secrets_kept_iff (name : String) (s : Secret) (l : List SecretCall) :
    EachStep Kept.step (Kept.Keeps name) ⟨s, none⟩ l ↔
      EachStep Kept.step Kept.Cond ⟨s, none⟩ l := by
  have h0 : Kept.Safe ⟨s, none⟩ := fun b hb => by cases hb
  constructor
  · exact eachStep_of_invariant h0 (fun s c h hk => h.step c ((keeps_iff_cond h c).mp hk))
      fun s c h hk => (keeps_iff_cond h c).mp hk
  · exact eachStep_of_invariant h0 (fun s c h hc => h.step c hc)
      fun s c h hc => (keeps_iff_cond h c).mpr hc

/-- Nothing is held, and nothing was stored. -/
def noSecret : Kept := { entry := none, marker := false, file := none, last := none }

/-- The keystore takes the secret, and the marker cannot be written: nobody finds it again. -/
theorem secret_vanishes :
    let stored := noSecret.step (.store ⟨List.replicate 32 7, by decide⟩
      { keystore := true, markerWritten := false, keyRemoved := true, markerRemoved := true
        written := .done })
    stored.last = some ⟨List.replicate 32 7, by decide⟩ ∧
      stored.toSecret.load "node-key" ⟨true, .opened, "", .done⟩ = .ok none := by
  decide

end Nullgate
