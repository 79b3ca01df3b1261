/-
  File:      Nullgate/Admission/Handshake.lean
  Subject:   THE ADMISSION HANDSHAKE (`admission.rs`) of one honest end.

  * `transcript`, `tag`, `sasEmojis` -- what both ends compute; `transcript_eq_iff`: two
    sessions share a transcript exactly when they share the unordered pair of ids and the
    unordered pair of nonces;
  * `Session` -- one execution of `run`, from its first write to its result: what it has
    read of the control stream, what it has written, and where it stands;
  * `Session.feed` -- the peer's next bytes arrive, and `run` goes on as far as they reach.

  The peer decides what arrives and in which pieces. HMAC-SHA256 is a parameter.
-/
import Nullgate.Roster.Types
import Mathlib.Data.Sym.Sym2

namespace Nullgate.Admission

open Nullgate.Lib

variable (hmac : Bytes 32 → List UInt8 → Bytes 32)

/-! ## 1. Transcript, tag, SAS -/

def DOMAIN : List UInt8 := "ipn-admission-v1".toUTF8.data.toList

/-- The smaller one first. -/
def sortPair (a b : Bytes 32) : Bytes 32 × Bytes 32 := if a ≤ b then (a, b) else (b, a)

/-- Canonical transcript: domain, sorted ids, sorted nonces. -/
def transcript (a b : Id) (na nb : Bytes 32) : List UInt8 :=
  let (loId, hiId) := sortPair a b
  let (loN, hiN) := sortPair na nb
  DOMAIN ++ loId.toList ++ hiId.toList ++ loN.toList ++ hiN.toList

def tag (psk : Bytes 32) (transcript : List UInt8) : Bytes 32 := hmac psk transcript

/-- The 64-emoji SAS table. -/
def SAS_EMOJI : List String := [
  "🐶", "🐱", "🦁", "🐎", "🦄", "🐷", "🐘", "🐰", "🐼", "🐓", "🐧", "🐢", "🐟", "🐙", "🦋", "🌷",
  "🌳", "🌵", "🍄", "🌏", "🌙", "☁️", "🔥", "🍌", "🍎", "🍓", "🌽", "🍕", "🎂", "❤️", "😀", "🤖",
  "🎩", "👓", "🔧", "🎅", "👍", "☂️", "⌛", "⏰", "🎁", "💡", "📕", "✏️", "📎", "✂️", "🔒", "🔑",
  "🔨", "☎️", "🏁", "🚂", "🚲", "✈️", "🚀", "🏆", "⚽", "🎸", "🎺", "🔔", "⚓", "🎧", "📁", "📌"]

/-- `while out.len() < 7`, with `missing` the emojis still to push. -/
def sasLoop (bytes : List UInt8) : (missing : Nat) → (acc nbits : UInt32) → (idx : Nat) →
    List String
  | 0, _, _, _ => []
  | missing + 1, acc, nbits, idx =>
    let (acc, nbits, idx) :=
      if nbits < 6 then (acc <<< 8 ||| (bytes.getD idx 0).toUInt32, nbits + 8, idx + 1)
      else (acc, nbits, idx)
    let nbits := nbits - 6
    let v := (acc >>> nbits) &&& 0x3f
    SAS_EMOJI.getD v.toNat "" :: sasLoop bytes missing acc nbits idx

/-- The short authentication string of a session. -/
def sasEmojis (psk : Bytes 32) (transcript : List UInt8) : List String :=
  sasLoop (hmac psk ("sas".toUTF8.data.toList ++ transcript)).toList 7 0 0 0

/-! ## 2. Transcripts tell sessions apart -/

/-- A sorted pair is an unordered one. -/
theorem sortPair_eq_iff {a b a' b' : Bytes 32} :
    sortPair a b = sortPair a' b' ↔ s(a, b) = s(a', b') := by
  have hself : ∀ x y : Bytes 32, s((sortPair x y).1, (sortPair x y).2) = s(x, y) := by
    intro x y
    unfold sortPair
    split
    · rfl
    · exact Sym2.eq_swap
  refine ⟨?_, ?_⟩
  · intro h
    rw [← hself a b, h, hself]
  · intro h
    rcases Sym2.eq_iff.mp h with ⟨rfl, rfl⟩ | ⟨rfl, rfl⟩
    · rfl
    · unfold sortPair
      rcases lt_trichotomy a b with hlt | rfl | hlt
      · rw [if_pos hlt.le, if_neg (not_le.mpr hlt)]
      · rfl
      · rw [if_neg (not_le.mpr hlt), if_pos hlt.le]

/-- **Two sessions share a transcript** exactly when they share the unordered pair of ids and
    the unordered pair of nonces. -/
theorem transcript_eq_iff {a b a' b' : Id} {na nb na' nb' : Bytes 32} :
    transcript a b na nb = transcript a' b' na' nb' ↔
      s(a, b) = s(a', b') ∧ s(na, nb) = s(na', nb') := by
  rw [← sortPair_eq_iff, ← sortPair_eq_iff]
  have hlen : ∀ x y : Bytes 32, x.toList.length = y.toList.length := fun x y => by
    rw [x.length_eq, y.length_eq]
  refine ⟨?_, ?_⟩
  · intro h
    -- every part has a fixed length, so equal strings have equal parts
    simp only [transcript, List.append_assoc] at h
    have h1 := List.append_cancel_left h
    obtain ⟨hlo, h2⟩ := List.append_inj h1 (hlen _ _)
    obtain ⟨hhi, h3⟩ := List.append_inj h2 (hlen _ _)
    obtain ⟨hnlo, hnhi⟩ := List.append_inj h3 (hlen _ _)
    exact ⟨Prod.ext (Bytes.ext hlo) (Bytes.ext hhi), Prod.ext (Bytes.ext hnlo) (Bytes.ext hnhi)⟩
  · intro h'
    obtain ⟨hid, hn⟩ := h'
    simp only [transcript, hid, hn]

/-! ## 3. One execution of `run` -/

/-- `u32::to_be_bytes`. -/
def toBeBytes (v : UInt32) : List UInt8 :=
  [(v >>> 24).toUInt8, (v >>> 16).toUInt8, (v >>> 8).toUInt8, v.toUInt8]

/-- `u32::from_be_bytes`. -/
def fromBeBytes (l : List UInt8) : UInt32 := l.foldl (fun acc b => acc <<< 8 ||| b.toUInt32) 0

/-- A byte pushed into a word: what it shifts out is lost. -/
theorem toNat_push_mod (acc : UInt32) (b : UInt8) :
    (acc <<< 8 ||| b.toUInt32).toNat = 256 * (acc.toNat % 2 ^ 24) + b.toNat := by
  have hb : b.toNat < 2 ^ 8 := b.toNat_lt
  have hshift : (acc <<< 8).toNat = (acc.toNat % 2 ^ 24) <<< 8 := by
    rw [UInt32.toNat_shiftLeft]
    show acc.toNat <<< 8 % 2 ^ 32 = _
    rw [Nat.shiftLeft_eq, Nat.shiftLeft_eq]
    omega
  rw [UInt32.toNat_or, hshift, UInt8.toNat_toUInt32, ← Nat.shiftLeft_add_eq_or_of_lt hb,
    Nat.shiftLeft_eq]
  omega

theorem toNat_push {acc : UInt32} (b : UInt8) (h : acc.toNat < 2 ^ 24) :
    (acc <<< 8 ||| b.toUInt32).toNat = 256 * acc.toNat + b.toNat := by
  rw [toNat_push_mod, Nat.mod_eq_of_lt h]

/-- Pushing bytes into a word that has room for them. -/
theorem toNat_foldl_push (l : List UInt8) (acc : UInt32)
    (h : (acc.toNat + 1) * 256 ^ l.length ≤ 2 ^ 32) :
    (l.foldl (fun (acc : UInt32) b => acc <<< 8 ||| b.toUInt32) acc).toNat =
      l.foldl (fun (acc : Nat) b => 256 * acc + b.toNat) acc.toNat := by
  induction l generalizing acc with
  | nil => rfl
  | cons b l ih =>
    have hb : b.toNat < 2 ^ 8 := b.toNat_lt
    rw [List.length_cons, pow_succ', ← mul_assoc] at h
    have hroom : (acc.toNat + 1) * 256 ≤ 2 ^ 32 :=
      le_trans (Nat.le_mul_of_pos_right _ (Nat.pow_pos (by decide))) h
    have hpush := @toNat_push acc b (by omega)
    rw [List.foldl_cons, List.foldl_cons, ih, hpush]
    rw [hpush]
    exact le_trans (Nat.mul_le_mul_right _ (by omega)) h

theorem length_toBeBytes (v : UInt32) : (toBeBytes v).length = 4 := rfl

/-- **A version reads back from its four bytes.** -/
theorem fromBeBytes_toBeBytes (v : UInt32) : fromBeBytes (toBeBytes v) = v := by
  have hv := v.toNat_lt
  have hroom : ((0 : UInt32).toNat + 1) * 256 ^ (toBeBytes v).length ≤ 2 ^ 32 := by
    rw [length_toBeBytes]
    decide
  refine UInt32.toNat_inj.mp ?_
  rw [fromBeBytes, toNat_foldl_push _ _ hroom]
  simp only [toBeBytes, List.foldl, UInt32.toNat_toUInt8, UInt32.toNat_shiftRight,
    Nat.shiftRight_eq_div_pow, UInt32.reduceToNat, Nat.reduceMod, Nat.reducePow]
  omega

/-- Outcome of a successful handshake. -/
structure Verified where
  peerId : Id
  sas : List String
  deriving DecidableEq

/-- Which function reached `run`. -/
inductive Side where
  | dial
  | accept
  deriving DecidableEq

/-- What `run` writes to the control stream. -/
inductive Msg where
  | version (v : UInt32)
  | nonce (n : Bytes 32)
  | tag (t : Bytes 32)
  deriving DecidableEq

def Msg.bytes : Msg → List UInt8
  | .version v => toBeBytes v
  | .nonce n => n.toList
  | .tag t => t.toList

/-- Where `run` stands: the read it waits in, or its result. From the second read on it
    knows the peer's nonce. -/
inductive Phase where
  | recvVersion
  | recvNonce
  | recvTag (nb : Bytes 32)
  | closed (nb : Option (Bytes 32)) (result : Except String Verified)

/-- The peer's nonce, once it is read. -/
def Phase.peerNonce? : Phase → Option (Bytes 32)
  | .recvVersion => none
  | .recvNonce => none
  | .recvTag nb => some nb
  | .closed nb _ => nb

/-- **One execution of `run`** on the control stream of a connection to `peerId`. -/
structure Session where
  side : Side
  myId : Id
  peerId : Id
  psk : Bytes 32
  version : UInt32
  /-- the fresh nonce `na` it draws -/
  na : Bytes 32
  phase : Phase
  /-- bytes of the peer that have arrived and are not read yet -/
  inbox : List UInt8 := []
  /-- the peer sends no more -/
  eof : Bool := false
  /-- the peer takes no more: writes fail -/
  stopped : Bool := false
  sent : List Msg := []
  sendFinished : Bool := false

namespace Session

/-- The transcript behind the peer's nonce `nb`. -/
def transcript (s : Session) (nb : Bytes 32) : List UInt8 :=
  Admission.transcript s.myId s.peerId s.na nb

/-- `my_tag`. -/
def myTag (s : Session) (nb : Bytes 32) : Bytes 32 := tag hmac s.psk (s.transcript nb)

/-- `write_all`: the message goes out and `run` goes on to `next`, or it fails. -/
def write (s : Session) (m : Msg) (next failed : Phase) : Session :=
  if s.stopped then { s with phase := failed }
  else { s with sent := s.sent ++ [m], phase := next }

/-- A read that wants more bytes than have arrived: it waits, or fails at the stream's end. -/
def starve (s : Session) (failed : Phase) : Session :=
  if s.eof then { s with phase := failed } else s

/-- The text of a version mismatch. -/
def mismatch (peerVersion version : UInt32) : String :=
  "protocol mismatch: peer speaks Nullgate protocol v" ++ toString peerVersion ++
    ", we speak v" ++ toString version ++ " — update Nullgate on one of the devices"

/-- Step 0: read and check the version, then send the nonce. -/
def recvVersion (s : Session) : Session :=
  match s.phase with
  | .recvVersion =>
    if s.inbox.length < 4 then s.starve (.closed none (.error "recv version"))
    else
      let peerVersion := fromBeBytes (s.inbox.take 4)
      let s := { s with inbox := s.inbox.drop 4 }
      if peerVersion ≠ s.version then
        { s with
          sendFinished := true
          phase := .closed none (.error (mismatch peerVersion s.version)) }
      else s.write (.nonce s.na) .recvNonce (.closed none (.error "send nonce"))
  | _ => s

/-- Step 1: read the nonce, then send the tag. -/
def recvNonce (s : Session) : Session :=
  match s.phase with
  | .recvNonce =>
    match Bytes.ofList? 32 (s.inbox.take 32) with
    | none => s.starve (.closed none (.error "recv nonce"))
    | some nb =>
      let s := { s with inbox := s.inbox.drop 32 }
      s.write (.tag (s.myTag hmac nb)) (.recvTag nb) (.closed (some nb) (.error "send tag"))
  | _ => s

/-- The comparison of the tags, and what `run` returns. -/
def compareTags (s : Session) (nb peerTag : Bytes 32) : Except String Verified :=
  if s.myTag hmac nb ≠ peerTag then
    .error "admission failed: bad PSK (peer does not hold the network secret)"
  else .ok { peerId := s.peerId, sas := sasEmojis hmac s.psk (s.transcript nb) }

/-- Step 2: read the tag and compare. -/
def recvTag (s : Session) : Session :=
  match s.phase with
  | .recvTag nb =>
    match Bytes.ofList? 32 (s.inbox.take 32) with
    | none => s.starve (.closed (some nb) (.error "recv tag"))
    | some peerTag =>
      { s with
        inbox := s.inbox.drop 32
        phase := .closed (some nb) (s.compareTags hmac nb peerTag) }
  | _ => s

/-- The bytes have arrived, and `run` has gone on as far as to the read of the tag. -/
def beforeTag (s : Session) (bytes : List UInt8) (fin : Bool) : Session :=
  recvNonce hmac (recvVersion { s with inbox := s.inbox ++ bytes, eof := s.eof || fin })

/-- **The peer writes `bytes`** (and ends its stream, if `fin`): `run` goes on as far as they
    reach. -/
def feed (s : Session) (bytes : List UInt8) (fin : Bool) : Session :=
  recvTag hmac (s.beforeTag hmac bytes fin)

/-- `run` begins: it draws `na` and sends its version. -/
def start (side : Side) (myId peerId : Id) (psk : Bytes 32) (version : UInt32) (na : Bytes 32)
    (writable : Bool) : Session :=
  write { side, myId, peerId, psk, version, na, phase := .recvVersion, stopped := !writable }
    (.version version) .recvVersion (.closed none (.error "send version"))

/-- `run` returned `Ok(Verified)`. -/
def verified (s : Session) : Bool :=
  match s.phase with
  | .closed _ (.ok _) => true
  | _ => false

end Session

/-- `dial`, once it has opened the control stream. -/
def dial := Session.start .dial

/-- `accept`, once it has the control stream. -/
def accept := Session.start .accept

end Nullgate.Admission
