/-
  File:      Nullgate/Admission/Link.lean
  Subject:   TWO HONEST ENDS ON ONE STREAM: `run` through `dial` against `run` through `accept`.

  Each end writes and reads as `Session` says. What one end has written travels to the other in
  order, in pieces and with delays of any kind; once an end has returned, its streams are
  dropped: behind its bytes the other end finds the end of the stream, and its writes may fail.

  * `Link.step` -- deliver some bytes, let an end go on, let the accepting end begin, …;
  * `script`, `phaseAt`, `verdict` -- what an end writes, where it stands behind `k` messages of
    the other, and what it returns;
  * `Holds` -- an end that has read `k` messages, with the rest of what has arrived in its inbox;
  * `Holds.advance`: it waits, it has returned, or it reads the next message.
-/
import Nullgate.Admission.Handshake
import Mathlib.Logic.Function.Basic

namespace Nullgate.Admission

open Nullgate.Lib

variable (hmac : Bytes 32 → List UInt8 → Bytes 32)

/-! ## 1. The stream between two ends -/

def Side.other : Side → Side
  | .dial => .accept
  | .accept => .dial

@[simp] theorem Side.other_other (side : Side) : side.other.other = side := by cases side <;> rfl

theorem Side.other_ne (side : Side) : side.other ≠ side := by cases side <;> decide

theorem Side.eq_or_eq_other (side side' : Side) : side' = side ∨ side' = side.other := by
  cases side <;> cases side' <;> decide

/-- What one end comes with: its TLS-verified id, key, version, and the nonce it draws. -/
structure Party where
  id : Id
  psk : Bytes 32
  version : UInt32
  nonce : Bytes 32

/-- What `run` returns, once it has. -/
def Phase.result? : Phase → Option (Except String Verified)
  | .closed _ result => some result
  | _ => none

namespace Session

/-- `run` goes on: its next read, and what it does behind it. -/
def advance (s : Session) : Session :=
  match s.phase with
  | .recvVersion => s.recvVersion
  | .recvNonce => s.recvNonce hmac
  | .recvTag _ => s.recvTag hmac
  | .closed _ _ => s

def ended (s : Session) : Bool := s.phase.result?.isSome

/-- The bytes an end has written. -/
def written (s : Session) : List UInt8 := s.sent.flatMap Msg.bytes

end Session

/-- **The two ends of a control stream**, and how many of the other's bytes have arrived at
    each. The accepting end begins once `accept_bi` returns. -/
structure Link where
  ends : Side → Option Session
  arrived : Side → Nat

namespace Link

def written (w : Link) (side : Side) : List UInt8 := (w.ends side).elim [] Session.written

def ended (w : Link) (side : Side) : Bool := (w.ends side).any Session.ended

/-- What an end has returned, once it has. -/
def result? (w : Link) (side : Side) : Option (Except String Verified) :=
  (w.ends side).bind fun s => s.phase.result?

def set (w : Link) (side : Side) (s : Session) : Link :=
  { w with ends := Function.update w.ends side (some s) }

/-- What can happen next. -/
inductive Event where
  /-- `accept_bi` returns, and the accepting end begins -/
  | accept
  /-- up to `n` of the bytes in flight arrive -/
  | deliver (side : Side) (n : Nat)
  /-- behind the last byte, the end of the stream arrives -/
  | fin (side : Side)
  /-- word arrives that the other end takes no more -/
  | stop (side : Side)
  /-- an end goes on -/
  | go (side : Side)

variable (p : Side → Party)

/-- An end begins. -/
def begin (side : Side) (writable : Bool) : Session :=
  Session.start side (p side).id (p side.other).id (p side).psk (p side).version (p side).nonce
    writable

/-- `dial` has opened the stream and begins; the other end has not seen the stream yet. -/
def init : Link where
  ends side :=
    match side with
    | .dial => some (begin p .dial true)
    | .accept => none
  arrived _ := 0

def step (w : Link) : Event → Link
  | .accept =>
    match w.ends .accept with
    | some _ => w
    | none =>
      -- the stream shows at the other end with the first byte, or with its end
      if w.written .dial ≠ [] ∨ w.ended .dial = true then
        w.set .accept (begin p .accept !w.ended .dial)
      else w
  | .deliver side n =>
    match w.ends side with
    | none => w
    | some s =>
      let bytes := ((w.written side.other).drop (w.arrived side)).take n
      { ends := Function.update w.ends side (some { s with inbox := s.inbox ++ bytes })
        arrived := Function.update w.arrived side (w.arrived side + bytes.length) }
  | .fin side =>
    match w.ends side with
    | none => w
    | some s =>
      if w.ended side.other = true ∧ (w.written side.other).length ≤ w.arrived side then
        w.set side { s with eof := true }
      else w
  | .stop side =>
    match w.ends side with
    | none => w
    | some s => if w.ended side.other = true then w.set side { s with stopped := true } else w
  | .go side =>
    match w.ends side with
    | none => w
    | some s => w.set side (s.advance hmac)

end Link

/-! ## 2. What an end does, message by message -/

section Script

variable (p : Side → Party) (side : Side)

/-- The transcript of the session; both ends compute the same one. -/
def fullTranscript : List UInt8 :=
  transcript (p side).id (p side.other).id (p side).nonce (p side.other).nonce

theorem fullTranscript_other : fullTranscript p side.other = fullTranscript p side := by
  rw [fullTranscript, fullTranscript, Side.other_other]
  exact transcript_eq_iff.mpr ⟨Sym2.eq_swap, Sym2.eq_swap⟩

/-- The messages an end writes, if it gets that far. -/
def script : List Msg :=
  [.version (p side).version, .nonce (p side).nonce,
    .tag (tag hmac (p side).psk (fullTranscript p side))]

/-- How many messages are read before `run` returns: all three, or the version that differs. -/
def rounds : Nat := if (p side).version = (p side.other).version then 3 else 1

/-- **What an end returns** when both are honest. -/
def verdict : Except String Verified :=
  if (p side).version ≠ (p side.other).version then
    .error (Session.mismatch (p side.other).version (p side).version)
  else if (p side).psk ≠ (p side.other).psk then
    .error "admission failed: bad PSK (peer does not hold the network secret)"
  else
    .ok { peerId := (p side.other).id
          sas := sasEmojis hmac (p side).psk (fullTranscript p side) }

variable {p side}

theorem verdict_mismatch (hv : (p side).version ≠ (p side.other).version) :
    verdict hmac p side =
      .error (Session.mismatch (p side.other).version (p side).version) := if_pos hv

theorem verdict_refused (hv : (p side).version = (p side.other).version)
    (hpsk : (p side).psk ≠ (p side.other).psk) : verdict hmac p side =
      .error "admission failed: bad PSK (peer does not hold the network secret)" := by
  rw [verdict, if_neg (not_not.mpr hv), if_pos hpsk]

theorem verdict_verified (hv : (p side).version = (p side.other).version)
    (hpsk : (p side).psk = (p side.other).psk) : verdict hmac p side =
      .ok { peerId := (p side.other).id
            sas := sasEmojis hmac (p side).psk (fullTranscript p side) } := by
  rw [verdict, if_neg (not_not.mpr hv), if_neg (not_not.mpr hpsk)]

variable (p side)

/-- Where an end stands that has read `k` messages. -/
def phaseAt : Nat → Phase
  | 0 => .recvVersion
  | 1 =>
    if (p side).version = (p side.other).version then .recvNonce
    else .closed none (verdict hmac p side)
  | 2 => .recvTag (p side.other).nonce
  | _ => .closed (some (p side.other).nonce) (verdict hmac p side)

/-- How many bytes the first `k` messages have. -/
def off : Nat → Nat
  | 0 => 0
  | 1 => 4
  | 2 => 36
  | _ => 68

/-- The bytes an end writes, if it gets that far. -/
def stream : List UInt8 := (script hmac p side).flatMap Msg.bytes

/-- **An end that has read `k` messages**: it has written its own up to the one that answers
    them. -/
structure StandsAt (k : Nat) (s : Session) : Prop where
  myId : s.myId = (p side).id
  peerId : s.peerId = (p side.other).id
  psk : s.psk = (p side).psk
  version : s.version = (p side).version
  na : s.na = (p side).nonce
  le : k ≤ rounds p side
  phase : s.phase = phaseAt hmac p side k
  sent : s.sent = (script hmac p side).take (min (k + 1) (rounds p side))

/-- An end that has read `k` messages, with `n` of the `len` bytes the other end has written so
    far: the rest of them is in its inbox. -/
structure Holds (k n len : Nat) (otherEnded : Bool) (s : Session) : Prop where
  stands : StandsAt hmac p side k s
  inbox : s.inbox = ((stream hmac p side.other).take n).drop (off k)
  read : off k ≤ n
  got : n ≤ len
  eof : s.eof = true → otherEnded = true ∧ len ≤ n
  stopped : s.stopped = true → otherEnded = true

end Script

/-! ## 3. Reading the other's messages -/

section Reading

variable {hmac} {p : Side → Party} {side : Side} {k n len : Nat} {fin : Bool} {s : Session}

theorem rounds_other : rounds p side.other = rounds p side := by
  rw [rounds, rounds, Side.other_other]
  exact if_congr eq_comm rfl rfl

theorem rounds_eq : rounds p side = 3 ∨ rounds p side = 1 := by
  rw [rounds]
  by_cases h : (p side).version = (p side.other).version
  · exact Or.inl (if_pos h)
  · exact Or.inr (if_neg h)

/-- An end that reads on behind the version has the other's. -/
theorem rounds_of_one_lt (h : 1 < rounds p side) :
    rounds p side = 3 ∧ (p side).version = (p side.other).version := by
  rw [rounds] at h ⊢
  by_cases hv : (p side).version = (p side.other).version
  · exact ⟨if_pos hv, hv⟩
  · rw [if_neg hv] at h
    omega

theorem stream_eq : stream hmac p side = toBeBytes (p side).version ++
    ((p side).nonce.toList ++ (tag hmac (p side).psk (fullTranscript p side)).toList) := by
  simp [stream, script, Msg.bytes]

theorem length_stream : (stream hmac p side).length = 68 := by
  rw [stream_eq, List.length_append, List.length_append, Bytes.length_eq, Bytes.length_eq]
  rfl

theorem off_le {i j : Nat} (h : i ≤ j) : off i ≤ off j := by
  rcases i with _ | _ | _ | i <;> rcases j with _ | _ | _ | j <;> simp only [off] <;> omega

/-- The first messages of an end are a piece of its stream. -/
theorem flatMap_script (m : Nat) : ((script hmac p side).take m).flatMap Msg.bytes =
    (stream hmac p side).take (off m) := by
  have hversion := length_toBeBytes (p side).version
  have hnonce := (p side).nonce.length_eq
  rcases m with _ | _ | _ | m
  · rfl
  · rw [stream_eq, off, List.take_left' hversion]
    simp [script, Msg.bytes]
  · rw [stream_eq, off, ← List.append_assoc, List.take_left' (by simp [hversion, hnonce])]
    simp [script, Msg.bytes]
  · have hscript : (script hmac p side).length ≤ m + 3 := by simp [script]
    rw [List.take_of_length_le hscript, List.take_of_length_le (by rw [length_stream]; rfl)]
    rfl

theorem StandsAt.length_written (h : StandsAt hmac p side k s) :
    s.written.length = off (min (k + 1) (rounds p side)) := by
  rw [Session.written, h.sent, flatMap_script, List.length_take, length_stream]
  rcases min (k + 1) (rounds p side) with _ | _ | _ | m <;> simp [off]

/-- What has arrived behind the first `a` bytes, up to the first `b`. -/
theorem take_drop_take {F : List UInt8} {a b : Nat} (hbn : b ≤ n) :
    ((F.take n).drop a).take (b - a) = (F.drop a).take (b - a) := by
  rw [List.drop_take, List.take_take, min_eq_left (by omega)]

theorem version_read (h : 4 ≤ n) : (((stream hmac p side).take n).drop 0).take 4 =
    toBeBytes (p side).version := by
  have hread := take_drop_take (F := stream hmac p side) (a := 0) h
  rw [show 4 - 0 = 4 from rfl] at hread
  rw [hread, stream_eq]
  rfl

theorem nonce_read (h : 36 ≤ n) : (((stream hmac p side).take n).drop 4).take 32 =
    (p side).nonce.toList := by
  have hread := take_drop_take (F := stream hmac p side) (a := 4) h
  rw [show 36 - 4 = 32 from rfl] at hread
  rw [hread, stream_eq, List.drop_left' (length_toBeBytes _), List.take_left' (Bytes.length_eq _)]

theorem tag_read (h : 68 ≤ n) : (((stream hmac p side).take n).drop 36).take 32 =
    (tag hmac (p side).psk (fullTranscript p side)).toList := by
  have hread := take_drop_take (F := stream hmac p side) (a := 36) h
  rw [show 68 - 36 = 32 from rfl] at hread
  rw [hread, stream_eq, ← List.append_assoc, List.drop_left' (by simp [toBeBytes, Bytes.length_eq]),
    List.take_of_length_le (by rw [Bytes.length_eq])]

theorem length_inbox (h : Holds hmac p side k n len fin s) :
    s.inbox.length = min n 68 - off k := by
  rw [h.inbox, List.length_drop, List.length_take, length_stream]

/-- The end of the stream stands behind everything that is to be read. -/
theorem Holds.not_eof (h : Holds hmac p side k n len fin s) (hk : k < rounds p side)
    (hfin : fin = true → len = off (rounds p side)) (hn : n < off (k + 1)) : s.eof = false := by
  rw [Bool.eq_false_iff]
  intro heof
  obtain ⟨hended, hlen⟩ := h.eof heof
  have hall := hfin hended
  have hoff : off (k + 1) ≤ off (rounds p side) := off_le hk
  omega

/-- An end that still writes is read. -/
theorem Holds.not_stopped (h : Holds hmac p side k n len fin s)
    (hread : fin = true → rounds p side ≤ k + 1) (hk : k + 1 < rounds p side) :
    s.stopped = false := by
  rw [Bool.eq_false_iff]
  intro hstopped
  have hle := hread (h.stopped hstopped)
  omega

/-- **The version is read**: it differs, or the nonce is sent. -/
theorem Holds.recvVersion (h : Holds hmac p side 0 n len fin s)
    (hread : fin = true → rounds p side ≤ 1) (hn : 4 ≤ n) :
    Holds hmac p side 1 n len fin s.recvVersion := by
  have hphase := h.stands.phase
  rw [phaseAt] at hphase
  have hlen : ¬ s.inbox.length < 4 := by
    rw [length_inbox h, off]
    omega
  have hversion : fromBeBytes (s.inbox.take 4) = (p side.other).version := by
    rw [h.inbox, off, version_read hn, fromBeBytes_toBeBytes]
  have hinbox : s.inbox.drop 4 = ((stream hmac p side.other).take n).drop (off 1) := by
    rw [h.inbox, List.drop_drop]
    rfl
  have hsent := h.stands.sent
  rw [Session.recvVersion, hphase]
  simp only [hlen, if_false, hversion, h.stands.version]
  by_cases hv : (p side).version = (p side.other).version
  · have hrounds : rounds p side = 3 := if_pos hv
    have hstopped : s.stopped = false := h.not_stopped hread (by omega)
    rw [hrounds] at hsent
    rw [if_neg (not_not.mpr hv.symm), Session.write]
    simp only [hstopped, Bool.false_eq_true, if_false]
    refine ⟨⟨h.stands.myId, h.stands.peerId, h.stands.psk, rfl, h.stands.na, by omega, ?_, ?_⟩,
      hinbox, hn, h.got, h.eof, fun hs => by cases hs⟩
    · rw [phaseAt, if_pos hv]
    · rw [hrounds, hsent, h.stands.na]
      rfl
  · have hrounds : rounds p side = 1 := if_neg hv
    rw [hrounds] at hsent
    rw [if_pos (Ne.symm hv)]
    refine ⟨⟨h.stands.myId, h.stands.peerId, h.stands.psk, rfl, h.stands.na, by omega, ?_, ?_⟩,
      hinbox, hn, h.got, h.eof, h.stopped⟩
    · rw [phaseAt, if_neg hv, verdict_mismatch hmac hv]
    · rw [hrounds, hsent]
      rfl

/-- **The nonce is read**: the tag is sent. -/
theorem Holds.recvNonce (h : Holds hmac p side 1 n len fin s) (hk : 1 < rounds p side)
    (hread : fin = true → rounds p side ≤ 2) (hn : 36 ≤ n) :
    Holds hmac p side 2 n len fin (s.recvNonce hmac) := by
  obtain ⟨hrounds, hv⟩ := rounds_of_one_lt hk
  have hphase := h.stands.phase
  rw [phaseAt, if_pos hv] at hphase
  have hnonce : Bytes.ofList? 32 (s.inbox.take 32) = some (p side.other).nonce := by
    rw [h.inbox, off, nonce_read hn, Bytes.ofList?_toList]
  have hinbox : s.inbox.drop 32 = ((stream hmac p side.other).take n).drop (off 2) := by
    rw [h.inbox, List.drop_drop]
    rfl
  have hstopped : s.stopped = false := h.not_stopped hread (by omega)
  have htag : s.myTag hmac (p side.other).nonce =
      tag hmac (p side).psk (fullTranscript p side) := by
    rw [Session.myTag, Session.transcript, h.stands.psk, h.stands.myId, h.stands.peerId,
      h.stands.na]
    rfl
  have hsent := h.stands.sent
  rw [hrounds] at hsent
  rw [Session.recvNonce, hphase]
  simp only [hnonce, Session.write, hstopped, Bool.false_eq_true, if_false]
  refine ⟨⟨h.stands.myId, h.stands.peerId, h.stands.psk, h.stands.version, h.stands.na,
    by omega, rfl, ?_⟩, hinbox, hn, h.got, h.eof, fun hs => by cases hs⟩
  rw [hrounds, hsent]
  show _ ++ [Msg.tag (s.myTag hmac (p side.other).nonce)] = _
  rw [htag]
  rfl

/-- **The tag is read**: it is the own one exactly when the keys are the same. -/
theorem Holds.recvTag (h : Holds hmac p side 2 n len fin s) (hk : 2 < rounds p side)
    (htags : (p side).psk ≠ (p side.other).psk →
      tag hmac (p side).psk (fullTranscript p side) ≠
        tag hmac (p side.other).psk (fullTranscript p side)) (hn : 68 ≤ n) :
    Holds hmac p side 3 n len fin (s.recvTag hmac) := by
  obtain ⟨hrounds, hv⟩ := rounds_of_one_lt (Nat.lt_of_succ_lt hk)
  have hphase := h.stands.phase
  rw [phaseAt] at hphase
  have htag : Bytes.ofList? 32 (s.inbox.take 32) =
      some (tag hmac (p side.other).psk (fullTranscript p side)) := by
    rw [h.inbox, off, tag_read hn, Bytes.ofList?_toList, fullTranscript_other]
  have hinbox : s.inbox.drop 32 = ((stream hmac p side.other).take n).drop (off 3) := by
    rw [h.inbox, List.drop_drop]
    rfl
  have htranscript : s.transcript (p side.other).nonce = fullTranscript p side := by
    rw [Session.transcript, h.stands.myId, h.stands.peerId, h.stands.na]
    rfl
  have hverdict : s.compareTags hmac (p side.other).nonce
      (tag hmac (p side.other).psk (fullTranscript p side)) = verdict hmac p side := by
    rw [Session.compareTags, Session.myTag, htranscript, h.stands.psk, h.stands.peerId, verdict,
      if_neg (not_not.mpr hv)]
    by_cases hpsk : (p side).psk = (p side.other).psk
    · rw [if_neg (not_not.mpr hpsk), if_neg (not_not.mpr (by rw [hpsk]))]
    · rw [if_pos hpsk, if_pos (htags hpsk)]
  rw [Session.recvTag, hphase]
  simp only [htag, hverdict]
  refine ⟨⟨h.stands.myId, h.stands.peerId, h.stands.psk, h.stands.version, h.stands.na,
    by omega, rfl, ?_⟩, hinbox, hn, h.got, h.eof, h.stopped⟩
  rw [h.stands.sent, hrounds]
  rfl

/-- An end has returned exactly when it has read all it reads. -/
theorem StandsAt.ended_iff (h : StandsAt hmac p side k s) :
    s.ended = true ↔ k = rounds p side := by
  have hle := h.le
  rw [Session.ended, h.phase]
  by_cases hv : (p side).version = (p side.other).version
  · rw [rounds, if_pos hv] at hle ⊢
    rcases k with _ | _ | _ | k <;> simp [phaseAt, Phase.result?, hv]
    omega
  · rw [rounds, if_neg hv] at hle ⊢
    rcases k with _ | _ | k
    · simp [phaseAt, Phase.result?]
    · simp [phaseAt, Phase.result?, hv]
    · omega

/-- What an end has returned is its verdict. -/
theorem StandsAt.result (h : StandsAt hmac p side k s) {r : Except String Verified}
    (hr : s.phase.result? = some r) : r = verdict hmac p side := by
  rw [h.phase] at hr
  rcases k with _ | _ | _ | k
  · cases hr
  · by_cases hv : (p side).version = (p side.other).version
    · simp [phaseAt, Phase.result?, hv] at hr
    · simpa [phaseAt, Phase.result?, hv, eq_comm] using hr
  · cases hr
  · exact (Option.some.inj hr).symm

/-- A read waits as long as its bytes have not arrived. -/
theorem Holds.advance_eq_self (h : Holds hmac p side k n len fin s) (hk : k < rounds p side)
    (hfin : fin = true → len = off (rounds p side)) (hn : n < off (k + 1)) :
    s.advance hmac = s := by
  have heof := h.not_eof hk hfin hn
  have hlen := length_inbox h
  have hphase := h.stands.phase
  have hstarve : ∀ failed, s.starve failed = s := fun failed => by simp [Session.starve, heof]
  have hrounds : rounds p side = 3 ∨ rounds p side = 1 := rounds_eq
  have hshort : k ≠ 0 → Bytes.ofList? 32 (s.inbox.take 32) = none := fun hk0 => by
    rw [Bytes.ofList?, dif_neg]
    rw [List.length_take, hlen]
    have hread := h.read
    rcases k with _ | _ | _ | k <;> simp only [off] at hn hread ⊢ <;> omega
  rcases k with _ | _ | _ | k
  · rw [phaseAt] at hphase
    have hlt : s.inbox.length < 4 := by
      simp only [off] at hn hlen
      omega
    rw [Session.advance, hphase]
    simp only [Session.recvVersion, hphase, hlt, if_true, hstarve]
  · have hv : (p side).version = (p side.other).version := by
      by_contra hv
      rw [rounds, if_neg hv] at hk
      omega
    rw [phaseAt, if_pos hv] at hphase
    rw [Session.advance, hphase]
    simp only [Session.recvNonce, hphase, hshort (by omega), hstarve]
  · rw [phaseAt] at hphase
    rw [Session.advance, hphase]
    simp only [Session.recvTag, hphase, hshort (by omega), hstarve]
  · omega

/-- **What an end does when it goes on**: it waits, it has returned, or it reads one message. -/
theorem Holds.advance (h : Holds hmac p side k n len fin s)
    (hfin : fin = true → len = off (rounds p side)) (hread : fin = true → rounds p side ≤ k + 1)
    (htags : (p side).psk ≠ (p side.other).psk →
      tag hmac (p side).psk (fullTranscript p side) ≠
        tag hmac (p side.other).psk (fullTranscript p side)) :
    (s.advance hmac = s ∧ (n < off (k + 1) ∨ k = rounds p side)) ∨
      (k < rounds p side ∧ off (k + 1) ≤ n ∧
        Holds hmac p side (k + 1) n len fin (s.advance hmac)) := by
  have hphase := h.stands.phase
  have hrounds : rounds p side = 3 ∨ rounds p side = 1 := rounds_eq
  by_cases hk : k = rounds p side
  · have hended := h.stands.ended_iff.mpr hk
    refine Or.inl ⟨?_, Or.inr hk⟩
    rw [Session.ended] at hended
    cases hp : s.phase with
    | closed nb r => rw [Session.advance, hp]
    | recvVersion => simp [hp, Phase.result?] at hended
    | recvNonce => simp [hp, Phase.result?] at hended
    | recvTag nb => simp [hp, Phase.result?] at hended
  · have hlt : k < rounds p side := lt_of_le_of_ne h.stands.le hk
    by_cases hn : n < off (k + 1)
    · exact Or.inl ⟨h.advance_eq_self hlt hfin hn, Or.inl hn⟩
    · refine Or.inr ⟨hlt, by omega, ?_⟩
      rcases k with _ | _ | _ | k
      · rw [Session.advance, show s.phase = .recvVersion from hphase]
        exact h.recvVersion hread (by simpa [off] using hn)
      · have hv : (p side).version = (p side.other).version := by
          by_contra hv
          rw [rounds, if_neg hv] at hlt
          omega
        rw [phaseAt, if_pos hv] at hphase
        rw [Session.advance, hphase]
        exact h.recvNonce hlt hread (by simpa [off] using hn)
      · rw [Session.advance, show s.phase = .recvTag (p side.other).nonce from hphase]
        exact h.recvTag hlt htags (by simpa [off] using hn)
      · omega

end Reading

end Nullgate.Admission
