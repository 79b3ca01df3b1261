/-
  File:      Nullgate/Admission/Reflection.lean
  Subject:   ADMISSION AGAINST A PEER WITHOUT THE NETWORK SECRET.

  Any number of honest ends run `run` with peers the adversary holds. It opens sessions,
  writes what it likes on each control stream, in pieces and orders of its choice, and sees
  every tag the honest ends send. HMAC is ideal: a tag that is valid where it is read has been
  received from an honest end before (`Unforged`), and the MAC computations of the run do
  not collide (`NoCollision`).

  * `feed_verified_iff`: a session is verified exactly when what it reads as the tag is its
    own tag; both ends compute the same one, and `run` sends its tag before it reads.
  * `Session.Sound`: the tags a session has sent are its own.
  * `admission_sound_iff`: no session is ever verified exactly when the adversary never
    sends back a tag of this session or of one with the same ids and nonces (`Replays`).
  * `reflection_verifies`: sending a session's own tag back to it verifies the adversary, for
    every HMAC and every session; so it needs no secret (`admission_not_sound`).
-/
import Nullgate.Admission.Handshake
import Nullgate.Lib.Fold

namespace Nullgate.Admission

open Nullgate.Lib

variable (hmac : Bytes 32 → List UInt8 → Bytes 32)

/-! ## 1. What a session computes, and what it reads as the tag -/

namespace Session

/-- The MAC computation behind the peer's nonce `nb`: key and message. -/
def query (s : Session) (nb : Bytes 32) : Bytes 32 × List UInt8 := (s.psk, s.transcript nb)

/-- The MAC computation of a session that has read the peer's nonce. -/
def query? (s : Session) : Option (Bytes 32 × List UInt8) := s.phase.peerNonce?.map s.query

theorem myTag_eq (s : Session) (nb : Bytes 32) :
    s.myTag hmac nb = hmac (s.query nb).1 (s.query nb).2 := rfl

/-- The peer's nonce and the tag a session is about to read. -/
def nextTag? (s : Session) : Option (Bytes 32 × Bytes 32) :=
  match s.phase with
  | .recvTag nb => (Bytes.ofList? 32 (s.inbox.take 32)).map fun t => (nb, t)
  | _ => none

/-- What `run` reads as the tag when the bytes arrive, with the peer's nonce. -/
def tagRead? (s : Session) (bytes : List UInt8) (fin : Bool) : Option (Bytes 32 × Bytes 32) :=
  (s.beforeTag hmac bytes fin).nextTag?

/-! No step of `run` changes whose session it is. -/

@[simp] theorem query_write (s : Session) (m : Msg) (next failed : Phase) :
    (s.write m next failed).query = s.query := by
  unfold write
  split <;> rfl

@[simp] theorem query_starve (s : Session) (failed : Phase) :
    (s.starve failed).query = s.query := by
  unfold starve
  split <;> rfl

@[simp] theorem query_recvVersion (s : Session) : s.recvVersion.query = s.query := by
  unfold recvVersion
  split
  · split
    · exact query_starve s _
    · simp only []
      split
      · rfl
      · exact query_write _ _ _ _
  · rfl

@[simp] theorem query_recvNonce (s : Session) : (s.recvNonce hmac).query = s.query := by
  unfold recvNonce
  split
  · split
    · exact query_starve s _
    · exact query_write _ _ _ _
  · rfl

@[simp] theorem query_recvTag (s : Session) : (s.recvTag hmac).query = s.query := by
  unfold recvTag
  split
  · split
    · exact query_starve s _
    · rfl
  · rfl

@[simp] theorem query_beforeTag (s : Session) (bytes : List UInt8) (fin : Bool) :
    (s.beforeTag hmac bytes fin).query = s.query := by
  unfold beforeTag
  rw [query_recvNonce, query_recvVersion]
  rfl

@[simp] theorem query_feed (s : Session) (bytes : List UInt8) (fin : Bool) :
    (s.feed hmac bytes fin).query = s.query := by
  unfold feed
  rw [query_recvTag, query_beforeTag]

/-! Only the read of the tag verifies. -/

theorem verified_recvVersion (s : Session) : s.recvVersion.verified = s.verified := by
  unfold recvVersion
  cases hp : s.phase with
  | recvVersion =>
    have hv : s.verified = false := by simp [verified, hp]
    rw [hv]
    simp only [starve, write]
    split
    · split
      · rfl
      · exact hv
    · split
      · rfl
      · split <;> rfl
  | _ => rfl

theorem verified_recvNonce (s : Session) : (s.recvNonce hmac).verified = s.verified := by
  unfold recvNonce
  cases hp : s.phase with
  | recvNonce =>
    have hv : s.verified = false := by simp [verified, hp]
    rw [hv]
    simp only [starve, write]
    split
    · split
      · rfl
      · exact hv
    · split <;> rfl
  | _ => rfl

theorem verified_recvTag_iff (s : Session) :
    (s.recvTag hmac).verified = true ↔
      s.verified = true ∨ ∃ r ∈ s.nextTag?, r.2 = s.myTag hmac r.1 := by
  unfold recvTag nextTag?
  cases hp : s.phase with
  | recvTag nb =>
    have hv : s.verified = false := by simp [verified, hp]
    rcases Option.eq_none_or_eq_some (Bytes.ofList? 32 (s.inbox.take 32)) with hr | ⟨t, hr⟩
    · simp only [hr, starve]
      split
      · simp [verified, hp]
      · simp [hv]
    · by_cases ht : s.myTag hmac nb = t
      · simp [hr, ht, verified, compareTags]
      · simp [hr, ht, Ne.symm ht, verified, compareTags, hp]
  | recvVersion => simp
  | recvNonce => simp
  | closed nb result => simp

/-- **A session is verified by what it reads as the tag** exactly when that is its own tag. -/
theorem feed_verified_iff (s : Session) (bytes : List UInt8) (fin : Bool) :
    (s.feed hmac bytes fin).verified = true ↔
      s.verified = true ∨ ∃ r ∈ s.tagRead? hmac bytes fin, r.2 = s.myTag hmac r.1 := by
  have hold : (s.beforeTag hmac bytes fin).verified = s.verified := by
    unfold beforeTag
    rw [verified_recvNonce, verified_recvVersion]
    rfl
  rw [feed, verified_recvTag_iff, hold]
  simp only [myTag_eq, query_beforeTag, tagRead?]

/-- Behind the read of the tag the session still knows the peer's nonce. -/
theorem peerNonce_feed {s : Session} {bytes : List UInt8} {fin : Bool} {nb t : Bytes 32}
    (hr : s.tagRead? hmac bytes fin = some (nb, t)) :
    (s.feed hmac bytes fin).phase.peerNonce? = some nb := by
  unfold tagRead? nextTag? at hr
  unfold feed recvTag
  cases hp : (s.beforeTag hmac bytes fin).phase with
  | recvTag nb' =>
    rw [hp] at hr
    obtain ⟨t', ht, heq⟩ := Option.map_eq_some_iff.mp hr
    obtain ⟨rfl, rfl⟩ := Prod.mk.inj heq
    rw [ht]
    rfl
  | recvVersion => simp [hp] at hr
  | recvNonce => simp [hp] at hr
  | closed nb' result => simp [hp] at hr

/-! ## 2. The tags a session has sent are its own -/

/-- Every tag the session has sent is its own, for the peer's nonce it has read. -/
def Sound (s : Session) : Prop :=
  ∀ t, Msg.tag t ∈ s.sent → ∃ nb, s.phase.peerNonce? = some nb ∧ t = s.myTag hmac nb

variable {hmac}

theorem Sound.no_tag {s : Session} (h : s.Sound hmac) (hn : s.phase.peerNonce? = none)
    (t : Bytes 32) : Msg.tag t ∉ s.sent := fun ht => by
  obtain ⟨nb, hnb, -⟩ := h t ht
  rw [hn] at hnb
  cases hnb

/-- A session that has sent no tag is sound. -/
theorem sound_of_no_tag {s : Session} (h : ∀ t, Msg.tag t ∉ s.sent) : s.Sound hmac :=
  fun t ht => absurd ht (h t)

theorem sound_start (side : Side) (myId peerId : Id) (psk : Bytes 32) (version : UInt32)
    (na : Bytes 32) (writable : Bool) :
    (start side myId peerId psk version na writable).Sound hmac := by
  refine sound_of_no_tag fun t => ?_
  unfold start write
  split <;> simp

theorem Sound.recvVersion {s : Session} (h : s.Sound hmac) : s.recvVersion.Sound hmac := by
  unfold Session.recvVersion
  cases hp : s.phase with
  | recvVersion =>
    have hno := h.no_tag (by rw [hp]; rfl)
    refine sound_of_no_tag fun t => ?_
    simp only [starve, write]
    split
    · split <;> exact hno t
    · split
      · exact hno t
      · split
        · exact hno t
        · simpa using hno t
  | _ => exact h

theorem Sound.recvNonce {s : Session} (h : s.Sound hmac) : (s.recvNonce hmac).Sound hmac := by
  unfold Session.recvNonce
  cases hp : s.phase with
  | recvNonce =>
    have hno := h.no_tag (by rw [hp]; rfl)
    simp only [starve, write]
    split
    · refine sound_of_no_tag fun t => ?_
      split <;> exact hno t
    · rename_i nb _
      split
      · exact sound_of_no_tag hno
      · -- the one tag it sends is its own
        intro t ht
        rcases List.mem_append.mp ht with ht | ht
        · exact absurd ht (hno t)
        · exact ⟨nb, rfl, Msg.tag.inj (List.mem_singleton.mp ht)⟩
  | _ => exact h

theorem Sound.recvTag {s : Session} (h : s.Sound hmac) : (s.recvTag hmac).Sound hmac := by
  unfold Session.recvTag
  cases hp : s.phase with
  | recvTag nb =>
    have hown : ∀ t, Msg.tag t ∈ s.sent → t = s.myTag hmac nb := fun t ht => by
      obtain ⟨nb', hnb, heq⟩ := h t ht
      rw [hp] at hnb
      obtain rfl := Option.some.inj hnb
      exact heq
    simp only [starve]
    split
    · split
      · exact fun t ht => ⟨nb, rfl, hown t ht⟩
      · exact h
    · exact fun t ht => ⟨nb, rfl, hown t ht⟩
  | _ => exact h

/-- **What arrives keeps a session sound.** -/
theorem Sound.feed {s : Session} (h : s.Sound hmac) (bytes : List UInt8) (fin : Bool) :
    (s.feed hmac bytes fin).Sound hmac := by
  have h0 : ({ s with inbox := s.inbox ++ bytes, eof := s.eof || fin } : Session).Sound hmac := h
  exact h0.recvVersion.recvNonce.recvTag

end Session

/-! ## 3. Honest ends and the adversary -/

/-- The honest ends whose peers the adversary holds. -/
structure World where
  sessions : List Session := []

/-- What the adversary does: connect (an honest end dials or accepts), write to a control
    stream, or stop taking. -/
inductive Event where
  | connect (side : Side) (myId peerId : Id) (psk : Bytes 32) (version : UInt32) (na : Bytes 32)
      (writable : Bool)
  | write (k : Nat) (bytes : List UInt8) (fin : Bool)
  | stop (k : Nat)

/-- The execution of `run` behind a connection. -/
def runBehind (side : Side) (myId peerId : Id) (psk : Bytes 32) (version : UInt32) (na : Bytes 32)
    (writable : Bool) : Session :=
  match side with
  | .dial => dial myId peerId psk version na writable
  | .accept => accept myId peerId psk version na writable

def step (w : World) : Event → World
  | .connect side myId peerId psk version na writable =>
    { sessions := w.sessions ++ [runBehind side myId peerId psk version na writable] }
  | .write k bytes fin => { sessions := w.sessions.modify k fun s => s.feed hmac bytes fin }
  | .stop k => { sessions := w.sessions.modify k fun s => { s with stopped := true } }

namespace World

/-- The adversary has received `t` as a tag. -/
def Received (w : World) (t : Bytes 32) : Prop := ∃ s ∈ w.sessions, Msg.tag t ∈ s.sent

instance (w : World) (t : Bytes 32) : Decidable (w.Received t) :=
  inferInstanceAs (Decidable (∃ s ∈ w.sessions, Msg.tag t ∈ s.sent))

/-- The session that reads a tag at this event, with the peer's nonce and the tag. -/
def tagRead? (w : World) : Event → Option (Session × Bytes 32 × Bytes 32)
  | .write k bytes fin =>
    w.sessions[k]?.bind fun s => (s.tagRead? hmac bytes fin).map fun r => (s, r)
  | _ => none

/-- **No forgery**: a tag that is valid where it is read has been received before. -/
def Unforged (w : World) (ev : Event) : Prop :=
  ∀ r ∈ w.tagRead? hmac ev, r.2.2 = r.1.myTag hmac r.2.1 → w.Received r.2.2

instance (w : World) (ev : Event) : Decidable (w.Unforged hmac ev) :=
  inferInstanceAs (Decidable (∀ r ∈ w.tagRead? hmac ev, _ → w.Received r.2.2))

/-- **The adversary replays a tag**: it sends to a session what it has received from this one,
    or from one with the same secret, the same two ids and the same two nonces. -/
def Replays (w : World) (ev : Event) : Prop :=
  ∃ s nb t, w.tagRead? hmac ev = some (s, nb, t) ∧
    ∃ s' ∈ w.sessions, Msg.tag t ∈ s'.sent ∧ ∃ nb', s'.phase.peerNonce? = some nb' ∧
      s.psk = s'.psk ∧ s(s.myId, s.peerId) = s(s'.myId, s'.peerId) ∧ s(s.na, nb) = s(s'.na, nb')

/-- Some session is verified. -/
def Broken (w : World) : Prop := ∃ s ∈ w.sessions, s.verified = true

/-- A session reads its own tag. -/
def Accepts (w : World) (ev : Event) : Prop :=
  ∃ s nb t, w.tagRead? hmac ev = some (s, nb, t) ∧ t = s.myTag hmac nb

/-- Every session is sound. -/
def Sound (w : World) : Prop := ∀ s ∈ w.sessions, s.Sound hmac

end World

theorem mem_modify_iff {α : Type} {l : List α} {k : Nat} {f : α → α} {x : α} :
    x ∈ l.modify k f ↔ (∃ i ≠ k, l[i]? = some x) ∨ ∃ y, l[k]? = some y ∧ x = f y := by
  rw [List.mem_iff_getElem?]
  simp only [List.getElem?_modify]
  refine ⟨?_, ?_⟩
  · intro h'
    obtain ⟨i, hi⟩ := h'
    by_cases hk : k = i
    · subst hk
      simp only [if_true, Option.map_eq_map, Option.map_eq_some_iff] at hi
      obtain ⟨y, hy, rfl⟩ := hi
      exact Or.inr ⟨y, hy, rfl⟩
    · exact Or.inl ⟨i, Ne.symm hk, by simpa [hk] using hi⟩
  · intro h'
    rcases h' with ⟨i, hne, hi⟩ | ⟨y, hy, rfl⟩
    · exact ⟨i, by simp [Ne.symm hne, hi]⟩
    · exact ⟨k, by simp [hy]⟩

theorem sound_runBehind (side : Side) (myId peerId : Id) (psk : Bytes 32) (version : UInt32)
    (na : Bytes 32) (writable : Bool) :
    (runBehind side myId peerId psk version na writable).Sound hmac := by
  cases side <;> exact Session.sound_start _ _ _ _ _ _ _

theorem verified_runBehind (side : Side) (myId peerId : Id) (psk : Bytes 32) (version : UInt32)
    (na : Bytes 32) (writable : Bool) :
    (runBehind side myId peerId psk version na writable).verified = false := by
  cases side <;> cases writable <;> rfl

/-- **Every event keeps the sessions sound.** -/
theorem World.Sound.step {w : World} (h : w.Sound hmac) (ev : Event) :
    (step hmac w ev).Sound hmac := by
  intro s hs
  cases ev with
  | connect side myId peerId psk version na writable =>
    rcases List.mem_append.mp hs with hs | hs
    · exact h s hs
    · rw [List.mem_singleton.mp hs]
      exact sound_runBehind hmac side myId peerId psk version na writable
  | write k bytes fin =>
    rcases mem_modify_iff.mp hs with ⟨i, -, hi⟩ | ⟨y, hy, rfl⟩
    · exact h s (List.mem_of_getElem? hi)
    · exact (h y (List.mem_of_getElem? hy)).feed bytes fin
  | stop k =>
    rcases mem_modify_iff.mp hs with ⟨i, -, hi⟩ | ⟨y, hy, rfl⟩
    · exact h s (List.mem_of_getElem? hi)
    · exact h y (List.mem_of_getElem? hy)

/-- What the sessions of a list satisfy behind a change of one of them. -/
theorem exists_modify_iff {l : List Session} {k : Nat} {f : Session → Session} {Q : Session → Prop}
    (hkeep : ∀ s, Q s → Q (f s)) :
    (∃ s ∈ l.modify k f, Q s) ↔ (∃ s ∈ l, Q s) ∨ ∃ s, l[k]? = some s ∧ Q (f s) := by
  refine ⟨?_, ?_⟩
  · intro h'
    obtain ⟨s, hs, hQ⟩ := h'
    rcases mem_modify_iff.mp hs with ⟨i, -, hi⟩ | ⟨y, hy, rfl⟩
    · exact Or.inl ⟨s, List.mem_of_getElem? hi, hQ⟩
    · exact Or.inr ⟨y, hy, hQ⟩
  · intro h'
    rcases h' with ⟨s, hs, hQ⟩ | ⟨s, hs, hQ⟩
    · obtain ⟨i, hi⟩ := List.mem_iff_getElem?.mp hs
      by_cases hk : i = k
      · exact ⟨f s, mem_modify_iff.mpr (Or.inr ⟨s, hk ▸ hi, rfl⟩), hkeep s hQ⟩
      · exact ⟨s, mem_modify_iff.mpr (Or.inl ⟨i, hk, hi⟩), hQ⟩
    · exact ⟨f s, mem_modify_iff.mpr (Or.inr ⟨s, hs, rfl⟩), hQ⟩

/-- **An event verifies a session exactly when one reads its own tag.** -/
theorem broken_step_iff (w : World) (ev : Event) :
    (step hmac w ev).Broken ↔ w.Broken ∨ w.Accepts hmac ev := by
  cases ev with
  | connect side myId peerId psk version na writable =>
    simp [World.Broken, World.Accepts, World.tagRead?, step, verified_runBehind]
  | stop k =>
    have hmod : (step hmac w (.stop k)).Broken ↔ w.Broken ∨
        ∃ s, w.sessions[k]? = some s ∧ s.verified = true :=
      exists_modify_iff (Q := fun s => s.verified = true) fun s hs => hs
    rw [hmod]
    refine or_congr_right' fun hno => iff_of_false ?_ ?_
    · exact fun ⟨s, hs, hv⟩ => hno ⟨s, List.mem_of_getElem? hs, hv⟩
    · intro h'
      obtain ⟨s, nb, t, hr, -⟩ := h'
      cases hr
  | write k bytes fin =>
    have hmod : (step hmac w (.write k bytes fin)).Broken ↔ w.Broken ∨
        ∃ s, w.sessions[k]? = some s ∧ (s.feed hmac bytes fin).verified = true :=
      exists_modify_iff (Q := fun s => s.verified = true) fun s hs =>
        (Session.feed_verified_iff hmac s bytes fin).mpr (Or.inl hs)
    rw [hmod]
    refine or_congr_right' fun hno => ?_
    refine ⟨?_, ?_⟩
    · intro h'
      obtain ⟨s, hs, hv⟩ := h'
      rcases (Session.feed_verified_iff hmac s bytes fin).mp hv with hv | ⟨⟨nb, t⟩, hr, ht⟩
      · exact absurd ⟨s, List.mem_of_getElem? hs, hv⟩ hno
      · refine ⟨s, nb, t, ?_, ht⟩
        rw [World.tagRead?, hs, Option.bind_some, Option.mem_def.mp hr, Option.map_some]
    · intro h'
      obtain ⟨s, nb, t, hr, ht⟩ := h'
      obtain ⟨s', hs, hr⟩ := Option.bind_eq_some_iff.mp hr
      obtain ⟨r, hr, heq⟩ := Option.map_eq_some_iff.mp hr
      obtain ⟨rfl, rfl⟩ := Prod.mk.inj heq
      exact ⟨s', hs, (Session.feed_verified_iff hmac s' bytes fin).mpr (Or.inr ⟨(nb, t), hr, ht⟩)⟩

/-! ## 4. The MAC computations of a run -/

/-- The MAC computations of a run: key and message of each. -/
def queries (w : World) (events : List Event) : List (Bytes 32 × List UInt8) :=
  events.inits.flatMap fun pre => (run (step hmac) w pre).sessions.filterMap Session.query?

/-- **No two different MAC computations of the run give the same tag.** -/
def NoCollision (w : World) (events : List Event) : Prop :=
  ∀ q ∈ queries hmac w events, ∀ q' ∈ queries hmac w events,
    hmac q.1 q.2 = hmac q'.1 q'.2 → q = q'

instance (w : World) (events : List Event) : Decidable (NoCollision hmac w events) :=
  inferInstanceAs (Decidable (∀ q ∈ _, ∀ q' ∈ _, _ → q = q'))

variable {hmac}

theorem mem_queries {w : World} {pre post : List Event} {s : Session} {nb : Bytes 32}
    (hs : s ∈ (run (step hmac) w pre).sessions) (hnb : s.phase.peerNonce? = some nb) :
    s.query nb ∈ queries hmac w (pre ++ post) := by
  refine List.mem_flatMap.mpr ⟨pre, (List.mem_inits _ _).mpr (List.prefix_append pre post), ?_⟩
  exact List.mem_filterMap.mpr ⟨s, hs, by rw [Session.query?, hnb, Option.map_some]⟩

/-- The session that reads a tag has computed its own: it stands among the run's. -/
theorem query_mem_of_tagRead {w : World} {pre post : List Event} {ev : Event} {s : Session}
    {nb t : Bytes 32} (hr : (run (step hmac) w pre).tagRead? hmac ev = some (s, nb, t)) :
    s.query nb ∈ queries hmac w (pre ++ ev :: post) := by
  cases ev with
  | write k bytes fin =>
    obtain ⟨s', hs, hr⟩ := Option.bind_eq_some_iff.mp hr
    obtain ⟨r, hr, heq⟩ := Option.map_eq_some_iff.mp hr
    obtain ⟨rfl, rfl⟩ := Prod.mk.inj heq
    -- behind the event the session is closed and still knows the nonce
    have hmem : s'.feed hmac bytes fin ∈
        (run (step hmac) w (pre ++ [.write k bytes fin])).sessions := by
      rw [run_append]
      exact mem_modify_iff.mpr (Or.inr ⟨s', hs, rfl⟩)
    have hq : (s'.feed hmac bytes fin).query nb ∈
        queries hmac w ((pre ++ [.write k bytes fin]) ++ post) :=
      mem_queries hmem (Session.peerNonce_feed hmac hr)
    rwa [Session.query_feed, List.append_assoc, List.singleton_append] at hq
  | connect side myId peerId psk version na writable => cases hr
  | stop k => cases hr

/-- Equal MAC computations are the same secret, ids and nonces. -/
theorem query_eq_iff {s s' : Session} {nb nb' : Bytes 32} :
    s.query nb = s'.query nb' ↔ s.psk = s'.psk ∧ s(s.myId, s.peerId) = s(s'.myId, s'.peerId) ∧
      s(s.na, nb) = s(s'.na, nb') := by
  rw [Session.query, Session.query, Prod.mk.injEq, Session.transcript, Session.transcript,
    transcript_eq_iff]

/-! ## 5. Soundness -/

/-- Without forgery and collisions, a session reads its own tag exactly when the adversary
    replays one. -/
theorem accepts_iff_replays {w : World} {pre post : List Event} {ev : Event}
    (hsound : (run (step hmac) w pre).Sound hmac)
    (hunf : (run (step hmac) w pre).Unforged hmac ev)
    (hnc : NoCollision hmac w (pre ++ ev :: post)) :
    (run (step hmac) w pre).Accepts hmac ev ↔ (run (step hmac) w pre).Replays hmac ev := by
  refine ⟨?_, ?_⟩
  · intro h'
    obtain ⟨s, nb, t, hr, ht⟩ := h'
    obtain ⟨s', hs', hsent⟩ := hunf (s, nb, t) hr ht
    obtain ⟨nb', hnb', ht'⟩ := hsound s' hs' t hsent
    have hq : s.query nb = s'.query nb' :=
      hnc _ (query_mem_of_tagRead hr) _ (mem_queries hs' hnb') (ht.symm.trans ht')
    exact ⟨s, nb, t, hr, s', hs', hsent, nb', hnb', query_eq_iff.mp hq⟩
  · intro h'
    obtain ⟨s, nb, t, hr, s', hs', hsent, nb', hnb', hsame⟩ := h'
    obtain ⟨nb'', hnb'', ht'⟩ := hsound s' hs' t hsent
    obtain rfl := Option.some.inj (hnb'.symm.trans hnb'')
    refine ⟨s, nb, t, hr, ?_⟩
    rw [ht', Session.myTag_eq, Session.myTag_eq, query_eq_iff.mpr hsame]

/-- **Admission against an adversary.** Let the run start with no sessions, let no tag be
    forged and no two MAC computations collide. Then no session is ever verified exactly when
    the adversary never replays a tag of the session itself or of one with the same secret,
    ids and nonces. -/
theorem admission_sound_iff (events : List Event)
    (hunf : EachStep (step hmac) (World.Unforged hmac) {} events)
    (hnc : NoCollision hmac {} events) :
    (∀ s ∈ (run (step hmac) {} events).sessions, s.verified = false) ↔
      EachStep (step hmac) (fun w ev => ¬ w.Replays hmac ev) {} events := by
  have hbroken : (∀ s ∈ (run (step hmac) {} events).sessions, s.verified = false) ↔
      ¬ (run (step hmac) {} events).Broken := by
    simp [World.Broken]
  have h0 : ¬ World.Broken {} := by simp [World.Broken]
  rw [hbroken, not_run_iff (broken_step_iff hmac), and_iff_right h0, eachStep_iff, eachStep_iff]
  refine forall₃_congr fun pre ev post => forall_congr' fun hl => not_congr ?_
  have hsound : (run (step hmac) {} pre).Sound hmac :=
    run_invariant (I := World.Sound hmac) (fun w ev _ hw => hw.step hmac ev) nofun
  exact accepts_iff_replays hsound (eachStep_iff.mp hunf pre ev post hl) (hl ▸ hnc)

/-! ## 6. Reflection -/

/-- **A session that gets its own tag back verifies its peer**, for every HMAC: it has sent
    the tag before it reads the peer's. -/
theorem reflection_verifies {s : Session} {nb : Bytes 32} (hp : s.phase = .recvTag nb)
    (hi : s.inbox = []) : (s.feed hmac (s.myTag hmac nb).toList false).verified = true := by
  refine (Session.feed_verified_iff hmac s _ false).mpr
    (Or.inr ⟨(nb, s.myTag hmac nb), ?_, rfl⟩)
  have htake : (s.myTag hmac nb).toList.take 32 = (s.myTag hmac nb).toList :=
    List.take_of_length_le (s.myTag hmac nb).length_eq.le
  simp [Session.tagRead?, Session.beforeTag, Session.recvVersion, Session.recvNonce,
    Session.nextTag?, hp, hi, htake]

namespace Sample

/-- A keyed checksum to evaluate with: it depends on the key and on both nonces. -/
def checksum (key : Bytes 32) (msg : List UInt8) : Bytes 32 :=
  Bytes.pad 32 (List.zipWith (· + ·) key.toList
    (List.zipWith (fun a b => 3 * a + 5 * b) ((msg.drop 80).take 32) (msg.drop 112)))

def id (b : UInt8) : Id := Bytes.fill 32 b

/-- A member accepts a connection of device 66, which sends the version and its nonce. -/
def greeting : List Event :=
  [.connect .accept (id 1) (id 66) (id 7) 1 (id 20) true,
    .write 0 (toBeBytes 1 ++ (id 30).toList) false]

/-- The tag the member then sends. -/
def memberTag : Bytes 32 := tag checksum (id 7) (transcript (id 1) (id 66) (id 20) (id 30))

end Sample

/-- A guessed tag does not verify device 66. -/
theorem admission_sound_sample :
    (run (step Sample.checksum) {}
      (Sample.greeting ++ [.write 0 (Sample.id 0).toList false])).sessions.all
        (fun s => !s.verified) = true := by
  -- it has received no tag that it sends
  have hno : EachStep (step Sample.checksum)
      (fun w ev => ∀ r ∈ w.tagRead? Sample.checksum ev, ¬ w.Received r.2.2) {}
      (Sample.greeting ++ [.write 0 (Sample.id 0).toList false]) := by decide
  refine List.all_eq_true.mpr fun s hs => (Bool.not_eq_true' s.verified).mpr ?_
  refine (admission_sound_iff _ (by decide) (by decide)).mpr ?_ s hs
  refine eachStep_iff.mpr fun pre ev post hl => ?_
  intro h'
  obtain ⟨s, nb, t, hr, s', hs', hsent, -⟩ := h'
  exact eachStep_iff.mp hno pre ev post hl (s, nb, t) hr ⟨s', hs', hsent⟩

/-- **A peer without the secret is admitted**: device 66 sends the member's tag back. -/
theorem admission_not_sound :
    ¬ ∀ events : List Event,
      EachStep (step Sample.checksum) (World.Unforged Sample.checksum) {} events →
      NoCollision Sample.checksum {} events →
      ∀ s ∈ (run (step Sample.checksum) {} events).sessions, s.verified = false := by
  intro h
  have hv := h (Sample.greeting ++ [.write 0 Sample.memberTag.toList false]) (by decide)
    (by decide)
  revert hv
  decide

end Nullgate.Admission
