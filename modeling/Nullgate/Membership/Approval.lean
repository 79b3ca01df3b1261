/-
  File:      Nullgate/Membership/Approval.lean
  Subject:   APPROVING A JOIN (`engine.rs`): the request that is shown and the one that is admitted.

  Each joiner's connection has a handler: it puts a responder into the pending table, surfaces the
  request, waits for the decision and admits. `decide_join` takes the responder from the table and
  sends the decision. The table has one slot for each device, and the three steps are apart: the
  handlers of one device, and the approvals, come between each other in any order.

  * `joins`: the program of the handlers, the approvals and the rest of the engine;
  * `published_approved`: what a handler publishes was approved, by one approval;
  * `AdmitsWhatWasShown`: an approval answers on the session whose request was on view, and what
    comes of it is an `add` of that request;
  * **`approval_admits_shown_iff`**: so it is throughout a run exactly when no approval is carried
    out behind a younger request of the same device;
  * `approval_overtaken`: one that is admits a device under the name of the second request.
-/
import Nullgate.Admission.Handshake
import Nullgate.Daemon.Subscribe
import Nullgate.Engine.Audit
import Nullgate.Engine.Publish
import Nullgate.Lib.Tasks

namespace Nullgate

open Nullgate.Lib Admission

/-! ## 1. Messages, events, decisions -/

/-- What a joiner asks for. -/
structure JoinRequest where
  hostname : String
  inviteKind : InviteKind
  inviteNonce : Nonce
  deriving DecidableEq

inductive JoinResponse where
  | approved
  | denied (reason : Option String)
  deriving DecidableEq

/-- A connection behind its handshake, and what was asked over it. -/
structure JoinSession where
  netId : Id
  verified : Verified
  req : JoinRequest
  deriving DecidableEq

/-- What is surfaced of a request. -/
def JoinSession.event (ses : JoinSession) : EngineEvent :=
  .joinRequest (hexOf ses.verified.peerId) ses.req.hostname ses.verified.sas

/-- The receiving end of a `oneshot` channel, as the sender leaves it. -/
inductive Responder where
  | held
  | sent (approve : Bool)
  | dropped
  deriving DecidableEq

/-- `PendingJoin`: the responder by its number. -/
structure PendingJoin where
  responder : Nat
  deriving DecidableEq

/-- An event, and the session whose handler emitted it. -/
structure Emitted where
  event : EngineEvent
  session : Nat
  deriving DecidableEq

/-- The event surfaces a request of the device. -/
def Emitted.shows (m : Emitted) (id : Id) : Bool :=
  match m.event with
  | .joinRequest nodeId _ _ => nodeId = hexOf id
  | _ => false

/-- A call of `decide_join` that has taken a responder: `seen` is the request of the device that
    was on view when the call was made. -/
structure Decision where
  nodeId : Id
  approve : Bool
  seen : Option Emitted
  took : Nat
  deriving DecidableEq

/-! ## 2. The member that is asked -/

/-- **The member's side.** The sessions are numbered as they register; sessions, events and
    decisions are kept as a history. -/
structure JoinHost where
  inner : Inner
  pending : Id → Option PendingJoin := fun _ => none
  responders : Nat → Responder := fun _ => .held
  sessions : List JoinSession := []
  events : List Emitted := []
  decisions : List Decision := []
  /-- with the session whose handler published it -/
  published : List (Nat × Entry) := []
  /-- with the session it went out on, if that was registered -/
  answers : List (Option Nat × JoinResponse) := []

namespace JoinHost

variable (s : JoinHost)

/-- The session's responder is in the table. -/
def isPending (n : Nat) : Bool :=
  s.sessions[n]?.any fun ses => s.pending ses.verified.peerId = some ⟨n⟩

/-- `pending.insert`: the responder that was there is dropped. -/
def register (ses : JoinSession) : JoinHost :=
  let id := ses.verified.peerId
  { s with
    pending := fun x => if x = id then some ⟨s.sessions.length⟩ else s.pending x
    responders := fun n => if s.pending id = some ⟨n⟩ then .dropped else s.responders n
    sessions := s.sessions ++ [ses] }

def emit (n : Nat) (event : EngineEvent) : JoinHost :=
  { s with events := s.events ++ [⟨event, n⟩] }

/-- The last event that surfaced a request of the device. -/
def onView (id : Id) : Option Emitted := (s.events.filter fun m => m.shows id).getLast?

/-- `pending.remove`. -/
def take (id : Id) (approve : Bool) (seen : Option Emitted) (n : Nat) : JoinHost :=
  { s with
    pending := fun x => if x = id then none else s.pending x
    decisions := s.decisions ++ [⟨id, approve, seen, n⟩] }

def send (n : Nat) (approve : Bool) : JoinHost :=
  { s with responders := fun x => if x = n then .sent approve else s.responders x }

/-- `soft_disconnect`: the table is cleared, and the responders in it are dropped. -/
def disconnect : JoinHost :=
  { s with
    inner := softDisconnect s.inner
    pending := fun _ => none
    responders := fun n => if s.isPending n then .dropped else s.responders n }

end JoinHost

/-! ## 3. Handlers and approvals -/

section Program

variable (C : Crates)

/-- Where `handle_join_incoming` is. -/
inductive JoinPoint where
  | accepting
  | handshaking (netId : Id)
  | reading (netId : Id) (verified : Verified)
  | checking (ses : JoinSession)
  | registering (ses : JoinSession)
  /-- in the table, not yet surfaced -/
  | surfacing (n : Nat) (ses : JoinSession)
  | waiting (n : Nat) (ses : JoinSession)
  /-- in `admit_member`, before and behind the signature -/
  | admitting (n : Nat) (ses : JoinSession)
  | publishing (n : Nat) (entry : Entry)
  /-- a handler that turns a request away has not registered -/
  | answering (n : Option Nat) (resp : JoinResponse)
  | closed

/-- Where `decide_join` is. -/
inductive DecidePoint where
  /-- `saw`: whether the caller has seen the last request of the device that was surfaced -/
  | called (nodeIdHex : String) (approve saw : Bool)
  | taking (id : Id) (approve : Bool) (seen : Option Emitted)
  | sending (n : Nat) (approve : Bool)
  | returned (result : Except String Unit)

inductive JoinTask where
  | join (p : JoinPoint)
  | decide (p : DecidePoint)

/-- What a handler is given: the ends of the handshake and of the read, and the clock. -/
structure JoinInputs where
  verified : Option Verified := none
  req : Option JoinRequest := none
  nowMs : UInt64 := 0

/-- What a handler does next. -/
def joinNext (s : JoinHost) (i : JoinInputs) : JoinPoint → JoinHost × JoinPoint
  | .accepting =>
    match s.inner.config with
    | none => (s, .closed)
    | some c => (s, .handshaking (c.secret.networkId C))
  | .handshaking netId =>
    match i.verified with
    | none => (s, .closed)
    | some verified => (s, .reading netId verified)
  | .reading netId verified =>
    match i.req with
    | none => (s, .closed)
    | some req => (s, .checking ⟨netId, verified, req⟩)
  | .checking ses =>
    match s.inner.roster.checkInvite ses.req.inviteKind ses.req.inviteNonce with
    | .ok => (s, .registering ses)
    | .spent =>
      (s, .answering none
        (.denied (some "This invite code has already been used. Ask for a new one.")))
    | .stale =>
      (s, .answering none
        (.denied (some "This invite code is no longer valid. Ask for a new one.")))
  | .registering ses => (s.register ses, .surfacing s.sessions.length ses)
  | .surfacing n ses => (s.emit n ses.event, .waiting n ses)
  | .waiting n ses =>
    match s.responders n with
    | .held => (s, .waiting n ses)
    | .sent true => (s, .admitting n ses)
    | .sent false | .dropped => (s, .answering (some n) (.denied none))
  | .admitting n ses =>
    match signAdmission C s.inner i.nowMs ses.netId ses.verified.peerId ses.req.hostname
        ses.req.inviteKind ses.req.inviteNonce with
    | .error e => (s, .answering (some n) (.denied (some e)))
    | .ok entry => (s, .publishing n entry)
  | .publishing n entry =>
    match publish s.inner entry with
    | .error e => (s, .answering (some n) (.denied (some e)))
    | .ok o => ({ s with published := s.published ++ [(n, o)] }, .answering (some n) .approved)
  | .answering n resp =>
    let s := { s with answers := s.answers ++ [(n, resp)] }
    match n with
    | none => (s, .closed)
    | some n => (s.emit n .changed, .closed)
  | .closed => (s, .closed)

/-- What an approval or a denial does next. -/
def decideNext (s : JoinHost) : DecidePoint → JoinHost × DecidePoint
  | .called nodeIdHex approve saw =>
    match parseId nodeIdHex with
    | .error e => (s, .returned (.error e))
    | .ok id => (s, .taking id approve (if saw then s.onView id else none))
  | .taking id approve seen =>
    match s.pending id with
    | none => (s, .returned (.error "no pending join from that device"))
    | some p => (s.take id approve seen p.responder, .sending p.responder approve)
  | .sending n approve => (s.send n approve, .returned (.ok ()))
  | .returned result => (s, .returned result)

/-- The rest of the engine. -/
inductive JoinOutside where
  | engine (inner : Inner)
  | disconnect

/-- What is left of a task that is dropped where it waits. Between the table and the event, and
    between the table and the responder, it does not. -/
def JoinTask.dropped : JoinTask → Option JoinTask
  | .join (.surfacing _ _) | .decide (.sending _ _) => none
  | .join _ => some (.join .closed)
  | .decide _ => some (.decide (.returned (.error "cancelled")))

/-- **The handlers, the approvals, and the rest of the engine**, in any order. -/
def joins : Program JoinHost JoinTask JoinInputs JoinOutside where
  stretch s i
    | .join p =>
      let (s', p') := joinNext C s i p
      (s', .join p', [])
    | .decide p =>
      let (s', p') := decideNext s p
      (s', .decide p', [])
  starts
    | .join .accepting | .decide (.called _ _ _) => true
    | _ => false
  drop := JoinTask.dropped
  env s
    | .engine inner => { s with inner }
    | .disconnect => s.disconnect

/-- A member that has not been asked yet. -/
def listening (i : Inner) : World JoinHost JoinTask := ⟨{ inner := i }, []⟩

end Program

/-! ## 4. The property and the condition -/

namespace JoinHost

variable (C : Crates) (s : JoinHost)

/-- The entry admits the session's device as its request says: under its hostname, in the role of
    its ticket, citing its nonce. -/
def Adds (ses : JoinSession) (o : Entry) : Prop :=
  ∃ key ip ts, o = signOp C.toPrimitives ses.netId key
    (.add ses.verified.peerId ses.req.hostname ses.req.inviteKind.role ip ses.req.inviteNonce ts)

/-- **The decision is for the request on view.** -/
structure Honours (d : Decision) (m : Emitted) : Prop where
  /-- it answers on the session of the event -/
  answers : d.took = m.session
  /-- the event displays that session, and what comes of the decision is an `add` of its request -/
  admits : ∃ ses, s.sessions[m.session]? = some ses ∧ m.event = ses.event ∧
    ∀ o, (d.took, o) ∈ s.published → Adds C ses o

/-- **The entry was approved**: it is an `add` of the session's request, and one approval, no more,
    has taken the session's responder. -/
structure Approved (n : Nat) (o : Entry) : Prop where
  adds : ∃ ses, s.sessions[n]? = some ses ∧ Adds C ses o
  once : ∃ d ∈ s.decisions, d.approve = true ∧ d.took = n ∧
    ∀ d' ∈ s.decisions, d'.took = n → d' = d

/-- **An approval admits the request that was shown.** -/
def AdmitsWhatWasShown : Prop :=
  ∀ d ∈ s.decisions, d.approve = true → ∀ m ∈ d.seen, s.Honours C d m

/-- No session of the device has registered since the `n`th. -/
def NoneSince (id : Id) (n : Nat) : Prop :=
  ∀ (k : Nat) (ses : JoinSession), s.sessions[k]? = some ses → ses.verified.peerId = id → k ≤ n

/-- An approval that is about to be carried out has not been overtaken: behind the request on view,
    no other of the device has registered, unless none of the device is pending. -/
def InTime : JoinTask → Prop
  | .decide (.taking id true (some m)) => s.pending id ≠ none → s.NoneSince id m.session
  | _ => True

/-- **The condition on a step.** -/
def NotOvertaken (w : World JoinHost JoinTask) (a : Act JoinTask JoinInputs JoinOutside) : Prop :=
  ∀ k i, a = .go k i → ∀ t ∈ w.tasks[k]?, w.shared.InTime t

/-! ## 5. What the history says -/

/-- The event surfaced a request of the device, over its session. -/
def Behind (id : Id) (m : Emitted) : Prop :=
  ∃ ses, s.sessions[m.session]? = some ses ∧ ses.verified.peerId = id ∧ m.event = ses.event

/-- A decision took the session's responder. -/
def Decided (n : Nat) (approve : Bool) : Prop :=
  ∃ d ∈ s.decisions, d.took = n ∧ d.approve = approve

/-- What holds where a task stands. -/
def At : JoinTask → Prop
  | .join (.surfacing n ses) | .join (.waiting n ses) => s.sessions[n]? = some ses
  | .join (.admitting n ses) => s.sessions[n]? = some ses ∧ s.Decided n true
  | .join (.publishing n o) =>
    (∃ ses, s.sessions[n]? = some ses ∧ Adds C ses o) ∧ s.Decided n true
  | .decide (.taking id _ seen) => ∀ m ∈ seen, s.Behind id m
  | .decide (.sending n approve) => s.Decided n approve
  | _ => True

/-- **What the table, the channels and the document say of the history.** -/
structure Inv : Prop where
  /-- the responder in the table is that of the device's last session, and nobody has taken it -/
  pending : ∀ id p, s.pending id = some p →
    (∃ ses, s.sessions[p.responder]? = some ses ∧ ses.verified.peerId = id) ∧
      s.NoneSince id p.responder ∧ ∀ d ∈ s.decisions, d.took ≠ p.responder
  events : ∀ m ∈ s.events, ∀ id, m.shows id = true → s.Behind id m
  decisions : ∀ d ∈ s.decisions,
    (∃ ses, s.sessions[d.took]? = some ses ∧ ses.verified.peerId = d.nodeId) ∧
      ∀ m ∈ d.seen, s.Behind d.nodeId m
  once : (s.decisions.map Decision.took).Nodup
  sent : ∀ n approve, s.responders n = .sent approve → s.Decided n approve
  published : ∀ n o, (n, o) ∈ s.published →
    (∃ ses, s.sessions[n]? = some ses ∧ Adds C ses o) ∧ s.Decided n true

/-- The history goes on. -/
structure Grows (s s' : JoinHost) : Prop where
  sessions : s.sessions <+: s'.sessions
  decisions : s.decisions <+: s'.decisions

variable {C s} {s' : JoinHost}

theorem Grows.rfl : Grows s s := ⟨List.prefix_rfl, List.prefix_rfl⟩

theorem Grows.session {n : Nat} {ses : JoinSession} (h : Grows s s')
    (hn : s.sessions[n]? = some ses) : s'.sessions[n]? = some ses := by
  obtain ⟨more, hmore⟩ := h.sessions
  rw [← hmore, List.getElem?_append_left (List.getElem?_eq_some_iff.mp hn).1, hn]

theorem Grows.behind {id : Id} {m : Emitted} (h : Grows s s') (hm : s.Behind id m) :
    s'.Behind id m := by
  obtain ⟨ses, hses, hid, hevent⟩ := hm
  exact ⟨ses, h.session hses, hid, hevent⟩

theorem Grows.decided {n : Nat} {approve : Bool} (h : Grows s s') (hn : s.Decided n approve) :
    s'.Decided n approve := by
  obtain ⟨d, hd, htook⟩ := hn
  exact ⟨d, h.decisions.subset hd, htook⟩

theorem Grows.adds {n : Nat} {o : Entry} (h : Grows s s')
    (hn : ∃ ses, s.sessions[n]? = some ses ∧ Adds C ses o) :
    ∃ ses, s'.sessions[n]? = some ses ∧ Adds C ses o := by
  obtain ⟨ses, hses, hadds⟩ := hn
  exact ⟨ses, h.session hses, hadds⟩

/-- **What holds where a task stands, holds on.** -/
theorem Grows.at {t : JoinTask} (h : Grows s s') (ht : s.At C t) : s'.At C t := by
  cases t with
  | join p =>
    cases p with
    | surfacing n ses | waiting n ses => exact h.session ht
    | admitting n ses => exact ⟨h.session ht.1, h.decided ht.2⟩
    | publishing n o => exact ⟨h.adds ht.1, h.decided ht.2⟩
    | _ => trivial
  | decide p =>
    cases p with
    | taking id approve seen => exact fun m hm => h.behind (ht m hm)
    | sending n approve => exact h.decided ht
    | _ => trivial

/-! ## 6. What each operation keeps -/

theorem grows_register (ses : JoinSession) : Grows s (s.register ses) :=
  ⟨List.prefix_append _ _, List.prefix_rfl⟩

theorem grows_take {id : Id} {approve : Bool} {seen : Option Emitted} {n : Nat} :
    Grows s (s.take id approve seen n) :=
  ⟨List.prefix_rfl, List.prefix_append _ _⟩

/-- The session that registers is the last of its device, and of no other. -/
theorem noneSince_register {id : Id} {n : Nat} (ses : JoinSession)
    (h : if id = ses.verified.peerId then n = s.sessions.length else s.NoneSince id n) :
    (s.register ses).NoneSince id n := by
  intro k ses' hk hid
  have hk' : (s.sessions ++ [ses])[k]? = some ses' := hk
  rcases Nat.lt_or_ge k s.sessions.length with hlt | hge
  · rw [List.getElem?_append_left hlt] at hk'
    split at h
    · omega
    · exact h k ses' hk' hid
  · have hlen := (List.getElem?_eq_some_iff.mp hk').1
    rw [List.length_append, List.length_singleton] at hlen
    obtain rfl : k = s.sessions.length := by omega
    rw [List.getElem?_concat_length] at hk'
    obtain rfl := Option.some.inj hk'
    rw [if_pos hid.symm] at h
    exact h.ge

theorem Inv.register (h : s.Inv C) (ses : JoinSession) : (s.register ses).Inv C where
  pending id p hp := by
    have hp' : (if id = ses.verified.peerId then some ⟨s.sessions.length⟩ else s.pending id) =
      some p := hp
    split at hp'
    · rename_i hid
      obtain rfl := Option.some.inj hp'
      refine ⟨⟨ses, List.getElem?_concat_length, hid.symm⟩,
        noneSince_register ses (by rw [if_pos hid]), fun d hd htook => ?_⟩
      obtain ⟨⟨ses', hses', -⟩, -⟩ := h.decisions d hd
      have hlt := (List.getElem?_eq_some_iff.mp hses').1
      rw [htook] at hlt
      exact Nat.lt_irrefl _ hlt
    · rename_i hid
      obtain ⟨⟨ses', hses', hpeer⟩, hnone, hfree⟩ := h.pending id p hp'
      exact ⟨⟨ses', (grows_register ses).session hses', hpeer⟩,
        noneSince_register ses (by rwa [if_neg hid]), hfree⟩
  events m hm id hid := (grows_register ses).behind (h.events m hm id hid)
  decisions d hd := by
    obtain ⟨⟨ses', hses', hid⟩, hseen⟩ := h.decisions d hd
    exact ⟨⟨ses', (grows_register ses).session hses', hid⟩,
      fun m hm => (grows_register ses).behind (hseen m hm)⟩
  once := h.once
  sent n approve hn := by
    have hn' : (if s.pending ses.verified.peerId = some ⟨n⟩ then .dropped else s.responders n) =
      Responder.sent approve := hn
    split at hn'
    · cases hn'
    · exact h.sent n approve hn'
  published n o hn :=
    ⟨(grows_register ses).adds (h.published n o hn).1, (h.published n o hn).2⟩

theorem Inv.emit {n : Nat} {event : EngineEvent} (h : s.Inv C)
    (hevent : ∀ id, Emitted.shows ⟨event, n⟩ id = true → s.Behind id ⟨event, n⟩) :
    (s.emit n event).Inv C where
  pending := h.pending
  events m hm id hid := by
    rcases List.mem_append.mp hm with hm | hm
    · exact h.events m hm id hid
    · obtain rfl := List.mem_singleton.mp hm
      exact hevent id hid
  decisions := h.decisions
  once := h.once
  sent := h.sent
  published := h.published

/-- An event names the device of its session. -/
theorem behind_of_shows {n : Nat} {ses : JoinSession} {id : Id}
    (hn : s.sessions[n]? = some ses) (h : Emitted.shows ⟨ses.event, n⟩ id = true) :
    s.Behind id ⟨ses.event, n⟩ := by
  have hhex : hexOf ses.verified.peerId = hexOf id := of_decide_eq_true h
  exact ⟨ses, hn, hexOf_injective hhex, rfl⟩

theorem Inv.onView {id : Id} {m : Emitted} (h : s.Inv C) (hm : m ∈ s.onView id) :
    s.Behind id m := by
  obtain ⟨hmem, hshows⟩ := List.mem_filter.mp (List.mem_of_getLast? hm)
  exact h.events m hmem id hshows

theorem Inv.take {id : Id} {p : PendingJoin} {approve : Bool} {seen : Option Emitted}
    (h : s.Inv C) (hp : s.pending id = some p) (hseen : ∀ m ∈ seen, s.Behind id m) :
    (s.take id approve seen p.responder).Inv C where
  pending x q hq := by
    have hq' : (if x = id then none else s.pending x) = some q := hq
    split at hq'
    · cases hq'
    · rename_i hx
      obtain ⟨⟨ses, hses, hid⟩, hnone, hfree⟩ := h.pending x q hq'
      refine ⟨⟨ses, hses, hid⟩, hnone, fun d hd => ?_⟩
      rcases List.mem_append.mp hd with hd | hd
      · exact hfree d hd
      · -- the responders of two devices are two
        obtain rfl := List.mem_singleton.mp hd
        obtain ⟨⟨ses', hses', hid'⟩, -, -⟩ := h.pending id p hp
        intro hsame
        have hsame' : p.responder = q.responder := hsame
        rw [← hsame', hses'] at hses
        obtain rfl := Option.some.inj hses
        exact hx (hid.symm.trans hid')
  events := h.events
  decisions d hd := by
    rcases List.mem_append.mp hd with hd | hd
    · exact h.decisions d hd
    · obtain rfl := List.mem_singleton.mp hd
      exact ⟨(h.pending id p hp).1, hseen⟩
  once := by
    show ((s.decisions ++ _).map Decision.took).Nodup
    rw [List.map_append, List.nodup_append]
    refine ⟨h.once, List.nodup_singleton _, fun n hn n' hn' => ?_⟩
    obtain ⟨d, hd, rfl⟩ := List.mem_map.mp hn
    obtain rfl := List.mem_singleton.mp hn'
    exact (h.pending id p hp).2.2 d hd
  sent n b hn := grows_take.decided (h.sent n b hn)
  published n o hn := ⟨(h.published n o hn).1, grows_take.decided (h.published n o hn).2⟩

theorem Inv.send {n : Nat} {approve : Bool} (h : s.Inv C) (hn : s.Decided n approve) :
    (s.send n approve).Inv C where
  pending := h.pending
  events := h.events
  decisions := h.decisions
  once := h.once
  sent x b hx := by
    have hx' : (if x = n then .sent approve else s.responders x) = Responder.sent b := hx
    split at hx'
    · rename_i he
      obtain rfl := Responder.sent.inj hx'
      rw [he]
      exact hn
    · exact h.sent x b hx'
  published := h.published

theorem Inv.publish {n : Nat} {o : Entry} (h : s.Inv C)
    (hadds : ∃ ses, s.sessions[n]? = some ses ∧ Adds C ses o) (hn : s.Decided n true) :
    JoinHost.Inv C { s with published := s.published ++ [(n, o)] } where
  pending := h.pending
  events := h.events
  decisions := h.decisions
  once := h.once
  sent := h.sent
  published x o' hx := by
    rcases List.mem_append.mp hx with hx | hx
    · exact h.published x o' hx
    · obtain ⟨rfl, rfl⟩ := Prod.mk.inj (List.mem_singleton.mp hx)
      exact ⟨hadds, hn⟩

theorem Inv.answer {n : Option Nat} {resp : JoinResponse} (h : s.Inv C) :
    JoinHost.Inv C { s with answers := s.answers ++ [(n, resp)] } :=
  ⟨h.pending, h.events, h.decisions, h.once, h.sent, h.published⟩

theorem Inv.disconnect (h : s.Inv C) : s.disconnect.Inv C where
  pending id p hp := by cases hp
  events := h.events
  decisions := h.decisions
  once := h.once
  sent n approve hn := by
    have hn' : (if s.isPending n then .dropped else s.responders n) = Responder.sent approve := hn
    split at hn'
    · cases hn'
    · exact h.sent n approve hn'
  published := h.published

/-! ## 7. Runs -/

/-- What a stretch of a handler keeps, and brings about where it ends. -/
theorem Inv.goes_on_join {p : JoinPoint} (h : s.Inv C) (hp : s.At C (.join p)) (i : JoinInputs) :
    (joinNext C s i p).1.Inv C ∧ (joinNext C s i p).1.At C (.join (joinNext C s i p).2) ∧
      Grows s (joinNext C s i p).1 := by
  cases p with
  | accepting =>
    unfold joinNext
    dsimp only
    split <;> exact ⟨h, trivial, .rfl⟩
  | handshaking netId =>
    unfold joinNext
    dsimp only
    split <;> exact ⟨h, trivial, .rfl⟩
  | reading netId verified =>
    unfold joinNext
    dsimp only
    split <;> exact ⟨h, trivial, .rfl⟩
  | checking ses =>
    unfold joinNext
    dsimp only
    split <;> exact ⟨h, trivial, .rfl⟩
  | registering ses =>
    exact ⟨h.register ses, List.getElem?_concat_length, grows_register ses⟩
  | surfacing n ses =>
    exact ⟨h.emit fun id hid => behind_of_shows hp hid, hp, ⟨List.prefix_rfl, List.prefix_rfl⟩⟩
  | waiting n ses =>
    unfold joinNext
    dsimp only
    split
    · exact ⟨h, hp, .rfl⟩
    · rename_i hsent
      exact ⟨h, ⟨hp, h.sent n true hsent⟩, .rfl⟩
    · exact ⟨h, trivial, .rfl⟩
    · exact ⟨h, trivial, .rfl⟩
  | admitting n ses =>
    unfold joinNext
    dsimp only
    split
    · exact ⟨h, trivial, .rfl⟩
    · rename_i o ho
      obtain ⟨ip, hsigned⟩ := signAdmission_ok ho
      exact ⟨h, ⟨⟨ses, hp.1, _, ip, _, hsigned⟩, hp.2⟩, .rfl⟩
  | publishing n entry =>
    unfold joinNext
    dsimp only
    split
    · exact ⟨h, trivial, .rfl⟩
    · rename_i o ho
      obtain rfl := publish_ok ho
      exact ⟨h.publish hp.1 hp.2, trivial, ⟨List.prefix_rfl, List.prefix_rfl⟩⟩
  | answering n resp =>
    cases n with
    | none => exact ⟨h.answer, trivial, ⟨List.prefix_rfl, List.prefix_rfl⟩⟩
    | some n =>
      exact ⟨h.answer.emit fun id hid => (by cases hid), trivial,
        ⟨List.prefix_rfl, List.prefix_rfl⟩⟩
  | closed => exact ⟨h, trivial, .rfl⟩

theorem Inv.goes_on_decide {p : DecidePoint} (h : s.Inv C) (hp : s.At C (.decide p)) :
    (decideNext s p).1.Inv C ∧ (decideNext s p).1.At C (.decide (decideNext s p).2) ∧
      Grows s (decideNext s p).1 := by
  cases p with
  | called nodeIdHex approve saw =>
    unfold decideNext
    dsimp only
    split
    · exact ⟨h, trivial, .rfl⟩
    · refine ⟨h, fun m hm => ?_, .rfl⟩
      cases saw with
      | true => exact h.onView hm
      | false => cases hm
  | taking id approve seen =>
    unfold decideNext
    dsimp only
    split
    · exact ⟨h, trivial, .rfl⟩
    · rename_i p hpending
      exact ⟨h.take hpending hp, ⟨_, List.mem_append_right _ (List.mem_singleton_self _),
        rfl, rfl⟩, grows_take⟩
  | sending n approve => exact ⟨h.send hp, trivial, ⟨List.prefix_rfl, List.prefix_rfl⟩⟩
  | returned result => exact ⟨h, trivial, .rfl⟩

/-- **The invariant, over every action.** -/
theorem inv_step {w : World JoinHost JoinTask} (h : w.Inv (Inv C) (At C))
    (a : Act JoinTask JoinInputs JoinOutside) : ((joins C).step w a).Inv (Inv C) (At C) := by
  refine Program.step_inv h (fun k i t _ hk => ?_) (fun t _ ht => ?_) (fun t t' hd _ => ?_)
    (fun e _ => ?_)
  · have hat := h.tasks t (List.mem_of_getElem? hk)
    cases t with
    | join p =>
      obtain ⟨hinv, hnext, hgrows⟩ := h.shared.goes_on_join hat i
      exact ⟨hinv, hnext, fun t' ht' => (by cases ht'), fun t' => hgrows.at⟩
    | decide p =>
      obtain ⟨hinv, hnext, hgrows⟩ := h.shared.goes_on_decide hat
      exact ⟨hinv, hnext, fun t' ht' => (by cases ht'), fun t' => hgrows.at⟩
  · cases t with
    | join p =>
      cases p with
      | accepting => trivial
      | _ => cases ht
    | decide p =>
      cases p with
      | called nodeIdHex approve saw => trivial
      | _ => cases ht
  · have hdropped : JoinTask.dropped t = some t' := hd
    unfold JoinTask.dropped at hdropped
    split at hdropped
    · cases hdropped
    · cases hdropped
    · obtain rfl := Option.some.inj hdropped
      trivial
    · obtain rfl := Option.some.inj hdropped
      trivial
  · cases e with
    | engine inner =>
      have hinv := h.shared
      exact ⟨⟨hinv.pending, hinv.events, hinv.decisions, hinv.once, hinv.sent, hinv.published⟩,
        fun t => Grows.at ⟨List.prefix_rfl, List.prefix_rfl⟩⟩
    | disconnect =>
      exact ⟨h.shared.disconnect, fun t => Grows.at ⟨List.prefix_rfl, List.prefix_rfl⟩⟩

theorem inv_listening (i : Inner) : (listening i).Inv (Inv C) (At C) where
  shared :=
    { pending := fun id p hp => by cases hp
      events := fun m hm => by cases hm
      decisions := fun d hd => by cases hd
      once := List.nodup_nil
      sent := fun n approve hn => by cases hn
      published := fun n o hn => by cases hn }
  tasks t ht := by cases ht

/-- **Nothing is admitted unapproved.** -/
theorem published_approved (C : Crates) (i : Inner)
    (l : List (Act JoinTask JoinInputs JoinOutside)) {n : Nat} {o : Entry}
    (h : (n, o) ∈ (run (joins C).step (listening i) l).shared.published) :
    (run (joins C).step (listening i) l).shared.Approved C n o := by
  have hinv : (run (joins C).step (listening i) l).Inv (Inv C) (At C) :=
    run_invariant (I := World.Inv (Inv C) (At C)) (fun w a _ hw => inv_step hw a)
      (inv_listening i)
  obtain ⟨hadds, d, hd, htook, happrove⟩ := hinv.shared.published n o h
  exact ⟨hadds, d, hd, happrove, htook, fun d' hd' htook' =>
    List.inj_on_of_nodup_map hinv.shared.once hd' hd (htook'.trans htook.symm)⟩

/-! ## 8. The result -/

/-- The approval answers on the session of the event on view. -/
def Straight (s : JoinHost) : Prop :=
  ∀ d ∈ s.decisions, d.approve = true → ∀ m ∈ d.seen, d.took = m.session

/-- The session decides all that comes of an approval. -/
theorem Inv.admitsWhatWasShown_iff (h : s.Inv C) : s.AdmitsWhatWasShown C ↔ s.Straight := by
  constructor
  · exact fun hs d hd happrove m hm => (hs d hd happrove m hm).answers
  · intro hs d hd happrove m hm
    have htook := hs d hd happrove m hm
    obtain ⟨ses, hses, -, hevent⟩ := (h.decisions d hd).2 m hm
    refine ⟨htook, ses, hses, hevent, fun o ho => ?_⟩
    obtain ⟨⟨ses', hses', hadds⟩, -⟩ := h.published d.took o ho
    rw [htook, hses] at hses'
    obtain rfl := Option.some.inj hses'
    exact hadds

/-- **One approval**: it takes the responder of the event on view exactly if no other request of
    the device has registered behind that one. -/
theorem straight_take_iff {id : Id} {p : PendingJoin} {approve : Bool} {seen : Option Emitted}
    (h : s.Inv C) (hs : s.Straight) (hp : s.pending id = some p)
    (hseen : ∀ m ∈ seen, s.Behind id m) :
    (s.take id approve seen p.responder).Straight ↔
      s.InTime (.decide (.taking id approve seen)) := by
  have hhead : (s.take id approve seen p.responder).Straight ↔
      (approve = true → ∀ m ∈ seen, p.responder = m.session) := by
    constructor
    · exact fun hall => hall ⟨id, approve, seen, p.responder⟩
        (List.mem_append_right _ (List.mem_singleton_self _))
    · intro hlast d hd
      rcases List.mem_append.mp hd with hd | hd
      · exact hs d hd
      · obtain rfl := List.mem_singleton.mp hd
        exact hlast
  rw [hhead]
  cases approve with
  | false => exact iff_of_true (fun happrove => by cases happrove) trivial
  | true =>
    cases seen with
    | none => exact iff_of_true (fun _ m hm => by cases hm) trivial
    | some m =>
      obtain ⟨⟨ses, hses, hpeer⟩, hnone, -⟩ := h.pending id p hp
      obtain ⟨ses', hses', hpeer', -⟩ := hseen m rfl
      constructor
      · intro heq _
        have hsame : p.responder = m.session := heq rfl m rfl
        rw [← hsame]
        exact hnone
      · intro hin _ m' hm'
        obtain rfl := Option.some.inj hm'
        have hlate := hin (by rw [hp]; exact Option.some_ne_none p)
        -- neither is younger than the other
        exact le_antisymm (hlate p.responder ses hses hpeer) (hnone m.session ses' hses' hpeer')

/-- **One stretch.** -/
theorem straight_stretch_iff {t : JoinTask} (h : s.Inv C) (hs : s.Straight) (ht : s.At C t)
    (i : JoinInputs) : ((joins C).stretch s i t).1.Straight ↔ s.InTime t := by
  cases t with
  | join p =>
    refine iff_of_true ?_ trivial
    show (joinNext C s i p).1.Straight
    cases p with
    | registering ses | surfacing n ses | closed => exact hs
    | answering n resp =>
      cases n with
      | none => exact hs
      | some n => exact hs
    | _ =>
      unfold joinNext
      dsimp only
      split <;> exact hs
  | decide p =>
    show (decideNext s p).1.Straight ↔ _
    cases p with
    | called nodeIdHex approve saw =>
      refine iff_of_true ?_ trivial
      unfold decideNext
      dsimp only
      split <;> exact hs
    | taking id approve seen =>
      unfold decideNext
      dsimp only
      split
      · rename_i hnone
        refine iff_of_true hs ?_
        unfold InTime
        split
        · rename_i heq
          cases heq
          exact fun hsome => absurd hnone hsome
        · trivial
      · rename_i p hp
        exact straight_take_iff h hs hp ht
    | sending n approve | returned result => exact iff_of_true hs trivial

/-- **An approval admits the request that was shown**, in every state of a run, exactly when none
    is carried out behind a younger request of its device; and nothing is published that was not
    approved. -/
theorem approval_admits_shown_iff (C : Crates) (i : Inner)
    (l : List (Act JoinTask JoinInputs JoinOutside)) :
    (Throughout (joins C).step (fun w => w.shared.AdmitsWhatWasShown C) (listening i) l ↔
      EachStep (joins C).step NotOvertaken (listening i) l) ∧
    ∀ n o, (n, o) ∈ (run (joins C).step (listening i) l).shared.published →
      (run (joins C).step (listening i) l).shared.Approved C n o := by
  refine ⟨?_, fun n o => published_approved C i l⟩
  refine throughout_iff (J := fun w => w.Inv (Inv C) (At C)) (fun w a hw => inv_step hw a)
    (fun w a hw hs => ?_) (inv_listening i) (fun d hd => by cases hd)
  have hs' := hw.shared.admitsWhatWasShown_iff.mp hs
  rw [(inv_step hw a).shared.admitsWhatWasShown_iff]
  refine Program.step_shared_iff_of_mem (I := Straight) (Q := fun s _ t => s.InTime t) hs'
    (fun i t ht => straight_stretch_iff hw.shared hs' (hw.tasks t ht) i) (fun e => ?_) a
  cases e with
  | engine inner => exact hs'
  | disconnect => exact hs'

namespace Sample

open Nullgate.Sample

/-- The originator's device, with both codes out. -/
def approver : Inner where
  deviceKey := key 1
  myId := key 1
  config := some (stored (some (key 1)))
  doc := some (key 7)
  author := some (key 8)
  roster := { peerInvite := some (nonce 5, false), controllerInvite := some (nonce 6, true) }

/-- Handler `k` gets as far as the table. -/
def arrives (k : Nat) (sas : List String) (req : JoinRequest) :
    List (Act JoinTask JoinInputs JoinOutside) :=
  [.start (.join .accepting), .go k {}, .go k { verified := some ⟨key 3, sas⟩ },
    .go k { req := some req }, .go k {}, .go k {}]

/-- What the first event displays. -/
def shown : Emitted := ⟨.joinRequest hex3 "laptop" ["Dog", "Key"], 0⟩

/-- The device asks as a Peer and is surfaced. It asks again as a Controller, and gets into the
    table. The first request is approved. -/
def overtaken : List (Act JoinTask JoinInputs JoinOutside) :=
  arrives 0 ["Dog", "Key"] ⟨"laptop", .peer, nonce 5⟩ ++ [.go 0 {}] ++
    arrives 1 ["Cat", "Hat"] ⟨"server", .controller, nonce 6⟩ ++
    [.start (.decide (.called hex3 true true)), .go 2 {}, .go 2 {}, .go 2 {}] ++
    List.replicate 5 (.go 1 {})

/-- What has happened then. -/
def after : JoinHost := (run (joins .plain).step (listening approver) overtaken).shared

end Sample

/-- **A Peer's request is approved, and a Controller is admitted.** -/
theorem approval_overtaken :
    (Sample.after.decisions = [⟨Nullgate.Sample.key 3, true, some Sample.shown, 1⟩] ∧
      Sample.after.published.map (fun p => (p.1, p.2.op)) =
        [(1, .add (Nullgate.Sample.key 3) "server" .controller (10, 99, 0, 2)
          (Nullgate.Sample.nonce 6) 0)] ∧
      Sample.after.answers = [(some 1, .approved)]) ∧
    ¬ Throughout (joins .plain).step (fun w => w.shared.AdmitsWhatWasShown .plain)
      (listening Sample.approver) Sample.overtaken := by
  have hrun : Sample.after.decisions =
        [⟨Nullgate.Sample.key 3, true, some Sample.shown, 1⟩] ∧
      Sample.after.published.map (fun p => (p.1, p.2.op)) =
        [(1, .add (Nullgate.Sample.key 3) "server" .controller (10, 99, 0, 2)
          (Nullgate.Sample.nonce 6) 0)] ∧
      Sample.after.answers = [(some 1, .approved)] := by decide +kernel
  refine ⟨hrun, fun h => ?_⟩
  have hend : Sample.after.AdmitsWhatWasShown .plain := throughout_end h
  have hd : ⟨Nullgate.Sample.key 3, true, some Sample.shown, 1⟩ ∈ Sample.after.decisions := by
    rw [hrun.1]
    exact List.mem_singleton_self _
  have htook := (hend _ hd rfl Sample.shown rfl).answers
  cases htook

end JoinHost

end Nullgate
