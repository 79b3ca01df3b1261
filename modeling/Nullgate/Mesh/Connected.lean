/-
  File:      Nullgate/Mesh/Connected.lean
  Subject:   CONNECTED PEERS AND THE BACKOFF (`engine.rs`): two tables, and who writes them.

  `register_mesh` puts a connection into the one table and then removes the peer from the
  other, under two locks. Dials report their outcome whenever they end, a dial that times out
  inside of `register_mesh` too. Heartbeats, watchers, disconnects and traffic come at any time.

  * `Contacts`, `ContactTask`, `contacts` -- the two tables, and the tasks cut where another
    one can come in between;
  * `Unhindered`: a connected peer has no backoff entry, but for a registration on its way;
  * `connected_backoff_iff`: over every run, exactly when each failure is recorded while its
    peer is not connected, or while a registration of it has the reset still to come;
  * `connected_backed_off`: a dial that fails behind an inbound connection.
-/
import Nullgate.Lib.Tasks
import Nullgate.Mesh.Backoff
import Nullgate.Mesh.Register

namespace Nullgate

open Nullgate.Lib

/-! ## 1. The two tables -/

/-- **What one device keeps about its peers**: the connections, and the dials to hold back. -/
structure Contacts where
  mesh : Mesh := {}
  dialBackoff : DialBackoff := fun _ => none
  /-- `tick_notify` has been notified -/
  tickNotify : Bool := false

/-- What a stretch reads from outside. -/
structure ContactReads where
  now : UInt64 := 0
  /-- the connection that a dial ends with, or its error, once it has ended -/
  dialed : Option (Option Nat) := none
  /-- the member that a handshake has verified -/
  verified : Option Id := none

/-- **Where a task stands.** -/
inductive ContactTask where
  /-- the tick, before its snapshot of who is connected -/
  | tick (members : List Id)
  /-- behind it, before the dials -/
  | dialMissing (toDial : List Id)
  | dialing (peer : Id)
  /-- an accepted connection, before its handshake and the roster gate -/
  | incoming (id : Nat)
  /-- `register_mesh` between the two tables -/
  | registering (dialed : Bool) (peer : Id) (conn : Conn)
  /-- `register_mesh`, waiting for the state -/
  | recording (dialed : Bool) (peer : Id) (conn : Conn)
  /-- a dial that has ended, before its outcome is recorded -/
  | outcome (peer : Id) (success : Bool)
  | watching (peer : Id) (conn : Conn)
  /-- `soft_disconnect`, before the backoff is cleared, and before the connections are -/
  | disconnect
  | draining
  | done
  deriving DecidableEq

namespace Contacts

variable (myId : Id)

/-- `register_mesh` up to the backoff. A duplicate that loses ends it. -/
def register (s : Contacts) (dialed : Bool) (peer : Id) (conn : Conn) : Contacts × ContactTask :=
  let (mesh, verdict) := s.mesh.registerMesh myId peer conn
  ({ s with mesh },
    if verdict = .keepExisting then if dialed then .outcome peer true else .done
    else .registering dialed peer conn)

/-- The outcome of a dial. -/
def report (s : Contacts) (now : UInt64) (peer : Id) (success : Bool) : Contacts :=
  { s with
    dialBackoff :=
      if success then resetDialBackoff s.dialBackoff peer
      else recordDialFailure s.dialBackoff peer now }

/-- The members to dial. -/
def missing (s : Contacts) (members : List Id) : List Id :=
  members.filter fun id => id ≠ myId ∧ s.mesh.conns[id]? = none

/-- The close watcher. -/
def watch (s : Contacts) (peer : Id) (conn : Conn) : Contacts × ContactTask :=
  if s.mesh.isClosed conn then ({ s with mesh := (s.mesh.evict peer conn).1 }, .done)
  else (s, .watching peer conn)

/-- **What a task does next.** -/
def stretch (s : Contacts) (r : ContactReads) :
    ContactTask → Contacts × ContactTask × List ContactTask
  | .tick members => (s, .dialMissing (s.missing myId members), [])
  | .dialMissing toDial =>
    (s, .done, (dialBackoffFilter toDial s.dialBackoff r.now).map .dialing)
  | .dialing peer =>
    match r.dialed with
    | none => (s, .dialing peer, [])
    | some none => (s, .outcome peer false, [])
    | some (some id) =>
      let (s, t) := s.register myId true peer ⟨id, .client⟩
      (s, t, [])
  | .incoming id =>
    match r.verified with
    | none => (s, .done, [])
    | some peer =>
      let (s, t) := s.register myId false peer ⟨id, .server⟩
      (s, t, [])
  | .registering dialed peer conn =>
    ({ s with dialBackoff := resetDialBackoff s.dialBackoff peer }, .recording dialed peer conn, [])
  | .recording dialed peer conn =>
    (s, if dialed then .outcome peer true else .done, [.watching peer conn])
  | .outcome peer success => (s.report r.now peer success, .done, [])
  | .watching peer conn =>
    let (s, t) := s.watch peer conn
    (s, t, [])
  | .disconnect => ({ s with dialBackoff := fun _ => none }, .draining, [])
  | .draining => ({ s with mesh := s.mesh.drain }, .done, [])
  | .done => (s, .done, [])

/-- A sign of life of `peer`: it is not held back any more, and the tick is woken if it was. -/
def heartbeat (s : Contacts) (peer : Id) : Contacts :=
  { s with
    dialBackoff := resetDialBackoff s.dialBackoff peer
    tickNotify := s.tickNotify || (s.dialBackoff peer).isSome }

/-- Traffic for a peer without a connection. -/
def kick (s : Contacts) (peer : Id) : Contacts :=
  if s.mesh.conns[peer]? = none then
    { s with dialBackoff := resetDialBackoff s.dialBackoff peer, tickNotify := true }
  else s

end Contacts

/-- What happens outside of these tasks. -/
inductive ContactEvent where
  /-- a connection is closed by the peer, or lost -/
  | closed (id : Nat)
  | heartbeat (peer : Id)
  | kick (peer : Id)
  | networkChanged
  /-- the tick takes out the connection of a peer that is no member -/
  | sweep (peer : Id) (conn : Conn)
  /-- the tick takes its notification -/
  | woken

namespace Contacts

def event (s : Contacts) : ContactEvent → Contacts
  | .closed id => { s with mesh := { s.mesh with closed := id :: s.mesh.closed } }
  | .heartbeat peer => s.heartbeat peer
  | .kick peer => s.kick peer
  | .networkChanged =>
    { s with dialBackoff := expireDialBackoff s.dialBackoff, tickNotify := true }
  | .sweep peer conn => { s with mesh := s.mesh.sweepOne peer conn }
  | .woken => { s with tickNotify := false }

end Contacts

namespace ContactTask

def starts : ContactTask → Bool
  | tick _ | incoming _ | disconnect => true
  | _ => false

/-- A dial that times out, at its handshake or where `register_mesh` waits for the state, has
    failed. A tick is dropped by a disconnect. -/
def timeout : ContactTask → Option ContactTask
  | dialing peer | recording true peer _ => some (outcome peer false)
  | tick _ | dialMissing _ => some done
  | _ => none

/-- `register_mesh` for `p`, between the two tables. -/
def registers (p : Id) : ContactTask → Bool
  | registering _ peer _ => peer = p
  | _ => false

/-- `register_mesh` between the two tables. -/
def midway : ContactTask → Bool
  | registering _ _ _ => true
  | _ => false

/-- The failure the task records next. -/
def failure : ContactTask → Option Id
  | outcome peer false => some peer
  | _ => none

end ContactTask

/-- **The tasks of one device** that write the two tables. -/
def contacts (myId : Id) : Program Contacts ContactTask ContactReads ContactEvent where
  stretch := Contacts.stretch myId
  starts := ContactTask.starts
  drop := ContactTask.timeout
  env := Contacts.event

/-! ## 2. One step -/

/-- `p` has no backoff entry if it is connected, and no task registers it. -/
def ClearFor (p : Id) (w : World Contacts ContactTask) : Prop :=
  (w.shared.mesh.conns[p]?).isSome = true → (∀ t ∈ w.tasks, t.registers p = false) →
    w.shared.dialBackoff p = none

/-- **A connected peer has no backoff entry**, but for a registration between the two tables. -/
def Unhindered (w : World Contacts ContactTask) : Prop := ∀ p, ClearFor p w

/-- A failure that is recorded is one of a peer that is not connected, or that a task is about
    to reset. -/
def FailsApart (w : World Contacts ContactTask) : Act ContactTask ContactReads ContactEvent → Prop
  | .go k _ => ∀ p ∈ w.tasks[k]?.bind ContactTask.failure,
      w.shared.mesh.conns[p]? = none ∨ ∃ t ∈ w.tasks, t.registers p = true
  | _ => True

instance decidableFailsApart (w : World Contacts ContactTask) : ∀ act, Decidable (FailsApart w act)
  | .go k _ => inferInstanceAs (Decidable (∀ p ∈ w.tasks[k]?.bind ContactTask.failure, _ ∨ _))
  | .start _ => isTrue trivial
  | .drop _ => isTrue trivial
  | .env _ => isTrue trivial

variable {myId p q : Id} {w w' : World Contacts ContactTask} {s : Contacts} {t t' : ContactTask}
  {k : Nat} {r : ContactReads}

theorem reset_eq_none (backoff : DialBackoff) (h : backoff p = none) :
    resetDialBackoff backoff q p = none := by
  unfold resetDialBackoff
  by_cases hpq : p = q
  · subst hpq
    exact Function.update_self ..
  · rwa [Function.update_of_ne hpq]

theorem reset_self (backoff : DialBackoff) (p : Id) : resetDialBackoff backoff p p = none :=
  Function.update_self ..

/-- A step that connects nobody, records no failure and ends no registration keeps it. -/
theorem ClearFor.mono (h : ClearFor p w)
    (hconns : (w'.shared.mesh.conns[p]?).isSome = true → (w.shared.mesh.conns[p]?).isSome = true)
    (hbackoff : w.shared.dialBackoff p = none → w'.shared.dialBackoff p = none)
    (htasks : (∀ t ∈ w'.tasks, t.registers p = false) → ∀ t ∈ w.tasks, t.registers p = false) :
    ClearFor p w' := fun hc ht => hbackoff (h (hconns hc) (htasks ht))

/-- Who does not register `p` behind a stretch did not before, if the task that ran did not. -/
theorem quiet_before {l spawned : List ContactTask} (hk : l[k]? = some t)
    (ht : t.registers p = false) (h : ∀ t'' ∈ l.set k t' ++ spawned, t''.registers p = false) :
    ∀ t'' ∈ l, t''.registers p = false := by
  intro t'' ht''
  rcases (mem_iff_eraseIdx hk).mp ht'' with rfl | hmem
  · exact ht
  · exact h t'' ((mem_stretch_iff hk).mpr (Or.inr (Or.inl hmem)))

/-- A registration that wins stands between the tables; one that loses has changed neither. -/
theorem clearFor_register (h : ClearFor p w) (hk : w.tasks[k]? = some t)
    (ht : t.registers p = false) (dialed : Bool) (q : Id) (conn : Conn) :
    ClearFor p ⟨(w.shared.register myId dialed q conn).1,
      w.tasks.set k (w.shared.register myId dialed q conn).2 ++ []⟩ := by
  by_cases hv : (w.shared.mesh.registerMesh myId q conn).2 = .keepExisting
  · refine h.mono (fun hc => ?_) id (quiet_before hk ht)
    simpa [Contacts.register, Mesh.registerMesh_loser hv] using hc
  · have hnext : (w.shared.register myId dialed q conn).2 = .registering dialed q conn :=
      if_neg hv
    by_cases hpq : q = p
    · -- the task itself registers `p` now
      subst hpq
      intro _ hquiet
      have hself := hquiet _ ((mem_stretch_iff hk).mpr (Or.inl rfl))
      rw [hnext] at hself
      simp [ContactTask.registers] at hself
    · refine h.mono (fun hc => ?_) id (quiet_before hk ht)
      have hconns : (w.shared.mesh.registerMesh myId q conn).1.conns[p]? =
          w.shared.mesh.conns[p]? := Mesh.registerMesh_conns_of_ne hpq
      rw [← hconns]
      exact hc

theorem isSome_evict (m : Mesh) (q : Id) (c : Conn)
    (h : ((m.evict q c).1.conns[p]?).isSome = true) : (m.conns[p]?).isSome = true := by
  obtain ⟨d, hd⟩ := Option.isSome_iff_exists.mp h
  exact Option.isSome_iff_exists.mpr ⟨d, Mesh.evict_entry hd⟩

/-- **Every stretch but the record of a failure keeps it.** -/
theorem clearFor_stretch (h : ClearFor p w) (hk : w.tasks[k]? = some t)
    (ht : t.failure ≠ some p) :
    ClearFor p ⟨(Contacts.stretch myId w.shared r t).1,
      w.tasks.set k (Contacts.stretch myId w.shared r t).2.1 ++
        (Contacts.stretch myId w.shared r t).2.2⟩ := by
  cases t with
  | tick members => exact h.mono id id (quiet_before hk rfl)
  | dialMissing toDial => exact h.mono id id (quiet_before hk rfl)
  | dialing peer =>
    unfold Contacts.stretch
    cases r.dialed with
    | none => exact h.mono id id (quiet_before hk rfl)
    | some outcome =>
      cases outcome with
      | none => exact h.mono id id (quiet_before hk rfl)
      | some id => exact clearFor_register h hk rfl true peer _
  | incoming id =>
    unfold Contacts.stretch
    cases r.verified with
    | none => exact h.mono (fun hc => hc) (fun hb => hb) (quiet_before hk rfl)
    | some peer => exact clearFor_register h hk rfl false peer _
  | registering dialed peer conn =>
    by_cases hp : peer = p
    · subst hp
      exact fun _ _ => reset_self w.shared.dialBackoff peer
    · exact h.mono id (reset_eq_none _)
        (quiet_before hk (by simpa [ContactTask.registers] using hp))
  | recording dialed peer conn => exact h.mono id id (quiet_before hk rfl)
  | outcome peer success =>
    refine h.mono id (fun hb => ?_) (quiet_before hk rfl)
    cases success with
    | true => exact reset_eq_none _ hb
    | false =>
      have hp : p ≠ peer := fun hp => ht (by rw [ContactTask.failure, hp])
      exact (Function.update_of_ne hp ..).trans hb
  | watching peer conn =>
    unfold Contacts.stretch
    dsimp only
    unfold Contacts.watch
    split
    · exact h.mono (isSome_evict _ _ _) id (quiet_before hk rfl)
    · exact h.mono id id (quiet_before hk rfl)
  | disconnect => exact fun _ _ => rfl
  | draining =>
    intro hc
    rw [show (Contacts.stretch myId w.shared r .draining).1.mesh = w.shared.mesh.drain from rfl,
      Mesh.conns_drain] at hc
    cases hc
  | done => exact h.mono id id (quiet_before hk rfl)

variable (myId) in
/-- **The record of a failure keeps it exactly when the peer is not connected, or a reset of it
    is still to come.** -/
theorem clearFor_failure_iff (hk : w.tasks[k]? = some (.outcome p false)) :
    ClearFor p ⟨(Contacts.stretch myId w.shared r (.outcome p false)).1,
      w.tasks.set k (Contacts.stretch myId w.shared r (.outcome p false)).2.1 ++
        (Contacts.stretch myId w.shared r (.outcome p false)).2.2⟩ ↔
      w.shared.mesh.conns[p]? = none ∨ ∃ t ∈ w.tasks, t.registers p = true := by
  constructor
  · intro h
    by_contra hno
    obtain ⟨hconn, hnone⟩ := not_or.mp hno
    have hentry := h (Option.isSome_iff_ne_none.mpr hconn) fun t ht => by
      rcases (mem_stretch_iff hk).mp ht with rfl | hmem | hmem
      · rfl
      · by_contra hreg
        exact hnone ⟨t, List.mem_of_mem_eraseIdx hmem, by simpa using hreg⟩
      · cases hmem
    have hself : recordDialFailure w.shared.dialBackoff p r.now p ≠ none := by
      simp [recordDialFailure]
    exact hself hentry
  · intro h hconn hquiet
    rcases h with hnone | ⟨t, ht, hreg⟩
    · have hsome : (w.shared.mesh.conns[p]?).isSome = true := hconn
      rw [hnone] at hsome
      cases hsome
    · rw [quiet_before hk rfl hquiet t ht] at hreg
      cases hreg

theorem clearFor_event (h : ClearFor p w) (e : ContactEvent) :
    ClearFor p ⟨w.shared.event e, w.tasks⟩ := by
  cases e with
  | closed conn => exact h.mono id id id
  | heartbeat peer => exact h.mono id (reset_eq_none _) id
  | kick peer =>
    unfold Contacts.event
    dsimp only
    unfold Contacts.kick
    split
    · exact h.mono id (reset_eq_none _) id
    · exact h.mono id id id
  | networkChanged =>
    refine h.mono id (fun hb => ?_) id
    show (w.shared.dialBackoff p).map _ = none
    rw [hb]
    rfl
  | sweep peer conn =>
    refine h.mono (fun hc => ?_) id id
    have hc' : (((w.shared.mesh.close conn).remove peer).conns[p]?).isSome = true := hc
    rw [Mesh.conns_remove] at hc'
    split at hc'
    · cases hc'
    · exact hc'
  | woken => exact h.mono id id id

theorem not_registers_of_timeout (h : t.timeout = some t') :
    t.registers p = false ∧ t'.registers p = false := by
  unfold ContactTask.timeout at h
  split at h
  · rw [← Option.some.inj h]
    exact ⟨rfl, rfl⟩
  · rw [← Option.some.inj h]
    exact ⟨rfl, rfl⟩
  · rw [← Option.some.inj h]
    exact ⟨rfl, rfl⟩
  · rw [← Option.some.inj h]
    exact ⟨rfl, rfl⟩
  · cases h

theorem ContactTask.failure_eq (h : t.failure = some p) : t = .outcome p false := by
  unfold failure at h
  split at h
  · rw [Option.some.inj h]
  · cases h

/-- **One step keeps it exactly under the condition.** -/
theorem unhindered_step_iff (h : Unhindered w) (act : Act ContactTask ContactReads ContactEvent) :
    Unhindered ((contacts myId).step w act) ↔ FailsApart w act := by
  refine Program.step_iff h (fun hidle => ?_) (fun k r t hact hk => ?_) (fun t _ _ p => ?_)
    (fun k t t' _ hk hd p => ?_) fun e _ p => clearFor_event (h p) e
  · cases act with
    | go k r =>
      intro p hp
      rw [hidle k r rfl] at hp
      cases hp
    | _ => trivial
  · subst hact
    constructor
    · intro h' p hp
      rw [hk] at hp
      obtain rfl := ContactTask.failure_eq hp
      exact (clearFor_failure_iff myId hk).mp (h' p)
    · intro hQ p
      by_cases hfail : t.failure = some p
      · obtain rfl := ContactTask.failure_eq hfail
        exact (clearFor_failure_iff myId hk).mpr (hQ p (by rw [hk]; rfl))
      · exact clearFor_stretch (h p) hk hfail
  · exact (h p).mono id id fun hquiet t' ht' => hquiet t' (List.mem_append_left _ ht')
  · refine (h p).mono id id fun hquiet => ?_
    rw [← List.append_nil (w.tasks.set k t')] at hquiet
    exact quiet_before hk (not_registers_of_timeout hd).1 hquiet

/-! ## 3. Every run -/

/-- No registration is between the two tables. -/
def NoneMidway (w : World Contacts ContactTask) : Prop := ∀ t ∈ w.tasks, t.midway = false

instance decidableNoneMidway (w : World Contacts ContactTask) : Decidable (NoneMidway w) :=
  inferInstanceAs (Decidable (∀ t ∈ w.tasks, _ = _))

theorem not_registers_of_not_midway (h : t.midway = false) : t.registers p = false := by
  cases t with
  | registering dialed peer conn => cases h
  | _ => rfl

/-- **Connected peers and the backoff**, over every run. (1) In every state a connected peer
    that no task registers has no backoff entry, exactly when each failure is recorded while its
    peer is not connected, or while a registration of it has the reset still to come. In such a
    run (2) a connected peer has no entry in any state without a registration midway, and (3)
    there a heartbeat of a connected peer does not wake the tick. -/
theorem connected_backoff_iff (myId : Id)
    (acts : List (Act ContactTask ContactReads ContactEvent)) :
    (Throughout (contacts myId).step Unhindered ⟨{}, []⟩ acts ↔
      EachStep (contacts myId).step FailsApart ⟨{}, []⟩ acts) ∧
    (EachStep (contacts myId).step FailsApart ⟨{}, []⟩ acts → ∀ pre post, acts = pre ++ post →
      NoneMidway (run (contacts myId).step ⟨{}, []⟩ pre) →
      ∀ p, ((run (contacts myId).step ⟨{}, []⟩ pre).shared.mesh.conns[p]?).isSome = true →
        (run (contacts myId).step ⟨{}, []⟩ pre).shared.dialBackoff p = none ∧
        ((run (contacts myId).step ⟨{}, []⟩ pre).shared.heartbeat p).tickNotify =
          (run (contacts myId).step ⟨{}, []⟩ pre).shared.tickNotify) := by
  have hstart : Unhindered ⟨{}, []⟩ := fun p _ _ => rfl
  have hiff : Throughout (contacts myId).step Unhindered ⟨{}, []⟩ acts ↔
      EachStep (contacts myId).step FailsApart ⟨{}, []⟩ acts :=
    throughout_iff (J := fun _ => True) (fun _ _ _ => trivial)
      (fun _ act _ h => unhindered_step_iff h act) trivial hstart
  refine ⟨hiff, fun hD pre post hacts hmid p hp => ?_⟩
  have hnone := hiff.mpr hD pre post hacts p hp fun t ht =>
    not_registers_of_not_midway (hmid t ht)
  refine ⟨hnone, ?_⟩
  unfold Contacts.heartbeat
  rw [hnone]
  exact Bool.or_false _

/-! ## 4. A dial that fails behind an inbound connection -/

namespace Sample

/-- The tick dials 5, at place 1. Device 5 connects before the dial ends, and it fails. -/
def crossing : List (Act ContactTask ContactReads ContactEvent) :=
  [.start (.tick [key 5]), .go 0 {}, .go 0 {}, .start (.incoming 7),
    .go 2 { verified := some (key 5) }, .go 2 {}, .go 2 {}, .go 1 { dialed := some none }, .go 1 {}]

end Sample

/-- **A connected peer with a backoff entry.** -/
theorem connected_backed_off :
    ¬ ∀ acts pre post, acts = pre ++ post →
      NoneMidway (run (contacts (Sample.key 2)).step ⟨{}, []⟩ pre) →
      ∀ p, ((run (contacts (Sample.key 2)).step ⟨{}, []⟩ pre).shared.mesh.conns[p]?).isSome = true →
        (run (contacts (Sample.key 2)).step ⟨{}, []⟩ pre).shared.dialBackoff p = none := by
  intro h
  have hnone := h Sample.crossing Sample.crossing [] (List.append_nil _).symm (by decide +kernel)
    (Sample.key 5) (by decide +kernel)
  revert hnone
  decide +kernel

end Nullgate
