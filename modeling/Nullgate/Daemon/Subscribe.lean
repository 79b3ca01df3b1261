/-
  File:      Nullgate/Daemon/Subscribe.lean
  Subject:   A SUBSCRIBER OF THE DAEMON (`main.rs`): which engine events reach it.

  On `Subscribe` the handler takes a status, sends it, subscribes to the engine's events and
  forwards them: join events as they come, a status once it has been quiet for a while. Events
  fire at any moment, and the channel keeps the last 64.

  * `Subscription.turn`: what the handler does next; `Subscription.step`: the same with events
    and broken connections in between;
  * `Subscription.Owed`: were nothing else to fire, the handler would push what covers every
    event behind the first status;
  * **`subscriber_misses_nothing_iff`**: this holds throughout a run exactly when no event fires
    between the first status and the subscription;
  * `event_missed`: one that does is never pushed.
-/
import Nullgate.Lib.Broadcast
import Nullgate.Lib.Schedule

namespace Nullgate

open Nullgate.Lib

/-! ## 1. Events and pushes -/

inductive EngineEvent where
  | changed
  | joinSas (sas : List String)
  | joinRequest (nodeId hostname : String) (sas : List String)
  | tunSetupRequired (ip : String) (mtu : UInt32)
  | tunTeardownRequired
  deriving DecidableEq

/-- What is pushed to a client. A status is told by the number of events that had fired when it
    was taken. -/
inductive IpcEvent where
  | status (taken : Nat)
  | joinSas (sas : List String)
  | joinRequest (nodeId hostname : String) (sas : List String)
  deriving DecidableEq

/-- What a join event is forwarded as; the others say that the status is stale. -/
def EngineEvent.forward : EngineEvent → Option IpcEvent
  | .joinSas sas => some (.joinSas sas)
  | .joinRequest nodeId hostname sas => some (.joinRequest nodeId hostname sas)
  | .changed | .tunSetupRequired _ _ | .tunTeardownRequired => none

/-- A push that forwards a join event. -/
def IpcEvent.join? : IpcEvent → Option IpcEvent
  | .status _ => none
  | .joinSas sas => some (.joinSas sas)
  | .joinRequest nodeId hostname sas => some (.joinRequest nodeId hostname sas)

/-- `broadcast::channel(64)`. -/
def CHANNEL_CAPACITY : Nat := 64

/-! ## 2. The handler -/

/-- Where `subscribe_loop` waits. -/
inductive LoopPoint where
  /-- for an event, or for the quiet window to elapse while a status is pending -/
  | receiving
  /-- for the engine's state, to take a status -/
  | flushing
  | pushing (taken : Nat)
  | forwarding (ipc : IpcEvent)
  deriving DecidableEq

/-- Where the handler of a `Subscribe` request is. -/
inductive Handler where
  /-- it waits for the engine's state, to take the first status -/
  | request
  | writing (taken : Nat)
  /-- the first status is sent -/
  | written
  | loop (ev : Receiver EngineEvent) (pendingStatus : Bool) (p : LoopPoint)
  /-- the connection broke -/
  | ended

namespace Handler

/-- The handler hears an event, once it has subscribed. -/
def hear (e : EngineEvent) : Handler → Handler
  | .loop ev pendingStatus p => .loop (ev.send CHANNEL_CAPACITY e) pendingStatus p
  | h => h

/-- The values an event pushes out of the handler's receiver. -/
def dropped : Handler → List EngineEvent
  | .loop ev _ _ => ev.dropped CHANNEL_CAPACITY
  | _ => []

/-- **Between the first status and the subscription.** -/
def deaf : Handler → Bool
  | .writing _ | .written => true
  | _ => false

/-- Whether the handler is writing to the client. -/
def writes : Handler → Bool
  | .writing _ | .loop _ _ (.pushing _) | .loop _ _ (.forwarding _) => true
  | _ => false

end Handler

structure Subscription where
  /-- every event the engine has sent -/
  fired : List EngineEvent
  /-- the number of events that had fired when the first status was taken -/
  first : Option Nat := none
  handler : Handler := .request
  pushes : List IpcEvent := []

namespace Subscription

variable (s : Subscription)

/-- What the handler does next, as far as it depends on itself. While it receives, an event that
    is there comes first; a status that is pending goes out once there is none. -/
def turn : Subscription :=
  match s.handler with
  | .request => { s with first := some s.fired.length, handler := .writing s.fired.length }
  | .writing taken => { s with handler := .written, pushes := s.pushes ++ [.status taken] }
  | .written => { s with handler := .loop {} false .receiving }
  | .loop ev pendingStatus .receiving =>
    match ev.recv with
    | some (.lagged, ev) => { s with handler := .loop ev true .receiving }
    | some (.value e, ev) =>
      match e.forward with
      | some ipc => { s with handler := .loop ev pendingStatus (.forwarding ipc) }
      | none => { s with handler := .loop ev true .receiving }
    | none => if pendingStatus then { s with handler := .loop ev false .flushing } else s
  | .loop ev pendingStatus .flushing =>
    { s with handler := .loop ev pendingStatus (.pushing s.fired.length) }
  | .loop ev pendingStatus (.pushing taken) =>
    { s with
      handler := .loop ev pendingStatus .receiving
      pushes := s.pushes ++ [.status taken] }
  | .loop ev pendingStatus (.forwarding ipc) =>
    { s with handler := .loop ev pendingStatus .receiving, pushes := s.pushes ++ [ipc] }
  | .ended => s

/-- What happens to a subscription. -/
inductive Happening where
  | fire (e : EngineEvent)
  | turn
  /-- a write to the client fails -/
  | hangUp

def step : Happening → Subscription
  | .fire e => { s with fired := s.fired ++ [e], handler := s.handler.hear e }
  | .turn => s.turn
  | .hangUp => if s.handler.writes then { s with handler := .ended } else s

/-- A `Subscribe` request comes in, whatever has fired before. -/
def start (before : List EngineEvent) : Subscription := { fired := before }

/-! ## 3. What is covered -/

/-- The join events behind the first status, as they are to be forwarded. -/
def joins : List IpcEvent :=
  match s.first with
  | none => []
  | some n => (s.fired.drop n).filterMap EngineEvent.forward

/-- A status pushed was taken behind event `k`. -/
def StatusSent (k : Nat) : Prop := ∃ taken, IpcEvent.status taken ∈ s.pushes ∧ k < taken

/-- **Everything behind the first status is covered**: each join event is pushed, in its order and
    as often as it fired, and for any other event there is a status taken later. -/
structure Covered : Prop where
  joins : s.pushes.filterMap IpcEvent.join? = s.joins
  stale : ∀ n, s.first = some n → ∀ k e, n ≤ k → s.fired[k]? = some e → e.forward = none →
    s.StatusSent k

/-- **A later push covers every event**: if nothing else fires, the handler by itself gets there,
    unless the connection broke. -/
def Owed : Prop := s.handler = .ended ∨ ∃ n, (turn^[n] s).Covered

/-- No join event is pushed out of the channel. -/
def NoJoinLost : Happening → Prop
  | .fire _ => ∀ e ∈ s.handler.dropped, e.forward = none
  | _ => True

/-- **No event fires between the first status and the subscription.** -/
def NotDeaf : Happening → Prop
  | .fire _ => s.handler.deaf = false
  | _ => True

instance decidableNoJoinLost : ∀ h, Decidable (s.NoJoinLost h)
  | .fire _ => inferInstanceAs (Decidable (∀ e ∈ s.handler.dropped, e.forward = none))
  | .turn => isTrue trivial
  | .hangUp => isTrue trivial

instance decidableNotDeaf : ∀ h, Decidable (s.NotDeaf h)
  | .fire _ => inferInstanceAs (Decidable (s.handler.deaf = false))
  | .turn => isTrue trivial
  | .hangUp => isTrue trivial

/-! ## 4. The handler by itself -/

variable {s} {e : EngineEvent} {ev : Receiver EngineEvent} {pendingStatus : Bool}
  {p : LoopPoint}

/-- What the handler does while it receives. -/
theorem turn_receiving (hs : s.handler = .loop ev pendingStatus .receiving) :
    (ev.queue = [] ∧ ev.lagged = false ∧ pendingStatus = false ∧ s.turn = s) ∨
      (ev.queue = [] ∧ ev.lagged = false ∧ pendingStatus = true ∧
        s.turn = { s with handler := .loop ev false .flushing }) ∨
      (ev.lagged = true ∧
        s.turn = { s with handler := .loop { ev with lagged := false } true .receiving }) ∨
      (∃ e queue ipc, ev.lagged = false ∧ ev.queue = e :: queue ∧ e.forward = some ipc ∧
        s.turn = { s with
          handler := .loop { ev with queue } pendingStatus (.forwarding ipc) }) ∨
      ∃ e queue, ev.lagged = false ∧ ev.queue = e :: queue ∧ e.forward = none ∧
        s.turn = { s with handler := .loop { ev with queue } true .receiving } := by
  rcases ev.recv_cases with ⟨hq, hl, hr⟩ | ⟨hl, hr⟩ | ⟨e, queue, hl, hq, hr⟩
  · cases pendingStatus with
    | false => exact Or.inl ⟨hq, hl, rfl, by simp only [turn, hs, hr]; rfl⟩
    | true => exact Or.inr (Or.inl ⟨hq, hl, rfl, by simp only [turn, hs, hr]; rfl⟩)
  · exact Or.inr (Or.inr (Or.inl ⟨hl, by simp only [turn, hs, hr]⟩))
  · cases hf : e.forward with
    | some ipc =>
      exact Or.inr (Or.inr (Or.inr (Or.inl
        ⟨e, queue, ipc, hl, hq, hf, by simp only [turn, hs, hr, hf]⟩)))
    | none =>
      exact Or.inr (Or.inr (Or.inr (Or.inr
        ⟨e, queue, hl, hq, hf, by simp only [turn, hs, hr, hf]⟩)))

/-- **The loop does not end by itself.** -/
theorem turn_loop (hs : s.handler = .loop ev pendingStatus p) :
    ∃ ev' pendingStatus' p', s.turn.handler = .loop ev' pendingStatus' p' := by
  cases p with
  | receiving =>
    rcases turn_receiving hs with ⟨-, -, -, ht⟩ | ⟨-, -, -, ht⟩ | ⟨-, ht⟩ |
      ⟨_, _, _, -, -, -, ht⟩ | ⟨_, _, -, -, -, ht⟩
    · exact ⟨_, _, _, by rw [ht, hs]⟩
    all_goals exact ⟨_, _, _, by rw [ht]⟩
  | flushing => exact ⟨_, _, _, by rw [turn, hs]⟩
  | pushing taken => exact ⟨_, _, _, by rw [turn, hs]⟩
  | forwarding ipc => exact ⟨_, _, _, by rw [turn, hs]⟩

/-- What is left of an iteration of the loop. -/
def pointRank : LoopPoint → Nat
  | .receiving => 0
  | .flushing => 3
  | .pushing _ => 2
  | .forwarding _ => 1

/-- What each turn uses up some of. -/
def rank : Handler → Nat
  | .request => 3
  | .writing _ => 2
  | .written => 1
  | .loop ev pendingStatus p =>
    6 * ev.queue.length + (if ev.lagged then 6 else 0) + (if pendingStatus then 4 else 0) +
      pointRank p
  | .ended => 0

/-- **The handler waits, or has less to do.** -/
theorem turn_rank (s : Subscription) : s.turn = s ∨ rank s.turn.handler < rank s.handler := by
  cases hs : s.handler with
  | request => exact Or.inr (by simp only [turn, hs, rank]; omega)
  | writing taken => exact Or.inr (by simp only [turn, hs, rank]; omega)
  | written => exact Or.inr (by simp [turn, hs, rank, pointRank])
  | ended => exact Or.inl (by rw [turn, hs])
  | loop ev pendingStatus p =>
    cases p with
    | receiving =>
      rcases turn_receiving hs with ⟨-, -, -, h⟩ | ⟨-, -, hp, h⟩ | ⟨hl, h⟩ |
        ⟨e, queue, ipc, hl, hq, -, h⟩ | ⟨e, queue, hl, hq, -, h⟩
      · exact Or.inl h
      · right
        rw [h]
        simp [rank, pointRank, hp]
      · right
        rw [h]
        simp only [rank, pointRank, hl, if_true, Bool.false_eq_true, if_false]
        split <;> omega
      · right
        rw [h]
        simp only [rank, pointRank, hq, List.length_cons]
        omega
      · right
        rw [h]
        simp only [rank, pointRank, hq, List.length_cons, if_true]
        split <;> split <;> omega
    | flushing => exact Or.inr (by simp only [turn, hs, rank, pointRank]; omega)
    | pushing taken => exact Or.inr (by simp only [turn, hs, rank, pointRank]; omega)
    | forwarding ipc => exact Or.inr (by simp only [turn, hs, rank, pointRank]; omega)

/-! ## 5. On its way -/

/-- The join event under way to the client. -/
def underway : LoopPoint → List IpcEvent
  | .forwarding ipc => [ipc]
  | _ => []

@[simp] theorem underway_receiving : underway .receiving = [] := rfl

/-- A status is still to be pushed that is taken behind event `k`. -/
def StatusDue (k : Nat) (ev : Receiver EngineEvent) (pendingStatus : Bool) (p : LoopPoint) : Prop :=
  pendingStatus = true ∨ ev.lagged = true ∨ p = .flushing ∨
    (∃ taken, p = .pushing taken ∧ k < taken) ∨ ∃ e ∈ ev.queue, e.forward = none

/-- **Nothing is lost in the loop**: what fired behind the first status is pushed or on its way. -/
structure Tracked (s : Subscription) (ev : Receiver EngineEvent) (pendingStatus : Bool)
    (p : LoopPoint) : Prop where
  started : ∃ n ≤ s.fired.length, s.first = some n
  joins : s.joins = s.pushes.filterMap IpcEvent.join? ++ underway p ++
    ev.queue.filterMap EngineEvent.forward
  forwards : ∀ ipc, p = .forwarding ipc → ipc.join? = some ipc
  stale : ∀ n, s.first = some n → ∀ k e, n ≤ k → s.fired[k]? = some e → e.forward = none →
    StatusSent s k ∨ StatusDue k ev pendingStatus p

/-- What holds at each point of the handler. -/
def AtPoint (s : Subscription) : Prop :=
  match s.handler with
  | .request => s.first = none ∧ s.pushes = []
  | .writing taken => taken = s.fired.length ∧ s.first = some taken ∧ s.pushes = []
  | .written => s.first = some s.fired.length ∧ s.pushes = [.status s.fired.length]
  | .loop ev pendingStatus p => Tracked s ev pendingStatus p
  | .ended => True

theorem joins_eq {n : Nat} (h : s.first = some n) :
    s.joins = (s.fired.drop n).filterMap EngineEvent.forward := by
  rw [joins, h]

theorem join?_of_forward {ipc : IpcEvent} (h : e.forward = some ipc) : ipc.join? = some ipc := by
  cases e <;> cases h <;> rfl

theorem StatusSent.push {k : Nat} (h : s.StatusSent k) {handler : Handler} {ipc : IpcEvent} :
    StatusSent { s with handler, pushes := s.pushes ++ [ipc] } k := by
  obtain ⟨taken, hmem, hlt⟩ := h
  exact ⟨taken, List.mem_append_left _ hmem, hlt⟩

/-- The handler goes on without a push: what was due still is. -/
theorem Tracked.goesOn (h : Tracked s ev pendingStatus p) {ev' : Receiver EngineEvent}
    {pendingStatus' : Bool} {p' : LoopPoint}
    (hjoins : underway p' ++ ev'.queue.filterMap EngineEvent.forward =
      underway p ++ ev.queue.filterMap EngineEvent.forward)
    (hforwards : ∀ ipc, p' = .forwarding ipc → ipc.join? = some ipc)
    (hstale : ∀ k < s.fired.length, StatusDue k ev pendingStatus p →
      StatusDue k ev' pendingStatus' p') :
    AtPoint { s with handler := .loop ev' pendingStatus' p' } where
  started := h.started
  joins := by
    rw [List.append_assoc, hjoins, ← List.append_assoc]
    exact h.joins
  forwards := hforwards
  stale n hn k e hk he hf :=
    (h.stale n hn k e hk he hf).imp_right
      (hstale k (List.getElem?_eq_some_iff.mp he).1)

/-- What was on its way is pushed, and the loop is back at its start. -/
theorem Tracked.pushed (h : Tracked s ev pendingStatus p) {ipc : IpcEvent}
    (hway : ipc.join?.toList = underway p) (hflush : p ≠ .flushing)
    (hstatus : ∀ taken, p = .pushing taken → ipc = .status taken) :
    AtPoint { s with
      handler := .loop ev pendingStatus .receiving
      pushes := s.pushes ++ [ipc] } := by
  refine ⟨h.started, ?_, fun ipc' hipc => (by cases hipc), fun n hn k e hk he hf => ?_⟩
  · have hone : [ipc].filterMap IpcEvent.join? = underway p := by
      rw [← hway]
      cases hj : ipc.join? <;> simp [hj]
    show s.joins = _
    rw [h.joins, List.filterMap_append, hone, underway_receiving, List.append_nil]
  · rcases h.stale n hn k e hk he hf with hsent | hp | hl | hp | ⟨taken, hp, hlt⟩ | hq
    · exact Or.inl hsent.push
    · exact Or.inr (Or.inl hp)
    · exact Or.inr (Or.inr (Or.inl hl))
    · exact absurd hp hflush
    · obtain rfl := hstatus taken hp
      exact Or.inl ⟨taken, List.mem_append_right _ (List.mem_singleton_self _), hlt⟩
    · exact Or.inr (Or.inr (Or.inr (Or.inr (Or.inr hq))))

/-- **A turn loses nothing.** -/
theorem Tracked.turn (hs : s.handler = .loop ev pendingStatus p)
    (h : Tracked s ev pendingStatus p) : AtPoint s.turn := by
  cases p with
  | receiving =>
    rcases turn_receiving hs with ⟨-, -, -, ht⟩ | ⟨hq, hl, hp, ht⟩ | ⟨hl, ht⟩ |
      ⟨e, queue, ipc, hl, hq, hf, ht⟩ | ⟨e, queue, hl, hq, hf, ht⟩
    · rw [ht, AtPoint, hs]
      exact h
    · -- the quiet window elapses
      rw [ht]
      exact h.goesOn rfl (fun ipc hipc => by cases hipc) fun k _ _ => Or.inr (Or.inr (Or.inl rfl))
    · rw [ht]
      exact h.goesOn rfl (fun ipc hipc => by cases hipc) fun k _ _ => Or.inl rfl
    · -- a join event
      rw [ht]
      refine h.goesOn ?_ (fun ipc' hipc => ?_) fun k _ hdue => ?_
      · rw [hq, List.filterMap_cons_some hf]
        rfl
      · obtain rfl := LoopPoint.forwarding.inj hipc
        exact join?_of_forward hf
      · rcases hdue with hp | hlag | hp | ⟨taken, hp, -⟩ | ⟨e', he', hf'⟩
        · exact Or.inl hp
        · rw [hl] at hlag
          cases hlag
        · cases hp
        · cases hp
        · rw [hq] at he'
          rcases List.mem_cons.mp he' with rfl | he'
          · rw [hf] at hf'
            cases hf'
          · exact Or.inr (Or.inr (Or.inr (Or.inr ⟨e', he', hf'⟩)))
    · rw [ht]
      refine h.goesOn ?_ (fun ipc hipc => by cases hipc) fun k _ _ => Or.inl rfl
      rw [hq, List.filterMap_cons_none hf]
  | flushing =>
    have ht : s.turn = { s with
        handler := .loop ev pendingStatus (.pushing s.fired.length) } := by
      rw [Subscription.turn, hs]
    rw [ht]
    exact h.goesOn rfl (fun ipc hipc => by cases hipc) fun k hk _ =>
      Or.inr (Or.inr (Or.inr (Or.inl ⟨_, rfl, hk⟩)))
  | pushing taken =>
    have ht : s.turn = { s with
        handler := .loop ev pendingStatus .receiving
        pushes := s.pushes ++ [.status taken] } := by rw [Subscription.turn, hs]
    rw [ht]
    refine h.pushed rfl (fun hp => by cases hp) fun taken' hp => ?_
    rw [LoopPoint.pushing.inj hp]
  | forwarding ipc =>
    have ht : s.turn = { s with
        handler := .loop ev pendingStatus .receiving
        pushes := s.pushes ++ [ipc] } := by rw [Subscription.turn, hs]
    rw [ht]
    refine h.pushed ?_ (fun hp => by cases hp) fun taken hp => by cases hp
    rw [h.forwards ipc rfl]
    rfl

theorem atPoint_turn (h : AtPoint s) : AtPoint s.turn := by
  cases hs : s.handler with
  | request =>
    rw [AtPoint, hs] at h
    rw [turn, hs]
    exact ⟨rfl, rfl, h.2⟩
  | writing taken =>
    rw [AtPoint, hs] at h
    obtain ⟨rfl, hfirst, hpushes⟩ := h
    rw [turn, hs]
    refine ⟨hfirst, ?_⟩
    show s.pushes ++ [.status s.fired.length] = [.status s.fired.length]
    rw [hpushes, List.nil_append]
  | written =>
    rw [AtPoint, hs] at h
    obtain ⟨hfirst, hpushes⟩ := h
    rw [turn, hs]
    -- nothing has fired since
    refine ⟨⟨_, Nat.le_refl _, hfirst⟩, ?_, fun ipc hipc => (by cases hipc),
      fun n hn k e hk he _ => ?_⟩
    · refine (joins_eq hfirst).trans ?_
      show (s.fired.drop s.fired.length).filterMap EngineEvent.forward = _
      rw [hpushes, List.drop_length]
      rfl
    · obtain rfl := Option.some.inj (hfirst.symm.trans hn)
      have hlt : k < s.fired.length := (List.getElem?_eq_some_iff.mp he).1
      omega
  | ended => rwa [turn, hs]
  | loop ev pendingStatus p =>
    rw [AtPoint, hs] at h
    exact h.turn hs

/-- What is due stays due when another event fires. -/
theorem StatusDue.send {k : Nat} (h : StatusDue k ev pendingStatus p) (e : EngineEvent) :
    StatusDue k (ev.send CHANNEL_CAPACITY e) pendingStatus p := by
  rcases h with hp | hl | hp | hp | ⟨e', he', hf⟩
  · exact Or.inl hp
  · exact Or.inr (Or.inl (Receiver.lagged_send hl e))
  · exact Or.inr (Or.inr (Or.inl hp))
  · exact Or.inr (Or.inr (Or.inr (Or.inl hp)))
  · rcases Receiver.mem_send_of_mem he' e with hmem | hl
    · exact Or.inr (Or.inr (Or.inr (Or.inr ⟨e', hmem, hf⟩)))
    · exact Or.inr (Or.inl hl)

/-- **An event is heard in the loop**, and what was on its way still is. -/
theorem Tracked.fire (h : Tracked s ev pendingStatus p)
    (hlost : ∀ x ∈ ev.dropped CHANNEL_CAPACITY, x.forward = none) (e : EngineEvent) :
    Tracked { s with
      fired := s.fired ++ [e]
      handler := .loop (ev.send CHANNEL_CAPACITY e) pendingStatus p }
      (ev.send CHANNEL_CAPACITY e) pendingStatus p := by
  obtain ⟨n, hle, hfirst⟩ := h.started
  have hjoins := h.joins
  rw [joins_eq hfirst] at hjoins
  refine ⟨⟨n, ?_, hfirst⟩, ?_, h.forwards, fun n' hn k e' hk he hf => ?_⟩
  · rw [List.length_append]
    omega
  · have hnew : Subscription.joins { s with
        fired := s.fired ++ [e]
        handler := .loop (ev.send CHANNEL_CAPACITY e) pendingStatus p } =
          ((s.fired ++ [e]).drop n).filterMap EngineEvent.forward := joins_eq hfirst
    rw [hnew, List.drop_append_of_le_length hle, List.filterMap_append, hjoins,
      Receiver.filterMap_send EngineEvent.forward hlost, ← List.append_assoc]
    cases hf : e.forward <;> simp [hf]
  · have he : (s.fired ++ [e])[k]? = some e' := he
    by_cases hlt : k < s.fired.length
    · rw [List.getElem?_append_left hlt] at he
      exact (h.stale n' hn k e' hk he hf).imp (fun hsent => hsent) fun hdue => hdue.send e
    · -- the event itself is in the channel
      obtain ⟨hk', rfl⟩ : k = s.fired.length ∧ e = e' := by
        rw [List.getElem?_append_right (by omega)] at he
        obtain ⟨hsub, heq⟩ := List.getElem?_eq_some_iff.mp he
        have hzero : k - s.fired.length = 0 := by simpa using hsub
        exact ⟨by omega, by simpa using heq⟩
      exact Or.inr (Or.inr (Or.inr (Or.inr (Or.inr ⟨e, Receiver.mem_send e, hf⟩))))

/-- **An event is heard**, unless it fires between the first status and the subscription. -/
theorem atPoint_fire (h : AtPoint s) (hlost : s.NoJoinLost (.fire e))
    (hdeaf : s.handler.deaf = false) : AtPoint (s.step (.fire e)) := by
  cases hs : s.handler with
  | request =>
    rw [AtPoint, hs] at h
    rw [step, hs]
    exact h
  | writing taken =>
    rw [hs] at hdeaf
    cases hdeaf
  | written =>
    rw [hs] at hdeaf
    cases hdeaf
  | ended =>
    rw [step, hs]
    exact trivial
  | loop ev pendingStatus p =>
    rw [AtPoint, hs] at h
    rw [NoJoinLost, hs] at hlost
    rw [step, hs]
    exact h.fire hlost e

/-- **The step lemma.** -/
theorem atPoint_step (h : AtPoint s) {a : Happening} (hlost : s.NoJoinLost a)
    (hdeaf : s.NotDeaf a) : AtPoint (s.step a) := by
  cases a with
  | fire e => exact atPoint_fire h hlost hdeaf
  | turn => exact atPoint_turn h
  | hangUp =>
    rw [step]
    by_cases hw : s.handler.writes = true
    · rw [if_pos hw]
      exact trivial
    · rwa [if_neg hw]

/-! ## 6. Coming to rest -/

theorem atPoint_iterate (h : AtPoint s) (n : Nat) : AtPoint (turn^[n] s) :=
  Function.Iterate.rec AtPoint h (fun _ => atPoint_turn) n

/-- Who rests has nothing to read, and no status pending. -/
theorem idle_of_rest (hrest : s.turn = s) : s.handler = .ended ∨
    ∃ ev, s.handler = .loop ev false .receiving ∧ ev.queue = [] ∧ ev.lagged = false := by
  have hsame := congrArg Subscription.handler hrest
  cases hs : s.handler with
  | request => simp [turn, hs] at hsame
  | writing taken => simp [turn, hs] at hsame
  | written => simp [turn, hs] at hsame
  | ended => exact Or.inl rfl
  | loop ev pendingStatus p =>
    right
    cases p with
    | receiving =>
      rcases turn_receiving hs with ⟨hq, hl, rfl, -⟩ | ⟨-, -, hp, h⟩ | ⟨hl, h⟩ |
        ⟨e, queue, ipc, -, -, -, h⟩ | ⟨e, queue, -, hq, -, h⟩
      · exact ⟨ev, rfl, hq, hl⟩
      · simp [h, hs] at hsame
      · rw [h, hs] at hsame
        have hev := (Handler.loop.inj hsame).1
        rw [← hev] at hl
        cases hl
      · simp [h, hs] at hsame
      · rw [h, hs] at hsame
        have hev := congrArg Receiver.queue (Handler.loop.inj hsame).1
        rw [hq] at hev
        exact absurd hev (List.cons_ne_self e queue).symm
    | flushing => simp [turn, hs] at hsame
    | pushing taken => simp [turn, hs] at hsame
    | forwarding ipc => simp [turn, hs] at hsame

/-- **At rest everything is covered.** -/
theorem covered_of_rest (h : AtPoint s) (hrest : s.turn = s) :
    s.handler = .ended ∨ s.Covered := by
  rcases idle_of_rest hrest with hend | ⟨ev, hs, hq, hl⟩
  · exact Or.inl hend
  · right
    rw [AtPoint, hs] at h
    refine ⟨?_, fun n hn k e hk he hf => ?_⟩
    · rw [h.joins, hq, underway_receiving, List.append_nil, List.filterMap_nil, List.append_nil]
    · rcases h.stale n hn k e hk he hf with hsent | hp | hlag | hp | ⟨taken, hp, -⟩ | ⟨x, hx, -⟩
      · exact hsent
      · cases hp
      · rw [hl] at hlag
        cases hlag
      · cases hp
      · cases hp
      · rw [hq] at hx
        cases hx

/-- The handler does not end by itself. -/
theorem ended_of_turn (h : s.turn.handler = .ended) : s.handler = .ended := by
  cases hs : s.handler with
  | request => simp [turn, hs] at h
  | writing taken => simp [turn, hs] at h
  | written => simp [turn, hs] at h
  | ended => rfl
  | loop ev pendingStatus p =>
    obtain ⟨ev', pendingStatus', p', ht⟩ := turn_loop hs
    rw [ht] at h
    cases h

theorem ended_of_iterate {n : Nat} (h : (turn^[n] s).handler = .ended) : s.handler = .ended := by
  induction n with
  | zero => exact h
  | succ n ih =>
    rw [Function.iterate_succ_apply'] at h
    exact ih (ended_of_turn h)

/-- **What is on its way arrives.** -/
theorem owed_of_atPoint (h : AtPoint s) : s.Owed := by
  obtain ⟨n, hn⟩ := exists_iterate_fixed (fun s => rank s.handler) turn_rank s
  rcases covered_of_rest (atPoint_iterate h n) hn with hend | hcovered
  · exact Or.inl (ended_of_iterate hend)
  · exact Or.inr ⟨n, hcovered⟩

/-! ## 7. The gap -/

/-- What holds of the first status in every run. -/
def Begun (s : Subscription) : Prop :=
  match s.handler with
  | .request => s.first = none ∧ s.pushes = []
  | .writing taken => taken ≤ s.fired.length ∧ s.first = some taken ∧ s.pushes = []
  | .written => ∃ taken ≤ s.fired.length, s.first = some taken ∧ s.pushes = [.status taken]
  | .loop _ _ _ => True
  | .ended => True

theorem begun_turn (h : Begun s) : Begun s.turn := by
  cases hs : s.handler with
  | request =>
    rw [Begun, hs] at h
    rw [turn, hs]
    exact ⟨Nat.le_refl _, rfl, h.2⟩
  | writing taken =>
    rw [Begun, hs] at h
    obtain ⟨hle, hfirst, hpushes⟩ := h
    rw [turn, hs]
    refine ⟨taken, hle, hfirst, ?_⟩
    show s.pushes ++ [.status taken] = [.status taken]
    rw [hpushes, List.nil_append]
  | written =>
    rw [turn, hs]
    trivial
  | ended => rwa [turn, hs]
  | loop ev pendingStatus p =>
    obtain ⟨ev', pendingStatus', p', ht⟩ := turn_loop hs
    rw [Begun, ht]
    trivial

theorem begun_step (h : Begun s) (a : Happening) : Begun (s.step a) := by
  cases a with
  | fire e =>
    have hlonger : ∀ n ≤ s.fired.length, n ≤ (s.fired ++ [e]).length := by
      intro n hn
      rw [List.length_append]
      omega
    rw [step]
    cases hs : s.handler with
    | request =>
      rw [Begun, hs] at h
      exact h
    | writing taken =>
      rw [Begun, hs] at h
      obtain ⟨hle, hfirst, hpushes⟩ := h
      exact ⟨hlonger taken hle, hfirst, hpushes⟩
    | written =>
      rw [Begun, hs] at h
      obtain ⟨taken, hle, hfirst, hpushes⟩ := h
      exact ⟨taken, hlonger taken hle, hfirst, hpushes⟩
    | ended => trivial
    | loop ev pendingStatus p => trivial
  | turn => exact begun_turn h
  | hangUp =>
    rw [step]
    by_cases hw : s.handler.writes = true
    · rw [if_pos hw]
      trivial
    · rwa [if_neg hw]

/-- An event fired behind the first status, nothing was pushed since, and nothing is under way. -/
def Missed (s : Subscription) : Prop :=
  ∃ n < s.fired.length, s.first = some n ∧
    (s.handler = .writing n ∧ s.pushes = [] ∨
      s.handler = .written ∧ s.pushes = [.status n] ∨
      s.handler = .loop {} false .receiving ∧ s.pushes = [.status n])

theorem missed_fire (h : Begun s) (hdeaf : s.handler.deaf = true) (e : EngineEvent) :
    Missed (s.step (.fire e)) := by
  have hlt : ∀ n ≤ s.fired.length, n < (s.fired ++ [e]).length := by
    intro n hn
    rw [List.length_append, List.length_singleton]
    omega
  cases hs : s.handler with
  | writing taken =>
    rw [Begun, hs] at h
    obtain ⟨hle, hfirst, hpushes⟩ := h
    rw [step, hs]
    exact ⟨taken, hlt taken hle, hfirst, Or.inl ⟨rfl, hpushes⟩⟩
  | written =>
    rw [Begun, hs] at h
    obtain ⟨taken, hle, hfirst, hpushes⟩ := h
    rw [step, hs]
    exact ⟨taken, hlt taken hle, hfirst, Or.inr (Or.inl ⟨rfl, hpushes⟩)⟩
  | request =>
    rw [hs] at hdeaf
    cases hdeaf
  | ended =>
    rw [hs] at hdeaf
    cases hdeaf
  | loop ev pendingStatus p =>
    rw [hs] at hdeaf
    cases hdeaf

/-- The handler goes on to the loop and finds nothing there. -/
theorem Missed.turn (h : Missed s) : Missed s.turn := by
  obtain ⟨n, hlt, hfirst, ⟨hs, hpushes⟩ | ⟨hs, hpushes⟩ | ⟨hs, hpushes⟩⟩ := h
  · rw [Subscription.turn, hs]
    refine ⟨n, hlt, hfirst, Or.inr (Or.inl ⟨rfl, ?_⟩)⟩
    show s.pushes ++ [.status n] = [.status n]
    rw [hpushes, List.nil_append]
  · rw [Subscription.turn, hs]
    exact ⟨n, hlt, hfirst, Or.inr (Or.inr ⟨rfl, hpushes⟩)⟩
  · rw [Subscription.turn, hs]
    exact ⟨n, hlt, hfirst, Or.inr (Or.inr ⟨hs, hpushes⟩)⟩

/-- No join event is pushed, and no status behind event `n`. -/
theorem Missed.not_covered (h : Missed s) : ¬ s.Covered := by
  intro hc
  obtain ⟨n, hlt, hfirst, hat⟩ := h
  have hpushes : s.pushes.filterMap IpcEvent.join? = [] ∧ ∀ k, n ≤ k → ¬ s.StatusSent k := by
    rcases hat with ⟨-, hp⟩ | ⟨-, hp⟩ | ⟨-, hp⟩
    · refine ⟨by rw [hp]; rfl, fun k _ hsent => ?_⟩
      obtain ⟨taken, hmem, -⟩ := hsent
      rw [hp] at hmem
      cases hmem
    all_goals
      refine ⟨by rw [hp]; rfl, fun k hk hsent => ?_⟩
      obtain ⟨taken, hmem, hless⟩ := hsent
      rw [hp, List.mem_singleton] at hmem
      obtain rfl := IpcEvent.status.inj hmem
      omega
  obtain ⟨e, he⟩ : ∃ e, s.fired[n]? = some e := ⟨_, List.getElem?_eq_getElem hlt⟩
  cases hf : e.forward with
  | none => exact hpushes.2 n (Nat.le_refl n) (hc.stale n hfirst n e (Nat.le_refl n) he hf)
  | some ipc =>
    have hjoins := hc.joins
    rw [hpushes.1, joins_eq hfirst] at hjoins
    have hmem : ipc ∈ (s.fired.drop n).filterMap EngineEvent.forward := by
      refine List.mem_filterMap.mpr ⟨e, List.mem_of_getElem? (i := 0) ?_, hf⟩
      rw [List.getElem?_drop]
      exact he
    rw [← hjoins] at hmem
    cases hmem

theorem Missed.not_owed (h : Missed s) : ¬ s.Owed := by
  rintro (hend | ⟨n, hcovered⟩)
  · obtain ⟨n, -, -, ⟨hs, -⟩ | ⟨hs, -⟩ | ⟨hs, -⟩⟩ := h <;>
    · rw [hs] at hend
      cases hend
  · have hmissed : Missed (Subscription.turn^[n] s) :=
      Function.Iterate.rec Missed h (fun _ hm => hm.turn) n
    exact hmissed.not_covered hcovered

/-- **When a subscriber misses nothing**: whatever fires when, over every run in which the channel
    loses no join event, a later push covers every event behind the first status, exactly when
    no event fires between that status and the subscription. -/
theorem subscriber_misses_nothing_iff (before : List EngineEvent) (l : List Happening)
    (hjoins : EachStep step NoJoinLost (start before) l) :
    Throughout step Owed (start before) l ↔ EachStep step NotDeaf (start before) l := by
  constructor
  · intro howed
    refine eachStep_iff.mpr fun pre a post hl => ?_
    cases a with
    | fire e =>
      by_contra hdeaf
      have hbegun : Begun (run step (start before) pre) :=
        run_invariant (I := Begun) (fun s a _ h => begun_step h a) ⟨rfl, rfl⟩
      have hafter := howed (pre ++ [.fire e]) post (by rw [hl, List.append_assoc]; rfl)
      rw [run_append] at hafter
      exact (missed_fire hbegun (Bool.not_eq_false _ ▸ hdeaf) e).not_owed hafter
    | turn => trivial
    | hangUp => trivial
  · intro hdeaf pre post hl
    rw [hl, eachStep_append] at hdeaf hjoins
    have h0 : AtPoint (start before) := ⟨rfl, rfl⟩
    exact owed_of_atPoint (run_invariant_of_eachStep (I := AtPoint)
      (fun s a h hQ => atPoint_step h hQ.1 hQ.2) h0 (eachStep_both hjoins.1 hdeaf.1))

/-- A device joins while the handler waits for events, and the network changes. -/
def joinInLoop : List Happening :=
  [.turn, .turn, .turn, .fire (.joinRequest "05" "laptop" ["dog"]), .fire .changed, .turn, .turn]

/-- A device joins while the first status is on its way to the client. -/
def joinInGap : List Happening :=
  [.turn, .fire (.joinRequest "05" "laptop" ["dog"]), .turn, .turn, .turn]

theorem subscriber_misses_nothing_join : Throughout step Owed (start []) joinInLoop :=
  (subscriber_misses_nothing_iff [] joinInLoop (by decide)).mpr (by decide)

/-- **The gap**: the request is never pushed. -/
theorem event_missed : EachStep step NoJoinLost (start []) joinInGap ∧
    ¬ Throughout step Owed (start []) joinInGap ∧
    (run step (start []) joinInGap).pushes = [.status 0] := by
  refine ⟨by decide, fun h => ?_, rfl⟩
  have howed := h [.turn, .fire (.joinRequest "05" "laptop" ["dog"])] [.turn, .turn, .turn] rfl
  refine Missed.not_owed ⟨0, by decide, rfl, Or.inl ⟨rfl, rfl⟩⟩ howed

end Subscription

end Nullgate
