/-
  File:      Nullgate/Mobile/Routing.lean
  Subject:   ROUTING ON A PHONE: the engine, the bridge, the holder and the VPN service.

  Only the VPN service can open an interface. The engine asks for one by an event, once, behind a
  latch; the bridge hands it to the holder, the holder the service an intent, or the user the
  question for consent; the service establishes an interface and has it attached, or has the latch
  reset. Meanwhile the network may come and go, and everything runs on threads of its own.

  * `RoutePoint`, `routing` -- the pieces of code, access by access, and what they do;
  * `Underway`: somebody sees to it that an interface comes, or that the latch is reset;
  * **`routing_never_dead`**: where nothing is under way, a device whose latch is set has an
    interface, or asks for consent, unless since the latch was reset last an ask was lost or an
    interface refused; an interface it has is read from; and where the latch is not set the next
    tick asks.
-/
import Nullgate.DataPlane.Pump
import Nullgate.Daemon.Subscribe
import Nullgate.Engine.Status
import Nullgate.Lib.Tasks

namespace Nullgate.Mobile

open Nullgate.Lib

/-! ## 1. The parties -/

/-- **What they share.** -/
structure Phone where
  /-- `State::doc`: the network is up -/
  online : Bool := false
  /-- the latch: the engine has asked for an interface, or has one -/
  tunAttempted : Bool := false
  assignedIp : Option Ipv4Addr := none
  /-- the interface the engine has, by its number -/
  tun : Option Nat := none
  /-- the interfaces a pump reads from -/
  pumps : List Nat := []
  /-- those of them a disconnect will stop -/
  netTasks : List Nat := []
  /-- the bridge's receiver, once it has subscribed -/
  events : Option (Receiver EngineEvent) := none
  /-- what the engine wants an interface for -/
  pendingTun : Option (String × UInt32) := none
  needsVpnConsent : Bool := false
  /-- `ACTION_ESTABLISH`, as the service will get them -/
  intents : List (String × UInt32) := []
  /-- how many interfaces there have been; the next one has this number -/
  established : Nat := 0
  /-- since the latch was reset last, an ask was lost, or an interface refused; for the record -/
  askLost : Bool := false
  /-- the interfaces a read from has failed; for the record -/
  broken : List Nat := []

/-- The event that asks for an interface. -/
def isAsk : EngineEvent → Bool
  | .tunSetupRequired _ _ => true
  | _ => false

namespace Phone

variable (s : Phone)

/-- An event is sent. Before the bridge has subscribed nobody hears it, and behind 64 others the
    oldest is dropped. -/
def send (e : EngineEvent) : Phone :=
  match s.events with
  | none => { s with askLost := s.askLost || (isAsk e && s.tunAttempted) }
  | some ev =>
    { s with
      events := some (ev.send CHANNEL_CAPACITY e)
      askLost := s.askLost || ((ev.dropped CHANNEL_CAPACITY).any isAsk && s.tunAttempted) }

/-- `onTunSetup`: establish at once if the user has consented. -/
def onTunSetup (consented : Bool) (ip : String) (mtu : UInt32) : Phone :=
  let s := { s with pendingTun := some (ip, mtu) }
  if consented then { s with needsVpnConsent := false, intents := s.intents ++ [(ip, mtu)] }
  else { s with needsVpnConsent := true }

/-- `event_bridge`: the next event. Of a gap it makes a refresh, and it only passes on what has to
    do with the window. -/
def bridge (consented : Bool) : Phone :=
  match s.events.bind Receiver.recv with
  | none => s
  | some (.lagged, ev) => { s with events := some ev }
  | some (.value (.tunSetupRequired ip mtu), ev) =>
    ({ s with events := some ev }).onTunSetup consented ip mtu
  | some (.value _, ev) => { s with events := some ev }

/-- `TUN_MTU` of the holder. -/
def TUN_MTU : UInt32 := 1280

/-- `onVpnConsentGranted`: establish what was wanted. -/
def onVpnConsentGranted : Phone :=
  let s := { s with needsVpnConsent := false }
  match s.pendingTun.or (s.assignedIp.map fun ip => (ip.text, TUN_MTU)) with
  | some want => { s with intents := s.intents ++ [want] }
  | none => s

end Phone

/-! ## 2. The pieces of code -/

/-- Where a piece of code stands, before its next access to what is shared. -/
inductive RoutePoint where
  /-- a maintenance tick -/
  | tick
  /-- `enable_tun` -/
  | enabling (ip : Ipv4Addr)
  | latched (ip : Ipv4Addr)
  | asking (ip : Ipv4Addr)
  /-- `soft_disconnect` -/
  | disconnecting
  | untunning
  | unlatching
  | forgetting
  | telling
  | closing
  /-- `attach_tun_fd` -/
  | attaching (fd : Nat)
  | attachLatching (fd : Nat)
  | attachSetting (fd : Nat)
  | pumping (fd : Nat)
  | tracking (fd : Nat)
  /-- `detach_tun` -/
  | detaching
  | detachUnlatching
  /-- the main thread of the service, between two intents -/
  | service
  | done
  deriving DecidableEq

/-- What they read from outside. -/
structure Answers where
  /-- the device's address, if the roster has it as a member -/
  member : Option Ipv4Addr := none
  /-- `establish` gives an interface -/
  establishes : Bool := true
  /-- `from_fd` takes it -/
  adopts : Bool := true

/-- **What a piece of code does next.** -/
def RoutePoint.stretch (s : Phone) (i : Answers) : RoutePoint → Phone × RoutePoint × List RoutePoint
  | .tick =>
    match i.member with
    | some ip => (s, if s.online then .enabling ip else .done, [])
    | none => (s, .done, [])
  | .enabling ip =>
    ({ s with tunAttempted := true }, if s.tunAttempted then .done else .latched ip, [])
  | .latched ip => ({ s with assignedIp := some ip }, .asking ip, [])
  | .asking ip => (s.send (.tunSetupRequired ip.text Nullgate.TUN_MTU.toUInt32), .done, [])
  | .disconnecting =>
    ({ s with pumps := s.pumps.filter (· ∉ s.netTasks), netTasks := [] }, .untunning, [])
  | .untunning => ({ s with tun := none }, .unlatching, [])
  | .unlatching => ({ s with tunAttempted := false, askLost := false }, .forgetting, [])
  | .forgetting => ({ s with assignedIp := none }, .telling, [])
  | .telling => (s.send .tunTeardownRequired, .closing, [])
  | .closing => ({ s with online := false }, .done, [])
  | .attaching fd =>
    if i.adopts then (s, .attachLatching fd, [])
    else ({ s with askLost := s.askLost || s.tunAttempted }, .done, [])
  | .attachLatching fd => ({ s with tunAttempted := true }, .attachSetting fd, [])
  | .attachSetting fd => ({ s with tun := some fd }, .pumping fd, [])
  | .pumping fd => ({ s with pumps := s.pumps ++ [fd] }, .tracking fd, [])
  | .tracking fd => ({ s with netTasks := s.netTasks ++ [fd] }, .done, [])
  | .detaching => ({ s with tun := none }, .detachUnlatching, [])
  | .detachUnlatching => ({ s with tunAttempted := false, askLost := false }, .done, [])
  | .service =>
    match s.intents with
    | [] => (s, .service, [])
    | _ :: intents =>
      if i.establishes then
        ({ s with intents, established := s.established + 1 }, .service, [.attaching s.established])
      else ({ s with intents }, .service, [.detaching])
  | .done => (s, .done, [])

/-- What begins by itself: ticks, disconnects, detaches, and the service. -/
def RoutePoint.starts : RoutePoint → Bool
  | .tick | .disconnecting | .detaching | .service => true
  | _ => false

/-- What happens outside of these. -/
inductive Outside where
  /-- the bridge subscribes -/
  | subscribes
  /-- the bridge takes an event; whether the user has consented to the VPN -/
  | bridges (consented : Bool)
  | consents
  /-- `activate` -/
  | activates
  /-- an event that does not ask for an interface -/
  | fires (e : EngineEvent) (other : isAsk e = false)
  /-- a read from an interface fails, and its pump ends -/
  | readFails (fd : Nat)

def Outside.apply (s : Phone) : Outside → Phone
  | .subscribes => { s with events := s.events.or (some {}) }
  | .bridges consented => s.bridge consented
  | .consents => s.onVpnConsentGranted
  | .activates => { s with online := true }
  | .fires e _ => s.send e
  | .readFails fd => { s with pumps := s.pumps.erase fd, broken := fd :: s.broken }

/-- **The phone**: nothing is ever aborted. -/
def routing : Program Phone RoutePoint Answers Outside where
  stretch := RoutePoint.stretch
  starts := RoutePoint.starts
  drop := fun _ => none
  env := Outside.apply

/-! ## 3. What is under way -/

namespace Phone

/-- **The latch is not set for nothing**: there is an interface, or something that leads to one, or
    there was trouble. -/
def Answered (s : Phone) : Prop :=
  s.tunAttempted = true → s.tun.isSome = true ∨ s.askLost = true ∨
    (∃ ev, s.events = some ev ∧ ev.queue.any isAsk = true) ∨ s.intents ≠ [] ∨
    (s.needsVpnConsent = true ∧ s.pendingTun.isSome = true)

/-- The interface `fd` is read from, if the engine has it. -/
def Read (fd : Nat) (s : Phone) : Prop := s.tun = some fd → fd ∈ s.pumps ∨ fd ∈ s.broken

end Phone

/-- The piece of code ends with an interface, an ask, or the latch reset. -/
def RoutePoint.leads : RoutePoint → Prop
  | .latched _ | .asking _ | .unlatching | .attaching _ | .attachLatching _ | .attachSetting _
  | .detaching | .detachUnlatching => True
  | _ => False

/-- The piece of code is about to read from the interface, or to drop it. -/
def RoutePoint.pumps (fd : Nat) : RoutePoint → Prop
  | .pumping fd' => fd' = fd
  | .untunning => True
  | _ => False

namespace Phone

variable {s : Phone} {e : EngineEvent}

theorem events_send {ev : Receiver EngineEvent} (hev : s.events = some ev) (e : EngineEvent) :
    (s.send e).events = some (ev.send CHANNEL_CAPACITY e) := by
  rw [Phone.send, hev]

/-- The ask that is queued stays, or its loss is on record. -/
theorem Answered.send (h : s.Answered) (e : EngineEvent) : (s.send e).Answered := by
  cases hev : s.events with
  | none =>
    rw [Phone.send, hev]
    intro hlatch
    rcases h hlatch with hat | hat | ⟨ev, hat, -⟩ | hat
    · exact Or.inl hat
    · exact Or.inr (Or.inl (by rw [hat]; rfl))
    · rw [hev] at hat
      cases hat
    · exact Or.inr (Or.inr (Or.inr hat))
  | some ev =>
    rw [Phone.send, hev]
    intro hlatch
    rcases h hlatch with hat | hat | ⟨ev', hev', hask⟩ | hat
    · exact Or.inl hat
    · exact Or.inr (Or.inl (by rw [hat]; rfl))
    · obtain rfl := Option.some.inj (hev.symm.trans hev')
      have hkept : ev.dropped CHANNEL_CAPACITY ++ (ev.send CHANNEL_CAPACITY e).queue =
          ev.queue ++ [e] := Receiver.dropped_append_queue e
      have hsplit := congrArg (List.any · isAsk) hkept
      simp only [List.any_append, hask, Bool.true_or] at hsplit
      by_cases hdropped : (ev.dropped CHANNEL_CAPACITY).any isAsk = true
      · refine Or.inr (Or.inl ?_)
        show (s.askLost || ((ev.dropped CHANNEL_CAPACITY).any isAsk && s.tunAttempted)) = true
        rw [hdropped, show s.tunAttempted = true from hlatch, Bool.and_true, Bool.or_true]
      · rw [Bool.eq_false_iff.mpr hdropped, Bool.false_or] at hsplit
        exact Or.inr (Or.inr (Or.inl ⟨_, rfl, hsplit⟩))
    · exact Or.inr (Or.inr (Or.inr hat))

/-- What is sent of an ask is queued, or its loss is on record. -/
theorem answered_ask (s : Phone) (ip : String) (mtu : UInt32) :
    (s.send (.tunSetupRequired ip mtu)).Answered := by
  cases hev : s.events with
  | none =>
    intro hlatch
    rw [Phone.send, hev] at hlatch ⊢
    refine Or.inr (Or.inl ?_)
    show (s.askLost || (true && s.tunAttempted)) = true
    rw [show s.tunAttempted = true from hlatch, Bool.and_true, Bool.or_true]
  | some ev =>
    intro _
    rw [Phone.send, hev]
    exact Or.inr (Or.inr (Or.inl ⟨_, rfl, List.any_eq_true.mpr ⟨_, Receiver.mem_send _, rfl⟩⟩))

/-- The bridge takes an ask to the service, or to the user. -/
theorem Answered.bridge (h : s.Answered) (consented : Bool) : (s.bridge consented).Answered := by
  cases hev : s.events with
  | none =>
    rw [Phone.bridge, hev]
    exact h
  | some ev =>
    rcases ev.recv_cases with ⟨-, -, hrecv⟩ | ⟨-, hrecv⟩ | ⟨a, queue, -, hqueue, hrecv⟩
    · rw [Phone.bridge, hev, Option.bind_some, hrecv]
      exact h
    · rw [Phone.bridge, hev, Option.bind_some, hrecv]
      intro hlatch
      rcases h hlatch with hat | hat | ⟨ev', hev', hask⟩ | hat
      · exact Or.inl hat
      · exact Or.inr (Or.inl hat)
      · obtain rfl := Option.some.inj (hev.symm.trans hev')
        exact Or.inr (Or.inr (Or.inl ⟨_, rfl, hask⟩))
      · exact Or.inr (Or.inr (Or.inr hat))
    · -- an ask leads on, and what is none leaves the asks behind it
      have hother (hnot : isAsk a = false) :
          ({ s with events := some { ev with queue } } : Phone).Answered := fun hlatch => by
        rcases h hlatch with hat | hat | ⟨ev', hev', hask⟩ | hat
        · exact Or.inl hat
        · exact Or.inr (Or.inl hat)
        · obtain rfl := Option.some.inj (hev.symm.trans hev')
          rw [hqueue, List.any_cons, hnot, Bool.false_or] at hask
          exact Or.inr (Or.inr (Or.inl ⟨_, rfl, hask⟩))
        · exact Or.inr (Or.inr (Or.inr hat))
      rw [Phone.bridge, hev, Option.bind_some, hrecv]
      cases a with
      | tunSetupRequired ip mtu =>
        intro _
        cases consented with
        | true =>
          exact Or.inr (Or.inr (Or.inr (Or.inl (List.append_ne_nil_of_right_ne_nil _ nofun))))
        | false => exact Or.inr (Or.inr (Or.inr (Or.inr ⟨rfl, rfl⟩)))
      | changed => exact hother rfl
      | joinSas sas => exact hother rfl
      | joinRequest nodeId hostname sas => exact hother rfl
      | tunTeardownRequired => exact hother rfl

/-- What the user consents to is what was wanted. -/
theorem Answered.consents (h : s.Answered) : s.onVpnConsentGranted.Answered := by
  intro hlatch
  cases hwant : s.pendingTun.or (s.assignedIp.map fun ip => (ip.text, TUN_MTU)) with
  | some want =>
    rw [Phone.onVpnConsentGranted, hwant]
    exact Or.inr (Or.inr (Or.inr (Or.inl (List.append_ne_nil_of_right_ne_nil _ nofun))))
  | none =>
    rw [Phone.onVpnConsentGranted, hwant] at hlatch ⊢
    rcases h hlatch with hat | hat | hat | hat | ⟨-, hpending⟩
    · exact Or.inl hat
    · exact Or.inr (Or.inl hat)
    · exact Or.inr (Or.inr (Or.inl hat))
    · exact Or.inr (Or.inr (Or.inr (Or.inl hat)))
    · obtain ⟨want, hsome⟩ := Option.isSome_iff_exists.mp hpending
      rw [hsome] at hwant
      cases hwant

theorem Answered.outside (h : s.Answered) (e : Outside) : (e.apply s).Answered := by
  cases e with
  | subscribes =>
    intro hlatch
    rcases h hlatch with hat | hat | ⟨ev, hev, hask⟩ | hat
    · exact Or.inl hat
    · exact Or.inr (Or.inl hat)
    · exact Or.inr (Or.inr (Or.inl ⟨ev, by rw [Outside.apply, hev]; rfl, hask⟩))
    · exact Or.inr (Or.inr (Or.inr hat))
  | bridges consented => exact h.bridge consented
  | consents => exact h.consents
  | activates => exact h
  | fires e _ => exact h.send e
  | readFails fd => exact h

end Phone

/-- **Each piece of code** finds the latch seen to, or sees to it, and leaves it so. -/
theorem answered_stretch {s : Phone} {t : RoutePoint} (i : Answers) (h : s.Answered ∨ t.leads) :
    (t.stretch s i).1.Answered ∨ (t.stretch s i).2.1.leads ∨
      ∃ t' ∈ (t.stretch s i).2.2, t'.leads := by
  cases t with
  | tick =>
    refine Or.inl ?_
    have hs := h.resolve_right id
    rw [RoutePoint.stretch]
    cases i.member <;> exact hs
  | enabling ip =>
    cases hlatch : s.tunAttempted with
    | true =>
      refine Or.inl fun _ => ?_
      exact h.resolve_right id hlatch
    | false =>
      refine Or.inr (Or.inl ?_)
      rw [RoutePoint.stretch, hlatch]
      trivial
  | latched ip => exact Or.inr (Or.inl trivial)
  | asking ip => exact Or.inl (Phone.answered_ask _ _ _)
  | disconnecting => exact Or.inl (h.resolve_right id)
  | untunning => exact Or.inr (Or.inl trivial)
  | unlatching => exact Or.inl nofun
  | forgetting => exact Or.inl (h.resolve_right id)
  | telling => exact Or.inl ((h.resolve_right id).send _)
  | closing => exact Or.inl (h.resolve_right id)
  | attaching fd =>
    cases hadopts : i.adopts with
    | true =>
      rw [RoutePoint.stretch, hadopts]
      exact Or.inr (Or.inl trivial)
    | false =>
      refine Or.inl fun hlatch => ?_
      rw [RoutePoint.stretch, hadopts] at hlatch ⊢
      refine Or.inr (Or.inl ?_)
      show (s.askLost || s.tunAttempted) = true
      rw [show s.tunAttempted = true from hlatch, Bool.or_true]
  | attachLatching fd => exact Or.inr (Or.inl trivial)
  | attachSetting fd => exact Or.inl fun _ => Or.inl rfl
  | pumping fd => exact Or.inl (h.resolve_right id)
  | tracking fd => exact Or.inl (h.resolve_right id)
  | detaching => exact Or.inr (Or.inl trivial)
  | detachUnlatching => exact Or.inl nofun
  | service =>
    cases hintents : s.intents with
    | nil =>
      refine Or.inl ?_
      rw [RoutePoint.stretch, hintents]
      exact h.resolve_right id
    | cons want intents =>
      refine Or.inr (Or.inr ?_)
      rw [RoutePoint.stretch, hintents]
      dsimp only
      cases i.establishes with
      | true => exact ⟨_, List.mem_singleton_self _, trivial⟩
      | false => exact ⟨_, List.mem_singleton_self _, trivial⟩
  | done => exact Or.inl (h.resolve_right id)

namespace Phone

variable {s : Phone} {fd : Nat}

theorem Read.send (h : s.Read fd) (e : EngineEvent) : (s.send e).Read fd := by
  rw [Phone.send]
  split <;> exact h

theorem Read.outside (h : s.Read fd) (e : Outside) : (e.apply s).Read fd := by
  cases e with
  | subscribes => exact h
  | bridges consented =>
    show (s.bridge consented).Read fd
    rw [Phone.bridge]
    split
    · exact h
    · exact h
    · cases consented <;> exact h
    · exact h
  | consents =>
    show s.onVpnConsentGranted.Read fd
    rw [Phone.onVpnConsentGranted]
    dsimp only
    split <;> exact h
  | activates => exact h
  | fires e _ => exact h.send e
  | readFails fd' =>
    intro htun
    by_cases hfd : fd = fd'
    · exact Or.inr (List.mem_cons.mpr (Or.inl hfd))
    · exact (h htun).imp (List.mem_erase_of_ne hfd).mpr (List.mem_cons_of_mem _)

end Phone

/-- **Each piece of code** finds the interface read from, or sees to it, and leaves it so. -/
theorem read_stretch {s : Phone} {t : RoutePoint} {fd : Nat} (i : Answers)
    (h : s.Read fd ∨ t.pumps fd) :
    (t.stretch s i).1.Read fd ∨ (t.stretch s i).2.1.pumps fd ∨
      ∃ t' ∈ (t.stretch s i).2.2, t'.pumps fd := by
  cases t with
  | tick =>
    refine Or.inl ?_
    have hs := h.resolve_right id
    rw [RoutePoint.stretch]
    cases i.member <;> exact hs
  | asking ip => exact Or.inl ((h.resolve_right id).send _)
  | telling => exact Or.inl ((h.resolve_right id).send _)
  | disconnecting => exact Or.inr (Or.inl trivial)
  | untunning => exact Or.inl nofun
  | attaching fd' =>
    refine Or.inl ?_
    have hs := h.resolve_right id
    rw [RoutePoint.stretch]
    cases i.adopts <;> exact hs
  | attachSetting fd' =>
    by_cases hfd : fd' = fd
    · exact Or.inr (Or.inl hfd)
    · exact Or.inl fun htun => absurd (Option.some.inj htun) hfd
  | pumping fd' =>
    refine Or.inl fun htun => ?_
    rcases h with hs | hfd
    · exact (hs htun).imp_left (List.mem_append_left _)
    · exact Or.inl (List.mem_append_right _ (List.mem_singleton.mpr hfd.symm))
  | detaching => exact Or.inl nofun
  | service =>
    refine Or.inl ?_
    have hs := h.resolve_right id
    rw [RoutePoint.stretch]
    split
    · exact hs
    · cases i.establishes <;> exact hs
  | enabling _ | latched _ | unlatching | forgetting | closing | attachLatching _ | tracking _
  | detachUnlatching | done => exact Or.inl (h.resolve_right id)

/-! ## 4. Runs -/

variable {w : World Phone RoutePoint}

theorem answered_run (acts : List (Act RoutePoint Answers Outside)) :
    (run routing.step ⟨{}, []⟩ acts).SeenTo Phone.Answered RoutePoint.leads :=
  run_invariant (fun _ _ _ h => Program.step_seenTo h (fun _ i _ _ _ => answered_stretch i)
    (fun _ _ hd => by cases hd) fun e _ hs => hs.outside e) (Or.inl nofun)

theorem read_run (fd : Nat) (acts : List (Act RoutePoint Answers Outside)) :
    (run routing.step ⟨{}, []⟩ acts).SeenTo (Phone.Read fd) (RoutePoint.pumps fd) :=
  run_invariant (fun _ _ _ h => Program.step_seenTo h (fun _ i _ _ _ => read_stretch i)
    (fun _ _ hd => by cases hd) fun e _ hs => hs.outside e) (Or.inl nofun)

/-- **Nothing is under way**: no ask is queued, no intent is on its way to the service, and every
    piece of code has ended or has not begun. -/
structure AtRest (w : World Phone RoutePoint) : Prop where
  events : ∀ ev, w.shared.events = some ev → ev.queue.any isAsk = false
  intents : w.shared.intents = []
  tasks : ∀ t ∈ w.tasks, t = .tick ∨ t = .service ∨ t = .done

/-- What the piece of code that was begun last does next. -/
theorem step_last (s : Phone) (tasks : List RoutePoint) {t : RoutePoint} (i : Answers)
    (hnone : (t.stretch s i).2.2 = []) :
    routing.step ⟨s, tasks ++ [t]⟩ (.go tasks.length i) =
      ⟨(t.stretch s i).1, tasks ++ [(t.stretch s i).2.1]⟩ := by
  have hat : (tasks ++ [t])[tasks.length]? = some t := by simp
  rw [Program.step_go hat]
  show World.mk (t.stretch s i).1 ((tasks ++ [t]).set tasks.length (t.stretch s i).2.1 ++
    (t.stretch s i).2.2) = _
  rw [hnone, List.append_nil, List.set_append_right _ _ (Nat.le_refl _), Nat.sub_self]
  rfl

/-- A tick of a member, from its beginning to its end. -/
def tickAlone (tasks : List RoutePoint) (ip : Ipv4Addr) : List (Act RoutePoint Answers Outside) :=
  .start .tick :: List.replicate 4 (.go tasks.length { member := some ip })

/-- **The next tick asks**, where the latch is not set. -/
theorem tick_asks {s : Phone} {tasks : List RoutePoint} (honline : s.online = true)
    (hlatch : s.tunAttempted = false) {ev : Receiver EngineEvent} (hev : s.events = some ev)
    (ip : Ipv4Addr) :
    ∃ ev', (run routing.step ⟨s, tasks⟩ (tickAlone tasks ip)).shared.events = some ev' ∧
      .tunSetupRequired ip.text Nullgate.TUN_MTU.toUInt32 ∈ ev'.queue := by
  have hbegun : routing.step ⟨s, tasks⟩ (.start .tick) = ⟨s, tasks ++ [.tick]⟩ := rfl
  have htick : RoutePoint.stretch s { member := some ip } .tick = (s, .enabling ip, []) := by
    rw [RoutePoint.stretch]
    exact congrArg (s, ·, []) (if_pos honline)
  have henable : RoutePoint.stretch s { member := some ip } (.enabling ip) =
      ({ s with tunAttempted := true }, .latched ip, []) := by
    rw [RoutePoint.stretch, hlatch]
    rfl
  rw [tickAlone, run_cons, hbegun]
  simp only [List.replicate, run_cons, run_nil]
  rw [step_last s tasks _ (by rw [htick]), htick, step_last s tasks _ (by rw [henable]), henable,
    step_last _ tasks _ rfl, step_last _ tasks _ rfl]
  refine ⟨ev.send CHANNEL_CAPACITY (.tunSetupRequired ip.text Nullgate.TUN_MTU.toUInt32), ?_,
    Receiver.mem_send _⟩
  exact Phone.events_send (s := { s with tunAttempted := true, assignedIp := some ip }) hev _

/-- **Routing is never dead in silence**: over every interleaving, where nothing is under way, a
    device whose latch is set has an interface, or waits for the user's consent to one, unless an
    ask was lost or an interface refused since the latch was reset last. An interface that it has
    is read from, as long as the reads succeed. And a device that is online with the latch not set,
    that its roster has, asks at its next tick, where the bridge is subscribed. -/
theorem routing_never_dead (acts : List (Act RoutePoint Answers Outside))
    (hrest : AtRest (run routing.step ⟨{}, []⟩ acts)) :
    let w := run routing.step ⟨{}, []⟩ acts
    (w.shared.tunAttempted = true → w.shared.tun = none → w.shared.askLost = false →
      w.shared.needsVpnConsent = true ∧ w.shared.pendingTun.isSome = true) ∧
    (∀ fd, w.shared.tun = some fd → fd ∈ w.shared.pumps ∨ fd ∈ w.shared.broken) ∧
    (w.shared.tunAttempted = false → w.shared.online = true → ∀ ev, w.shared.events = some ev →
      ∀ ip, ∃ ev', (run routing.step w (tickAlone w.tasks ip)).shared.events = some ev' ∧
        .tunSetupRequired ip.text Nullgate.TUN_MTU.toUInt32 ∈ ev'.queue) := by
  intro w
  have hidle : ∀ {C : RoutePoint → Prop}, ¬ C .tick → ¬ C .service → ¬ C .done →
      ¬ ∃ t ∈ w.tasks, C t := fun htick hservice hdone ⟨t, ht, hC⟩ => by
    rcases hrest.tasks t ht with rfl | rfl | rfl
    · exact htick hC
    · exact hservice hC
    · exact hdone hC
  have hanswered := (answered_run acts).resolve_right (hidle id id id)
  refine ⟨fun hlatch htun hlost => ?_, fun fd => (read_run fd acts).resolve_right (hidle id id id),
    fun hlatch honline ev hev ip => tick_asks honline hlatch hev ip⟩
  rcases hanswered hlatch with hat | hat | ⟨ev, hev, hask⟩ | hat | hat
  · rw [htun] at hat
    cases hat
  · rw [hlost] at hat
    cases hat
  · rw [hrest.events ev hev] at hask
    cases hask
  · exact absurd hrest.intents hat
  · exact hat

namespace Sample

/-- The address of the phone. -/
def ip : Ipv4Addr := ⟨10, 99, 0, 7⟩

/-- A phone connects, and asks for an interface. -/
def asks : List (Act RoutePoint Answers Outside) :=
  [.env .subscribes, .env .activates] ++ tickAlone [] ip

/-- The bridge takes the ask to the service, and the interface is attached. -/
def attaches (i : Answers) : List (Act RoutePoint Answers Outside) :=
  [.env (.bridges true), .start .service, .go 1 i] ++ List.replicate 6 (.go 2 i)

/-- The user takes the phone offline. -/
def disconnects (k : Nat) : List (Act RoutePoint Answers Outside) :=
  .start .disconnecting :: List.replicate 6 (.go k {})

end Sample

/-- No consent to a VPN: the phone asks for it. -/
theorem routing_never_dead_sample :
    (run routing.step ⟨{}, []⟩ (Sample.asks ++ [.env (.bridges false)])).shared.needsVpnConsent =
      true := by
  have hrest : AtRest (run routing.step ⟨{}, []⟩ (Sample.asks ++ [.env (.bridges false)])) :=
    ⟨fun ev hev => by cases hev; rfl, rfl, fun t ht => by
      cases List.mem_singleton.mp ht
      exact Or.inr (Or.inr rfl)⟩
  exact ((routing_never_dead _ hrest).1 rfl rfl rfl).1

/-- An interface that is refused leaves the latch set: no tick asks again. -/
example :
    let s := (run routing.step ⟨{}, []⟩ (Sample.asks ++ Sample.attaches { adopts := false })).shared
    s.tunAttempted = true ∧ s.tun = none ∧ s.needsVpnConsent = false ∧ s.askLost = true := by decide

/-- An interface may come when the phone is offline again: nobody looks. -/
example :
    let s := (run routing.step ⟨{}, []⟩
      (Sample.asks ++ Sample.disconnects 1 ++ [.env (.bridges true), .start .service, .go 2 {}] ++
        List.replicate 5 (.go 3 {}))).shared
    s.online = false ∧ s.tun = some 0 ∧ s.pumps = [0] := by decide

end Nullgate.Mobile
