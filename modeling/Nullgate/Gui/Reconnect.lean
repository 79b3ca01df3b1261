/-
  File:      Nullgate/Gui/Reconnect.lean
  Subject:   THE GUI AND ITS DAEMON (`subscribe_loop` and `stream_events` of the GUI's `main.rs`).

  The window subscribes to the daemon's events, and when the stream ends it says why and tries again
  every two seconds. A daemon of another protocol answers, and is not to be taken for one that is
  down. A retry that changes nothing must say nothing; a session that was live has drawn over the
  last report, so its end is always one.

  * `streamEvents`: one attempt, from the connection to its end;
  * `Session`: an attempt, and what else the window hears meanwhile;
  * `Reconnect.session`: the loop around it;
  * **`condition_shown`**: between two sessions the window shows the condition of the daemon, and
    nothing of the network; it is told of it if it is new, and when a live session ends. Only a
    failed request can say over it that the daemon is down.
-/
import Nullgate.Daemon.Frames
import Nullgate.Gui.MainPage

namespace Nullgate.Gui

open Nullgate.Lib

/-! ## 1. One attempt -/

/-- What this GUI was built as. -/
structure Build where
  /-- `ipn_ipc::PROTO_VERSION` -/
  protoVersion : UInt32
  /-- `CARGO_PKG_VERSION` -/
  appVersion : String
  /-- `cfg(windows)` -/
  windows : Bool

/-- A response of the daemon; only the one to `Hello` is looked at. -/
inductive StreamResponse where
  | hello (version : UInt32) (appVersion : String)
  | other

/-- An event of the daemon. -/
inductive StreamEvent where
  | status (s : Option Snapshot)
  | joinSas (sas : List String)
  | joinRequest (r : PendingJoin)

/-- What the window's loop gets of an event. The code of a join opens a dialog of its own. -/
def StreamEvent.msg : StreamEvent → Option UiEvent
  | .status s => some (.status s)
  | .joinRequest r => some (.joinRequest r)
  | .joinSas _ => none

/-- What comes over the connection. -/
abbrev Incoming := Message Unit StreamResponse StreamEvent

/-- Why the event stream ended. -/
inductive StreamEnd where
  /-- the connection closed, or never opened -/
  | disconnected (wasLive : Bool)
  /-- the daemon speaks another protocol -/
  | versionMismatch (daemon : UInt32)
  /-- the daemon came back on another version of the app -/
  | updateApplied
  deriving DecidableEq

/-- **One attempt**, as the daemon and the pipe answer it. -/
structure Attempt where
  connects : Bool := true
  /-- the request `Hello` is written -/
  greets : Bool := true
  /-- all that is read before the connection ends -/
  incoming : List Incoming := []
  /-- it ends between two frames, and not by an error -/
  clean : Bool := true
  /-- the request `Subscribe` is written -/
  subscribes : Bool := true

/-- The answer to `Hello`, and what comes behind it. Whatever comes before is skipped. -/
def handshake : List Incoming → Option (UInt32 × String × List Incoming)
  | [] => none
  | .response (.hello version appVersion) :: rest => some (version, appVersion, rest)
  | _ :: rest => handshake rest

/-- What is passed on once the GUI has subscribed: the events, and nothing else. -/
def pushed (incoming : List Incoming) : List UiEvent :=
  incoming.filterMap fun
    | .event ev => ev.msg
    | _ => none

/-- **An attempt**: how it ends, unless by an error of the pipe, and what it has passed on. -/
def streamEvents (B : Build) (a : Attempt) : Option StreamEnd × List UiEvent :=
  if !a.connects || !a.greets then (none, [])
  else
    match handshake a.incoming with
    | none => (if a.clean then some (.disconnected false) else none, [])
    | some (version, appVersion, rest) =>
      if version ≠ B.protoVersion then (some (.versionMismatch version), [])
      else if !B.windows && appVersion ≠ "" && appVersion ≠ B.appVersion then
        (some .updateApplied, [])
      else if !a.subscribes then (some (.disconnected false), [])
      else (some (.disconnected true), pushed rest)

/-- The end the loop goes by: an error means that there was no usable connection. -/
def Attempt.ending (B : Build) (a : Attempt) : StreamEnd :=
  (streamEvents B a).1.getD (.disconnected false)

/-! ## 2. The loop -/

/-- What the window hears of from elsewhere than the stream. -/
inductive LocalEvent where
  | refresh
  /-- a request has found no daemon -/
  | requestFailed
  | answer (nodeId : String)
  | setAction (nodeId : String) (action : Option ButtonAction)
  | toggleFreeze (on : Bool)
  | toggleSingleUse (on : Bool)

def LocalEvent.toUiEvent : LocalEvent → UiEvent
  | .refresh => .refresh
  | .requestFailed => .daemonDown
  | .answer nodeId => .answer nodeId
  | .setAction nodeId action => .setAction nodeId action
  | .toggleFreeze on => .toggleFreeze on
  | .toggleSingleUse on => .toggleSingleUse on

def LocalEvent.failed : LocalEvent → Bool
  | .requestFailed => true
  | _ => false

/-- One entry of the window's queue. -/
inductive Heard where
  | stream (ev : UiEvent)
  | elsewhere (ev : LocalEvent)

def Heard.toUiEvent : Heard → UiEvent
  | .stream ev => ev
  | .elsewhere ev => ev.toUiEvent

def Heard.stream? : Heard → Option UiEvent
  | .stream ev => some ev
  | .elsewhere _ => none

def Heard.failed : Heard → Bool
  | .stream _ => false
  | .elsewhere ev => ev.failed

/-- **A session**: an attempt, and all the window hears until it has ended, at the times it does.
    The pushes come in their order, with anything from elsewhere in between. -/
structure Session (B : Build) where
  attempt : Attempt
  heard : List (UInt64 × Heard)
  pushes : heard.filterMap (fun x => x.2.stream?) = (streamEvents B attempt).2
  /-- when the window hears of the end -/
  toldAt : UInt64

def Session.ending {B : Build} (s : Session B) : StreamEnd := s.attempt.ending B

/-- The window handles what it hears. -/
def Window.hear (w : Window) (l : List (UInt64 × Heard)) : Window :=
  run Window.step w (l.map fun x => (x.1, x.2.toUiEvent))

/-- **The loop and the window.** -/
structure Reconnect where
  /-- the condition the window is showing -/
  showing : Option StreamEnd := none
  /-- nothing once the GUI has been relaunched -/
  window : Option Window := some {}
  /-- since the window was told last, a failed request has said that the daemon is down -/
  overwritten : Bool := false

/-- The message for a condition; for an update, the process is relaunched instead. -/
def StreamEnd.report (B : Build) : StreamEnd → Option UiEvent
  | .disconnected _ => some .daemonDown
  | .versionMismatch daemon => some (.versionMismatch daemon B.protoVersion)
  | .updateApplied => none

namespace Reconnect

variable {B : Build} (g : Reconnect) (s : Session B)

/-- What the window is taken to show when a session has ended: nothing, if it was live. -/
def stillShowing : Option StreamEnd :=
  if s.ending = .disconnected true then none else g.showing

/-- Whether the window is told of the end. -/
def tells : Bool := g.stillShowing s ≠ some s.ending

/-- **One turn of the loop.** -/
def session : Reconnect :=
  match g.window with
  | none => g
  | some w =>
    let w := w.hear s.heard
    if g.tells s then
      { showing := some s.ending
        window := (s.ending.report B).map fun msg => w.step (s.toldAt, msg) }
    else
      { g with
        showing := g.stillShowing s
        window := some w
        overwritten := g.overwritten || s.heard.any fun x => x.2.failed }

end Reconnect

/-! ## 3. What is shown between two sessions -/

/-- The screen for a condition. -/
def conditionScreen (B : Build) (ending : StreamEnd) (overwritten : Bool) : Screen :=
  match ending, overwritten with
  | .versionMismatch daemon, false =>
    { addBtn := false, banner := none, joinBanner := none
      body := .placeholder (.versionMismatch daemon B.protoVersion) }
  | _, _ =>
    { addBtn := false, banner := ServiceBanner.daemonDown.text, joinBanner := none
      body := .placeholder .daemonDown }

/-- Nothing of a network is left, and the window shows the condition. -/
structure Away (B : Build) (ending : StreamEnd) (overwritten : Bool) (w : Window) : Prop where
  state : w.state = none
  screen : w.screen = conditionScreen B ending overwritten

variable {B : Build} {ending : StreamEnd} {overwritten : Bool} {w : Window}

/-- What comes from elsewhere leaves the screen as it is, but for a failed request. -/
theorem Away.local (h : Away B ending overwritten w) (now : UInt64) (ev : LocalEvent) :
    Away B ending (overwritten || ev.failed) (w.step (now, ev.toUiEvent)) := by
  cases ev with
  | requestFailed =>
    refine ⟨rfl, ?_⟩
    rw [LocalEvent.failed, Bool.or_true]
    cases ending <;> rfl
  | refresh =>
    have hsame : w.step (now, LocalEvent.refresh.toUiEvent) = w := by
      show (w.take .refresh).redraw now = w
      have hstate : (w.take .refresh).state = none := h.state
      rw [Window.redraw, hstate]
      rfl
    show Away B ending (overwritten || false) _
    rw [hsame, Bool.or_false]
    exact h
  | setAction nodeId action =>
    show Away B ending (overwritten || false) _
    rw [Bool.or_false]
    cases action <;> exact ⟨h.state, h.screen⟩
  | answer _ | toggleFreeze _ | toggleSingleUse _ =>
    show Away B ending (overwritten || false) _
    rw [Bool.or_false]
    exact ⟨h.state, h.screen⟩

theorem Away.hear (h : Away B ending overwritten w) {l : List (UInt64 × Heard)}
    (hlocal : l.filterMap (fun x => x.2.stream?) = []) :
    Away B ending (overwritten || l.any fun x => x.2.failed) (w.hear l) := by
  induction l generalizing w overwritten with
  | nil =>
    rw [List.any_nil, Bool.or_false]
    exact h
  | cons x l ih =>
    obtain ⟨now, ev | ev⟩ := x
    · cases hlocal
    · rw [List.any_cons, ← Bool.or_assoc]
      exact ih (h.local now ev) hlocal

/-- What the window is told is what it shows. -/
theorem away_report (w : Window) (now : UInt64) {msg : UiEvent}
    (hmsg : ending.report B = some msg) : Away B ending false (w.step (now, msg)) := by
  cases ending with
  | disconnected wasLive =>
    cases hmsg
    exact ⟨rfl, rfl⟩
  | versionMismatch daemon =>
    cases hmsg
    exact ⟨rfl, rfl⟩
  | updateApplied => cases hmsg

/-- **Only a live session passes anything on.** -/
theorem pushes_of_not_live {a : Attempt} (h : a.ending B ≠ .disconnected true) :
    (streamEvents B a).2 = [] := by
  unfold Attempt.ending streamEvents at h
  unfold streamEvents
  split
  · rfl
  · rename_i hconnects
    rw [if_neg hconnects] at h
    split
    · rfl
    · rename_i version appVersion rest hhello
      rw [hhello] at h
      dsimp only at h ⊢
      split
      · rfl
      · rename_i hversion
        rw [if_neg hversion] at h
        split
        · rfl
        · rename_i happ
          rw [if_neg happ] at h
          split
          · rfl
          · rename_i hsub
            rw [if_neg hsub] at h
            exact absurd rfl h

/-- The window shows what the loop takes it to show. -/
def Reconnect.Told (B : Build) (g : Reconnect) : Prop :=
  ∀ ending w, g.showing = some ending → g.window = some w → Away B ending g.overwritten w

namespace Reconnect

variable {g : Reconnect} {s : Session B}

/-- The loop goes on as long as the GUI runs. -/
theorem running_of_session {w : Window} (hw : (g.session s).window = some w) :
    ∃ w₀, g.window = some w₀ := by
  cases hwin : g.window with
  | none =>
    rw [Reconnect.session, hwin] at hw
    rw [hwin] at hw
    cases hw
  | some w₀ => exact ⟨w₀, rfl⟩

/-- What has ended last is what the window is taken to show. -/
theorem showing_session {w : Window} (hw : g.window = some w) :
    (g.session s).showing = some s.ending := by
  rw [Reconnect.session, hw]
  dsimp only
  by_cases htells : g.tells s = true
  · rw [if_pos htells]
  · rw [if_neg htells]
    simpa [tells] using htells

/-- **One turn of the loop.** -/
theorem Told.session (h : g.Told B) : (g.session s).Told B := by
  cases hwin : g.window with
  | none =>
    rw [Reconnect.session, hwin]
    exact h
  | some w₀ =>
    intro ending w hending hw
    obtain rfl := Option.some.inj ((showing_session hwin).symm.trans hending)
    rw [Reconnect.session, hwin] at hw ⊢
    dsimp only at hw ⊢
    by_cases htells : g.tells s = true
    · rw [if_pos htells] at hw ⊢
      obtain ⟨msg, hmsg, rfl⟩ := Option.map_eq_some_iff.mp hw
      exact away_report _ _ hmsg
    · -- a retry that changes nothing: the window was told before, and nothing has been passed on
      rw [if_neg htells] at hw ⊢
      obtain rfl := Option.some.inj hw
      have hstill : g.stillShowing s = some s.ending := by simpa [tells] using htells
      have hlive : s.ending ≠ .disconnected true := fun he => by
        rw [stillShowing, if_pos he] at hstill
        cases hstill
      rw [stillShowing, if_neg hlive] at hstill
      exact (h _ _ hstill hwin).hear (s.pushes.trans (pushes_of_not_live hlive))

theorem told_run (sessions : List (Session B)) : (run Reconnect.session {} sessions).Told B :=
  run_invariant (fun _ _ _ h => h.session) fun ending w hending _ => by cases hending

/-- The window is told of a condition that is new, and of the end of a live session. -/
theorem tells_iff (sessions : List (Session B)) {w : Window}
    (hw : (run Reconnect.session {} sessions).window = some w) :
    (run Reconnect.session {} sessions).tells s = true ↔
      s.ending = .disconnected true ∨ ∀ last ∈ sessions.getLast?, last.ending ≠ s.ending := by
  have hshowing : (run Reconnect.session {} sessions).showing =
      sessions.getLast?.map Session.ending := by
    rcases List.eq_nil_or_concat sessions with rfl | ⟨before, last, rfl⟩
    · rfl
    · rw [List.concat_eq_append] at hw ⊢
      rw [run_append, run_cons, run_nil] at hw ⊢
      obtain ⟨w₀, hw₀⟩ := running_of_session hw
      rw [showing_session hw₀, List.getLast?_concat]
      rfl
  rw [tells, decide_eq_true_iff, stillShowing, hshowing]
  split_ifs with hlive
  · simp [hlive]
  · cases sessions.getLast? <;> simp [hlive]

end Reconnect

/-- **Between two sessions the window shows the condition of the daemon**: what the last session has
    ended with, or that the daemon is down, once a failed request has told of it over a mismatch.
    Nothing of a network is left. The window has been told exactly if the condition is another than
    at the end of the session before, or the session was live. -/
theorem condition_shown (sessions : List (Session B)) (s : Session B) {w : Window}
    (hw : (run Reconnect.session {} (sessions ++ [s])).window = some w)
    (others : List (UInt64 × LocalEvent)) :
    let g := run Reconnect.session {} sessions
    (g.tells s = true ↔
      s.ending = .disconnected true ∨ ∀ last ∈ sessions.getLast?, last.ending ≠ s.ending) ∧
    Away B s.ending ((g.session s).overwritten || others.any fun x => x.2.failed)
      (w.hear (others.map fun x => (x.1, .elsewhere x.2))) := by
  intro g
  rw [run_append, run_cons, run_nil] at hw
  obtain ⟨w₀, hw₀⟩ := Reconnect.running_of_session hw
  refine ⟨Reconnect.tells_iff sessions hw₀, ?_⟩
  have hlocal : (others.map fun x => (x.1, Heard.elsewhere x.2)).filterMap
      (fun x => x.2.stream?) = [] := by
    rw [List.filterMap_map]
    exact List.filterMap_eq_nil_iff.mpr fun _ _ => rfl
  have hany : (others.map fun x => (x.1, Heard.elsewhere x.2)).any (fun x => x.2.failed) =
      others.any fun x => x.2.failed := by
    rw [List.any_map]
    rfl
  have haway := (Reconnect.told_run sessions).session _ _ (Reconnect.showing_session hw₀) hw
  exact hany ▸ haway.hear hlocal

/-- A GUI of protocol 3. -/
def Sample.build : Build := ⟨3, "0.9.0", false⟩

/-- A daemon of protocol 4 answers; meanwhile the window hears this and that. -/
def Sample.mismatch (heard : List (UInt64 × LocalEvent)) : Session Sample.build where
  attempt := { incoming := [.response (.hello 4 "1.0.0")] }
  heard := heard.map fun x => (x.1, .elsewhere x.2)
  pushes := by
    rw [List.filterMap_map]
    exact List.filterMap_eq_nil_iff.mpr fun _ _ => rfl
  toldAt := 0

/-- It is not taken for one that is down, and a retry does not tell of it again. -/
theorem condition_shown_sample :
    (run Reconnect.session {} [Sample.mismatch []]).tells (Sample.mismatch []) = false ∧
    ∃ w, (run Reconnect.session {} [Sample.mismatch [], Sample.mismatch []]).window = some w ∧
      w.screen = conditionScreen Sample.build (.versionMismatch 4) false := by
  obtain ⟨htells, haway⟩ := condition_shown [Sample.mismatch []] (Sample.mismatch []) rfl []
  exact ⟨Bool.eq_false_iff.mpr (mt htells.mp (by decide)), _, rfl, haway.screen⟩

/-- A failed request says otherwise, and no retry sets it right. -/
example : ((run Reconnect.session {}
    [Sample.mismatch [], Sample.mismatch [(1, .requestFailed)], Sample.mismatch []]).window.map
      fun w => w.screen.body) = some (.placeholder .daemonDown) := rfl

end Nullgate.Gui
