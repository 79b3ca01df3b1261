/-
  File:      Nullgate/Daemon/Pipeline.lean
  Subject:   PIPELINED REQUESTS ON ONE CONNECTION (`main.rs`, `handle_conn`).

  A task of its own reads the frames and puts them into a bounded channel. The handler takes
  them out one at a time; while a request is being handled it moves what comes in to a queue,
  which it works off before it looks at the channel again.

  * `IpcConn.turn`: what the reader and the handler do next; `IpcConn.step`: the same with the
    client in between; `IpcConn.Turned`: all that a turn can do;
  * `IpcConn.Flow`: begun, queued, in the channel, at the reader, on the wire -- in this order
    these are the frames sent;
  * `IpcConn.answered_of_rest`: a connection at rest has answered every request;
  * **`pipelined_fifo`**.
-/
import Nullgate.Daemon.Frames
import Nullgate.Lib.Schedule

namespace Nullgate

open Nullgate.Lib

variable {Call Response Event : Type}

/-! ## 1. The connection -/

/-- The reader's task. -/
inductive FrameReader (Call Response Event : Type) where
  | reading
  /-- it waits for room in the channel -/
  | sending (frame : Frame Call Response Event)
  | ended

/-- Where the handler is. -/
inductive ConnHandler (Call Response : Type) where
  /-- at the top of its loop -/
  | next
  | working (id : UInt64) (c : Call)
  | responding (id : UInt64) (resp : Response)
  /-- the connection belongs to `subscribe_loop` -/
  | subscribed
  | ended

/-- `mpsc::channel(8)`. -/
def FRAME_CHANNEL : Nat := 8

/-- The frame of a request. -/
def requestFrame (Response Event : Type) (req : UInt64 × Call) : Frame Call Response Event :=
  ⟨req.1, .request (.call req.2)⟩

/-- The frame that answers a request. -/
def responseFrame (Event : Type) (done : (UInt64 × Call) × Response) :
    Frame Call Response Event :=
  ⟨done.1.1, .response done.2⟩

/-- **One client connection.** -/
structure IpcConn (Call Response Event : Type) where
  /-- what the client has written and the reader has not read -/
  wire : List (Frame Call Response Event) := []
  hungUp : Bool := false
  reader : FrameReader Call Response Event := .reading
  rx : List (Frame Call Response Event) := []
  queued : List (Frame Call Response Event) := []
  handler : ConnHandler Call Response := .next
  /-- what the daemon has written -/
  written : List (Frame Call Response Event) := []
  /-- what has happened; no fields of the source -/
  sent : List (Frame Call Response Event) := []
  begun : List (UInt64 × Call) := []
  finished : List ((UInt64 × Call) × Response) := []

namespace IpcConn

/-- `break`: the channel is dropped, and the reader aborted. -/
def stop (s : IpcConn Call Response Event) : IpcConn Call Response Event :=
  { s with handler := .ended, reader := .ended }

/-- The handler has a frame. -/
def take (s : IpcConn Call Response Event) (frame : Frame Call Response Event) :
    IpcConn Call Response Event :=
  match frame.body with
  | .request (.call c) =>
    { s with handler := .working frame.id c, begun := s.begun ++ [(frame.id, c)] }
  | .request .subscribe => { s with handler := .subscribed }
  | _ => s

/-- What the daemon does on the connection. -/
inductive Turn (Response : Type) where
  /-- the reader reads a frame -/
  | read
  /-- the reader meets the end of the stream, or an error -/
  | readEnd
  /-- the reader's frame goes into the channel -/
  | deliver
  /-- the handler goes on at the top of its loop -/
  | next
  /-- while a request is handled, a frame comes out of the channel -/
  | receive
  /-- `handle_request` returns -/
  | finish (resp : Response)
  | write
  /-- the write fails -/
  | writeFail

def turn (s : IpcConn Call Response Event) : Turn Response → IpcConn Call Response Event
  | .read =>
    match s.reader, s.wire with
    | .reading, frame :: wire => { s with reader := .sending frame, wire }
    | _, _ => s
  | .readEnd =>
    match s.reader with
    | .reading => if s.hungUp then { s with reader := .ended } else s
    | _ => s
  | .deliver =>
    match s.reader, s.handler with
    | .sending _, .ended => { s with reader := .ended }
    | .sending frame, _ =>
      if s.rx.length < FRAME_CHANNEL then { s with rx := s.rx ++ [frame], reader := .reading }
      else s
    | _, _ => s
  | .next =>
    match s.handler with
    | .next =>
      match s.queued, s.rx, s.reader with
      | frame :: queued, _, _ => { s with queued }.take frame
      | [], frame :: rx, _ => { s with rx }.take frame
      | [], [], .ended => s.stop
      | [], [], _ => s
    | _ => s
  | .receive =>
    match s.handler with
    | .working _ _ =>
      match s.rx, s.reader with
      | frame :: rx, _ => { s with rx, queued := s.queued ++ [frame] }
      | [], .ended => s.stop
      | [], _ => s
    | _ => s
  | .finish resp =>
    match s.handler with
    | .working id c =>
      { s with handler := .responding id resp, finished := s.finished ++ [((id, c), resp)] }
    | _ => s
  | .write =>
    match s.handler with
    | .responding id resp =>
      { s with handler := .next, written := s.written ++ [⟨id, .response resp⟩] }
    | _ => s
  | .writeFail =>
    match s.handler with
    | .responding _ _ => if s.hungUp then { s with handler := .ended } else s
    | _ => s

/-- What happens on the connection. -/
inductive Act (Call Response Event : Type) where
  /-- the client writes a frame -/
  | send (frame : Frame Call Response Event)
  | hangUp
  | turn (t : Turn Response)

def step (s : IpcConn Call Response Event) : Act Call Response Event → IpcConn Call Response Event
  | .send frame =>
    if s.hungUp then s else { s with wire := s.wire ++ [frame], sent := s.sent ++ [frame] }
  | .hangUp => { s with hungUp := true }
  | .turn t => s.turn t

/-- **All that a turn can do.** -/
inductive Turned (s : IpcConn Call Response Event) : IpcConn Call Response Event → Prop
  | same : Turned s s
  | read (frame : Frame Call Response Event) (wire : List (Frame Call Response Event))
      (reader : s.reader = .reading) (next : s.wire = frame :: wire) :
      Turned s { s with reader := .sending frame, wire }
  | readerEnds (gone : s.hungUp = true ∨ s.handler = .ended) : Turned s { s with reader := .ended }
  | deliver (frame : Frame Call Response Event) (reader : s.reader = .sending frame)
      (room : s.rx.length < FRAME_CHANNEL) :
      Turned s { s with rx := s.rx ++ [frame], reader := .reading }
  | takeQueued (frame : Frame Call Response Event) (queued : List (Frame Call Response Event))
      (handler : s.handler = .next) (next : s.queued = frame :: queued) :
      Turned s ({ s with queued }.take frame)
  | takeReceived (frame : Frame Call Response Event) (rx : List (Frame Call Response Event))
      (handler : s.handler = .next) (none : s.queued = []) (next : s.rx = frame :: rx) :
      Turned s ({ s with rx }.take frame)
  | stop (reader : s.reader = .ended) : Turned s s.stop
  | receive (id : UInt64) (c : Call) (frame : Frame Call Response Event)
      (rx : List (Frame Call Response Event)) (handler : s.handler = .working id c)
      (next : s.rx = frame :: rx) : Turned s { s with rx, queued := s.queued ++ [frame] }
  | finish (id : UInt64) (c : Call) (resp : Response) (handler : s.handler = .working id c) :
      Turned s
        { s with handler := .responding id resp, finished := s.finished ++ [((id, c), resp)] }
  | write (id : UInt64) (resp : Response) (handler : s.handler = .responding id resp) :
      Turned s { s with handler := .next, written := s.written ++ [⟨id, .response resp⟩] }
  | writeFail (gone : s.hungUp = true) : Turned s { s with handler := .ended }

theorem turned (s : IpcConn Call Response Event) (t : Turn Response) : s.Turned (s.turn t) := by
  cases t with
  | read =>
    unfold turn
    dsimp only
    split
    · exact .read _ _ ‹_› ‹_›
    · exact .same
  | readEnd =>
    unfold turn
    dsimp only
    split
    · split
      · exact .readerEnds (Or.inl ‹_›)
      · exact .same
    · exact .same
  | deliver =>
    unfold turn
    dsimp only
    split
    · exact .readerEnds (Or.inr ‹_›)
    · split
      · exact .deliver _ ‹_› ‹_›
      · exact .same
    · exact .same
  | next =>
    unfold turn
    dsimp only
    split
    · split
      · exact .takeQueued _ _ ‹_› ‹_›
      · exact .takeReceived _ _ ‹_› ‹_› ‹_›
      · exact .stop ‹_›
      · exact .same
    · exact .same
  | receive =>
    unfold turn
    dsimp only
    split
    · split
      · exact .receive _ _ _ _ ‹_› ‹_›
      · exact .stop ‹_›
      · exact .same
    · exact .same
  | finish resp =>
    unfold turn
    dsimp only
    split
    · exact .finish _ _ _ ‹_›
    · exact .same
  | write =>
    unfold turn
    dsimp only
    split
    · exact .write _ _ ‹_›
    · exact .same
  | writeFail =>
    unfold turn
    dsimp only
    split
    · split
      · exact .writeFail ‹_›
      · exact .same
    · exact .same

/-! ## 2. The order of the frames -/

/-- The frame the reader holds. -/
def held : FrameReader Call Response Event → List (Frame Call Response Event)
  | .sending frame => [frame]
  | _ => []

/-- The requests begun, as their frames. -/
def begunFrames (s : IpcConn Call Response Event) : List (Frame Call Response Event) :=
  s.begun.map (requestFrame Response Event)

/-- The responses of the requests that are done, as their frames. -/
def answers (s : IpcConn Call Response Event) : List (Frame Call Response Event) :=
  s.finished.map (responseFrame Event)

/-- **One at a time, and each answered before the next**: what is done is what was begun first,
    and what is written are the answers to it. -/
structure Handled (begun : List (UInt64 × Call)) (finished : List ((UInt64 × Call) × Response))
    (written : List (Frame Call Response Event)) : Prop where
  inOrder : finished.map Prod.fst <+: begun
  oneAtATime : begun.length ≤ written.length + 1
  written : written <+: finished.map (responseFrame Event)

/-- What holds at each point of the handler. -/
def AtPoint (s : IpcConn Call Response Event) : Prop :=
  match s.handler with
  | .next => s.begun = s.finished.map Prod.fst ∧ s.written = s.answers
  | .working id c => s.begun = s.finished.map Prod.fst ++ [(id, c)] ∧ s.written = s.answers
  | .responding id resp => s.begun = s.finished.map Prod.fst ∧
      s.answers = s.written ++ [⟨id, .response resp⟩]
  | .subscribed => False
  | .ended => Handled s.begun s.finished s.written

end IpcConn

/-- A request other than `Subscribe`. -/
def Frame.isCall (frame : Frame Call Response Event) : Bool :=
  match frame.body with
  | .request (.call _) => true
  | _ => false

theorem Frame.eq_requestFrame {frame : Frame Call Response Event} (h : frame.isCall = true) :
    ∃ c, frame = requestFrame Response Event (frame.id, c) := by
  obtain ⟨id, body⟩ := frame
  cases body with
  | request req =>
    cases req with
    | call c => exact ⟨c, rfl⟩
    | subscribe => cases h
  | response resp => cases h
  | event e => cases h

namespace IpcConn

/-- **The frames flow in order.** -/
structure Flow (s : IpcConn Call Response Event) : Prop where
  calls : ∀ frame ∈ s.sent, frame.isCall = true
  order : s.begunFrames ++ s.queued ++ s.rx <+: s.sent
  /-- nothing is lost while the reader runs -/
  intact : s.reader ≠ .ended →
    s.sent = s.begunFrames ++ s.queued ++ s.rx ++ held s.reader ++ s.wire
  /-- only a hang-up ends them -/
  connected : s.hungUp = false → s.reader ≠ .ended ∧ s.handler ≠ .ended
  point : s.AtPoint

variable {s : IpcConn Call Response Event}

theorem flow_start : Flow ({} : IpcConn Call Response Event) where
  calls := fun _ h => by cases h
  order := List.prefix_rfl
  intact := fun _ => rfl
  connected := fun _ => ⟨nofun, nofun⟩
  point := ⟨rfl, rfl⟩

theorem AtPoint.handled (h : s.AtPoint) : Handled s.begun s.finished s.written := by
  unfold AtPoint at h
  split at h
  · obtain ⟨hbegun, hwritten⟩ := h
    refine ⟨⟨[], by rw [hbegun, List.append_nil]⟩, ?_,
      ⟨[], by rw [hwritten, List.append_nil, answers]⟩⟩
    rw [hbegun, hwritten, answers, List.length_map, List.length_map]
    omega
  · obtain ⟨hbegun, hwritten⟩ := h
    refine ⟨⟨_, hbegun.symm⟩, ?_, ⟨[], by rw [hwritten, List.append_nil, answers]⟩⟩
    rw [hbegun, hwritten, answers, List.length_append, List.length_map, List.length_map]
    rfl
  · obtain ⟨hbegun, hanswers⟩ := h
    have hlen := congrArg List.length hanswers
    rw [answers, List.length_map, List.length_append, List.length_singleton] at hlen
    refine ⟨⟨[], by rw [hbegun, List.append_nil]⟩, ?_, ⟨_, hanswers.symm⟩⟩
    rw [hbegun, List.length_map]
    omega
  · exact h.elim
  · exact h

/-- The handler takes the frame that comes next. -/
theorem Flow.take {frame : Frame Call Response Event} (hcall : frame.isCall = true)
    (hcalls : ∀ frame ∈ s.sent, frame.isCall = true)
    (horder : s.begunFrames ++ frame :: (s.queued ++ s.rx) <+: s.sent)
    (hintact : s.reader ≠ .ended →
      s.sent = s.begunFrames ++ frame :: (s.queued ++ s.rx) ++ held s.reader ++ s.wire)
    (hconnected : s.hungUp = false → s.reader ≠ .ended)
    (hbegun : s.begun = s.finished.map Prod.fst) (hwritten : s.written = s.answers) :
    (s.take frame).Flow := by
  obtain ⟨c, hframe⟩ := Frame.eq_requestFrame hcall
  have htake : s.take frame =
      { s with handler := .working frame.id c, begun := s.begun ++ [(frame.id, c)] } := by
    rw [hframe]
    rfl
  have hframes : (s.take frame).begunFrames = s.begunFrames ++ [frame] := by
    rw [htake, begunFrames, begunFrames, List.map_append, List.map_singleton, ← hframe]
  constructor
  · rw [htake]
    exact hcalls
  · rw [hframes]
    simpa [htake] using horder
  · intro hreader
    rw [hframes]
    have h := hintact (by simpa [htake] using hreader)
    simpa [htake] using h
  · intro hup
    rw [htake] at hup ⊢
    exact ⟨hconnected hup, nofun⟩
  · rw [htake]
    exact ⟨by rw [hbegun], hwritten⟩

/-- Ending the handler keeps what was handled. -/
theorem Flow.stop (h : s.Flow) (hup : s.hungUp = true) : s.stop.Flow where
  calls := h.calls
  order := h.order
  intact := fun hreader => absurd rfl hreader
  connected := fun hfalse => absurd (hup.symm.trans hfalse) nofun
  point := h.point.handled

/-- A reader that has ended tells of a hang-up. -/
theorem Flow.hungUp_of_ended (h : s.Flow) (hreader : s.reader = .ended) : s.hungUp = true := by
  cases hup : s.hungUp with
  | true => rfl
  | false => exact absurd hreader (h.connected hup).1

/-- The reader ends, because nobody writes or nobody listens any more. -/
theorem Flow.endReader (h : s.Flow) (hgone : s.hungUp = true ∨ s.handler = .ended) :
    Flow { s with reader := .ended } where
  calls := h.calls
  order := h.order
  intact := fun hne => absurd rfl hne
  connected := fun hup => by
    have hrunning := h.connected hup
    rcases hgone with hgone | hended
    · exact absurd (hgone.symm.trans hup) nofun
    · exact absurd hended hrunning.2
  point := h.point

/-- A frame goes from the wire to the reader, -/
theorem Flow.read {frame : Frame Call Response Event} {wire : List (Frame Call Response Event)}
    (h : s.Flow) (hreader : s.reader = .reading) (hwire : s.wire = frame :: wire) :
    Flow { s with reader := .sending frame, wire } where
  calls := h.calls
  order := h.order
  intact := fun _ => by
    have hintact := h.intact (by rw [hreader]; nofun)
    rw [hreader, hwire] at hintact
    rw [hintact]
    simp [held, begunFrames]
  connected := fun hup => ⟨nofun, (h.connected hup).2⟩
  point := h.point

/-- from the reader into the channel, -/
theorem Flow.deliver {frame : Frame Call Response Event} (h : s.Flow)
    (hreader : s.reader = .sending frame) :
    Flow { s with rx := s.rx ++ [frame], reader := .reading } := by
  have hintact := h.intact (by rw [hreader]; nofun)
  rw [hreader] at hintact
  have hsame : s.sent = s.begunFrames ++ s.queued ++ (s.rx ++ [frame]) ++ s.wire := by
    rw [hintact]
    simp [held]
  exact {
    calls := h.calls
    order := ⟨s.wire, hsame.symm⟩
    intact := fun _ => by
      show s.sent = s.begunFrames ++ s.queued ++ (s.rx ++ [frame]) ++ [] ++ s.wire
      rw [hsame, List.append_nil]
    connected := fun hup => ⟨nofun, (h.connected hup).2⟩
    point := h.point }

/-- from the channel to the queue, -/
theorem Flow.receive {frame : Frame Call Response Event} {rx : List (Frame Call Response Event)}
    (h : s.Flow) (hrx : s.rx = frame :: rx) :
    Flow { s with rx, queued := s.queued ++ [frame] } := by
  have horder := h.order
  rw [hrx] at horder
  exact {
    calls := h.calls
    order := by simpa [begunFrames] using horder
    intact := fun hne => by
      have hintact := h.intact hne
      rw [hrx] at hintact
      simpa [begunFrames] using hintact
    connected := h.connected
    point := h.point }

/-- from the queue to the handler, -/
theorem Flow.takeQueued {frame : Frame Call Response Event}
    {queued : List (Frame Call Response Event)} (h : s.Flow) (hhandler : s.handler = .next)
    (hqueued : s.queued = frame :: queued) : ({ s with queued }.take frame).Flow := by
  have hpoint := h.point
  rw [AtPoint, hhandler] at hpoint
  have horder := h.order
  rw [hqueued] at horder
  have hmem : frame ∈ s.sent := horder.subset (by simp)
  refine Flow.take (s := { s with queued }) (h.calls _ hmem) h.calls ?_ ?_
    (fun hup => (h.connected hup).1) hpoint.1 hpoint.2
  · simpa [begunFrames] using horder
  · intro hne
    have hintact := h.intact hne
    rw [hqueued] at hintact
    simpa [begunFrames] using hintact

/-- or, if that is empty, from the channel. -/
theorem Flow.takeReceived {frame : Frame Call Response Event}
    {rx : List (Frame Call Response Event)} (h : s.Flow) (hhandler : s.handler = .next)
    (hqueued : s.queued = []) (hrx : s.rx = frame :: rx) : ({ s with rx }.take frame).Flow := by
  have hpoint := h.point
  rw [AtPoint, hhandler] at hpoint
  have horder := h.order
  rw [hqueued, hrx] at horder
  have hmem : frame ∈ s.sent := horder.subset (by simp)
  refine Flow.take (s := { s with rx }) (h.calls _ hmem) h.calls ?_ ?_
    (fun hup => (h.connected hup).1) hpoint.1 hpoint.2
  · simpa [hqueued, begunFrames] using horder
  · intro hne
    have hintact := h.intact hne
    rw [hqueued, hrx] at hintact
    simpa [hqueued, begunFrames] using hintact

theorem Flow.finish {id : UInt64} {c : Call} (h : s.Flow) (resp : Response)
    (hhandler : s.handler = .working id c) :
    Flow { s with
      handler := .responding id resp, finished := s.finished ++ [((id, c), resp)] } := by
  have hpoint := h.point
  rw [AtPoint, hhandler] at hpoint
  obtain ⟨hbegun, hwritten⟩ := hpoint
  refine ⟨h.calls, h.order, h.intact, fun hup => ⟨(h.connected hup).1, nofun⟩, ?_, ?_⟩
  · show s.begun = (s.finished ++ [((id, c), resp)]).map Prod.fst
    rw [hbegun, List.map_append, List.map_singleton]
  · show (s.finished ++ [((id, c), resp)]).map (responseFrame Event) = _
    rw [List.map_append, hwritten]
    rfl

theorem Flow.write {id : UInt64} {resp : Response} (h : s.Flow)
    (hhandler : s.handler = .responding id resp) :
    Flow { s with handler := .next, written := s.written ++ [⟨id, .response resp⟩] } := by
  have hpoint := h.point
  rw [AtPoint, hhandler] at hpoint
  obtain ⟨hbegun, hanswers⟩ := hpoint
  exact ⟨h.calls, h.order, h.intact, fun hup => ⟨(h.connected hup).1, nofun⟩, hbegun,
    hanswers.symm⟩

/-- The handler ends after a hang-up. -/
theorem Flow.endHandler (h : s.Flow) (hup : s.hungUp = true) : Flow { s with handler := .ended } :=
  ⟨h.calls, h.order, h.intact, fun hfalse => absurd (hup.symm.trans hfalse) nofun, h.point.handled⟩

/-- **Every turn keeps the flow.** -/
theorem flow_turn (h : s.Flow) (t : Turn Response) : (s.turn t).Flow := by
  have hturned := s.turned t
  generalize s.turn t = s' at hturned
  cases hturned with
  | same => exact h
  | read frame wire reader next => exact h.read reader next
  | readerEnds gone => exact h.endReader gone
  | deliver frame reader room => exact h.deliver reader
  | takeQueued frame queued handler next => exact h.takeQueued handler next
  | takeReceived frame rx handler none next => exact h.takeReceived handler none next
  | stop reader => exact h.stop (h.hungUp_of_ended reader)
  | receive id c frame rx handler next => exact h.receive next
  | finish id c resp handler => exact h.finish resp handler
  | write id resp handler => exact h.write handler
  | writeFail gone => exact h.endHandler gone

/-- **Every step keeps the flow**, if the client sends requests other than `Subscribe`. -/
theorem flow_step (h : s.Flow) {act : Act Call Response Event}
    (hcall : ∀ frame, act = .send frame → frame.isCall = true) : (s.step act).Flow := by
  cases act with
  | send frame =>
    unfold step
    dsimp only
    split
    · exact h
    · refine ⟨fun f hf => ?_, h.order.trans (List.prefix_append _ _), fun hne => ?_, h.connected,
        h.point⟩
      · rcases List.mem_append.mp hf with hf | hf
        · exact h.calls f hf
        · exact hcall f (by rw [List.mem_singleton.mp hf])
      · show s.sent ++ [frame] = s.begunFrames ++ s.queued ++ s.rx ++ held s.reader ++
          (s.wire ++ [frame])
        rw [← List.append_assoc, ← h.intact hne]
  | hangUp => exact ⟨h.calls, h.order, h.intact, nofun, h.point⟩
  | turn t => exact flow_turn h t

/-! ## 3. Coming to rest -/

theorem hungUp_take (s : IpcConn Call Response Event) (frame : Frame Call Response Event) :
    (s.take frame).hungUp = s.hungUp := by
  unfold take
  split <;> rfl

theorem sent_take (s : IpcConn Call Response Event) (frame : Frame Call Response Event) :
    (s.take frame).sent = s.sent := by
  unfold take
  split <;> rfl

/-- The daemon does not hang up for the client, nor send. -/
theorem client_turn (s : IpcConn Call Response Event) (t : Turn Response) :
    (s.turn t).hungUp = s.hungUp ∧ (s.turn t).sent = s.sent := by
  have hturned := s.turned t
  generalize s.turn t = s' at hturned
  cases hturned with
  | takeQueued frame queued handler next => exact ⟨hungUp_take _ _, sent_take _ _⟩
  | takeReceived frame rx handler none next => exact ⟨hungUp_take _ _, sent_take _ _⟩
  | _ => exact ⟨rfl, rfl⟩

/-- What is left to do for the handler. -/
def handlerRank : ConnHandler Call Response → Nat
  | .working _ _ => 2
  | .responding _ _ => 1
  | _ => 0

/-- What each turn uses up some of: how far each frame has come. -/
def rank (s : IpcConn Call Response Event) : Nat :=
  6 * s.wire.length + 5 * (held s.reader).length + 4 * s.rx.length + 3 * s.queued.length +
    handlerRank s.handler

theorem rank_take_le (s : IpcConn Call Response Event) (frame : Frame Call Response Event)
    (hs : s.handler = .next) : (s.take frame).rank ≤ s.rank + 2 := by
  unfold take
  split
  · simp only [rank, handlerRank, hs]
    omega
  · simp only [rank, handlerRank, hs]
    omega
  · omega

/-- **While the client is connected, a turn changes nothing or uses up some of what is to do.** -/
theorem turn_rank (hup : s.hungUp = false) (h : s.Flow) (t : Turn Response) :
    s.turn t = s ∨ (s.turn t).rank < s.rank := by
  have hrunning := h.connected hup
  have hturned := s.turned t
  generalize s.turn t = s' at hturned
  cases hturned with
  | same => exact Or.inl rfl
  | read frame wire reader next =>
    right
    simp only [rank, reader, next, held, List.length_cons, List.length_nil]
    omega
  | readerEnds gone =>
    rcases gone with gone | hended
    · exact absurd (gone.symm.trans hup) nofun
    · exact absurd hended hrunning.2
  | deliver frame reader room =>
    right
    simp only [rank, reader, held, List.length_append, List.length_cons, List.length_nil]
    omega
  | takeQueued frame queued handler next =>
    right
    refine Nat.lt_of_le_of_lt (rank_take_le { s with queued } frame handler) ?_
    simp only [rank, next, List.length_cons]
    omega
  | takeReceived frame rx handler none next =>
    right
    refine Nat.lt_of_le_of_lt (rank_take_le { s with rx } frame handler) ?_
    simp only [rank, next, List.length_cons]
    omega
  | stop reader => exact absurd reader hrunning.1
  | receive id c frame rx handler next =>
    right
    simp only [rank, next, List.length_cons, List.length_append, List.length_nil]
    omega
  | finish id c resp handler =>
    right
    simp only [rank, handlerRank, handler]
    omega
  | write id resp handler =>
    right
    simp only [rank, handlerRank, handler]
    omega
  | writeFail gone => exact absurd (gone.symm.trans hup) nofun

/-- **Every request is answered.** -/
def Answered (s : IpcConn Call Response Event) : Prop :=
  s.sent = s.finished.map (fun done => requestFrame Response Event done.1) ∧ s.written = s.answers

/-- At rest the handler waits at the top of its loop. -/
theorem next_of_rest [Inhabited Response] (h : s.Flow) (hup : s.hungUp = false)
    (hrest : AtRest turn s) : s.handler = .next := by
  cases hhandler : s.handler with
  | next => rfl
  | working id c =>
    have hturn := congrArg handler (hrest (.finish default))
    simp only [turn, hhandler] at hturn
    cases hturn
  | responding id resp =>
    have hturn := congrArg handler (hrest .write)
    simp only [turn, hhandler] at hturn
    cases hturn
  | subscribed =>
    have hpoint := h.point
    rw [AtPoint, hhandler] at hpoint
    exact hpoint.elim
  | ended => exact absurd hhandler (h.connected hup).2

/-- The handler does not stay where it is with a request in its hand. -/
theorem take_handler_ne {frame : Frame Call Response Event} (hcall : frame.isCall = true) :
    (s.take frame).handler ≠ .next := by
  obtain ⟨c, hframe⟩ := Frame.eq_requestFrame hcall
  rw [hframe]
  nofun

/-- **A connection at rest has answered every request.** -/
theorem answered_of_rest [Inhabited Response] (h : s.Flow) (hup : s.hungUp = false)
    (hrest : AtRest turn s) : s.Answered := by
  have hhandler := next_of_rest h hup hrest
  have hrunning := (h.connected hup).1
  have hintact := h.intact hrunning
  have hpoint := h.point
  rw [AtPoint, hhandler] at hpoint
  have hnext := congrArg handler (hrest .next)
  simp only [turn, hhandler] at hnext
  have hqueued : s.queued = [] := by
    cases hq : s.queued with
    | nil => rfl
    | cons frame queued =>
      rw [hq] at hnext hintact
      exact absurd hnext (take_handler_ne (h.calls frame (by rw [hintact]; simp)))
  have hrx : s.rx = [] := by
    cases hr : s.rx with
    | nil => rfl
    | cons frame rx =>
      rw [hqueued, hr] at hnext
      rw [hr] at hintact
      exact absurd hnext (take_handler_ne (h.calls frame (by rw [hintact]; simp)))
  have hreader : s.reader = .reading := by
    cases hr : s.reader with
    | reading => rfl
    | sending frame =>
      have hdeliver := congrArg rx (hrest .deliver)
      simp [turn, hr, hhandler, hrx, FRAME_CHANNEL] at hdeliver
    | ended => exact absurd hr hrunning
  have hwire : s.wire = [] := by
    cases hw : s.wire with
    | nil => rfl
    | cons frame wire =>
      have hread := congrArg reader (hrest .read)
      simp [turn, hreader, hw] at hread
  refine ⟨?_, hpoint.2⟩
  rw [hintact, hqueued, hrx, hreader, hwire, begunFrames, hpoint.1, List.map_map]
  simp [held, Function.comp_def]

theorem sent_upTo (sched : Nat → Turn Response) (t : Nat) :
    (upTo turn s sched t).sent = s.sent := by
  induction t with
  | zero => rfl
  | succ t ih => rw [upTo, (client_turn _ _).2, ih]

/-- **Every request gets its answer**, as long as the client is connected. -/
theorem Flow.answered [Inhabited Response] (h : s.Flow) (hup : s.hungUp = false)
    {sched : Nat → Turn Response} (hlive : Live turn s sched) :
    ∃ t, ∀ t', t ≤ t' → (upTo turn s sched t').Answered := by
  have hkeep : ∀ (s : IpcConn Call Response Event) (t : Turn Response),
      (s.hungUp = false ∧ s.Flow) → (s.turn t).hungUp = false ∧ (s.turn t).Flow := fun s t hs =>
    ⟨(client_turn s t).1.trans hs.1, flow_turn hs.2 t⟩
  obtain ⟨t, hrest⟩ := hlive.comes_to_rest (I := fun s => s.hungUp = false ∧ s.Flow) ⟨hup, h⟩
    hkeep (fun s t hs => turn_rank hs.1 hs.2 t)
  have hthere : (upTo turn s sched t).hungUp = false ∧ (upTo turn s sched t).Flow := by
    rw [upTo_eq_run]
    exact run_invariant (I := fun s => s.hungUp = false ∧ s.Flow)
      (fun s t _ hs => hkeep s t hs) ⟨hup, h⟩
  refine ⟨t, fun t' ht => ?_⟩
  rw [hrest.stays ht]
  exact answered_of_rest hthere.2 hthere.1 hrest

end IpcConn

/-! ## 4. First in, first out -/

open IpcConn in
/-- **Pipelined requests are first in, first out.** Whatever the interleaving, requests are begun
    in the order sent, one at a time, and what is written are their responses in this order, each
    under its id; while the client is connected, each request gets one. -/
theorem pipelined_fifo [Inhabited Response] (acts : List (Act Call Response Event))
    (hcalls : ∀ frame, .send frame ∈ acts → frame.isCall = true) :
    let s := run step ({} : IpcConn Call Response Event) acts
    s.begunFrames <+: s.sent ∧ Handled s.begun s.finished s.written ∧
      (s.hungUp = false → ∀ sched : Nat → Turn Response, Live turn s sched →
        ∃ t, ∀ t', t ≤ t' →
          (upTo turn s sched t').sent = s.sent ∧ (upTo turn s sched t').Answered) := by
  intro s
  have hflow : s.Flow := run_invariant (I := Flow)
    (fun w act hact hw => flow_step hw fun frame heq => hcalls frame (heq ▸ hact)) flow_start
  refine ⟨?_, hflow.point.handled, fun hup sched hlive => ?_⟩
  · exact ((List.prefix_append _ _).trans (List.prefix_append _ _)).trans hflow.order
  · obtain ⟨t, ht⟩ := hflow.answered hup hlive
    exact ⟨t, fun t' hle => ⟨sent_upTo sched t', ht t' hle⟩⟩

namespace Sample

open IpcConn

/-- The second request comes in while the first one is handled. -/
def pipelined : List (Act Nat Nat Unit) :=
  [.send (requestFrame Nat Unit (1, 10)), .turn .read, .turn .deliver, .turn .next,
    .send (requestFrame Nat Unit (2, 20)), .turn .read, .turn .deliver, .turn .receive,
    .turn (.finish 11), .turn .write, .turn .next, .turn (.finish 21), .turn .write]

end Sample

open IpcConn Sample in
/-- Both are answered, in order. -/
theorem pipelined_fifo_two :
    let s := run step ({} : IpcConn Nat Nat Unit) pipelined
    s.written = [⟨1, .response 11⟩, ⟨2, .response 21⟩] ∧
      s.begunFrames <+: s.sent ∧ Handled s.begun s.finished s.written := by
  have hcalls : ∀ frame, .send frame ∈ pipelined → frame.isCall = true := by
    intro frame hframe
    simp only [pipelined, List.mem_cons, Act.send.injEq, List.not_mem_nil, reduceCtorEq, false_or,
      or_false] at hframe
    rcases hframe with rfl | rfl <;> rfl
  obtain ⟨hsent, hhandled, -⟩ := pipelined_fifo pipelined hcalls
  exact ⟨by decide, hsent, hhandled⟩

end Nullgate
