/-
  File:      Nullgate/Engine/Runtime.lean
  Subject:   THE ENGINE'S TASKS (`engine.rs`), interleaved at their awaits.

  `tick`, `dial_member`, `handle_mesh_incoming`, `register_mesh` with its reader and its close
  watcher, `soft_disconnect`, `teardown` and `refresh_roster` run concurrently on one device.
  Each is cut at its awaits; what stands between two of them is one stretch. It is the desktop
  build, which opens its TUN itself; `attach_tun_fd` is in `Mobile/Routing`.

  * `Live` -- the device with its connections, presence, routes and TUN;
  * `Task` -- the points the tasks wait at, with the locals they hold there;
  * `stretch` -- what a task does from such a point to the next one;
  * `engine` -- the program: its tasks, and what happens outside of them.
-/
import Nullgate.DataPlane.Router
import Nullgate.Engine.Tick
import Nullgate.Lib.Tasks
import Nullgate.Mesh.Register
import Nullgate.Presence.Tracker

namespace Nullgate

open Nullgate.Lib

/-! ## 1. The device -/

/-- **The device with its network state.** -/
structure Live extends Inner where
  mesh : Mesh := {}
  presence : PresenceTracker := {}
  routes : RouteTable := {}
  /-- the TUN, by the address it was opened with -/
  tun : Option Ipv4Addr := none
  tunAttempted : Bool := false
  assignedIp : Option Ipv4Addr := none
  /-- the connections `register_mesh` has been called with so far; no field of the source -/
  registered : List (Id × Conn) := []

/-- The order in which a hash map yields its entries. -/
structure IterOrder (α : Type) where
  list : List α → List α
  perm : ∀ l, (list l).Perm l

def IterOrder.plain (α : Type) : IterOrder α := ⟨fun l => l, fun _ => .refl _⟩

/-- **What a stretch reads from outside.** -/
structure Answers where
  nowCoarse : UInt64 := 0
  now : UInt64 := 0
  /-- what reading the document yields -/
  loaded : Except String (List Entry) := .ok []
  /-- `NULLGATE_DISABLE_TUN` is set -/
  tunDisabled : Bool := false
  /-- whether the system opens the TUN -/
  tunOpens : Bool := true
  /-- the connection a dial ends with -/
  dialed : Option Nat := none
  /-- the peer an admission handshake has verified -/
  verified : Option Id := none
  info : ConnInfo := {}
  staleOrder : IterOrder (Id × Conn) := .plain _
  liveOrder : IterOrder Id := .plain _
  /-- the backoff of the peer has elapsed, and no dial to it is in flight -/
  dialable : Id → Bool := fun _ => true

/-- **Where a task waits.** -/
inductive Task where
  /-- the tick: about to begin -/
  | tickStart
  /-- for the state, to read document and config -/
  | tickRead (nowCoarse : UInt64)
  /-- for the fold, or for the state to copy the cached roster -/
  | tickFold (cfg : StoredConfig) (rebuild : Bool)
  /-- for the state, to record `peer` offline; then the rest of the sweep -/
  | tickSweep (roster : Roster) (peer : Id) (stale : List (Id × Conn))
  /-- for the state, to cache the roster -/
  | tickStore (roster : Roster) (connected : List Id)
  /-- before the snapshot of the live peers -/
  | tickLive
  /-- for the connection info of `peer` and the state, to record it online; then the others -/
  | tickRefresh (peer : Id) (live : List Id)
  | dial (peer : Id)
  /-- an accepted connection, before and in the handshake, and before the roster gate -/
  | incoming (id : Nat)
  | handshake (id : Nat)
  | gate (peer : Id) (id : Nat)
  /-- `register_mesh`: for the state, to record the peer online -/
  | record (dialed : Bool) (peer : Id) (conn : Conn)
  /-- the inbound data plane of a connection -/
  | reader (peer : Id) (conn : Conn)
  /-- the close watcher of a connection -/
  | watch (peer : Id) (conn : Conn)
  /-- the watcher behind an eviction: for the state, to record the peer offline -/
  | offline (peer : Id)
  /-- `soft_disconnect`, or `teardown` if `forget`: about to begin -/
  | disconnect (forget : Bool)
  /-- for the state, to reset it -/
  | disconnected (forget : Bool)
  /-- for the state, to forget the config -/
  | forgetConfig
  /-- `refresh_roster` -/
  | refreshRead
  | refreshFold (cfg : StoredConfig)
  | refreshStore (roster : Roster)
  | done
  deriving DecidableEq

/-- The task has begun and not ended. Readers and watchers wait for their connection. -/
def Task.midway : Task → Bool
  | .done | .reader _ _ | .watch _ _ => false
  | _ => true

variable (C : Crates)

namespace Live

/-! ## 2. The tick -/

/-- Take what asked for a fold. -/
def consume (l : Live) (nowCoarse : UInt64) (rebuild : Bool) : Live :=
  { l with
    forceRecover := false
    docsDirty := false
    lastRosterRebuild := if rebuild then nowCoarse else l.lastRosterRebuild }

/-- Read document and config, and decide whether to fold. -/
def readTick (l : Live) (nowCoarse : UInt64) : Live × Task :=
  match l.doc, l.config with
  | some _, some cfg =>
    let rebuild := rebuildDue l.toInner nowCoarse
    (l.consume nowCoarse rebuild, .tickFold cfg rebuild)
  | _, _ => (l, .done)

/-- Bring up the TUN, at most once. -/
def enableTun (l : Live) (a : Answers) (ip : Ipv4Addr) : Live :=
  if a.tunDisabled then l
  else if l.tunAttempted then l
  else
    { l with
      tunAttempted := true
      assignedIp := some ip
      tun := if a.tunOpens then some ip else l.tun }

/-- The TUN of a device that is in the roster. -/
def enableOwnTun (l : Live) (a : Answers) (roster : Roster) : Live :=
  match roster.member l.myId with
  | some me => l.enableTun a me.virtualIp
  | none => l

/-- The next item of the sweep; behind the last one the TUN, and the snapshot of who is
    connected. -/
def sweepNext (l : Live) (a : Answers) (roster : Roster) : List (Id × Conn) → Live × Task
  | (peer, conn) :: stale =>
    ({ l with mesh := l.mesh.sweepOne peer conn }, .tickSweep roster peer stale)
  | [] =>
    let l := l.enableOwnTun a roster
    (l, .tickStore roster l.mesh.conns.keys)

/-- The connections to peers the roster does not have. -/
def stale (l : Live) (roster : Roster) : List (Id × Conn) :=
  l.mesh.conns.toList.filter fun (id, _) => !roster.isMember id

/-- Forward by the roster, and begin the sweep. -/
def enforce (l : Live) (a : Answers) (roster : Roster) (rebuild : Bool) : Live × Task :=
  let l := if rebuild then { l with routes := .fromRoster roster } else l
  l.sweepNext a roster (a.staleOrder.list (l.stale roster))

/-- Go offline, up to the await: everything but the state behind the async lock. -/
def goOffline (l : Live) : Live :=
  { l with
    docsDirty := false
    forceRecover := false
    wasMember := false
    tun := none
    tunAttempted := false
    assignedIp := none
    routes := {}
    mesh := l.mesh.drain }

/-- The roster the fold stretch works with: a new fold, or the cached one. -/
def foldRoster (l : Live) (a : Answers) (cfg : StoredConfig) (rebuild : Bool) :
    Except String Roster :=
  if rebuild then a.loaded.map (Roster.build C.toPrimitives a.now (cfg.rosterCfg C))
  else .ok l.roster

/-- **Latch, evict, or enforce the roster.** -/
def foldTick (l : Live) (a : Answers) (cfg : StoredConfig) (rebuild : Bool) : Live × Task :=
  match l.foldRoster C a cfg rebuild with
  | .error _ => (l, .done)
  | .ok roster =>
    if roster.isMember l.myId then { l with wasMember := true }.enforce a roster rebuild
    else if l.wasMember then (l.goOffline, .disconnected true)
    else l.enforce a roster rebuild

/-- Record in the tracker what is observed of the connection to a peer. -/
def observe (l : Live) (peer : Id) (info : ConnInfo) (online : Bool) : Live :=
  { l with presence := (l.presence.recordConnection peer info online).1 }

/-- The members to dial. -/
def toDial (l : Live) (a : Answers) (roster : Roster) (connected : List Id) : List Id :=
  roster.members.keys.filter fun id => id ≠ l.myId ∧ id ∉ connected ∧ a.dialable id

/-- Cache the roster, and dial who is missing. -/
def storeTick (l : Live) (a : Answers) (roster : Roster) (connected : List Id) :
    Live × Task × List Task :=
  let presence := roster.members.toList.foldl
    (fun t (id, m) => t.setVirtualIp id m.virtualIp) l.presence
  ({ l with presence, roster }, .tickLive, (l.toDial a roster connected).map .dial)

/-- The next of the live peers to refresh. -/
def refreshNext : List Id → Task
  | peer :: live => .tickRefresh peer live
  | [] => .done

/-! ## 3. Connections -/

/-- `register_mesh` up to its await. -/
def registerConn (l : Live) (dialed : Bool) (peer : Id) (conn : Conn) : Live × Task :=
  let (mesh, verdict) := l.mesh.registerMesh l.myId peer conn
  ({ l with mesh, registered := (peer, conn) :: l.registered },
    if verdict = .keepExisting then .done else .record dialed peer conn)

/-- The roster gate of an accepted connection; who passes is registered. -/
def gateConn (l : Live) (peer : Id) (id : Nat) : Live × Task :=
  if l.roster.isMember peer then l.registerConn false peer ⟨id, .server⟩ else (l, .done)

/-- The close watcher. -/
def watchConn (l : Live) (peer : Id) (conn : Conn) : Live × Task :=
  if l.mesh.isClosed conn then
    let (mesh, evicted) := l.mesh.evict peer conn
    ({ l with mesh }, if evicted then .offline peer else .done)
  else (l, .watch peer conn)

/-! ## 4. Going offline, and the early refresh -/

/-- Reset the state behind the async lock. -/
def resetState (l : Live) : Live :=
  { l with doc := none, author := none, roster := .default, presence := {} }

def forget (l : Live) : Live :=
  { l with
    config := none
    disk := { networkCbor := none, networkSecret := none, originatorSecret := none } }

def readRefresh (l : Live) : Task :=
  match l.doc, l.config with
  | some _, some cfg => .refreshFold cfg
  | _, _ => .done

/-- Fold the document, and latch. -/
def foldRefresh (l : Live) (a : Answers) (cfg : StoredConfig) : Live × Task :=
  match l.foldRoster C a cfg true with
  | .error _ => (l, .done)
  | .ok roster =>
    ({ l with wasMember := l.wasMember || roster.isMember l.myId }, .refreshStore roster)

end Live

/-! ## 5. The program -/

/-- A stretch that spawns nothing. -/
def single (r : Live × Task) : Live × Task × List Task := (r.1, r.2, [])

/-- **What a task does up to its next await.** -/
def stretch (l : Live) (a : Answers) : Task → Live × Task × List Task
  | .tickStart => (l, .tickRead a.nowCoarse, [])
  | .tickRead nowCoarse => single (l.readTick nowCoarse)
  | .tickFold cfg rebuild => single (l.foldTick C a cfg rebuild)
  | .tickSweep roster peer stale => single ((l.observe peer {} false).sweepNext a roster stale)
  | .tickStore roster connected => l.storeTick a roster connected
  | .tickLive => (l, Live.refreshNext (a.liveOrder.list l.mesh.conns.keys), [])
  | .tickRefresh peer live => (l.observe peer a.info true, Live.refreshNext live, [])
  | .dial peer =>
    match a.dialed with
    | some id => single (l.registerConn true peer ⟨id, .client⟩)
    | none => (l, .done, [])
  | .incoming id => (l, if l.config.isSome then .handshake id else .done, [])
  | .handshake id =>
    match a.verified with
    | some peer => (l, .gate peer id, [])
    | none => (l, .done, [])
  | .gate peer id => single (l.gateConn peer id)
  | .record _ peer conn =>
    (l.observe peer {} true, .done, [.reader peer conn, .watch peer conn])
  | .reader peer conn => (l, if l.mesh.isClosed conn then .done else .reader peer conn, [])
  | .watch peer conn => single (l.watchConn peer conn)
  | .offline peer => (l.observe peer {} false, .done, [])
  | .disconnect forget => (l.goOffline, .disconnected forget, [])
  | .disconnected forget => (l.resetState, if forget then .forgetConfig else .done, [])
  | .forgetConfig => (l.forget, .done, [])
  | .refreshRead => (l, l.readRefresh, [])
  | .refreshFold cfg => single (l.foldRefresh C a cfg)
  | .refreshStore roster => ({ l with roster }, .done, [])
  | .done => (l, .done, [])

/-- What happens to the device outside of these tasks. -/
inductive Outside where
  /-- a connection is closed by the peer, or lost -/
  | closed (id : Nat)
  | docChanged
  | networkChanged
  /-- `activate` commits -/
  | activate (cfg : StoredConfig) (doc : Doc) (author : AuthorId)
  | heartbeat (peer : Id) (h : Heartbeat)
  | location (peer : Id) (location : Option String)

def outside (l : Live) : Outside → Live
  | .closed id => { l with mesh := { l.mesh with closed := id :: l.mesh.closed } }
  | .docChanged => { l with docsDirty := true }
  | .networkChanged => { l with forceRecover := true }
  | .activate cfg doc author => { l with toInner := activate l.toInner cfg doc author }
  | .heartbeat peer h => { l with presence := (l.presence.recordHeartbeat peer h).1 }
  | .location peer location => { l with presence := (l.presence.setLocation peer location).1 }

/-- The tasks the daemon starts: the tick loop, the accept loop, and requests. -/
def Task.starts : Task → Bool
  | .tickStart | .incoming _ | .disconnect _ | .refreshRead => true
  | _ => false

/-- A dial that times out is dropped where it stands, in `register_mesh` too. -/
def Task.drop : Task → Option Task
  | .dial _ | .record true _ _ => some .done
  | _ => none

/-- **The engine of one device.** -/
def engine : Program Live Task Answers Outside where
  stretch := stretch C
  starts := Task.starts
  drop := Task.drop
  env := outside

/-- No task is midway. -/
def Settled (w : World Live Task) : Prop := ∀ t ∈ w.tasks, t.midway = false

instance decidableSettled (w : World Live Task) : Decidable (Settled w) :=
  inferInstanceAs (Decidable (∀ t ∈ w.tasks, _ = _))

/-! ## 6. An instance to evaluate -/

namespace Sample

/-- The originator has admitted the devices 2, 5 and 6. -/
def admitted : List Entry := [add 1 2 .peer 0 1, add 1 5 .peer 0 2, add 1 6 .peer 0 3]

/-- What a tick at `now` reads when the document holds `entries`. -/
def answers (now : UInt64) (entries : List Entry) : Answers :=
  { nowCoarse := now, now, loaded := .ok entries }

/-- The daemon of device 2 has just started. -/
def booted : World Live Task := ⟨{ deviceKey := key 2, myId := key 2 }, []⟩

/-- Device 2 goes online; its first tick, at place 0, folds `admitted`, and dials at 1 and 2. -/
def online : List (Act Task Answers Outside) :=
  [.env (.activate (stored none) NET NET), .start .tickStart] ++
    List.replicate 5 (.go 0 (answers 100 admitted))

/-- A connection of the device `peer` is accepted at place `k`, and its registration runs to
    the end. -/
def accepts (k id : Nat) (peer : UInt8) : List (Act Task Answers Outside) :=
  [.start (.incoming id), .go k {}, .go k { verified := some (key peer) }, .go k {}, .go k {}]

end Sample

end Nullgate
