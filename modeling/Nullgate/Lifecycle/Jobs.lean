/-
  File:      Nullgate/Lifecycle/Jobs.lean
  Subject:   THE CALLS THAT CHANGE THE NETWORK (`engine.rs`), interleaved at their awaits.

  `create_network`, `join_network`, `rotate_network`, `leave_network`, `set_online`,
  `import_originator_key`, `health_check` and `rebuild_node` run beside the tick and its dials.
  Most of them are requests, which the daemon drops where they stand when the client hangs up.

  * `Job` -- the points they wait at, or give the lock of the state back at, with their locals; the
    tasks of the engine are `task`;
  * `Purpose`, `Behind`, `Publication` -- what follows the commit of an activation, a
    `soft_disconnect`, and the publication of an entry;
  * `runCall`, `runJob` -- what a call, and what a job does up to its next await;
  * `lifecycle` -- the program.
-/
import Nullgate.Lifecycle.Device

namespace Nullgate

open Nullgate.Lib

/-! ## 1. Jobs -/

/-- What a decoded ticket says about the network. -/
structure JoinTicket where
  name : String
  subnet : Octets
  secret : NetworkSecret
  originatorId : Id
  deriving DecidableEq

/-- The provisional config of a joiner. -/
def JoinTicket.config (t : JoinTicket) : StoredConfig :=
  ⟨t.name, t.subnet, t.secret, t.originatorId, none⟩

/-- What a fold in flight has read. -/
structure Reading where
  doc : Option Doc := none
  loaded : Option (Except String (List Entry)) := none
  /-- the activation it read, and the content; no variables of the source -/
  activation : Nat := 0
  version : Nat := 0
  deriving DecidableEq

/-- The locals of `rotate_network`. -/
structure Rotation where
  old : StoredConfig
  originator : SigningKey
  deriving DecidableEq

/-- The config of the network it starts: name, subnet and originator stay. -/
def Rotation.fresh (r : Rotation) (secret : NetworkSecret) : StoredConfig :=
  { r.old with secret, originatorSecret := some r.originator }

/-- **What a network is activated for.** -/
inductive Purpose where
  /-- the network that `create_network` or `rotate_network` starts -/
  | found (originator : SigningKey)
  | join
  | online
  | rebuild
  deriving DecidableEq

/-- **What follows a `soft_disconnect`.** -/
inductive Behind where
  | offline
  | rebuild (cfg : Option StoredConfig)
  | leave
  /-- the teardown of `join_network` -/
  | joinFailed (error : String)
  /-- the one of `join_handshake` -/
  | joinNotAdded
  | rotate (r : Rotation)
  deriving DecidableEq

/-- **What an entry is published for.** -/
inductive Publication where
  | genesis (cfg : StoredConfig) (originator : SigningKey)
  | invite (cfg : StoredConfig)
  /-- the removal of a member of the old network; then the others -/
  | removal (r : Rotation) (others : List Id)
  deriving DecidableEq

/-- **Where a job waits.** -/
inductive Job where
  /-- a task of the engine; before a fold it reads the document -/
  | task (r : Reading) (t : Task)
  /-- `create_network`, `join_network`: for the state -/
  | create (name : String) (subnet : Octets)
  | join (ticket : JoinTicket)
  /-- `join_handshake`, up to the decision -/
  | handshake (cfg : StoredConfig)
  /-- `activate`: opening document and gossip, then for the state -/
  | opening (cfg : StoredConfig) (p : Purpose)
  | committing (cfg : StoredConfig) (doc : Doc) (author : AuthorId) (p : Purpose)
  /-- `publish`: for the state, then in the write -/
  | publish (entry : Entry) (p : Publication)
  | writing (doc : Doc) (author : AuthorId) (entry : Entry) (p : Publication)
  /-- `refresh_roster`, at the end of a founding -/
  | refresh (cfg : StoredConfig) (r : Reading) (t : Task)
  /-- `join_handshake`, in the poll: sleeping or for the state, then in the fold -/
  | poll (cfg : StoredConfig) (left : Nat)
  | polled (cfg : StoredConfig) (doc : Doc) (left : Nat)
  /-- `rotate_network`: for the state, twice; in the sleep behind the removals -/
  | rotate
  | rotateRead (originator : SigningKey)
  | sleeping (r : Rotation)
  | leave
  /-- `set_online(false)`: about to begin; `set_online(true)`: for the state, twice -/
  | offline
  | online
  | onlineRead
  /-- `import_originator_key`: for the state, twice; between them it saves its config, with no
      lock and no await -/
  | importKey (secret : SigningKey)
  | importSave (cfg : StoredConfig)
  | importCommit (cfg : StoredConfig)
  /-- `health_check`: for the state; in `network_changed` -/
  | health
  | burst
  /-- `rebuild_node`: for the lock, for the state, and behind the disconnect for a fresh node -/
  | rebuild
  | rebuildRead
  | spawning (cfg : Option StoredConfig)
  /-- `soft_disconnect`: for the state, to reset it -/
  | reset (b : Behind)
  /-- `teardown`: for the state, to forget the config -/
  | forget (b : Behind)
  /-- what the call has returned: its error, or the network it has put up -/
  | returned (r : Except String (Option StoredConfig))
  /-- what the `health_check`, or the `rebuild_node` of the relay settings, has come to -/
  | checked (action : HealthAction)
  | done
  deriving DecidableEq

/-- **What a stretch reads from outside.** -/
structure Inputs extends Answers where
  /-- why the document cannot be read -/
  unreadable : Option String := none
  saving : Saving := .done
  /-- `activate` opens document and gossip -/
  opened : Except String AuthorId := .ok (Bytes.fill 32 0)
  /-- `publish_entry` -/
  published : Except String Unit := .ok ()
  /-- the decision on the join request, or why there is none -/
  approved : Except String Unit := .ok ()
  /-- the node id of a fresh node -/
  spawned : Except String Id := .ok (Bytes.fill 32 0)
  keystore : Bool := true
  freshSecret : NetworkSecret := ⟨Bytes.fill 32 0⟩
  freshKey : SigningKey := Bytes.fill 32 0
  freshNonce : Nonce := Bytes.fill 16 0
  currentHostname : String := ""

variable (C : Crates)

/-! ## 2. What follows -/

namespace Device

variable (d : Device) (i : Inputs)

/-- `soft_disconnect` begins: it waits for the state. -/
def disconnect (b : Behind) : Device × Job := (d.goOffline, .reset b)

/-- `rebuild_node` ends. -/
def rebuildEnds (action : HealthAction) : Device × Job :=
  ({ d with rebuilding := false }, .checked action)

/-- The activation fails. -/
def activateFails (error : String) : Purpose → Device × Job
  | .found _ | .online => (d, .returned (.error error))
  | .join => d.disconnect (.joinFailed error)
  | .rebuild => d.rebuildEnds .failed

/-- The activation has committed. -/
def activated (cfg : StoredConfig) : Purpose → Device × Job
  | .found originator =>
    (d, .publish (genesisEntry C cfg originator d.myId i.currentHostname i.now)
      (.genesis cfg originator))
  | .join =>
    match d.saveConfig cfg i.saving with
    | (.ok (), d) => (d, .poll cfg 29)
    | (.error e, d) => d.disconnect (.joinFailed e)
  | .online => (d, .returned (.ok none))
  | .rebuild => { d with lastRebuild := i.now }.rebuildEnds .rebuilt

/-- `rotate_network` removes the next of the others; then it sleeps. -/
def removeNext (r : Rotation) : List Id → Job
  | id :: others => .publish (bootEntry C r.old r.originator id i.now) (.removal r others)
  | [] => .sleeping r

/-- An entry was published, or not. -/
def publishEnds (result : Except String Unit) : Publication → Job
  | .genesis cfg originator =>
    match result with
    | .error e => .returned (.error e)
    | .ok () => .publish (inviteEntry C cfg originator i.freshNonce i.now) (.invite cfg)
  | .invite cfg =>
    match result with
    | .error e => .returned (.error e)
    | .ok () => .refresh cfg {} .refreshRead
  -- whether a removal gets out or not
  | .removal r others => removeNext C i r others

/-- The poll goes on, or the joiner was not added. -/
def pollNext (cfg : StoredConfig) : Nat → Device × Job
  | left + 1 => (d, .poll cfg left)
  | 0 => d.disconnect .joinNotAdded

/-- The state was reset. -/
def resetEnds : Behind → Device × Job
  | .offline => ({ d with wantsOffline := true }, .returned (.ok none))
  | .rebuild cfg => (d, .spawning cfg)
  | b => (d, .forget b)

/-- A network is saved, and its activation begins. -/
def saveAndOpen (cfg : StoredConfig) (originator : SigningKey) : Device × Job :=
  match d.saveConfig cfg i.saving with
  | (.ok (), d) => (d, .opening cfg (.found originator))
  | (.error e, d) => (d, .returned (.error e))

/-- The config was forgotten. -/
def forgetEnds : Behind → Device × Job
  | .joinFailed e => (d, .returned (.error e))
  | .joinNotAdded =>
    d.disconnect (.joinFailed ("the request was approved but this device wasn't added — " ++
      "the invite may have just been used or expired. Ask for a new code."))
  | .rotate r => d.saveAndOpen i (r.fresh i.freshSecret) r.originator
  | _ => (d, .returned (.ok none))

end Device

/-! ## 3. The tasks of the engine -/

/-- The task folds the document next. -/
def Task.folding : Task → Bool
  | .tickFold _ true | .refreshFold _ => true
  | _ => false

namespace Device

variable (d : Device) (i : Inputs)

/-- What reading a document yields. -/
def load (doc : Doc) : Except String (List Entry) :=
  match i.unreadable with
  | some e => .error e
  | none => .ok (d.docs doc)

/-- What a task has read behind its next stretch. -/
def reading (r : Reading) : Task → Reading
  | .tickRead _ | .refreshRead => { doc := d.doc, activation := d.activations }
  | .tickFold _ false => { r with version := d.rosterAt }
  | _ => r

/-- What a stretch leaves besides: whose fold has taken effect, whose is cached, and no file that
    is cut off once the config is forgotten. -/
def record (r : Reading) : Task → Device
  | .tickFold _ true | .refreshFold _ =>
    if (r.loaded.bind Except.toOption).isSome then { d with seen := max d.seen r.version } else d
  | .tickStore _ _ | .refreshStore _ => { d with rosterAt := r.version }
  | .disconnected _ => { d with rosterAt := d.seen }
  | .forgetConfig => { d with cborTorn := false }
  | _ => d

/-- **A task of the engine**: before a fold it reads the document; its other stretches are those
    of `stretch`. -/
def runTask (r : Reading) (t : Task) : Device × Reading × Task × List Task :=
  if t.folding && r.loaded.isNone then
    (d, { r with loaded := r.doc.map (d.load i), version := d.edits }, t, [])
  else
    let (l, t', spawned) :=
      stretch C d.toLive { i.toAnswers with loaded := r.loaded.getD i.loaded } t
    ({ d with toLive := l }.record r t, d.reading r t, t', spawned)

end Device

/-! ## 4. The program -/

/-- `refresh_roster` has ended, or goes on. -/
def refreshed (cfg : StoredConfig) (r : Reading) : Task → Job
  | .done => .returned (.ok (some cfg))
  | t => .refresh cfg r t

/-- **What a call does up to its next await.** -/
def runCall (d : Device) (i : Inputs) : Job → Device × Job
  | .create name subnet =>
    let d := { d with wantsOffline := false }
    if d.config.isSome then (d, .returned (.error "this device already belongs to a network"))
    else
      d.saveAndOpen i
        ⟨name, subnet, i.freshSecret, C.verifyingKey i.freshKey, some i.freshKey⟩ i.freshKey
  | .join ticket =>
    let d := { d with wantsOffline := false }
    if d.config.isSome then (d, .returned (.error "this device already belongs to a network"))
    else (d, .handshake ticket.config)
  | .handshake cfg =>
    match i.approved with
    | .ok () => (d, .opening cfg .join)
    | .error e => d.disconnect (.joinFailed e)
  | .opening cfg p =>
    match i.opened with
    | .ok author => (d.arm, .committing cfg (cfg.secret.doc C) author p)
    | .error e => d.activateFails e p
  | .committing cfg doc author p => (d.commit cfg doc author).activated C i cfg p
  | .publish entry p =>
    match d.openDoc with
    | .error e => (d, Device.publishEnds C i (.error e) p)
    | .ok (doc, author) => (d, .writing doc author entry p)
  | .writing doc _ entry p =>
    match i.published with
    | .ok () => (d.write doc [entry], Device.publishEnds C i (.ok ()) p)
    | .error e => (d, Device.publishEnds C i (.error e) p)
  | .refresh cfg r t =>
    let (d, r, t, _) := d.runTask C i r t
    (d, refreshed cfg r t)
  | .poll cfg left =>
    match d.doc with
    | some doc => (d, .polled cfg doc left)
    | none => d.pollNext cfg left
  | .polled cfg doc left =>
    if (d.load i doc).toOption.any fun entries =>
        (Roster.build C.toPrimitives i.now (cfg.rosterCfg C) entries).isMember d.myId then
      (d, .returned (.ok (some cfg)))
    else d.pollNext cfg left
  | .rotate =>
    let d := { d with wantsOffline := false }
    match originatorKey d.toInner with
    | .error e => (d, .returned (.error e))
    | .ok originator => (d, .rotateRead originator)
  | .rotateRead originator =>
    match d.network with
    | .error e => (d, .returned (.error e))
    | .ok cfg => (d, Device.removeNext C i ⟨cfg, originator⟩ (otherMembers d.toInner))
  | .sleeping r => d.disconnect (.rotate r)
  | .leave =>
    if d.config.isNone then (d, .returned (.error "not in a network")) else d.disconnect .leave
  | .offline => d.disconnect .offline
  | .online =>
    let d := { d with wantsOffline := false }
    (d, if d.doc.isSome then .returned (.ok none) else .onlineRead)
  | .onlineRead =>
    match d.config.or (d.loadConfig i.keystore) with
    | none => (d, .returned (.error "no network to connect to"))
    | some cfg => (d, .opening cfg .online)
  | .importKey secret =>
    match d.config with
    | none => (d, .returned (.error "no network on this device"))
    | some cfg =>
      if C.verifyingKey secret ≠ cfg.originatorId then
        (d, .returned (.error "this recovery code is for a different network"))
      else (d, .importSave { cfg with originatorSecret := some secret })
  | .importSave cfg =>
    match d.saveConfig cfg i.saving with
    | (.ok (), d) => (d, .importCommit cfg)
    | (.error e, d) => (d, .returned (.error e))
  | .importCommit cfg => ({ d with config := some cfg }, .returned (.ok none))
  | .health =>
    if d.healthy then ({ d with unhealthyChecks := 0 }, .checked .healthy)
    else if d.rebuildDue i.now then ({ d with unhealthyChecks := 0 }, .rebuild)
    else ({ d with unhealthyChecks := d.unhealthyChecks + 1 }, .burst)
  | .burst => (d.recoveryBurst i.now, .checked .burst)
  | .rebuild =>
    if d.rebuilding then (d, .rebuild) else ({ d with rebuilding := true }, .rebuildRead)
  | .rebuildRead => d.disconnect (.rebuild d.config)
  | .spawning cfg =>
    match i.spawned with
    | .error _ => d.rebuildEnds .failed
    | .ok id =>
      -- "node identity changed across rebuild"
      if id ≠ d.myId then d.rebuildEnds .failed
      else
        match cfg with
        | some cfg => (d, .opening cfg .rebuild)
        | none => { d with lastRebuild := i.now }.rebuildEnds .rebuilt
  | .reset b => d.resetState.resetEnds b
  | .forget b => d.forget.forgetEnds i b
  | .returned r => (d, .returned r)
  | .checked action => (d, .checked action)
  -- a task of the engine may spawn others: see `runJob`
  | .task r t => (d, .task r t)
  | .done => (d, .done)

/-- **What a job does up to its next await.** -/
def runJob (d : Device) (i : Inputs) : Job → Device × Job × List Job
  | .task r t =>
    let (d, r, t, spawned) := d.runTask C i r t
    (d, .task r t, spawned.map (.task r))
  | j =>
    let (d, j) := runCall C d i j
    (d, j, [])

/-- What happens to the device outside of these jobs. -/
inductive Arrival where
  /-- entries of others come into a document -/
  | synced (doc : Doc) (entries : List Entry)
  | docChanged
  /-- the platform's hint -/
  | networkChanged (now : UInt64)
  | closed (id : Nat)
  | heartbeat (peer : Id) (h : Heartbeat)
  | location (peer : Id) (location : Option String)

def arrive (d : Device) : Arrival → Device
  | .synced doc entries => d.write doc entries
  | .docChanged => { d with toLive := outside d.toLive .docChanged }
  | .networkChanged now => d.recoveryBurst now
  | .closed id => { d with toLive := outside d.toLive (.closed id) }
  | .heartbeat peer h => { d with toLive := outside d.toLive (.heartbeat peer h) }
  | .location peer location => { d with toLive := outside d.toLive (.location peer location) }

namespace Job

/-- The calls, the tick, and what arrives at the accept loop or from the relay settings. -/
def starts : Job → Bool
  | .create _ _ | .join _ | .rotate | .leave | .offline | .online | .importKey _ => true
  | .health | .rebuild => true
  | .task _ .tickStart | .task _ (.incoming _) => true
  | _ => false

/-- The job is a request of a client, in progress. -/
def requested : Job → Bool
  | .create _ _ | .join _ | .handshake _ | .publish _ _ | .writing _ _ _ _ => true
  | .opening _ p | .committing _ _ _ p =>
    match p with
    | .rebuild => false
    | _ => true
  | .refresh _ _ _ | .poll _ _ | .polled _ _ _ | .rotate | .rotateRead _ | .sleeping _ => true
  | .leave | .offline | .online | .onlineRead => true
  | .importKey _ | .importSave _ | .importCommit _ => true
  | .reset b | .forget b =>
    match b with
    | .rebuild _ => false
    | _ => true
  | _ => false

/-- A request is dropped when the client hangs up, where it waits, and a dial when it times out. -/
def drop : Job → Option Job
  | .task r t => t.drop.map (.task r)
  | .importSave _ => none
  | j => if j.requested then some .done else none

end Job

/-- **The calls and tasks of one device.** -/
def lifecycle : Program Device Job Inputs Arrival where
  stretch := runJob C
  starts := Job.starts
  drop := Job.drop
  env := arrive

end Nullgate
