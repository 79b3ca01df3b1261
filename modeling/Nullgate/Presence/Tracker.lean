/-
  File:      Nullgate/Presence/Tracker.lean
  Subject:   THE PRESENCE TRACKER (`presence.rs`): what the UI shows for each peer.

  The engine feeds it verified heartbeats and what it observes of connections. Each operation
  also says whether anything the UI displays has changed.

  * `PeerStatus`, `PresenceTracker` -- one status for each known peer;
  * `recordHeartbeat`, `setLastSeen`, `recordConnection`, `setVirtualIp`, `setLocation`;
  * `online_recordConnection`: of these only `recordConnection` writes the online flag;
  * `PresenceCall`, `PresenceTracker.step` -- runs of the tracker.
-/
import Nullgate.Roster.Types

namespace Nullgate

/-! ## 1. One peer -/

/-- What the UI shows for one peer. -/
structure PeerStatus where
  hostname : Option String := none
  /-- resolved by the originator -/
  location : Option String := none
  virtualIp : Option Ipv4Addr := none
  localIp : Option String := none
  publicIp : Option String := none
  observedAddr : Option String := none
  /-- direct (`true`) or relay (`false`) -/
  direct : Option Bool := none
  accessDisabled : Bool := false
  hidden : Bool := false
  /-- the time of the last heartbeat accepted, ms -/
  lastSeen : UInt64 := 0
  /-- whether we currently hold a live connection to this peer -/
  online : Bool := false
  deriving DecidableEq

/-- What iroh knows about a peer's connection. -/
structure ConnInfo where
  observed : Option String := none
  direct : Option Bool := none
  localIp : Option String := none
  publicIp : Option String := none
  deriving DecidableEq

/-- What a heartbeat tells about its sender. -/
structure Heartbeat where
  hostname : String
  publicIp : Option String
  accessDisabled : Bool
  hidden : Bool
  ts : UInt64
  deriving DecidableEq

/-- A last-seen jump big enough to be user-visible. -/
def LAST_SEEN_JUMP_MS : UInt64 := 10 * 60 * 1000

namespace PeerStatus

/-- Store an address that is present; a new one is a change. -/
def takePublicIp (e : PeerStatus) (ip : Option String) : PeerStatus × Bool :=
  if ip.isSome ∧ e.publicIp ≠ ip then ({ e with publicIp := ip }, true) else (e, false)

def takeLocalIp (e : PeerStatus) (ip : Option String) : PeerStatus × Bool :=
  if ip.isSome ∧ e.localIp ≠ ip then ({ e with localIp := ip }, true) else (e, false)

/-- A verified heartbeat; an older one is ignored. -/
def heartbeat (e : PeerStatus) (h : Heartbeat) : PeerStatus × Bool :=
  if h.ts < e.lastSeen then (e, false)
  else
    let changed := e.lastSeen = 0 ∨ saturatingSub h.ts e.lastSeen > LAST_SEEN_JUMP_MS ∨
      e.hostname ≠ some h.hostname ∨ e.accessDisabled ≠ h.accessDisabled ∨ e.hidden ≠ h.hidden
    let (e, ipChanged) := { e with
      lastSeen := h.ts
      hostname := some h.hostname
      accessDisabled := h.accessDisabled
      hidden := h.hidden }.takePublicIp h.publicIp
    (e, changed || ipChanged)

/-- What is observed of the connection. The observed address is stored, but is no change. -/
def connection (e : PeerStatus) (info : ConnInfo) (online : Bool) : PeerStatus × Bool :=
  let changed := e.online ≠ online ∨ e.direct ≠ info.direct
  let (e, localChanged) := { e with
    online
    direct := info.direct
    observedAddr := info.observed.or e.observedAddr }.takeLocalIp info.localIp
  let (e, publicChanged) := e.takePublicIp info.publicIp
  (e, changed || localChanged || publicChanged)

@[simp] theorem online_takePublicIp (e : PeerStatus) (ip : Option String) :
    (e.takePublicIp ip).1.online = e.online := by
  unfold takePublicIp
  split <;> rfl

@[simp] theorem online_takeLocalIp (e : PeerStatus) (ip : Option String) :
    (e.takeLocalIp ip).1.online = e.online := by
  unfold takeLocalIp
  split <;> rfl

@[simp] theorem online_heartbeat (e : PeerStatus) (h : Heartbeat) :
    (e.heartbeat h).1.online = e.online := by
  unfold heartbeat
  split
  · rfl
  · exact online_takePublicIp _ _

@[simp] theorem online_connection (e : PeerStatus) (info : ConnInfo) (online : Bool) :
    (e.connection info online).1.online = online := by
  simp [connection]

/-! What each of them writes, and when it is a change. -/

theorem takePublicIp_eq (e : PeerStatus) (ip : Option String) :
    e.takePublicIp ip = ({ e with publicIp := if ip.isSome then ip else e.publicIp },
      decide (ip.isSome ∧ e.publicIp ≠ ip)) := by
  unfold takePublicIp
  by_cases hip : ip.isSome
  · by_cases hne : e.publicIp = ip
    · rw [if_neg (fun h => h.2 hne), if_pos hip, ← hne]
      simp
    · rw [if_pos ⟨hip, hne⟩, if_pos hip]
      simp [hip, hne]
  · rw [if_neg (fun h => hip h.1), if_neg hip]
    simp [hip]

theorem takeLocalIp_eq (e : PeerStatus) (ip : Option String) :
    e.takeLocalIp ip = ({ e with localIp := if ip.isSome then ip else e.localIp },
      decide (ip.isSome ∧ e.localIp ≠ ip)) := by
  unfold takeLocalIp
  by_cases hip : ip.isSome
  · by_cases hne : e.localIp = ip
    · rw [if_neg (fun h => h.2 hne), if_pos hip, ← hne]
      simp
    · rw [if_pos ⟨hip, hne⟩, if_pos hip]
      simp [hip, hne]
  · rw [if_neg (fun h => hip h.1), if_neg hip]
    simp [hip]

theorem heartbeat_old {e : PeerStatus} {h : Heartbeat} (hts : h.ts < e.lastSeen) :
    e.heartbeat h = (e, false) :=
  if_pos hts

/-- What a heartbeat changes that the UI shows. -/
def HeartbeatChanges (e : PeerStatus) (h : Heartbeat) : Prop :=
  e.lastSeen = 0 ∨ saturatingSub h.ts e.lastSeen > LAST_SEEN_JUMP_MS ∨
    e.hostname ≠ some h.hostname ∨ e.accessDisabled ≠ h.accessDisabled ∨ e.hidden ≠ h.hidden ∨
    (h.publicIp.isSome ∧ e.publicIp ≠ h.publicIp)

theorem heartbeat_new {e : PeerStatus} {h : Heartbeat} (hts : ¬ h.ts < e.lastSeen) :
    (e.heartbeat h).1 = { e with
      lastSeen := h.ts
      hostname := some h.hostname
      accessDisabled := h.accessDisabled
      hidden := h.hidden
      publicIp := if h.publicIp.isSome then h.publicIp else e.publicIp } ∧
    ((e.heartbeat h).2 = true ↔ e.HeartbeatChanges h) := by
  unfold heartbeat
  rw [if_neg hts, takePublicIp_eq]
  refine ⟨rfl, ?_⟩
  simp only [HeartbeatChanges, Bool.or_eq_true, decide_eq_true_eq, or_assoc]

/-- What an observation changes that the UI shows. -/
def ConnectionChanges (e : PeerStatus) (info : ConnInfo) (online : Bool) : Prop :=
  e.online ≠ online ∨ e.direct ≠ info.direct ∨ (info.localIp.isSome ∧ e.localIp ≠ info.localIp) ∨
    (info.publicIp.isSome ∧ e.publicIp ≠ info.publicIp)

theorem connection_eq (e : PeerStatus) (info : ConnInfo) (online : Bool) :
    (e.connection info online).1 = { e with
      online
      direct := info.direct
      observedAddr := info.observed.or e.observedAddr
      localIp := if info.localIp.isSome then info.localIp else e.localIp
      publicIp := if info.publicIp.isSome then info.publicIp else e.publicIp } ∧
    ((e.connection info online).2 = true ↔ e.ConnectionChanges info online) := by
  refine ⟨by simp only [connection, takeLocalIp_eq, takePublicIp_eq], ?_⟩
  simp only [connection, takeLocalIp_eq, takePublicIp_eq, ConnectionChanges, Bool.or_eq_true,
    decide_eq_true_eq, or_assoc]

/-! Of the public address alone: its two writers. -/

theorem publicIp_heartbeat (e : PeerStatus) (h : Heartbeat) :
    (e.heartbeat h).1.publicIp =
      if ¬ h.ts < e.lastSeen ∧ h.publicIp.isSome then h.publicIp else e.publicIp := by
  by_cases hold : h.ts < e.lastSeen
  · rw [heartbeat_old hold, if_neg fun hnew => hnew.1 hold]
  · rw [(heartbeat_new hold).1]
    simp only [hold, not_false_eq_true, true_and]

theorem publicIp_connection (e : PeerStatus) (info : ConnInfo) (online : Bool) :
    (e.connection info online).1.publicIp =
      if info.publicIp.isSome then info.publicIp else e.publicIp := by
  rw [(connection_eq e info online).1]

end PeerStatus

/-! ## 2. The tracker -/

/-- The latest presence and observation for each known peer. -/
structure PresenceTracker where
  peers : Std.ExtTreeMap Id PeerStatus := ∅

namespace PresenceTracker

/-- The peer's status, a default one for an unknown peer (`entry(..).or_default()`). -/
def entry (t : PresenceTracker) (id : Id) : PeerStatus := t.peers[id]?.getD {}

def update (t : PresenceTracker) (id : Id) (f : PeerStatus → PeerStatus × Bool) :
    PresenceTracker × Bool :=
  let (e, changed) := f (t.entry id)
  (⟨t.peers.insert id e⟩, changed)

/-- Record a verified heartbeat. -/
def recordHeartbeat (t : PresenceTracker) (id : Id) (h : Heartbeat) : PresenceTracker × Bool :=
  t.update id fun e => e.heartbeat h

/-- Seed a peer's last-seen time from the persisted store. -/
def setLastSeen (t : PresenceTracker) (id : Id) (ts : UInt64) : PresenceTracker :=
  (t.update id fun e => (if ts > e.lastSeen then { e with lastSeen := ts } else e, false)).1

/-- Record what we observe about a live connection to a peer. -/
def recordConnection (t : PresenceTracker) (id : Id) (info : ConnInfo) (online : Bool) :
    PresenceTracker × Bool :=
  t.update id fun e => e.connection info online

/-- Set the roster-assigned virtual IP of a peer. -/
def setVirtualIp (t : PresenceTracker) (id : Id) (ip : Ipv4Addr) : PresenceTracker :=
  (t.update id fun e => ({ e with virtualIp := some ip }, false)).1

/-- Set a peer's resolved location. -/
def setLocation (t : PresenceTracker) (id : Id) (location : Option String) :
    PresenceTracker × Bool :=
  t.update id fun e => ({ e with location }, e.location ≠ location)

/-! ## 3. The online flag -/

/-- The online flag the UI shows for a peer. -/
def online (t : PresenceTracker) (id : Id) : Bool := (t.entry id).online

@[simp] theorem online_empty (id : Id) : ({} : PresenceTracker).online id = false := by
  simp [online, entry]

theorem entry_update (t : PresenceTracker) (id p : Id) (f : PeerStatus → PeerStatus × Bool) :
    (t.update id f).1.entry p = if id = p then (f (t.entry id)).1 else t.entry p := by
  by_cases h : id = p <;> simp [update, entry, Std.ExtTreeMap.getElem?_insert, h]

/-- An update that keeps the flag of the status keeps it for every peer. -/
theorem online_update {t : PresenceTracker} {id : Id} {f : PeerStatus → PeerStatus × Bool}
    (h : (f (t.entry id)).1.online = (t.entry id).online) (p : Id) :
    (t.update id f).1.online p = t.online p := by
  rw [online, online, entry_update]
  split
  · rename_i hp
    rw [h, hp]
  · rfl

/-- **A connection observation writes the online flag of its peer, and of no other.** -/
theorem online_recordConnection (t : PresenceTracker) (id p : Id) (info : ConnInfo) (b : Bool) :
    (t.recordConnection id info b).1.online p = if id = p then b else t.online p := by
  rw [online, recordConnection, entry_update]
  split
  · exact PeerStatus.online_connection _ info b
  · rfl

@[simp] theorem online_recordHeartbeat (t : PresenceTracker) (id p : Id) (h : Heartbeat) :
    (t.recordHeartbeat id h).1.online p = t.online p :=
  online_update (PeerStatus.online_heartbeat _ h) p

@[simp] theorem online_setLastSeen (t : PresenceTracker) (id p : Id) (ts : UInt64) :
    (t.setLastSeen id ts).online p = t.online p :=
  online_update (by dsimp only; split <;> rfl) p

@[simp] theorem online_setVirtualIp (t : PresenceTracker) (id p : Id) (ip : Ipv4Addr) :
    (t.setVirtualIp id ip).online p = t.online p :=
  online_update rfl p

@[simp] theorem online_setLocation (t : PresenceTracker) (id p : Id) (location : Option String) :
    (t.setLocation id location).1.online p = t.online p :=
  online_update rfl p

end PresenceTracker

/-! ## 4. Runs -/

/-- What the engine tells the tracker. -/
inductive PresenceCall where
  | heartbeat (id : Id) (h : Heartbeat)
  | connection (id : Id) (info : ConnInfo) (online : Bool)
  | virtualIp (id : Id) (ip : Ipv4Addr)
  | location (id : Id) (location : Option String)
  deriving DecidableEq

/-- The peer a call is about. -/
def PresenceCall.about : PresenceCall → Id
  | .heartbeat id _ => id
  | .connection id _ _ => id
  | .virtualIp id _ => id
  | .location id _ => id

namespace PresenceTracker

/-- The tracker behind a call, and whether the UI shows something else. -/
def call (t : PresenceTracker) : PresenceCall → PresenceTracker × Bool
  | .heartbeat id h => t.recordHeartbeat id h
  | .connection id info online => t.recordConnection id info online
  | .virtualIp id ip => (t.setVirtualIp id ip, false)
  | .location id location => t.setLocation id location

def step (t : PresenceTracker) (c : PresenceCall) : PresenceTracker := (t.call c).1

/-- What a call does to the status it is about. -/
def onEntry (e : PeerStatus) : PresenceCall → PeerStatus
  | .heartbeat _ h => (e.heartbeat h).1
  | .connection _ info online => (e.connection info online).1
  | .virtualIp _ ip => { e with virtualIp := some ip }
  | .location _ location => { e with location }

/-- **A call changes the status of its peer,** -/
theorem entry_step_self {t : PresenceTracker} {c : PresenceCall} {p : Id} (h : c.about = p) :
    (t.step c).entry p = onEntry (t.entry p) c := by
  subst h
  cases c with
  | heartbeat id h => exact (entry_update t id id _).trans (if_pos rfl)
  | connection id info online => exact (entry_update t id id _).trans (if_pos rfl)
  | virtualIp id ip =>
    exact (entry_update t id id fun e => ({ e with virtualIp := some ip }, false)).trans
      (if_pos rfl)
  | location id location => exact (entry_update t id id _).trans (if_pos rfl)

/-- **and no other.** -/
theorem entry_step_of_ne {t : PresenceTracker} {c : PresenceCall} {p : Id} (h : c.about ≠ p) :
    (t.step c).entry p = t.entry p := by
  cases c with
  | heartbeat id hb => exact (entry_update t id p _).trans (if_neg h)
  | connection id info online => exact (entry_update t id p _).trans (if_neg h)
  | virtualIp id ip =>
    exact (entry_update t id p fun e => ({ e with virtualIp := some ip }, false)).trans (if_neg h)
  | location id location => exact (entry_update t id p _).trans (if_neg h)

end PresenceTracker

end Nullgate
