/-
  File:      Nullgate/Presence/Gossip.lean
  Subject:   PRESENCE GOSSIP: what a peer is shown as, whatever order its messages come in.

  Members broadcast signed heartbeats, the originator signed locations. Gossip reorders, and
  anybody can send an old message again. The receiver drops what does not verify and feeds the
  tracker: a heartbeat older than the last one is left out, an address that is missing does not
  clear the one before, and a location is taken as it comes.

  * `Presence.verify`, `Locations.verify`, `GossipMsg.receive`: the receiver;
  * `PresenceTracker.shown`: the fields that gossip writes;
  * **`gossip_order_free_iff`**: for every set of messages, these are the same for every order
    exactly when the newest heartbeat carries an address, or none does, and all locations given
    for the peer are one and the same;
  * `location_overwritten`: the older of two locations, delivered last, stays.
-/
import Nullgate.Lib.Cbor
import Nullgate.Lib.Newest
import Nullgate.Presence.Tracker
import Nullgate.Roster.Build

namespace Nullgate

open Nullgate.Lib Nullgate.Lib.Cbor

/-! ## 1. The messages -/

/-- A text, or `null`. -/
def optionalText : Option String → List UInt8
  | none => [0xf6]
  | some s => text.enc s

/-- A signed heartbeat of a member. -/
structure Presence where
  networkId : Id
  nodeId : Id
  hostname : String
  publicIp : Option String
  remoteAccessDisabled : Bool
  hidden : Bool
  ts : UInt64
  signature : List UInt8
  deriving DecidableEq

/-- What a heartbeat's signature is over (`signing_bytes`): a map of eight fields. -/
def presenceBytes (networkId nodeId : Id) (hostname : String) (publicIp : Option String)
    (remoteAccessDisabled hidden : Bool) (ts : UInt64) : List UInt8 :=
  head 5 8 ++ (field "domain" text).enc "ipn-presence-v1" ++
    (field "network_id" (fixed 32)).enc networkId ++ (field "node_id" (fixed 32)).enc nodeId ++
    (field "hostname" text).enc hostname ++ text.enc "public_ip" ++ optionalText publicIp ++
    (field "remote_access_disabled" bool).enc remoteAccessDisabled ++
    (field "hidden" bool).enc hidden ++ (field "ts" uint).enc ts

/-- What the originator has resolved for the members. -/
structure Locations where
  networkId : Id
  ts : UInt64
  entries : List (Id × String)
  signature : List UInt8
  deriving DecidableEq

/-- `loc_signing_bytes`: a map of four fields, the entries as pairs. -/
def locSigningBytes (networkId : Id) (entries : List (Id × String)) (ts : UInt64) : List UInt8 :=
  head 5 4 ++ (field "domain" text).enc "ipn-locations-v1" ++
    (field "network_id" (fixed 32)).enc networkId ++ text.enc "entries" ++
    head 4 entries.length ++
    entries.flatMap (fun e => head 4 2 ++ (fixed 32).enc e.1 ++ text.enc e.2) ++
    (field "ts" uint).enc ts

variable (P : Primitives)

/-- `Presence::signed`. -/
def Presence.signed (networkId : Id) (key : SigningKey) (hostname : String)
    (publicIp : Option String) (remoteAccessDisabled hidden : Bool) (ts : UInt64) : Presence :=
  let nodeId := P.verifyingKey key
  { networkId, nodeId, hostname, publicIp, remoteAccessDisabled, hidden, ts
    signature := (P.sign key (presenceBytes networkId nodeId hostname publicIp
      remoteAccessDisabled hidden ts)).toList }

/-- The heartbeat is of this network, and signed by its node. -/
def Presence.verify (p : Presence) (networkId : Id) : Bool :=
  if p.networkId ≠ networkId then false
  else
    match Bytes.ofList? 64 p.signature with
    | none => false
    | some sig =>
      match P.fromBytes p.nodeId with
      | none => false
      | some vk => P.verifyStrict vk (presenceBytes p.networkId p.nodeId p.hostname p.publicIp
          p.remoteAccessDisabled p.hidden p.ts) sig

/-- `Locations::signed`. -/
def Locations.signed (networkId : Id) (originatorKey : SigningKey) (entries : List (Id × String))
    (ts : UInt64) : Locations :=
  { networkId, ts, entries
    signature := (P.sign originatorKey (locSigningBytes networkId entries ts)).toList }

/-- The locations are of this network, and signed by its originator. -/
def Locations.verify (l : Locations) (networkId originatorId : Id) : Bool :=
  if l.networkId ≠ networkId then false
  else
    match Bytes.ofList? 64 l.signature with
    | none => false
    | some sig =>
      match P.fromBytes originatorId with
      | none => false
      | some vk => P.verifyStrict vk (locSigningBytes l.networkId l.entries l.ts) sig

inductive GossipMsg where
  | presence (p : Presence)
  | locations (l : Locations)
  deriving DecidableEq

/-! ## 2. The receiver -/

/-- What a device listens under: its own id, its network, and the network's originator. -/
structure Listener where
  myId : Id
  networkId : Id
  originatorId : Id

/-- What the heartbeat tells the tracker. -/
def Presence.heartbeat (p : Presence) : Heartbeat where
  hostname := p.hostname
  publicIp := p.publicIp
  accessDisabled := p.remoteAccessDisabled
  hidden := p.hidden
  ts := p.ts

/-- The entries of a locations message, one after the other. -/
def PresenceTracker.setLocations (t : PresenceTracker) (entries : List (Id × String)) :
    PresenceTracker × Bool :=
  entries.foldl (fun (t, changed) (id, location) =>
    let r := t.setLocation id (some location)
    (r.1, changed || r.2)) (t, false)

/-- The receiver of the presence topic (a task of `activate`): the tracker behind a message, and
    whether `Changed` is sent. -/
def GossipMsg.receive (L : Listener) (t : PresenceTracker) : GossipMsg → PresenceTracker × Bool
  | .presence p =>
    if p.verify P L.networkId ∧ p.nodeId ≠ L.myId then t.recordHeartbeat p.nodeId p.heartbeat
    else (t, false)
  | .locations l =>
    if l.verify P L.networkId L.originatorId then t.setLocations l.entries else (t, false)

/-- The tracker behind a message. -/
def hear (L : Listener) (t : PresenceTracker) (m : GossipMsg) : PresenceTracker :=
  (m.receive P L t).1

/-- The fields that gossip writes. -/
@[ext] structure Shown where
  hostname : Option String
  accessDisabled : Bool
  hidden : Bool
  lastSeen : UInt64
  publicIp : Option String
  location : Option String
  deriving DecidableEq

def PresenceTracker.shown (t : PresenceTracker) (p : Id) : Shown where
  hostname := (t.entry p).hostname
  accessDisabled := (t.entry p).accessDisabled
  hidden := (t.entry p).hidden
  lastSeen := (t.entry p).lastSeen
  publicIp := (t.entry p).publicIp
  location := (t.entry p).location

/-! ## 3. What a message says about a peer -/

/-- What the receiver takes of a message as a heartbeat of the peer. -/
def GossipMsg.heartbeatOf (L : Listener) (p : Id) : GossipMsg → Option Heartbeat
  | .presence m =>
    if m.verify P L.networkId ∧ m.nodeId ≠ L.myId ∧ m.nodeId = p then some m.heartbeat else none
  | .locations _ => none

/-- The location an entry list gives for the peer: the last one. -/
def locationIn (p : Id) : List (Id × String) → Option String
  | [] => none
  | (id, location) :: rest => (locationIn p rest).or (if id = p then some location else none)

/-- What the receiver takes of a message as a location of the peer, with its timestamp. -/
def GossipMsg.locationOf (L : Listener) (p : Id) : GossipMsg → Option (UInt64 × String)
  | .presence _ => none
  | .locations l =>
    if l.verify P L.networkId L.originatorId then
      (locationIn p l.entries).map fun location => (l.ts, location)
    else none

variable {P} {L : Listener} {t : PresenceTracker} {p : Id} {m : GossipMsg}

/-- A locations message writes the location of the peers it names. -/
theorem entry_setLocations (entries : List (Id × String)) (t : PresenceTracker) (b : Bool) :
    (entries.foldl (fun (t, changed) (id, location) =>
      let r := PresenceTracker.setLocation t id (some location)
      (r.1, changed || r.2)) (t, b)).1.entry p =
    { t.entry p with location := (locationIn p entries).or (t.entry p).location } := by
  induction entries generalizing t b with
  | nil => rfl
  | cons e entries ih =>
    rw [List.foldl_cons, ih, locationIn, PresenceTracker.setLocation, PresenceTracker.entry_update]
    by_cases h : e.1 = p
    · rw [if_pos h, if_pos h, h, Option.or_assoc]
      rfl
    · rw [if_neg h, if_neg h, Option.or_none]

/-- **A message of the peer's**, as its entry takes it. -/
theorem entry_hear (t : PresenceTracker) (p : Id) (m : GossipMsg) :
    (hear P L t m).entry p =
      match m.heartbeatOf P L p with
      | some h => ((t.entry p).heartbeat h).1
      | none => { t.entry p with
          location := ((m.locationOf P L p).map Prod.snd).or (t.entry p).location } := by
  cases m with
  | presence m =>
    rw [hear, GossipMsg.receive, GossipMsg.heartbeatOf, GossipMsg.locationOf]
    by_cases hv : m.verify P L.networkId ∧ m.nodeId ≠ L.myId
    · rw [if_pos hv, PresenceTracker.recordHeartbeat, PresenceTracker.entry_update]
      by_cases hp : m.nodeId = p
      · rw [if_pos hp, if_pos ⟨hv.1, hv.2, hp⟩, hp]
      · rw [if_neg hp, if_neg fun h => hp h.2.2]
        rfl
    · rw [if_neg hv, if_neg fun h => hv ⟨h.1, h.2.1⟩]
      rfl
  | locations l =>
    rw [hear, GossipMsg.receive, GossipMsg.heartbeatOf, GossipMsg.locationOf]
    by_cases hv : l.verify P L.networkId L.originatorId
    · rw [if_pos hv, if_pos hv, PresenceTracker.setLocations, entry_setLocations, Option.map_map]
      cases locationIn p l.entries <;> rfl
    · rw [if_neg hv, if_neg hv]
      rfl

/-! ## 4. The registers of a peer -/

theorem entry_hear_of_heartbeat {h : Heartbeat} (hm : m.heartbeatOf P L p = some h) :
    (hear P L t m).entry p = ((t.entry p).heartbeat h).1 := by
  rw [entry_hear, hm]

theorem entry_hear_of_none (hm : m.heartbeatOf P L p = none) :
    (hear P L t m).entry p =
      { t.entry p with
        location := ((m.locationOf P L p).map Prod.snd).or (t.entry p).location } := by
  rw [entry_hear, hm]

variable (P L p)

/-- **Hostname and flags**, under the time of the last heartbeat. -/
def seenRegister : Stamped (hear P L) UInt64 (Option String × Bool × Bool) where
  clock t := (t.entry p).lastSeen
  obs t := ((t.entry p).hostname, (t.entry p).accessDisabled, (t.entry p).hidden)
  writes m := (m.heartbeatOf P L p).map fun h =>
    (h.ts, some (some h.hostname, h.accessDisabled, h.hidden))
  other t m hm := by
    rw [Option.map_eq_none_iff] at hm
    rw [entry_hear_of_none hm]
    exact ⟨rfl, rfl⟩
  old t m i v hm hold := by
    obtain ⟨h, hh, hw⟩ := Option.map_eq_some_iff.mp hm
    obtain ⟨rfl, rfl⟩ := Prod.mk.inj hw
    rw [entry_hear_of_heartbeat hh, PeerStatus.heartbeat_old hold]
    exact ⟨rfl, rfl⟩
  new t m i v hm hnew := by
    obtain ⟨h, hh, hw⟩ := Option.map_eq_some_iff.mp hm
    obtain ⟨rfl, rfl⟩ := Prod.mk.inj hw
    rw [entry_hear_of_heartbeat hh, (PeerStatus.heartbeat_new (not_lt.mpr hnew)).1]
    exact ⟨rfl, rfl⟩

/-- **The address**, under the same time: a heartbeat may carry none. -/
def addressRegister : Stamped (hear P L) UInt64 (Option String) where
  clock t := (t.entry p).lastSeen
  obs t := (t.entry p).publicIp
  writes m := (m.heartbeatOf P L p).map fun h => (h.ts, h.publicIp.map some)
  other t m hm := by
    rw [Option.map_eq_none_iff] at hm
    rw [entry_hear_of_none hm]
    exact ⟨rfl, rfl⟩
  old t m i v hm hold := by
    obtain ⟨h, hh, hw⟩ := Option.map_eq_some_iff.mp hm
    obtain ⟨rfl, rfl⟩ := Prod.mk.inj hw
    rw [entry_hear_of_heartbeat hh, PeerStatus.heartbeat_old hold]
    exact ⟨rfl, rfl⟩
  new t m i v hm hnew := by
    obtain ⟨h, hh, hw⟩ := Option.map_eq_some_iff.mp hm
    obtain ⟨rfl, rfl⟩ := Prod.mk.inj hw
    rw [entry_hear_of_heartbeat hh, (PeerStatus.heartbeat_new (not_lt.mpr hnew)).1]
    cases h.publicIp <;> exact ⟨rfl, rfl⟩

/-- **The location**, which no time guards. -/
def locationRegister : Register (hear P L) (Option String) where
  obs t := (t.entry p).location
  writes _ m := (m.locationOf P L p).map fun x => some x.2
  law t m := by
    cases m with
    | presence m =>
      rw [entry_hear]
      cases GossipMsg.heartbeatOf P L p (.presence m) with
      | none => rfl
      | some h =>
        by_cases hold : h.ts < (t.entry p).lastSeen
        · simp only [PeerStatus.heartbeat_old hold]
          rfl
        · simp only [(PeerStatus.heartbeat_new hold).1]
          rfl
    | locations l =>
      rw [entry_hear_of_none rfl]
      cases GossipMsg.locationOf P L p (.locations l) <;> rfl

/-! ## 5. Every order -/

/-- The heartbeats of the peer in a set of messages. -/
def heartbeats (S : List GossipMsg) : List Heartbeat := S.filterMap (GossipMsg.heartbeatOf P L p)

/-- The locations given for the peer. -/
def locationsOf (S : List GossipMsg) : List (UInt64 × String) :=
  S.filterMap (GossipMsg.locationOf P L p)

/-- The timestamps of the peer's heartbeats are distinct. -/
def DistinctTimes (S : List GossipMsg) : Prop :=
  ∀ h ∈ heartbeats P L p S, ∀ h' ∈ heartbeats P L p S, h.ts = h'.ts → h = h'

instance decidableDistinctTimes (S : List GossipMsg) : Decidable (DistinctTimes P L p S) :=
  inferInstanceAs (Decidable (∀ h ∈ heartbeats P L p S, ∀ h' ∈ heartbeats P L p S, _))

/-- The newest of a list of messages, by their timestamps. -/
def IsNewest {α : Type} (ts : α → UInt64) (l : List α) (a : α) : Prop :=
  a ∈ l ∧ ∀ b ∈ l, ts b ≤ ts a

/-- What is shown for the peer once the messages have come in, one behind the other. -/
def shownAfter (l : List GossipMsg) : Shown := (run (hear P L) {} l).shown p

/-- **The order does not matter**: every delivery of `S` leaves the same, hostname, flags and time
    as the newest heartbeat has them, and the location as the newest message gives it. -/
structure OrderFree (S : List GossipMsg) (deliveries : List GossipMsg → Prop) : Prop where
  same : ∀ l₁ l₂, deliveries l₁ → deliveries l₂ → shownAfter P L p l₁ = shownAfter P L p l₂
  heartbeat : ∀ l, deliveries l → ∀ h, IsNewest Heartbeat.ts (heartbeats P L p S) h →
    (shownAfter P L p l).hostname = some h.hostname ∧
      (shownAfter P L p l).accessDisabled = h.accessDisabled ∧
      (shownAfter P L p l).hidden = h.hidden ∧ (shownAfter P L p l).lastSeen = h.ts
  location : ∀ l, deliveries l → ∀ x, IsNewest Prod.fst (locationsOf P L p S) x →
    (shownAfter P L p l).location = some x.2

/-- **The condition**: the newest heartbeat carries an address, or none does, and all locations
    given for the peer are the same. -/
structure Agreeing (S : List GossipMsg) : Prop where
  address : ∀ h, IsNewest Heartbeat.ts (heartbeats P L p S) h → h.publicIp = none →
    ∀ h' ∈ heartbeats P L p S, h'.publicIp = none
  location : ∀ x ∈ locationsOf P L p S, ∀ x' ∈ locationsOf P L p S, x.2 = x'.2

/-! ## 6. The condition is exact -/

variable {P L p} {S l : List GossipMsg} {h : Heartbeat}

theorem mem_heartbeats : h ∈ heartbeats P L p S ↔ ∃ m ∈ S, m.heartbeatOf P L p = some h :=
  List.mem_filterMap

theorem mem_locationsOf {x : UInt64 × String} :
    x ∈ locationsOf P L p S ↔ ∃ m ∈ S, m.locationOf P L p = some x := List.mem_filterMap

/-- Nothing was heard yet of a peer the tracker does not know. -/
theorem entry_empty : ({} : PresenceTracker).entry p = {} := by
  simp [PresenceTracker.entry]

/-- The register is written by the peer's heartbeats, under their times: by `h` what `f` says. -/
def ByHeartbeats {β : Type} (R : Stamped (hear P L) UInt64 β) (p : Id)
    (f : Heartbeat → Option β) : Prop :=
  ∀ m, R.writes m = (m.heartbeatOf P L p).map fun h => (h.ts, f h)

theorem byHeartbeats_seen : ByHeartbeats (seenRegister P L p) p
    fun h => some (some h.hostname, h.accessDisabled, h.hidden) := fun _ => rfl

theorem byHeartbeats_address : ByHeartbeats (addressRegister P L p) p
    fun h => h.publicIp.map some := fun _ => rfl

section ByHeartbeats

variable {β : Type} {R : Stamped (hear P L) UInt64 β} {f : Heartbeat → Option β}

theorem ByHeartbeats.writes_iff (hR : ByHeartbeats R p f) {i : UInt64} {v : Option β} :
    R.writes m = some (i, v) ↔ ∃ h, m.heartbeatOf P L p = some h ∧ h.ts = i ∧ f h = v := by
  rw [hR, Option.map_eq_some_iff]
  simp only [Prod.mk.injEq]

theorem DistinctTimes.distinct (hd : DistinctTimes P L p S) (hR : ByHeartbeats R p f) :
    R.Distinct S := by
  intro m hm m' hm' i v v' hw hw'
  obtain ⟨h, hh, hts, rfl⟩ := hR.writes_iff.mp hw
  obtain ⟨h', hh', hts', rfl⟩ := hR.writes_iff.mp hw'
  rw [hd h (mem_heartbeats.mpr ⟨m, hm, hh⟩) h' (mem_heartbeats.mpr ⟨m', hm', hh'⟩)
    (hts.trans hts'.symm)]

/-- **The newest heartbeat is what the newest message writes.** -/
theorem IsNewest.newest (h1 : IsNewest Heartbeat.ts (heartbeats P L p S) h)
    (hR : ByHeartbeats R p f) : ∃ m, R.Newest S m h.ts (f h) := by
  obtain ⟨hmem, hle⟩ := h1
  obtain ⟨m, hm, hh⟩ := mem_heartbeats.mp hmem
  refine ⟨m, hm, hR.writes_iff.mpr ⟨h, hh, rfl, rfl⟩, fun m' hm' i' v' hw => ?_⟩
  obtain ⟨h', hh', rfl, -⟩ := hR.writes_iff.mp hw
  exact hle h' (mem_heartbeats.mpr ⟨m', hm', hh'⟩)

/-- And the other way round. -/
theorem isNewest_of_newest {i : UInt64} {v : Option β} (hR : ByHeartbeats R p f)
    (hn : R.Newest S m i v) :
    ∃ h, IsNewest Heartbeat.ts (heartbeats P L p S) h ∧ h.ts = i ∧ f h = v := by
  obtain ⟨h, hh, rfl, rfl⟩ := hR.writes_iff.mp hn.writes
  refine ⟨h, ⟨mem_heartbeats.mpr ⟨m, hn.mem, hh⟩, fun x hx => ?_⟩, rfl, rfl⟩
  obtain ⟨mx, hmx, hhx⟩ := mem_heartbeats.mp hx
  exact hn.le mx hmx _ _ (hR.writes_iff.mpr ⟨x, hhx, rfl, rfl⟩)

end ByHeartbeats

/-- Nothing is older than the start. -/
theorem seen_start_le (i : UInt64) : (seenRegister P L p).clock {} ≤ i := by
  show (({} : PresenceTracker).entry p).lastSeen ≤ i
  rw [entry_empty]
  exact UInt64.le_iff_toNat_le.mpr (Nat.zero_le _)

theorem address_start_le (i : UInt64) : (addressRegister P L p).clock {} ≤ i :=
  seen_start_le (P := P) (L := L) i

/-- **Hostname, flags and time are the newest heartbeat's**, whatever comes when. -/
theorem seen_after (hd : DistinctTimes P L p S) (hl : ∀ m, m ∈ l ↔ m ∈ S)
    (h1 : IsNewest Heartbeat.ts (heartbeats P L p S) h) :
    (shownAfter P L p l).hostname = some h.hostname ∧
      (shownAfter P L p l).accessDisabled = h.accessDisabled ∧
      (shownAfter P L p l).hidden = h.hidden ∧ (shownAfter P L p l).lastSeen = h.ts := by
  obtain ⟨m, hn⟩ := h1.newest byHeartbeats_seen
  obtain ⟨hclock, hobs⟩ := Stamped.run_of_newest (hn.congr hl)
    ((hd.distinct byHeartbeats_seen).congr hl) (seen_start_le h.ts)
  obtain ⟨hhost, hflags⟩ := Prod.mk.inj hobs
  obtain ⟨haccess, hhidden⟩ := Prod.mk.inj hflags
  exact ⟨hhost, haccess, hhidden, hclock⟩

/-- What the register asks for, in the words of the heartbeats. -/
theorem address_condition_iff :
    (∀ m i, (addressRegister P L p).Newest S m i none →
        ∀ m' ∈ S, ∀ i' v', (addressRegister P L p).writes m' = some (i', v') → v' = none) ↔
      ∀ h, IsNewest Heartbeat.ts (heartbeats P L p S) h → h.publicIp = none →
        ∀ h' ∈ heartbeats P L p S, h'.publicIp = none := by
  constructor
  · intro hr h h1 hip h' hmem'
    obtain ⟨m, hn⟩ := h1.newest byHeartbeats_address
    rw [hip] at hn
    obtain ⟨m', hm', hh'⟩ := mem_heartbeats.mp hmem'
    have hnone := hr m h.ts hn m' hm' h'.ts _
      (byHeartbeats_address.writes_iff.mpr ⟨h', hh', rfl, rfl⟩)
    exact Option.map_eq_none_iff.mp hnone
  · intro hc m i hn m' hm' i' v' hw'
    obtain ⟨h, h1, -, hip⟩ := isNewest_of_newest byHeartbeats_address hn
    obtain ⟨h', hh', rfl, rfl⟩ := byHeartbeats_address.writes_iff.mp hw'
    rw [hc h h1 (Option.map_eq_none_iff.mp hip) h' (mem_heartbeats.mpr ⟨m', hm', hh'⟩)]
    rfl

/-- **The location is one of those given**, the last one. -/
theorem location_after (l : List GossipMsg) :
    ((shownAfter P L p l).location = none ∧ locationsOf P L p l = []) ∨
      ∃ x ∈ locationsOf P L p l, (shownAfter P L p l).location = some x.2 := by
  rcases (locationRegister P L p).noWrite_or_lastWrite {} l with hn | ⟨v, hw⟩
  · refine Or.inl ⟨?_, List.filterMap_eq_nil_iff.mpr fun m hm => ?_⟩
    · have hobs := (locationRegister P L p).obs_of_noWrite hn
      have hempty : (({} : PresenceTracker).entry p).location = none := by rw [entry_empty]
      exact hobs.trans hempty
    · obtain ⟨pre, post, hl⟩ := List.append_of_mem hm
      exact Option.map_eq_none_iff.mp (hn pre m post hl)
  · right
    have hobs := (locationRegister P L p).obs_of_lastWrite hw
    obtain ⟨pre, m, post, hsplit, hwrites, -⟩ := hw
    obtain ⟨x, hx, rfl⟩ := Option.map_eq_some_iff.mp hwrites
    refine ⟨x, mem_locationsOf.mpr ⟨m, ?_, hx⟩, hobs⟩
    rw [hsplit]
    exact List.mem_append_right _ List.mem_cons_self

/-- A message delivered last has its location shown. -/
theorem location_after_last {x : UInt64 × String} (hm : m.locationOf P L p = some x) :
    (shownAfter P L p (l ++ [m])).location = some x.2 := by
  have hwrites : (locationRegister P L p).writes (run (hear P L) {} l) m = some (some x.2) :=
    Option.map_eq_some_iff.mpr ⟨x, hm, rfl⟩
  exact (locationRegister P L p).obs_of_lastWrite
    ⟨l, m, [], (locationRegister P L p).lastWriteAt_snoc hwrites⟩

theorem locationsOf_congr (hl : ∀ m, m ∈ l ↔ m ∈ S) (x : UInt64 × String) :
    x ∈ locationsOf P L p l ↔ x ∈ locationsOf P L p S := by
  rw [mem_locationsOf, mem_locationsOf]
  exact exists_congr fun m => and_congr_left' (hl m)

/-- **Deliveries of the same messages leave the same**, where the condition holds. -/
theorem same_after {l₁ l₂ : List GossipMsg} (hd : DistinctTimes P L p S)
    (ha : Agreeing P L p S) (h₁ : ∀ m, m ∈ l₁ ↔ m ∈ S) (h₂ : ∀ m, m ∈ l₂ ↔ m ∈ S) :
    shownAfter P L p l₁ = shownAfter P L p l₂ := by
  have hstart : ∀ m ∈ S, ∀ i v, (seenRegister P L p).writes m = some (i, v) →
      (seenRegister P L p).clock {} ≤ i := fun _ _ i _ _ => seen_start_le i
  have hdistinct := hd.distinct (byHeartbeats_seen (P := P) (L := L) (p := p))
  have hclock : (shownAfter P L p l₁).lastSeen = (shownAfter P L p l₂).lastSeen :=
    Stamped.clock_run_eq_of_mem hdistinct hstart h₁ h₂
  have hseen : (seenRegister P L p).obs (run (hear P L) {} l₁) =
      (seenRegister P L p).obs (run (hear P L) {} l₂) := by
    refine Stamped.obs_run_eq_of_mem hdistinct hstart (fun m i hn => ?_) h₁ h₂
    -- a heartbeat always carries these
    obtain ⟨h, -, -, hv⟩ := byHeartbeats_seen.writes_iff.mp hn.writes
    cases hv
  obtain ⟨hhost, hflags⟩ := Prod.mk.inj hseen
  obtain ⟨haccess, hhidden⟩ := Prod.mk.inj hflags
  have haddress : (shownAfter P L p l₁).publicIp = (shownAfter P L p l₂).publicIp := by
    exact Stamped.obs_run_eq_of_mem (hd.distinct byHeartbeats_address)
      (fun _ _ i _ _ => address_start_le i) (address_condition_iff.mpr ha.address) h₁ h₂
  have hlocation : (shownAfter P L p l₁).location = (shownAfter P L p l₂).location := by
    rcases location_after l₁ with ⟨he₁, hnone₁⟩ | ⟨x₁, hx₁, he₁⟩
    · rcases location_after l₂ with ⟨he₂, -⟩ | ⟨x₂, hx₂, -⟩
      · rw [he₁, he₂]
      · rw [locationsOf_congr h₂, ← locationsOf_congr h₁, hnone₁] at hx₂
        cases hx₂
    · rcases location_after l₂ with ⟨-, hnone₂⟩ | ⟨x₂, hx₂, he₂⟩
      · rw [locationsOf_congr h₁, ← locationsOf_congr h₂, hnone₂] at hx₁
        cases hx₁
      · rw [he₁, he₂, ha.location x₁ ((locationsOf_congr h₁ x₁).mp hx₁) x₂
          ((locationsOf_congr h₂ x₂).mp hx₂)]
  rw [Shown.ext_iff]
  exact ⟨hhost, haccess, hhidden, hclock, haddress, hlocation⟩

/-- Where the condition holds, the order does not matter, nor how often a message comes. -/
theorem Agreeing.orderFree (ha : Agreeing P L p S) (hd : DistinctTimes P L p S) :
    OrderFree P L p S fun l => ∀ m, m ∈ l ↔ m ∈ S where
  same l₁ l₂ h₁ h₂ := same_after hd ha h₁ h₂
  heartbeat l hl h h1 := seen_after hd hl h1
  location l hl x hx := by
    rcases location_after l with ⟨-, hnone⟩ | ⟨y, hy, he⟩
    · have hxl := (locationsOf_congr hl x).mpr hx.1
      rw [hnone] at hxl
      cases hxl
    · rw [he, ha.location y ((locationsOf_congr hl y).mp hy) x hx.1]

/-- If the order does not matter, the condition holds. -/
theorem OrderFree.agreeing (ho : OrderFree P L p S fun l => l.Perm S)
    (hd : DistinctTimes P L p S) : Agreeing P L p S where
  address := by
    refine address_condition_iff.mp ((Stamped.orderFree_iff (hd.distinct byHeartbeats_address)
      (fun _ _ i _ _ => address_start_le i) fun m hm i u hw => ?_).mp fun l₁ l₂ h₁ h₂ => ?_)
    · -- an address is not the missing one of the start
      obtain ⟨h, -, -, hu⟩ := byHeartbeats_address.writes_iff.mp hw
      obtain ⟨ip, -, rfl⟩ := Option.map_eq_some_iff.mp hu
      have hempty : (({} : PresenceTracker).entry p).publicIp = none := by rw [entry_empty]
      exact fun he => by cases he.trans hempty
    · exact congrArg Shown.publicIp (ho.same l₁ l₂ h₁ h₂)
  location := by
    intro x hx x' hx'
    obtain ⟨m, hm, hmx⟩ := mem_locationsOf.mp hx
    obtain ⟨m', hm', hmx'⟩ := mem_locationsOf.mp hx'
    obtain ⟨pre, post, hs⟩ := List.append_of_mem hm
    obtain ⟨pre', post', hs'⟩ := List.append_of_mem hm'
    -- either message may come last
    have hperm : ((pre ++ post) ++ [m]).Perm S := by
      rw [hs]
      exact (List.perm_append_singleton m _).trans List.perm_middle.symm
    have hperm' : ((pre' ++ post') ++ [m']).Perm S := by
      rw [hs']
      exact (List.perm_append_singleton m' _).trans List.perm_middle.symm
    have hsame := congrArg Shown.location (ho.same _ _ hperm hperm')
    rw [location_after_last hmx, location_after_last hmx'] at hsame
    exact Option.some.inj hsame

theorem OrderFree.mono {D D' : List GossipMsg → Prop} (ho : OrderFree P L p S D)
    (h : ∀ l, D' l → D l) : OrderFree P L p S D' where
  same l₁ l₂ h₁ h₂ := ho.same l₁ l₂ (h l₁ h₁) (h l₂ h₂)
  heartbeat l hl := ho.heartbeat l (h l hl)
  location l hl := ho.location l (h l hl)

/-- **When the order of delivery does not matter**: for every set of messages, what does not verify
    among them left out, exactly where the newest heartbeat carries an address or none does, and
    all locations given for the peer agree. Messages that come again make no difference. -/
theorem gossip_order_free_iff (P : Primitives) (L : Listener) (p : Id) (S : List GossipMsg)
    (hd : DistinctTimes P L p S) :
    ((OrderFree P L p S fun l => l.Perm S) ↔ Agreeing P L p S) ∧
      ((OrderFree P L p S fun l => ∀ m, m ∈ l ↔ m ∈ S) ↔ Agreeing P L p S) := by
  have hperm : ∀ l : List GossipMsg, l.Perm S → ∀ m, m ∈ l ↔ m ∈ S := fun l h m => h.mem_iff
  refine ⟨⟨fun h => h.agreeing hd, fun h => ?_⟩, ⟨fun h => ?_, fun h => h.orderFree hd⟩⟩
  · exact (h.orderFree hd).mono hperm
  · exact (h.mono hperm).agreeing hd

namespace Sample

/-- Device 2 listens in the sample's network. -/
def listener : Listener := { myId := key 2, networkId := NET, originatorId := key 1 }

/-- Another device. -/
def laptop : Id := key 5

/-- Device 5 is heard of three times, its address in the newest heartbeat; the originator gives
    its location twice. -/
def heard : List GossipMsg :=
  [ .presence (.signed .plain NET (key 5) "laptop" none false false 1000),
    .presence (.signed .plain NET (key 5) "laptop" (some "1.2.3.4") false false 3000),
    .presence (.signed .plain NET (key 5) "desktop" none true false 2000),
    .locations (.signed .plain NET (key 1) [(key 5, "Paris, France")] 1000),
    .locations (.signed .plain NET (key 1) [(key 5, "Paris, France"), (key 6, "Rome, Italy")]
      2000) ]

/-- The originator resolves device 5 twice, each time elsewhere. -/
def moved : List GossipMsg :=
  [ .locations (.signed .plain NET (key 1) [(key 5, "Paris, France")] 1000),
    .locations (.signed .plain NET (key 1) [(key 5, "Rome, Italy")] 2000) ]

end Sample

theorem gossip_order_free_laptop :
    ((OrderFree .plain Sample.listener Sample.laptop Sample.heard fun l => l.Perm Sample.heard) ↔
        Agreeing .plain Sample.listener Sample.laptop Sample.heard) ∧
      ((OrderFree .plain Sample.listener Sample.laptop Sample.heard fun l =>
          ∀ m, m ∈ l ↔ m ∈ Sample.heard) ↔
        Agreeing .plain Sample.listener Sample.laptop Sample.heard) :=
  gossip_order_free_iff .plain Sample.listener Sample.laptop Sample.heard (by decide +kernel)

/-- **The older location, delivered last, stays**: it is taken as it comes. -/
theorem location_overwritten :
    DistinctTimes .plain Sample.listener Sample.laptop Sample.moved ∧
      locationsOf .plain Sample.listener Sample.laptop Sample.moved =
        [(1000, "Paris, France"), (2000, "Rome, Italy")] ∧
      (shownAfter .plain Sample.listener Sample.laptop Sample.moved.reverse).location =
        some "Paris, France" ∧
      ¬ OrderFree .plain Sample.listener Sample.laptop Sample.moved fun l =>
        l.Perm Sample.moved := by
  have hshown : (shownAfter .plain Sample.listener Sample.laptop Sample.moved).location =
      some "Rome, Italy" := by decide +kernel
  have hreversed :
      (shownAfter .plain Sample.listener Sample.laptop Sample.moved.reverse).location =
      some "Paris, France" := by decide +kernel
  refine ⟨by decide +kernel, by decide +kernel, hreversed, fun ho => ?_⟩
  have hsame := ho.same Sample.moved Sample.moved.reverse (List.Perm.refl _) (List.reverse_perm _)
  rw [hsame, hreversed] at hshown
  exact absurd hshown (by decide)

end Nullgate
