/-
  File:      Nullgate/Engine/Status.lean
  Subject:   WHAT A CLIENT IS SHOWN (`status`, `set_nickname` and `set_note` of `engine.rs`).

  The status is put together from the roster, the presence tracker, the device's own switches, and
  the nicknames and notes kept on the device under the hex of a node id.

  * `Viewer`, `Viewer.memberStatus`, `Viewer.status` -- the snapshot, member by member;
  * `mem_members_iff`, `nodup_members`, `sorted_members`: who is in it, once, in which order;
  * `Viewer.networkStatus`: it is a status as the interface takes it;
  * **`quiet_status_same`**: calls of the tracker that report no change leave the status as it was,
    up to last-seen times and observed addresses;
  * **`nicknames_shown`**: a member is labelled by the last call under exactly its node id; under
    another spelling that parses a call is accepted, and no status shows it.
-/
import Mathlib.Data.Prod.Lex
import Mathlib.Data.String.Basic
import Nullgate.Engine.Audit
import Nullgate.Gui.Notify
import Nullgate.Lifecycle.Secrets
import Nullgate.Presence.Tracker

namespace Nullgate

open Nullgate.Lib

/-! ## 1. The snapshot -/

/-- A member in the status. -/
structure MemberStatus extends MemberView where
  /-- this client's own note about the member -/
  note : Option String
  localIp : Option String
  publicIp : Option String
  location : Option String
  observedAddr : Option String
  direct : Option Bool
  lastSeen : UInt64
  isOriginatorDevice : Bool
  role : String
  accessDisabled : Bool
  hidden : Bool
  deriving DecidableEq

/-- The status of a network. -/
structure StatusView where
  name : String
  subnet : String
  frozen : Bool
  selfNodeId : String
  selfIp : Option String
  isOriginator : Bool
  selfRole : String
  peerTicketSingleUse : Bool
  /-- whether the TUN is up -/
  routing : Bool
  online : Bool
  homeRelay : Option String
  members : List MemberStatus
  deriving DecidableEq

/-- `Ipv4Addr::to_string`. -/
def Ipv4Addr.text (a : Ipv4Addr) : String :=
  let (b, c, d, e) := a.octets
  String.intercalate "." ([b, c, d, e].map fun o => toString o.toNat)

/-- **The engine, with what the status reads besides the membership.** -/
structure Viewer extends Inner where
  presence : PresenceTracker := {}
  /-- node id in hex to the local nickname -/
  nicknames : Std.ExtTreeMap String String := ∅
  notes : Std.ExtTreeMap String String := ∅
  remoteAccessDisabled : Bool := false
  hidden : Bool := false
  tun : Option Ipv4Addr := none
  /-- `current_hostname()` -/
  currentHostname : String
  /-- the first private and the first public address of this endpoint -/
  selfLocal : Option String := none
  selfPublic : Option String := none
  relayUrls : List String := []

namespace Viewer

/-- A flag of a member: our own live toggle, or what its heartbeat told. -/
def flag (v : Viewer) (own : Bool) (told : PeerStatus → Bool) (id : Id) : Bool :=
  if id = v.myId then own else (v.presence.peers[id]?.map told).getD false

/-- **The row of a member**, none for one that is hidden from this viewer. -/
def memberStatus (v : Viewer) (isOrig : Bool) (id : Id) (m : Member) : Option MemberStatus :=
  let ps := v.presence.peers[id]?
  let isSelf := decide (id = v.myId)
  let nodeHex := hexOf id
  let accessDisabled := v.flag v.remoteAccessDisabled PeerStatus.accessDisabled id
  let hidden := v.flag v.hidden PeerStatus.hidden id
  if !isSelf && hidden && !isOrig then none
  else
    let role := if isSelf && isOrig then "originator" else (v.roster.role id).asStr
    some {
      hostname :=
        if isSelf then some v.currentHostname
        else (ps.bind PeerStatus.hostname).or (some m.hostname)
      label := v.nicknames[nodeHex]?
      note := v.notes[nodeHex]?
      virtualIp := some m.virtualIp.text
      localIp := if isSelf then v.selfLocal else ps.bind PeerStatus.localIp
      publicIp := if isSelf then v.selfPublic else ps.bind PeerStatus.publicIp
      location := ps.bind PeerStatus.location
      observedAddr := ps.bind PeerStatus.observedAddr
      direct := ps.bind PeerStatus.direct
      online := isSelf || (ps.map PeerStatus.online).getD false
      lastSeen := (ps.map PeerStatus.lastSeen).getD 0
      isSelf
      isOriginatorDevice := false
      role, accessDisabled, hidden
      nodeId := nodeHex }

end Viewer

/-- Online, then access disabled, then offline; hidden members sink to the bottom. -/
def MemberStatus.rank (m : MemberStatus) : Nat :=
  if m.hidden then 3 else if !m.online then 2 else if m.accessDisabled then 1 else 0

/-- What the members are sorted by. -/
def MemberStatus.orderKey (m : MemberStatus) : Nat ×ₗ String := toLex (m.rank, m.nodeId)

namespace Viewer

/-- The rows of the members, in the order of the roster. -/
def memberRows (v : Viewer) (isOrig : Bool) : List MemberStatus :=
  v.roster.members.toList.filterMap fun x => v.memberStatus isOrig x.1 x.2

/-- **Snapshot of the network for display.** -/
def status (v : Viewer) : Except String StatusView :=
  match v.config with
  | none => .error "no network"
  | some cfg =>
    let isOrig := cfg.originatorSecret.isSome
    .ok {
      -- the shared roster name, or the local one
      name := v.roster.name.getD cfg.name
      subnet := Ipv4Addr.text ⟨cfg.subnet⟩
      frozen := v.roster.frozen
      selfNodeId := hexOf v.myId
      selfIp := (v.roster.member v.myId).map fun m => m.virtualIp.text
      isOriginator := isOrig
      selfRole := if isOrig then "originator" else (v.roster.role v.myId).asStr
      peerTicketSingleUse := ((v.roster.currentInvite .peer).map Prod.snd).getD false
      routing := v.tun.isSome
      online := v.doc.isSome
      homeRelay := v.relayUrls.head?
      members :=
        (v.memberRows isOrig).insertionSort fun a b => a.orderKey ≤ b.orderKey }

/-! ## 2. Who is in it -/

variable {v : Viewer} {s : StatusView} {m : MemberStatus} {isOrig : Bool}

/-- The status there is, is put together under the config. -/
theorem status_ok (h : v.status = .ok s) :
    ∃ cfg, v.config = some cfg ∧ s.isOriginator = cfg.originatorSecret.isSome ∧
      s.selfNodeId = hexOf v.myId ∧
      s.members = (v.memberRows s.isOriginator).insertionSort fun a b =>
        a.orderKey ≤ b.orderKey := by
  unfold status at h
  cases hcfg : v.config with
  | none => rw [hcfg] at h; cases h
  | some cfg =>
    rw [hcfg] at h
    cases h
    exact ⟨cfg, rfl, rfl, rfl, rfl⟩

/-- What a row says of whose it is. -/
theorem memberStatus_fields {id : Id} {r : Member} (h : v.memberStatus isOrig id r = some m) :
    m.nodeId = hexOf id ∧ m.isSelf = decide (id = v.myId) ∧ m.label = v.nicknames[hexOf id]? ∧
      m.note = v.notes[hexOf id]? := by
  unfold memberStatus at h
  dsimp only at h
  split at h
  · cases h
  · cases h
    exact ⟨rfl, rfl, rfl, rfl⟩

/-- **A row is that of a member of the roster.** -/
theorem mem_memberRows_iff :
    m ∈ v.memberRows isOrig ↔
      ∃ id r, v.roster.members[id]? = some r ∧ v.memberStatus isOrig id r = some m := by
  rw [memberRows, List.mem_filterMap]
  constructor
  · rintro ⟨⟨id, r⟩, hin, hrow⟩
    exact ⟨id, r, Std.ExtTreeMap.mem_toList_iff_getElem?_eq_some.mp hin, hrow⟩
  · rintro ⟨id, r, hin, hrow⟩
    exact ⟨(id, r), Std.ExtTreeMap.mem_toList_iff_getElem?_eq_some.mpr hin, hrow⟩

/-- **The members in the status** are those of the roster that are not hidden from the viewer. -/
theorem mem_members_iff (h : v.status = .ok s) :
    m ∈ s.members ↔
      ∃ id r, v.roster.members[id]? = some r ∧ v.memberStatus s.isOriginator id r = some m := by
  obtain ⟨-, -, -, -, hmembers⟩ := status_ok h
  rw [hmembers, List.mem_insertionSort, mem_memberRows_iff]

theorem nodup_memberRows (v : Viewer) (isOrig : Bool) :
    ((v.memberRows isOrig).map fun m => m.nodeId).Nodup := by
  have hkeys : (v.roster.members.toList.map Prod.fst).Nodup := by
    rw [Std.ExtTreeMap.map_fst_toList_eq_keys]
    exact Std.ExtTreeMap.nodup_keys
  -- the node ids are a sublist of the hex of the keys
  have hsub : ((v.memberRows isOrig).map fun m => m.nodeId).Sublist
      ((v.roster.members.toList.map Prod.fst).map hexOf) := by
    unfold memberRows
    induction v.roster.members.toList with
    | nil => exact .slnil
    | cons x l ih =>
      rw [List.filterMap_cons, List.map_cons, List.map_cons]
      cases hrow : v.memberStatus isOrig x.1 x.2 with
      | none => exact ih.cons _
      | some m =>
        rw [← (memberStatus_fields hrow).1]
        exact ih.cons_cons _
  exact hsub.nodup (hkeys.map hexOf_injective)

/-- **Each member is listed once.** -/
theorem nodup_members (h : v.status = .ok s) : (s.members.map fun m => m.nodeId).Nodup := by
  obtain ⟨-, -, -, -, hmembers⟩ := status_ok h
  rw [hmembers]
  exact ((List.perm_insertionSort _ _).map _).nodup_iff.mpr (nodup_memberRows v _)

/-- **They come in the order of their keys.** -/
theorem sorted_members (h : v.status = .ok s) :
    s.members.Pairwise fun a b => a.orderKey ≤ b.orderKey := by
  obtain ⟨-, -, -, -, hmembers⟩ := status_ok h
  rw [hmembers]
  exact List.pairwise_insertionSort _ _

/-- The member that is this device. -/
theorem isSelf_iff (h : v.status = .ok s) (hm : m ∈ s.members) :
    m.isSelf = true ↔ m.nodeId = s.selfNodeId := by
  obtain ⟨-, -, -, hself, -⟩ := status_ok h
  obtain ⟨id, r, -, hrow⟩ := (mem_members_iff h).mp hm
  obtain ⟨hnode, hisSelf, -, -⟩ := memberStatus_fields hrow
  rw [hnode, hisSelf, hself, decide_eq_true_iff, hexOf_injective.eq_iff]

/-- **The status as the interface takes it.** -/
def networkStatus (h : v.status = .ok s) : NetworkStatus s.selfNodeId where
  members := s.members.map MemberStatus.toMemberView
  nodup := by
    rw [List.map_map]
    exact nodup_members h
  self_iff m hm := by
    obtain ⟨row, hrow, rfl⟩ := List.mem_map.mp hm
    exact isSelf_iff h hrow

end Viewer

/-! ## 3. A tracker that reports no change -/

/-- What of a peer's status is reported when it changes: not when it was last seen, nor where. -/
def PeerStatus.told (e : PeerStatus) : PeerStatus :=
  { e with lastSeen := 0, observedAddr := none, virtualIp := none }

/-- The same of a member. -/
def MemberStatus.told (m : MemberStatus) : MemberStatus :=
  { m with lastSeen := 0, observedAddr := none }

def StatusView.told (s : StatusView) : StatusView :=
  { s with members := s.members.map MemberStatus.told }

/-- **A call that reports no change leaves each peer's status as it was.** -/
theorem PresenceTracker.told_of_quiet {t : PresenceTracker} {c : PresenceCall}
    (h : (t.call c).2 = false) (p : Id) : ((t.step c).entry p).told = (t.entry p).told := by
  by_cases hp : c.about = p
  · rw [PresenceTracker.entry_step_self hp]
    subst hp
    cases c with
    | heartbeat id hb =>
      have hquiet : ((t.entry id).heartbeat hb).2 = false := h
      by_cases hold : hb.ts < (t.entry id).lastSeen
      · exact congrArg (fun r => PeerStatus.told r.1) (PeerStatus.heartbeat_old hold)
      · obtain ⟨hnew, hchanged⟩ := PeerStatus.heartbeat_new hold
        rw [hquiet] at hchanged
        have hno : ¬ (t.entry id).HeartbeatChanges hb := fun hc => by cases hchanged.mpr hc
        simp only [PeerStatus.HeartbeatChanges, not_or, not_and, ne_eq, not_not] at hno
        obtain ⟨-, -, hhost, hacc, hhid, hip⟩ := hno
        show PeerStatus.told ((t.entry id).heartbeat hb).1 = _
        rw [hnew]
        by_cases hsome : hb.publicIp.isSome = true
        · simp [PeerStatus.told, hhost, hacc, hhid, hsome, hip hsome, PresenceCall.about]
        · simp [PeerStatus.told, hhost, hacc, hhid, hsome, PresenceCall.about]
    | connection id info online =>
      have hquiet : ((t.entry id).connection info online).2 = false := h
      obtain ⟨hnew, hchanged⟩ := PeerStatus.connection_eq (t.entry id) info online
      rw [hquiet] at hchanged
      have hno : ¬ (t.entry id).ConnectionChanges info online := fun hc => by
        cases hchanged.mpr hc
      simp only [PeerStatus.ConnectionChanges, not_or, not_and, ne_eq, not_not] at hno
      obtain ⟨honline, hdirect, hlocal, hpublic⟩ := hno
      show PeerStatus.told ((t.entry id).connection info online).1 = _
      rw [hnew]
      have hl : (if info.localIp.isSome then info.localIp else (t.entry id).localIp) =
          (t.entry id).localIp := by
        split
        · rename_i hsome
          exact (hlocal hsome).symm
        · rfl
      have hp : (if info.publicIp.isSome then info.publicIp else (t.entry id).publicIp) =
          (t.entry id).publicIp := by
        split
        · rename_i hsome
          exact (hpublic hsome).symm
        · rfl
      rw [hl, hp]
      simp [PeerStatus.told, honline, hdirect, PresenceCall.about]
    | virtualIp id ip => rfl
    | location id location =>
      have hsame : (t.entry id).location = location := by simpa using of_decide_eq_false h
      show PeerStatus.told { t.entry id with location } = (t.entry id).told
      rw [← hsame]
  · rw [PresenceTracker.entry_step_of_ne hp]

namespace Viewer

/-- The engine behind a call of its tracker. -/
def hear (v : Viewer) (c : PresenceCall) : Viewer := { v with presence := v.presence.step c }

/-- A row reads its peer's status, a default one for an unknown peer. -/
theorem memberStatus_eq (v : Viewer) (isOrig : Bool) (id : Id) (r : Member) :
    v.memberStatus isOrig id r =
      let e := v.presence.entry id
      let isSelf := decide (id = v.myId)
      let hidden := if isSelf then v.hidden else e.hidden
      if !isSelf && hidden && !isOrig then none
      else some {
        hostname := if isSelf then some v.currentHostname else e.hostname.or (some r.hostname)
        label := v.nicknames[hexOf id]?
        note := v.notes[hexOf id]?
        virtualIp := some r.virtualIp.text
        localIp := if isSelf then v.selfLocal else e.localIp
        publicIp := if isSelf then v.selfPublic else e.publicIp
        location := e.location
        observedAddr := e.observedAddr
        direct := e.direct
        online := isSelf || e.online
        lastSeen := e.lastSeen
        isSelf
        isOriginatorDevice := false
        role := if isSelf && isOrig then "originator" else (v.roster.role id).asStr
        accessDisabled := if isSelf then v.remoteAccessDisabled else e.accessDisabled
        hidden
        nodeId := hexOf id } := by
  unfold memberStatus flag PresenceTracker.entry
  by_cases hself : id = v.myId
  · cases v.presence.peers[id]? with
    | none => simp [hself]
    | some e => simp [hself]
  · cases v.presence.peers[id]? with
    | none => simp [hself]
    | some e => simp [hself]

/-- Where the tracker holds the same, up to the times, the row is the same. -/
theorem told_memberStatus {v w : Viewer} (hsame : w = { v with presence := w.presence }) {id : Id}
    (h : (w.presence.entry id).told = (v.presence.entry id).told) (isOrig : Bool) (r : Member) :
    (w.memberStatus isOrig id r).map MemberStatus.told =
      (v.memberStatus isOrig id r).map MemberStatus.told := by
  rw [hsame, memberStatus_eq, memberStatus_eq]
  dsimp only
  simp only [PeerStatus.told, PeerStatus.mk.injEq] at h
  obtain ⟨hhost, hloc, -, hlocal, hpublic, -, hdirect, hacc, hhid, -, honline⟩ := h
  rw [hhost, hloc, hlocal, hpublic, hdirect, hacc, hhid, honline]
  simp only [apply_ite (Option.map MemberStatus.told), Option.map_none, Option.map_some,
    MemberStatus.told]

/-- **A call that reports no change leaves the status as it was.** -/
theorem told_status_hear {v : Viewer} {c : PresenceCall} (h : (v.presence.call c).2 = false) :
    (v.hear c).status.map StatusView.told = v.status.map StatusView.told := by
  have hrows : ∀ isOrig, ((v.hear c).memberRows isOrig).map MemberStatus.told =
      (v.memberRows isOrig).map MemberStatus.told := fun isOrig => by
    unfold memberRows
    rw [List.map_filterMap, List.map_filterMap]
    exact List.filterMap_congr fun x _ =>
      told_memberStatus rfl (PresenceTracker.told_of_quiet h x.1) isOrig x.2
  have hsort : ∀ rows : List MemberStatus,
      (rows.insertionSort fun a b => a.orderKey ≤ b.orderKey).map MemberStatus.told =
        (rows.map MemberStatus.told).insertionSort fun a b => a.orderKey ≤ b.orderKey :=
    fun rows => List.map_insertionSort _ _ _ _ fun _ _ _ _ => Iff.rfl
  unfold status
  show Except.map _ (match v.config with | none => _ | some cfg => _) = _
  cases v.config with
  | none => rfl
  | some cfg =>
    show Except.ok _ = Except.ok _
    rw [StatusView.told, hsort, hrows, ← hsort]
    rfl

/-- **No change the list shows goes unreported**: behind calls of the tracker each of which reports
    no change, the status is as it was, up to last-seen times and observed addresses. -/
theorem quiet_status_same (v : Viewer) (calls : List PresenceCall)
    (h : EachStep hear (fun w c => (w.presence.call c).2 = false) v calls) :
    (run hear v calls).status.map StatusView.told = v.status.map StatusView.told := by
  induction calls generalizing v with
  | nil => rfl
  | cons c calls ih =>
    rw [run_cons, ih (v.hear c) h.2, told_status_hear h.1]

end Viewer

/-- A peer that was heard of once. -/
def Sample.firstHeard : Heartbeat where
  hostname := "desk"
  publicIp := none
  accessDisabled := false
  hidden := false
  ts := 1000

def Sample.desk : Member where
  hostname := "host"
  role := .peer
  virtualIp := ⟨10, 99, 0, 3⟩
  addedBy := Sample.key 2

/-- A device and one peer, which was heard of. -/
def Sample.viewer : Viewer where
  deviceKey := Sample.key 2
  myId := Sample.key 2
  config := some (Sample.stored none)
  roster := { members := (∅ : Std.ExtTreeMap Id Member).insert (Sample.key 3) Sample.desk }
  presence := (PresenceTracker.recordHeartbeat {} (Sample.key 3) Sample.firstHeard).1
  currentHostname := "mine"

/-- A routine heartbeat, and a path found anew. -/
example :
    (run Viewer.hear Sample.viewer
        [.heartbeat (Sample.key 3) { Sample.firstHeard with ts := 4000 },
         .connection (Sample.key 3) { observed := some "1.2.3.4:5" } false]).status.map
      StatusView.told = Sample.viewer.status.map StatusView.told :=
  Viewer.quiet_status_same Sample.viewer _ (by decide)

/-! ## 4. Nicknames and notes -/

/-- Keep a text under a node id, or forget the one there is. -/
def keepText (texts : Std.ExtTreeMap String String) (nodeIdHex : String) :
    Option String → Std.ExtTreeMap String String
  | some text => texts.insert nodeIdHex text
  | none => texts.erase nodeIdHex

@[simp] theorem getElem?_keepText (texts : Std.ExtTreeMap String String) (nodeIdHex hex : String)
    (text : Option String) :
    (keepText texts nodeIdHex text)[hex]? = if nodeIdHex = hex then text else texts[hex]? := by
  cases text with
  | some t => simp [keepText, Std.ExtTreeMap.getElem?_insert]
  | none => simp [keepText, Std.ExtTreeMap.getElem?_erase]

/-- A name as it is kept: trimmed, a blank one not at all. -/
def cleanName (name : Option String) : Option String :=
  (name.map fun s => String.ofList (trim s.toList)).filter fun s => s ≠ ""

/-- A note as it is kept: verbatim, a blank one not at all. -/
def cleanNote (note : Option String) : Option String :=
  note.filter fun s => trim s.toList ≠ []

/-- A client's call about a member. -/
inductive LocalCall where
  | nickname (nodeIdHex : String) (name : Option String)
  | note (nodeIdHex : String) (note : Option String)

def LocalCall.nodeIdHex : LocalCall → String
  | .nickname hex _ => hex
  | .note hex _ => hex

namespace Viewer

/-- Set or clear this client's nickname for a member. -/
def setNickname (v : Viewer) (nodeIdHex : String) (name : Option String) :
    Except String Viewer := do
  let _ ← parseId nodeIdHex
  .ok { v with nicknames := keepText v.nicknames nodeIdHex (cleanName name) }

/-- Set or clear this client's note for a member. -/
def setNote (v : Viewer) (nodeIdHex : String) (note : Option String) : Except String Viewer := do
  let _ ← parseId nodeIdHex
  .ok { v with notes := keepText v.notes nodeIdHex (cleanNote note) }

def call (v : Viewer) : LocalCall → Except String Viewer
  | .nickname hex name => v.setNickname hex name
  | .note hex note => v.setNote hex note

/-- The engine behind a call, which fails or not. -/
def set (v : Viewer) (c : LocalCall) : Viewer := (v.call c).toOption.getD v

end Viewer

/-- The nickname a call sets under the bare node id. -/
def LocalCall.nickname? (nodeId : String) : LocalCall → Option (Option String)
  | .nickname hex name => if hex = nodeId then some (cleanName name) else none
  | .note _ _ => none

/-- The note a call sets under the bare node id. -/
def LocalCall.note? (nodeId : String) : LocalCall → Option (Option String)
  | .nickname _ _ => none
  | .note hex text => if hex = nodeId then some (cleanNote text) else none

@[simp] theorem parseId_hexOf (id : Id) : parseId (hexOf id) = .ok id := by
  rw [parseId, hexOf, String.toList_ofList, trim_encode, decodeHexLower_encode]
  dsimp only
  rw [Bytes.ofList?_toList]

namespace Viewer

/-- A call that fails changes nothing, one that does not, changes its own texts. -/
theorem set_eq (v : Viewer) (c : LocalCall) :
    v.set c = match parseId c.nodeIdHex, c with
      | .error _, _ => v
      | .ok _, .nickname hex name =>
        { v with nicknames := keepText v.nicknames hex (cleanName name) }
      | .ok _, .note hex text => { v with notes := keepText v.notes hex (cleanNote text) } := by
  cases c with
  | nickname hex name =>
    show (Except.toOption (parseId hex >>= fun _ => _)).getD v = _
    cases hid : parseId hex <;> simp [LocalCall.nodeIdHex, hid, Except.toOption, bind, Except.bind]
  | note hex text =>
    show (Except.toOption (parseId hex >>= fun _ => _)).getD v = _
    cases hid : parseId hex <;> simp [LocalCall.nodeIdHex, hid, Except.toOption, bind, Except.bind]

/-- **A call writes what is kept under the bare id it names**, and nothing under another. -/
theorem texts_set (v : Viewer) (c : LocalCall) (id : Id) :
    (v.set c).nicknames[hexOf id]? = (c.nickname? (hexOf id)).getD v.nicknames[hexOf id]? ∧
      (v.set c).notes[hexOf id]? = (c.note? (hexOf id)).getD v.notes[hexOf id]? := by
  rw [set_eq]
  by_cases hid : c.nodeIdHex = hexOf id
  · rw [hid, parseId_hexOf]
    cases c <;> simp_all [LocalCall.nodeIdHex, LocalCall.nickname?, LocalCall.note?]
  · cases parseId c.nodeIdHex <;> cases c <;>
      simp_all [LocalCall.nodeIdHex, LocalCall.nickname?, LocalCall.note?]

/-- Behind a run, the last call that names the bare id counts. -/
theorem texts_run (v : Viewer) (calls : List LocalCall) (id : Id) :
    (run set v calls).nicknames[hexOf id]? =
        (calls.reverse.findSome? (LocalCall.nickname? (hexOf id))).getD v.nicknames[hexOf id]? ∧
      (run set v calls).notes[hexOf id]? =
        (calls.reverse.findSome? (LocalCall.note? (hexOf id))).getD v.notes[hexOf id]? := by
  induction calls using List.reverseRecOn with
  | nil => exact ⟨rfl, rfl⟩
  | append_singleton calls c ih =>
    rw [run_append, run_cons, run_nil, (texts_set _ c id).1, (texts_set _ c id).2, ih.1, ih.2,
      List.reverse_append]
    refine ⟨?_, ?_⟩
    · cases h : c.nickname? (hexOf id) <;> simp [h]
    · cases h : c.note? (hexOf id) <;> simp [h]

/-- The status reads the texts under the bare ids of the members. -/
theorem status_of_same_texts {v : Viewer} {nicknames notes : Std.ExtTreeMap String String}
    (hnick : ∀ id, nicknames[hexOf id]? = v.nicknames[hexOf id]?)
    (hnote : ∀ id, notes[hexOf id]? = v.notes[hexOf id]?) :
    { v with nicknames, notes }.status = v.status := by
  have hrows : ∀ isOrig, { v with nicknames, notes }.memberRows isOrig = v.memberRows isOrig :=
    fun isOrig => List.filterMap_congr fun x _ => by
      rw [memberStatus_eq, memberStatus_eq]
      dsimp only
      rw [hnick, hnote]
  unfold status
  simp only [hrows]

/-- **A member is labelled by the last call under its bare node id**: trimmed, and not at all if
    that was blank; and so is its note. A call under another spelling of an id, such as one with
    blanks around it, is accepted too, and leaves every status as it was. -/
theorem nicknames_shown (v : Viewer) (calls : List LocalCall) :
    (∀ s, (run set v calls).status = .ok s → ∀ m ∈ s.members,
      m.label = (calls.reverse.findSome? (LocalCall.nickname? m.nodeId)).getD
        v.nicknames[m.nodeId]? ∧
      m.note = (calls.reverse.findSome? (LocalCall.note? m.nodeId)).getD v.notes[m.nodeId]?) ∧
    ∀ c id, parseId c.nodeIdHex = .ok id → c.nodeIdHex ≠ hexOf id →
      (∃ w, v.call c = .ok w) ∧ (v.set c).status = v.status := by
  refine ⟨fun s hs m hm => ?_, fun c id hid hne => ⟨?_, ?_⟩⟩
  · obtain ⟨id, r, -, hrow⟩ := (mem_members_iff hs).mp hm
    obtain ⟨hnode, -, hlabel, hnote⟩ := memberStatus_fields hrow
    rw [hnode, hlabel, hnote]
    exact texts_run v calls id
  · cases c with
    | nickname hex name =>
      have hid' : parseId hex = .ok id := hid
      exact ⟨_, by rw [call, setNickname, hid']; rfl⟩
    | note hex text =>
      have hid' : parseId hex = .ok id := hid
      exact ⟨_, by rw [call, setNote, hid']; rfl⟩
  · -- no member's hex is spelled so
    have hother : ∀ x, c.nodeIdHex ≠ hexOf x := fun x hx => by
      rw [hx, parseId_hexOf] at hid
      cases hid
      exact hne hx
    rw [set_eq, hid]
    cases c with
    | nickname hex name =>
      exact status_of_same_texts
        (fun x => (getElem?_keepText _ hex _ _).trans (if_neg (hother x))) fun _ => rfl
    | note hex text =>
      exact status_of_same_texts (fun _ => rfl)
        fun x => (getElem?_keepText _ hex _ _).trans (if_neg (hother x))

end Viewer

/-- The peer is named twice, the second time under a padded id. -/
def Sample.names : List LocalCall :=
  [.nickname (hexOf (Sample.key 3)) (some " desk "),
   .nickname (" " ++ hexOf (Sample.key 3)) (some "other")]

theorem nicknames_shown_sample :
    ∃ s, (run Viewer.set Sample.viewer Sample.names).status = .ok s ∧
      ∃ m ∈ s.members, m.label = some "desk" := by
  obtain ⟨s, hs⟩ : ∃ s, (run Viewer.set Sample.viewer Sample.names).status = .ok s := ⟨_, rfl⟩
  obtain ⟨m, hrow⟩ : ∃ m, (run Viewer.set Sample.viewer Sample.names).memberStatus
      s.isOriginator (Sample.key 3) Sample.desk = some m := ⟨_, rfl⟩
  have hm : m ∈ s.members := (Viewer.mem_members_iff hs).mpr ⟨_, _, by decide, hrow⟩
  refine ⟨s, hs, m, hm, ?_⟩
  rw [((Viewer.nicknames_shown Sample.viewer _).1 s hs m hm).1, (Viewer.memberStatus_fields hrow).1]
  decide

end Nullgate
