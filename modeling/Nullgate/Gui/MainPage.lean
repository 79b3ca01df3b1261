/-
  File:      Nullgate/Gui/MainPage.lean
  Subject:   THE MAIN PAGE (`main.rs` of the GUI): one widget tree, updated in place.

  No status may destroy a widget under the cursor. Member rows are kept from one status to the next
  and told apart by node id; the action button of a row is hidden, not removed. Only the
  Administration flyout is built anew, when the signature of what it shows has changed.

  * `memberRowTitle`, `memberRowSubtitle`, `dotStyle`, `updateActionButton` -- one row;
  * `Window`, `applyStatus`, `Window.step` -- the window, and its loop over messages and clicks;
  * `PlainUi` -- an interface that draws everything from nothing at each message;
  * **`page_current`**: the two show the same, whatever comes in;
  * `adminSignature_inj`: the signature tells all but the cards' names and codes;
  * **`admin_current`**: so the flyout is as if built anew, but for those and for its switches, and
    for them too where no switch was touched and no answered device asks again before its card is
    gone;
  * **`quiet_page_same`**: while the tracker reports no change, only the dots of dark peers can
    differ from what a new status would draw.
-/
import Nullgate.Engine.Status
import Nullgate.Gui.Actions
import Nullgate.Lib.Keyed

namespace Nullgate.Gui

open Nullgate.Lib

/-! ## 1. What comes in -/

/-- **A status message**, with what the engine sees to: each member is listed once, and the role is
    one of three. -/
structure Snapshot extends StatusView where
  nodup : (members.map fun m => m.nodeId).Nodup
  role_mem : selfRole ∈ ["originator", "controller", "peer"]

/-- The engine's status is such a message. -/
def Snapshot.ofStatus {v : Viewer} {s : StatusView} (h : v.status = .ok s) : Snapshot where
  toStatusView := s
  nodup := Viewer.nodup_members h
  role_mem := by
    obtain ⟨cfg, hcfg, -⟩ := Viewer.status_ok h
    unfold Viewer.status at h
    rw [hcfg] at h
    cases h
    dsimp only
    cases cfg.originatorSecret.isSome with
    | true => exact List.mem_cons_self
    | false => cases v.roster.role v.myId <;> simp [Role.asStr]

/-- A join request awaiting the user's decision. -/
structure PendingJoin where
  nodeId : String
  hostname : String
  sas : List String
  /-- the daemon writes ids in hex -/
  hex : ∃ id, nodeId = hexOf id

/-- The fill of an action button. -/
inductive ActionColor where
  | blue | teal | green | yellow | orange | red | purple | slate
  deriving DecidableEq

def ActionColor.id : ActionColor → String
  | .blue => "blue"
  | .teal => "teal"
  | .green => "green"
  | .yellow => "yellow"
  | .orange => "orange"
  | .red => "red"
  | .purple => "purple"
  | .slate => "slate"

/-- A device's action with its button. -/
structure ButtonAction extends DeviceAction where
  label : String
  color : ActionColor
  deriving DecidableEq

/-- What the window shows is made of these. -/
structure UiData where
  state : Option Snapshot := none
  pending : List PendingJoin := []
  deviceActions : Std.ExtTreeMap String ButtonAction := ∅

/-- Messages of the daemon, and clicks. -/
inductive UiEvent where
  | status (s : Option Snapshot)
  | refresh
  | daemonDown
  | versionMismatch (daemon gui : UInt32)
  | joinRequest (r : PendingJoin)
  /-- Approve or Deny; the refresh behind it is an event of its own -/
  | answer (nodeId : String)
  /-- an action saved, or removed -/
  | setAction (nodeId : String) (action : Option ButtonAction)
  | toggleFreeze (on : Bool)
  | toggleSingleUse (on : Bool)

/-- What an event does to the data, before anything is drawn. Requests are kept over a change of
    network. -/
def UiData.next (d : UiData) : UiEvent → UiData
  | .status (some s) =>
    { d with
      state := some s
      pending := d.pending.filter fun p => !s.members.any fun m => m.nodeId = p.nodeId }
  | .status none | .daemonDown | .versionMismatch _ _ => { d with state := none }
  | .joinRequest r =>
    if d.pending.any fun x => x.nodeId = r.nodeId then d
    else { d with pending := d.pending ++ [r] }
  | .answer nodeId => { d with pending := d.pending.filter fun p => p.nodeId ≠ nodeId }
  | .setAction nodeId (some a) => { d with deviceActions := d.deviceActions.insert nodeId a }
  | .setAction nodeId none => { d with deviceActions := d.deviceActions.erase nodeId }
  | .refresh | .toggleFreeze _ | .toggleSingleUse _ => d

/-! ## 2. One row -/

/-- Title for a member's row. -/
def memberRowTitle (m : MemberStatus) : String :=
  let title := (m.label.or m.hostname).getD (shortId m.nodeId)
  if m.isSelf then title ++ " (this device)" else title

/-- Subtitle for a member's row: host, address, flags, path. -/
def memberRowSubtitle (m : MemberStatus) : String :=
  let host := match m.label, m.hostname with
    | some _, some h => h ++ " · "
    | _, _ => ""
  let note :=
    if m.hidden then " · Hidden" else if m.accessDisabled then " · Access disabled" else ""
  let path :=
    if !m.isSelf && m.online && !m.accessDisabled then
      match m.direct with
      | some true => " · direct"
      | some false => " · relay"
      | none => ""
    else ""
  host ++ m.virtualIp.getD "(no IP)" ++ note ++ path

def WEEK_MS : UInt64 := 7 * 24 * 60 * 60 * 1000

/-- The class and the tooltip of a status dot. -/
def dotStyle (now : UInt64) (m : MemberStatus) : String × String :=
  if m.hidden then ("status-hidden", "Hidden")
  else if m.accessDisabled then ("warning", "Access disabled")
  else if m.online then ("success", "Online")
  else if m.lastSeen ≠ 0 && saturatingSub now m.lastSeen > WEEK_MS then
    ("error", "Offline (over a week)")
  else ("dim-label", "Offline")

/-- An action button as a widget: hidden, it keeps what it had. -/
structure ActionButton where
  label : String := ""
  cssClasses : List String := ["ng-action"]
  tooltip : String := ""
  visible : Bool := false
  deriving DecidableEq

/-- Paint a member row's action button. -/
def styleActionButton (btn : ActionButton) (label : String) (color : ActionColor)
    (online : Bool) : ActionButton :=
  let fill := "ng-action-" ++ color.id
  { btn with
    label
    cssClasses := if online then ["ng-action", fill] else ["ng-action", fill, "ng-action-dim"] }

/-- The member row's action button: shown only when that device has an action. -/
def updateActionButton (btn : ActionButton) (action : Option ButtonAction) (online : Bool) :
    ActionButton :=
  match action with
  | some a =>
    { styleActionButton btn a.label a.color online with tooltip := a.command, visible := true }
  | none => { btn with visible := false }

/-- One member's persistent row. -/
structure MemberRowUi where
  title : String
  subtitle : String
  dot : String × String
  action : ActionButton
  deriving DecidableEq

section Row

variable (now : UInt64) (cfg : Std.ExtTreeMap String ButtonAction)

/-- The row of a member that has none. -/
def newRow (m : MemberStatus) : MemberRowUi where
  title := memberRowTitle m
  subtitle := memberRowSubtitle m
  dot := dotStyle now m
  action := updateActionButton {} cfg[m.nodeId]? m.online

/-- The row of a member, updated in place. -/
def updateRow (m : MemberStatus) (r : MemberRowUi) : MemberRowUi where
  title := memberRowTitle m
  subtitle := memberRowSubtitle m
  dot := dotStyle now m
  action := updateActionButton r.action cfg[m.nodeId]? m.online

/-- What is to be seen of a button. -/
def ActionButton.look (btn : ActionButton) : Option (String × List String × String) :=
  if btn.visible then some (btn.label, btn.cssClasses, btn.tooltip) else none

/-- What is to be seen of a row. -/
structure RowLook where
  title : String
  subtitle : String
  dot : String × String
  action : Option (String × List String × String)
  deriving DecidableEq

def MemberRowUi.look (r : MemberRowUi) : RowLook where
  title := r.title
  subtitle := r.subtitle
  dot := r.dot
  action := r.action.look

/-- What is to be seen of a member: its row as it is drawn at first. -/
def rowLook (m : MemberStatus) : RowLook := (newRow now cfg m).look

/-- A button painted over looks like a new one. -/
theorem look_updateActionButton (btn btn' : ActionButton) (action : Option ButtonAction)
    (online : Bool) :
    (updateActionButton btn action online).look = (updateActionButton btn' action online).look := by
  cases action <;> rfl

theorem look_updateRow (m : MemberStatus) (r : MemberRowUi) :
    (updateRow now cfg m r).look = rowLook now cfg m := by
  simp only [MemberRowUi.look, rowLook, updateRow, newRow, RowLook.mk.injEq, true_and]
  exact look_updateActionButton _ _ _ _

end Row

/-! ## 3. The window -/

/-- What the full-width banner is about. -/
inductive ServiceBanner where
  | hidden | daemonDown | offline | routingOff
  deriving DecidableEq

/-- Its title and its button. -/
def ServiceBanner.text : ServiceBanner → Option (String × String)
  | .hidden => none
  | .daemonDown => some ("The Nullgate service isn't running", "Start service")
  | .offline => some ("Disconnected — the service lost its connection", "Restart service")
  | .routingOff => some ("Routing is off — traffic isn't being carried", "Restart service")

/-- Banner text for pending join requests. -/
def joinBannerText (n : Nat) : String :=
  if n ≤ 1 then "A new device has requested network access"
  else toString n ++ " devices have requested network access"

/-- The rows of the diagnostics flyout. -/
structure DiagPanel where
  homeRelay : String := "—"
  connections : String := "—"
  routing : String := "—"
  deriving DecidableEq

def updateDiag (s : StatusView) : DiagPanel where
  homeRelay := s.homeRelay.getD "—"
  connections :=
    let live (direct : Bool) :=
      s.members.countP fun m => !m.isSelf && m.online && m.direct = some direct
    toString (live true) ++ " direct · " ++ toString (live false) ++ " via relay"
  routing := if s.routing then "on — carrying traffic" else "off — needs the elevated daemon"

/-- A page in place of the network's. -/
inductive Placeholder where
  | connecting | empty | daemonDown
  | versionMismatch (daemon gui : UInt32)
  deriving DecidableEq

/-- The Administration flyout: cards, name row, the two switches, and whether the last row deletes
    the network. -/
structure AdminPanel where
  cards : List PendingJoin
  networkName : Option String
  /-- freeze membership, single-use tickets -/
  switches : Option (Bool × Bool)
  deletes : Bool

/-- **The flyout built from nothing.** -/
def renderAdmin (s : StatusView) (pending : List PendingJoin) : AdminPanel where
  cards := if s.selfRole ≠ "peer" then pending else []
  networkName := if s.selfRole ≠ "peer" then some s.name else none
  switches := if s.isOriginator then some (s.frozen, s.peerTicketSingleUse) else none
  deletes := s.isOriginator

/-- **Everything the flyout displays**, but not what changes at each tick. -/
def adminSignature (s : StatusView) (pending : List PendingJoin) : String :=
  pending.foldl (fun out p => out ++ p.nodeId ++ ",")
    (s.name ++ "|" ++ toString s.frozen ++ "|" ++ s.selfRole ++ "|" ++ toString s.isOriginator ++
      "|" ++ toString s.peerTicketSingleUse ++ "#")

/-- Self comes first, as long as it is a normal online device; the others as they come. -/
def displayOrder (members : List MemberStatus) : List MemberStatus :=
  let notPinned (m : MemberStatus) := !(m.isSelf && !m.accessDisabled && !m.hidden)
  members.insertionSort fun a b => notPinned a ≤ notPinned b

/-- Display order: node id to position. -/
def memberOrder (members : List MemberStatus) : Std.ExtTreeMap String Nat :=
  .ofList ((displayOrder members).zipIdx.map fun x => (x.1.nodeId, x.2))

/-- The key of the list's sort function; a row without one goes last. -/
def rankIn (order : Std.ExtTreeMap String Nat) (nodeId : String) : Nat :=
  (order[nodeId]?).getD 0xffffffff

/-- **The main page's persistent widgets.** -/
structure MainPage where
  pmVisible : Bool := true
  pmControllerVisible : Bool := true
  description : String := ""
  members : Keyed String MemberRowUi := {}
  order : Std.ExtTreeMap String Nat := ∅
  diag : DiagPanel := {}
  lastAdminSig : String := ""

/-- Forget all member rows and gates. -/
def MainPage.reset (p : MainPage) : MainPage :=
  { p with members := p.members.retain fun _ => false, order := ∅, lastAdminSig := "" }

/-- **The window.** -/
structure Window extends UiData where
  addBtn : Bool := false
  /-- what replaces the page in the main box -/
  placeholder : Option Placeholder := some .connecting
  serviceBanner : ServiceBanner := .hidden
  joinBanner : Option String := none
  page : MainPage := {}
  adminBox : Option AdminPanel := none

/-- The text under the heading of the list. -/
def membersDescription (members : List MemberStatus) : String :=
  toString ((members.countP fun m => !m.isSelf) + 1) ++ " device(s) total"

/-- The condition of the service, by the status. -/
def bannerOf (s : StatusView) : ServiceBanner :=
  if !s.online then .offline else if !s.routing then .routingOff else .hidden

/-- The Review banner: only approvers see it. -/
def joinBannerOf (s : StatusView) (pending : List PendingJoin) : Option String :=
  if s.selfRole ≠ "peer" ∧ 0 < pending.length then some (joinBannerText pending.length) else none

/-- **Apply a status to the persistent page**, in place. -/
def applyStatus (now : UInt64) (w : Window) (s : Snapshot) : Window :=
  let order := memberOrder s.members
  let sig := adminSignature s.toStatusView w.pending
  { w with
    placeholder := none
    serviceBanner := bannerOf s.toStatusView
    joinBanner := joinBannerOf s.toStatusView w.pending
    page := {
      pmVisible := s.selfRole ≠ "peer"
      pmControllerVisible := s.isOriginator
      members := w.page.members.reconcile (fun m : MemberStatus => m.nodeId)
        (newRow now w.deviceActions) (updateRow now w.deviceActions) (rankIn order) s.members
      order
      description := membersDescription s.members
      diag := updateDiag s.toStatusView
      lastAdminSig := sig }
    adminBox :=
      if w.page.lastAdminSig ≠ sig then some (renderAdmin s.toStatusView w.pending)
      else w.adminBox }

/-- A page without a network: what was of one is forgotten. -/
def renderPlaceholder (w : Window) (addBtn : Bool) (banner : ServiceBanner) (p : Placeholder) :
    Window :=
  { w with
    addBtn
    page := w.page.reset
    serviceBanner := banner
    joinBanner := none
    placeholder := some p }

/-- The switches as the user leaves them. -/
def AdminPanel.toggle (f : Bool × Bool → Bool × Bool) (a : AdminPanel) : AdminPanel :=
  { a with switches := a.switches.map f }

/-- Draw the page again, if there is a network. -/
def Window.redraw (now : UInt64) (w : Window) : Window :=
  match w.state with
  | some s => applyStatus now w s
  | none => w

/-- The data behind an event, with nothing drawn yet. -/
def Window.take (w : Window) (ev : UiEvent) : Window := { w with toUiData := w.toUiData.next ev }

/-- **The loop**: an event at the time it is handled. -/
def Window.step (w : Window) (x : UInt64 × UiEvent) : Window :=
  let w := w.take x.2
  match x.2 with
  | .status (some s) => applyStatus x.1 { w with addBtn := false } s
  | .status none => renderPlaceholder w true .hidden .empty
  | .daemonDown => renderPlaceholder w false .daemonDown .daemonDown
  | .versionMismatch daemon gui => renderPlaceholder w false .hidden (.versionMismatch daemon gui)
  | .refresh | .joinRequest _ => w.redraw x.1
  | .toggleFreeze on => { w with adminBox := w.adminBox.map (.toggle fun sw => (on, sw.2)) }
  | .toggleSingleUse on => { w with adminBox := w.adminBox.map (.toggle fun sw => (sw.1, on)) }
  | .answer _ | .setAction _ _ => w

/-! ## 4. Drawn from nothing -/

/-- The page of a network, as it is to be seen. -/
structure NetworkPage where
  pmVisible : Bool
  pmControllerVisible : Bool
  members : List (String × RowLook)
  description : String
  diag : DiagPanel
  deriving DecidableEq

/-- What the main box holds. -/
inductive Body where
  | placeholder (p : Placeholder)
  | network (p : NetworkPage)
  deriving DecidableEq

/-- What is to be seen of the window, the Administration flyout apart. -/
structure Screen where
  addBtn : Bool
  banner : Option (String × String)
  joinBanner : Option String
  body : Body
  deriving DecidableEq

/-- **The page drawn from nothing.** -/
def drawPage (now : UInt64) (cfg : Std.ExtTreeMap String ButtonAction) (s : StatusView) :
    NetworkPage where
  pmVisible := s.selfRole ≠ "peer"
  pmControllerVisible := s.isOriginator
  members := (displayOrder s.members).map fun m => (m.nodeId, rowLook now cfg m)
  description := membersDescription s.members
  diag := updateDiag s

/-- What is to be seen of the widgets. -/
def Window.screen (w : Window) : Screen where
  addBtn := w.addBtn
  banner := w.serviceBanner.text
  joinBanner := w.joinBanner
  body := match w.placeholder with
    | some p => .placeholder p
    | none => .network {
      pmVisible := w.page.pmVisible
      pmControllerVisible := w.page.pmControllerVisible
      members := w.page.members.looks MemberRowUi.look
      description := w.page.description
      diag := w.page.diag }

/-- **An interface without widgets**: each message draws a screen. -/
structure PlainUi extends UiData where
  screen : Screen :=
    { addBtn := false, banner := none, joinBanner := none, body := .placeholder .connecting }

/-- The screen of the network there is. -/
def PlainUi.draw (now : UInt64) (u : PlainUi) (addBtn : Bool) : PlainUi :=
  match u.state with
  | some s => { u with screen := {
      addBtn
      banner := (bannerOf s.toStatusView).text
      joinBanner := joinBannerOf s.toStatusView u.pending
      body := .network (drawPage now u.deviceActions s.toStatusView) } }
  | none => u

def PlainUi.away (u : PlainUi) (addBtn : Bool) (banner : ServiceBanner) (p : Placeholder) :
    PlainUi :=
  { u with screen := {
      addBtn, banner := banner.text, joinBanner := none, body := .placeholder p } }

def PlainUi.take (u : PlainUi) (ev : UiEvent) : PlainUi :=
  { u with toUiData := u.toUiData.next ev }

def PlainUi.step (u : PlainUi) (x : UInt64 × UiEvent) : PlainUi :=
  let u := u.take x.2
  match x.2 with
  | .status (some _) => u.draw x.1 false
  | .status none => u.away true .hidden .empty
  | .daemonDown => u.away false .daemonDown .daemonDown
  | .versionMismatch daemon gui => u.away false .hidden (.versionMismatch daemon gui)
  | .refresh | .joinRequest _ => u.draw x.1 u.screen.addBtn
  | .toggleFreeze _ | .toggleSingleUse _ | .answer _ | .setAction _ _ => u

/-! ## 5. The order of the list -/

theorem perm_displayOrder (members : List MemberStatus) : (displayOrder members).Perm members :=
  List.perm_insertionSort _ _

/-- The position of a member is the one it is displayed at. -/
theorem rankIn_memberOrder {members : List MemberStatus}
    (hnodup : (members.map fun m => m.nodeId).Nodup) {i : Nat}
    (hi : i < (displayOrder members).length) :
    rankIn (memberOrder members) ((displayOrder members)[i]).nodeId = i := by
  have hmem : (((displayOrder members)[i]).nodeId, i) ∈
      (displayOrder members).zipIdx.map fun x => (x.1.nodeId, x.2) :=
    List.mem_map.mpr ⟨((displayOrder members)[i], i), List.mem_zipIdx_iff_getElem?.mpr
      (List.getElem?_eq_getElem hi), rfl⟩
  have hfst : ((displayOrder members).zipIdx.map fun x => (x.1.nodeId, x.2)).map Prod.fst =
      (displayOrder members).map fun m => m.nodeId := by
    rw [List.map_map]
    conv_rhs => rw [← List.zipIdx_map_fst 0 (displayOrder members), List.map_map]
    rfl
  have hdistinct : ((displayOrder members).zipIdx.map fun x => (x.1.nodeId, x.2)).Pairwise
      fun a b => ¬ compare a.1 b.1 = .eq := by
    have hkeys : (((displayOrder members).zipIdx.map fun x => (x.1.nodeId, x.2)).map
        Prod.fst).Nodup := by
      rw [hfst]
      exact ((perm_displayOrder members).map _).nodup_iff.mpr hnodup
    exact (List.pairwise_map.mp hkeys).imp fun hne heq => hne (Std.LawfulEqOrd.eq_of_compare heq)
  rw [rankIn, memberOrder, Std.ExtTreeMap.getElem?_ofList_of_mem Std.ReflOrd.compare_self
    hdistinct hmem]
  rfl

/-- **The sort key rises along the order of display.** -/
theorem rank_displayOrder {members : List MemberStatus}
    (hnodup : (members.map fun m => m.nodeId).Nodup) :
    (displayOrder members).Pairwise fun a b =>
      rankIn (memberOrder members) a.nodeId < rankIn (memberOrder members) b.nodeId :=
  List.pairwise_iff_getElem.mpr fun i j hi hj hij => by
    rw [rankIn_memberOrder hnodup hi, rankIn_memberOrder hnodup hj]
    exact hij

/-! ## 6. The page is current -/

/-- The window shows what the plain interface does, and each of its rows once. -/
structure Agree (w : Window) (u : PlainUi) : Prop where
  data : w.toUiData = u.toUiData
  screen : w.screen = u.screen
  rows : w.page.members.Ok

theorem Agree.drawn {w : Window} {u : PlainUi} (hdata : w.toUiData = u.toUiData)
    (hrows : w.page.members.Ok) {now : UInt64} {s : Snapshot} (hs : w.state = some s) :
    Agree (applyStatus now w s) (u.draw now w.addBtn) := by
  have hstate : u.state = some s := by rw [← hs, hdata]
  have hpending : u.pending = w.pending := by rw [hdata]
  have hactions : u.deviceActions = w.deviceActions := by rw [hdata]
  refine ⟨?_, ?_, hrows.reconcile _⟩
  · show w.toUiData = (u.draw now w.addBtn).toUiData
    rw [PlainUi.draw, hstate, hdata]
  · have hlooks : (applyStatus now w s).page.members.looks MemberRowUi.look =
        (drawPage now w.deviceActions s.toStatusView).members :=
      Keyed.looks_reconcile hrows s.nodup (perm_displayOrder s.members)
        (rank_displayOrder s.nodup) (fun _ => rfl) (look_updateRow now w.deviceActions)
    rw [PlainUi.draw, hstate]
    dsimp only
    rw [hpending, hactions, Window.screen, hlooks]
    rfl

theorem Agree.away {w : Window} {u : PlainUi} (hdata : w.toUiData = u.toUiData)
    (hrows : w.page.members.Ok) (addBtn : Bool) (banner : ServiceBanner) (p : Placeholder) :
    Agree (renderPlaceholder w addBtn banner p) (u.away addBtn banner p) :=
  ⟨hdata, rfl, hrows.retain _⟩

theorem Agree.take {w : Window} {u : PlainUi} (h : Agree w u) (ev : UiEvent) :
    Agree (w.take ev) (u.take ev) :=
  ⟨by rw [Window.take, PlainUi.take, h.data], h.screen, h.rows⟩

theorem Agree.redrawn {w : Window} {u : PlainUi} (h : Agree w u) (now : UInt64) :
    Agree (w.redraw now) (u.draw now u.screen.addBtn) := by
  have hbtn : u.screen.addBtn = w.addBtn := by
    rw [← h.screen]
    rfl
  rw [hbtn]
  cases hs : w.state with
  | some s =>
    rw [Window.redraw, hs]
    exact Agree.drawn h.data h.rows hs
  | none =>
    have hs' : u.state = none := by rw [← hs, h.data]
    rw [Window.redraw, hs, PlainUi.draw, hs']
    exact h

/-- **One event.** -/
theorem Agree.step {w : Window} {u : PlainUi} (h : Agree w u) (x : UInt64 × UiEvent) :
    Agree (w.step x) (u.step x) := by
  obtain ⟨now, ev⟩ := x
  have htake := h.take ev
  cases ev with
  | status s =>
    cases s with
    | some s =>
      exact Agree.drawn (w := { w.take (.status (some s)) with addBtn := false }) htake.data
        h.rows rfl
    | none => exact Agree.away htake.data h.rows ..
  | daemonDown => exact Agree.away htake.data h.rows ..
  | versionMismatch daemon gui => exact Agree.away htake.data h.rows ..
  | refresh => exact htake.redrawn now
  | joinRequest r => exact htake.redrawn now
  | answer nodeId => exact htake
  | setAction nodeId action => exact htake
  | toggleFreeze on => exact ⟨htake.data, h.screen, h.rows⟩
  | toggleSingleUse on => exact ⟨htake.data, h.screen, h.rows⟩

theorem agree_run (events : List (UInt64 × UiEvent)) :
    Agree (run Window.step {} events) (run PlainUi.step {} events) := by
  induction events using List.reverseRecOn with
  | nil => exact ⟨rfl, rfl, List.nodup_nil, fun a => by simp⟩
  | append_singleton events x ih =>
    rw [run_append, run_append]
    exact ih.step x

/-- **The page is current**: whatever comes in, and in whatever order, widgets updated in place show
    what an interface shows that draws each screen from nothing. -/
theorem page_current (events : List (UInt64 × UiEvent)) :
    (run Window.step {} events).screen = (run PlainUi.step {} events).screen :=
  (agree_run events).screen

/-! ## 7. The signature of the flyout -/

section Delimiter

variable {α : Type} {c : α}

/-- Two texts with a last delimiter. -/
theorem append_last_inj {a a' b b' : List α} (hb : c ∉ b) (hb' : c ∉ b')
    (h : a ++ c :: b = a' ++ c :: b') : a = a' ∧ b = b' := by
  rcases List.append_eq_append_iff.mp h with ⟨d, rfl, hd⟩ | ⟨d, rfl, hd⟩
  · cases d with
    | nil => exact ⟨(List.append_nil a).symm, (List.cons.inj hd).2⟩
    | cons y d =>
      obtain ⟨-, rfl⟩ := List.cons.inj hd
      exact absurd (List.mem_append_right _ List.mem_cons_self) hb
  · cases d with
    | nil => exact ⟨List.append_nil a', (List.cons.inj hd).2.symm⟩
    | cons y d =>
      obtain ⟨-, rfl⟩ := List.cons.inj hd
      exact absurd (List.mem_append_right _ List.mem_cons_self) hb'

/-- Two texts of words, each behind which comes the delimiter. -/
theorem flatMap_terminated_inj {l l' : List (List α)} (hl : ∀ w ∈ l, c ∉ w) (hl' : ∀ w ∈ l', c ∉ w)
    (h : l.flatMap (fun w => w ++ [c]) = l'.flatMap fun w => w ++ [c]) : l = l' := by
  induction l generalizing l' with
  | nil =>
    cases l' with
    | nil => rfl
    | cons w' l' => simp at h
  | cons w l ih =>
    cases l' with
    | nil => simp at h
    | cons w' l' =>
      rw [List.flatMap_cons, List.flatMap_cons, List.append_assoc, List.append_assoc,
        List.singleton_append, List.singleton_append] at h
      have hw := hl w List.mem_cons_self
      have hw' := hl' w' List.mem_cons_self
      have hboth : w = w' ∧ l.flatMap (fun w => w ++ [c]) = l'.flatMap fun w => w ++ [c] := by
        rcases List.append_eq_append_iff.mp h with ⟨d, rfl, hd⟩ | ⟨d, rfl, hd⟩
        · cases d with
          | nil => exact ⟨(List.append_nil w).symm, (List.cons.inj hd).2⟩
          | cons y d =>
            obtain ⟨rfl, -⟩ := List.cons.inj hd
            exact absurd (List.mem_append_right _ List.mem_cons_self) hw'
        · cases d with
          | nil => exact ⟨List.append_nil w', (List.cons.inj hd).2.symm⟩
          | cons y d =>
            obtain ⟨rfl, -⟩ := List.cons.inj hd
            exact absurd (List.mem_append_right _ List.mem_cons_self) hw
      rw [hboth.1, ih (fun w hw => hl w (List.mem_cons_of_mem _ hw))
        (fun w hw => hl' w (List.mem_cons_of_mem _ hw)) hboth.2]

end Delimiter

/-- What decodes is made of hex digits. -/
theorem hexValue?_of_decode {s : List Char} {bytes : List UInt8}
    (h : decodeHexLower s = some bytes) : ∀ c ∈ s, (hexValue? c).isSome = true := by
  induction s using decodeHexLower.induct generalizing bytes with
  | case1 => exact fun c hc => by cases hc
  | case2 c => cases h
  | case3 high low rest ih =>
    simp only [decodeHexLower, bind, Option.bind_eq_some_iff] at h
    obtain ⟨a, ha, b, hb, tail, htail, -⟩ := h
    intro c hc
    rcases List.mem_cons.mp hc with rfl | hc
    · rw [ha]
      rfl
    · rcases List.mem_cons.mp hc with rfl | hc
      · rw [hb]
        rfl
      · exact ih htail c hc

/-- A node id has no delimiter in it. -/
theorem PendingJoin.not_mem (p : PendingJoin) {c : Char} (hc : hexValue? c = none) :
    c ∉ p.nodeId.toList := by
  obtain ⟨id, hid⟩ := p.hex
  intro hin
  rw [hid, hexOf, String.toList_ofList] at hin
  have hdigit := hexValue?_of_decode (decodeHexLower_encode id.toList) c hin
  rw [hc] at hdigit
  cases hdigit

/-- The part of the signature that is about the network. -/
def signatureHead (s : StatusView) : List Char :=
  (((s.name.toList ++ '|' :: (toString s.frozen).toList) ++ '|' :: s.selfRole.toList) ++
    '|' :: (toString s.isOriginator).toList) ++ '|' :: (toString s.peerTicketSingleUse).toList

/-- The node ids, each with a comma behind it. -/
def signatureTail (pending : List PendingJoin) : List Char :=
  (pending.map fun p => p.nodeId.toList).flatMap fun w => w ++ [',']

theorem toList_adminSignature (s : StatusView) (pending : List PendingJoin) :
    (adminSignature s pending).toList = signatureHead s ++ '#' :: signatureTail pending := by
  have hfold : ∀ out : String,
      (pending.foldl (fun out p => out ++ p.nodeId ++ ",") out).toList =
        out.toList ++ signatureTail pending := by
    induction pending with
    | nil => exact fun out => (List.append_nil _).symm
    | cons p pending ih =>
      intro out
      rw [List.foldl_cons, ih]
      simp [signatureTail]
  rw [adminSignature, hfold]
  simp [signatureHead]

theorem adminSignature_ne_empty (s : StatusView) (pending : List PendingJoin) :
    adminSignature s pending ≠ "" := fun h => by
  have hlist := toList_adminSignature s pending
  rw [h] at hlist
  simp at hlist

theorem not_mem_toString_bool {c : Char} (hc : c = '|' ∨ c = '#') (b : Bool) :
    c ∉ (toString b).toList := by
  rcases hc with rfl | rfl <;> cases b <;> decide

theorem toString_bool_inj {a b : Bool} (h : (toString a).toList = (toString b).toList) : a = b := by
  cases a <;> cases b <;> first | rfl | exact absurd h (by decide)

/-- The fields of the network can be read off the signature's head. -/
theorem signatureHead_inj {s s' : Snapshot}
    (h : signatureHead s.toStatusView = signatureHead s'.toStatusView) :
    s.name = s'.name ∧ s.frozen = s'.frozen ∧ s.selfRole = s'.selfRole ∧
      s.isOriginator = s'.isOriginator ∧ s.peerTicketSingleUse = s'.peerTicketSingleUse := by
  have hrole : ∀ t : Snapshot, '|' ∉ t.selfRole.toList := fun t => by
    have hall : ∀ role ∈ ["originator", "controller", "peer"], '|' ∉ role.toList := by decide
    exact hall _ t.role_mem
  have hbool := not_mem_toString_bool (.inl rfl)
  obtain ⟨h4, hsingle⟩ := append_last_inj (hbool _) (hbool _) h
  obtain ⟨h3, horig⟩ := append_last_inj (hbool _) (hbool _) h4
  obtain ⟨h2, hr⟩ := append_last_inj (hrole s) (hrole s') h3
  obtain ⟨h1, hfrozen⟩ := append_last_inj (hbool _) (hbool _) h2
  exact ⟨String.toList_injective h1, toString_bool_inj hfrozen, String.toList_injective hr,
    toString_bool_inj horig, toString_bool_inj hsingle⟩

theorem signatureTail_inj {pending pending' : List PendingJoin}
    (h : signatureTail pending = signatureTail pending') :
    (pending.map fun p => p.nodeId) = pending'.map fun p => p.nodeId := by
  have hno : ∀ l : List PendingJoin, ∀ w ∈ l.map fun p => p.nodeId.toList, ',' ∉ w :=
    fun l w hw => by
      obtain ⟨p, -, rfl⟩ := List.mem_map.mp hw
      exact p.not_mem (by decide)
  have hwords := flatMap_terminated_inj (hno pending) (hno pending') h
  have hmap : ∀ l : List PendingJoin, (l.map fun p => p.nodeId.toList) =
      (l.map fun p => p.nodeId).map String.toList := fun l => by
    rw [List.map_map]
    rfl
  rw [hmap, hmap] at hwords
  exact (List.map_injective_iff.mpr fun _ _ => String.toList_injective) hwords

/-- **The signature tells everything the flyout displays**, but the names and codes on the cards. -/
theorem adminSignature_inj {s s' : Snapshot} {pending pending' : List PendingJoin}
    (h : adminSignature s.toStatusView pending = adminSignature s'.toStatusView pending') :
    (s.name = s'.name ∧ s.frozen = s'.frozen ∧ s.selfRole = s'.selfRole ∧
      s.isOriginator = s'.isOriginator ∧ s.peerTicketSingleUse = s'.peerTicketSingleUse) ∧
    (pending.map fun p => p.nodeId) = pending'.map fun p => p.nodeId := by
  have hlist := congrArg String.toList h
  rw [toList_adminSignature, toList_adminSignature] at hlist
  have htail : ∀ l : List PendingJoin, '#' ∉ signatureTail l := fun l hin => by
    obtain ⟨w, hw, hin⟩ := List.mem_flatMap.mp hin
    obtain ⟨p, -, rfl⟩ := List.mem_map.mp hw
    rcases List.mem_append.mp hin with hin | hin
    · exact p.not_mem (by decide) hin
    · exact absurd (List.mem_singleton.mp hin) (by decide)
  obtain ⟨hhead, hids⟩ := append_last_inj (htail _) (htail _) hlist
  exact ⟨signatureHead_inj hhead, signatureTail_inj hids⟩

/-! ## 8. The flyout -/

/-- The event draws the page again, if there is a network. -/
def UiEvent.draws : UiEvent → Bool
  | .status (some _) | .refresh | .joinRequest _ => true
  | _ => false

/-- Two panels are alike but for their cards' names and codes, and for where the switches are. -/
structure AdminPanel.Like (a b : AdminPanel) : Prop where
  ids : (a.cards.map fun c => c.nodeId) = b.cards.map fun c => c.nodeId
  networkName : a.networkName = b.networkName
  switches : a.switches.isSome = b.switches.isSome
  deletes : a.deletes = b.deletes

theorem AdminPanel.Like.trans {a b c : AdminPanel} (h : a.Like b) (h' : b.Like c) : a.Like c :=
  ⟨h.ids.trans h'.ids, h.networkName.trans h'.networkName, h.switches.trans h'.switches,
    h.deletes.trans h'.deletes⟩

theorem AdminPanel.Like.toggle {a b : AdminPanel} (h : a.Like b) (f : Bool × Bool → Bool × Bool) :
    (a.toggle f).Like b :=
  ⟨h.ids, h.networkName, by rw [AdminPanel.toggle, Option.isSome_map, h.switches], h.deletes⟩

/-- What one signature stands for looks alike. -/
theorem like_of_signature {s s' : Snapshot} {pending pending' : List PendingJoin}
    (h : adminSignature s.toStatusView pending = adminSignature s'.toStatusView pending') :
    (renderAdmin s.toStatusView pending).Like (renderAdmin s'.toStatusView pending') := by
  obtain ⟨⟨hname, hfrozen, hrole, horig, hsingle⟩, hids⟩ := adminSignature_inj h
  refine ⟨?_, ?_, ?_, horig⟩
  · simp only [renderAdmin, hrole]
    split
    · exact hids
    · rfl
  · simp only [renderAdmin, hrole, hname]
  · simp only [renderAdmin, horig]
    split <;> rfl

/-- The flyout is built for the signature it was last built for, up to what a signature leaves
    open. -/
def Window.Gated (w : Window) : Prop :=
  w.page.lastAdminSig = "" ∨ ∃ (s : Snapshot) (pending : List PendingJoin) (panel : AdminPanel),
    w.page.lastAdminSig = adminSignature s.toStatusView pending ∧ w.adminBox = some panel ∧
      panel.Like (renderAdmin s.toStatusView pending)

/-- Behind a status the flyout is like the one built for it. -/
theorem Window.Gated.applied {w : Window} (h : w.Gated) (now : UInt64) (s : Snapshot) :
    ∃ panel, (applyStatus now w s).adminBox = some panel ∧
      panel.Like (renderAdmin s.toStatusView w.pending) := by
  by_cases hsig : w.page.lastAdminSig = adminSignature s.toStatusView w.pending
  · rcases h with hempty | ⟨s', pending', panel, hsig', hpanel, hlike⟩
    · exact absurd (hsig.symm.trans hempty) (adminSignature_ne_empty _ _)
    · refine ⟨panel, ?_, hlike.trans (like_of_signature (hsig'.symm.trans hsig))⟩
      exact (if_neg fun hne => hne hsig).trans hpanel
  · exact ⟨_, if_pos hsig, ⟨rfl, rfl, rfl, rfl⟩⟩

theorem Window.Gated.redrawn {w : Window} (h : w.Gated) (now : UInt64) : (w.redraw now).Gated := by
  unfold Window.redraw
  split
  · rename_i s hs
    obtain ⟨panel, hpanel, hlike⟩ := h.applied now s
    exact .inr ⟨s, w.pending, panel, rfl, hpanel, hlike⟩
  · exact h

theorem Window.Gated.toggled {w : Window} (h : w.Gated) (f : Bool × Bool → Bool × Bool) :
    Window.Gated { w with adminBox := w.adminBox.map (.toggle f) } := by
  rcases h with hempty | ⟨s, pending, panel, hsig, hpanel, hlike⟩
  · exact .inl hempty
  · exact .inr ⟨s, pending, panel.toggle f, hsig,
      congrArg (Option.map (AdminPanel.toggle f)) hpanel, hlike.toggle f⟩

/-- **One event.** -/
theorem Window.Gated.step {w : Window} (h : w.Gated) (x : UInt64 × UiEvent) : (w.step x).Gated := by
  obtain ⟨now, ev⟩ := x
  have htake : (w.take ev).Gated := h
  cases ev with
  | status s =>
    cases s with
    | some s =>
      obtain ⟨panel, hpanel, hlike⟩ := Window.Gated.applied
        (w := { w.take (.status (some s)) with addBtn := false }) h now s
      exact .inr ⟨s, _, panel, rfl, hpanel, hlike⟩
    | none => exact .inl rfl
  | daemonDown => exact .inl rfl
  | versionMismatch daemon gui => exact .inl rfl
  | refresh => exact htake.redrawn now
  | joinRequest r => exact htake.redrawn now
  | answer nodeId => exact h
  | setAction nodeId action => exact h
  | toggleFreeze on => exact htake.toggled _
  | toggleSingleUse on => exact htake.toggled _

/-- No switch is touched, and no device asks while the flyout still has the card of a request of it
    that was answered. -/
def Window.Prompt (w : Window) (x : UInt64 × UiEvent) : Prop :=
  match x.2 with
  | .joinRequest r => w.page.lastAdminSig ≠ "" → ∀ panel, w.adminBox = some panel →
      ∀ c ∈ panel.cards, c.nodeId = r.nodeId → ∃ p ∈ w.pending, p.nodeId = r.nodeId
  | .toggleFreeze _ | .toggleSingleUse _ => False
  | _ => True

/-- **The flyout is the one built for its signature**, and its cards are of the requests there are,
    or of devices that have none. -/
structure Window.Fresh (w : Window) : Prop where
  nodup : (w.pending.map fun p => p.nodeId).Nodup
  built : w.page.lastAdminSig = "" ∨ ∃ (s : Snapshot) (pending : List PendingJoin),
    w.page.lastAdminSig = adminSignature s.toStatusView pending ∧
      w.adminBox = some (renderAdmin s.toStatusView pending) ∧
      ∀ c ∈ (renderAdmin s.toStatusView pending).cards, ∀ p ∈ w.pending, p.nodeId = c.nodeId → p = c

/-- Lists of requests of the same devices, each as in the other, are one. -/
theorem eq_of_same_ids {l l' : List PendingJoin}
    (hids : (l.map fun p => p.nodeId) = l'.map fun p => p.nodeId)
    (hsame : ∀ c ∈ l, ∀ p ∈ l', p.nodeId = c.nodeId → p = c) : l = l' := by
  have hlen : l.length = l'.length := by simpa using congrArg List.length hids
  refine List.ext_getElem hlen fun i hi hi' => ?_
  have hget : (l[i]).nodeId = (l'[i]).nodeId := by
    have := List.getElem_of_eq hids (by rw [List.length_map]; exact hi)
    simpa using this
  exact (hsame _ (List.getElem_mem hi) _ (List.getElem_mem hi') hget.symm).symm

/-- Behind a status the flyout is the one built for it. -/
theorem Window.Fresh.applied {w : Window} (h : w.Fresh) (now : UInt64) (s : Snapshot) :
    (applyStatus now w s).adminBox = some (renderAdmin s.toStatusView w.pending) := by
  by_cases hsig : w.page.lastAdminSig = adminSignature s.toStatusView w.pending
  · rcases h.built with hempty | ⟨s', pending', hsig', hpanel, hcards⟩
    · exact absurd (hsig.symm.trans hempty) (adminSignature_ne_empty _ _)
    · obtain ⟨⟨hname, hfrozen, hrole, horig, hsingle⟩, hids⟩ :=
        adminSignature_inj (hsig'.symm.trans hsig)
      refine ((if_neg fun hne => hne hsig).trans hpanel).trans (congrArg some ?_)
      simp only [renderAdmin, hname, hfrozen, hrole, horig, hsingle] at hcards ⊢
      by_cases hpeer : s.selfRole ≠ "peer"
      · simp only [if_pos hpeer] at hcards ⊢
        rw [eq_of_same_ids hids hcards]
      · simp only [if_neg hpeer]
  · exact if_pos hsig

theorem Window.Fresh.of_applied {w : Window} (h : w.Fresh) (now : UInt64) (s : Snapshot) :
    (applyStatus now w s).Fresh := by
  refine ⟨h.nodup, .inr ⟨s, w.pending, rfl, h.applied now s, fun c hc p hp hid => ?_⟩⟩
  have hc' : c ∈ w.pending := by
    simp only [renderAdmin] at hc
    split at hc
    · exact hc
    · cases hc
  exact List.inj_on_of_nodup_map h.nodup hp hc' hid

/-- Fewer requests. -/
theorem Window.Fresh.of_sublist {w w' : Window} (h : w.Fresh)
    (hsig : w'.page.lastAdminSig = w.page.lastAdminSig) (hbox : w'.adminBox = w.adminBox)
    (hsub : w'.pending.Sublist w.pending) : w'.Fresh := by
  refine ⟨h.nodup.sublist (hsub.map _), ?_⟩
  rw [hsig, hbox]
  rcases h.built with hempty | ⟨s, pending, hsig', hpanel, hcards⟩
  · exact .inl hempty
  · exact .inr ⟨s, pending, hsig', hpanel, fun c hc p hp => hcards c hc p (hsub.subset hp)⟩

/-- A request more, of a device that has none and no card. -/
theorem Window.Fresh.requested {w : Window} (h : w.Fresh) {now : UInt64} {r : PendingJoin}
    (hprompt : w.Prompt (now, .joinRequest r)) : (w.take (.joinRequest r)).Fresh := by
  by_cases hany : (w.pending.any fun x => x.nodeId = r.nodeId) = true
  · refine h.of_sublist rfl rfl ?_
    show (UiData.next w.toUiData (.joinRequest r)).pending.Sublist _
    simp [UiData.next, hany]
  · have hnew : ∀ p ∈ w.pending, p.nodeId ≠ r.nodeId := fun p hp heq =>
      hany (List.any_eq_true.mpr ⟨p, hp, decide_eq_true heq⟩)
    have hpending : (w.take (.joinRequest r)).pending = w.pending ++ [r] := by
      show (UiData.next w.toUiData (.joinRequest r)).pending = _
      rw [UiData.next, if_neg hany]
    refine ⟨?_, ?_⟩
    · rw [hpending, List.map_append, List.nodup_append]
      refine ⟨h.nodup, List.nodup_singleton _, fun a ha b hb hab => ?_⟩
      obtain ⟨p, hp, rfl⟩ := List.mem_map.mp ha
      exact hnew p hp (hab.trans (List.mem_singleton.mp hb))
    · rw [hpending]
      by_cases hgate : w.page.lastAdminSig = ""
      · exact .inl hgate
      · rcases h.built with hempty | ⟨s, pending, hsig, hpanel, hcards⟩
        · exact absurd hempty hgate
        · refine .inr ⟨s, pending, hsig, hpanel, fun c hc p hp hid => ?_⟩
          rcases List.mem_append.mp hp with hp | hp
          · exact hcards c hc p hp hid
          · -- the card of an answered request would stand in the way
            obtain rfl := List.mem_singleton.mp hp
            obtain ⟨q, hq, hqid⟩ := hprompt hgate _ hpanel c hc hid.symm
            exact absurd hqid (hnew q hq)

theorem Window.Fresh.redrawn {w : Window} (h : w.Fresh) (now : UInt64) : (w.redraw now).Fresh := by
  unfold Window.redraw
  split
  · exact h.of_applied now _
  · exact h

theorem Window.Fresh.away {w : Window} (h : w.Fresh) (addBtn : Bool) (banner : ServiceBanner)
    (p : Placeholder) : (renderPlaceholder w addBtn banner p).Fresh := ⟨h.nodup, .inl rfl⟩

/-- **One prompt event.** -/
theorem Window.Fresh.step {w : Window} (h : w.Fresh) {x : UInt64 × UiEvent} (hprompt : w.Prompt x) :
    (w.step x).Fresh := by
  obtain ⟨now, ev⟩ := x
  cases ev with
  | status s =>
    cases s with
    | some s =>
      exact Window.Fresh.of_applied (w := { w.take (.status (some s)) with addBtn := false })
        (h.of_sublist rfl rfl List.filter_sublist) now s
    | none => exact Window.Fresh.away (w := w.take (.status none)) ⟨h.nodup, h.built⟩ ..
  | daemonDown => exact Window.Fresh.away (w := w.take .daemonDown) ⟨h.nodup, h.built⟩ ..
  | versionMismatch daemon gui =>
    exact Window.Fresh.away (w := w.take (.versionMismatch daemon gui)) ⟨h.nodup, h.built⟩ ..
  | refresh => exact Window.Fresh.redrawn (w := w.take .refresh) h now
  | joinRequest r => exact (h.requested hprompt).redrawn now
  | answer nodeId =>
    have htake : (w.take (.answer nodeId)).Fresh := h.of_sublist rfl rfl List.filter_sublist
    exact htake
  | setAction nodeId action =>
    cases action with
    | some a => exact ⟨h.nodup, h.built⟩
    | none => exact ⟨h.nodup, h.built⟩
  | toggleFreeze on => cases hprompt
  | toggleSingleUse on => cases hprompt

/-- An event that draws leaves what a status applied leaves. -/
theorem Window.step_of_draws (w : Window) {x : UInt64 × UiEvent} (hdraws : x.2.draws = true)
    {s : Snapshot} (hs : (w.step x).state = some s) :
    ∃ v : Window, w.step x = applyStatus x.1 v s ∧ (w.Gated → v.Gated) ∧
      (w.Fresh → w.Prompt x → v.Fresh) := by
  have hredraw : ∀ v : Window, (v.redraw x.1).state = some s → v.redraw x.1 = applyStatus x.1 v s :=
    fun v hv => by
      unfold Window.redraw at hv ⊢
      cases hstate : v.state with
      | none =>
        rw [hstate] at hv
        exact absurd (hstate.symm.trans hv) (by simp)
      | some s' =>
        rw [hstate] at hv
        obtain rfl : s' = s := Option.some.inj (hstate.symm.trans hv)
        rfl
  obtain ⟨now, ev⟩ := x
  cases ev with
  | status s' =>
    cases s' with
    | some s' =>
      obtain rfl : s' = s := Option.some.inj hs
      exact ⟨{ w.take (.status (some s')) with addBtn := false }, rfl, fun h => h, fun h _ =>
        h.of_sublist rfl rfl List.filter_sublist⟩
    | none => cases hdraws
  | refresh =>
    exact ⟨w.take .refresh, hredraw _ hs, fun h => h, fun h _ => ⟨h.nodup, h.built⟩⟩
  | joinRequest r =>
    exact ⟨w.take (.joinRequest r), hredraw _ hs, fun h => h, fun h hp => h.requested hp⟩
  | daemonDown | versionMismatch | answer | setAction | toggleFreeze | toggleSingleUse =>
    cases hdraws

/-- **The flyout is current.** Whenever the page of a network is drawn, the flyout has the cards of
    the requests there are, the name, and the rows of the role, as if it was built anew. It is the
    same in all of it, the names and codes on the cards and the switches too, if no switch was
    touched and no device asked again before the card of its answered request was gone. -/
theorem admin_current (events : List (UInt64 × UiEvent)) {x : UInt64 × UiEvent}
    (hdraws : x.2.draws = true) {s : Snapshot}
    (hs : (run Window.step {} (events ++ [x])).state = some s) :
    ∃ panel, (run Window.step {} (events ++ [x])).adminBox = some panel ∧
      panel.Like (renderAdmin s.toStatusView (run Window.step {} (events ++ [x])).pending) ∧
      (EachStep Window.step Window.Prompt {} (events ++ [x]) →
        panel = renderAdmin s.toStatusView (run Window.step {} (events ++ [x])).pending) := by
  have hgated : (run Window.step {} events).Gated :=
    run_invariant (fun _ y _ h => h.step y) (.inl rfl)
  rw [run_append, run_cons, run_nil] at hs ⊢
  obtain ⟨v, hv, hvgated, hvfresh⟩ := Window.step_of_draws _ hdraws hs
  obtain ⟨panel, hpanel, hlike⟩ := (hvgated hgated).applied x.1 s
  rw [hv]
  refine ⟨panel, hpanel, hlike, fun hprompt => ?_⟩
  obtain ⟨hbefore, hx, -⟩ := eachStep_append.mp hprompt
  have hfresh : (run Window.step {} events).Fresh :=
    run_invariant_of_eachStep (fun _ _ h hp => h.step hp) ⟨List.nodup_nil, .inl rfl⟩ hbefore
  exact Option.some.inj (hpanel.symm.trans ((hvfresh hfresh hx).applied x.1 s))

/-- A network without members, as its originator sees it. -/
def Sample.calm : Snapshot where
  name := "sample"
  subnet := "10.99.0.0"
  frozen := false
  selfNodeId := hexOf (Sample.key 2)
  selfIp := none
  isOriginator := true
  selfRole := "originator"
  peerTicketSingleUse := false
  routing := true
  online := true
  homeRelay := none
  members := []
  nodup := List.nodup_nil
  role_mem := List.mem_cons_self

/-- A device that asks, with its code. -/
def Sample.asks (code : String) : PendingJoin where
  nodeId := hexOf (Sample.key 5)
  hostname := "laptop"
  sas := [code]
  hex := ⟨_, rfl⟩

/-- A request comes in after a status. -/
theorem admin_current_sample :
    (run Window.step {} [(0, .status (some Sample.calm)),
      (1, .joinRequest (Sample.asks "fox"))]).adminBox =
        some (renderAdmin Sample.calm.toStatusView [Sample.asks "fox"]) := by
  have hbox : (Window.step {} (0, .status (some Sample.calm))).adminBox =
      some (renderAdmin Sample.calm.toStatusView []) :=
    Window.Fresh.applied (w := Window.take {} (.status (some Sample.calm)))
      ⟨List.nodup_nil, .inl rfl⟩ 0 Sample.calm
  obtain ⟨panel, hpanel, -, hfresh⟩ := admin_current [(0, .status (some Sample.calm))]
    (x := (1, .joinRequest (Sample.asks "fox"))) rfl (s := Sample.calm) rfl
  refine hpanel.trans (congrArg some (hfresh ⟨trivial, fun _ panel hp c hc => ?_, trivial⟩))
  rw [← Option.some.inj (hbox.symm.trans hp)] at hc
  cases hc

/-- A device that is denied and asks again at once: its card has the old code. -/
example : ((run Window.step {} [(0, .status (some Sample.calm)),
    (1, .joinRequest (Sample.asks "fox")), (2, .answer (hexOf (Sample.key 5))),
    (3, .joinRequest (Sample.asks "owl")), (4, .refresh)]).adminBox.map fun panel =>
      panel.cards.map PendingJoin.sas) = some [["fox"]] := by decide +kernel

/-! ## 9. What is not pushed -/

/-- A dot that is red for its age is read as one that is not. -/
def RowLook.undated (r : RowLook) : RowLook :=
  if r.dot = ("error", "Offline (over a week)") then { r with dot := ("dim-label", "Offline") }
  else r

def NetworkPage.undated (p : NetworkPage) : NetworkPage :=
  { p with members := p.members.map fun x => (x.1, x.2.undated) }

def Screen.undated (s : Screen) : Screen :=
  { s with body := match s.body with
    | .placeholder p => .placeholder p
    | .network p => .network p.undated }

/-- Up to its age, a row shows what is told of the member. -/
theorem undated_rowLook (now : UInt64) (cfg : Std.ExtTreeMap String ButtonAction)
    (m : MemberStatus) : (rowLook now cfg m).undated = rowLook now cfg m.told := by
  have hdot : dotStyle now m.told = if dotStyle now m = ("error", "Offline (over a week)") then
      ("dim-label", "Offline") else dotStyle now m := by
    unfold dotStyle MemberStatus.told
    dsimp only
    cases m.hidden with
    | true => simp
    | false =>
      cases m.accessDisabled with
      | true => simp
      | false =>
        cases m.online with
        | true => simp
        | false => split <;> simp_all
  show (if dotStyle now m = _ then _ else rowLook now cfg m) =
    { rowLook now cfg m with dot := dotStyle now m.told }
  rw [hdot]
  split <;> rfl

/-- **Up to the age of red dots, the page shows what is told of the network.** -/
theorem undated_drawPage (now : UInt64) (cfg : Std.ExtTreeMap String ButtonAction)
    (s : StatusView) : (drawPage now cfg s).undated = drawPage now cfg s.told := by
  have horder : displayOrder (s.members.map MemberStatus.told) =
      (displayOrder s.members).map MemberStatus.told := by
    unfold displayOrder
    exact (List.map_insertionSort _ _ MemberStatus.told _ fun _ _ _ _ => Iff.rfl).symm
  have hmembers : ((drawPage now cfg s).undated).members = (drawPage now cfg s.told).members := by
    show ((displayOrder s.members).map _).map _ = (displayOrder (s.members.map _)).map _
    rw [horder, List.map_map, List.map_map]
    exact List.map_congr_left fun m _ => Prod.ext rfl (undated_rowLook now cfg m)
  have hdescription : membersDescription (s.members.map MemberStatus.told) =
      membersDescription s.members := by
    rw [membersDescription, List.countP_map]
    rfl
  have hdiag : updateDiag s.told = updateDiag s := by
    simp only [updateDiag, StatusView.told, List.countP_map, DiagPanel.mk.injEq, true_and]
    exact ⟨rfl, rfl⟩
  show NetworkPage.mk _ _ ((drawPage now cfg s).undated).members _ _ = NetworkPage.mk _ _ _ _ _
  rw [hmembers]
  exact congrArg₂ (fun description diag => NetworkPage.mk _ _ _ description diag)
    hdescription.symm hdiag.symm

/-- What a status leaves the plain interface with. -/
theorem PlainUi.step_status (u : PlainUi) (now : UInt64) (s : Snapshot) :
    u.step (now, .status (some s)) = {
      toUiData := u.toUiData.next (.status (some s))
      screen := {
        addBtn := false
        banner := (bannerOf s.toStatusView).text
        joinBanner := joinBannerOf s.toStatusView (u.toUiData.next (.status (some s))).pending
        body := .network (drawPage now u.deviceActions s.toStatusView) } } := rfl

/-- A status that tells the same takes away no further request. -/
theorem pending_next_next (d : UiData) {s s' : Snapshot}
    (h : s'.toStatusView.told = s.toStatusView.told) :
    ((d.next (.status (some s))).next (.status (some s'))).pending =
      (d.next (.status (some s))).pending := by
  have hany : ∀ (t : StatusView) (p : PendingJoin), (t.members.any fun m => m.nodeId = p.nodeId) =
      t.told.members.any fun m => m.nodeId = p.nodeId := fun t p => by
    rw [StatusView.told, List.any_map]
    rfl
  simp only [UiData.next, List.filter_filter]
  refine List.filter_congr fun p _ => ?_
  rw [hany s'.toStatusView p, h, ← hany s.toStatusView p, Bool.and_self]

/-- **A status that is not pushed would change nothing.** Behind calls of the tracker that report no
    change, the page shows what it would show with the status there is now; but for the dots of
    peers last seen over a week ago. -/
theorem quiet_page_same {v : Viewer} {calls : List PresenceCall}
    (hquiet : EachStep Viewer.hear (fun w c => (w.presence.call c).2 = false) v calls)
    {s s' : StatusView} (hs : v.status = .ok s) (hs' : (run Viewer.hear v calls).status = .ok s')
    (events : List (UInt64 × UiEvent)) (now : UInt64) :
    (run Window.step {} (events ++ [(now, .status (some (.ofStatus hs))),
        (now, .status (some (.ofStatus hs')))])).screen.undated =
      (run Window.step {} (events ++ [(now, .status (some (.ofStatus hs)))])).screen.undated := by
  have htold : s'.told = s.told := by
    have hsame := Viewer.quiet_status_same v calls hquiet
    rw [hs, hs'] at hsame
    exact Except.ok.inj hsame
  rw [(agree_run _).screen, (agree_run _).screen, run_append, run_append, run_cons, run_cons,
    run_cons, run_nil, run_nil, PlainUi.step_status, PlainUi.step_status]
  have hpending := @pending_next_next (run PlainUi.step {} events).toUiData (.ofStatus hs)
    (.ofStatus hs') htold
  simp only [Screen.undated, hpending, undated_drawPage]
  -- the banners read what is told, too
  show Screen.mk false (bannerOf s'.told).text (joinBannerOf s'.told _) (.network (drawPage _ _
    s'.told)) = Screen.mk false (bannerOf s.told).text (joinBannerOf s.told _) _
  rw [htold]
  rfl

/-- A routine heartbeat is not pushed. -/
theorem quiet_page_same_sample :
    ∃ s s', ∃ (hs : Sample.viewer.status = .ok s)
      (hs' : (run Viewer.hear Sample.viewer
        [.heartbeat (Sample.key 3) { Sample.firstHeard with ts := 4000 }]).status = .ok s'),
      (run Window.step {} [(5000, .status (some (.ofStatus hs))),
        (5000, .status (some (.ofStatus hs')))]).screen.undated =
      (run Window.step {} [(5000, .status (some (.ofStatus hs)))]).screen.undated :=
  ⟨_, _, rfl, rfl, quiet_page_same (by decide) rfl rfl [] 5000⟩

end Nullgate.Gui
