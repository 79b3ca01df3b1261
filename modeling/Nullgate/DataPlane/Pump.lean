/-
  File:      Nullgate/DataPlane/Pump.lean
  Subject:   THE TWO PUMPS OF A DEVICE (`engine.rs`): TUN to mesh, and mesh to TUN.

  A device reads packets from its TUN and sends them to the member who owns the destination;
  a datagram that arrives on a connection is written to the TUN. Both pass the flow table.

  * `DataPlane` -- what the pumps read: flags, coarse clock, flow table, routes, connections;
  * `pumpOutbound`, `pumpInbound` -- the loop bodies of `spawn_tun_pump` and `register_mesh`;
  * `DataEvent`, `DataPlane.step` -- packets, ticks, toggles and table updates, in any order;
  * `flows_step`, `opened_of_tracked`, `stamped_of_tracked`: an entry of the flow table comes
    from this device's own packets.
-/
import Nullgate.DataPlane.Conntrack
import Nullgate.Lib.Fold

namespace Nullgate

open Nullgate.Lib

/-! ## 1. The state -/

def TUN_MTU : UInt16 := 1280

/-- MSS that keeps a TCP segment within the tunnel MTU. -/
def TUN_MSS : UInt16 := TUN_MTU - 40

def DEMAND_DIAL_KICK_MS : UInt64 := 5000

/-- **What the data plane of a device reads.** -/
structure DataPlane where
  remoteAccessDisabled : Bool := false
  hidden : Bool := false
  /-- the engine's coarse clock, ms -/
  coarseNow : UInt64 := 0
  conntrack : Conntrack := {}
  /-- whether the TUN is up -/
  tun : Bool := false
  selfUnderlayPorts : List UInt16 := []
  routes : RouteTable := {}
  roster : Roster := .default
  /-- the peers `conns` holds a connection to -/
  connected : Id → Bool := fun _ => false
  lastDemandKick : UInt64 := 0

/-- What becomes of a packet read from the TUN. -/
inductive Outbound where
  | notIpv4
  | ownUnderlay
  | unrouted
  | sent (peer : Id) (pkt : List UInt8)
  /-- there is no connection; `kick`: the tick is woken to dial -/
  | lost (peer : Id) (kick : Bool)
  deriving DecidableEq

namespace DataPlane

/-! ## 2. The pumps -/

/-- Send a recorded packet to the member who owns its destination. -/
def forward (d : DataPlane) (dst : Ipv4Addr) (pkt : List UInt8) : DataPlane × Outbound :=
  match d.routes.lookup dst with
  | none => (d, .unrouted)
  | some peer =>
    if d.connected peer then (d, .sent peer pkt)
    else if DEMAND_DIAL_KICK_MS ≤ saturatingSub d.coarseNow d.lastDemandKick then
      ({ d with lastDemandKick := d.coarseNow }, .lost peer true)
    else (d, .lost peer false)

/-- **TUN to mesh**: record the flow, clamp, route. -/
def pumpOutbound (d : DataPlane) (pkt : List UInt8) : DataPlane × Outbound :=
  match dstIpv4 pkt with
  | none => (d, .notIpv4)
  | some dst =>
    if isOwnUnderlay pkt d.selfUnderlayPorts then (d, .ownUnderlay)
    else
      -- recorded before the MSS rewrite, and whether or not the packet can be sent
      { d with conntrack := d.conntrack.recordOutbound pkt d.coarseNow }.forward dst
        (clampTcpMss pkt TUN_MSS).1

/-- The one-way block is on. -/
def block (d : DataPlane) : Bool := d.remoteAccessDisabled || d.hidden

/-- **Mesh to TUN**: what is written for a datagram, whichever connection it came from. -/
def pumpInbound (d : DataPlane) (pkt : List UInt8) : Option (List UInt8) :=
  if d.tun then
    if d.block && !d.conntrack.allowsInbound pkt d.coarseNow then none
    else some (clampTcpMss pkt TUN_MSS).1
  else none

/-- The datagram is written to the TUN although the block is on. -/
def AdmitsBlocked (d : DataPlane) (pkt : List UInt8) : Prop :=
  d.block = true ∧ (d.pumpInbound pkt).isSome = true

instance decidableAdmitsBlocked (d : DataPlane) (pkt : List UInt8) :
    Decidable (d.AdmitsBlocked pkt) := inferInstanceAs (Decidable (_ ∧ _))

theorem admitsBlocked_iff {d : DataPlane} {pkt : List UInt8} :
    d.AdmitsBlocked pkt ↔
      d.block = true ∧ d.tun = true ∧ d.conntrack.allowsInbound pkt d.coarseNow = true := by
  unfold AdmitsBlocked pumpInbound
  cases d.block <;> cases d.tun <;> cases d.conntrack.allowsInbound pkt d.coarseNow <;> simp

end DataPlane

/-! ## 3. Runs -/

/-- What happens to the data plane of a device. -/
inductive DataEvent where
  | outbound (pkt : List UInt8)
  | inbound (peer : Id) (pkt : List UInt8)
  /-- a tick begins: coarse clock, sweep of the flow table, bound ports -/
  | tick (now : UInt64) (ports : List UInt16)
  | setRemoteAccessDisabled (disabled : Bool)
  | setHidden (hidden : Bool)
  /-- a tick rebuilds the forwarding table from a roster -/
  | routes (roster : Roster)
  /-- a tick caches a roster -/
  | roster (roster : Roster)
  | tunUp
  | connected (peer : Id) (live : Bool)
  | softDisconnect

namespace DataPlane

def step (d : DataPlane) : DataEvent → DataPlane
  | .outbound pkt => (d.pumpOutbound pkt).1
  | .inbound _ _ => d
  | .tick now ports =>
    { d with coarseNow := now, conntrack := d.conntrack.sweep now, selfUnderlayPorts := ports }
  | .setRemoteAccessDisabled disabled => { d with remoteAccessDisabled := disabled }
  | .setHidden hidden => { d with hidden }
  | .routes roster => { d with routes := .fromRoster roster }
  | .roster roster => { d with roster }
  | .tunUp => { d with tun := true }
  | .connected peer live => { d with connected := Function.update d.connected peer live }
  | .softDisconnect =>
    { d with
      tun := false
      conntrack := d.conntrack.clear
      routes := {}
      roster := .default
      connected := fun _ => false }

@[simp] theorem conntrack_forward (d : DataPlane) (dst : Ipv4Addr) (pkt : List UInt8) :
    (d.forward dst pkt).1.conntrack = d.conntrack := by
  unfold forward
  split
  · rfl
  split
  · rfl
  split <;> rfl

/-- The table behind an outbound packet is the one before it, or has recorded the packet. -/
theorem conntrack_pumpOutbound (d : DataPlane) (pkt : List UInt8) :
    (d.pumpOutbound pkt).1.conntrack = d.conntrack ∨
      (d.pumpOutbound pkt).1.conntrack = d.conntrack.recordOutbound pkt d.coarseNow := by
  unfold pumpOutbound
  split
  · exact Or.inl rfl
  split
  · exact Or.inl rfl
  · exact Or.inr (conntrack_forward _ _ _)

/-- **All that an outbound packet changes** at the device. -/
theorem pumpOutbound_frame (d : DataPlane) (pkt : List UInt8) :
    ∃ ct kick, (d.pumpOutbound pkt).1 = { d with conntrack := ct, lastDemandKick := kick } := by
  unfold pumpOutbound
  split
  · exact ⟨_, _, rfl⟩
  split
  · exact ⟨_, _, rfl⟩
  unfold forward
  split
  · exact ⟨_, _, rfl⟩
  split
  · exact ⟨_, _, rfl⟩
  split
  · exact ⟨_, _, rfl⟩
  · exact ⟨_, _, rfl⟩

variable {d s : DataPlane} {l : List DataEvent} {k : FlowKey} {t : UInt64}

/-- **A packet that opens a flow is recorded**, unless it is the endpoint's own. -/
theorem flows_outbound_of_opens {pkt : List UInt8} (hopen : Opens pkt k)
    (hown : isOwnUnderlay pkt d.selfUnderlayPorts = false) :
    (d.step (.outbound pkt)).conntrack.flows k = some d.coarseNow := by
  have hv4 : isIpv4 pkt = true := by
    have hkey := hopen.1
    unfold flowKey at hkey
    cases hv : isIpv4 pkt with
    | true => rfl
    | false => simp [hv] at hkey
  have hct : (d.step (.outbound pkt)).conntrack = d.conntrack.recordOutbound pkt d.coarseNow := by
    rw [step, pumpOutbound]
    simp only [dstIpv4, hv4, if_true, hown, Bool.false_eq_true, if_false]
    exact conntrack_forward _ _ _
  rw [hct, Conntrack.flows_recordOutbound, if_pos ⟨hopen.1, Or.inl hopen⟩]

/-- **An entry of the table was there before the step, or the step is an outbound packet of
    the flow**, which opened it or met it in the table. -/
theorem flows_step (ev : DataEvent) (h : (d.step ev).conntrack.flows k = some t) :
    d.conntrack.flows k = some t ∨
      ∃ pkt, ev = .outbound pkt ∧ flowKey pkt = some k ∧ t = d.coarseNow ∧
        (Opens pkt k ∨ (d.conntrack.flows k).isSome = true) := by
  cases ev with
  | outbound pkt =>
    rcases d.conntrack_pumpOutbound pkt with hct | hct
    · rw [step, hct] at h
      exact Or.inl h
    · rw [step, hct, Conntrack.flows_recordOutbound] at h
      split at h
      · rename_i hrec
        exact Or.inr ⟨pkt, rfl, hrec.1, (Option.some.inj h).symm, hrec.2⟩
      · exact Or.inl h
  | tick now ports =>
    rw [step, Conntrack.flows_sweep] at h
    exact Or.inl (Option.filter_eq_some_iff.mp h).1
  | softDisconnect => simp [step] at h
  | _ => exact Or.inl h

/-- **A flow in the table was opened by this device**: a packet of it was sent that opens it. -/
theorem opened_of_tracked (h0 : s.conntrack.flows k = none)
    (h : ((run step s l).conntrack.flows k).isSome = true) :
    ∃ pre pkt post, l = pre ++ .outbound pkt :: post ∧ Opens pkt k := by
  have hstep : ∀ d ev, ((step d ev).conntrack.flows k).isSome = true →
      (d.conntrack.flows k).isSome = true ∨ ∃ pkt, ev = .outbound pkt ∧ Opens pkt k := by
    intro d ev hd
    obtain ⟨t, ht⟩ := Option.isSome_iff_exists.mp hd
    rcases flows_step ev ht with hold | ⟨pkt, hev, -, -, hopen | htracked⟩
    · exact Or.inl (by rw [hold]; rfl)
    · exact Or.inr ⟨pkt, hev, hopen⟩
    · exact Or.inl htracked
  rcases run_brought (B := fun d : DataPlane => (d.conntrack.flows k).isSome = true) hstep h with
    hs | ⟨pre, ev, post, hl, pkt, rfl, hopen⟩
  · rw [h0] at hs
    cases hs
  · exact ⟨pre, pkt, post, hl, hopen⟩

/-- **The time in the table is the coarse time at which a packet of the flow was sent.** -/
theorem stamped_of_tracked (h0 : s.conntrack.flows k = none)
    (h : (run step s l).conntrack.flows k = some t) :
    ∃ pre pkt post, l = pre ++ .outbound pkt :: post ∧ flowKey pkt = some k ∧
      t = (run step s pre).coarseNow := by
  have hstep : ∀ d ev, (step d ev).conntrack.flows k = some t → d.conntrack.flows k = some t ∨
      ∃ pkt, ev = .outbound pkt ∧ flowKey pkt = some k ∧ t = d.coarseNow := by
    intro d ev hd
    rcases flows_step ev hd with hold | ⟨pkt, hev, hkey, ht, -⟩
    · exact Or.inl hold
    · exact Or.inr ⟨pkt, hev, hkey, ht⟩
  have hbrought := run_brought (B := fun d : DataPlane => d.conntrack.flows k = some t)
    (A := fun d ev => ∃ pkt, ev = DataEvent.outbound pkt ∧ flowKey pkt = some k ∧
      t = d.coarseNow) hstep h
  rcases hbrought with hs | ⟨pre, ev, post, hl, pkt, rfl, hkey, ht⟩
  · rw [h0] at hs
    cases hs
  · exact ⟨pre, pkt, post, hl, hkey, ht⟩

end DataPlane

end Nullgate
