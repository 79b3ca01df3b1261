/-
  File:      Nullgate/DataPlane/Conntrack.lean
  Subject:   THE FLOW TABLE (`conntrack.rs`) behind the one-way block.

  The table holds a coarse last-seen time for each flow this device has opened. Outbound
  packets write it, inbound ones are looked up in it by the reversed key.

  * `recordOutbound`, `allowsInbound`, `sweep`, `clear` -- the operations of `Conntrack`;
  * `flows_recordOutbound`: what one outbound packet makes of the entry of a key;
  * `allowsInbound_iff`: an inbound packet is admitted exactly when the flow of its return
    traffic is tracked and alive.
-/
import Nullgate.DataPlane.Router

namespace Nullgate

/-! ## 1. The table -/

/-- Idle lifetime of a tracked flow. -/
def FLOW_TTL_MS : UInt64 := 120000

/-- The flows this device initiated, with the time each was last seen. -/
structure Conntrack where
  flows : FlowKey → Option UInt64 := fun _ => none

/-- A flow last seen at `seen` is not idle past the TTL at `now`. -/
def alive (now seen : UInt64) : Bool := saturatingSub now seen ≤ FLOW_TTL_MS

/-- A stamp is alive for 120 s. -/
theorem alive_iff {now seen : UInt64} :
    alive now seen = true ↔ now.toNat ≤ seen.toNat + 120000 := by
  have httl : FLOW_TTL_MS.toNat = 120000 := rfl
  unfold alive saturatingSub
  rw [decide_eq_true_eq, UInt64.le_iff_toNat_le, httl]
  split
  · rename_i h
    have hlt := UInt64.lt_iff_toNat_lt.mp h
    show 0 ≤ 120000 ↔ _
    omega
  · rename_i h
    have hle : seen ≤ now := UInt64.not_lt.mp h
    have hlen := UInt64.le_iff_toNat_le.mp hle
    rw [UInt64.toNat_sub_of_le _ _ hle]
    omega

namespace Conntrack

def insert (ct : Conntrack) (k : FlowKey) (now : UInt64) : Conntrack :=
  ⟨Function.update ct.flows k (some now)⟩

/-- **Record/refresh a flow we initiated**: TCP creates on a client SYN and otherwise only
    refreshes. Other protocols have no handshake to read direction from: every outbound packet
    creates. -/
def recordOutbound (ct : Conntrack) (pkt : List UInt8) (now : UInt64) : Conntrack :=
  match flowKey pkt with
  | none => ct
  | some k =>
    if k.proto = 6 then
      if isTcpInitiation pkt then ct.insert k now
      else if (ct.flows k).isSome then ct.insert k now
      else ct
    else ct.insert k now

/-- Whether an inbound packet is return traffic for a flow we initiated. -/
def allowsInbound (ct : Conntrack) (pkt : List UInt8) (now : UInt64) : Bool :=
  match flowKey pkt with
  | none => false
  | some k =>
    match ct.flows k.reversed with
    | some seen => alive now seen
    | none => false

/-- Drop the flows idle past the TTL. -/
def sweep (ct : Conntrack) (now : UInt64) : Conntrack :=
  ⟨fun k => (ct.flows k).filter (alive now)⟩

/-- Forget all tracked flows. -/
def clear (_ : Conntrack) : Conntrack := {}

end Conntrack

/-- The outbound packet opens the flow `k`: it is a packet of that flow, and for TCP a client
    SYN. -/
def Opens (pkt : List UInt8) (k : FlowKey) : Prop :=
  flowKey pkt = some k ∧ (k.proto = 6 → isTcpInitiation pkt = true)

instance decidableOpens (pkt : List UInt8) (k : FlowKey) : Decidable (Opens pkt k) :=
  inferInstanceAs (Decidable (_ ∧ _))

/-! ## 2. One operation -/

namespace Conntrack

variable (ct : Conntrack) {pkt : List UInt8} {k : FlowKey}

@[simp] theorem flows_insert_self (now : UInt64) : (ct.insert k now).flows k = some now :=
  Function.update_self ..

theorem flows_insert_of_ne {k' : FlowKey} (h : k' ≠ k) (now : UInt64) :
    (ct.insert k now).flows k' = ct.flows k' :=
  Function.update_of_ne h ..

/-- **What an outbound packet makes of the entry of a flow**: a packet of the flow that opens
    it, or meets it in the table, stamps it, and everything else leaves it alone. -/
theorem flows_recordOutbound (pkt : List UInt8) (now : UInt64) (k : FlowKey) :
    (ct.recordOutbound pkt now).flows k =
      if flowKey pkt = some k ∧ (Opens pkt k ∨ (ct.flows k).isSome) then some now
      else ct.flows k := by
  cases hk : flowKey pkt with
  | none => simp [recordOutbound, hk]
  | some k' =>
    by_cases hkk : k' = k
    · subst hkk
      by_cases hp : k'.proto = 6
      · cases hi : isTcpInitiation pkt <;> cases hf : ct.flows k' <;>
          simp [recordOutbound, hk, hp, hi, hf, Opens]
      · simp [recordOutbound, hk, hp, Opens]
    · have hne : k ≠ k' := fun h => hkk h.symm
      have hsome : (some k' : Option FlowKey) ≠ some k := fun h => hkk (Option.some.inj h)
      rw [if_neg fun h => hsome h.1]
      simp only [recordOutbound, hk]
      split
      · split
        · exact ct.flows_insert_of_ne hne now
        · split
          · exact ct.flows_insert_of_ne hne now
          · rfl
      · exact ct.flows_insert_of_ne hne now

theorem flows_sweep (now : UInt64) (k : FlowKey) :
    (ct.sweep now).flows k = (ct.flows k).filter (alive now) := rfl

@[simp] theorem flows_clear (k : FlowKey) : ct.clear.flows k = none := rfl

/-- **An inbound packet is admitted** exactly when the flow of its return traffic is tracked
    and alive. -/
theorem allowsInbound_iff {now : UInt64} :
    ct.allowsInbound pkt now = true ↔
      ∃ k seen, flowKey pkt = some k ∧ ct.flows k.reversed = some seen ∧ alive now seen = true := by
  unfold allowsInbound
  cases hk : flowKey pkt with
  | none => simp
  | some k => cases hf : ct.flows k.reversed <;> simp [hf]

end Conntrack

end Nullgate
