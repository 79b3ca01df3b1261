/-
  File:      Nullgate/Engine/Authority.lean
  Subject:   WHAT THE MASTER KEY IS WORTH ON A DEVICE: local gates against the fold's rules.

  A device that holds the originator's key passes the local gate of every administrative
  operation. Five of the seven then sign with that key and take effect whatever the device's
  own role. `admit_member` and `set_network_name` sign with the DEVICE key, so the fold
  judges them by the device's own tier.

  * `originator_powers_iff`: on a device with the master key, an operation published behind
    everything else takes effect exactly when it is within the reader's ceiling and, if it
    is one of those two, the device itself is a Controller (or the originator).
  * `originator_powers_not_full`: a Peer that has imported the key renames the network, and
    nothing happens.
-/
import Nullgate.Engine.Publish
import Nullgate.Roster.Behind

namespace Nullgate

open Nullgate.Lib

variable {C : Crates} {i : Inner} {cfg : StoredConfig} {sk : SigningKey} {now nowMs : UInt64}
  {E : List Entry} {o : Entry}

/-- A join is approved: it is for the device's network, and cites a good invite. -/
def AdminCall.Approved (C : Crates) (i : Inner) (cfg : StoredConfig) : AdminCall → Prop
  | .admitMember netId _ _ kind nonce =>
    netId = cfg.secret.networkId C ∧ i.roster.checkInvite kind nonce = .ok
  | _ => True

/-- The device itself has the authority of a Controller. -/
def Inner.Controls (i : Inner) (cfg : StoredConfig) : Prop :=
  i.roster.tier? i.myId = some .controller ∨ i.myId = cfg.originatorId

theorem InviteKind.role_kind (kind : InviteKind) : kind.role.kind = kind := by cases kind <;> rfl

/-- **What the device signs with its own key** has authority behind `E` exactly when the
    device is a Controller, or the originator. -/
theorem authorised_device_iff {call : AdminCall} (hid : C.verifyingKey i.deviceKey = i.myId)
    (hroster : i.roster = Roster.build C.toPrimitives now (cfg.rosterCfg C) E)
    (hopen : i.roster.frozen = false) (happ : call.Approved C i cfg)
    (hdev : call.signsWithDevice = true) (hok : perform C i nowMs call = .ok o)
    (hlate : ∀ e ∈ E, orderKey C.toPrimitives e < orderKey C.toPrimitives o) :
    authorised (cfg.rosterCfg C) (foldAll C.toPrimitives now (cfg.rosterCfg C) E) o = true ↔
      i.Controls cfg := by
  cases call with
  | admitMember netId peer hostname kind nonce =>
    obtain ⟨-, hcheck⟩ := happ
    obtain ⟨ip, rfl⟩ := admitMember_ok hok
    rw [hroster] at hopen hcheck
    have hrule := authorised_add_iff rfl hlate hopen
    have hsigner : (signOp C.toPrimitives netId i.deviceKey
        (.add peer hostname kind.role ip nonce nowMs)).signer = i.myId := hid
    rw [InviteKind.role_kind, hsigner, isOrig, hsigner, decide_eq_true_eq] at hrule
    rw [hrule, Inner.Controls, hroster, and_iff_left hcheck]
    exact or_comm
  | setNetworkName name =>
    rw [perform] at hok
    obtain ⟨cfg', hcfg, rfl⟩ := setNetworkName_ok hok
    rw [Inner.Controls, hroster, Roster.build, finish_tier?, ← hid]
    show (isAdmin _ _ _) = true ↔ _
    rw [isAdmin, Bool.or_eq_true, isOrig, isController, decide_eq_true_eq, decide_eq_true_eq]
    exact or_comm
  | removeMember hex => cases hdev
  | setMemberRole hex controller => cases hdev
  | setFrozen frozen => cases hdev
  | regeneratePeerInvite nonce singleUse => cases hdev
  | controllerTicket nonce => cases hdev

/-- What a call publishes on a device with the master key is an entry of its network. -/
theorem authentic_perform {call : AdminCall} (hl : C.toPrimitives.Lawful)
    (hk : HoldsMasterKey C i cfg sk) (happ : call.Approved C i cfg)
    (hok : perform C i nowMs call = .ok o) :
    authentic C.toPrimitives now (cfg.rosterCfg C) o = decide (nowMs ≤ ceiling now) := by
  have hsigned : ∃ key op, o = signOp C.toPrimitives (cfg.secret.networkId C) key op ∧
      op.ts = nowMs := by
    cases hdev : call.signsWithDevice with
    | false =>
      obtain ⟨op, ho, hts, -⟩ := perform_master hk hdev hok
      exact ⟨sk, op, ho, hts⟩
    | true =>
      cases call with
      | admitMember netId peer hostname kind nonce =>
        obtain ⟨rfl, -⟩ := happ
        obtain ⟨ip, ho⟩ := admitMember_ok hok
        exact ⟨_, _, ho, rfl⟩
      | setNetworkName name =>
        rw [perform] at hok
        obtain ⟨cfg', hcfg, ho⟩ := setNetworkName_ok hok
        obtain rfl := Except.ok.inj (hcfg.symm.trans hk.network_eq)
        exact ⟨_, _, ho, rfl⟩
      | removeMember hex => cases hdev
      | setMemberRole hex controller => cases hdev
      | setFrozen frozen => cases hdev
      | regeneratePeerInvite nonce singleUse => cases hdev
      | controllerTicket nonce => cases hdev
  obtain ⟨key, op, rfl, rfl⟩ := hsigned
  have hsigned : authentic C.toPrimitives now (cfg.rosterCfg C)
      (signOp C.toPrimitives (cfg.rosterCfg C).networkId key op) = _ := authentic_signOp hl key op
  exact hsigned

/-- **What the master key is worth.** On a device that holds the originator's key, with the
    roster of `E` on an open roll, let a call pass its gate and be published behind all of
    `E`. It takes effect exactly when it is within the reader's ceiling and, if it is signed
    with the device key, the device itself is a Controller or the originator; or when the
    roster reflects it already. -/
theorem originator_powers_iff (hl : C.toPrimitives.Lawful) (hk : HoldsMasterKey C i cfg sk)
    (hid : C.verifyingKey i.deviceKey = i.myId)
    (hroster : i.roster = Roster.build C.toPrimitives now (cfg.rosterCfg C) E)
    (hopen : i.roster.frozen = false) (call : AdminCall) (happ : call.Approved C i cfg)
    (hok : perform C i nowMs call = .ok o)
    (hcf : CollisionFree C.toPrimitives now (cfg.rosterCfg C) (E ++ [o]))
    (hlate : ∀ e ∈ E, orderKey C.toPrimitives e < orderKey C.toPrimitives o) :
    TakesEffect (Roster.build C.toPrimitives now (cfg.rosterCfg C) (E ++ [o])) o ↔
      (nowMs ≤ ceiling now ∧ (call.signsWithDevice = true → i.Controls cfg)) ∨
        TakesEffect i.roster o := by
  have hauth : authorised (cfg.rosterCfg C) (foldAll C.toPrimitives now (cfg.rosterCfg C) E) o =
      true ↔ (call.signsWithDevice = true → i.Controls cfg) := by
    cases hdev : call.signsWithDevice with
    | true =>
      have hcontrols := authorised_device_iff hid hroster hopen happ hdev hok hlate
      exact hcontrols.trans ⟨fun h _ => h, fun h => h rfl⟩
    | false =>
      obtain ⟨op, rfl, -, hadmits⟩ := perform_master hk hdev hok
      have hm : MasterOp C.toPrimitives now (cfg.rosterCfg C)
          (signOp C.toPrimitives (cfg.secret.networkId C) sk op) :=
        masterOp_signOp hl hk.matching op
      exact iff_of_true (authorised_of_isOrig hm.isOrig hadmits) (fun h => by cases h)
  rw [takesEffect_iff hcf hlate, hauth, authentic_perform hl hk happ hok, decide_eq_true_eq,
    hroster]

/-! ## A Peer with the master key -/

namespace Sample

/-- Device 3, a Peer of the network, that has imported the master key. -/
def importer : Inner :=
  { activate { deviceKey := key 3, myId := key 3 } (stored (some (key 1))) NET NET with
    roster := Roster.build .plain 100 config joined }

end Sample

theorem Sample.importer_masterKey :
    HoldsMasterKey .plain Sample.importer (Sample.stored (some (Sample.key 1))) (Sample.key 1) :=
  ⟨rfl, rfl, rfl⟩

/-- It freezes the roll. -/
theorem originator_powers_sample :
    (Roster.build .plain 100 Sample.config
      (Sample.joined ++ [Sample.signed 1 (.freeze true 6)])).frozen = true := by
  have hok : perform .plain Sample.importer 6 (.setFrozen true) =
      .ok (Sample.signed 1 (.freeze true 6)) := by
    simp only [perform, setFrozen, Sample.importer_masterKey.originatorKey_eq,
      Sample.importer_masterKey.network_eq, bind, Except.bind]
    rfl
  have heffect : TakesEffect (Roster.build .plain 100 Sample.config
      (Sample.joined ++ [Sample.signed 1 (.freeze true 6)])) _ ↔ _ :=
    originator_powers_iff (C := .plain) Primitives.plain_lawful Sample.importer_masterKey rfl rfl
      (by decide) (.setFrozen true) trivial hok (by decide) (by decide)
  exact heffect.mpr (Or.inl ⟨by decide, fun h => by cases h⟩)

/-- **The master key does not give full powers**: device 3 passes the gate of
    `set_network_name`, but the entry is signed with its own key. -/
theorem originator_powers_not_full :
    ¬ ∀ (i : Inner) (cfg : StoredConfig) (sk : SigningKey) (now nowMs : UInt64) (E : List Entry)
        (call : AdminCall) (o : Entry), HoldsMasterKey .plain i cfg sk →
      Crates.plain.verifyingKey i.deviceKey = i.myId →
      i.roster = Roster.build .plain now (cfg.rosterCfg .plain) E → i.roster.frozen = false →
      i.roster.isMember i.myId = true → call.Approved .plain i cfg →
      perform .plain i nowMs call = .ok o → nowMs ≤ ceiling now →
      CollisionFree .plain now (cfg.rosterCfg .plain) (E ++ [o]) →
      (∀ e ∈ E, orderKey .plain e < orderKey .plain o) →
      TakesEffect (Roster.build .plain now (cfg.rosterCfg .plain) (E ++ [o])) o := by
  intro h
  have hok : perform .plain Sample.importer 6 (.setNetworkName "den") =
      .ok (Sample.signed 3 (.setName "den" 6)) := by
    simp only [perform, setNetworkName, Sample.importer_masterKey.network_eq, bind, Except.bind]
    rfl
  have heffect := h Sample.importer (Sample.stored (some (Sample.key 1))) (Sample.key 1) 100 6
    Sample.joined (.setNetworkName "den") (Sample.signed 3 (.setName "den" 6))
    Sample.importer_masterKey rfl rfl (by decide) (by decide) trivial hok (by decide) (by decide)
    (by decide)
  have hname : (Roster.build .plain 100 Sample.config
      (Sample.joined ++ [Sample.signed 3 (.setName "den" 6)])).name = some "den" := heffect
  revert hname
  decide

end Nullgate
