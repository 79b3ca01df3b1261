/-
  File:      Nullgate/Engine/Publish.lean
  Subject:   THE OTHER OPERATIONS THAT PUBLISH: joins, names, Controller tickets, new networks.

  * `admitMember`, `setNetworkName` -- signed with the DEVICE key, whoever calls them;
  * `controllerTicket`, `foundingEntries` -- signed with the master key, like `setFrozen`;
  * `AdminCall`, `perform` -- one call of an administrative operation, and what it publishes;
  * `perform_ok` -- on a device with the master key: the op, the key it is signed with, and
    that it is stamped with the device's clock.
-/
import Nullgate.Engine.Admin

namespace Nullgate

open Nullgate.Lib

variable (C : Crates)

/-! ## 1. Joins, names, tickets -/

/-- The role the joiner's ticket kind stands for. -/
def InviteKind.role : InviteKind → Role
  | .peer => .peer
  | .controller => .controller

/-- `admit_member` at clock `nowMs`, as far as its signature. -/
def signAdmission (i : Inner) (nowMs : UInt64) (netId peer : Id) (hostname : String)
    (inviteKind : InviteKind) (inviteNonce : Nonce) : Except String Entry := do
  let cfg ← i.network
  let can := cfg.originatorSecret.isSome || i.roster.role i.myId = .controller
  let virtualIp := i.roster.lowestFreeHost ⟨cfg.subnet⟩
  if i.roster.frozen then .error "roster is frozen"
  else if !can then .error "only controllers and the originator can approve joins"
  else
    .ok (signOp C.toPrimitives netId i.deviceKey
      (.add peer hostname inviteKind.role virtualIp.octets inviteNonce nowMs))

/-- `admit_member`: the entry it publishes. -/
def admitMember (i : Inner) (nowMs : UInt64) (netId peer : Id) (hostname : String)
    (inviteKind : InviteKind) (inviteNonce : Nonce) : Except String Entry := do
  let entry ← signAdmission C i nowMs netId peer hostname inviteKind inviteNonce
  publish i entry

/-- `set_network_name` at clock `nowMs`: the entry it publishes. -/
def setNetworkName (i : Inner) (nowMs : UInt64) (name : String) : Except String Entry := do
  let name := String.ofList (trim name.toList)
  if name.isEmpty then .error "network name can't be empty"
  else
    let cfg ← i.network
    publish i (signOp C.toPrimitives (cfg.secret.networkId C) i.deviceKey (.setName name nowMs))

/-- `controller_ticket` at clock `nowMs` with a fresh nonce: the entry it publishes. -/
def controllerTicket (i : Inner) (nowMs : UInt64) (newNonce : Nonce) : Except String Entry := do
  let originator ← originatorKey i
  let cfg ← i.network
  publish i (signOp C.toPrimitives (cfg.secret.networkId C) originator
    (.setInvite .controller newNonce true nowMs))

/-! ## 2. Founding a network -/

/-- The first usable host address (`.2`) in a /24 subnet. -/
def firstHost (subnet : Octets) : Octets := (subnet.1, subnet.2.1, subnet.2.2.1, 2)

/-- The device's own admission into the network it starts. -/
def genesisEntry (cfg : StoredConfig) (originator : SigningKey) (myId : Id)
    (currentHostname : String) (nowMs : UInt64) : Entry :=
  signOp C.toPrimitives (cfg.secret.networkId C) originator
    (.add myId currentHostname .controller (firstHost cfg.subnet) (Bytes.fill 16 0) nowMs)

/-- The first Peer invite. -/
def inviteEntry (cfg : StoredConfig) (originator : SigningKey) (nonce : Nonce) (nowMs : UInt64) :
    Entry :=
  signOp C.toPrimitives (cfg.secret.networkId C) originator (.setInvite .peer nonce false nowMs)

/-- What `create_network` and `rotate_network` publish into the network they start. -/
def foundingEntries (cfg : StoredConfig) (originator : SigningKey) (myId : Id)
    (currentHostname : String) (peerNonce : Nonce) (nowGenesis nowInvite : UInt64) : List Entry :=
  [genesisEntry C cfg originator myId currentHostname nowGenesis,
    inviteEntry C cfg originator peerNonce nowInvite]

/-- The members `rotate_network` and `delete_network` remove first: everyone else. -/
def otherMembers (i : Inner) : List Id :=
  (i.roster.members.toList.map Prod.fst).filter fun id => id ≠ i.myId

/-- What they publish into the old network for each of them. -/
def bootEntry (cfg : StoredConfig) (originator : SigningKey) (id : Id) (nowMs : UInt64) : Entry :=
  signOp C.toPrimitives (cfg.secret.networkId C) originator (.remove id nowMs)

variable {C}

/-! ## 3. One call -/

/-- A call of an administrative operation, with what it draws afresh. -/
inductive AdminCall where
  | admitMember (netId peer : Id) (hostname : String) (inviteKind : InviteKind)
      (inviteNonce : Nonce)
  | removeMember (nodeIdHex : String)
  | setMemberRole (nodeIdHex : String) (controller : Bool)
  | setFrozen (frozen : Bool)
  | regeneratePeerInvite (newNonce : Nonce) (singleUse : Bool)
  | controllerTicket (newNonce : Nonce)
  | setNetworkName (name : String)

variable (C) in
/-- What the call publishes at clock `nowMs`, or its error. -/
def perform (i : Inner) (nowMs : UInt64) : AdminCall → Except String Entry
  | .admitMember netId peer hostname kind nonce =>
    admitMember C i nowMs netId peer hostname kind nonce
  | .removeMember hex => removeMember C i nowMs hex
  | .setMemberRole hex controller => setMemberRole C i nowMs hex controller
  | .setFrozen frozen => setFrozen C i nowMs frozen
  | .regeneratePeerInvite nonce singleUse => regeneratePeerInvite C i nowMs nonce singleUse
  | .controllerTicket nonce => controllerTicket C i nowMs nonce
  | .setNetworkName name => setNetworkName C i nowMs name

/-- The call signs with the device key, whether or not the device holds the master key. -/
def AdminCall.signsWithDevice : AdminCall → Bool
  | .admitMember .. => true
  | .setNetworkName .. => true
  | _ => false

/-! ## 4. What a call publishes -/

variable {i : Inner} {nowMs : UInt64} {o : Entry}

theorem bind_ok {α β : Type} {x : Except String α} {f : α → Except String β} {b : β}
    (h : (x >>= f) = .ok b) : ∃ a, x = .ok a ∧ f a = .ok b := by
  cases x with
  | error e => cases h
  | ok a => exact ⟨a, rfl, h⟩

theorem signAdmission_ok {netId peer : Id} {hostname : String} {kind : InviteKind} {nonce : Nonce}
    (h : signAdmission C i nowMs netId peer hostname kind nonce = .ok o) :
    ∃ ip, o = signOp C.toPrimitives netId i.deviceKey
      (.add peer hostname kind.role ip nonce nowMs) := by
  obtain ⟨cfg, -, h⟩ := bind_ok h
  simp only [] at h
  split at h
  · cases h
  · split at h
    · cases h
    · exact ⟨_, (Except.ok.inj h).symm⟩

theorem admitMember_ok {netId peer : Id} {hostname : String} {kind : InviteKind} {nonce : Nonce}
    (h : admitMember C i nowMs netId peer hostname kind nonce = .ok o) :
    ∃ ip, o = signOp C.toPrimitives netId i.deviceKey
      (.add peer hostname kind.role ip nonce nowMs) := by
  obtain ⟨entry, hsigned, hpublished⟩ := bind_ok h
  rw [publish_ok hpublished]
  exact signAdmission_ok hsigned

theorem setNetworkName_ok {name : String} (h : setNetworkName C i nowMs name = .ok o) :
    ∃ cfg, i.network = .ok cfg ∧ o = signOp C.toPrimitives (cfg.secret.networkId C) i.deviceKey
      (.setName (String.ofList (trim name.toList)) nowMs) := by
  simp only [setNetworkName] at h
  split at h
  · cases h
  · obtain ⟨cfg, hcfg, h⟩ := bind_ok h
    exact ⟨cfg, hcfg, publish_ok h⟩

theorem controllerTicket_ok {cfg : StoredConfig} {sk : SigningKey} {nonce : Nonce}
    (hk : HoldsMasterKey C i cfg sk) (h : controllerTicket C i nowMs nonce = .ok o) :
    o = signOp C.toPrimitives (cfg.secret.networkId C) sk
      (.setInvite .controller nonce true nowMs) := by
  simp only [controllerTicket, hk.originatorKey_eq, hk.network_eq, bind, Except.bind] at h
  exact publish_ok h

/-- **Whatever a call publishes is signed and stamped with the device's clock.** -/
theorem perform_ok {call : AdminCall} (h : perform C i nowMs call = .ok o) :
    ∃ netId key op, o = signOp C.toPrimitives netId key op ∧ op.ts = nowMs := by
  cases call with
  | admitMember netId peer hostname kind nonce =>
    obtain ⟨ip, ho⟩ := admitMember_ok h
    exact ⟨_, _, _, ho, rfl⟩
  | removeMember hex =>
    obtain ⟨id, -, h⟩ := bind_ok h
    obtain ⟨key, -, h⟩ := bind_ok h
    exact ⟨_, _, _, publish_ok h, rfl⟩
  | setMemberRole hex controller =>
    obtain ⟨id, -, h⟩ := bind_ok h
    obtain ⟨key, -, h⟩ := bind_ok h
    obtain ⟨cfg, -, h⟩ := bind_ok h
    exact ⟨_, _, _, publish_ok h, rfl⟩
  | setFrozen frozen =>
    obtain ⟨key, -, h⟩ := bind_ok h
    obtain ⟨cfg, -, h⟩ := bind_ok h
    exact ⟨_, _, _, publish_ok h, rfl⟩
  | regeneratePeerInvite nonce singleUse =>
    obtain ⟨key, -, h⟩ := bind_ok h
    exact ⟨_, _, _, publish_ok h, rfl⟩
  | controllerTicket nonce =>
    obtain ⟨key, -, h⟩ := bind_ok h
    obtain ⟨cfg, -, h⟩ := bind_ok h
    exact ⟨_, _, _, publish_ok h, rfl⟩
  | setNetworkName name =>
    rw [perform] at h
    obtain ⟨cfg, -, ho⟩ := setNetworkName_ok h
    exact ⟨_, _, _, ho, rfl⟩

/-- **With the master key on the device**, every call but the two that use the device key
    publishes an op of the originator, none of them an `add`. -/
theorem perform_master {cfg : StoredConfig} {sk : SigningKey} {call : AdminCall}
    (hk : HoldsMasterKey C i cfg sk) (hdev : call.signsWithDevice = false)
    (h : perform C i nowMs call = .ok o) :
    ∃ op, o = signOp C.toPrimitives (cfg.secret.networkId C) sk op ∧ op.ts = nowMs ∧
      o.admits? = none := by
  cases call with
  | admitMember netId peer hostname kind nonce => cases hdev
  | removeMember hex =>
    obtain ⟨x, hx, -⟩ := bind_ok h
    obtain rfl := removeMember_ok hk hx h
    exact ⟨_, rfl, rfl, rfl⟩
  | setMemberRole hex controller =>
    obtain ⟨x, hx, -⟩ := bind_ok h
    obtain rfl := setMemberRole_ok hk hx h
    exact ⟨_, rfl, rfl, rfl⟩
  | setFrozen frozen =>
    obtain rfl := setFrozen_ok hk h
    exact ⟨_, rfl, rfl, rfl⟩
  | regeneratePeerInvite nonce singleUse =>
    obtain rfl := regeneratePeerInvite_ok hk h
    exact ⟨_, rfl, rfl, rfl⟩
  | controllerTicket nonce =>
    obtain rfl := controllerTicket_ok hk h
    exact ⟨_, rfl, rfl, rfl⟩
  | setNetworkName name => cases hdev

end Nullgate
