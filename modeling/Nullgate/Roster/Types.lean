/-
  File:      Nullgate/Roster/Types.lean
  Subject:   THE SIGNED MEMBERSHIP ROSTER (`roster.rs`): its data.

  * `Role`, `InviteKind`, `Op`, `Entry`, `Config`, `Member`, `Roster` -- the types of the
    source, field by field;
  * `Primitives` -- what the module takes from the crates it links (CBOR writer, content
    hash, ed25519), as functions it calls; `Primitives.Lawful` is what a signature scheme
    promises: what a key signed verifies under that key.
-/
import Nullgate.Lib.Bytes
import Std.Data.ExtTreeMap
import Std.Data.ExtTreeSet

namespace Nullgate

open Nullgate.Lib

/-! ## 1. Keys, nonces, roles -/

/-- `u64::saturating_sub`. -/
def saturatingSub (a b : UInt64) : UInt64 := if a < b then 0 else a - b

/-- `char::is_whitespace`: the characters `str::trim` strips. -/
def isWhitespace (c : Char) : Bool :=
  (9 ≤ c.val && c.val ≤ 13) || c.val = 0x20 || c.val = 0x85 || c.val = 0xA0 || c.val = 0x1680 ||
    (0x2000 ≤ c.val && c.val ≤ 0x200A) || c.val = 0x2028 || c.val = 0x2029 || c.val = 0x202F ||
    c.val = 0x205F || c.val = 0x3000

/-- An ed25519 public key: a device's NodeId, or the originator master key. -/
abbrev Id := Bytes 32

/-- A join-invite nonce. -/
abbrev Nonce := Bytes 16

instance transOrdId : Std.TransOrd Id := inferInstance

instance transOrdNonce : Std.TransOrd Nonce := inferInstance

/-- The 32 secret bytes of a signing key (`SigningKey::from_bytes`). -/
abbrev SigningKey := Bytes 32

/-- A member's privilege tier within the roster. -/
inductive Role where
  | peer
  | controller
  deriving DecidableEq, Repr

/-- Which kind of join a `setInvite` authorizes. -/
inductive InviteKind where
  | peer
  | controller
  deriving DecidableEq, Repr

/-- The kind of invite an `add` granting the role has to cite. -/
def Role.kind : Role → InviteKind
  | .peer => .peer
  | .controller => .controller

/-- The result of checking a ticket's invite nonce against the current roster. -/
inductive InviteCheck where
  /-- current and (if single-use) unspent -/
  | ok
  /-- a single-use code that is already used -/
  | spent
  /-- not the current code -/
  | stale
  deriving DecidableEq, Repr

/-- The four octets `[u8; 4]` of an address. -/
abbrev Octets := UInt8 × UInt8 × UInt8 × UInt8

/-- `std::net::Ipv4Addr`. -/
structure Ipv4Addr where
  octets : Octets
  deriving DecidableEq

/-- The host byte of a /24 address, `octets()[3]`. -/
def Ipv4Addr.host (a : Ipv4Addr) : UInt8 := a.octets.2.2.2

/-! ## 2. Operations and entries -/

/-- A membership operation. -/
inductive Op where
  | add (nodeId : Id) (hostname : String) (role : Role) (virtualIp : Octets) (inviteNonce : Nonce)
      (ts : UInt64)
  | remove (nodeId : Id) (ts : UInt64)
  | setRole (nodeId : Id) (role : Role) (ts : UInt64)
  | setInvite (kind : InviteKind) (nonce : Nonce) (singleUse : Bool) (ts : UInt64)
  | freeze (frozen : Bool) (ts : UInt64)
  | setName (name : String) (ts : UInt64)
  deriving DecidableEq

/-- The logical timestamp carried by an op. -/
def Op.ts : Op → UInt64
  | .add _ _ _ _ _ ts => ts
  | .remove _ ts => ts
  | .setRole _ _ ts => ts
  | .setInvite _ _ _ ts => ts
  | .freeze _ ts => ts
  | .setName _ ts => ts

/-- A signed roster entry. -/
structure Entry where
  networkId : Id
  signer : Id
  op : Op
  signature : List UInt8
  deriving DecidableEq

/-- The domain string bound into every signature. -/
def DOMAIN : String := "ipn-roster-v2"

/-- What an entry's signature is over (`struct View` of `signing_bytes`). -/
structure View where
  domain : String
  networkId : Id
  signer : Id
  op : Op
  deriving DecidableEq

/-- **The functions of the linked crates the roster calls**: `ciborium::into_writer` on the
    two values it serializes, `blake3::hash`, and the ed25519 operations. -/
structure Primitives where
  VerifyingKey : Type
  entryBytes : Id → Id → Op → List UInt8 → List UInt8
  viewBytes : View → List UInt8
  hash : List UInt8 → Bytes 32
  /-- `VerifyingKey::from_bytes`; `none` for bytes that are no curve point -/
  fromBytes : Id → Option VerifyingKey
  verifyStrict : VerifyingKey → List UInt8 → Bytes 64 → Bool
  /-- `signing_key.verifying_key().to_bytes()` -/
  verifyingKey : SigningKey → Id
  sign : SigningKey → List UInt8 → Bytes 64

/-- What the signature scheme promises: a key's own signature verifies under it. -/
structure Primitives.Lawful (P : Primitives) : Prop where
  sign_verifies : ∀ k msg, ∃ vk, P.fromBytes (P.verifyingKey k) = some vk ∧
    P.verifyStrict vk msg (P.sign k msg) = true

/-! ## 3. The network and its roster -/

/-- Network parameters needed to evaluate the roster. -/
structure Config where
  networkId : Id
  originatorId : Id
  subnet : Ipv4Addr
  deriving DecidableEq

/-- A current member of the network. -/
structure Member where
  hostname : String
  role : Role
  virtualIp : Ipv4Addr
  addedBy : Id
  deriving DecidableEq

/-- The folded current state of the roster. -/
@[ext] structure Roster where
  members : Std.ExtTreeMap Id Member := ∅
  frozen : Bool := false
  name : Option String := none
  peerInvite : Option (Nonce × Bool) := none
  controllerInvite : Option (Nonce × Bool) := none
  peerInviteSpent : Bool := false
  controllerInviteSpent : Bool := false
  deriving DecidableEq

namespace Roster

/-- `Roster::default()`. -/
def default : Roster := {}

/-- A member's tier, `none` for an id that is no member. -/
def tier? (r : Roster) (id : Id) : Option Role := r.members[id]?.map Member.role

def isMember (r : Roster) (id : Id) : Bool := r.members.contains id

def member (r : Roster) (id : Id) : Option Member := r.members[id]?

/-- A member's role, or `peer` if not a member. -/
def role (r : Roster) (id : Id) : Role := (r.tier? id).getD .peer

/-- The current invite `(nonce, single_use)` for `kind`, if one is set. -/
def currentInvite (r : Roster) : InviteKind → Option (Nonce × Bool)
  | .peer => r.peerInvite
  | .controller => r.controllerInvite

/-- Whether the current invite for `kind` is single-use and has been consumed. -/
def inviteSpent (r : Roster) : InviteKind → Bool
  | .peer => r.peerInviteSpent
  | .controller => r.controllerInviteSpent

/-- Check a ticket's `nonce` against the current invite for `kind`. -/
def checkInvite (r : Roster) (kind : InviteKind) (nonce : Nonce) : InviteCheck :=
  match r.currentInvite kind with
  | none => .stale
  | some (cur, singleUse) =>
    if nonce ≠ cur then .stale
    else if singleUse && r.inviteSpent kind then .spent
    else .ok

/-- The lowest free host address in `subnet` (2..=254), or `.254` if the /24 is full. -/
def lowestFreeHost (r : Roster) (subnet : Ipv4Addr) : Ipv4Addr :=
  let base := subnet.octets
  let taken := r.members.toList.map fun (_, m) => m.virtualIp.host
  let host := ((List.range' 2 253).map Nat.toUInt8).find? fun h => h ∉ taken
  ⟨base.1, base.2.1, base.2.2.1, host.getD 254⟩

theorem isMember_eq (r : Roster) (id : Id) : r.isMember id = (r.tier? id).isSome := by
  rw [isMember, tier?, Option.isSome_map]
  exact Std.ExtTreeMap.contains_eq_isSome_getElem?

end Roster

end Nullgate
