/-
  File:      Nullgate/Roster/Build.lean
  Subject:   `Roster::build` (`roster.rs`), line by line.

  1. `Entry.id`, `Entry.verifySignature`, `signingBytes`, `signOp` -- content address and
     signature of an entry;
  2. `valid` -- the filter (`authentic`: this network, below the future ceiling, signature
     verifies) and the deduplication by content id;
  3. `ordered` -- the deterministic order: timestamp, then content id (`orderKey`);
  4. `foldEntry` -- one step of the authorizing fold over `FoldState` (the roster so far, the
     admission times, the nonces spent);
  5. `assignIps`, `finish`, `Roster.build`;
  6. `Primitives.plain` and `Sample` -- linked crates simple enough to evaluate, and the
     setup the unit tests of the source start from.

  The clock is an argument (`now`), so two runs can be compared under one ceiling.
-/
import Nullgate.Roster.Types
import Nullgate.Lib.Fold
import Mathlib.Data.List.Sort
import Mathlib.Data.Prod.Lex

namespace Nullgate

open Nullgate.Lib

variable (P : Primitives) (now : UInt64) (cfg : Config)

/-! ## 1. Content address and signature -/

/-- Content address of an entry. -/
def Entry.id (e : Entry) : Bytes 32 :=
  P.hash (P.entryBytes e.networkId e.signer e.op e.signature)

/-- Canonical bytes that get signed for an entry. -/
def signingBytes (networkId signer : Id) (op : Op) : List UInt8 :=
  P.viewBytes { domain := DOMAIN, networkId, signer, op }

/-- The signature has 64 bytes, the signer is a key, and the key verifies the signature. -/
def Entry.verifySignature (e : Entry) : Bool :=
  match Bytes.ofList? 64 e.signature with
  | none => false
  | some sig =>
    match P.fromBytes e.signer with
    | none => false
    | some vk => P.verifyStrict vk (signingBytes P e.networkId e.signer e.op) sig

/-- `sign`: the entry a key holder transmits. -/
def signOp (networkId : Id) (signingKey : SigningKey) (op : Op) : Entry :=
  let signer := P.verifyingKey signingKey
  { networkId, signer, op,
    signature := (P.sign signingKey (signingBytes P networkId signer op)).toList }

/-! ## 2. Filter and deduplication -/

/-- `u64::saturating_add`. -/
def saturatingAdd (a b : UInt64) : UInt64 :=
  if a.toNat + b.toNat < UInt64.size then a + b else 0xffffffffffffffff

/-- Entries timestamped more than this far in the future are dropped. -/
def maxFutureSkewMs : UInt64 := 24 * 60 * 60 * 1000

/-- The future ceiling of a fold at clock `now`. -/
def ceiling : UInt64 := saturatingAdd now maxFutureSkewMs

/-- The entries `build` keeps: of this network, not implausibly far in the future, signed. -/
def authentic (e : Entry) : Bool :=
  e.networkId = cfg.networkId && e.op.ts ≤ ceiling now && e.verifySignature P

/-- One entry of the input enters the map of kept entries, or is dropped. -/
def keepEntry (m : Std.ExtTreeMap (Bytes 32) Entry) (e : Entry) :
    Std.ExtTreeMap (Bytes 32) Entry :=
  if authentic P now cfg e then m.insert (e.id P) e else m

/-- The kept entries by content id (a later duplicate replaces an earlier one). -/
def valid (entries : List Entry) : Std.ExtTreeMap (Bytes 32) Entry :=
  run (keepEntry P now cfg) ∅ entries

/-! ## 3. Deterministic order -/

/-- The sort key: logical timestamp, then content id. -/
def orderKey (e : Entry) : UInt64 ×ₗ Bytes 32 := toLex (e.op.ts, e.id P)

/-- The kept entries in fold order. -/
def ordered (entries : List Entry) : List Entry :=
  ((valid P now cfg entries).toList.map Prod.snd).insertionSort
    fun a b => orderKey P a ≤ orderKey P b

/-! ## 4. The authorizing fold -/

/-- What the fold carries: the roster so far, when each member was admitted, and the invite
    nonces spent by an accepted single-use admission. -/
@[ext] structure FoldState where
  roster : Roster := .default
  admittedTs : Std.ExtTreeMap Id UInt64 := ∅
  consumed : Std.ExtTreeSet Nonce := ∅

/-- The state the fold starts in. -/
def FoldState.init : FoldState := {}

/-- `e.signer == orig`. -/
def isOrig (e : Entry) : Bool := e.signer = cfg.originatorId

/-- `signer_role == Some(Role::Controller)`. -/
def isController (s : FoldState) (e : Entry) : Bool := s.roster.tier? e.signer = some .controller

/-- Gate (a) of an `add`: the originator, or a current Controller not before its admission. -/
def approverOk (s : FoldState) (e : Entry) : Bool :=
  isOrig cfg e || (isController s e && s.admittedTs[e.signer]?.any fun t => t ≤ e.op.ts)

/-- Gate (b) of an `add`: `none` rejects it, `some n` lets it in and spends the nonce `n`
    holds, if any. -/
def inviteGate (s : FoldState) (e : Entry) (role : Role) (inviteNonce : Nonce) :
    Option (Option Nonce) :=
  if isOrig cfg e then some none
  else
    let current := match role with
      | .peer => s.roster.peerInvite
      | .controller => s.roster.controllerInvite
    match current with
    | none => none
    | some (curNonce, singleUse) =>
      if inviteNonce ≠ curNonce then none
      else if singleUse then
        if s.consumed.contains curNonce then none else some (some curNonce)
      else some none

/-- One step of the fold. -/
def foldEntry (s : FoldState) (e : Entry) : FoldState :=
  match e.op with
  | .freeze frozen _ =>
    if isOrig cfg e then { s with roster := { s.roster with frozen } } else s
  | .remove nodeId _ =>
    let targetRole := s.roster.tier? nodeId
    if isOrig cfg e || (isController s e && targetRole = some .peer) then
      { s with
        roster := { s.roster with members := s.roster.members.erase nodeId }
        admittedTs := s.admittedTs.erase nodeId }
    else s
  | .setRole nodeId role _ =>
    if isOrig cfg e then
      { s with roster := { s.roster with
          members := s.roster.members.modify nodeId fun m => { m with role } } }
    else s
  | .setInvite .peer nonce singleUse _ =>
    if isOrig cfg e || isController s e then
      { s with roster := { s.roster with peerInvite := some (nonce, singleUse) } }
    else s
  | .setInvite .controller nonce _ _ =>
    -- a Controller invite is single-use whatever the entry says
    if isOrig cfg e then
      { s with roster := { s.roster with controllerInvite := some (nonce, true) } }
    else s
  | .setName name _ =>
    if isOrig cfg e || isController s e then
      { s with roster := { s.roster with name := some name } }
    else s
  | .add nodeId hostname role virtualIp inviteNonce ts =>
    if s.roster.frozen then s
    else if !approverOk cfg s e then s
    else
      match inviteGate cfg s e role inviteNonce with
      | none => s
      | some consume =>
        { roster := { s.roster with
            members := s.roster.members.insert nodeId
              { hostname, role, virtualIp := ⟨virtualIp⟩, addedBy := e.signer } }
          admittedTs := s.admittedTs.insert nodeId ts
          consumed := match consume with
            | some n => s.consumed.insert n
            | none => s.consumed }

/-! ## 5. Addresses and the finished roster -/

/-- The host number behind `host` in the cycle 2, 3, …, 254. -/
def nextHost (host : UInt8) : UInt8 := if host ≥ 254 then 2 else host + 1

/-- `while taken.contains(&host) && tries < 253`, with `tries` counted down from 253. -/
def probe (taken : Std.ExtTreeSet UInt8) : Nat → UInt8 → UInt8
  | 0, host => host
  | tries + 1, host =>
    if taken.contains host then probe taken tries (nextHost host) else host

/-- The host a recorded octet starts probing at. -/
def recordedHost (recorded : UInt8) : UInt8 :=
  if 2 ≤ recorded && recorded ≤ 254 then recorded else 2

/-- The members in admission order: `(admitted_ts, id, recorded host)`. -/
def ipOrder (members : Std.ExtTreeMap Id Member) (admittedTs : Std.ExtTreeMap Id UInt64) :
    List (UInt64 × Id × UInt8) :=
  (members.toList.map fun (id, m) => (admittedTs[id]?.getD 0, id, m.virtualIp.host)).insertionSort
    fun a b => toLex (a.1, a.2.1) ≤ toLex (b.1, b.2.1)

/-- One member gets its address: the recorded host, or the next free one. -/
def assignIp (subnet : Ipv4Addr)
    (acc : Std.ExtTreeMap Id Member × Std.ExtTreeSet UInt8) (o : UInt64 × Id × UInt8) :
    Std.ExtTreeMap Id Member × Std.ExtTreeSet UInt8 :=
  let host := probe acc.2 253 (recordedHost o.2.2)
  let base := subnet.octets
  (acc.1.modify o.2.1 fun m => { m with virtualIp := ⟨base.1, base.2.1, base.2.2.1, host⟩ },
    acc.2.insert host)

/-- Resolve each member's final virtual IP. -/
def assignIps (members : Std.ExtTreeMap Id Member) (admittedTs : Std.ExtTreeMap Id UInt64)
    (subnet : Ipv4Addr) : Std.ExtTreeMap Id Member :=
  ((ipOrder members admittedTs).foldl (assignIp subnet) (members, ∅)).1

/-- What `build` does behind the fold: the spent flags and the addresses. -/
def finish (s : FoldState) : Roster :=
  { s.roster with
    peerInviteSpent := s.roster.peerInvite.any fun (n, _) => s.consumed.contains n
    controllerInviteSpent := s.roster.controllerInvite.any fun (n, _) => s.consumed.contains n
    members := assignIps s.roster.members s.admittedTs cfg.subnet }

/-- The fold state behind the entries `l`, in this order. -/
abbrev foldFrom (s : FoldState) (l : List Entry) : FoldState := run (foldEntry cfg) s l

/-- The fold state behind all entries. -/
def foldAll (entries : List Entry) : FoldState := foldFrom cfg .init (ordered P now cfg entries)

/-- **`Roster::build`** at clock `now`. -/
def Roster.build (entries : List Entry) : Roster := finish cfg (foldAll P now cfg entries)

/-! ## 6. An instance to evaluate -/

/-- One byte per kind of op. -/
def Op.tag : Op → UInt8
  | .add .. => 0
  | .remove .. => 1
  | .setRole .. => 2
  | .setInvite .. => 3
  | .freeze .. => 4
  | .setName .. => 5

/-- Linked crates simple enough to evaluate: a key is its own public half, its signature is
    its bytes, and a content id holds the timestamp's low byte, the op's kind and the signer
    (so entries that differ in one of the three have different ids). -/
def Primitives.plain : Primitives where
  VerifyingKey := Id
  entryBytes _ signer op _ := op.ts.toUInt8 :: op.tag :: signer.toList
  viewBytes _ := []
  hash := Bytes.pad 32
  fromBytes := some
  verifyStrict vk _ sig := sig = Bytes.pad 64 vk.toList
  verifyingKey k := k
  sign k _ := Bytes.pad 64 k.toList

theorem Primitives.plain_lawful : Primitives.plain.Lawful where
  sign_verifies k _ := ⟨k, rfl, by simp [plain]⟩

/-! The setup of the source's unit tests: the originator key 1 has bootstrapped device 2 as
    the genesis Controller and set a Peer invite. -/

namespace Sample

def key (seed : UInt8) : SigningKey := Bytes.fill 32 seed

def NET : Id := Bytes.fill 32 9

def nonce (b : UInt8) : Nonce := Bytes.fill 16 b

def config : Config := { networkId := NET, originatorId := key 1, subnet := ⟨10, 99, 0, 0⟩ }

def signed (signer : UInt8) (op : Op) : Entry := signOp .plain NET (key signer) op

/-- `signer` admits device `node` at address `.node`. -/
def add (signer node : UInt8) (role : Role) (inv : UInt8) (ts : UInt64) : Entry :=
  signed signer (.add (key node) "host" role (10, 99, 0, node) (nonce inv) ts)

def genesis : Entry := add 1 2 .controller 0 1

def peerInvite : Entry := signed 1 (.setInvite .peer (nonce 7) false 1)

def setup : List Entry := [genesis, peerInvite]

end Sample

end Nullgate
