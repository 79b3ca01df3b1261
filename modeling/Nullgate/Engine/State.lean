/-
  File:      Nullgate/Engine/State.lean
  Subject:   THE ENGINE'S STATE on one device (`engine.rs`), as far as membership goes.

  * `Crates`, `NetworkSecret` -- the key derivation of `network.rs` over a linked HKDF;
  * `StoredConfig`, `OnDisk` -- the network config in memory and on disk;
  * `Inner` -- the device, its config, its document, the cached roster and the flags that
    decide when the roster is folded again (the fields of `Inner` and of its `State`);
  * `softDisconnect`, `teardown`, `activate` -- going offline, leaving, going online.

  Connections, routes, the TUN, presence and gossip are not part of this slice.
-/
import Nullgate.Roster.Build

namespace Nullgate

open Nullgate.Lib

/-! ## 1. Network secret and config -/

/-- The roster's crates, and HKDF-SHA256 with salt, key material and info (32 bytes out). -/
structure Crates extends Primitives where
  hkdf : List UInt8 → Bytes 32 → List UInt8 → Bytes 32

def HKDF_SALT : List UInt8 := "ipn-v1".toUTF8.data.toList

/-- The root secret of a network. -/
structure NetworkSecret where
  bytes : Bytes 32
  deriving DecidableEq

/-- One secret, many keys: `hk.expand(info)`. -/
def NetworkSecret.derive (C : Crates) (s : NetworkSecret) (info : String) : Bytes 32 :=
  C.hkdf HKDF_SALT s.bytes info.toUTF8.data.toList

/-- Stable network identifier (domain separation for signed roster entries). -/
def NetworkSecret.networkId (C : Crates) (s : NetworkSecret) : Id := s.derive C "network-id"

/-- In-memory network config. -/
structure StoredConfig where
  name : String
  subnet : Octets
  secret : NetworkSecret
  originatorId : Id
  /-- present only on a device that holds the master key -/
  originatorSecret : Option SigningKey
  deriving DecidableEq

/-- What the roster fold needs of the config. -/
def StoredConfig.rosterCfg (C : Crates) (c : StoredConfig) : Config where
  networkId := c.secret.networkId C
  originatorId := c.originatorId
  subnet := ⟨c.subnet⟩

/-- The non-secret part of the config, as `network.cbor` holds it. -/
structure OnDiskConfig where
  name : String
  subnet : Octets
  originatorId : Id
  deriving DecidableEq

/-- What survives a restart: the config file and the two secrets of the network. -/
structure OnDisk where
  networkCbor : Option OnDiskConfig := none
  networkSecret : Option (Bytes 32) := none
  originatorSecret : Option SigningKey := none
  deriving DecidableEq

/-! ## 2. The device -/

/-- A handle of an open roster document: the id of its namespace. -/
abbrev Doc := Bytes 32

/-- A document author. -/
abbrev AuthorId := Bytes 32

/-- **The engine of one device.** -/
structure Inner where
  deviceKey : SigningKey
  myId : Id
  config : Option StoredConfig := none
  doc : Option Doc := none
  author : Option AuthorId := none
  roster : Roster := .default
  /-- whether we have ever seen ourselves in the roster -/
  wasMember : Bool := false
  docsDirty : Bool := false
  forceRecover : Bool := false
  lastRosterRebuild : UInt64 := 0
  disk : OnDisk := {}

/-- Go offline: drop the live state, keep the config. -/
def softDisconnect (i : Inner) : Inner :=
  { i with
    docsDirty := false
    forceRecover := false
    wasMember := false
    doc := none
    author := none
    roster := .default }

/-- Leave the network: go offline, then forget the config in memory and on disk. The device
    key is kept. -/
def teardown (i : Inner) : Inner :=
  { softDisconnect i with
    config := none
    disk := { networkCbor := none, networkSecret := none, originatorSecret := none } }

/-- Go online under a config, with the document and the author it opened. The next tick folds
    at once. -/
def activate (i : Inner) (cfg : StoredConfig) (doc : Doc) (author : AuthorId) : Inner :=
  { i with
    lastRosterRebuild := 0
    docsDirty := true
    config := some cfg
    doc := some doc
    author := some author }

/-! ## 3. An instance to evaluate -/

/-- The crates of `Primitives.plain`, with a key derivation that yields the sample's id. -/
def Crates.plain : Crates := { Primitives.plain with hkdf := fun _ s _ => s }

/-- The config of the sample's network on a device, with the master key if it holds it. -/
def Sample.stored (originatorSecret : Option SigningKey) : StoredConfig where
  name := "sample"
  subnet := (10, 99, 0, 0)
  secret := ⟨NET⟩
  originatorId := key 1
  originatorSecret

end Nullgate
