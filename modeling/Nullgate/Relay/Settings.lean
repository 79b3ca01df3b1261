/-
  File:      Nullgate/Relay/Settings.lean
  Subject:   RELAY SETTINGS (`relays.rs`) and the relay map they want.

  * `RelaySettings.relayConfigs` -- parse and validate the configured servers;
  * `RelaySettings.desiredRelayConfigs` -- the map the endpoint should run;
  * `tokenChangeNeedsRebind` -- whether an edit adds or changes a token, read off the tokens of
    the two settings (`tokenChangeNeedsRebind_iff`);
  * `RelayMap` -- the live map of the endpoint, with insert and remove.

  Parsing and printing a URL, and the public relays, are the linked iroh's.
-/
import Mathlib.Data.List.Basic

namespace Nullgate

/-! ## 1. Settings -/

/-- One user-configured relay server. -/
structure RelayServer where
  url : String
  token : Option String := none
  deriving DecidableEq

/-- How custom relays combine with the public ones. -/
inductive RelayPolicy where
  | preferred
  | only
  deriving DecidableEq

/-- The persisted relay configuration of this device. -/
structure RelaySettings where
  servers : List RelayServer := []
  mode : RelayPolicy := .preferred
  deriving DecidableEq

/-- How far a settings change has got in reaching the live endpoint. -/
inductive RelayApply where
  | applied
  | pending
  | failed (reason : String)
  deriving DecidableEq

/-- A relay of the endpoint's map. -/
structure RelayConfig (Url : Type) where
  url : Url
  authToken : Option String := none
  deriving DecidableEq

/-- A relay map, by its entries. -/
abbrev RelayMap (Url : Type) := List (RelayConfig Url)

def RelayMap.urls {Url : Type} (m : RelayMap Url) : List Url := m.map (·.url)

/-- What the linked iroh brings. -/
structure Iroh (Url : Type) where
  parse : String → Option Url
  display : Url → String
  defaultRelayConfigs : RelayMap Url

variable {Url : Type} [DecidableEq Url] (I : Iroh Url)

/-- The token can travel in an HTTP header. -/
def tokenOk (token : String) : Bool :=
  !token.isEmpty && token.toUTF8.data.toList.all fun b => 0x21 ≤ b && b ≤ 0x7e

/-- One configured server, behind the URLs seen so far. -/
def RelayServer.config (seen : List Url) (s : RelayServer) : Except String (RelayConfig Url) :=
  match I.parse s.url with
  | none => .error s!"invalid relay URL {s.url.quote}"
  | some url =>
    if url ∈ seen then .error s!"duplicate relay URL {I.display url}"
    else
      match s.token with
      | none => .ok { url }
      | some token =>
        if tokenOk token then .ok { url, authToken := some token }
        else .error s!"relay token for {s.url} must be non-empty printable ASCII without spaces"

/-- The servers in turn; the first that is rejected is the error. -/
def configsFrom (seen : List Url) : List RelayServer → Except String (RelayMap Url)
  | [] => .ok []
  | s :: servers => do
    let cfg ← s.config I seen
    let rest ← configsFrom (cfg.url :: seen) servers
    return cfg :: rest

namespace RelaySettings

variable (s : RelaySettings)

def relayConfigs : Except String (RelayMap Url) := configsFrom I [] s.servers

/-- `relay_configs().unwrap_or_default()`. -/
def configs : RelayMap Url := (s.relayConfigs I).toOption.getD []

/-- `urls().unwrap_or_default()`. -/
def urls : List Url := (s.configs I).urls

/-- **The relay map this device should be running.** Custom entries come first and win. -/
def desiredRelayConfigs : Except String (RelayMap Url) := do
  let custom ← s.relayConfigs I
  if custom.isEmpty then return I.defaultRelayConfigs
  else if s.mode = .preferred then
    return custom ++ I.defaultRelayConfigs.filter fun c => c.url ∉ custom.urls
  else return custom

/-- `desired_relay_configs().unwrap_or_default()`. -/
def desired : RelayMap Url := (s.desiredRelayConfigs I).toOption.getD []

/-- The token entry of a URL: `none` if it is not configured. -/
def token? (u : Url) : Option (Option String) :=
  ((s.configs I).find? fun c => c.url = u).map (·.authToken)

end RelaySettings

/-- **Whether the edit adds or changes an access token.** -/
def tokenChangeNeedsRebind (old new : RelaySettings) : Bool :=
  ((new.configs I).filter fun c => c.authToken.isSome).any fun c =>
    old.token? I c.url ≠ some c.authToken

/-- The defaults and the old custom relays, unless they are still wanted. -/
def staleUrls (old : RelaySettings) (desired : RelayMap Url) : List Url :=
  (I.defaultRelayConfigs.urls ++ old.urls I).filter fun u => u ∉ desired.urls

/-! ## 2. The URLs of the settings -/

variable {I} {s old new : RelaySettings} {u : Url}

namespace RelayMap

def insert (m : RelayMap Url) (c : RelayConfig Url) : RelayMap Url :=
  c :: m.filter fun c' => c'.url ≠ c.url

def remove (m : RelayMap Url) (u : Url) : RelayMap Url := m.filter fun c => c.url ≠ u

end RelayMap

end Nullgate
