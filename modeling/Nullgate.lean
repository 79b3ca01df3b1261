import Nullgate.Lib.Bytes
import Nullgate.Lib.Canonical
import Nullgate.Lib.Fold
import Nullgate.Lib.Landing
import Nullgate.Lib.Codec
import Nullgate.Lib.Cbor
import Nullgate.Lib.Base32
import Nullgate.Lib.Tasks
import Nullgate.Lib.Probing
import Nullgate.Lib.Schedule
import Nullgate.Lib.Replicated
import Nullgate.Lib.Wakeup
import Nullgate.Lib.Keyed
import Nullgate.Roster.Types
import Nullgate.Roster.Build
import Nullgate.Roster.Order
import Nullgate.Roster.Convergence
import Nullgate.Roster.Rules
import Nullgate.Roster.Inert
import Nullgate.Roster.Access
import Nullgate.Roster.Controllers
import Nullgate.Roster.Provenance
import Nullgate.Roster.Invites
import Nullgate.Roster.Behind
import Nullgate.Roster.Addresses
import Nullgate.Engine.State
import Nullgate.Engine.Tick
import Nullgate.Engine.Admin
import Nullgate.Engine.Publish
import Nullgate.Engine.Authority
import Nullgate.Engine.Dissolve
import Nullgate.Admission.Handshake
import Nullgate.Admission.Reflection
import Nullgate.Admission.Link
import Nullgate.Admission.Agreement
import Nullgate.Membership.Wire
import Nullgate.Membership.Document
import Nullgate.Membership.RoundTrip
import Nullgate.Membership.Ticket
import Nullgate.Engine.Audit
import Nullgate.DataPlane.Router
import Nullgate.Roster.Hosts
import Nullgate.Roster.Survivors
import Nullgate.DataPlane.Conntrack
import Nullgate.DataPlane.Pump
import Nullgate.DataPlane.OneWay
import Nullgate.Mesh.Register
import Nullgate.Mesh.Duplicate
import Nullgate.Presence.Tracker
import Nullgate.Engine.Runtime
import Nullgate.Engine.Stretches
import Nullgate.Engine.Evicted
import Nullgate.Mesh.Ghosts
import Nullgate.Presence.Online
import Nullgate.Engine.Offline
import Nullgate.Engine.Address
import Nullgate.Relay.Settings
import Nullgate.Relay.Apply
import Nullgate.Relay.Converge
import Nullgate.Relay.Tokens
import Nullgate.Lifecycle.Device
import Nullgate.Lifecycle.Jobs
import Nullgate.Lifecycle.Effects
import Nullgate.Lifecycle.Recovery
import Nullgate.Lifecycle.Sticky
import Nullgate.Lifecycle.Leaving
import Nullgate.Lifecycle.Rotation
import Nullgate.Lifecycle.OneNetwork
import Nullgate.Lifecycle.Founding
import Nullgate.Lifecycle.Latched
import Nullgate.Lifecycle.Overtaken
import Nullgate.Lifecycle.Secrets
import Nullgate.Lifecycle.RecoveryCode
import Nullgate.Lib.Newest
import Nullgate.Presence.Gossip
import Nullgate.Lib.Broadcast
import Nullgate.Daemon.Subscribe
import Nullgate.Daemon.Power
import Nullgate.Membership.Approval
import Nullgate.Membership.Joining
import Nullgate.Membership.Synced
import Nullgate.Membership.Replicas
import Nullgate.Engine.Wakeups
import Nullgate.Mesh.Backoff
import Nullgate.Mesh.Dials
import Nullgate.DataPlane.FlowTrace
import Nullgate.Lib.Choice
import Nullgate.Relay.Select
import Nullgate.Mesh.Displaced
import Nullgate.Mesh.Connected
import Nullgate.Lib.OnesComplement
import Nullgate.DataPlane.Options
import Nullgate.DataPlane.Clamp
import Nullgate.DataPlane.Delivery
import Nullgate.DataPlane.Fragments
import Nullgate.Admission.Digits
import Nullgate.Daemon.Frames
import Nullgate.Daemon.Pipeline
import Nullgate.Presence.Address
import Nullgate.Presence.Silent
import Nullgate.Engine.Reseed
import Nullgate.Engine.Failing
import Nullgate.Gui.Notify
import Nullgate.Engine.Status
import Nullgate.Lib.Replace
import Nullgate.Gui.Actions
import Nullgate.Gui.MainPage
import Nullgate.Gui.Reconnect
import Nullgate.Lib.Shell
import Nullgate.Gui.Script
import Nullgate.Mobile.Routing
import Nullgate.Lib.Fair
import Nullgate.Mesh.Reaching
