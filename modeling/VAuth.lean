import VAuth.Process.Basic
import VAuth.Process.Wp
import VAuth.Process.Run
import VAuth.Process.Team
import VAuth.Process.Embed
import VAuth.Process.Clock
import VAuth.Process.Trace
import VAuth.Process.Lockstep
import VAuth.Exception
import VAuth.Format.Cbor
import VAuth.Format.Canonical
import VAuth.Format.Separable
import VAuth.Format.Members
import VAuth.Store.Hex
import VAuth.Store.Json
import VAuth.Store.Credential
import VAuth.Store.Envelope
import VAuth.Store.Rendering
import VAuth.Store.File
import VAuth.Store.CredentialStore
import VAuth.Store.Query
import VAuth.Store.Commit
import VAuth.Store.Load
import VAuth.Store.Runs
import VAuth.Store.Serialization
import VAuth.Store.Memory
import VAuth.Store.CrashConsistency
import VAuth.Store.Security
import VAuth.Store.Provisioning
import VAuth.Store.Authorization
import VAuth.Store.FailedWrite
import VAuth.Store.Representation
import VAuth.Store.Size
import VAuth.Store.Capacity
import VAuth.Store.Texts
import VAuth.Store.Isolation
import VAuth.Store.Selection
import VAuth.Store.Trail
import VAuth.Store.Rollback
import VAuth.Interaction.User
import VAuth.Ctap.Request
import VAuth.Ctap.Decoding
import VAuth.Ctap.Grammar
import VAuth.Ctap.Acceptance
import VAuth.Ctap.Response
import VAuth.Ctap.Encoder
import VAuth.Ctap.Handler
import VAuth.Ctap.Algorithm
import VAuth.Ctap.Ceremony
import VAuth.Ctap.Command
import VAuth.Ctap.Authenticator
import VAuth.Ctap.SignCount
import VAuth.Ctap.History
import VAuth.Ctap.Consent
import VAuth.Ctap.Commits
import VAuth.Ctap.Storable
import VAuth.Hid.Framing
import VAuth.Hid.RoundTrip
import VAuth.Hid.Assembly
import VAuth.Hid.EventLoop
import VAuth.Hid.LoopAssembly
import VAuth.Hid.TaskProtocol
import VAuth.Hid.LoopInvariant
import VAuth.Hid.LoopRounds
import VAuth.Hid.OneTask
import VAuth.Hid.Continuation
import VAuth.Hid.ForeignTraffic
import VAuth.Ctap.Privacy
import VAuth.Ctap.Discovery
import VAuth.Verifier.Protocol
import VAuth.Verifier.DisplayText
import VAuth.Verifier.Codec
import VAuth.Verifier.Conversation
import VAuth.Verifier.Client
import VAuth.Verifier.Network
import VAuth.Verifier.Broker
import VAuth.Verifier.Worker
import VAuth.Verifier.Talk
import VAuth.Verifier.Conduct
import VAuth.Verifier.Authenticity
import VAuth.Verifier.Agreement
import VAuth.Verifier.Delivery
import VAuth.Dbus.InteractionRegistry
import VAuth.Dbus.AgentService
import VAuth.Dbus.Histories
import VAuth.Dbus.PublishedStates
import VAuth.Dbus.Secrets
import VAuth.Dbus.Waits
import VAuth.Dbus.SignalTexts
import VAuth.Dbus.Registration
import VAuth.Dbus.Binding
import VAuth.Interaction.PamUserInteraction
import VAuth.Interaction.Stage
import VAuth.Interaction.Upkeep
import VAuth.Interaction.Cancellation
import VAuth.Client.InteractionModel
import VAuth.Interaction.Tracking
import VAuth.Vauthctl.Commands
import VAuth.System.Machine
import VAuth.System.Sessions
import VAuth.System.Exclusion
import VAuth.System.Recovery
