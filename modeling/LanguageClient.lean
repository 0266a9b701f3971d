import LanguageClient.Command.Basic
import LanguageClient.Command.Grammar
import LanguageClient.Command.Query
import LanguageClient.Command.Run
import LanguageClient.Command.Stage
import LanguageClient.Connection.Basic
import LanguageClient.Connection.Call
import LanguageClient.Document.Basic
import LanguageClient.Document.Language
import LanguageClient.Document.Location
import LanguageClient.Document.Position
import LanguageClient.Document.Sync
import LanguageClient.Error
import LanguageClient.Glob
import LanguageClient.Host.Basic
import LanguageClient.Host.Files
import LanguageClient.Json.Basic
import LanguageClient.Json.Parser
import LanguageClient.Json.Payload
import LanguageClient.Json.Printer
import LanguageClient.Main
import LanguageClient.Manager
import LanguageClient.Number.Binary64
import LanguageClient.Path
import LanguageClient.Protocol.Catalogue
import LanguageClient.Protocol.Diagnostic
import LanguageClient.Protocol.Initialize
import LanguageClient.Protocol.Message
import LanguageClient.Protocol.Registration
import LanguageClient.Protocol.TextDocument
import LanguageClient.Registry
import LanguageClient.Report
import LanguageClient.Session.Basic
import LanguageClient.Session.Document
import LanguageClient.Session.Handler
import LanguageClient.Session.Lifecycle
import LanguageClient.Session.Step
import LanguageClient.Settings.Basic
import LanguageClient.Settings.Server
import LanguageClient.Settings.Store
import LanguageClient.Settings.Timeout
import LanguageClient.Table
import LanguageClient.Text.Lowercase
import LanguageClient.Text.Numeral
import LanguageClient.Text.Replace
import LanguageClient.Text.Utf8
import LanguageClient.Toml.Document
import LanguageClient.Toml.Scalar
import LanguageClient.Toml.Table
import LanguageClient.Toml.Text
import LanguageClient.Trial.CommandLine
import LanguageClient.Trial.Connection
import LanguageClient.Trial.Manager
import LanguageClient.Trial.Schedule
import LanguageClient.Trial.ScriptedServer
import LanguageClient.Uri
import LanguageClient.Wire.Frame
import LanguageClient.Workspace.FileTree
import LanguageClient.Workspace.Ignore
import LanguageClient.Workspace.Walk
import LanguageClient.Proofs.Command.Diagnostics
import LanguageClient.Proofs.Command.Places
import LanguageClient.Proofs.Machine
import LanguageClient.Proofs.Connection.Effect
import LanguageClient.Proofs.Connection.Correlated
import LanguageClient.Proofs.Connection.Dialogue
import LanguageClient.Proofs.Connection.Outcome
import LanguageClient.Proofs.Connection.Correlation
import LanguageClient.Proofs.Connection.Turn
import LanguageClient.Proofs.Connection.Channel
import LanguageClient.Proofs.Connection.Termination
import LanguageClient.Proofs.Connection.Exchange
import LanguageClient.Proofs.Connection.Cancellation
import LanguageClient.Proofs.Document.Grammar
import LanguageClient.Proofs.Document.Telling
import LanguageClient.Proofs.Document.LastChange
import LanguageClient.Proofs.Document.Edition
import LanguageClient.Proofs.Host.Documents
import LanguageClient.Proofs.Host.Editing
import LanguageClient.Proofs.Host.Reopening
import LanguageClient.Proofs.Session.Life
import LanguageClient.Proofs.Session.Start
import LanguageClient.Proofs.Session.Traffic
import LanguageClient.Proofs.Session.Serve
import LanguageClient.Proofs.Session.Scene
import LanguageClient.Proofs.Session.Run
import LanguageClient.Proofs.Session.Origin
import LanguageClient.Proofs.Session.Calls
import LanguageClient.Proofs.Session.Writing
import LanguageClient.Proofs.Session.Tables
import LanguageClient.Proofs.Session.States
import LanguageClient.Proofs.Session.LifeCycle
import LanguageClient.Proofs.Session.Surfaced
import LanguageClient.Proofs.Session.Lock
import LanguageClient.Proofs.Session.Conversation
import LanguageClient.Proofs.Session.Utterance
import LanguageClient.Proofs.Session.Stage
import LanguageClient.Proofs.Session.Agreement
import LanguageClient.Proofs.Session.Negotiation
import LanguageClient.Proofs.Session.Replay
import LanguageClient.Proofs.Session.Attached
import LanguageClient.Proofs.Session.Staged
import LanguageClient.Proofs.Session.Coalescing
import LanguageClient.Proofs.Session.DocumentTraffic
import LanguageClient.Proofs.Session.Following
import LanguageClient.Proofs.Session.Relay
import LanguageClient.Proofs.Session.HostAgreement
import LanguageClient.Proofs.Session.Reopening
import LanguageClient.Proofs.Session.Teardown
import LanguageClient.Proofs.Session.StartOutcome
import LanguageClient.Proofs.Session.Farewell
import LanguageClient.Proofs.Session.Shutdown
import LanguageClient.Proofs.Session.Window
import LanguageClient.Proofs.Sync.History
import LanguageClient.Proofs.Sync.Staging
import LanguageClient.Proofs.Sync.LastEdit
import LanguageClient.Proofs.Sync.VersionOrder
import LanguageClient.Proofs.Text.Blank
import LanguageClient.Proofs.Text.Numeral
import LanguageClient.Proofs.Text.Utf8
import LanguageClient.Proofs.Wire.Header
import LanguageClient.Proofs.Wire.Frames
import LanguageClient.Proofs.Wire.Resync
import LanguageClient.Proofs.Json.Members
import LanguageClient.Proofs.Json.Number
import LanguageClient.Proofs.Json.Structure
import LanguageClient.Proofs.Json.Held
import LanguageClient.Proofs.Json.Reading
import LanguageClient.Proofs.Json.Record
import LanguageClient.Proofs.Protocol.RoundTrip
import LanguageClient.Proofs.Connection.Errors
import LanguageClient.Proofs.Session.Refusal
import LanguageClient.Proofs.Session.Handshake
import LanguageClient.Proofs.Session.Retrying
import LanguageClient.Proofs.Connection.Intake
import LanguageClient.Proofs.Session.Handling
import LanguageClient.Proofs.Session.Registering
import LanguageClient.Proofs.Json.Faithful
import LanguageClient.Proofs.Document.Ledger
import LanguageClient.Proofs.Session.Saving
import LanguageClient.Proofs.Session.SavedText
import LanguageClient.Proofs.Session.Offering
import LanguageClient.Proofs.Session.FilesService
import LanguageClient.Proofs.Session.Covering
import LanguageClient.Proofs.Session.Feature
import LanguageClient.Proofs.Session.FeatureProgress
import LanguageClient.Proofs.Session.Retaining
import LanguageClient.Proofs.Session.Gating
import LanguageClient.Proofs.Host.Records
import LanguageClient.Proofs.Host.Versions
import LanguageClient.Proofs.Session.Hosted
import LanguageClient.Proofs.Session.Stamps
import LanguageClient.Proofs.Session.Versions
import LanguageClient.Proofs.Manager.Ensemble
import LanguageClient.Proofs.Session.Publishing
import LanguageClient.Proofs.Manager.Diagnostics
import LanguageClient.Proofs.Manager.Alone
import LanguageClient.Proofs.Document.Payloads
import LanguageClient.Proofs.Protocol.Payloads
import LanguageClient.Proofs.Protocol.NormalForm
import LanguageClient.Proofs.Uri.Escapes
import LanguageClient.Proofs.Uri.RoundTrip
import LanguageClient.Proofs.Document.Location
import LanguageClient.Proofs.Wire.Taking
import LanguageClient.Proofs.Wire.Progress
import LanguageClient.Proofs.Connection.Round
import LanguageClient.Proofs.Connection.Reading
import LanguageClient.Proofs.Connection.Dispatch
import LanguageClient.Proofs.Workspace.Tree
import LanguageClient.Proofs.Workspace.Walk
import LanguageClient.Proofs.Workspace.Listing
import LanguageClient.Proofs.Workspace.Scope
