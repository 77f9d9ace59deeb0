import RequestBus.Amqp.Connection
import RequestBus.Amqp.Protocol
import RequestBus.Amqp.State
import RequestBus.Base64
import RequestBus.CommandLine.Execution
import RequestBus.CommandLine.Invocation
import RequestBus.CommandLine.Manual
import RequestBus.Connection.Error
import RequestBus.Connection.Fleet
import RequestBus.Connection.Identity
import RequestBus.Connection.Life
import RequestBus.Connection.Panel
import RequestBus.Connection.State
import RequestBus.Daemon
import RequestBus.Datum
import RequestBus.Decimal.Binary64
import RequestBus.Decimal.Natural
import RequestBus.Decimal.Notation
import RequestBus.Decimal.Shortest
import RequestBus.Dictionary
import RequestBus.Dispatch.Crew
import RequestBus.Dispatch.Message
import RequestBus.Dispatch.Pool
import RequestBus.Dispatch.Registry
import RequestBus.Dispatch.Reply
import RequestBus.Dispatch.Turns
import RequestBus.Dispatch.World
import RequestBus.Files.Path
import RequestBus.Files.Tree
import RequestBus.Health
import RequestBus.Json.Error
import RequestBus.Json.Lexical
import RequestBus.Json.Printer
import RequestBus.Json.Reader
import RequestBus.Json.Record
import RequestBus.Json.Skip
import RequestBus.Json.Value
import RequestBus.Main
import RequestBus.Message.Headers
import RequestBus.Message.Request
import RequestBus.Message.Response
import RequestBus.Message.Version
import RequestBus.Mqtt.Client
import RequestBus.Mqtt.Connection
import RequestBus.Router
import RequestBus.Settings.Address
import RequestBus.Settings.Basic
import RequestBus.Settings.Field
import RequestBus.Settings.Outline
import RequestBus.Settings.Override
import RequestBus.Settings.Schema
import RequestBus.Settings.Store
import RequestBus.Settings.Validity
import RequestBus.Supervisor.Basic
import RequestBus.Supervisor.Timeline
import RequestBus.Text.Ascii
import RequestBus.Text.Blank
import RequestBus.Text.Percent
import RequestBus.Text.Preview
import RequestBus.Text.Quoted
import RequestBus.Text.Split
import RequestBus.Text.Utf8
import RequestBus.Text.Visible
import RequestBus.Toml.Document
import RequestBus.Toml.Quoted
import RequestBus.Toml.Scalar
import RequestBus.Toml.Syntax
import RequestBus.Wire.Codec
import RequestBus.Wire.Flat
import RequestBus.Wire.Framed
import RequestBus.Wire.Malformed
import RequestBus.Wire.Parts
import RequestBus.Proofs.Base64
import RequestBus.Proofs.Connection.Farewell
import RequestBus.Proofs.Connection.Session
import RequestBus.Proofs.Amqp.Berth
import RequestBus.Proofs.Amqp.History
import RequestBus.Proofs.Amqp.Outage
import RequestBus.Proofs.Dispatch.Acceptance
import RequestBus.Proofs.Dispatch.Backpressure
import RequestBus.Proofs.Dispatch.Crew
import RequestBus.Proofs.Dispatch.Changes
import RequestBus.Proofs.Dispatch.Course
import RequestBus.Proofs.Dispatch.Exits
import RequestBus.Proofs.Dispatch.InFlight
import RequestBus.Proofs.Dispatch.Publications
import RequestBus.Proofs.Dispatch.Replies
import RequestBus.Proofs.Dispatch.Room
import RequestBus.Proofs.Dispatch.Runs
import RequestBus.Proofs.Dispatch.Settlement
import RequestBus.Proofs.Dispatch.Sites
import RequestBus.Proofs.Dispatch.Slots
import RequestBus.Proofs.Dispatch.Steps
import RequestBus.Proofs.Decimal.Range
import RequestBus.Proofs.Decimal.Rounding
import RequestBus.Proofs.Dictionary
import RequestBus.Proofs.Health
import RequestBus.Proofs.Json.Compact
import RequestBus.Proofs.Json.Forward
import RequestBus.Proofs.Json.Magnitude
import RequestBus.Proofs.Json.Members
import RequestBus.Proofs.Json.Gathering
import RequestBus.Proofs.Json.Number
import RequestBus.Proofs.Json.Peeking
import RequestBus.Proofs.Json.Records
import RequestBus.Proofs.Json.Skipping
import RequestBus.Proofs.Json.Syntax
import RequestBus.Proofs.Json.Text
import RequestBus.Proofs.Json.Spelling
import RequestBus.Proofs.Json.Reading
import RequestBus.Proofs.Json.Values
import RequestBus.Proofs.Supervisor.Restarts
import RequestBus.Proofs.Text.Order
import RequestBus.Proofs.Text.Utf8
import RequestBus.Proofs.Wire.Agreement
import RequestBus.Proofs.Wire.Content
import RequestBus.Proofs.Wire.Parts
import RequestBus.Proofs.Wire.Peek
import RequestBus.Proofs.Wire.Reply
import RequestBus.Proofs.Dispatch.Entries
import RequestBus.Proofs.Dispatch.Faults
import RequestBus.Proofs.Dispatch.Recency
import RequestBus.Proofs.Dispatch.Identity
import RequestBus.Proofs.Dispatch.Refusals
import RequestBus.Proofs.Message.Headers
import RequestBus.Proofs.Wire.Request
import RequestBus.Proofs.Wire.RoundTrip
import RequestBus.Proofs.Router
import RequestBus.Proofs.Message.Version
import RequestBus.Proofs.Settings.Address
import RequestBus.Proofs.Text.Ascii
import RequestBus.Proofs.Text.Blank
import RequestBus.Proofs.Text.Percent
import RequestBus.Proofs.Text.Split
import RequestBus.Proofs.Text.Lenient
import RequestBus.Proofs.Text.Preview
import RequestBus.Proofs.Settings.Effective
import RequestBus.Proofs.Settings.Reload
import RequestBus.Proofs.Settings.Sections
import RequestBus.Proofs.Dispatch.Sharing
import RequestBus.Proofs.Connection.Fleet
import RequestBus.Proofs.Toml.Quoted
import RequestBus.Proofs.Toml.Scalar
import RequestBus.Proofs.Toml.Document
