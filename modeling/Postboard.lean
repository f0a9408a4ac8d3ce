import Postboard.Assoc
import Postboard.Config.Basic
import Postboard.Config.Directory
import Postboard.Config.Error
import Postboard.Config.Layer
import Postboard.Config.Secret
import Postboard.Config.Text
import Postboard.Database.Connect
import Postboard.Database.Direct
import Postboard.Database.Error
import Postboard.Database.Gateway
import Postboard.Database.Server
import Postboard.Database.Session
import Postboard.Database.Statement
import Postboard.Database.Status
import Postboard.Digest.Sha256
import Postboard.Http.Accept
import Postboard.Http.Form
import Postboard.Http.Header
import Postboard.Http.MediaType
import Postboard.Http.Message
import Postboard.Http.Uri
import Postboard.Json.Basic
import Postboard.Json.Fault
import Postboard.Json.Merge
import Postboard.Json.Parser
import Postboard.Json.Pointer
import Postboard.Json.Printer
import Postboard.Json.Record
import Postboard.Json.Skip
import Postboard.Json.Struct
import Postboard.Json.Typed
import Postboard.Main
import Postboard.Network
import Postboard.Number.Double
import Postboard.Number.Format
import Postboard.Number.Scientific
import Postboard.Number.Shortest
import Postboard.Post.Draft
import Postboard.Post.Gateway
import Postboard.Post.Reading
import Postboard.Proofs.Assoc
import Postboard.Proofs.Config.Check
import Postboard.Proofs.Config.Defaults
import Postboard.Proofs.Config.Environment
import Postboard.Proofs.Config.EnvironmentLayer
import Postboard.Proofs.Config.Hash
import Postboard.Proofs.Config.Layering
import Postboard.Proofs.Config.Load
import Postboard.Proofs.Config.Overlay
import Postboard.Proofs.Config.Redaction
import Postboard.Proofs.Config.Relaid
import Postboard.Proofs.Config.SecretScan
import Postboard.Proofs.Database.Deletion
import Postboard.Proofs.Database.Exchange
import Postboard.Proofs.Digest.Sha256
import Postboard.Proofs.Http.Form
import Postboard.Proofs.Http.Negotiation
import Postboard.Proofs.Http.Rewording
import Postboard.Proofs.Http.Weight
import Postboard.Proofs.Json.Canonical
import Postboard.Proofs.Json.Layered
import Postboard.Proofs.Json.Literal
import Postboard.Proofs.Json.Merge
import Postboard.Proofs.Json.Nested
import Postboard.Proofs.Json.Path
import Postboard.Proofs.Json.Pointer
import Postboard.Proofs.Json.Printed
import Postboard.Proofs.Json.Record
import Postboard.Proofs.Json.Settled
import Postboard.Proofs.Json.Struct
import Postboard.Proofs.Json.Written
import Postboard.Proofs.LastWord
import Postboard.Proofs.Number.Format
import Postboard.Proofs.Number.Rounding
import Postboard.Proofs.Number.Shortest
import Postboard.Proofs.Post.Draft
import Postboard.Proofs.Query.Forms
import Postboard.Proofs.Query.Limits
import Postboard.Proofs.Query.RawLimit
import Postboard.Proofs.Reactive.Envelope
import Postboard.Proofs.Reactive.Excerpt
import Postboard.Proofs.Reactive.Flat
import Postboard.Proofs.Reactive.Remote
import Postboard.Proofs.Reactive.Requests
import Postboard.Proofs.Reactive.Token
import Postboard.Proofs.Service.Exchange
import Postboard.Proofs.Service.Failure
import Postboard.Proofs.Service.Limits
import Postboard.Proofs.Service.Listing
import Postboard.Proofs.Service.Location
import Postboard.Proofs.Service.OverStore
import Postboard.Proofs.Service.Posting
import Postboard.Proofs.Service.Routes
import Postboard.Proofs.Service.ScriptedReads
import Postboard.Proofs.Service.Serving
import Postboard.Proofs.Service.Streams
import Postboard.Proofs.Store.Consistent
import Postboard.Proofs.Store.Follows
import Postboard.Proofs.Store.History
import Postboard.Proofs.Store.Integrity
import Postboard.Proofs.Store.Operations
import Postboard.Proofs.Store.Printed
import Postboard.Proofs.Store.Raised
import Postboard.Proofs.Store.Ranking
import Postboard.Proofs.Store.Reached
import Postboard.Proofs.Store.Run
import Postboard.Proofs.Store.Session
import Postboard.Proofs.Store.Slot
import Postboard.Proofs.Store.Streams
import Postboard.Proofs.Store.ViewOfHistory
import Postboard.Proofs.Text.Blank
import Postboard.Proofs.Text.Boundary
import Postboard.Proofs.Text.Bytes
import Postboard.Proofs.Text.Decimal
import Postboard.Proofs.Text.Infix
import Postboard.Proofs.Text.Numeral
import Postboard.Proofs.Text.Split
import Postboard.Proofs.Text.Utf8
import Postboard.Proofs.Yaml.Document
import Postboard.Proofs.Yaml.Reordered
import Postboard.Query.Basic
import Postboard.Query.Reading
import Postboard.Reactive.Client
import Postboard.Reactive.Envelope
import Postboard.Reactive.Error
import Postboard.Reactive.Handle
import Postboard.Reactive.Mode
import Postboard.Reactive.Remote
import Postboard.Reactive.Remote.Script
import Postboard.Service.Assembly
import Postboard.Service.Basic
import Postboard.Service.Failure
import Postboard.Service.Router
import Postboard.Store.Basic
import Postboard.Store.View
import Postboard.Text.Ascii
import Postboard.Text.Blank
import Postboard.Text.Boundary
import Postboard.Text.Decimal
import Postboard.Text.Printable
import Postboard.Text.Quoted
import Postboard.Text.Utf8
import Postboard.Yaml.Cursor
import Postboard.Yaml.Document
import Postboard.Yaml.Event
import Postboard.Yaml.Resolve
import Postboard.Yaml.Token
import Postboard.Yaml.Token.Scalar
import Postboard.Yaml.Token.Scan
import Postboard.Yaml.Token.Tag
import Postboard.Yaml.Value
import Postboard.Proofs.Text.Boundary
import Postboard.Proofs.Reactive.Excerpt
import Postboard.Proofs.Reactive.Flat
