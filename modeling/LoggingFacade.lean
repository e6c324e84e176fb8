import LoggingFacade.Appender
import LoggingFacade.Appender.Device
import LoggingFacade.Appender.Frame
import LoggingFacade.Appender.Writing
import LoggingFacade.Backend
import LoggingFacade.Backend.Routing
import LoggingFacade.Bootstrap
import LoggingFacade.Charset
import LoggingFacade.CommandLine
import LoggingFacade.CommandLine.Help
import LoggingFacade.Component
import LoggingFacade.Config
import LoggingFacade.Config.Environment
import LoggingFacade.Config.Loader
import LoggingFacade.Declaration
import LoggingFacade.Declaration.Toml
import LoggingFacade.Diagnostic
import LoggingFacade.Diagnostic.Directive
import LoggingFacade.Diagnostic.Filter
import LoggingFacade.Diagnostic.Written
import LoggingFacade.Document
import LoggingFacade.Document.Json
import LoggingFacade.Document.Json.Printer
import LoggingFacade.Document.Moment
import LoggingFacade.Document.Toml
import LoggingFacade.Document.Toml.Edition
import LoggingFacade.Document.Toml.Moments
import LoggingFacade.Document.Toml.Printer
import LoggingFacade.Document.Toml.Quote
import LoggingFacade.Document.Toml.Scalar
import LoggingFacade.Document.Toml.Style
import LoggingFacade.Document.Toml.Tree
import LoggingFacade.Error
import LoggingFacade.Event
import LoggingFacade.Files.Path
import LoggingFacade.Files.System
import LoggingFacade.Files.Tree
import LoggingFacade.Inspection
import LoggingFacade.Layout
import LoggingFacade.Layout.Escape
import LoggingFacade.Layout.Xml
import LoggingFacade.Level
import LoggingFacade.Main
import LoggingFacade.Message
import LoggingFacade.Number.Binary64
import LoggingFacade.Number.Binary64.Stepwise
import LoggingFacade.Number.Integer
import LoggingFacade.Number.Radix
import LoggingFacade.Plugin
import LoggingFacade.Plugin.Arguments
import LoggingFacade.Plugin.Binding
import LoggingFacade.Plugin.Build
import LoggingFacade.Plugin.Coercion
import LoggingFacade.Plugin.Linked
import LoggingFacade.Proofs.Appender.Closing
import LoggingFacade.Proofs.Appender.Framing
import LoggingFacade.Proofs.Appender.HeaderFault
import LoggingFacade.Proofs.Appender.Memory
import LoggingFacade.Proofs.Appender.Published
import LoggingFacade.Proofs.Appender.Replacement
import LoggingFacade.Proofs.Appender.Separate
import LoggingFacade.Proofs.Backend.Installation
import LoggingFacade.Proofs.Backend.Sharing
import LoggingFacade.Proofs.Bootstrap.Linked
import LoggingFacade.Proofs.Bootstrap.Once
import LoggingFacade.Proofs.Bootstrap.Shutdown
import LoggingFacade.Proofs.Calls.Recording
import LoggingFacade.Proofs.Charset.Decoding
import LoggingFacade.Proofs.Charset.Exactness
import LoggingFacade.Proofs.Charset.Names
import LoggingFacade.Proofs.Config.RoundTrip
import LoggingFacade.Proofs.Config.Validity
import LoggingFacade.Proofs.Context.Delivery
import LoggingFacade.Proofs.Context.Interleaving
import LoggingFacade.Proofs.Context.Steps
import LoggingFacade.Proofs.Declaration.Given
import LoggingFacade.Proofs.Document.Sorted
import LoggingFacade.Proofs.Event.PlainText
import LoggingFacade.Proofs.Files.Depth
import LoggingFacade.Proofs.Files.Walk
import LoggingFacade.Proofs.Message.Placeholders
import LoggingFacade.Proofs.Number.Numeral
import LoggingFacade.Proofs.Plugin.Acceptance
import LoggingFacade.Proofs.Plugin.Accounting
import LoggingFacade.Proofs.Plugin.Assembly
import LoggingFacade.Proofs.Plugin.Attributes
import LoggingFacade.Proofs.Plugin.CallOrder
import LoggingFacade.Proofs.Plugin.Coercion
import LoggingFacade.Proofs.Plugin.Completeness
import LoggingFacade.Proofs.Plugin.Endings
import LoggingFacade.Proofs.Plugin.Invocations
import LoggingFacade.Proofs.Plugin.Likeness
import LoggingFacade.Proofs.Plugin.Lookup
import LoggingFacade.Proofs.Plugin.Merging
import LoggingFacade.Proofs.Plugin.Products
import LoggingFacade.Proofs.Plugin.Pruning
import LoggingFacade.Proofs.Plugin.Publication
import LoggingFacade.Proofs.Plugin.Reading
import LoggingFacade.Proofs.Plugin.Reported
import LoggingFacade.Proofs.Plugin.Scalars
import LoggingFacade.Proofs.Provider.Directories
import LoggingFacade.Proofs.Provider.Discovery
import LoggingFacade.Proofs.Provider.Requests
import LoggingFacade.Proofs.Provider.Selection
import LoggingFacade.Proofs.Provider.Steady
import LoggingFacade.Proofs.Provider.Story
import LoggingFacade.Proofs.Provider.Usable
import LoggingFacade.Proofs.Realm.Guards
import LoggingFacade.Proofs.Text.Letter
import LoggingFacade.Proofs.Text.Lossy
import LoggingFacade.Proofs.Text.Utf8
import LoggingFacade.Proofs.Thrown.Drafts
import LoggingFacade.Proofs.Thrown.Faults
import LoggingFacade.Proofs.Xml.Characters
import LoggingFacade.Proofs.Xml.Document
import LoggingFacade.Proofs.Xml.Event
import LoggingFacade.Proofs.Xml.Markup
import LoggingFacade.Proofs.Xml.Reader
import LoggingFacade.Proofs.Xml.Sections
import LoggingFacade.Proofs.Xml.Values
import LoggingFacade.Proofs.Xml.Written
import LoggingFacade.Provider.Catalog
import LoggingFacade.Provider.Directories
import LoggingFacade.Provider.Metadata
import LoggingFacade.Provider.Registry
import LoggingFacade.Provider.Source
import LoggingFacade.Provider.Version
import LoggingFacade.Realm
import LoggingFacade.Registrations
import LoggingFacade.Report
import LoggingFacade.Selected
import LoggingFacade.Selection
import LoggingFacade.Sink
import LoggingFacade.Store
import LoggingFacade.Text.Alphanumeric
import LoggingFacade.Text.Blank
import LoggingFacade.Text.Cut
import LoggingFacade.Text.Graphic
import LoggingFacade.Text.Hexadecimal
import LoggingFacade.Text.Letter
import LoggingFacade.Text.Lines
import LoggingFacade.Text.Lowercase
import LoggingFacade.Text.Padded
import LoggingFacade.Text.Pattern
import LoggingFacade.Text.Quoted
import LoggingFacade.Text.Utf8
import LoggingFacade.TextMap
import LoggingFacade.Thrown
import LoggingFacade.Traced
import LoggingFacade.World
