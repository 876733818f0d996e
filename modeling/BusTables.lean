import BusTables.ByteOrderMark
import BusTables.CommandLine.Directory
import BusTables.CommandLine.Host
import BusTables.CommandLine.Request
import BusTables.CommandLine.Session
import BusTables.Configuration
import BusTables.Configuration.Builder
import BusTables.Conversion
import BusTables.Declaration
import BusTables.Document
import BusTables.Element
import BusTables.Element.Path
import BusTables.Emission
import BusTables.Failure
import BusTables.Initializer.Item
import BusTables.Initializer.Layout
import BusTables.Initializer.Writer
import BusTables.Log
import BusTables.Main
import BusTables.Numeral
import BusTables.Payload
import BusTables.Text.Blank
import BusTables.Text.Bytes
import BusTables.Text.Digits
import BusTables.Text.Quoted
import BusTables.Traced
import BusTables.Xml.Character
import BusTables.Xml.Doctype
import BusTables.Xml.Encoding
import BusTables.Xml.Event
import BusTables.Xml.Name
import BusTables.Xml.Reader
import BusTables.Xml.Reader.Content
import BusTables.Xml.Reader.Prolog
import BusTables.Xml.Reader.State
import BusTables.Xml.Reader.Tags
import BusTables.Xml.Reader.Values
import BusTables.Xml.Reading
import BusTables.Xml.Reference
import BusTables.Xml.Spelling
import BusTables.Xml.Token
import BusTables.Proofs.Initializer.Layout
import BusTables.Proofs.Initializer.Lines
import BusTables.Proofs.Declaration.Legible
import BusTables.Proofs.Emission.Text
import BusTables.Proofs.Declaration.Fields
import BusTables.Proofs.Emission.Pointers
import BusTables.Proofs.Configuration.Order
import BusTables.Proofs.Declaration.Outline
import BusTables.Proofs.Emission.Faithful
import BusTables.Proofs.Initializer.Grammar
import BusTables.Proofs.Emission.WellFormed
import BusTables.Proofs.Configuration.Acceptance
import BusTables.Proofs.Configuration.Checks
import BusTables.Proofs.Configuration.Described
import BusTables.Proofs.Configuration.Disabled
import BusTables.Proofs.Xml.Bounded
import BusTables.Proofs.Conversion.Complete
import BusTables.Proofs.Conversion.Addresses
import BusTables.Proofs.Conversion.Capacity
import BusTables.Proofs.Conversion.Cut
import BusTables.Proofs.Conversion.Sink
import BusTables.Proofs.Emission.Comments
import BusTables.Proofs.Initializer.Agreement
import BusTables.Proofs.Initializer.Separators
import BusTables.Proofs.Declaration.Reference
import BusTables.Proofs.Emission.References
import BusTables.Proofs.Emission.Order
import BusTables.Proofs.Configuration.Widths
import BusTables.Proofs.Element.Pruning
import BusTables.Proofs.Element.Assembly
import BusTables.Proofs.Element.Places
import BusTables.Proofs.Payload.Pairs
import BusTables.Proofs.Configuration.Payloads
import BusTables.Proofs.Initializer.Directives
import BusTables.Proofs.Element.Reordering
import BusTables.Proofs.Configuration.Ignored
import BusTables.Proofs.Emission.Uncommented
import BusTables.Proofs.Text.Remarks
import BusTables.Proofs.Emission.Remarks
import BusTables.Proofs.Numeral.Grammar
import BusTables.Proofs.Numeral.Slices
import BusTables.Proofs.CommandLine.Directory
import BusTables.Proofs.CommandLine.Runs
import BusTables.Proofs.CommandLine.Marks
import BusTables.Proofs.CommandLine.Discretion
import BusTables.Proofs.CommandLine.Agreement
import BusTables.Proofs.Configuration.Messages
import BusTables.Proofs.CommandLine.Diagnostics
import BusTables.Proofs.Configuration.Wrapped
import BusTables.Proofs.Initializer.Braces
import BusTables.Proofs.Configuration.Reports
import BusTables.Proofs.Conversion.Log
import BusTables.Proofs.Configuration.Words
import BusTables.Proofs.Emission.Passes
