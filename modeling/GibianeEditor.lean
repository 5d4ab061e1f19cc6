import GibianeEditor.Unicode.Alphabetic
import GibianeEditor.Unicode.CaseIgnorable
import GibianeEditor.Unicode.Cased
import GibianeEditor.Unicode.GraphemeExtend
import GibianeEditor.Unicode.LowerCase
import GibianeEditor.Unicode.Numeric
import GibianeEditor.Unicode.Printable
import GibianeEditor.Unicode.UpperCase
import GibianeEditor.Unicode.WhiteSpace
import GibianeEditor.Unicode.UpperCase.Fixed
import GibianeEditor.Text.Basic
import GibianeEditor.Text.Change
import GibianeEditor.Text.Word
import GibianeEditor.Name
import GibianeEditor.Source.Lexeme
import GibianeEditor.Source.Declaration
import GibianeEditor.OrderedMap
import GibianeEditor.Symbol.Basic
import GibianeEditor.Symbol.Catalog
import GibianeEditor.Symbol.Index
import GibianeEditor.Symbol.Listing
import GibianeEditor.Symbol.Slots
import GibianeEditor.Text.Highlight
import GibianeEditor.Text.Wire
import GibianeEditor.Json.Basic
import GibianeEditor.Json.Parser
import GibianeEditor.Json.Printer
import GibianeEditor.Json.Record
import GibianeEditor.Uri.Basic
import GibianeEditor.Protocol.Description
import GibianeEditor.Protocol.Notice
import GibianeEditor.Protocol.Query
import GibianeEditor.Log.Event
import GibianeEditor.Log.Forwarding
import GibianeEditor.Protocol.Answer
import GibianeEditor.Protocol.Initialize
import GibianeEditor.Session.Basic
import GibianeEditor.Session.Outbox
import GibianeEditor.Log.Filter
import GibianeEditor.Protocol.Frame
import GibianeEditor.Symbol.Json
import GibianeEditor.CommandLine.Basic
import GibianeEditor.CommandLine.Help
import GibianeEditor.CommandLine.Reader
import GibianeEditor.FileTree
import GibianeEditor.Program
import GibianeEditor.Main
import GibianeEditor.Proofs.Unicode.LowerCase
import GibianeEditor.Proofs.OrderedMap
import GibianeEditor.Proofs.Source.Separation
import GibianeEditor.Proofs.Source.Layout
import GibianeEditor.Proofs.Source.Occurrences
import GibianeEditor.Proofs.Text.Substitution
import GibianeEditor.Proofs.Source.Relocation
import GibianeEditor.Proofs.Source.RawLine
import GibianeEditor.Proofs.Source.Renaming
import GibianeEditor.Proofs.Symbol.Table
import GibianeEditor.Proofs.Symbol.Rename
import GibianeEditor.Proofs.Session.Agreement
import GibianeEditor.Proofs.Session.Sync
import GibianeEditor.Proofs.Text.Cut
import GibianeEditor.Proofs.Text.Word
import GibianeEditor.Proofs.Source.Word
import GibianeEditor.Proofs.Symbol.Query
import GibianeEditor.Proofs.Symbol.Slots
import GibianeEditor.Proofs.Session.Reply
import GibianeEditor.Proofs.Session.Cursor
import GibianeEditor.Proofs.Session.Rename
import GibianeEditor.Proofs.Text.Span
import GibianeEditor.Proofs.Text.Offset
import GibianeEditor.Proofs.Text.WholeWord
import GibianeEditor.Proofs.Text.Column
import GibianeEditor.Proofs.Text.Highlight
import GibianeEditor.Proofs.Session.Highlight
import GibianeEditor.Proofs.Protocol.Naming
import GibianeEditor.Proofs.Session.Isolation
import GibianeEditor.Proofs.Session.Responses
import GibianeEditor.Proofs.Source.Statements
import GibianeEditor.Proofs.Source.Declared
import GibianeEditor.Proofs.Source.DeclarationOrder
import GibianeEditor.Proofs.Source.Description
import GibianeEditor.Proofs.Text.LineEnding
import GibianeEditor.Proofs.Source.LineEnding
import GibianeEditor.Proofs.Symbol.Place
import GibianeEditor.Proofs.Session.LineEnding
import GibianeEditor.Proofs.Session.PrepareRename
import GibianeEditor.Proofs.Symbol.Document
import GibianeEditor.Proofs.Symbol.LetterCase
import GibianeEditor.Proofs.Symbol.Candidates
import GibianeEditor.Proofs.Symbol.LongerSpelling
import GibianeEditor.Proofs.Session.Unopened
import GibianeEditor.Proofs.Source.Opaque
import GibianeEditor.Proofs.Source.Append
import GibianeEditor.Proofs.Source.LetterCase
import GibianeEditor.Proofs.Session.Logging
import GibianeEditor.Proofs.Symbol.Listing
