import Listing.Base64Url
import Listing.Comparison
import Listing.Cursor.Key
import Listing.Cursor.Position
import Listing.Cursor.Sealer
import Listing.Digest.Hmac
import Listing.Digest.Sha256
import Listing.Direction
import Listing.Entries
import Listing.ErrorKind
import Listing.Fault
import Listing.Filter.Clause
import Listing.Filter.Compile
import Listing.Filter.Token
import Listing.Json.Basic
import Listing.Json.OfValue
import Listing.Json.Reader
import Listing.Json.Writer
import Listing.Keyset
import Listing.Log.Line
import Listing.Log.Redaction
import Listing.Number.Binary64
import Listing.Number.Decimal
import Listing.Number.Integer
import Listing.Number.Number
import Listing.Operator
import Listing.Page.Basic
import Listing.Page.Pager
import Listing.Predicate.Basic
import Listing.Predicate.Evaluate
import Listing.Predicate.Normal
import Listing.Predicate.Text
import Listing.Proofs.AcceptedCursors
import Listing.Proofs.AdmittedFilters
import Listing.Proofs.BoundValues
import Listing.Proofs.ChangingMemory
import Listing.Proofs.ClientFaults
import Listing.Proofs.CompositionLaws
import Listing.Proofs.CursorBinding
import Listing.Proofs.CursorRefusals
import Listing.Proofs.CursorRoundTrip
import Listing.Proofs.CutOrders
import Listing.Proofs.CutTexts
import Listing.Proofs.DefaultOrders
import Listing.Proofs.FaultKinds
import Listing.Proofs.FilterEvaluation
import Listing.Proofs.FilterMeaning
import Listing.Proofs.JsonText
import Listing.Proofs.KeyOrder
import Listing.Proofs.KeysetMeaning
import Listing.Proofs.KeysetPages
import Listing.Proofs.LesserValues
import Listing.Proofs.LexicographicWindows
import Listing.Proofs.LiteralPatterns
import Listing.Proofs.MaskedValues
import Listing.Proofs.MemoryWindow
import Listing.Proofs.NeutralParts
import Listing.Proofs.NormalForm
import Listing.Proofs.NumberValues
import Listing.Proofs.NumberedPages
import Listing.Proofs.Octets
import Listing.Proofs.OverriddenSettings
import Listing.Proofs.OwnTexts
import Listing.Proofs.PageCounts
import Listing.Proofs.PageCursors
import Listing.Proofs.PageWalk
import Listing.Proofs.PageWindow
import Listing.Proofs.ParameterNames
import Listing.Proofs.PatternMeaning
import Listing.Proofs.PatternPieces
import Listing.Proofs.PortablePatterns
import Listing.Proofs.PreparedQueries
import Listing.Proofs.PutEntries
import Listing.Proofs.QuietValues
import Listing.Proofs.ReadOrders
import Listing.Proofs.RedactedLines
import Listing.Proofs.RedactedParts
import Listing.Proofs.RowFaults
import Listing.Proofs.ScopeIsolation
import Listing.Proofs.SealedCursor
import Listing.Proofs.SearchHits
import Listing.Proofs.StableSorting
import Listing.Proofs.StoreCalls
import Listing.Proofs.StoredPatterns
import Listing.Proofs.TableMeaning
import Listing.Proofs.TableWindow
import Listing.Proofs.TokenBoundaries
import Listing.Proofs.TracedCalls
import Listing.Proofs.TracedResult
import Listing.Proofs.ReadValues
import Listing.Proofs.WrittenConditions
import Listing.Proofs.WrittenDecimals
import Listing.Proofs.WrittenFilters
import Listing.Proofs.WrittenFloats
import Listing.Proofs.WrittenIntegers
import Listing.Proofs.WrittenTimes
import Listing.Proofs.WrittenUuids
import Listing.Relational.Cell
import Listing.Relational.Condition
import Listing.Relational.Meaning
import Listing.Relational.Operand
import Listing.Relational.Store
import Listing.Relational.Table
import Listing.Relational.Text
import Listing.Report.Basic
import Listing.Report.Build
import Listing.Schema.Basic
import Listing.Schema.Kind
import Listing.Scope
import Listing.Search
import Listing.Service
import Listing.Settings.Environment
import Listing.Settings.Service
import Listing.SortOrder.Basic
import Listing.SortOrder.Read
import Listing.Store.Basic
import Listing.Store.Memory
import Listing.Store.Sorting
import Listing.Text.Blank
import Listing.Text.CaseTable
import Listing.Text.Digit
import Listing.Text.Encoding
import Listing.Text.LetterCase
import Listing.Text.PrintableTable
import Listing.Text.Quoted
import Listing.Text.Split
import Listing.Time.Date
import Listing.Time.Instant
import Listing.Time.Iso
import Listing.Trace
import Listing.Uuid
import Listing.Value.Basic
import Listing.Value.Compare
import Listing.Value.Text
import Listing.Value.Transform
import Listing.Wildcard
