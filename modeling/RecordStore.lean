import RecordStore.KeyMap
import RecordStore.Text.Blank
import RecordStore.Text.Quoted
import RecordStore.Decimal.Digits
import RecordStore.Binary64.Rounding
import RecordStore.Binary64.Layout
import RecordStore.Decimal.Numeral
import RecordStore.Json.Printer
import RecordStore.Json.Reader
import RecordStore.Calendar.Printer
import RecordStore.Calendar.Reader
import RecordStore.Error
import RecordStore.Value.Coercion
import RecordStore.Value.Typed
import RecordStore.Filter.Description
import RecordStore.Filter.Evaluation
import RecordStore.Filter.Query
import RecordStore.Mapping
import RecordStore.Store.Memory
import RecordStore.Store.Search
import RecordStore.Url.Basic
import RecordStore.Http.Client
import RecordStore.Proofs.Calendar.RoundTrip
import RecordStore.Proofs.Calendar.TextOrder
import RecordStore.Proofs.Entity.Build
import RecordStore.Proofs.Value.RoundTrip
import RecordStore.Proofs.Value.Coercion
import RecordStore.Proofs.Entity.RoundTrip
import RecordStore.Proofs.Entity.Agreement
import RecordStore.Proofs.Filter.Constructible
import RecordStore.Proofs.Filter.RoundTrip
import RecordStore.Proofs.Engine.Document
import RecordStore.Proofs.Filter.Query
import RecordStore.Proofs.Engine.Clause
import RecordStore.Proofs.Engine.Client
import RecordStore.Proofs.Store.Reply
import RecordStore.Proofs.Store.Run
import RecordStore.Proofs.Mapping
import RecordStore.Proofs.Url.Path
import RecordStore.Proofs.Url.Reader
import RecordStore.Proofs.Http.Address
import RecordStore.Proofs.Outcome
import RecordStore.Proofs.Value.Shape
import RecordStore.Proofs.Value.Leaves
import RecordStore.Proofs.Binary64.Rounding
import RecordStore.Proofs.Binary64.Value
import RecordStore.Proofs.Value.Integer
import RecordStore.Proofs.Filter.Acceptance
import RecordStore.Proofs.Filter.Obtained
import RecordStore.Proofs.Text.ByteOrder
import RecordStore.Proofs.Engine.DateTime
import RecordStore.Proofs.Store.Request
import RecordStore.Proofs.Store.Memory
import RecordStore.Proofs.Store.Decision
import RecordStore.Proofs.Calendar.DayNumber
import RecordStore.Proofs.Calendar.Layouts
import RecordStore.Proofs.Calendar.Zoned
import RecordStore.Proofs.Moments
import RecordStore.Proofs.Binary64.Decimal
import RecordStore.Proofs.Binary64.Shortest
import RecordStore.Proofs.Binary64.Layout
import RecordStore.Proofs.Value.Text
import RecordStore.Proofs.Filter.Disjunction
import RecordStore.Proofs.Value.Order
import RecordStore.Proofs.Filter.Bounds
import RecordStore.Proofs.Engine.Fitting
import RecordStore.Proofs.Http.Reply
import RecordStore.Proofs.Http.Outcome
import RecordStore.Proofs.Value.Extraction
