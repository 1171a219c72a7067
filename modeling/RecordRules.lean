import RecordRules.Binary64
import RecordRules.Cache
import RecordRules.Config
import RecordRules.Connective
import RecordRules.Decimal.Numeral
import RecordRules.Decimal.Shortest
import RecordRules.Engine.Basic
import RecordRules.Engine.Command
import RecordRules.Error
import RecordRules.Fields
import RecordRules.Json.Basic
import RecordRules.Json.Document
import RecordRules.Json.Lexeme
import RecordRules.Json.Number
import RecordRules.Json.Value
import RecordRules.Json.Writer
import RecordRules.Operator
import RecordRules.Record
import RecordRules.Record.Json
import RecordRules.Request
import RecordRules.Rule.Basic
import RecordRules.Rule.Cursor
import RecordRules.Rule.Evaluation
import RecordRules.Rule.Mapping
import RecordRules.Rule.Parser
import RecordRules.Rule.Render
import RecordRules.Rule.Worklist
import RecordRules.Text
import RecordRules.Token
import RecordRules.Proofs.Answer
import RecordRules.Proofs.Binary64.Comparison
import RecordRules.Proofs.Binary64.Nearest
import RecordRules.Proofs.Binary64.Order
import RecordRules.Proofs.Binary64.Steps
import RecordRules.Proofs.Binary64.Units
import RecordRules.Proofs.Cache
import RecordRules.Proofs.Cache.Contents
import RecordRules.Proofs.Decimal.Layout
import RecordRules.Proofs.Decimal.Nearest
import RecordRules.Proofs.Decimal.Shortest
import RecordRules.Proofs.Decimal.Spelling
import RecordRules.Proofs.Engine.Exchange
import RecordRules.Proofs.Engine.History
import RecordRules.Proofs.Engine.Routes
import RecordRules.Proofs.Json.Accuracy
import RecordRules.Proofs.Json.Document
import RecordRules.Proofs.Json.Lexeme
import RecordRules.Proofs.Json.Number
import RecordRules.Proofs.Json.Numeral
import RecordRules.Proofs.Json.RoundTrip
import RecordRules.Proofs.Record.RoundTrip
import RecordRules.Proofs.Record.Routes
import RecordRules.Proofs.Request
import RecordRules.Proofs.Rule.Comparison
import RecordRules.Proofs.Rule.Cursor
import RecordRules.Proofs.Rule.Denotation
import RecordRules.Proofs.Rule.Duality
import RecordRules.Proofs.Rule.FirstError
import RecordRules.Proofs.Rule.IntegerField
import RecordRules.Proofs.Rule.JsonText
import RecordRules.Proofs.Rule.Limit
import RecordRules.Proofs.Rule.Mapping
import RecordRules.Proofs.Rule.NamedFields
import RecordRules.Proofs.Rule.NumericField
import RecordRules.Proofs.Rule.ReadVerdict
import RecordRules.Proofs.Rule.Reading
import RecordRules.Proofs.Rule.Rearrangement
import RecordRules.Proofs.Rule.Rendering
import RecordRules.Proofs.Rule.Surroundings
import RecordRules.Proofs.Rule.TextField
import RecordRules.Proofs.Rule.Verdict
import RecordRules.Proofs.Rule.Worklist
import RecordRules.Proofs.Text.ByteOrder
import RecordRules.Proofs.Token
import RecordRules.Proofs.Token.Splitting
