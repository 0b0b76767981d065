import Tariff.Binary64.Basic
import Tariff.Binary64.Scientific
import Tariff.Binary64.Shortest
import Tariff.Binary64.Text
import Tariff.Configuration
import Tariff.Decimal.Arithmetic
import Tariff.Decimal.Basic
import Tariff.Decimal.Binary
import Tariff.Decimal.Remainder
import Tariff.Decimal.Rounding
import Tariff.Decimal.Text
import Tariff.Display.Board
import Tariff.Display.Currency
import Tariff.Environment
import Tariff.Form
import Tariff.Formula.Basic
import Tariff.Formula.Encoding
import Tariff.Formula.Evaluation
import Tariff.Formula.Printer
import Tariff.Formula.WellShaped
import Tariff.Inbox
import Tariff.Json.Basic
import Tariff.Json.Decimal
import Tariff.Json.Document
import Tariff.Json.Reader
import Tariff.Json.Text
import Tariff.Named
import Tariff.Page.Basic
import Tariff.Page.Operation
import Tariff.Power
import Tariff.Pricing
import Tariff.Proofs.Binary64.Arithmetic
import Tariff.Proofs.Binary64.Error
import Tariff.Proofs.Binary64.Nearest
import Tariff.Proofs.Binary64.Reading
import Tariff.Proofs.Binary64.Recovered
import Tariff.Proofs.Binary64.Restored
import Tariff.Proofs.Binary64.Shortest
import Tariff.Proofs.Binary64.Text
import Tariff.Proofs.Decimal.Binary
import Tariff.Proofs.Decimal.Fitted
import Tariff.Proofs.Decimal.Nearest
import Tariff.Proofs.Decimal.Precise
import Tariff.Proofs.Decimal.Quotient
import Tariff.Proofs.Decimal.Scientific
import Tariff.Proofs.Decimal.Text
import Tariff.Proofs.Decimal.Value
import Tariff.Proofs.Display.Constant
import Tariff.Proofs.Display.Currency
import Tariff.Proofs.Display.Lossless
import Tariff.Proofs.Environment.Below
import Tariff.Proofs.Environment.Bound
import Tariff.Proofs.Environment.Followed
import Tariff.Proofs.Environment.Navigated
import Tariff.Proofs.Environment.Roots
import Tariff.Proofs.Form.Text
import Tariff.Proofs.Formula.Confined
import Tariff.Proofs.Formula.Decoded
import Tariff.Proofs.Formula.Joined
import Tariff.Proofs.Formula.Related
import Tariff.Proofs.Formula.Reread
import Tariff.Proofs.Formula.Restored
import Tariff.Proofs.Formula.Unavailable
import Tariff.Proofs.Formula.Undivided
import Tariff.Proofs.Formula.Written
import Tariff.Proofs.Json.Canonical
import Tariff.Proofs.Json.Number
import Tariff.Proofs.Json.Readable
import Tariff.Proofs.Json.Restored
import Tariff.Proofs.Json.Text
import Tariff.Proofs.Page.ForeignTicket
import Tariff.Proofs.Page.History
import Tariff.Proofs.Page.LiveTotals
import Tariff.Proofs.Page.Move
import Tariff.Proofs.Page.Progress
import Tariff.Proofs.Page.SingleSubmission
import Tariff.Proofs.Page.Step
import Tariff.Proofs.Pricing.Acceptance
import Tariff.Proofs.Pricing.Account
import Tariff.Proofs.Pricing.Influence
import Tariff.Proofs.Pricing.Isolation
import Tariff.Proofs.Pricing.Nulls
import Tariff.Proofs.Pricing.Order
import Tariff.Proofs.Pricing.Reading
import Tariff.Proofs.Pricing.Rendered
import Tariff.Proofs.Pricing.Sheet
import Tariff.Proofs.Pricing.Sum
import Tariff.Proofs.Pricing.Trusted
import Tariff.Proofs.Pricing.WrittenConstant
import Tariff.Proofs.RuleSet.Drafted
import Tariff.Proofs.RuleSet.Names
import Tariff.Proofs.RuleSet.Reach
import Tariff.Proofs.RuleSet.Rendered
import Tariff.Proofs.RuleSet.Strictness
import Tariff.Proofs.Scalar.Comparison
import Tariff.Proofs.Script.Advance
import Tariff.Proofs.Script.Concatenation
import Tariff.Proofs.Script.Constant
import Tariff.Proofs.Script.Continued
import Tariff.Proofs.Script.ContinuedFormula
import Tariff.Proofs.Script.ContinuedToken
import Tariff.Proofs.Script.Exported
import Tariff.Proofs.Script.Expression
import Tariff.Proofs.Script.Level
import Tariff.Proofs.Script.Lines
import Tariff.Proofs.Script.Meaning
import Tariff.Proofs.Script.Nested
import Tariff.Proofs.Script.Operand
import Tariff.Proofs.Script.Operation
import Tariff.Proofs.Script.Placed
import Tariff.Proofs.Script.Position
import Tariff.Proofs.Script.Precedence
import Tariff.Proofs.Script.Printed
import Tariff.Proofs.Script.Reading
import Tariff.Proofs.Script.Reread
import Tariff.Proofs.Script.Statement
import Tariff.Proofs.Script.Steady
import Tariff.Proofs.Script.Token
import Tariff.Proofs.Script.Yielded
import Tariff.Quote
import Tariff.Rule
import Tariff.RuleSet.Basic
import Tariff.RuleSet.Printer
import Tariff.Scalar
import Tariff.Script.Document
import Tariff.Script.Formula
import Tariff.Script.Reading
import Tariff.Script.Token
import Tariff.Submission
import Tariff.Text.Blank
import Tariff.Text.Quoted
import Tariff.Text.Unprintable
