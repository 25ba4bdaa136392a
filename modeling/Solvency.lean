import Solvency.Asset.Accrual
import Solvency.Asset.Basic
import Solvency.Asset.Family
import Solvency.Asset.Record
import Solvency.Asset.Store
import Solvency.Binary64.Arithmetic
import Solvency.Binary64.Basic
import Solvency.Binary64.Decimal
import Solvency.Binary64.Shortest
import Solvency.Calendar.Basic
import Solvency.Calendar.Display
import Solvency.Cell.Basic
import Solvency.Cell.Builder
import Solvency.Cell.Codec
import Solvency.Cell.Dictionary
import Solvency.Cell.Reader
import Solvency.Deployment.Basic
import Solvency.Deployment.Loader
import Solvency.Deployment.Preset
import Solvency.Deployment.Validation
import Solvency.Digest
import Solvency.Document.Basic
import Solvency.Document.Integer
import Solvency.Environment.Assignment
import Solvency.Environment.Name
import Solvency.Environment.Reference
import Solvency.Feed.Http
import Solvency.Feed.Node
import Solvency.Feed.Snapshot
import Solvency.Health.Assessment
import Solvency.Health.Liquidation
import Solvency.Health.Params
import Solvency.Health.Snapshot
import Solvency.Health.Source
import Solvency.Health.Units
import Solvency.Health.Withdrawal
import Solvency.Instant
import Solvency.Json.Reader
import Solvency.Json.Writer
import Solvency.Lock
import Solvency.Logging
import Solvency.Oracle.Aggregation
import Solvency.Oracle.Attestation
import Solvency.Oracle.Median
import Solvency.Oracle.Payload
import Solvency.Oracle.PayloadReader
import Solvency.Oracle.Race
import Solvency.Oracle.Verification
import Solvency.Position.Account
import Solvency.Position.Basic
import Solvency.Proofs.Accounts
import Solvency.Proofs.Accruals
import Solvency.Proofs.Appraisals
import Solvency.Proofs.Arrangements
import Solvency.Proofs.Assessments
import Solvency.Proofs.Attestations
import Solvency.Proofs.Availability
import Solvency.Proofs.Balances
import Solvency.Proofs.Ballots
import Solvency.Proofs.Calls
import Solvency.Proofs.Conversions
import Solvency.Proofs.Crowds
import Solvency.Proofs.Curves
import Solvency.Proofs.Cycles
import Solvency.Proofs.Debts
import Solvency.Proofs.Decimals
import Solvency.Proofs.Deployments
import Solvency.Proofs.Deposits
import Solvency.Proofs.Depths
import Solvency.Proofs.Dictionaries
import Solvency.Proofs.Digests
import Solvency.Proofs.Encodings
import Solvency.Proofs.Entries
import Solvency.Proofs.Evidence
import Solvency.Proofs.Factors
import Solvency.Proofs.Failures
import Solvency.Proofs.Faults
import Solvency.Proofs.Freshness
import Solvency.Proofs.Interest
import Solvency.Proofs.Layouts
import Solvency.Proofs.Lexemes
import Solvency.Proofs.Limits
import Solvency.Proofs.Liquidations
import Solvency.Proofs.Loading
import Solvency.Proofs.Medians
import Solvency.Proofs.Nodes
import Solvency.Proofs.Ordering
import Solvency.Proofs.Packing
import Solvency.Proofs.Payloads
import Solvency.Proofs.Projections
import Solvency.Proofs.Publications
import Solvency.Proofs.Quorums
import Solvency.Proofs.Races
import Solvency.Proofs.Ratios
import Solvency.Proofs.Readers
import Solvency.Proofs.Records
import Solvency.Proofs.References
import Solvency.Proofs.Responses
import Solvency.Proofs.Robustness
import Solvency.Proofs.Roundings
import Solvency.Proofs.Schedules
import Solvency.Proofs.Shortfalls
import Solvency.Proofs.Snapshots
import Solvency.Proofs.Spellings
import Solvency.Proofs.Stores
import Solvency.Proofs.Substitutions
import Solvency.Proofs.Tables
import Solvency.Proofs.Tasks
import Solvency.Proofs.Traffic
import Solvency.Proofs.Traversal
import Solvency.Proofs.Truncations
import Solvency.Proofs.Withdrawals
import Solvency.Ratio
import Solvency.Sorting
import Solvency.Table
import Solvency.Text.Base
import Solvency.Text.Basic
import Solvency.Text.Blank
import Solvency.Text.Digit
import Solvency.Text.Hex
import Solvency.Text.Integer
import Solvency.Text.Line
import Solvency.Text.Printable
import Solvency.Text.Quoted
import Solvency.Text.Utf8
import Solvency.Yaml.Cursor
import Solvency.Yaml.Fault
import Solvency.Yaml.Node
import Solvency.Yaml.Reader
import Solvency.Yaml.Scalar
import Solvency.Yaml.Text
import Solvency.Yaml.Timestamp
import Solvency.Yaml.Token
