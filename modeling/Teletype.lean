import Teletype.Text.Blank
import Teletype.Text.UpperCase
import Teletype.Table
import Teletype.Color
import Teletype.Decimal.Natural
import Teletype.Binary
import Teletype.Fault
import Teletype.Layout
import Teletype.Decimal.Numeral
import Teletype.Number
import Teletype.Flags
import Teletype.Token
import Teletype.Program
import Teletype.Session
import Teletype.Text.Encoding
import Teletype.Store
import Teletype.Json.Quoted
import Teletype.Json
import Teletype.Snapshot
import Teletype.Console
import Teletype.Expansion
import Teletype.Runner
import Teletype.Command
import Teletype.Command.Arithmetic
import Teletype.Command.Screen
import Teletype.Command.Builtin
import Teletype.Completion
import Teletype.Dispatch
import Teletype.InputLoop
import Teletype.Settings.Document
import Teletype.Main
import Teletype.Toml.Gap
import Teletype.Toml.Node
import Teletype.Toml.Quoted
import Teletype.Toml.Word
import Teletype.Proofs.Extraction
import Teletype.Proofs.Tokenization
import Teletype.Proofs.Below
import Teletype.Proofs.Evaluation
import Teletype.Proofs.Expansion
import Teletype.Proofs.Trail
import Teletype.Proofs.Itinerary
import Teletype.Proofs.Conduct
import Teletype.Proofs.Edit
import Teletype.Proofs.Dispatch
import Teletype.Proofs.Failure
import Teletype.Proofs.Document
import Teletype.Proofs.Storage
import Teletype.Proofs.Persistence
import Teletype.Proofs.Balance
import Teletype.Proofs.Acceptance
import Teletype.Proofs.Printing
import Teletype.Proofs.Scopes
import Teletype.Proofs.Exclusion
import Teletype.Proofs.Held
import Teletype.Proofs.Index
import Teletype.Proofs.Address
import Teletype.Proofs.Stop
import Teletype.Proofs.Writes
import Teletype.Proofs.Export
import Teletype.Proofs.Silence
import Teletype.Proofs.Mirror
import Teletype.Proofs.Recall
import Teletype.Proofs.Prompt
import Teletype.Proofs.Still
import Teletype.Proofs.Atomic
import Teletype.Proofs.Entry
import Teletype.Proofs.Oblivious
import Teletype.Proofs.Alias
import Teletype.Proofs.Listing
import Teletype.Proofs.Sheet
import Teletype.Proofs.Reached
import Teletype.Proofs.Choice
import Teletype.Proofs.Quotation
import Teletype.Proofs.Rounds
import Teletype.Proofs.Repetition
import Teletype.Proofs.Reference
import Teletype.Proofs.Subexpression
import Teletype.Proofs.Success
import Teletype.Proofs.Division
import Teletype.Proofs.Declared
import Teletype.Proofs.Completion
import Teletype.Proofs.Columns
import Teletype.Proofs.Separation
import Teletype.Proofs.Calculation
import Teletype.Proofs.Refused
import Teletype.Proofs.Placement
import Teletype.Proofs.Report
