import ContractFuzz.Abi.Entry
import ContractFuzz.Abi.Selector
import ContractFuzz.Abi.Wire
import ContractFuzz.Artifact.Basic
import ContractFuzz.Artifact.ClassTable
import ContractFuzz.Artifact.DebugInfo
import ContractFuzz.Calldata.Arguments
import ContractFuzz.Calldata.Generator
import ContractFuzz.Calldata.Parser
import ContractFuzz.Calldata.Shape
import ContractFuzz.Campaign.CallGenerator
import ContractFuzz.Campaign.Config
import ContractFuzz.Campaign.Error
import ContractFuzz.Campaign.Finding
import ContractFuzz.Campaign.Iteration
import ContractFuzz.Campaign.Obligations
import ContractFuzz.Campaign.Oracle
import ContractFuzz.Campaign.Replay
import ContractFuzz.Campaign.Report
import ContractFuzz.Campaign.Run
import ContractFuzz.Campaign.Shrinking
import ContractFuzz.CommandLine.Arguments
import ContractFuzz.CommandLine.Loader
import ContractFuzz.CommandLine.Parser
import ContractFuzz.CommandLine.Run
import ContractFuzz.Coverage
import ContractFuzz.Deployment
import ContractFuzz.Execution.Client
import ContractFuzz.Execution.Frame
import ContractFuzz.Execution.Wire
import ContractFuzz.Felt
import ContractFuzz.Json.Basic
import ContractFuzz.Json.Decimal
import ContractFuzz.Json.Reader
import ContractFuzz.Json.Record
import ContractFuzz.Json.Writer
import ContractFuzz.Keccak
import ContractFuzz.LineCoverage
import ContractFuzz.Log
import ContractFuzz.Random.Source
import ContractFuzz.Random.Stream
import ContractFuzz.Rpc.Client
import ContractFuzz.Rpc.Http
import ContractFuzz.Rpc.Message
import ContractFuzz.Sandbox.Executor
import ContractFuzz.Sandbox.FileTree
import ContractFuzz.Sandbox.Interception
import ContractFuzz.Sandbox.Program
import ContractFuzz.Sandbox.Script
import ContractFuzz.Sandbox.Script.Wire
import ContractFuzz.Schema
import ContractFuzz.Sorted.Map
import ContractFuzz.Sorted.Set
import ContractFuzz.SystemError
import ContractFuzz.Text.Blank
import ContractFuzz.Text.Front
import ContractFuzz.Text.Numeral
import ContractFuzz.Text.Terminal
import ContractFuzz.Text.Utf8
import ContractFuzz.Main
import ContractFuzz.Proofs.Campaign.Accounting
import ContractFuzz.Proofs.Campaign.Obligations
import ContractFuzz.Proofs.Campaign.Runs
import ContractFuzz.Proofs.Sandbox.Replay
import ContractFuzz.Proofs.Campaign.Recurrence
import ContractFuzz.Proofs.Campaign.Shrinking
import ContractFuzz.Proofs.Coverage
import ContractFuzz.Proofs.Sandbox.Twins
import ContractFuzz.Proofs.Campaign.Growth
import ContractFuzz.Proofs.Campaign.Provenance
import ContractFuzz.Proofs.Campaign.Lockstep
import ContractFuzz.Proofs.Campaign.Blame
import ContractFuzz.Proofs.Campaign.RecordedEvents
import ContractFuzz.Proofs.Campaign.Catalogue
import ContractFuzz.Proofs.Campaign.Atomicity
import ContractFuzz.Proofs.Schema.Structs
import ContractFuzz.Proofs.Schema.Surface
import ContractFuzz.Proofs.Campaign.Requests
import ContractFuzz.Proofs.Campaign.Blacklist
import ContractFuzz.Proofs.Campaign.FirstViolation
import ContractFuzz.Proofs.Campaign.Sessions
import ContractFuzz.Proofs.Campaign.Deployments
import ContractFuzz.Proofs.Campaign.Iterations
import ContractFuzz.Proofs.Campaign.Counts
import ContractFuzz.Proofs.Campaign.Limits
import ContractFuzz.Proofs.Calldata.Encoding
import ContractFuzz.Proofs.Campaign.DrawnCalls
import ContractFuzz.Proofs.Campaign.PureSteps
import ContractFuzz.Proofs.Sandbox.Observers
import ContractFuzz.Proofs.Campaign.Observers
import ContractFuzz.Proofs.Campaign.AddedProperties
import ContractFuzz.Proofs.Calldata.Grammar
import ContractFuzz.Proofs.Calldata.Reading
import ContractFuzz.Proofs.Calldata.Printing
import ContractFuzz.Proofs.Sandbox.History
import ContractFuzz.Proofs.Execution.Frames
import ContractFuzz.Proofs.Coverage.Union
import ContractFuzz.Proofs.Campaign.Mirrors
import ContractFuzz.Proofs.Campaign.Diary
import ContractFuzz.Proofs.Text.Numerals
import ContractFuzz.Proofs.Json.Records
import ContractFuzz.Proofs.Execution.Wire
import ContractFuzz.Proofs.Campaign.Reports
import ContractFuzz.Proofs.Rpc.Responses
import ContractFuzz.Proofs.Abi.Wire
import ContractFuzz.Proofs.Artifact.Wire
import ContractFuzz.Proofs.Calldata.Decoding
import ContractFuzz.Proofs.Calldata.Faults
import ContractFuzz.Proofs.Schema.References
import ContractFuzz.Proofs.Coverage.Lines
import ContractFuzz.Proofs.Calldata.Scalars
import ContractFuzz.Proofs.Calldata.Arguments
import ContractFuzz.Proofs.Schema.Discovery
import ContractFuzz.Proofs.Sandbox.Repetition
import ContractFuzz.Proofs.Campaign.Necessity
import ContractFuzz.Proofs.Campaign.Rounds
import ContractFuzz.Proofs.Text.Spellings
import ContractFuzz.Proofs.Campaign.FirstOccurrences
import ContractFuzz.Proofs.Execution.Collection
import ContractFuzz.Proofs.Sandbox.Numbering
import ContractFuzz.Proofs.Campaign.Retirement
