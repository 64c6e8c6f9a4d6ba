import ServiceSim.Cli.Arguments
import ServiceSim.Cli.Command
import ServiceSim.Cli.Directory
import ServiceSim.Cli.Path
import ServiceSim.Cli.Response
import ServiceSim.Cli.Usage
import ServiceSim.Expression.Distribution
import ServiceSim.Expression.Error
import ServiceSim.Expression.Evaluation
import ServiceSim.Expression.Function
import ServiceSim.Expression.Grammar
import ServiceSim.Expression.Operation
import ServiceSim.Expression.Sampling
import ServiceSim.Expression.Specification
import ServiceSim.Expression.Token
import ServiceSim.Expression.Tree
import ServiceSim.Expression.Value
import ServiceSim.Frame.Basic
import ServiceSim.Frame.Stack
import ServiceSim.Frame.Usage
import ServiceSim.Interpreter.Activity
import ServiceSim.Interpreter.Environment
import ServiceSim.Interpreter.Error
import ServiceSim.Interpreter.Step
import ServiceSim.Json.Basic
import ServiceSim.Json.Decoder
import ServiceSim.Json.Reader
import ServiceSim.Json.Reading
import ServiceSim.Json.Writer
import ServiceSim.Kernel.Barrier
import ServiceSim.Kernel.Basic
import ServiceSim.Log
import ServiceSim.Main
import ServiceSim.Measurement.Basic
import ServiceSim.Model.Behavior
import ServiceSim.Model.Builder
import ServiceSim.Model.Decoding
import ServiceSim.Model.Encoding
import ServiceSim.Model.Error
import ServiceSim.Model.System
import ServiceSim.Model.Transition
import ServiceSim.Model.Usage
import ServiceSim.NameMap
import ServiceSim.Number.Binary64
import ServiceSim.Number.Decimal
import ServiceSim.Number.Layout
import ServiceSim.Number.Reading
import ServiceSim.Proofs.Evaluation.Agreement
import ServiceSim.Proofs.Evaluation.Binding
import ServiceSim.Proofs.Evaluation.Chance
import ServiceSim.Proofs.Evaluation.Depth
import ServiceSim.Proofs.Evaluation.Determinism
import ServiceSim.Proofs.Evaluation.Evaluator
import ServiceSim.Proofs.Evaluation.Forecast
import ServiceSim.Proofs.Evaluation.Frames
import ServiceSim.Proofs.Evaluation.Limits
import ServiceSim.Proofs.Evaluation.Pursuit
import ServiceSim.Proofs.Evaluation.Refinement
import ServiceSim.Proofs.Evaluation.Resolution
import ServiceSim.Proofs.Evaluation.Resumption
import ServiceSim.Proofs.Evaluation.Shadowing
import ServiceSim.Proofs.Expression.Alignment
import ServiceSim.Proofs.Expression.Bytes
import ServiceSim.Proofs.Expression.Consumption
import ServiceSim.Proofs.Expression.Cursor
import ServiceSim.Proofs.Expression.Density
import ServiceSim.Proofs.Expression.Integers
import ServiceSim.Proofs.Expression.Levels
import ServiceSim.Proofs.Expression.Parameters
import ServiceSim.Proofs.Expression.RoundTrip
import ServiceSim.Proofs.Expression.Safety
import ServiceSim.Proofs.Expression.Selection
import ServiceSim.Proofs.Expression.Shape
import ServiceSim.Proofs.Expression.Trimming
import ServiceSim.Proofs.Expression.Words
import ServiceSim.Proofs.Expression.Writing
import ServiceSim.Proofs.Interpreter.Arrivals
import ServiceSim.Proofs.Interpreter.Balance
import ServiceSim.Proofs.Interpreter.CallSites
import ServiceSim.Proofs.Interpreter.Callers
import ServiceSim.Proofs.Interpreter.Calls
import ServiceSim.Proofs.Interpreter.Descent
import ServiceSim.Proofs.Interpreter.Effects
import ServiceSim.Proofs.Interpreter.Elements
import ServiceSim.Proofs.Interpreter.Endings
import ServiceSim.Proofs.Interpreter.Environment
import ServiceSim.Proofs.Interpreter.ForkJoin
import ServiceSim.Proofs.Interpreter.Iteration
import ServiceSim.Proofs.Interpreter.Joins
import ServiceSim.Proofs.Interpreter.Ledger
import ServiceSim.Proofs.Interpreter.Likeness
import ServiceSim.Proofs.Interpreter.Measuring
import ServiceSim.Proofs.Interpreter.Queues
import ServiceSim.Proofs.Interpreter.References
import ServiceSim.Proofs.Interpreter.Reports
import ServiceSim.Proofs.Interpreter.Scopes
import ServiceSim.Proofs.Interpreter.StackDiscipline
import ServiceSim.Proofs.Interpreter.Tally
import ServiceSim.Proofs.Interpreter.Visibility
import ServiceSim.Proofs.Interpreter.Waiting
import ServiceSim.Proofs.Json.Nesting
import ServiceSim.Proofs.Json.Records
import ServiceSim.Proofs.Json.Scalars
import ServiceSim.Proofs.Json.Texts
import ServiceSim.Proofs.Kernel.Agenda
import ServiceSim.Proofs.Kernel.Lockstep
import ServiceSim.Proofs.Kernel.Order
import ServiceSim.Proofs.Kernel.Processes
import ServiceSim.Proofs.Kernel.Runs
import ServiceSim.Proofs.Kernel.Stopping
import ServiceSim.Proofs.Kernel.Timekeeping
import ServiceSim.Proofs.Measurement.Matching
import ServiceSim.Proofs.Measurement.Pairing
import ServiceSim.Proofs.Model.Acceptance
import ServiceSim.Proofs.Model.Building
import ServiceSim.Proofs.Model.Built
import ServiceSim.Proofs.Model.CallGraph
import ServiceSim.Proofs.Model.Chains
import ServiceSim.Proofs.Model.Declarations
import ServiceSim.Proofs.Model.References
import ServiceSim.Proofs.Model.RoundTrip
import ServiceSim.Proofs.Number
import ServiceSim.Proofs.Number.Digits
import ServiceSim.Proofs.Number.Literals
import ServiceSim.Proofs.Number.Nearest
import ServiceSim.Proofs.Number.Order
import ServiceSim.Proofs.Number.Sums
import ServiceSim.Proofs.Number.Widening
import ServiceSim.Proofs.Queueing.Errand
import ServiceSim.Proofs.Queueing.Schedule
import ServiceSim.Proofs.Queueing.Timetable
import ServiceSim.Proofs.Queueing.Workload
import ServiceSim.Proofs.Resources
import ServiceSim.Proofs.Simulation.Arrivals
import ServiceSim.Proofs.Simulation.Chronicle
import ServiceSim.Proofs.Simulation.Completeness
import ServiceSim.Proofs.Simulation.Declarations
import ServiceSim.Proofs.Simulation.Evaluation
import ServiceSim.Proofs.Simulation.FirstCome
import ServiceSim.Proofs.Simulation.Measurements
import ServiceSim.Proofs.Simulation.Queueing
import ServiceSim.Proofs.Simulation.References
import ServiceSim.Proofs.Simulation.Sessions
import ServiceSim.Proofs.Simulation.Submission
import ServiceSim.Proofs.Simulation.Termination
import ServiceSim.Proofs.Simulation.Waiting
import ServiceSim.Proofs.Time
import ServiceSim.Random.ChaCha
import ServiceSim.Random.Source
import ServiceSim.Resource.Basic
import ServiceSim.Resource.Error
import ServiceSim.Resource.Journal
import ServiceSim.Resource.Script
import ServiceSim.Resource.Servers
import ServiceSim.Simulation.Basic
import ServiceSim.Simulation.Config
import ServiceSim.Simulation.Decoding
import ServiceSim.Simulation.Encoding
import ServiceSim.Simulation.Files
import ServiceSim.Simulation.Request
import ServiceSim.Text
import ServiceSim.Text.Hidden
import ServiceSim.Time
