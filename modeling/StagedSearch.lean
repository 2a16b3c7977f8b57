import StagedSearch.Branching.Choice
import StagedSearch.Branching.ValueOrder
import StagedSearch.Branching.VariableOrder
import StagedSearch.Console.Filter
import StagedSearch.Console.Line
import StagedSearch.Console.Record
import StagedSearch.Console.Style
import StagedSearch.Directive.Basic
import StagedSearch.Directive.Error
import StagedSearch.Directive.Grammar
import StagedSearch.Directive.Hint
import StagedSearch.Directive.Resolve
import StagedSearch.Domain.Basic
import StagedSearch.Domain.Canonical
import StagedSearch.Domain.History
import StagedSearch.Domain.IntDomain
import StagedSearch.Domain.SetDomain
import StagedSearch.Model.Names
import StagedSearch.Model.Placement
import StagedSearch.Model.Samples
import StagedSearch.Number.Bounded
import StagedSearch.Number.Decimal
import StagedSearch.Number.Total
import StagedSearch.Options.Basic
import StagedSearch.Options.Load
import StagedSearch.Options.Reading
import StagedSearch.Options.Toml.Document
import StagedSearch.Options.Toml.Scalar
import StagedSearch.Options.Yaml.Cursor
import StagedSearch.Options.Yaml.Document
import StagedSearch.Options.Yaml.Layout
import StagedSearch.Options.Yaml.Node
import StagedSearch.Options.Yaml.Scalar
import StagedSearch.Options.Yaml.Token
import StagedSearch.Output.Protocol
import StagedSearch.Output.Sink
import StagedSearch.Pattern.Basic
import StagedSearch.Pattern.Reader
import StagedSearch.Pattern.Support
import StagedSearch.Proofs.Branching.Middle
import StagedSearch.Proofs.Branching.Offers
import StagedSearch.Proofs.Branching.Partition
import StagedSearch.Proofs.Branching.Selection
import StagedSearch.Proofs.Branching.Splitting
import StagedSearch.Proofs.Directive.Grammar
import StagedSearch.Proofs.Directive.Items
import StagedSearch.Proofs.Domain.History
import StagedSearch.Proofs.Domain.Listing
import StagedSearch.Proofs.Domain.Order
import StagedSearch.Proofs.Domain.Sizes
import StagedSearch.Proofs.Domain.Values
import StagedSearch.Proofs.Model.Queens
import StagedSearch.Proofs.Output.Requests
import StagedSearch.Proofs.Output.Writing
import StagedSearch.Proofs.Propagation.Confluence
import StagedSearch.Proofs.Propagation.Decided
import StagedSearch.Proofs.Propagation.Fixpoint
import StagedSearch.Proofs.Propagation.Ground
import StagedSearch.Proofs.Propagation.Preservation
import StagedSearch.Proofs.Propagation.Spares
import StagedSearch.Proofs.Propagation.Stable
import StagedSearch.Proofs.Propagation.Sweeps
import StagedSearch.Proofs.Search.Adjusted
import StagedSearch.Proofs.Search.Admission
import StagedSearch.Proofs.Search.Attempt
import StagedSearch.Proofs.Search.Balance
import StagedSearch.Proofs.Search.Budget
import StagedSearch.Proofs.Search.Complete
import StagedSearch.Proofs.Search.Costs
import StagedSearch.Proofs.Search.Counted
import StagedSearch.Proofs.Search.Course
import StagedSearch.Proofs.Search.Credit
import StagedSearch.Proofs.Search.Deadline
import StagedSearch.Proofs.Search.Discrepancies
import StagedSearch.Proofs.Search.Enumeration
import StagedSearch.Proofs.Search.Exhausted
import StagedSearch.Proofs.Search.Explored
import StagedSearch.Proofs.Search.Faults
import StagedSearch.Proofs.Search.Fixing
import StagedSearch.Proofs.Search.Frames
import StagedSearch.Proofs.Search.Incumbents
import StagedSearch.Proofs.Search.Independence
import StagedSearch.Proofs.Search.Lexicographic
import StagedSearch.Proofs.Search.Limit
import StagedSearch.Proofs.Search.Nesting
import StagedSearch.Proofs.Search.NodeStates
import StagedSearch.Proofs.Search.Optimum
import StagedSearch.Proofs.Search.Orderly
import StagedSearch.Proofs.Search.Placements
import StagedSearch.Proofs.Search.Pricing
import StagedSearch.Proofs.Search.Reexplored
import StagedSearch.Proofs.Search.Reports
import StagedSearch.Proofs.Search.Run
import StagedSearch.Proofs.Search.Running
import StagedSearch.Proofs.Search.Simulation
import StagedSearch.Proofs.Search.Staged
import StagedSearch.Proofs.Search.Stopping
import StagedSearch.Proofs.Search.Stores
import StagedSearch.Proofs.Search.Streamed
import StagedSearch.Proofs.Search.Untimed
import StagedSearch.Proofs.Search.Ways
import StagedSearch.Proofs.Solve.Channels
import StagedSearch.Proofs.Solve.Ending
import StagedSearch.Proofs.Solve.Faults
import StagedSearch.Proofs.Solve.Found
import StagedSearch.Proofs.Solve.Refusals
import StagedSearch.Proofs.Solve.Requests
import StagedSearch.Proofs.Solve.Returns
import StagedSearch.Proofs.Solve.Status
import StagedSearch.Proofs.Solve.Steps
import StagedSearch.Proofs.Solve.Store
import StagedSearch.Proofs.Solve.Streaming
import StagedSearch.Proofs.Store.Atomicity
import StagedSearch.Proofs.Store.Declared
import StagedSearch.Proofs.Store.Exactness
import StagedSearch.Proofs.Store.Extension
import StagedSearch.Proofs.Store.Narrowing
import StagedSearch.Proofs.Store.Reachable
import StagedSearch.Proofs.Store.Restoration
import StagedSearch.Proofs.Store.Saved
import StagedSearch.Proofs.Store.Steps
import StagedSearch.Proofs.Store.Tables
import StagedSearch.Proofs.Store.Trail
import StagedSearch.Proofs.Store.Values
import StagedSearch.Proofs.Tree.Arrangement
import StagedSearch.Proofs.Tree.Compile
import StagedSearch.Proofs.Tree.Grown
import StagedSearch.Proofs.Tree.InPlace
import StagedSearch.Proofs.Tree.Objective
import StagedSearch.Proofs.Tree.Refusals
import StagedSearch.Proofs.Tree.Stages
import StagedSearch.Proofs.Tree.Traversal
import StagedSearch.Proofs.Tree.Wiring
import StagedSearch.Random.ChaCha
import StagedSearch.Random.Shuffle
import StagedSearch.Search.Clock
import StagedSearch.Search.Context
import StagedSearch.Search.Course
import StagedSearch.Search.Decorator
import StagedSearch.Search.Engine
import StagedSearch.Search.Journal
import StagedSearch.Search.Listener
import StagedSearch.Search.Nesting
import StagedSearch.Search.Outcome
import StagedSearch.Search.Ways
import StagedSearch.Solve.Basic
import StagedSearch.Store.Basic
import StagedSearch.Store.Constraint
import StagedSearch.Store.DomainTable
import StagedSearch.Store.Operation
import StagedSearch.Store.Propagation
import StagedSearch.Store.Satisfaction
import StagedSearch.Store.Variable
import StagedSearch.Store.WellFormed
import StagedSearch.Text.Alphabetic
import StagedSearch.Text.Alphanumeric
import StagedSearch.Text.Bytes
import StagedSearch.Text.Combining
import StagedSearch.Text.Digits
import StagedSearch.Text.Numeral
import StagedSearch.Text.Printable
import StagedSearch.Text.Ranges
import StagedSearch.Text.Space
import StagedSearch.Tree.Basic
import StagedSearch.Tree.Build
import StagedSearch.Tree.Compiled
import StagedSearch.Tree.Progress
import StagedSearch.Tree.Shape
