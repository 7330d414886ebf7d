import ShapeFlow.Attribute
import ShapeFlow.Cli.Flags
import ShapeFlow.Cli.Run
import ShapeFlow.Description.Draft
import ShapeFlow.Description.Model
import ShapeFlow.Dict
import ShapeFlow.Event
import ShapeFlow.Folder
import ShapeFlow.Graph
import ShapeFlow.Graph.Levels
import ShapeFlow.Inference.Result
import ShapeFlow.Inference.Verdict
import ShapeFlow.Main
import ShapeFlow.Model
import ShapeFlow.ModelFile
import ShapeFlow.Number.Binary
import ShapeFlow.Number.Decimal
import ShapeFlow.Number.Integer
import ShapeFlow.Number.Shortest
import ShapeFlow.Number.Single
import ShapeFlow.Operator.Flatten
import ShapeFlow.Operator.GlobalPool
import ShapeFlow.Operator.RegionPool
import ShapeFlow.Operator.Transposed
import ShapeFlow.Operator.Unchanged
import ShapeFlow.Operator.Window
import ShapeFlow.Override
import ShapeFlow.Proofs.Description.Attributes
import ShapeFlow.Proofs.Description.Numbers
import ShapeFlow.Proofs.Description.Positions
import ShapeFlow.Proofs.Except
import ShapeFlow.Proofs.Graph.Countdown
import ShapeFlow.Proofs.Graph.Cycles
import ShapeFlow.Proofs.Graph.Feeding
import ShapeFlow.Proofs.Graph.Levels
import ShapeFlow.Proofs.Graph.Orderable
import ShapeFlow.Proofs.Inference.Checked
import ShapeFlow.Proofs.Inference.Result
import ShapeFlow.Proofs.Information
import ShapeFlow.Proofs.Join
import ShapeFlow.Proofs.Merge
import ShapeFlow.Proofs.ModelFile
import ShapeFlow.Proofs.Names
import ShapeFlow.Proofs.Number.Decimal
import ShapeFlow.Proofs.Number.Integer
import ShapeFlow.Proofs.Operator.Checked
import ShapeFlow.Proofs.Operator.Counting
import ShapeFlow.Proofs.Operator.Definite
import ShapeFlow.Proofs.Operator.Flatten
import ShapeFlow.Proofs.Operator.Inverse
import ShapeFlow.Proofs.Operator.Monotone
import ShapeFlow.Proofs.Operator.Names
import ShapeFlow.Proofs.Operator.Natural
import ShapeFlow.Proofs.Operator.Rank
import ShapeFlow.Proofs.Operator.Reading
import ShapeFlow.Proofs.Operator.Reasons
import ShapeFlow.Proofs.Override
import ShapeFlow.Proofs.Registry
import ShapeFlow.Proofs.Registry.Selection
import ShapeFlow.Proofs.Registry.Slots
import ShapeFlow.Proofs.Resolver.Agreement
import ShapeFlow.Proofs.Resolver.Completeness
import ShapeFlow.Proofs.Resolver.Completion
import ShapeFlow.Proofs.Resolver.Dataflow
import ShapeFlow.Proofs.Resolver.Downstream
import ShapeFlow.Proofs.Resolver.FailureTable
import ShapeFlow.Proofs.Resolver.Faithful
import ShapeFlow.Proofs.Resolver.History
import ShapeFlow.Proofs.Resolver.Interruption
import ShapeFlow.Proofs.Resolver.Invariant
import ShapeFlow.Proofs.Resolver.Names
import ShapeFlow.Proofs.Resolver.Points
import ShapeFlow.Proofs.Resolver.Record
import ShapeFlow.Proofs.Resolver.Refinement
import ShapeFlow.Proofs.Resolver.Settled
import ShapeFlow.Proofs.Resolver.Stability
import ShapeFlow.Proofs.Resolver.Summary
import ShapeFlow.Proofs.Resolver.Trace
import ShapeFlow.Proofs.Text
import ShapeFlow.Proofs.Text.Pieces
import ShapeFlow.Proofs.Wire.Extension
import ShapeFlow.Proofs.Wire.Grammar
import ShapeFlow.Proofs.Wire.Layout
import ShapeFlow.Proofs.Wire.Lists
import ShapeFlow.Proofs.Wire.Order
import ShapeFlow.Proofs.Wire.RoundTrip
import ShapeFlow.Proofs.Wire.Sizes
import ShapeFlow.Proofs.Wire.Truncation
import ShapeFlow.Proofs.Wire.Writing
import ShapeFlow.Proofs.Yaml.Decode
import ShapeFlow.Proofs.Yaml.Entries
import ShapeFlow.Proofs.Yaml.Faultless
import ShapeFlow.Registry
import ShapeFlow.Report
import ShapeFlow.Report.Quantity
import ShapeFlow.Report.Table
import ShapeFlow.Resolver
import ShapeFlow.Resolver.Query
import ShapeFlow.Resolver.Run
import ShapeFlow.Resolver.Trace
import ShapeFlow.Tensor.Element
import ShapeFlow.Tensor.Info
import ShapeFlow.Tensor.Shape
import ShapeFlow.Terminal.Control
import ShapeFlow.Terminal.Pen
import ShapeFlow.Terminal.Sequence
import ShapeFlow.Terminal.Width
import ShapeFlow.Terminal.Wrap
import ShapeFlow.Text
import ShapeFlow.Text.Base64
import ShapeFlow.Text.Blank
import ShapeFlow.Text.Cluster
import ShapeFlow.Text.Cluster.Kind
import ShapeFlow.Text.Printable
import ShapeFlow.Text.Quoted
import ShapeFlow.Text.Split
import ShapeFlow.Text.Utf8
import ShapeFlow.Value
import ShapeFlow.Wire.Field
import ShapeFlow.Wire.Message
import ShapeFlow.Wire.Model
import ShapeFlow.Yaml.Cursor
import ShapeFlow.Yaml.Decode
import ShapeFlow.Yaml.Node
import ShapeFlow.Yaml.Node.Grammar
import ShapeFlow.Yaml.Source
import ShapeFlow.Yaml.Tag
import ShapeFlow.Yaml.Timestamp
import ShapeFlow.Yaml.Token
import ShapeFlow.Yaml.Token.Block
import ShapeFlow.Yaml.Token.Comment
import ShapeFlow.Yaml.Token.Label
import ShapeFlow.Yaml.Token.Lexer
import ShapeFlow.Yaml.Token.Plain
import ShapeFlow.Yaml.Token.Quoted
