import NetImport.Command.InputArgument
import NetImport.Command.Inspect
import NetImport.Command.Options
import NetImport.Command.Report
import NetImport.Command.Run
import NetImport.Config.Basic
import NetImport.Config.Input
import NetImport.Config.TomlForm
import NetImport.Execution.Bindings
import NetImport.Execution.Engine
import NetImport.Execution.Metrics
import NetImport.Execution.Raw
import NetImport.Execution.Words
import NetImport.Files.Path
import NetImport.Files.Store
import NetImport.Graph.Basic
import NetImport.Graph.Error
import NetImport.Graph.Node
import NetImport.Graph.Summary
import NetImport.Graph.Typing
import NetImport.Graph.Verification
import NetImport.Graph.Words
import NetImport.Json.Basic
import NetImport.Json.Parser
import NetImport.Json.Printer
import NetImport.Json.Text
import NetImport.Kernel.Check
import NetImport.Kernel.Convolution
import NetImport.Kernel.Elementwise
import NetImport.Kernel.MatrixProduct
import NetImport.Kernel.Pooling
import NetImport.Kernel.Rearrangement
import NetImport.Kernel.Softmax
import NetImport.Kernel.Storage
import NetImport.Kernel.Window
import NetImport.Kernel.Words
import NetImport.Lowering.Basic
import NetImport.Lowering.Convolution
import NetImport.Lowering.Dispatch
import NetImport.Lowering.Elementwise
import NetImport.Lowering.Layout
import NetImport.Lowering.MatrixProduct
import NetImport.Lowering.OperatorKind
import NetImport.Lowering.Words
import NetImport.Main
import NetImport.Model.Arguments
import NetImport.Model.Environment
import NetImport.Model.Error
import NetImport.Model.Files
import NetImport.Model.Load
import NetImport.Model.Tables
import NetImport.Model.Weights
import NetImport.Model.Words
import NetImport.Net.Argument
import NetImport.Net.Definition
import NetImport.Net.JsonForm
import NetImport.Net.Message
import NetImport.Net.Notation
import NetImport.Numeric.Binary
import NetImport.Numeric.FixedPlaces
import NetImport.Numeric.IntRange
import NetImport.Numeric.Literal
import NetImport.Numeric.Shortest
import NetImport.Proofs.Command.InputArguments
import NetImport.Proofs.Execution.Acceptance
import NetImport.Proofs.Execution.Binding
import NetImport.Proofs.Execution.Buffers
import NetImport.Proofs.Execution.Evaluation
import NetImport.Proofs.Execution.Extension
import NetImport.Proofs.Execution.Kernels
import NetImport.Proofs.Execution.Raw
import NetImport.Proofs.Execution.TypeSoundness
import NetImport.Proofs.Execution.Words
import NetImport.Proofs.Graph.Building
import NetImport.Proofs.Graph.Derivations
import NetImport.Proofs.Graph.Growth
import NetImport.Proofs.Graph.Invariant
import NetImport.Proofs.Graph.Refusals
import NetImport.Proofs.Graph.Relocation
import NetImport.Proofs.Graph.Typing
import NetImport.Proofs.Graph.Variables
import NetImport.Proofs.Graph.Verification
import NetImport.Proofs.InPlace.Blocks
import NetImport.Proofs.InPlace.Calls
import NetImport.Proofs.InPlace.Concatenation
import NetImport.Proofs.InPlace.Convolution
import NetImport.Proofs.InPlace.Elementwise
import NetImport.Proofs.InPlace.InnerProducts
import NetImport.Proofs.InPlace.Joining
import NetImport.Proofs.InPlace.Odometer
import NetImport.Proofs.InPlace.Pooling
import NetImport.Proofs.InPlace.Rearrangement
import NetImport.Proofs.InPlace.Routine
import NetImport.Proofs.InPlace.Rows
import NetImport.Proofs.InPlace.Transposition
import NetImport.Proofs.InPlace.Walks
import NetImport.Proofs.InPlace.WindowCounting
import NetImport.Proofs.Json.Documents
import NetImport.Proofs.Json.Numerals
import NetImport.Proofs.Json.Text
import NetImport.Proofs.Kernel.Broadcasting
import NetImport.Proofs.Kernel.Check
import NetImport.Proofs.Kernel.Clipped
import NetImport.Proofs.Kernel.Convolved
import NetImport.Proofs.Kernel.Elementwise
import NetImport.Proofs.Kernel.Images
import NetImport.Proofs.Kernel.Matrices
import NetImport.Proofs.Kernel.Normalized
import NetImport.Proofs.Kernel.Permutation
import NetImport.Proofs.Kernel.Pooled
import NetImport.Proofs.Kernel.Rearrangement
import NetImport.Proofs.Kernel.Reduction
import NetImport.Proofs.Kernel.Stacking
import NetImport.Proofs.Kernel.WindowStops
import NetImport.Proofs.Kernel.WindowWords
import NetImport.Proofs.Kernel.Windows
import NetImport.Proofs.Kernel.Words
import NetImport.Proofs.Lowering.BatchMatMul
import NetImport.Proofs.Lowering.BatchProduct
import NetImport.Proofs.Lowering.BatchWords
import NetImport.Proofs.Lowering.Broadcasts
import NetImport.Proofs.Lowering.Carried
import NetImport.Proofs.Lowering.Clips
import NetImport.Proofs.Lowering.Continued
import NetImport.Proofs.Lowering.Convolutions
import NetImport.Proofs.Lowering.Domains
import NetImport.Proofs.Lowering.FlatProducts
import NetImport.Proofs.Lowering.Growth
import NetImport.Proofs.Lowering.Handlers
import NetImport.Proofs.Lowering.Images
import NetImport.Proofs.Lowering.Joins
import NetImport.Proofs.Lowering.MirroredHandlers
import NetImport.Proofs.Lowering.Mirroring
import NetImport.Proofs.Lowering.OneOutput
import NetImport.Proofs.Lowering.Outcome
import NetImport.Proofs.Lowering.Pools
import NetImport.Proofs.Lowering.RequestedExtents
import NetImport.Proofs.Lowering.Reshapes
import NetImport.Proofs.Lowering.Results
import NetImport.Proofs.Lowering.SafeHandlers
import NetImport.Proofs.Lowering.Safety
import NetImport.Proofs.Lowering.Softmaxes
import NetImport.Proofs.Lowering.Stacking
import NetImport.Proofs.Lowering.Stacks
import NetImport.Proofs.Lowering.TwoOutputs
import NetImport.Proofs.Lowering.UnboundedClips
import NetImport.Proofs.Lowering.WindowArguments
import NetImport.Proofs.Lowering.Words
import NetImport.Proofs.Model.Atomicity
import NetImport.Proofs.Model.Conflicts
import NetImport.Proofs.Model.Environment
import NetImport.Proofs.Model.Layout
import NetImport.Proofs.Model.Loading
import NetImport.Proofs.Model.Reading
import NetImport.Proofs.Model.Refusals
import NetImport.Proofs.Model.Relocation
import NetImport.Proofs.Model.Tables
import NetImport.Proofs.Model.Weights
import NetImport.Proofs.Model.WireForm
import NetImport.Proofs.Model.Words
import NetImport.Proofs.Net.Canonical
import NetImport.Proofs.Net.JsonForm
import NetImport.Proofs.Net.SingleNumerals
import NetImport.Proofs.Numeric.Doubles
import NetImport.Proofs.Numeric.Rounding
import NetImport.Proofs.Numeric.Shortest
import NetImport.Proofs.Numeric.Singles
import NetImport.Proofs.Refusals
import NetImport.Proofs.Sequencing
import NetImport.Proofs.Tensor.Coordinates
import NetImport.Proofs.Tensor.Elements
import NetImport.Proofs.Tensor.Integers
import NetImport.Proofs.Tensor.RowMajor
import NetImport.Proofs.Tensor.Stacks
import NetImport.Proofs.Tensor.Words
import NetImport.Proofs.Wire.Fields
import NetImport.Proofs.Wire.Messages
import NetImport.Session.Basic
import NetImport.Tensor.Basic
import NetImport.Tensor.DType
import NetImport.Tensor.Error
import NetImport.Tensor.Shape
import NetImport.Tensor.Words
import NetImport.Text.Digits
import NetImport.Text.Layout
import NetImport.Text.Utf8
import NetImport.TextForm.Codec
import NetImport.TextForm.Document
import NetImport.TextForm.Schema
import NetImport.TextForm.Token
import NetImport.Toml.Assembly
import NetImport.Toml.Basic
import NetImport.Toml.Number
import NetImport.Toml.Parser
import NetImport.Toml.Printer
import NetImport.Toml.Text
import NetImport.Wire.Codec
import NetImport.Wire.Field
import NetImport.Wire.Varint
