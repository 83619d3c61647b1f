import CurrentDrift.Binary64
import CurrentDrift.ByteReader
import CurrentDrift.Command.Arguments
import CurrentDrift.Command.Failure
import CurrentDrift.Command.FileTree
import CurrentDrift.Command.Info
import CurrentDrift.Command.Run
import CurrentDrift.Command.Setup
import CurrentDrift.Command.Validate
import CurrentDrift.Decimal.Literal
import CurrentDrift.Decimal.Notation
import CurrentDrift.Decimal.Rounded
import CurrentDrift.Decimal.Shortest
import CurrentDrift.Drift.Clock
import CurrentDrift.Drift.Dump
import CurrentDrift.Drift.Eddy
import CurrentDrift.Drift.Error
import CurrentDrift.Drift.Fleet
import CurrentDrift.Drift.Particle
import CurrentDrift.Drift.Pattern
import CurrentDrift.Drift.Resolution
import CurrentDrift.Drift.Run
import CurrentDrift.Drift.Sampler
import CurrentDrift.Drift.Scaling
import CurrentDrift.Drift.SpreadTable
import CurrentDrift.Drift.Step
import CurrentDrift.Drift.TimeSeries
import CurrentDrift.FileError
import CurrentDrift.Geo.Point
import CurrentDrift.Geo.Rect
import CurrentDrift.Geo.Velocity
import CurrentDrift.Json.Basic
import CurrentDrift.Json.Double
import CurrentDrift.Json.Printer
import CurrentDrift.Json.Reader
import CurrentDrift.Json.Token
import CurrentDrift.Main
import CurrentDrift.Mesh.Basic
import CurrentDrift.Mesh.Error
import CurrentDrift.Mesh.File
import CurrentDrift.Mesh.FlowField
import CurrentDrift.Mesh.LocationDag
import CurrentDrift.Mesh.Records
import CurrentDrift.Path
import CurrentDrift.Plan.Basic
import CurrentDrift.Plan.Printer
import CurrentDrift.Plan.Reader
import CurrentDrift.Plan.Validation
import CurrentDrift.Random.ChaCha
import CurrentDrift.Random.Source
import CurrentDrift.Scalar
import CurrentDrift.Text.Blank
import CurrentDrift.Text.CodeRange
import CurrentDrift.Text.Dump
import CurrentDrift.Text.Lines
import CurrentDrift.Text.Unprinted
import CurrentDrift.Text.Utf8
import CurrentDrift.Proofs.Command.Acceptance
import CurrentDrift.Proofs.Command.ForecastIndependence
import CurrentDrift.Proofs.Command.References
import CurrentDrift.Proofs.Command.Setup
import CurrentDrift.Proofs.Command.SetupOrder
import CurrentDrift.Proofs.Command.UncertaintyDelay
import CurrentDrift.Proofs.Drift.Agreement
import CurrentDrift.Proofs.Drift.CallOrder
import CurrentDrift.Proofs.Drift.Consistency
import CurrentDrift.Proofs.Drift.Delay
import CurrentDrift.Proofs.Drift.Disturbance
import CurrentDrift.Proofs.Drift.DrawnRanges
import CurrentDrift.Proofs.Drift.Forecast
import CurrentDrift.Proofs.Drift.Frame
import CurrentDrift.Proofs.Drift.History
import CurrentDrift.Proofs.Drift.InactiveFactor
import CurrentDrift.Proofs.Drift.Interpolation
import CurrentDrift.Proofs.Drift.Likeness
import CurrentDrift.Proofs.Drift.MatchChain
import CurrentDrift.Proofs.Drift.Members
import CurrentDrift.Proofs.Drift.Nesting
import CurrentDrift.Proofs.Drift.Period
import CurrentDrift.Proofs.Drift.ReferenceScale
import CurrentDrift.Proofs.Drift.Repetition
import CurrentDrift.Proofs.Drift.Rest
import CurrentDrift.Proofs.Drift.ScaleFactor
import CurrentDrift.Proofs.Drift.SeriesOrder
import CurrentDrift.Proofs.Drift.Simultaneous
import CurrentDrift.Proofs.Drift.Speeds
import CurrentDrift.Proofs.Drift.StoredScale
import CurrentDrift.Proofs.Drift.TableLayout
import CurrentDrift.Proofs.Drift.TableLifetime
import CurrentDrift.Proofs.Drift.VariedVelocity
import CurrentDrift.Proofs.Geo.Rect
import CurrentDrift.Proofs.Geo.Velocity
import CurrentDrift.Proofs.Geo.Words
import CurrentDrift.Proofs.Json.Lexing
import CurrentDrift.Proofs.Json.RoundTrip
import CurrentDrift.Proofs.Mesh.Adjacency
import CurrentDrift.Proofs.Mesh.Bounds
import CurrentDrift.Proofs.Mesh.Centroid
import CurrentDrift.Proofs.Mesh.Chain
import CurrentDrift.Proofs.Mesh.ChainDepth
import CurrentDrift.Proofs.Mesh.CheckedSearch
import CurrentDrift.Proofs.Mesh.Cross
import CurrentDrift.Proofs.Mesh.Depth
import CurrentDrift.Proofs.Mesh.Descent
import CurrentDrift.Proofs.Mesh.Document
import CurrentDrift.Proofs.Mesh.FaultyLine
import CurrentDrift.Proofs.Mesh.LineEndings
import CurrentDrift.Proofs.Mesh.Loading
import CurrentDrift.Proofs.Mesh.Orientation
import CurrentDrift.Proofs.Mesh.Parts
import CurrentDrift.Proofs.Mesh.Pieces
import CurrentDrift.Proofs.Mesh.Reading
import CurrentDrift.Proofs.Mesh.Rejection
import CurrentDrift.Proofs.Mesh.Room
import CurrentDrift.Proofs.Mesh.Tables
import CurrentDrift.Proofs.Mesh.Worklist
import CurrentDrift.Proofs.Outcome
import CurrentDrift.Proofs.Plan.RoundTrip
import CurrentDrift.Proofs.Plan.Saving
import CurrentDrift.Proofs.Plan.Valid
import CurrentDrift.Proofs.Random.Draws
import CurrentDrift.Proofs.Scalar.Difference
import CurrentDrift.Proofs.Scalar.Exact
import CurrentDrift.Proofs.Scalar.Order
import CurrentDrift.Proofs.Text.ByteLines
import CurrentDrift.Proofs.Text.Lines
import CurrentDrift.Proofs.Text.Rows
import CurrentDrift.Proofs.Text.Utf8
