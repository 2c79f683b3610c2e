import Flowchart.Abort
import Flowchart.CommandLine.Arguments
import Flowchart.CommandLine.Command
import Flowchart.CommandLine.Run
import Flowchart.Console
import Flowchart.Credentials
import Flowchart.Data
import Flowchart.Data.Field
import Flowchart.Debounce
import Flowchart.Diagram
import Flowchart.Diagram.Parser
import Flowchart.Diff
import Flowchart.Diff.Patch
import Flowchart.Diff.Row
import Flowchart.Editor
import Flowchart.Editor.Page
import Flowchart.Failure
import Flowchart.Files
import Flowchart.Files.Disk
import Flowchart.Files.Path
import Flowchart.Graph
import Flowchart.Graph.Builder
import Flowchart.Graph.Lint
import Flowchart.Graph.Rank
import Flowchart.Log
import Flowchart.Main
import Flowchart.Metrics
import Flowchart.Number.Coordinate
import Flowchart.Number.Decimal
import Flowchart.Number.FixedPoint
import Flowchart.Number.Shortest
import Flowchart.Position
import Flowchart.Preview
import Flowchart.Render
import Flowchart.Repair
import Flowchart.Scene
import Flowchart.Scene.Cluster
import Flowchart.Scene.Drawing
import Flowchart.Scene.Layout
import Flowchart.Scene.Placement
import Flowchart.Scene.Route
import Flowchart.Settings
import Flowchart.Settings.File
import Flowchart.Settings.Schema
import Flowchart.Shape
import Flowchart.Svg
import Flowchart.Svg.Label
import Flowchart.Svg.Numeral
import Flowchart.Text.Alphanumeric
import Flowchart.Text.Base64
import Flowchart.Text.Blank
import Flowchart.Text.Digit
import Flowchart.Text.Lines
import Flowchart.Text.Printable
import Flowchart.Text.Quoted
import Flowchart.Text.Split
import Flowchart.Token
import Flowchart.Token.Lexeme
import Flowchart.Token.Lexer
import Flowchart.Watch
import Flowchart.Widget
import Flowchart.Xml
import Flowchart.Yaml.Cursor
import Flowchart.Yaml.Entry
import Flowchart.Yaml.Fault
import Flowchart.Yaml.Form
import Flowchart.Yaml.Moment
import Flowchart.Yaml.Node
import Flowchart.Yaml.Scalar
import Flowchart.Yaml.Token
import Flowchart.Yaml.Token.Lexer
import Flowchart.Yaml.Value
import Flowchart.Proofs.Diagram.Grammar
import Flowchart.Proofs.Diagram.Acceptance
import Flowchart.Proofs.Diagram.ErrorPosition
import Flowchart.Proofs.Diagram.Printing
import Flowchart.Proofs.Token.Writing
import Flowchart.Proofs.Diagram.RoundTrip
import Flowchart.Proofs.Graph.Conflict
import Flowchart.Proofs.Token.Places
import Flowchart.Proofs.Graph.Ranks
import Flowchart.Proofs.Graph.Soundness
import Flowchart.Proofs.Diagram.Texts
import Flowchart.Proofs.Graph.Texts
import Flowchart.Proofs.Scene.Texts
import Flowchart.Proofs.Diagram.Outline
import Flowchart.Proofs.Graph.Resolution
import Flowchart.Proofs.Graph.Forest
import Flowchart.Proofs.Scene.Rows
import Flowchart.Proofs.Scene.Completeness
import Flowchart.Proofs.Render
import Flowchart.Proofs.Debounce.History
import Flowchart.Proofs.Debounce.Loop
import Flowchart.Proofs.Debounce.Exact
import Flowchart.Proofs.Diff.Edits
import Flowchart.Proofs.Diff.Agreement
import Flowchart.Proofs.Diff.Unified
import Flowchart.Proofs.Diff.Application
import Flowchart.Proofs.Debounce.Generations
import Flowchart.Proofs.Number.Rational
import Flowchart.Proofs.Scene.Arrangement
import Flowchart.Proofs.Scene.Bands
import Flowchart.Proofs.Scene.Separation
import Flowchart.Proofs.Scene.Canvas
import Flowchart.Proofs.Scene.Fitting
import Flowchart.Proofs.Xml.Grammar
import Flowchart.Proofs.Xml.Reading
import Flowchart.Proofs.Xml.Writing
import Flowchart.Proofs.Svg.Characters
import Flowchart.Proofs.Svg.Markup
import Flowchart.Proofs.Svg.Legality
import Flowchart.Proofs.Files.Disk
import Flowchart.Proofs.Yaml.Cursor
import Flowchart.Proofs.Yaml.Quoted
import Flowchart.Proofs.Yaml.Plain
import Flowchart.Proofs.Yaml.Folding
import Flowchart.Proofs.Yaml.Escapes
import Flowchart.Proofs.Yaml.Entry
import Flowchart.Proofs.Yaml.RoundTrip
import Flowchart.Proofs.Credentials
import Flowchart.Proofs.Abort
import Flowchart.Proofs.CommandLine.World
import Flowchart.Proofs.CommandLine.Endings
import Flowchart.Proofs.CommandLine.Commands
import Flowchart.Proofs.CommandLine.Exits
import Flowchart.Proofs.Diff.Rows
import Flowchart.Proofs.Debounce.Single
import Flowchart.Proofs.Preview
import Flowchart.Proofs.Watch.Timing
import Flowchart.Proofs.Watch.Reports
import Flowchart.Proofs.CommandLine.Acceptance
import Flowchart.Proofs.Editor.Settling
import Flowchart.Proofs.Scene.Clusters
import Flowchart.Proofs.Scene.Depiction
import Flowchart.Proofs.Scene.Undrawn
import Flowchart.Proofs.Token.Sequence
import Flowchart.Proofs.Token.Coverage
import Flowchart.Proofs.Graph.Depths
import Flowchart.Proofs.Graph.Cycles
import Flowchart.Proofs.Diagram.EdgeLabels
import Flowchart.Proofs.Diagram.Excerpts
import Flowchart.Proofs.Diagram.Spans
import Flowchart.Proofs.Svg.Tags
import Flowchart.Proofs.Scene.Captions
import Flowchart.Proofs.Debounce.Cancellation
import Flowchart.Proofs.Debounce.Outlook
import Flowchart.Proofs.Debounce.Failure
import Flowchart.Proofs.Editor.Asking
import Flowchart.Proofs.Scene.Facing
import Flowchart.Proofs.Scene.Enclosure
import Flowchart.Proofs.Scene.Mirror
import Flowchart.Proofs.Scene.Routes
import Flowchart.Proofs.Scene.Parallel
import Flowchart.Proofs.Scene.Ends
import Flowchart.Proofs.Scene.Outlines
import Flowchart.Proofs.Token.Locality
import Flowchart.Proofs.Token.Padding
import Flowchart.Proofs.Token.Spacing
import Flowchart.Proofs.Diagram.Spacing
import Flowchart.Proofs.Graph.Acyclic
import Flowchart.Proofs.Repair.Fences
import Flowchart.Proofs.Svg.OnePass
import Flowchart.Proofs.Scene.Relabelling
import Flowchart.Proofs.Svg.Concealment
import Flowchart.Proofs.Number.Double
import Flowchart.Proofs.Svg.Numerals
import Flowchart.Proofs.Diagram.Totality
import Flowchart.Proofs.Credentials.Saving
import Flowchart.Proofs.Number.Rounding
import Flowchart.Proofs.Number.Magnitude
import Flowchart.Proofs.Number.Limits
import Flowchart.Proofs.Graph.Size
import Flowchart.Proofs.Scene.Extent
import Flowchart.Proofs.Scene.Numbers
import Flowchart.Proofs.Settings
import Flowchart.Proofs.Svg.Figures
import Flowchart.Proofs.Svg.Finiteness
