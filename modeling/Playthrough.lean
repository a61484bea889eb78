import Playthrough.Ascending
import Playthrough.Block
import Playthrough.Command.Mode
import Playthrough.Command.Options
import Playthrough.Command.Run
import Playthrough.Command.World
import Playthrough.Cost
import Playthrough.Decimal.Binary
import Playthrough.Decimal.Literal
import Playthrough.Decimal.Shortest
import Playthrough.Decimal.Style
import Playthrough.Draft.Align
import Playthrough.Draft.Basic
import Playthrough.Draft.Feed
import Playthrough.Draft.Finish
import Playthrough.Fault
import Playthrough.Fault.Message
import Playthrough.Json
import Playthrough.Label
import Playthrough.Ledger.Basic
import Playthrough.Ledger.Feed
import Playthrough.Main
import Playthrough.Problem
import Playthrough.Reading.Document
import Playthrough.Reading.Line
import Playthrough.Reading.Markup
import Playthrough.Reading.Minutes
import Playthrough.Reading.Plain
import Playthrough.Reading.Settings
import Playthrough.Record
import Playthrough.Report.Basic
import Playthrough.Report.Json
import Playthrough.Report.Text
import Playthrough.Route.Basic
import Playthrough.Route.Components
import Playthrough.Route.Longest
import Playthrough.Route.Shortest
import Playthrough.Route.Traversal
import Playthrough.Script.Comment
import Playthrough.Script.Statement
import Playthrough.Story.Costed
import Playthrough.Story.Graph
import Playthrough.Story.Incoming
import Playthrough.Story.Merge
import Playthrough.Table
import Playthrough.Text.Blank
import Playthrough.Text.CodeRange
import Playthrough.Text.DecimalDigit
import Playthrough.Text.Extender
import Playthrough.Text.Lines
import Playthrough.Text.Quoted
import Playthrough.Text.Unprintable
import Playthrough.Text.Word
import Playthrough.Timing
import Playthrough.Toml.Document
import Playthrough.Toml.Number
import Playthrough.Toml.Quoted
import Playthrough.Proofs.Walk
import Playthrough.Proofs.Story.Reach
import Playthrough.Proofs.Story.Incoming
import Playthrough.Proofs.Story.Reduce
import Playthrough.Proofs.Route.Components
import Playthrough.Proofs.Route.Longest
import Playthrough.Proofs.Route.Shortest
import Playthrough.Proofs.Story.Merge
import Playthrough.Proofs.Draft.Growth
import Playthrough.Proofs.Draft.Indent
import Playthrough.Proofs.Draft.Outline
import Playthrough.Proofs.Draft.Onward
import Playthrough.Proofs.Draft.Bodies
import Playthrough.Proofs.Draft.Comments
import Playthrough.Proofs.Draft.Correct
import Playthrough.Proofs.Route.Bounds
import Playthrough.Proofs.Story.Joined
import Playthrough.Proofs.Story.Chains
import Playthrough.Proofs.Story.Normal
import Playthrough.Proofs.Story.Turns
import Playthrough.Proofs.Story.Recorded
import Playthrough.Proofs.Route.Itinerary
import Playthrough.Proofs.Draft.Moves
import Playthrough.Proofs.Draft.Nesting
import Playthrough.Proofs.Draft.Registry
import Playthrough.Proofs.Ledger.Basic
import Playthrough.Proofs.Ledger.Simulation
import Playthrough.Proofs.Ledger.Nesting
import Playthrough.Proofs.Ledger.Registry
import Playthrough.Proofs.Story.Dangling
import Playthrough.Proofs.Draft.Undeclared
import Playthrough.Proofs.Renumbering.Basic
import Playthrough.Proofs.Renumbering.Draft
import Playthrough.Proofs.Renumbering.Story
import Playthrough.Proofs.Renumbering.Route
import Playthrough.Proofs.Renumbering.Script
import Playthrough.Proofs.Retelling.Draft
import Playthrough.Proofs.Retelling.Story
import Playthrough.Proofs.Retelling.Abridged
import Playthrough.Proofs.Text.Trim
import Playthrough.Proofs.Reading.Aliases
import Playthrough.Proofs.Reading.Costs
import Playthrough.Proofs.Reading.Accounts
import Playthrough.Proofs.Reading.Additive
import Playthrough.Proofs.Draft.Choices
import Playthrough.Proofs.Draft.Flow
import Playthrough.Proofs.Reading.Pace
import Playthrough.Proofs.Route.Bare
import Playthrough.Proofs.Reading.Names
import Playthrough.Proofs.Script.Comment
import Playthrough.Proofs.Script.Statement
import Playthrough.Proofs.Script.Pattern
import Playthrough.Proofs.Script.Recognition
import Playthrough.Proofs.Script.Grammar
import Playthrough.Proofs.Reading.Spoken
import Playthrough.Proofs.Reading.Segments
import Playthrough.Proofs.Reading.Patterns
import Playthrough.Proofs.Reading.Shape
import Playthrough.Proofs.Draft.Scopes
import Playthrough.Proofs.Draft.Display
import Playthrough.Proofs.Command.Apart
import Playthrough.Proofs.Route.Halting
import Playthrough.Proofs.Route.Condensation
import Playthrough.Proofs.Draft.Alignment
import Playthrough.Proofs.Draft.Resolution
import Playthrough.Proofs.Draft.Siblings
import Playthrough.Proofs.Draft.Dispatch
import Playthrough.Proofs.Draft.Branches
