import RegexAutomaton.Graph.Walk
import RegexAutomaton.Graph.Text
import RegexAutomaton.Text.Lines
import RegexAutomaton.Text.Numeral
import RegexAutomaton.Value.Reader
import RegexAutomaton.Value.Writer
import RegexAutomaton.Tree.Reading
import RegexAutomaton.Tree.Equality
import RegexAutomaton.Tree.Display
import RegexAutomaton.Regex.OfTree
import RegexAutomaton.Automaton.Export
import RegexAutomaton.Automaton.Mesh
import RegexAutomaton.Construction.Basic
import RegexAutomaton.CommandLine.Run
import RegexAutomaton.Main
import RegexAutomaton.Proofs.Construction.Recursion
import RegexAutomaton.Proofs.Regex.Induction
import RegexAutomaton.Proofs.Regex.Language
import RegexAutomaton.Proofs.Construction.Expression
import RegexAutomaton.Proofs.Construction.Growth
import RegexAutomaton.Proofs.Construction.Layout
import RegexAutomaton.Proofs.Automaton.Path
import RegexAutomaton.Proofs.Construction.Hosting
import RegexAutomaton.Proofs.Automaton.Recognition
import RegexAutomaton.Proofs.Walk.Exploration
import RegexAutomaton.Proofs.Walk.Recursion
import RegexAutomaton.Proofs.Walk.GrowingGraph
import RegexAutomaton.Proofs.Walk.Coverage
import RegexAutomaton.Proofs.Walk.Composition
import RegexAutomaton.Proofs.Construction.Liveness
import RegexAutomaton.Proofs.Construction.Rejection
import RegexAutomaton.Proofs.Value.Node
import RegexAutomaton.Proofs.Tree.Failure
import RegexAutomaton.Proofs.Tree.Grammar
import RegexAutomaton.Proofs.Regex.Nodes
import RegexAutomaton.Proofs.Construction.Shape
import RegexAutomaton.Proofs.Regex.FirstLetter
import RegexAutomaton.Proofs.Automaton.FirstStep
import RegexAutomaton.Proofs.Automaton.Outline
import RegexAutomaton.Proofs.Construction.Relocation
import RegexAutomaton.Proofs.Label.Padding
import RegexAutomaton.Proofs.Label.Column
import RegexAutomaton.Proofs.Text.Lines
import RegexAutomaton.Proofs.Automaton.Mesh
import RegexAutomaton.Proofs.Value.Writing
import RegexAutomaton.Proofs.CommandLine.Options
import RegexAutomaton.Proofs.CommandLine.Answer
import RegexAutomaton.Proofs.CommandLine.Streams
import RegexAutomaton.Proofs.CommandLine.Arguments
import RegexAutomaton.Proofs.CommandLine.Closure
import RegexAutomaton.Proofs.Construction.Arcs
import RegexAutomaton.Proofs.Construction.Size
import RegexAutomaton.Proofs.Tree.Grouping
import RegexAutomaton.Proofs.Construction.Grouping
import RegexAutomaton.Proofs.Construction.Loops
import RegexAutomaton.Proofs.Construction.Letters
import RegexAutomaton.Proofs.Walk.Locality
import RegexAutomaton.Proofs.Value.Entries
import RegexAutomaton.Proofs.Tree.Depth
import RegexAutomaton.Proofs.Tree.Writing
import RegexAutomaton.Proofs.Tree.Rewriting
import RegexAutomaton.Proofs.Construction.Pruning
import RegexAutomaton.Proofs.Decimal.Characters
import RegexAutomaton.Proofs.Text.Quoted
import RegexAutomaton.Proofs.Value.Display
import RegexAutomaton.Proofs.Value.Room
import RegexAutomaton.Proofs.Value.Scanning
import RegexAutomaton.Proofs.Value.RoundTrip
import RegexAutomaton.Proofs.Value.Extent
import RegexAutomaton.Proofs.CommandLine.Rejection
import RegexAutomaton.Proofs.CommandLine.Export
import RegexAutomaton.Proofs.Automaton.MeshLines
