import RegexAutomaton.Automaton.Export
import RegexAutomaton.Automaton.Mesh
import RegexAutomaton.CommandLine.Options
import RegexAutomaton.Construction.Basic
import RegexAutomaton.Tree.Reading
import RegexAutomaton.Value.Reader
import RegexAutomaton.Value.Writer

/-!
# Runs of the command line

A run reads a tree, builds its automaton and writes the export, or the closure of the states that the
options name. What goes wrong with the tree or with the states is told in one line.

There is only so much room for what is nested in an input. Where it runs out, and at an integer that is too
long to be read, the run is broken off by an error that nothing in it handles.
-/

set_option autoImplicit false

namespace RegexAutomaton.CommandLine

/-- What a run leaves behind: its status, and what it has written to its output and beside it. -/
structure Report where
  status : Nat
  output : String
  errors : String
deriving DecidableEq, Repr

/-- The errors that nothing in a run handles. -/
inductive Breakdown where
  | overlong
  | nested
deriving DecidableEq, Repr

inductive Outcome where
  | refused (error : UsageError)
  | helped
  | finished (report : Report)
  | aborted (cause : Breakdown)
  /-- The input has a text with half of a surrogate pair, and nothing is said about the run. -/
  | unsettled
deriving DecidableEq, Repr

/-- How deep the lists and objects of an input, and the nodes of its tree, may be inside each other. A kind that
has been read is taken to find room in a message. -/
structure Limits where
  values : Option Nat
  nodes : Option Nat

namespace Limits

def unlimited : Limits := ⟨none, none⟩

/-- What a stack of a thousand calls has room for beside those of the run. -/
def standard : Limits := ⟨some 990, some 990⟩

end Limits

inductive InputError where
  | unreadable (error : Value.ReadError)
  | malformed (error : StructureError)
  | exhausted

def InputError.ofTree : Tree.ReadError → InputError
  | .malformed error => malformed error
  | .exhausted => exhausted

/-- How a run on an input without an automaton ends. What a malformed input has wrong is left out of the
report: `<json>` stands in its place. -/
def InputError.outcome : InputError → Outcome
  | unreadable .malformed => .finished ⟨1, "", "Invalid syntax tree: <json>\n"⟩
  | unreadable .overlong => .aborted .overlong
  | unreadable .nested => .aborted .nested
  | unreadable .unpaired => .unsettled
  | malformed error => .finished ⟨1, "", "Invalid syntax tree: " ++ error.text ++ "\n"⟩
  | exhausted => .aborted .nested

def automaton? (limits : Limits) (input : String) : Except InputError Built :=
  match Value.readWithin limits.values input with
  | .error error => .error (.unreadable error)
  | .ok value =>
      match Tree.ofValueWithin limits.nodes value with
      | .error error => .error (.ofTree error)
      | .ok tree => tree.build.mapError .malformed

def details (built : Built) : String :=
  "DEBUG:thompson.automatons:" ++ built.note ++ "\n" ++ built.automaton.mesh

def findStates (automaton : Automaton) (labels : List (Option Label)) :
    Except (Option Label) (List Vertex) :=
  labels.mapM fun label =>
    match label with
    | some label => (automaton.state label).mapError some
    | none => .error none

/-- The states that are reached from some states by the transitions with a symbol. Without a symbol none
is followed. -/
def reached (graph : Graph) (roots : List Vertex) : Option Symbol → List Vertex
  | some symbol => graph.closure roots (some symbol)
  | none => roots.eraseDups

def describe (options : Options) (automaton : Automaton) : Except (Option Label) Value :=
  if options.closure.isEmpty then .ok (automaton.toExport options.split).toValue
  else do
    let roots ← findStates automaton options.closure
    let states := reached automaton.graph roots options.symbol
    return .list (states.map fun vertex => .integer (automaton.graph.label vertex))

def givenLabel : Option Label → String
  | some label => label.text
  | none => "[]"

def answer (limits : Limits) (options : Options) (input : String) : Outcome :=
  match automaton? limits input with
  | .error error => error.outcome
  | .ok built =>
      let notes := if options.verbose then details built else ""
      match describe options built.automaton with
      | .ok value => .finished ⟨0, value.written ++ "\n", notes⟩
      | .error label => .finished ⟨1, "", notes ++ "Unknown state: " ++ givenLabel label ++ "\n"⟩

def Source.content (input : String) (files : String → Option String) : Source → Except UsageError String
  | standardInput => .ok input
  | file name =>
      match files name with
      | some text => .ok text
      | none => .error (.unreadable name)

def runWithin (limits : Limits) (arguments : List String) (input : String) (files : String → Option String) :
    Outcome :=
  match Options.ofArguments arguments with
  | .error (.usage error) => .refused error
  | .error (.help source) =>
      match source.content input files with
      | .ok _ => .helped
      | .error error => .refused error
  | .ok options =>
      match options.source.content input files with
      | .ok text => answer limits options text
      | .error error => .refused error

/-- The run for some arguments, however deep its input is nested. -/
def run (arguments : List String) (input : String) (files : String → Option String) : Outcome :=
  runWithin .unlimited arguments input files

def sourceFor? (arguments : List String) : Option Source :=
  match Options.ofArguments arguments with
  | .ok options => some options.source
  | .error (.help (.file name)) => some (.file name)
  | .error _ => none

end RegexAutomaton.CommandLine
