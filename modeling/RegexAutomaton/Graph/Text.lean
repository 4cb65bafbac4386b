import RegexAutomaton.Graph.Basic

/-!
# States and transitions as text

The short names under which states and transitions are shown.
-/

set_option autoImplicit false

namespace RegexAutomaton.Graph

variable (graph : Graph)

def stateName (vertex : Vertex) : String :=
  (graph.label vertex).padded 1

def stateSummary (vertex : Vertex) : String :=
  "<State " ++ (graph.label vertex).text ++ " (" ++
    ", ".intercalate ((graph.transitions vertex).map fun transition => transition.symbol.display) ++ ")>"

def transitionSummary (transition : Transition) : String :=
  "<Transition " ++ transition.symbol.display ++ " " ++ graph.stateName transition.target ++ ">"

def transitionLine (width : Nat) (source : Vertex) (transition : Transition) : String :=
  (graph.label source).padded width ++ " " ++ transition.symbol.display ++ " " ++
    (graph.label transition.target).padded width

def transitionLines (width : Nat) (source : Vertex) : List String :=
  (graph.transitions source).map (graph.transitionLine width source)

/-- The lines for a width that may be any integer. A width that is refused spoils the first line, so it
does no harm where there is none. -/
def transitionLinesTo (width : Int) (source : Vertex) : Except Label.WidthError (List String) :=
  (graph.transitions source).mapM fun transition => do
    let width ← Label.checkWidth width
    return graph.transitionLine width source transition

end RegexAutomaton.Graph
