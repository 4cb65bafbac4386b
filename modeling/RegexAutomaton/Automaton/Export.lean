import RegexAutomaton.Automaton.Basic
import RegexAutomaton.Value.Basic

/-!
# Exported automata

The export lists a node for each state and an edge for each transition, in the order in which the walk from
the initial state meets them. It can also be split into the nodes and the edges.
-/

set_option autoImplicit false

namespace RegexAutomaton

/-- An element of an export. States go by their labels and symbols by the sign they are shown as. -/
inductive Element where
  | node (label : Label)
  | edge (source target : Label) (symbol : String)
deriving DecidableEq, Repr

inductive Export where
  | joint (elements : List Element)
  | split (nodes edges : List Element)
deriving DecidableEq, Repr

namespace Element

def isNode : Element → Bool
  | node _ => true
  | edge _ _ _ => false

def ofItem (graph : Graph) : Walk.Item → Element
  | .discovered vertex => node (graph.label vertex)
  | .followed vertex transition =>
      edge (graph.label vertex) (graph.label transition.target) transition.symbol.display

def toValue : Element → Value
  | node label => .object [("data", .object [("id", .integer label), ("label", .integer label)])]
  | edge source target symbol =>
      .object
        [("data", .object
          [("source", .integer source), ("target", .integer target), ("label", .text symbol)])]

end Element

def Export.toValue : Export → Value
  | joint elements => .list (elements.map Element.toValue)
  | split nodes edges =>
      .object
        [("nodes", .list (nodes.map Element.toValue)), ("edges", .list (edges.map Element.toValue))]

namespace Automaton

variable (automaton : Automaton)

def elements : List Element :=
  automaton.walk.map (Element.ofItem automaton.graph)

def toExport (split : Bool) : Export :=
  if split then
    .split (automaton.elements.filter Element.isNode)
      (automaton.elements.filter fun element => !element.isNode)
  else .joint automaton.elements

end Automaton

end RegexAutomaton
