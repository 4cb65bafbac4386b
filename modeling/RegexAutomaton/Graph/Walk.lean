import RegexAutomaton.Graph.VertexSet

/-!
# Walking a graph depth first

A walk visits what can be reached from a list of roots, one item at a time: a state is discovered
once, and a transition out of a discovered state is followed once, also when its target is known
already. A walk may be restricted to the transitions with one symbol.

`Walk.next` gives the next item of a walk that is under way. It looks at the graph as it is at that
moment, so a walk sees the transitions that are added to a state before the walk has run out of
that state's transitions. `Graph.depthFirst` is the whole walk over a graph that does not change.
-/

set_option autoImplicit false

namespace RegexAutomaton

/-- Whether a walk follows the transition. Without a filter it follows all of them. -/
def Transition.passes (transition : Transition) : Option Symbol → Bool
  | none => true
  | some symbol => transition.symbol == symbol

namespace Walk

inductive Item where
  | discovered (vertex : Vertex)
  | followed (vertex : Vertex) (transition : Transition)
deriving DecidableEq, Repr

def Item.vertex : Item → Vertex
  | discovered vertex => vertex
  | followed vertex _ => vertex

def Item.discovery? : Item → Option Vertex
  | discovered vertex => some vertex
  | followed _ _ => none

/-- A discovered vertex, and how many of its transitions have been looked at. -/
structure Frame where
  vertex : Vertex
  position : Nat
deriving DecidableEq

/-- The first transition that passes, and the position behind it. `position` counts the transitions
before the list. -/
def firstPassing (filter : Option Symbol) : List Transition → Nat → Option (Transition × Nat)
  | [], _ => none
  | transition :: rest, position =>
      if transition.passes filter then some (transition, position + 1)
      else firstPassing filter rest (position + 1)

def Frame.pending (graph : Graph) (frame : Frame) : List Transition :=
  (graph.transitions frame.vertex).drop frame.position

/-- The next transition to follow: that of the innermost frame which has one. Frames that have run
out are left for good. -/
def resume (graph : Graph) (filter : Option Symbol) :
    List Frame → Option (Vertex × Transition × List Frame)
  | [] => none
  | frame :: outer =>
      match firstPassing filter (frame.pending graph) frame.position with
      | some (transition, position) =>
          some (frame.vertex, transition, ⟨frame.vertex, position⟩ :: outer)
      | none => resume graph filter outer

def nextRoot (seen : VertexSet) : List Vertex → Option (Vertex × List Vertex)
  | [] => none
  | root :: rest => if root ∈ seen then nextRoot seen rest else some (root, rest)

end Walk

structure Walk where
  filter : Option Symbol
  roots : List Vertex
  seen : VertexSet
  /-- The vertices whose transitions are being followed, innermost first. -/
  frames : List Walk.Frame
  /-- The target of the transition that was followed last. -/
  arrival : Option Vertex

namespace Walk

def start (roots : List Vertex) (filter : Option Symbol) : Walk :=
  ⟨filter, roots, VertexSet.empty, [], none⟩

def discover (walk : Walk) (vertex : Vertex) : Walk :=
  { walk with
    seen := walk.seen.insert vertex
    frames := ⟨vertex, 0⟩ :: walk.frames
    arrival := none }

/-- The next item, and the walk after it. The target of the last transition is discovered if it is new,
otherwise the innermost frame goes on, and when all frames have run out the next root begins. -/
def next (graph : Graph) (walk : Walk) : Option Item × Walk :=
  match walk.arrival.filter fun vertex => vertex ∉ walk.seen with
  | some vertex => (some (.discovered vertex), walk.discover vertex)
  | none =>
      match resume graph walk.filter walk.frames with
      | some (vertex, transition, frames) =>
          (some (.followed vertex transition),
            { walk with frames, arrival := some transition.target })
      | none =>
          match nextRoot walk.seen walk.roots with
          | some (root, roots) =>
              (some (.discovered root), { walk with roots, frames := [] }.discover root)
          | none => (none, { walk with roots := [], frames := [], arrival := none })

def collect (graph : Graph) : Nat → Walk → Array Item → Array Item
  | 0, _, items => items
  | limit + 1, walk, items =>
      match walk.next graph with
      | (some item, later) => collect graph limit later (items.push item)
      | (none, _) => items

end Walk

namespace Graph

/-- The whole walk. A vertex is discovered as a root or after a transition that was followed, and a transition
is followed once, which bounds the number of items. -/
def depthFirst (graph : Graph) (roots : List Vertex) (filter : Option Symbol) : List Walk.Item :=
  (Walk.collect graph (roots.length + 2 * graph.transitionCount) (Walk.start roots filter) #[]).toList

def closure (graph : Graph) (roots : List Vertex) (filter : Option Symbol) : List Vertex :=
  (graph.depthFirst roots filter).filterMap Walk.Item.discovery?

end Graph

end RegexAutomaton
