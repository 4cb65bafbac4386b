import RegexAutomaton.Automaton.Basic
import RegexAutomaton.Construction.Machine

/-!
# Automata from trees

The automaton of a tree starts at the first state that is allocated and accepts where the fragment of the
whole tree ends.
-/

set_option autoImplicit false

namespace RegexAutomaton

/-- An automaton fresh from its construction, and how many states that took. -/
structure Built where
  automaton : Automaton
  count : Nat
deriving DecidableEq, Repr

def Built.note (built : Built) : String :=
  let graph := built.automaton.graph
  "Built " ++ toString built.count ++ " states from " ++ graph.stateName built.automaton.initial ++
    " to " ++ graph.stateName built.automaton.accept

def Construction.Machine.start (tree : Tree) : Vertex × Machine :=
  let (initial, builder) := Builder.empty.allocate
  (initial, ⟨builder, .enter tree initial, []⟩)

def Tree.build (tree : Tree) : Except StructureError Built := do
  let (initial, machine) := Construction.Machine.start tree
  let (accept, builder) ← machine.run
  return ⟨⟨"NFA", builder.graph, initial, accept⟩, builder.count⟩

/-- The families of automata. The general one leaves open how an automaton is made of a tree. -/
inductive Family where
  | general
  | nondeterministic
deriving DecidableEq, Repr

inductive BuildError where
  | malformed (error : StructureError)
  | noConstruction

def BuildError.message : BuildError → String
  | malformed error => error.text
  | noConstruction => "abstract method"

def Family.build (family : Family) (tree : Tree) : Except BuildError Built :=
  match family with
  | general => .error .noConstruction
  | nondeterministic => tree.build.mapError .malformed

end RegexAutomaton
