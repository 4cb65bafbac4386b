import Mathlib.Data.List.Basic
import RegexAutomaton.Automaton.Basic

/-!
# Paths and the words they spell

A path is a list of transitions, each leaving the vertex at which the one before it arrives. It spells the
symbols of its transitions with the void ones left out, so a word may be spelled by many paths.
-/

set_option autoImplicit false

namespace RegexAutomaton

/-- Whether transitions lead from a vertex to another one, each starting where the one before it ends. -/
def Graph.IsPath (graph : Graph) : Vertex → List Transition → Vertex → Prop
  | source, [], target => source = target
  | source, transition :: rest, target =>
      transition ∈ graph.transitions source ∧ graph.IsPath transition.target rest target

/-- Whether some path from the initial to the accept state has the letters of a word as its symbols, the
void ones left out. -/
def Automaton.Accepts (automaton : Automaton) (word : List Letter) : Prop :=
  ∃ path, automaton.graph.IsPath automaton.initial path automaton.accept ∧
    (path.map Transition.symbol).filter (· ≠ Symbol.epsilon) = word.map Letter.symbol

namespace Graph

variable {graph : Graph} {source middle target : Vertex}

theorem isPath_append {first rest : List Transition} (firstPath : graph.IsPath source first middle)
    (restPath : graph.IsPath middle rest target) : graph.IsPath source (first ++ rest) target := by
  induction first generalizing source with
  | nil =>
      obtain rfl : source = middle := firstPath
      exact restPath
  | cons transition first ih => exact ⟨firstPath.1, ih firstPath.2⟩

theorem IsPath.split {first rest : List Transition} (isPath : graph.IsPath source (first ++ rest) target) :
    ∃ middle, graph.IsPath source first middle ∧ graph.IsPath middle rest target := by
  induction first generalizing source with
  | nil => exact ⟨source, rfl, isPath⟩
  | cons transition first ih =>
      obtain ⟨middle, firstPath, restPath⟩ := ih isPath.2
      exact ⟨middle, ⟨isPath.1, firstPath⟩, restPath⟩

theorem isPath_single {transition : Transition} (member : transition ∈ graph.transitions source) :
    graph.IsPath source [transition] transition.target :=
  ⟨member, rfl⟩

end Graph

/-! ## Spelling -/

def Symbol.letter? (symbol : Symbol) : Option Letter :=
  if void : symbol = Symbol.epsilon then none else some ⟨symbol, void⟩

/-- The word that a list of transitions spells. -/
def Transition.spelling (path : List Transition) : List Letter :=
  path.filterMap fun transition => transition.symbol.letter?

namespace Transition

@[simp] theorem spelling_nil : spelling [] = [] := rfl

@[simp] theorem spelling_append (first rest : List Transition) :
    spelling (first ++ rest) = spelling first ++ spelling rest := by
  simp [spelling]

@[simp] theorem spelling_cons_void (target : Vertex) (path : List Transition) :
    spelling (⟨Symbol.epsilon, target⟩ :: path) = spelling path := by
  simp [spelling, Symbol.letter?]

@[simp] theorem spelling_cons_letter (letter : Letter) (target : Vertex) (path : List Transition) :
    spelling (⟨letter.symbol, target⟩ :: path) = letter :: spelling path := by
  simp [spelling, Symbol.letter?, letter.ne_epsilon]

theorem map_symbol_spelling (path : List Transition) :
    (spelling path).map Letter.symbol =
      (path.map Transition.symbol).filter (· ≠ Symbol.epsilon) := by
  induction path with
  | nil => rfl
  | cons transition rest ih =>
      by_cases void : transition.symbol = Symbol.epsilon
      · simpa [spelling, Symbol.letter?, void] using ih
      · simpa [spelling, Symbol.letter?, void] using ih

end Transition

theorem Letter.map_symbol_inj {first second : List Letter}
    (same : first.map Letter.symbol = second.map Letter.symbol) : first = second := by
  refine List.map_injective_iff.2 ?_ same
  intro letter other same
  cases letter
  cases other
  cases same
  rfl

theorem Automaton.accepts_iff (automaton : Automaton) (word : List Letter) :
    automaton.Accepts word ↔
      ∃ path, automaton.graph.IsPath automaton.initial path automaton.accept ∧
        Transition.spelling path = word := by
  constructor
  · rintro ⟨path, isPath, spells⟩
    rw [← Transition.map_symbol_spelling] at spells
    exact ⟨path, isPath, Letter.map_symbol_inj spells⟩
  · rintro ⟨path, isPath, rfl⟩
    exact ⟨path, isPath, (Transition.map_symbol_spelling path).symm⟩

end RegexAutomaton
