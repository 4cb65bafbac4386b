import RegexAutomaton.Proofs.Automaton.Recognition
import RegexAutomaton.Proofs.Automaton.States
import RegexAutomaton.Proofs.Construction.Liveness
import RegexAutomaton.Proofs.Regex.FirstLetter

/-!
# Before the first letter

The states that are reached without reading anything tell how words begin. The accept state is among them when the
empty word is accepted, and the letters on the transitions that leave them are those that accepted words begin with, if
every state leads on to the accept state. For the automaton of an expression both are found by recursion on it.
-/

set_option autoImplicit false

namespace RegexAutomaton

theorem Symbol.letter?_eq_none_iff {symbol : Symbol} : symbol.letter? = none ↔ symbol = epsilon := by
  simp [letter?]

theorem Symbol.letter?_eq_some_iff {symbol : Symbol} {letter : Letter} :
    symbol.letter? = some letter ↔ symbol = letter.symbol := by
  unfold letter?
  by_cases void : symbol = epsilon
  · subst void
    simp [letter.ne_epsilon.symm]
  · obtain ⟨other, nonvoid⟩ := letter
    simp [void]

namespace Graph

variable {graph : Graph} {source target : Vertex}

/-- A vertex is reached by void transitions along a path that spells nothing. -/
theorem reaches_epsilon_iff :
    graph.Reaches (some Symbol.epsilon) source target ↔
      ∃ path, graph.IsPath source path target ∧ Transition.spelling path = [] := by
  simp only [Reaches, Transition.spelling, List.filterMap_eq_nil_iff, Symbol.letter?_eq_none_iff,
    Transition.passes, beq_iff_eq]

end Graph

namespace Automaton

variable (automaton : Automaton)

/-- The states that are reached without reading anything. -/
def outset : List Vertex :=
  automaton.graph.closure [automaton.initial] (some Symbol.epsilon)

theorem mem_outset_iff (vertex : Vertex) :
    vertex ∈ automaton.outset ↔
      ∃ path, automaton.graph.IsPath automaton.initial path vertex ∧ Transition.spelling path = [] := by
  rw [outset, Graph.mem_closure]
  simp only [List.mem_singleton, exists_eq_left, Graph.reaches_epsilon_iff]

theorem accept_mem_outset_iff : automaton.accept ∈ automaton.outset ↔ automaton.Accepts [] := by
  rw [mem_outset_iff, accepts_iff]

/-- The letters that leave the states at the outset are those that accepted words begin with. -/
theorem leaves_outset_iff
    (live : ∀ vertex, automaton.graph.Reaches none automaton.initial vertex →
      automaton.graph.Reaches none vertex automaton.accept) (letter : Letter) :
    (∃ vertex ∈ automaton.outset, ∃ transition ∈ automaton.graph.transitions vertex,
        transition.symbol = letter.symbol) ↔
      ∃ word, automaton.Accepts (letter :: word) := by
  simp only [accepts_iff]
  constructor
  · rintro ⟨vertex, member, ⟨symbol, target⟩, leaves, rfl⟩
    obtain ⟨path, isPath, void⟩ := (automaton.mem_outset_iff vertex).1 member
    have step := Graph.isPath_append isPath (Graph.isPath_single leaves)
    obtain ⟨rest, restPath, -⟩ := live target ⟨_, step, fun _ _ => rfl⟩
    have afterPath : automaton.graph.IsPath vertex (⟨letter.symbol, target⟩ :: rest) automaton.accept :=
      ⟨leaves, restPath⟩
    refine ⟨Transition.spelling rest, _, Graph.isPath_append isPath afterPath, ?_⟩
    rw [Transition.spelling_append, Transition.spelling_cons_letter, void, List.nil_append]
  · rintro ⟨word, path, isPath, spelled⟩
    obtain ⟨before, transition, after, rfl, void, isLetter, -⟩ := List.filterMap_eq_cons_iff.1 spelled
    obtain ⟨vertex, beforePath, afterPath⟩ := isPath.split
    refine ⟨vertex, ?_, transition, afterPath.1, Symbol.letter?_eq_some_iff.1 isLetter⟩
    rw [mem_outset_iff]
    exact ⟨before, beforePath, List.filterMap_eq_nil_iff.2 void⟩

end Automaton

namespace Regex

theorem live_build (regex : Regex) (vertex : Vertex)
    (reached : regex.build.automaton.graph.Reaches none regex.build.automaton.initial vertex) :
    regex.build.automaton.graph.Reaches none vertex regex.build.automaton.accept := by
  have isState := (Automaton.mem_states _).2 reached
  rw [accept_build]
  exact (regex.onTheWay_build ((regex.mem_states_build vertex).1 isState)).2

end Regex

namespace Tree

/-- What an automaton that has been built can do at first is told by the expression: it accepts at once when the
expression is nullable, and the letters that it can read are the first letters of the expression. -/
theorem build_starts {tree : Tree} {built : Built} (success : tree.build = .ok built) :
    ∃ regex, tree.regex = .ok regex ∧
      (built.automaton.accept ∈
          built.automaton.graph.closure [built.automaton.initial] (some Symbol.epsilon) ↔
        regex.nullable = true) ∧
      ∀ letter : Letter,
        (∃ vertex ∈ built.automaton.graph.closure [built.automaton.initial] (some Symbol.epsilon),
          ∃ transition ∈ built.automaton.graph.transitions vertex, transition.symbol = letter.symbol) ↔
        letter ∈ regex.firstLetters := by
  obtain ⟨regex, stands, rfl⟩ := regex_of_build success
  refine ⟨regex, stands, ?_, ?_⟩
  · rw [regex.nullable_iff, ← regex.accepts_build_iff]
    exact regex.build.automaton.accept_mem_outset_iff
  · intro letter
    rw [regex.mem_firstLetters_iff, Regex.Begins]
    simp only [← regex.accepts_build_iff]
    exact regex.build.automaton.leaves_outset_iff regex.live_build letter

/-- A loop over two branches: the first one may be left out, and the start of the second one too. -/
theorem build_starts_loop :
    let tree := repetition .plus
      (alternation [repetition .optional (text "a"), sequence [repetition .star (text "b"), text "ε"]])
    ∃ (built : Built) (regex : Regex), tree.build = .ok built ∧
      built.automaton.accept ∈
        built.automaton.graph.closure [built.automaton.initial] (some Symbol.epsilon) ∧
      regex.firstLetters.map (fun letter => letter.symbol.text) = ["a", "b", "ε"] ∧
      ∀ letter : Letter,
        (∃ vertex ∈ built.automaton.graph.closure [built.automaton.initial] (some Symbol.epsilon),
          ∃ transition ∈ built.automaton.graph.transitions vertex, transition.symbol = letter.symbol) ↔
        letter ∈ regex.firstLetters := by
  intro tree
  have stands : ∃ regex : Regex, tree.regex = .ok regex ∧ regex.nullable = true ∧
      regex.firstLetters.map (fun letter => letter.symbol.text) = ["a", "b", "ε"] := ⟨_, rfl, rfl, rfl⟩
  obtain ⟨regex, stands, nullable, letters⟩ := stands
  have success : tree.build = .ok regex.build := by
    rw [build_eq_regex, stands]
    rfl
  obtain ⟨found, foundStands, accepts, leaves⟩ := build_starts success
  obtain rfl : regex = found := Except.ok.inj (stands.symm.trans foundStands)
  exact ⟨regex.build, regex, success, accepts.2 nullable, letters, leaves⟩

end Tree

end RegexAutomaton
