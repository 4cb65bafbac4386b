import RegexAutomaton.Proofs.Construction.Layout

/-!
# Fragments inside a graph

A graph hosts a fragment when the vertices of the fragment have the transitions of its layout and no others,
but for the vertex where the fragment starts, which may have more, and the one where it ends, which is left
open. The fragments of the parts of an expression are hosted by the graph that hosts the fragment of the
expression, and what lies between them is told exactly.
-/

set_option autoImplicit false

namespace RegexAutomaton

/-- The graph has the arcs of a fragment, and none but those at the vertices from `base` up to `bound`. -/
structure Graph.Hosts (graph : Graph) (arcs : List Arc) (start base bound : Nat) : Prop where
  entering : ∀ transition ∈ Arc.leaving start arcs, transition ∈ graph.transitions start
  inside : ∀ vertex, base ≤ vertex → vertex < bound →
    graph.transitions vertex = Arc.leaving vertex arcs

theorem Arc.leaving_eq_nil_of_within {arcs : List Arc} {start base accept vertex : Nat}
    (within : ∀ arc ∈ arcs, arc.Within start base accept) (notStart : vertex ≠ start)
    (outside : vertex < base ∨ accept ≤ vertex) : Arc.leaving vertex arcs = [] := by
  apply Arc.leaving_eq_nil
  intro arc member
  have source := (within arc member).source
  omega

namespace Regex

open Construction

/-! ## Choices -/

/-- What leaves the vertices of a choice: into the first part, inside it, out of it, and the same for the
other parts. -/
def choiceArcs (parts : List Regex) (start base accept : Nat) : List Arc :=
  branchArcs parts start base ++ closingBranches parts base accept

theorem leaving_choiceArcs_cons (regex : Regex) (rest : List Regex) (start base accept vertex : Nat) :
    Arc.leaving vertex (choiceArcs (regex :: rest) start base accept) =
      (if start = vertex then [⟨Symbol.epsilon, base⟩] else []) ++
        Arc.leaving vertex (regex.arcs base (base + 1)) ++
        Arc.leaving vertex (branchArcs rest start (base + 1 + regex.states)) ++
        (if regex.accept (base + 1) = vertex then [⟨Symbol.epsilon, accept⟩] else []) ++
        Arc.leaving vertex (closingBranches rest (base + 1 + regex.states) accept) := by
  simp only [choiceArcs, branchArcs, closingBranches, branchEnds, List.map_cons, Arc.leaving_append,
    Arc.leaving_cons, Arc.transition, List.append_assoc]

theorem branchArcs_leaving_eq_nil {parts : List Regex} {start base vertex : Nat}
    (notStart : vertex ≠ start) (before : vertex < base) :
    Arc.leaving vertex (branchArcs parts start base) = [] :=
  Arc.leaving_eq_nil_of_within (branchArcs_within parts (fun part _ => part.arcs_within) start base)
    notStart (.inl before)

theorem closingBranches_leaving_eq_nil {parts : List Regex} {base accept vertex : Nat}
    (before : vertex ≤ base) : Arc.leaving vertex (closingBranches parts base accept) = [] := by
  apply Arc.leaving_eq_nil
  intro arc member
  obtain ⟨last, isEnd, rfl⟩ := List.mem_map.1 member
  have bounds := branchEnds_lt _ _ last isEnd
  dsimp only
  omega

/-- How a graph hosts the first part of a choice and the parts after it. -/
structure HostsBranch (graph : Graph) (regex : Regex) (rest : List Regex) (start base accept : Nat) :
    Prop where
  entry : ⟨Symbol.epsilon, base⟩ ∈ graph.transitions start
  first : graph.transitions base = Arc.leaving base (regex.arcs base (base + 1))
  part : graph.Hosts (regex.arcs base (base + 1)) base (base + 1) (regex.accept (base + 1))
  last : graph.transitions (regex.accept (base + 1)) = [⟨Symbol.epsilon, accept⟩]
  leavingStart : Arc.leaving start (choiceArcs (regex :: rest) start base accept) =
    ⟨Symbol.epsilon, base⟩ ::
      Arc.leaving start (choiceArcs rest start (base + 1 + regex.states) accept)
  rest : graph.Hosts (choiceArcs rest start (base + 1 + regex.states) accept) start
    (base + 1 + regex.states)
    (base + 1 + regex.states + statesOfAll rest + rest.length)

theorem hostsBranch {graph : Graph} {regex : Regex} {rest : List Regex} {start base accept : Nat}
    (before : start < base)
    (hosts : graph.Hosts (choiceArcs (regex :: rest) start base accept) start base
      (base + statesOfAll (regex :: rest) + (regex :: rest).length)) :
    HostsBranch graph regex rest start base accept := by
  have pos := regex.states_pos
  have endEq := regex.accept_succ (base + 1)
  have insideRegex : ∀ vertex, vertex ≠ base → vertex < base + 1 ∨ regex.accept (base + 1) ≤ vertex →
      Arc.leaving vertex (regex.arcs base (base + 1)) = [] := fun vertex notBase outside =>
    Arc.leaving_eq_nil_of_within (regex.arcs_within base (base + 1)) notBase outside
  have bound : base + statesOfAll (regex :: rest) + (regex :: rest).length =
      base + 1 + regex.states + statesOfAll rest + rest.length := by
    simp only [statesOfAll, List.length_cons]
    omega
  have inside := hosts.inside
  rw [bound] at inside
  have leavingStart : Arc.leaving start (choiceArcs (regex :: rest) start base accept) =
      ⟨Symbol.epsilon, base⟩ ::
        Arc.leaving start (choiceArcs rest start (base + 1 + regex.states) accept) := by
    rw [leaving_choiceArcs_cons, if_pos rfl, insideRegex start (by omega) (by omega),
      if_neg (by omega), choiceArcs, Arc.leaving_append]
    simp only [List.append_nil, List.cons_append, List.nil_append]
  -- the vertices of the first part: nothing of the other parts leaves them
  have ofFirst : ∀ vertex, base ≤ vertex → vertex < base + 1 + regex.states →
      graph.transitions vertex = Arc.leaving vertex (regex.arcs base (base + 1)) ++
        (if regex.accept (base + 1) = vertex then [⟨Symbol.epsilon, accept⟩] else []) := by
    intro vertex above below
    rw [inside vertex above (by omega), leaving_choiceArcs_cons, if_neg (by omega),
      branchArcs_leaving_eq_nil (by omega) (by omega), closingBranches_leaving_eq_nil (by omega)]
    simp only [List.append_nil, List.nil_append]
  refine ⟨hosts.entering _ (by rw [leavingStart]; exact List.mem_cons_self), ?_, ⟨?_, ?_⟩, ?_,
    leavingStart, ⟨?_, ?_⟩⟩
  · rw [ofFirst base (Nat.le_refl _) (by omega), if_neg (by omega), List.append_nil]
  · intro transition member
    rw [ofFirst base (Nat.le_refl _) (by omega)]
    exact List.mem_append_left _ member
  · intro vertex above below
    rw [ofFirst vertex (by omega) (by omega), if_neg (by omega), List.append_nil]
  · rw [ofFirst _ (by omega) (by omega), insideRegex _ (by omega) (.inr (Nat.le_refl _)), if_pos rfl,
      List.nil_append]
  · intro transition member
    apply hosts.entering
    rw [leavingStart]
    exact List.mem_cons_of_mem _ member
  · intro vertex above below
    rw [inside vertex (by omega) below, leaving_choiceArcs_cons, if_neg (by omega),
      insideRegex vertex (by omega) (by omega), if_neg (by omega), choiceArcs, Arc.leaving_append]
    simp only [List.append_nil, List.nil_append]

/-! ## Sequences -/

structure HostsLink (graph : Graph) (regex : Regex) (rest : List Regex) (start base : Nat) : Prop where
  leavingStart : Arc.leaving start (chainArcs (regex :: rest) start base) =
    Arc.leaving start (regex.arcs start base)
  first : graph.Hosts (regex.arcs start base) start base (regex.accept base)
  middle : graph.transitions (regex.accept base) =
    Arc.leaving (regex.accept base) (chainArcs rest (regex.accept base) (base + regex.states))
  rest : graph.Hosts (chainArcs rest (regex.accept base) (base + regex.states)) (regex.accept base)
    (base + regex.states) (base + regex.states + statesOfAll rest - 1)

theorem hostsLink {graph : Graph} {regex next : Regex} {rest : List Regex} {start base : Nat}
    (before : start < base)
    (hosts : graph.Hosts (chainArcs (regex :: next :: rest) start base) start base
      (base + statesOfAll (regex :: next :: rest) - 1)) :
    HostsLink graph regex (next :: rest) start base := by
  have pos := regex.states_pos
  have nextPos := next.states_pos
  have endEq := regex.accept_succ base
  have bound : base + statesOfAll (regex :: next :: rest) - 1 =
      base + regex.states + statesOfAll (next :: rest) - 1 := by
    simp only [statesOfAll]
    omega
  have restPos : 0 < statesOfAll (next :: rest) := by
    simp only [statesOfAll]
    omega
  have inside := hosts.inside
  rw [bound] at inside
  generalize next :: rest = others at hosts inside restPos ⊢
  have insideRegex : ∀ vertex, vertex ≠ start → regex.accept base ≤ vertex →
      Arc.leaving vertex (regex.arcs start base) = [] := fun vertex notStart outside =>
    Arc.leaving_eq_nil_of_within (regex.arcs_within start base) notStart (.inr outside)
  have insideOthers : ∀ vertex, vertex < regex.accept base →
      Arc.leaving vertex (chainArcs others (regex.accept base) (base + regex.states)) = [] := by
    intro vertex outside
    exact Arc.leaving_eq_nil_of_within
      (chainArcs_within others (fun part _ => part.arcs_within) _ _) (by omega) (.inl (by omega))
  have leavingStart : Arc.leaving start (chainArcs (regex :: others) start base) =
      Arc.leaving start (regex.arcs start base) := by
    rw [chainArcs, Arc.leaving_append, insideOthers start (by omega), List.append_nil]
  refine ⟨leavingStart, ⟨?_, ?_⟩, ?_, ⟨?_, ?_⟩⟩
  · intro transition member
    apply hosts.entering
    rw [leavingStart]
    exact member
  · intro vertex above below
    rw [inside vertex above (by omega), chainArcs, Arc.leaving_append, insideOthers vertex below,
      List.append_nil]
  · rw [inside _ (by omega) (by omega), chainArcs, Arc.leaving_append,
      insideRegex _ (by omega) (Nat.le_refl _), List.nil_append]
  · intro transition member
    rw [inside _ (by omega) (by omega), chainArcs, Arc.leaving_append]
    exact List.mem_append_right _ member
  · intro vertex above below
    rw [inside vertex (by omega) below, chainArcs, Arc.leaving_append,
      insideRegex vertex (by omega) (by omega), List.nil_append]

/-! ## Repetitions -/

structure HostsBody (graph : Graph) (mode : Repetition) (body : Regex) (start base : Nat) : Prop where
  leavingStart : Arc.leaving start ((repetition mode body).arcs start base) =
    ⟨Symbol.epsilon, base⟩ ::
      (if mode.skips then [⟨Symbol.epsilon, (repetition mode body).accept base⟩] else [])
  first : graph.transitions base = Arc.leaving base (body.arcs base (base + 1))
  part : graph.Hosts (body.arcs base (base + 1)) base (base + 1) (body.accept (base + 1))
  last : graph.transitions (body.accept (base + 1)) =
    (if mode.loops then [⟨Symbol.epsilon, base⟩] else []) ++
      [⟨Symbol.epsilon, (repetition mode body).accept base⟩]

theorem leaving_repetition (mode : Repetition) (body : Regex) (start base vertex : Nat) :
    Arc.leaving vertex ((repetition mode body).arcs start base) =
      (if start = vertex then [⟨Symbol.epsilon, base⟩] else []) ++
        Arc.leaving vertex (body.arcs base (base + 1)) ++
        (if body.accept (base + 1) = vertex then
          (if mode.loops then [⟨Symbol.epsilon, base⟩] else []) ++
            [⟨Symbol.epsilon, (repetition mode body).accept base⟩] else []) ++
        (if start = vertex then
          (if mode.skips then [⟨Symbol.epsilon, (repetition mode body).accept base⟩] else [])
          else []) := by
  rw [accept_repetition]
  simp only [arcs, closingArcs, Arc.leaving_append, Arc.leaving_cons, Arc.transition]
  cases mode.loops <;> cases mode.skips <;>
    by_cases startHere : start = vertex <;> by_cases endHere : body.accept (base + 1) = vertex <;>
    simp [startHere, endHere, Arc.leaving_cons, Arc.transition]

theorem hostsBody {graph : Graph} {mode : Repetition} {body : Regex} {start base : Nat}
    (before : start < base)
    (hosts : graph.Hosts ((repetition mode body).arcs start base) start base
      ((repetition mode body).accept base)) :
    HostsBody graph mode body start base := by
  have pos := body.states_pos
  have endEq : body.accept (base + 1) + 1 = (repetition mode body).accept base := by
    rw [accept_succ, accept_repetition]
  have endAbove : base < body.accept (base + 1) := Nat.lt_of_lt_of_le (Nat.lt_succ_self base)
    (body.le_accept (base + 1))
  have insideBody : ∀ vertex, vertex ≠ base → vertex < base + 1 ∨ body.accept (base + 1) ≤ vertex →
      Arc.leaving vertex (body.arcs base (base + 1)) = [] := fun vertex notBase outside =>
    Arc.leaving_eq_nil_of_within (body.arcs_within base (base + 1)) notBase outside
  have ofBody : ∀ vertex, base ≤ vertex → vertex < (repetition mode body).accept base →
      graph.transitions vertex = Arc.leaving vertex (body.arcs base (base + 1)) ++
        (if body.accept (base + 1) = vertex then
          (if mode.loops then [⟨Symbol.epsilon, base⟩] else []) ++
            [⟨Symbol.epsilon, (repetition mode body).accept base⟩] else []) := by
    intro vertex above below
    rw [hosts.inside vertex above below, leaving_repetition, if_neg (by omega : start ≠ vertex),
      if_neg (by omega : start ≠ vertex)]
    simp only [List.append_nil, List.nil_append]
  refine ⟨?_, ?_, ⟨?_, ?_⟩, ?_⟩
  · rw [leaving_repetition, if_pos rfl, insideBody start (by omega) (by omega), if_neg (by omega),
      if_pos rfl]
    simp only [List.append_nil, List.cons_append, List.nil_append]
  · rw [ofBody base (Nat.le_refl _) (by omega), if_neg (by omega), List.append_nil]
  · intro transition member
    rw [ofBody base (Nat.le_refl _) (by omega)]
    exact List.mem_append_left _ member
  · intro vertex above below
    rw [ofBody vertex (by omega) (by omega), if_neg (by omega), List.append_nil]
  · rw [ofBody _ (by omega) (by omega), insideBody _ (by omega) (.inr (Nat.le_refl _)), if_pos rfl,
      List.nil_append]

/-! ## The automaton of an expression -/

theorem hosts_build (regex : Regex) :
    regex.build.automaton.graph.Hosts (regex.arcs 0 1) 0 1 (regex.accept 1) where
  entering transition member := by
    rw [transitions_build]
    exact member
  inside vertex _ _ := regex.transitions_build vertex

/-- Nothing leaves the accept state, nor what lies behind it. -/
theorem transitions_build_eq_nil (regex : Regex) {vertex : Nat} (atEnd : regex.accept 1 ≤ vertex) :
    regex.build.automaton.graph.transitions vertex = [] := by
  have endAbove := regex.le_accept 1
  rw [transitions_build]
  exact Arc.leaving_eq_nil_of_within (regex.arcs_within 0 1) (by omega) (.inr atEnd)

end Regex

end RegexAutomaton
