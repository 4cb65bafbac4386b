import RegexAutomaton.Proofs.Construction.Expression
import RegexAutomaton.Proofs.Construction.Growth
import RegexAutomaton.Proofs.Regex.Induction

/-!
# The layout of a fragment

Where the states of a fragment lie and which arcs it has, told by the expression alone. A fragment that is
attached to `start` when the graph has `base` states takes the vertices from `base` on, ends at the last one of
them, and its arcs run from `start` and its own vertices to its own vertices.
-/

set_option autoImplicit false

namespace RegexAutomaton

open Construction

namespace Regex

mutual

/-- The number of states that the fragment of an expression takes. -/
def states : Regex → Nat
  | empty => 1
  | text _ => 1
  | alternation first others => first.states + statesOfAll others + others.length + 2
  | sequence first others => first.states + statesOfAll others
  | repetition _ body => body.states + 2

def statesOfAll : List Regex → Nat
  | [] => 0
  | regex :: rest => regex.states + statesOfAll rest

end

/-- The vertex at which a fragment ends. -/
def accept (regex : Regex) (base : Nat) : Nat := base + regex.states - 1

/-- The ends of the parts of a choice. Before the fragment of each part stands the state it is attached to. -/
def branchEnds : List Regex → Nat → List Nat
  | [], _ => []
  | regex :: rest, base => regex.accept (base + 1) :: branchEnds rest (base + 1 + regex.states)

def chainEnd : List Regex → Nat → Nat → Nat
  | [], start, _ => start
  | regex :: rest, _, base => chainEnd rest (regex.accept base) (base + regex.states)

/-- The arcs from the ends of the parts of a choice to its own end. -/
def closingBranches (parts : List Regex) (base : Nat) (accept : Nat) : List Arc :=
  (branchEnds parts base).map fun last => ⟨last, Symbol.epsilon, accept⟩

mutual

/-- The arcs of a fragment that starts at a vertex, in the order of their addition. -/
def arcs : Regex → Nat → Nat → List Arc
  | empty, start, base => [⟨start, Symbol.epsilon, base⟩]
  | text letter, start, base => [⟨start, letter.symbol, base⟩]
  | alternation first others, start, base =>
      (⟨start, Symbol.epsilon, base⟩ :: first.arcs base (base + 1)) ++
        branchArcs others start (base + 1 + first.states) ++
        closingBranches (first :: others) base
          (base + first.states + statesOfAll others + others.length + 1)
  | sequence first others, start, base =>
      first.arcs start base ++ chainArcs others (first.accept base) (base + first.states)
  | repetition mode body, start, base =>
      (⟨start, Symbol.epsilon, base⟩ :: body.arcs base (base + 1)) ++
        closingArcs mode start base (body.accept (base + 1)) (base + 1 + body.states)

def branchArcs : List Regex → Nat → Nat → List Arc
  | [], _, _ => []
  | regex :: rest, start, base =>
      (⟨start, Symbol.epsilon, base⟩ :: regex.arcs base (base + 1)) ++
        branchArcs rest start (base + 1 + regex.states)

def chainArcs : List Regex → Nat → Nat → List Arc
  | [], _, _ => []
  | regex :: rest, start, base =>
      regex.arcs start base ++ chainArcs rest (regex.accept base) (base + regex.states)

end

theorem states_pos (regex : Regex) : 0 < regex.states := by
  induction regex using Regex.induction with
  | empty => simp [states]
  | text letter => simp [states]
  | alternation first others ih => simp only [states]; omega
  | sequence first others ih =>
      have firstPos := ih first (by simp)
      simp only [states]
      omega
  | repetition mode body ih => simp only [states]; omega

theorem accept_succ (regex : Regex) (base : Nat) : regex.accept base + 1 = base + regex.states := by
  have pos := regex.states_pos
  simp only [accept]
  omega

theorem le_accept (regex : Regex) (base : Nat) : base ≤ regex.accept base := by
  have pos := regex.states_pos
  simp only [accept]
  omega

theorem accept_alternation (first : Regex) (others : List Regex) (base : Nat) :
    (alternation first others).accept base =
      base + statesOfAll (first :: others) + (first :: others).length := by
  simp only [accept, states, statesOfAll, List.length_cons]
  omega

theorem accept_repetition (mode : Repetition) (body : Regex) (base : Nat) :
    (repetition mode body).accept base = base + 1 + body.states := by
  simp only [accept, states]
  omega

theorem arcs_alternation (first : Regex) (others : List Regex) (start base : Nat) :
    (alternation first others).arcs start base =
      branchArcs (first :: others) start base ++
        closingBranches (first :: others) base ((alternation first others).accept base) := by
  have acceptEq : (alternation first others).accept base =
      base + first.states + statesOfAll others + others.length + 1 := by
    simp only [accept, states]
    omega
  rw [acceptEq]
  simp only [arcs, branchArcs]

theorem arcs_sequence (first : Regex) (others : List Regex) (start base : Nat) :
    (sequence first others).arcs start base = chainArcs (first :: others) start base := by
  simp only [arcs, chainArcs]

theorem chainEnd_cons (regex : Regex) (rest : List Regex) (start base : Nat) :
    chainEnd (regex :: rest) start base = base + statesOfAll (regex :: rest) - 1 := by
  induction rest generalizing regex start base with
  | nil => simp [chainEnd, statesOfAll, accept]
  | cons next rest ih =>
      rw [chainEnd, ih next (regex.accept base) (base + regex.states)]
      simp only [statesOfAll]
      omega

theorem branchEnds_lt (parts : List Regex) (base : Nat) :
    ∀ last ∈ branchEnds parts base, base < last ∧ last < base + statesOfAll parts + parts.length := by
  induction parts generalizing base with
  | nil => simp [branchEnds]
  | cons regex rest ih =>
      intro last member
      have pos := regex.states_pos
      simp only [statesOfAll, List.length_cons]
      rcases List.mem_cons.mp member with rfl | later
      · simp only [accept]
        omega
      · have bounds := ih _ last later
        omega

/-! ## Induction along a layout -/

/-- Induction on an expression and the place of its fragment, behind the vertex where it starts. The parts of a choice
and of a sequence are taken one by one, each in its own place, with a property of the parts that are left. -/
@[elab_as_elim]
theorem layoutInduction (branches chain : List Regex → Nat → Nat → Prop)
    {motive : (regex : Regex) → (start base : Nat) → start < base → Prop}
    (empty : ∀ start base before, motive .empty start base before)
    (text : ∀ letter start base before, motive (.text letter) start base before)
    (noBranch : ∀ start base, branches [] start base)
    (branch : ∀ regex rest start base, start < base → motive regex base (base + 1) (Nat.lt_succ_self base) →
      branches rest start (base + 1 + regex.states) → branches (regex :: rest) start base)
    (alternation : ∀ first others start base before, branches (first :: others) start base →
      motive (.alternation first others) start base before)
    (noLink : ∀ start base, start < base → chain [] start base)
    (link : ∀ regex rest start base before, motive regex start base before →
      chain rest (regex.accept base) (base + regex.states) → chain (regex :: rest) start base)
    (sequence : ∀ first others start base before, chain (first :: others) start base →
      motive (.sequence first others) start base before)
    (repetition : ∀ mode body start base before, motive body base (base + 1) (Nat.lt_succ_self base) →
      motive (.repetition mode body) start base before)
    (regex : Regex) (start base : Nat) (before : start < base) : motive regex start base before := by
  induction regex using Regex.induction generalizing start base with
  | empty => exact empty start base before
  | text letter => exact text letter start base before
  | alternation first others ih =>
      apply alternation
      generalize first :: others = parts at ih
      induction parts generalizing base with
      | nil => exact noBranch start base
      | cons regex rest restInduction =>
          rw [List.forall_mem_cons] at ih
          exact branch regex rest start base before (ih.1 _ _ _) (restInduction _ (by omega) ih.2)
  | sequence first others ih =>
      apply sequence
      generalize first :: others = parts at ih
      induction parts generalizing start base with
      | nil => exact noLink start base before
      | cons regex rest restInduction =>
          rw [List.forall_mem_cons] at ih
          have endEq := regex.accept_succ base
          exact link regex rest start base before (ih.1 _ _ _) (restInduction _ _ (by omega) ih.2)
  | repetition mode body ih => exact repetition mode body start base before (ih _ _ _)

/-! ## Where arcs run -/

end Regex

/-- An arc of a fragment that is attached to `start` and takes the vertices from `base` up to `accept`, where
nothing leaves. -/
structure Arc.Within (start base accept : Nat) (arc : Arc) : Prop where
  source : arc.source = start ∨ base ≤ arc.source ∧ arc.source < accept
  base_le_target : base ≤ arc.target
  target_le_accept : arc.target ≤ accept

/-- A fragment inside another one: attached to a vertex of it, or to the same start. -/
theorem Arc.Within.widen {start base accept start' base' accept' : Nat} {arc : Arc}
    (within : arc.Within start' base' accept')
    (start_within : start' = start ∨ base ≤ start' ∧ start' < accept)
    (base_le : base ≤ base') (accept_le : accept' ≤ accept) : arc.Within start base accept where
  source := by
    have sourceWithin := within.source
    omega
  base_le_target := Nat.le_trans base_le within.base_le_target
  target_le_accept := Nat.le_trans within.target_le_accept accept_le

namespace Regex

theorem branchArcs_within (parts : List Regex)
    (partWithin : ∀ part ∈ parts, ∀ start base, ∀ arc ∈ part.arcs start base,
      arc.Within start base (part.accept base))
    (start base : Nat) :
    ∀ arc ∈ branchArcs parts start base,
      arc.Within start base (base + statesOfAll parts + parts.length) := by
  induction parts generalizing base with
  | nil => simp [branchArcs]
  | cons regex rest ih =>
      intro arc member
      have pos := regex.states_pos
      simp only [branchArcs, List.cons_append, List.mem_cons, List.mem_append] at member
      simp only [statesOfAll, List.length_cons]
      rcases member with rfl | member | member
      · exact ⟨.inl rfl, Nat.le_refl _, by dsimp only; omega⟩
      · have within := partWithin regex (by simp) base (base + 1) arc member
        exact within.widen (.inr (by omega)) (by omega) (by simp only [accept]; omega)
      · have within := ih (fun part later => partWithin part (by simp [later])) _ arc member
        exact within.widen (.inl rfl) (by omega) (by omega)

theorem chainArcs_within (parts : List Regex)
    (partWithin : ∀ part ∈ parts, ∀ start base, ∀ arc ∈ part.arcs start base,
      arc.Within start base (part.accept base))
    (start base : Nat) :
    ∀ arc ∈ chainArcs parts start base, arc.Within start base (base + statesOfAll parts - 1) := by
  induction parts generalizing start base with
  | nil => simp [chainArcs]
  | cons regex rest ih =>
      intro arc member
      have pos := regex.states_pos
      simp only [chainArcs, List.mem_append] at member
      simp only [statesOfAll]
      rcases member with member | member
      · have within := partWithin regex (by simp) start base arc member
        exact within.widen (.inl rfl) (Nat.le_refl _) (by simp only [accept]; omega)
      · have within := ih (fun part later => partWithin part (by simp [later])) _ _ arc member
        cases rest with
        | nil => simp [chainArcs] at member
        | cons next rest =>
            have nextPos := next.states_pos
            simp only [statesOfAll] at within ⊢
            exact within.widen (.inr (by simp only [accept]; omega)) (by omega) (by omega)

theorem arcs_within (regex : Regex) (start base : Nat) :
    ∀ arc ∈ regex.arcs start base, arc.Within start base (regex.accept base) := by
  induction regex using Regex.induction generalizing start base with
  | empty =>
      intro arc member
      obtain rfl := List.mem_singleton.1 member
      exact ⟨.inl rfl, Nat.le_refl _, Nat.le_refl _⟩
  | text letter =>
      intro arc member
      obtain rfl := List.mem_singleton.1 member
      exact ⟨.inl rfl, Nat.le_refl _, Nat.le_refl _⟩
  | alternation first others ih =>
      intro arc member
      rw [arcs_alternation, accept_alternation] at member
      rw [accept_alternation]
      rcases List.mem_append.1 member with member | member
      · exact branchArcs_within (first :: others) ih start base arc member
      · obtain ⟨last, isEnd, rfl⟩ := List.mem_map.1 member
        have bounds := branchEnds_lt _ _ last isEnd
        exact ⟨.inr ⟨Nat.le_of_lt bounds.1, bounds.2⟩, by dsimp only; omega, Nat.le_refl _⟩
  | sequence first others ih =>
      rw [arcs_sequence]
      exact chainArcs_within (first :: others) ih start base
  | repetition mode body ih =>
      intro arc member
      have pos := body.states_pos
      rw [accept_repetition]
      simp only [arcs, List.cons_append, List.mem_cons, List.mem_append] at member
      rcases member with rfl | member | member
      · exact ⟨.inl rfl, Nat.le_refl _, by dsimp only; omega⟩
      · have within := ih base (base + 1) arc member
        exact within.widen (.inr (by omega)) (by omega) (by simp only [accept]; omega)
      · have bodyEnd := body.accept_succ (base + 1)
        rcases mem_closingArcs.1 member with ⟨-, rfl⟩ | rfl | ⟨-, rfl⟩
        · exact ⟨.inr (by dsimp only; omega), Nat.le_refl _, by dsimp only; omega⟩
        · exact ⟨.inr (by dsimp only; omega), by dsimp only; omega, Nat.le_refl _⟩
        · exact ⟨.inl rfl, by dsimp only; omega, Nat.le_refl _⟩

/-! ## The construction keeps to the layout -/

def AttachesAsLaidOut (regex : Regex) : Prop :=
  ∀ (start : Nat) (builder : Builder), start < builder.graph.size →
    (regex.attach start builder).1 = regex.accept builder.graph.size ∧
      builder.Grows (regex.attach start builder).2 regex.states (regex.arcs start builder.graph.size)

/-- A fragment behind a void transition from `start` to a new state. -/
theorem attach_behind {regex : Regex} (laidOut : regex.AttachesAsLaidOut) {start : Nat}
    {builder : Builder} (inside : start < builder.graph.size) :
    let entered := (attachSymbol builder start Symbol.epsilon).2
    (regex.attach builder.graph.size entered).1 = regex.accept (builder.graph.size + 1) ∧
      builder.Grows (regex.attach builder.graph.size entered).2 (1 + regex.states)
        (⟨start, Symbol.epsilon, builder.graph.size⟩ ::
          regex.arcs builder.graph.size (builder.graph.size + 1)) := by
  intro entered
  have entering := grows_attachSymbol builder inside Symbol.epsilon
  have entrySize : entered.graph.size = builder.graph.size + 1 := entering.size
  obtain ⟨ends, grows⟩ := laidOut builder.graph.size entered (by rw [entrySize]; omega)
  rw [entrySize] at ends grows
  exact ⟨ends, entering.trans grows⟩

theorem attachBranches_laidOut (parts : List Regex) (laidOut : ∀ part ∈ parts, part.AttachesAsLaidOut)
    (start : Nat) (builder : Builder) (inside : start < builder.graph.size) :
    (attachBranches parts start builder).1 = branchEnds parts builder.graph.size ∧
      builder.Grows (attachBranches parts start builder).2 (statesOfAll parts + parts.length)
        (branchArcs parts start builder.graph.size) := by
  induction parts generalizing builder with
  | nil => exact ⟨rfl, .refl⟩
  | cons regex rest ih =>
      obtain ⟨firstEnd, firstGrows⟩ := attach_behind (laidOut regex (by simp)) inside
      have firstSize := firstGrows.size
      obtain ⟨restEnds, restGrows⟩ := ih (fun part member => laidOut part (by simp [member])) _
        (by rw [firstSize]; omega)
      rw [firstSize, ← Nat.add_assoc] at restEnds restGrows
      constructor
      · exact congrArg₂ List.cons firstEnd restEnds
      · have grows := firstGrows.trans restGrows
        have statesEq : 1 + regex.states + (statesOfAll rest + rest.length) =
            statesOfAll (regex :: rest) + (regex :: rest).length := by
          simp only [statesOfAll, List.length_cons]
          omega
        rw [statesEq] at grows
        exact grows

theorem attachChain_laidOut (parts : List Regex) (laidOut : ∀ part ∈ parts, part.AttachesAsLaidOut)
    (start : Nat) (builder : Builder) (inside : start < builder.graph.size) :
    (attachChain parts start builder).1 = chainEnd parts start builder.graph.size ∧
      builder.Grows (attachChain parts start builder).2 (statesOfAll parts)
        (chainArcs parts start builder.graph.size) := by
  induction parts generalizing start builder with
  | nil => exact ⟨rfl, .refl⟩
  | cons regex rest ih =>
      obtain ⟨firstEnd, firstGrows⟩ := laidOut regex (by simp) start builder inside
      have firstSize := firstGrows.size
      have firstInside : regex.accept builder.graph.size < (regex.attach start builder).2.graph.size := by
        have pos := regex.states_pos
        rw [firstSize, accept]
        omega
      obtain ⟨restEnd, restGrows⟩ := ih (fun part member => laidOut part (by simp [member]))
        (regex.accept builder.graph.size) (regex.attach start builder).2 firstInside
      rw [firstSize] at restEnd restGrows
      have grows := firstGrows.trans restGrows
      simp only [attachChain, firstEnd, chainEnd, statesOfAll, chainArcs]
      exact ⟨restEnd, grows⟩

theorem attach_alternation (first : Regex) (others : List Regex) (start : Nat) (builder : Builder) :
    (alternation first others).attach start builder =
      closeAlternation (attachBranches (first :: others) start builder).2
        (attachBranches (first :: others) start builder).1 := by
  simp only [attach, attachBranches]

theorem attach_repetition (mode : Repetition) (body : Regex) (start : Nat) (builder : Builder) :
    (repetition mode body).attach start builder =
      let entered := (attachSymbol builder start Symbol.epsilon).2
      closeRepetition (body.attach builder.graph.size entered).2 mode start builder.graph.size
        (body.attach builder.graph.size entered).1 := by
  simp only [attach]
  rfl

theorem attach_laidOut (regex : Regex) : regex.AttachesAsLaidOut := by
  induction regex using Regex.induction with
  | empty =>
      intro start builder inside
      exact ⟨rfl, grows_attachSymbol builder inside Symbol.epsilon⟩
  | text letter =>
      intro start builder inside
      exact ⟨rfl, grows_attachSymbol builder inside letter.symbol⟩
  | alternation first others ih =>
      intro start builder inside
      obtain ⟨ends, grows⟩ := attachBranches_laidOut (first :: others) ih start builder inside
      rw [attach_alternation, ends, arcs_alternation, closeAlternation_fst]
      generalize (attachBranches (first :: others) start builder).2 = after at grows ⊢
      have acceptEq : (alternation first others).accept builder.graph.size = after.graph.size := by
        rw [grows.size, accept_alternation, Nat.add_assoc]
      have statesEq : (alternation first others).states =
          statesOfAll (first :: others) + (first :: others).length + 1 := by
        simp only [states, statesOfAll, List.length_cons]
        omega
      rw [acceptEq, statesEq]
      refine ⟨rfl, grows.trans (grows_closeAlternation after ?_)⟩
      intro last member
      have bounds := branchEnds_lt _ _ last member
      rw [grows.size]
      omega
  | sequence first others ih =>
      intro start builder inside
      obtain ⟨chainEnds, grows⟩ := attachChain_laidOut (first :: others) ih start builder inside
      rw [chainEnd_cons] at chainEnds
      rw [arcs_sequence]
      exact ⟨chainEnds, grows⟩
  | repetition mode body ih =>
      intro start builder inside
      obtain ⟨bodyEnd, grows⟩ := attach_behind ih inside
      rw [attach_repetition]
      dsimp only
      rw [bodyEnd, closeRepetition_fst, arcs]
      generalize (body.attach builder.graph.size
        (attachSymbol builder start Symbol.epsilon).2).2 = after at grows ⊢
      have pos := body.states_pos
      have acceptEq : (repetition mode body).accept builder.graph.size = after.graph.size := by
        rw [grows.size, accept_repetition, Nat.add_assoc]
      have closingEq : builder.graph.size + 1 + body.states = after.graph.size := by
        rw [grows.size, Nat.add_assoc]
      have statesEq : (repetition mode body).states = 1 + body.states + 1 := by
        simp only [states]
        omega
      rw [acceptEq, closingEq, statesEq]
      refine ⟨rfl, grows.trans (grows_closeRepetition after mode ?_ ?_)⟩
      · rw [grows.size]
        omega
      · rw [grows.size, accept]
        omega

/-! ## The automaton of an expression -/

variable (regex : Regex)

theorem grows_build :
    Builder.empty.allocate.2.Grows ⟨regex.build.automaton.graph, regex.build.count⟩ regex.states
      (regex.arcs 0 1) :=
  (regex.attach_laidOut 0 Builder.empty.allocate.2 Nat.one_pos).2

@[simp] theorem initial_build : regex.build.automaton.initial = 0 := rfl

@[simp] theorem accept_build : regex.build.automaton.accept = regex.accept 1 :=
  (regex.attach_laidOut 0 Builder.empty.allocate.2 Nat.one_pos).1

theorem transitions_build (vertex : Nat) :
    regex.build.automaton.graph.transitions vertex = Arc.leaving vertex (regex.arcs 0 1) := by
  have grown := regex.grows_build.transitions vertex
  rw [Builder.empty.grows_allocate.transitions] at grown
  simpa [Builder.empty] using grown

variable {regex}

theorem target_build {vertex : Nat} {transition : Transition}
    (leaves : transition ∈ regex.build.automaton.graph.transitions vertex) :
    1 ≤ transition.target ∧ transition.target ≤ regex.accept 1 := by
  rw [transitions_build] at leaves
  obtain ⟨arc, member, rfl⟩ := List.mem_map.1 leaves
  have within := regex.arcs_within 0 1 arc (List.mem_filter.1 member).1
  exact ⟨within.base_le_target, within.target_le_accept⟩

end Regex

end RegexAutomaton
