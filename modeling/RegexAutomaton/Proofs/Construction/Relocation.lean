import RegexAutomaton.Proofs.Construction.Hosting
import RegexAutomaton.Proofs.Construction.Liveness

/-!
# Fragments at other places

The fragment of a tree does not depend on where it is built. Whatever the graph, the state that it is attached to and
the number of states allocated before, it is the automaton of the tree with the initial state laid on that state and
the others moved to the end of the graph. Nothing else changes.
-/

set_option autoImplicit false

namespace RegexAutomaton

open Construction

def Transition.relocate (place : Nat → Nat) (transition : Transition) : Transition :=
  ⟨transition.symbol, place transition.target⟩

namespace Arc

def relocate (place : Nat → Nat) (arc : Arc) : Arc :=
  ⟨place arc.source, arc.symbol, place arc.target⟩

theorem leaving_relocate {place : Nat → Nat} {vertex : Nat} {arcs : List Arc}
    (apart : ∀ arc ∈ arcs, place arc.source = place vertex → arc.source = vertex) :
    leaving (place vertex) (arcs.map (relocate place)) =
      (leaving vertex arcs).map (Transition.relocate place) := by
  induction arcs with
  | nil => rfl
  | cons arc rest ih =>
      rw [List.forall_mem_cons] at apart
      have sameSource : place arc.source = place vertex ↔ arc.source = vertex :=
        ⟨apart.1, congrArg place⟩
      rw [List.map_cons, leaving_cons, leaving_cons, List.map_append, ih apart.2]
      by_cases here : arc.source = vertex <;>
        simp [relocate, sameSource, here, Arc.transition, Transition.relocate]

end Arc

/-- Some vertices from `base` on come to lie at those from `newBase` on, in the same order. -/
def Moves (place : Nat → Nat) (base newBase states : Nat) : Prop :=
  ∀ index < states, place (base + index) = newBase + index

variable {place : Nat → Nat} {start base newBase : Nat}

theorem Moves.part {states : Nat} (moves : Moves place base newBase states) (skipped : Nat) {size : Nat}
    (fits : skipped + size ≤ states) : Moves place (base + skipped) (newBase + skipped) size := by
  intro index small
  rw [Nat.add_assoc, Nat.add_assoc]
  exact moves (skipped + index) (by omega)

theorem Moves.first {states : Nat} (moves : Moves place base newBase states) (some : 0 < states) :
    place base = newBase :=
  moves 0 some

namespace Regex

/-! ## The layout of a fragment that is moved -/

theorem place_accept (regex : Regex) (moves : Moves place base newBase regex.states) :
    place (regex.accept base) = regex.accept newBase := by
  have pos := regex.states_pos
  have last := moves (regex.states - 1) (by omega)
  rw [← Nat.add_sub_assoc pos, ← Nat.add_sub_assoc pos] at last
  exact last

theorem map_place_branchEnds (parts : List Regex)
    (moves : Moves place base newBase (statesOfAll parts + parts.length)) :
    (branchEnds parts base).map place = branchEnds parts newBase := by
  induction parts generalizing base newBase with
  | nil => rfl
  | cons regex rest ih =>
      simp only [statesOfAll, List.length_cons] at moves
      have behind : Moves place (base + 1) (newBase + 1) (regex.states + (statesOfAll rest + rest.length)) :=
        moves.part 1 (by omega)
      rw [branchEnds, branchEnds, List.map_cons, regex.place_accept (behind.part 0 (by omega)),
        ih (behind.part regex.states (by omega))]

/-- Where the vertices of a fragment are moved, its arcs are moved with them. -/
def Relocates (regex : Regex) : Prop :=
  ∀ (place : Nat → Nat) (start base newBase : Nat), Moves place base newBase regex.states →
    (regex.arcs start base).map (Arc.relocate place) = regex.arcs (place start) newBase

theorem map_relocate_branchArcs (parts : List Regex) (relocates : ∀ part ∈ parts, part.Relocates)
    (moves : Moves place base newBase (statesOfAll parts + parts.length)) :
    (branchArcs parts start base).map (Arc.relocate place) = branchArcs parts (place start) newBase := by
  induction parts generalizing base newBase with
  | nil => rfl
  | cons regex rest ih =>
      rw [List.forall_mem_cons] at relocates
      simp only [statesOfAll, List.length_cons] at moves
      have entry : place base = newBase := moves.first (by omega)
      have behind : Moves place (base + 1) (newBase + 1) (regex.states + (statesOfAll rest + rest.length)) :=
        moves.part 1 (by omega)
      have inner := relocates.1 place base (base + 1) (newBase + 1) (behind.part 0 (by omega))
      have others := ih relocates.2 (behind.part regex.states (by omega))
      rw [entry] at inner
      rw [branchArcs, branchArcs, List.map_append, List.map_cons, inner, others, Arc.relocate, entry]

theorem map_relocate_chainArcs (parts : List Regex) (relocates : ∀ part ∈ parts, part.Relocates)
    (moves : Moves place base newBase (statesOfAll parts)) :
    (chainArcs parts start base).map (Arc.relocate place) = chainArcs parts (place start) newBase := by
  induction parts generalizing start base newBase with
  | nil => rfl
  | cons regex rest ih =>
      rw [List.forall_mem_cons] at relocates
      simp only [statesOfAll] at moves
      have ofFirst : Moves place base newBase regex.states := moves.part 0 (by omega)
      have others : (chainArcs rest (regex.accept base) (base + regex.states)).map (Arc.relocate place) =
          chainArcs rest (place (regex.accept base)) (newBase + regex.states) :=
        ih relocates.2 (moves.part regex.states (Nat.le_refl _))
      rw [regex.place_accept ofFirst] at others
      rw [chainArcs, chainArcs, List.map_append, relocates.1 place start base newBase ofFirst, others]

theorem map_relocate_closingArcs (mode : Repetition) (inner last accept : Nat) :
    (closingArcs mode start inner last accept).map (Arc.relocate place) =
      closingArcs mode (place start) (place inner) (place last) (place accept) := by
  cases mode <;> rfl

theorem relocates (regex : Regex) : regex.Relocates := by
  induction regex using Regex.induction with
  | empty =>
      intro place start base newBase moves
      simp only [arcs, List.map_cons, List.map_nil, Arc.relocate, moves.first Nat.one_pos]
  | text letter =>
      intro place start base newBase moves
      simp only [arcs, List.map_cons, List.map_nil, Arc.relocate, moves.first Nat.one_pos]
  | alternation first others ih =>
      intro place start base newBase moves
      have ended := (alternation first others).place_accept moves
      have ofParts : Moves place base newBase
          (statesOfAll (first :: others) + (first :: others).length) := by
        apply moves.part 0
        simp only [states, statesOfAll, List.length_cons]
        omega
      have closing : (closingBranches (first :: others) base ((alternation first others).accept base)).map
            (Arc.relocate place) =
          closingBranches (first :: others) newBase ((alternation first others).accept newBase) := by
        rw [closingBranches, closingBranches, ← map_place_branchEnds _ ofParts, ← ended, List.map_map,
          List.map_map]
        rfl
      rw [arcs_alternation, arcs_alternation, List.map_append, map_relocate_branchArcs _ ih ofParts, closing]
  | sequence first others ih =>
      intro place start base newBase moves
      rw [arcs_sequence, arcs_sequence]
      exact map_relocate_chainArcs (first :: others) ih moves
  | repetition mode body ih =>
      intro place start base newBase moves
      simp only [states] at moves
      have entry : place base = newBase := moves.first (by omega)
      have behind : Moves place (base + 1) (newBase + 1) (body.states + 1) := moves.part 1 (by omega)
      have ofBody : Moves place (base + 1) (newBase + 1) body.states := behind.part 0 (by omega)
      have inner := ih place base (base + 1) (newBase + 1) ofBody
      have ended : place (base + 1 + body.states) = newBase + 1 + body.states := behind _ (by omega)
      rw [entry] at inner
      rw [arcs, arcs, List.map_append, List.map_cons, inner, map_relocate_closingArcs,
        body.place_accept ofBody, ended, Arc.relocate, entry]

end Regex

/-! ## A fragment and the automaton of its tree -/

/-- Where a fragment attached to a state has the states of the automaton: the initial one is that state, and the others
follow on what has been built before. -/
def Builder.landing (builder : Builder) (start : Nat) : Nat → Nat
  | 0 => start
  | index + 1 => builder.graph.size + index

/-- What attaching a fragment of some states to a state does, told by the automaton of the same tree. -/
structure Builder.Receives (before after : Builder) (start : Vertex) (automaton : Automaton) (states : Nat) :
    Prop where
  size : after.graph.size = before.graph.size + states
  count : after.count = before.count + states
  label : ∀ index < states, after.graph.label (before.landing start (index + 1)) = (before.count + index : Nat)
  /-- The transitions of the new states. -/
  inside : ∀ index < states, after.graph.transitions (before.landing start (index + 1)) =
    (automaton.graph.transitions (index + 1)).map (Transition.relocate (before.landing start))
  /-- The transitions added to the state that the fragment is attached to. -/
  entering : after.graph.transitions start = before.graph.transitions start ++
    (automaton.graph.transitions 0).map (Transition.relocate (before.landing start))
  outside : ∀ vertex < before.graph.size, after.graph.label vertex = before.graph.label vertex ∧
    (vertex ≠ start → after.graph.transitions vertex = before.graph.transitions vertex)

namespace Regex

variable {builder : Builder} {start : Nat}

theorem moves_landing (regex : Regex) : Moves (builder.landing start) 1 builder.graph.size regex.states := by
  intro index _
  rw [Nat.add_comm]
  rfl

/-- What leaves the vertices of a fragment is what leaves the states of the automaton, moved. -/
theorem leaving_landing (regex : Regex) (inside : start < builder.graph.size) (vertex : Nat) :
    Arc.leaving (builder.landing start vertex) (regex.arcs start builder.graph.size) =
      (regex.build.automaton.graph.transitions vertex).map (Transition.relocate (builder.landing start)) := by
  have moved := regex.relocates (builder.landing start) 0 1 builder.graph.size regex.moves_landing
  change _ = regex.arcs start builder.graph.size at moved
  rw [← moved, transitions_build]
  apply Arc.leaving_relocate
  -- the state that the fragment is attached to was there before, so it is none of the new ones
  intro arc _ same
  rcases arc with ⟨_ | other, symbol, target⟩ <;> rcases vertex with _ | index <;>
    simp only [Builder.landing] at same ⊢ <;> omega

theorem receives_attach (regex : Regex) (inside : start < builder.graph.size) :
    builder.Receives (regex.attach start builder).2 start regex.build.automaton regex.states := by
  obtain ⟨-, grows⟩ := regex.attach_laidOut start builder inside
  refine ⟨grows.size, grows.count, grows.newLabel, ?_, ?_, ?_⟩
  · intro index small
    have new : builder.graph.transitions (builder.landing start (index + 1)) = [] :=
      builder.graph.transitions_of_size_le (Nat.le_add_right _ _)
    rw [grows.transitions, new, List.nil_append, regex.leaving_landing inside]
  · rw [grows.transitions]
    exact congrArg _ (regex.leaving_landing inside 0)
  · intro vertex old
    refine ⟨grows.oldLabel vertex old, ?_⟩
    intro other
    rw [grows.transitions, Arc.leaving_eq_nil_of_within (regex.arcs_within start builder.graph.size) other (.inl old),
      List.append_nil]

theorem length_states_build (regex : Regex) : regex.build.automaton.states.length = regex.states + 1 := by
  rw [regex.states_build_perm.length_eq, List.length_range, regex.count_build]

end Regex

namespace Tree

open Construction.Machine

/-- A fragment is built in the same way wherever the machine enters its tree, whatever waits outside. -/
theorem leads_attach {tree : Tree} {regex : Regex} (stands : tree.regex = .ok regex) (start : Vertex)
    (builder : Builder) (frames : List Construction.Frame) :
    (⟨builder, .enter tree start, frames⟩ : Machine).Leads
      ⟨(regex.attach start builder).2, .leave (regex.attach start builder).1, frames⟩ := by
  have completes := completes_enter tree start builder frames
  rw [attach_eq, stands] at completes
  exact completes

/-- A fragment built anywhere is the automaton of its tree, with the initial state laid on the state that the fragment
is attached to, and the others counted on from what has been built before. The machine comes back with the image of the
accept state, which is one of the new states, and leaves everything else as it was. -/
theorem fragment_relocates {tree : Tree} {built : Built} (success : tree.build = .ok built) (builder : Builder)
    {start : Nat} (inside : start < builder.graph.size) :
    ∃ states after,
      (built.automaton.initial = 0 ∧ built.automaton.states.length = states + 1 ∧
        ∀ vertex ∈ built.automaton.states, vertex ≤ states ∧ built.automaton.graph.label vertex = vertex) ∧
      builder.Receives after start built.automaton states ∧
      (builder.graph.size ≤ builder.landing start built.automaton.accept ∧
        builder.landing start built.automaton.accept < after.graph.size) ∧
      (∀ frames, (⟨builder, .enter tree start, frames⟩ : Machine).Leads
        ⟨after, .leave (builder.landing start built.automaton.accept), frames⟩) ∧
      (⟨builder, .enter tree start, []⟩ : Machine).run =
        .ok (builder.landing start built.automaton.accept, after) := by
  obtain ⟨regex, stands, rfl⟩ := regex_of_build success
  have received := regex.receives_attach inside
  have ended : (regex.attach start builder).1 = builder.landing start regex.build.automaton.accept := by
    rw [Regex.accept_build, regex.place_accept regex.moves_landing]
    exact (regex.attach_laidOut start builder inside).1
  refine ⟨regex.states, (regex.attach start builder).2, ⟨rfl, regex.length_states_build, ?_⟩, received, ?_, ?_, ?_⟩
  · intro vertex isState
    have allocated := (regex.mem_states_build vertex).1 isState
    refine ⟨?_, regex.label_build allocated⟩
    rw [regex.count_build] at allocated
    exact Nat.le_of_lt_succ allocated
  · have endEq := regex.accept_succ builder.graph.size
    have endAbove := regex.le_accept builder.graph.size
    rw [Regex.accept_build, regex.place_accept regex.moves_landing, received.size]
    omega
  · intro frames
    rw [← ended]
    exact leads_attach stands start builder frames
  · rw [← ended]
    exact run_of_halts ⟨_, leads_attach stands start builder [], rfl⟩

/-- A loop built on a state with transitions of its own, in a graph whose labels are not counted from zero. -/
theorem fragment_relocates_loop :
    let tree := repetition .star (alternation [text "a", empty])
    let builder : Builder := ⟨⟨#[⟨5, [⟨⟨"z"⟩, 0⟩, ⟨Symbol.epsilon, 1⟩]⟩, ⟨-1, []⟩]⟩, 40⟩
    ∃ built after, tree.build = .ok built ∧ 0 < builder.graph.size ∧
      builder.Receives after 0 built.automaton 7 ∧ after.graph.label 8 = 46 ∧
      after.graph.transitions 0 =
        [⟨⟨"z"⟩, 0⟩, ⟨Symbol.epsilon, 1⟩, ⟨Symbol.epsilon, 2⟩, ⟨Symbol.epsilon, 8⟩] ∧
      (⟨builder, .enter tree 0, []⟩ : Machine).run = .ok (8, after) := by
  intro tree builder
  have stands : ∃ regex : Regex, tree.regex = .ok regex ∧ regex.build.automaton.states.length = 8 ∧
      regex.build.automaton.accept = 7 ∧
      regex.build.automaton.graph.transitions 0 = [⟨Symbol.epsilon, 1⟩, ⟨Symbol.epsilon, 7⟩] :=
    ⟨_, rfl, rfl, rfl, rfl⟩
  obtain ⟨regex, stands, length, accept, leaving⟩ := stands
  have success : tree.build = .ok regex.build := by
    rw [build_eq_regex, stands]
    rfl
  have inside : 0 < builder.graph.size := by decide
  obtain ⟨states, after, ⟨-, lengthEq, -⟩, received, -, -, ran⟩ := fragment_relocates success builder inside
  obtain rfl : states = 7 := Nat.succ.inj (lengthEq.symm.trans length)
  rw [accept] at ran
  have entering := received.entering
  rw [leaving] at entering
  exact ⟨regex.build, after, success, inside, received, received.label 6 (by decide), entering, ran⟩

end Tree

end RegexAutomaton
