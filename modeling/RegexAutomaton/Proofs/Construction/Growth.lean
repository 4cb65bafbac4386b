import RegexAutomaton.Construction.Machine

/-!
# What a construction adds to a graph

A construction adds states at the end of the graph and transitions at the end of the lists of their sources,
and leaves everything else alone. So its effect is told by the number of new states and the arcs in the order
of their addition, and the effects of two constructions in a row add up.
-/

set_option autoImplicit false

namespace RegexAutomaton

/-- A transition together with the vertex that it leaves. -/
structure Arc where
  source : Nat
  symbol : Symbol
  target : Nat
deriving DecidableEq, Repr

namespace Arc

def transition (arc : Arc) : Transition := ⟨arc.symbol, arc.target⟩

def leaving (vertex : Nat) (arcs : List Arc) : List Transition :=
  (arcs.filter fun arc => arc.source = vertex).map transition

variable (vertex : Nat) (first rest : List Arc)

@[simp] theorem leaving_nil : leaving vertex [] = [] := rfl

@[simp] theorem leaving_append :
    leaving vertex (first ++ rest) = leaving vertex first ++ leaving vertex rest := by
  simp [leaving]

theorem leaving_cons (arc : Arc) (rest : List Arc) :
    leaving vertex (arc :: rest) =
      (if arc.source = vertex then [arc.transition] else []) ++ leaving vertex rest := by
  by_cases here : arc.source = vertex <;> simp [leaving, here]

theorem leaving_eq_nil {vertex : Nat} {arcs : List Arc} (absent : ∀ arc ∈ arcs, arc.source ≠ vertex) :
    leaving vertex arcs = [] := by
  simp only [leaving, List.map_eq_nil_iff, List.filter_eq_nil_iff, decide_eq_true_eq]
  exact absent

end Arc

namespace Builder

/-- One builder comes from another by allocating states and adding arcs. -/
structure Grows (before after : Builder) (states : Nat) (arcs : List Arc) : Prop where
  size : after.graph.size = before.graph.size + states
  count : after.count = before.count + states
  oldLabel : ∀ vertex < before.graph.size, after.graph.label vertex = before.graph.label vertex
  newLabel : ∀ index < states, after.graph.label (before.graph.size + index) = (before.count + index : Nat)
  transitions : ∀ vertex,
    after.graph.transitions vertex = before.graph.transitions vertex ++ Arc.leaving vertex arcs

variable {before middle after : Builder}

theorem Grows.refl : before.Grows before 0 [] where
  size := rfl
  count := rfl
  oldLabel _ _ := rfl
  newLabel index small := by omega
  transitions vertex := by simp

theorem Grows.trans {states moreStates : Nat} {arcs moreArcs : List Arc}
    (first : before.Grows middle states arcs) (rest : middle.Grows after moreStates moreArcs) :
    before.Grows after (states + moreStates) (arcs ++ moreArcs) where
  size := by rw [rest.size, first.size, Nat.add_assoc]
  count := by rw [rest.count, first.count, Nat.add_assoc]
  oldLabel vertex old := by
    rw [rest.oldLabel vertex (by rw [first.size]; omega), first.oldLabel vertex old]
  newLabel index small := by
    by_cases early : index < states
    · rw [rest.oldLabel _ (by rw [first.size]; omega), first.newLabel index early]
    · have shifted := rest.newLabel (index - states) (by omega)
      rw [first.size, first.count] at shifted
      have vertexEq : before.graph.size + states + (index - states) = before.graph.size + index := by
        omega
      have countEq : before.count + states + (index - states) = before.count + index := by omega
      rw [vertexEq, countEq] at shifted
      exact shifted
  transitions vertex := by
    rw [rest.transitions, first.transitions, Arc.leaving_append, List.append_assoc]

theorem grows_allocate (builder : Builder) : builder.Grows builder.allocate.2 1 [] where
  size := by simp [allocate]
  count := rfl
  oldLabel vertex old := by
    simp only [allocate, Graph.label_addState]
    rw [if_neg (Nat.ne_of_lt old)]
  newLabel index small := by
    obtain rfl : index = 0 := by omega
    simp [allocate, Graph.label_addState]
  transitions vertex := by simp [allocate]

theorem grows_link (builder : Builder) {source : Nat} (inside : source < builder.graph.size)
    (symbol : Symbol) (target : Vertex) :
    builder.Grows (builder.link source symbol target) 0 [⟨source, symbol, target⟩] where
  size := by simp [link]
  count := rfl
  oldLabel vertex _ := by simp [link]
  newLabel index small := by omega
  transitions vertex := by
    simp only [link, Graph.transitions_addTransition, Arc.leaving_cons, Arc.leaving_nil,
      List.append_nil]
    by_cases here : source = vertex
    · subst here
      rw [if_pos ⟨rfl, inside⟩, if_pos rfl]
      rfl
    · rw [if_neg (fun found => here found.1), if_neg here, List.append_nil]

theorem grows_linkIf (builder : Builder) (condition : Bool) {source : Nat}
    (inside : source < builder.graph.size) (symbol : Symbol) (target : Vertex) :
    builder.Grows (if condition then builder.link source symbol target else builder) 0
      (if condition then [⟨source, symbol, target⟩] else []) := by
  cases condition with
  | true => exact builder.grows_link inside symbol target
  | false => exact .refl

theorem grows_linkAll (builder : Builder) (sources : List Nat)
    (inside : ∀ source ∈ sources, source < builder.graph.size) (target : Vertex) :
    builder.Grows (builder.linkAll sources target) 0
      (sources.map fun source => ⟨source, Symbol.epsilon, target⟩) := by
  induction sources generalizing builder with
  | nil => exact .refl
  | cons source rest ih =>
      have linked := builder.grows_link (inside source (by simp)) Symbol.epsilon target
      have restLinked := ih (builder.link source Symbol.epsilon target) fun other member => by
        rw [linked.size]
        exact inside other (by simp [member])
      exact linked.trans restLinked

end Builder

namespace Construction

variable (builder : Builder)

theorem grows_attachSymbol {start : Nat} (inside : start < builder.graph.size) (symbol : Symbol) :
    builder.Grows (attachSymbol builder start symbol).2 1 [⟨start, symbol, builder.graph.size⟩] := by
  have allocated := builder.grows_allocate
  exact allocated.trans (builder.allocate.2.grows_link (by rw [allocated.size]; omega) symbol _)

theorem closeAlternation_fst (ends : List Vertex) :
    (closeAlternation builder ends).1 = builder.graph.size := rfl

theorem grows_closeAlternation {ends : List Nat} (inside : ∀ last ∈ ends, last < builder.graph.size) :
    builder.Grows (closeAlternation builder ends).2 1
      (ends.map fun last => ⟨last, Symbol.epsilon, builder.graph.size⟩) := by
  have allocated := builder.grows_allocate
  refine allocated.trans (builder.allocate.2.grows_linkAll ends ?_ _)
  intro last member
  have old := inside last member
  rw [allocated.size]
  omega

theorem closeRepetition_fst (mode : Repetition) (start inner last : Vertex) :
    (closeRepetition builder mode start inner last).1 = builder.graph.size := by
  unfold closeRepetition
  cases mode.loops <;> simp [Builder.allocate, Builder.link]

/-- The arcs that close a repetition: back to the body, from its end to the new state, and around it. -/
def closingArcs (mode : Repetition) (start inner last accept : Nat) : List Arc :=
  (if mode.loops then [⟨last, Symbol.epsilon, inner⟩] else []) ++
    [⟨last, Symbol.epsilon, accept⟩] ++
    (if mode.skips then [⟨start, Symbol.epsilon, accept⟩] else [])

theorem mem_closingArcs {mode : Repetition} {start inner last accept : Nat} {arc : Arc} :
    arc ∈ closingArcs mode start inner last accept ↔
      (mode.loops = true ∧ arc = ⟨last, Symbol.epsilon, inner⟩) ∨
        arc = ⟨last, Symbol.epsilon, accept⟩ ∨
        (mode.skips = true ∧ arc = ⟨start, Symbol.epsilon, accept⟩) := by
  cases mode <;> simp [closingArcs, Repetition.loops, Repetition.skips]

theorem grows_closeRepetition (mode : Repetition) {start inner last : Nat}
    (startInside : start < builder.graph.size) (lastInside : last < builder.graph.size) :
    builder.Grows (closeRepetition builder mode start inner last).2 1
      (closingArcs mode start inner last builder.graph.size) := by
  have looped := builder.grows_linkIf mode.loops lastInside Symbol.epsilon inner
  unfold closeRepetition closingArcs
  generalize (if mode.loops then builder.link last Symbol.epsilon inner else builder) = back at looped ⊢
  have sizeEq : back.graph.size = builder.graph.size := looped.size
  have allocated := back.grows_allocate
  have lastThere : last < back.allocate.2.graph.size := by
    rw [allocated.size]
    omega
  have linked := back.allocate.2.grows_link lastThere Symbol.epsilon builder.graph.size
  have startThere :
      start < (back.allocate.2.link last Symbol.epsilon builder.graph.size).graph.size := by
    rw [linked.size, allocated.size]
    omega
  have skipped := Builder.grows_linkIf _ mode.skips startThere Symbol.epsilon builder.graph.size
  have closed := looped.trans (allocated.trans (linked.trans skipped))
  rw [← sizeEq] at closed ⊢
  rw [List.append_assoc]
  exact closed

end Construction

end RegexAutomaton
