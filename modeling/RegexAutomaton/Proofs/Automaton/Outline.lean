import RegexAutomaton.Automaton.Export
import RegexAutomaton.Proofs.Automaton.States

/-!
# What an export tells

An export goes by labels and shows the void symbol by a sign. When no two states have the same label and no letter is
spelled with that sign, it can be read back: its nodes name the states in the order of the walk, and the edges out of
a label are the transitions of the state with that label in their own order, wherever the walk has put them. What is
read back is the outline of the automaton, which says by labels what can be reached.
-/

set_option autoImplicit false

namespace RegexAutomaton

/-- The symbol for a sign, where no letter is spelled with the sign of the void symbol. -/
def Symbol.ofSign (sign : String) : Symbol :=
  if sign = "ε" then epsilon else ⟨sign⟩

theorem Symbol.ofSign_display {symbol : Symbol} (plain : symbol ≠ ⟨"ε"⟩) : ofSign symbol.display = symbol := by
  by_cases void : symbol = epsilon
  · subst void
    rw [display_epsilon]
    exact if_pos rfl
  · rw [display_of_ne void]
    apply if_neg
    intro same
    exact plain (congrArg Symbol.mk same)

/-- The labels of the states in the order of a walk, each with the labels that its transitions lead to, in order. -/
abbrev Outline := List (Label × List (Label × Symbol))

namespace Element

def label? : Element → Option Label
  | node label => some label
  | edge _ _ _ => none

/-- Where an edge out of a label leads, and the sign of its symbol. -/
def arc? (origin : Label) : Element → Option (Label × String)
  | node _ => none
  | edge source target symbol => if source = origin then some (target, symbol) else none

theorem toValue_injective : Function.Injective toValue := by
  intro first second same
  cases first <;> cases second <;> simp_all [toValue]

end Element

namespace Export

def nodes : Export → List Element
  | joint elements => elements.filter Element.isNode
  | split nodes _ => nodes

def edges : Export → List Element
  | joint elements => elements.filter fun element => !element.isNode
  | split _ edges => edges

/-- What an export tells of the automaton that it has been made from. -/
def outline (exported : Export) : Outline :=
  (exported.nodes.filterMap Element.label?).map fun label =>
    (label, (exported.edges.filterMap (Element.arc? label)).map fun arc => (arc.1, Symbol.ofSign arc.2))

theorem toValue_injective : Function.Injective toValue := by
  have mapInjective := List.map_injective_iff.2 Element.toValue_injective
  intro first second same
  cases first <;> cases second <;> simp only [toValue, Value.list.injEq, Value.object.injEq, List.cons.injEq,
    Prod.mk.injEq, true_and, and_true, reduceCtorEq] at same
  · rw [mapInjective same]
  · rw [mapInjective same.1, mapInjective same.2]

end Export

namespace Automaton

variable (automaton : Automaton)

def DistinctLabels : Prop :=
  (automaton.states.map automaton.graph.label).Nodup

/-- No transition that can be reached has the sign of the void symbol for a letter. -/
def Plain : Prop :=
  ∀ vertex ∈ automaton.states, ∀ transition ∈ automaton.graph.transitions vertex, transition.symbol ≠ ⟨"ε"⟩

instance : Decidable automaton.DistinctLabels :=
  inferInstanceAs (Decidable (automaton.states.map automaton.graph.label).Nodup)

instance : Decidable automaton.Plain :=
  inferInstanceAs
    (Decidable (∀ vertex ∈ automaton.states, ∀ transition ∈ automaton.graph.transitions vertex,
      transition.symbol ≠ ⟨"ε"⟩))

/-- What can be reached, by labels. -/
def outline : Outline :=
  automaton.states.map fun vertex =>
    (automaton.graph.label vertex,
      (automaton.graph.transitions vertex).map fun transition =>
        (automaton.graph.label transition.target, transition.symbol))

/-! ## The nodes and the edges -/

theorem filterMap_label?_elements :
    automaton.elements.filterMap Element.label? = automaton.states.map automaton.graph.label := by
  rw [elements, states, List.filterMap_map, List.map_filterMap]
  congr 1
  funext item
  cases item <;> rfl

/-- The edges out of a label are the transitions of its state. They come from all over the walk. -/
theorem filterMap_arc?_elements (distinct : automaton.DistinctLabels) {vertex : Vertex}
    (isState : vertex ∈ automaton.states) :
    automaton.elements.filterMap (Element.arc? (automaton.graph.label vertex)) =
      (automaton.graph.transitions vertex).map fun transition =>
        (automaton.graph.label transition.target, transition.symbol.display) := by
  rw [← automaton.departures_walk isState, elements, Walk.departures, List.filterMap_map, List.map_filterMap]
  apply List.filterMap_congr
  intro item member
  cases item with
  | discovered found => rfl
  | followed source transition =>
      -- the source is a state as well, so it has the label only if it is the vertex
      have isSource := automaton.source_mem_states member
      have sameLabel : automaton.graph.label source = automaton.graph.label vertex ↔ source = vertex :=
        ⟨List.inj_on_of_nodup_map distinct isSource isState, congrArg automaton.graph.label⟩
      by_cases here : source = vertex <;>
        simp [Element.ofItem, Element.arc?, Walk.Item.departure?, sameLabel, here]

/-- An edge has its source before it, and its target before it or right after it. -/
theorem ends_of_edge {before after : List Element} {source target : Label} {symbol : String}
    (split : automaton.elements = before ++ .edge source target symbol :: after) :
    .node source ∈ before ∧ (.node target ∈ before ∨ ∃ rest, after = .node target :: rest) := by
  obtain ⟨beforeItems, fromItems, walkEq, rfl, fromEq⟩ := List.map_eq_append_iff.1 split
  obtain ⟨item, afterItems, rfl, itemEq, rfl⟩ := List.map_eq_cons_iff.1 fromEq
  cases item with
  | discovered vertex => cases itemEq
  | followed vertex transition =>
      cases itemEq
      have orderly := automaton.graph.orderly_depthFirst [automaton.initial] none
      refine ⟨?_, ?_⟩
      · have discovered := orderly.discovered_before beforeItems vertex transition afterItems walkEq
        exact List.mem_map_of_mem discovered
      · by_cases known : .discovered transition.target ∈ beforeItems
        · exact .inl (List.mem_map_of_mem known)
        · obtain ⟨rest, rfl⟩ := orderly.discovered_next beforeItems vertex transition afterItems walkEq known
          exact .inr ⟨_, rfl⟩

/-! ## Reading an export back -/

variable (split : Bool)

theorem nodes_toExport : (automaton.toExport split).nodes = automaton.elements.filter Element.isNode := by
  cases split <;> rfl

theorem edges_toExport :
    (automaton.toExport split).edges = automaton.elements.filter fun element => !element.isNode := by
  cases split <;> rfl

theorem outline_toExport (distinct : automaton.DistinctLabels) (plain : automaton.Plain) :
    (automaton.toExport split).outline = automaton.outline := by
  have labels : (automaton.elements.filter Element.isNode).filterMap Element.label? =
      automaton.states.map automaton.graph.label := by
    rw [← filterMap_label?_elements, List.filterMap_filter]
    congr 1
    funext element
    cases element <;> rfl
  have arcs : ∀ vertex ∈ automaton.states,
      (automaton.elements.filter fun element => !element.isNode).filterMap
          (Element.arc? (automaton.graph.label vertex)) =
        (automaton.graph.transitions vertex).map fun transition =>
          (automaton.graph.label transition.target, transition.symbol.display) := by
    intro vertex isState
    rw [← automaton.filterMap_arc?_elements distinct isState, List.filterMap_filter]
    congr 1
    funext element
    cases element <;> rfl
  rw [Export.outline, nodes_toExport, edges_toExport, labels, List.map_map, outline]
  apply List.map_congr_left
  intro vertex isState
  rw [Function.comp_apply, arcs vertex isState, List.map_map]
  congr 1
  apply List.map_congr_left
  intro transition leaves
  rw [Function.comp_apply, Symbol.ofSign_display (plain vertex isState transition leaves)]

/-- An export in one list names the states in the order of the walk and has the transitions of each of them in order,
between a node for the source and a node for the target. The export in two lists has the same nodes and edges. Both
determine what can be reached, unless a letter is spelled with the sign of the void symbol. -/
theorem export_determines (distinct : automaton.DistinctLabels) :
    (automaton.elements.filterMap Element.label? = automaton.states.map automaton.graph.label ∧
      (automaton.elements.filterMap Element.label?).Nodup ∧
      automaton.states.head? = some automaton.initial ∧
      ∀ vertex, vertex ∈ automaton.states ↔ automaton.graph.Reaches none automaton.initial vertex) ∧
    (∀ vertex ∈ automaton.states,
      automaton.elements.filterMap (Element.arc? (automaton.graph.label vertex)) =
        (automaton.graph.transitions vertex).map fun transition =>
          (automaton.graph.label transition.target, transition.symbol.display)) ∧
    (∀ before source target symbol after,
      automaton.elements = before ++ .edge source target symbol :: after →
      .node source ∈ before ∧ (.node target ∈ before ∨ ∃ rest, after = .node target :: rest)) ∧
    automaton.toExport false = .joint automaton.elements ∧
    automaton.toExport true =
      .split (automaton.elements.filter Element.isNode)
        (automaton.elements.filter fun element => !element.isNode) ∧
    ∀ (other : Automaton) (split : Bool), other.DistinctLabels → automaton.Plain → other.Plain →
      (automaton.toExport split).toValue = (other.toExport split).toValue →
      automaton.graph.label automaton.initial = other.graph.label other.initial ∧
        automaton.outline = other.outline := by
  refine ⟨⟨automaton.filterMap_label?_elements, ?_, automaton.head?_states, fun _ => automaton.mem_states⟩, ?_, ?_,
    rfl, rfl, ?_⟩
  · rw [filterMap_label?_elements]
    exact distinct
  · intro vertex isState
    exact automaton.filterMap_arc?_elements distinct isState
  · intro before source target symbol after split
    exact automaton.ends_of_edge split
  · intro other split otherDistinct plain otherPlain sameValue
    have outlines : automaton.outline = other.outline := by
      rw [← automaton.outline_toExport split distinct plain, Export.toValue_injective sameValue,
        other.outline_toExport split otherDistinct otherPlain]
    refine ⟨?_, outlines⟩
    have heads := congrArg (fun rows : Outline => rows.head?.map Prod.fst) outlines
    simpa [outline, head?_states] using heads

/-- A back edge, a loop at a state and parallel edges, with negative labels. In the second graph the states stand in
another order, and one that is not reached has a label for the second time. -/
theorem export_determines_permuted :
    let first : Automaton :=
      ⟨"NFA", ⟨#[⟨-1, [⟨⟨"a"⟩, 1⟩, ⟨Symbol.epsilon, 2⟩, ⟨⟨"a"⟩, 1⟩]⟩, ⟨7, [⟨⟨"b"⟩, 1⟩, ⟨⟨"c"⟩, 0⟩, ⟨⟨"d"⟩, 2⟩]⟩,
        ⟨3, []⟩]⟩, 0, 2⟩
    let second : Automaton :=
      ⟨"NFA", ⟨#[⟨3, []⟩, ⟨7, [⟨⟨"a"⟩, 0⟩]⟩, ⟨7, [⟨⟨"b"⟩, 2⟩, ⟨⟨"c"⟩, 3⟩, ⟨⟨"d"⟩, 0⟩]⟩,
        ⟨-1, [⟨⟨"a"⟩, 2⟩, ⟨Symbol.epsilon, 0⟩, ⟨⟨"a"⟩, 2⟩]⟩]⟩, 3, 0⟩
    first.DistinctLabels ∧ second.DistinctLabels ∧ first.Plain ∧ second.Plain ∧
      (first.toExport true).toValue = (second.toExport true).toValue ∧
      first.outline = second.outline ∧
      first.elements.filterMap (Element.arc? (first.graph.label 0)) = [(7, "a"), (3, "ε"), (7, "a")] := by
  intro first second
  have distinct : first.DistinctLabels := by decide
  have otherDistinct : second.DistinctLabels := by decide
  have plain : first.Plain := by decide
  have otherPlain : second.Plain := by decide
  have same : (first.toExport true).toValue = (second.toExport true).toValue :=
    congrArg Export.toValue (by decide)
  obtain ⟨-, arcs, -, -, -, determined⟩ := first.export_determines distinct
  refine ⟨distinct, otherDistinct, plain, otherPlain, same, ?_, ?_⟩
  · exact (determined second true otherDistinct plain otherPlain same).2
  · rw [arcs 0 (by decide)]
    decide

-- a letter that is spelled with the sign hides in an export
example :
    let single (symbol : Symbol) : Automaton := ⟨"NFA", ⟨#[⟨0, [⟨symbol, 1⟩]⟩, ⟨1, []⟩]⟩, 0, 1⟩
    (single ⟨"ε"⟩).toExport false = (single Symbol.epsilon).toExport false ∧
      (single ⟨"ε"⟩).outline ≠ (single Symbol.epsilon).outline := by
  decide

end Automaton

end RegexAutomaton
