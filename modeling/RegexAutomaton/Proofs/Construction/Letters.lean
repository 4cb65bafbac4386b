import RegexAutomaton.Proofs.Construction.Arcs
import RegexAutomaton.Proofs.Regex.Nodes

/-!
# Where the letters of a tree are read

Every letter of an expression is read by a transition of its own, to the state that is allocated for it. Fragments are
built from left to right, so the letters stand in the order of these states, and in that of the states where they are
read.
-/

set_option autoImplicit false

namespace RegexAutomaton

open Construction

namespace Arc

/-- The arcs that read a letter. -/
def readings (arcs : List Arc) : List Arc :=
  arcs.filter fun arc => arc.symbol ≠ Symbol.epsilon

@[simp] theorem readings_append (first rest : List Arc) : readings (first ++ rest) = readings first ++ readings rest :=
  List.filter_append ..

@[simp] theorem readings_cons_void (start target : Nat) (rest : List Arc) :
    readings (⟨start, Symbol.epsilon, target⟩ :: rest) = readings rest :=
  List.filter_cons_of_neg (by simp)

@[simp] theorem readings_letter (start target : Nat) (letter : Letter) :
    readings [⟨start, letter.symbol, target⟩] = [⟨start, letter.symbol, target⟩] :=
  List.filter_eq_self.2 (by simp [letter.ne_epsilon])

theorem readings_of_void {arcs : List Arc} (void : ∀ arc ∈ arcs, arc.symbol = Symbol.epsilon) : readings arcs = [] := by
  apply List.filter_eq_nil_iff.2
  intro arc member
  simpa using void arc member

/-- Some arcs read these letters in order. Each of them leaves a later vertex than those before it and leads to a later
vertex, and all of this is between two vertices. -/
structure Climb (arcs : List Arc) (letters : List Letter) (low high : Nat) : Prop where
  symbols : arcs.map Arc.symbol = letters.map Letter.symbol
  ordered : arcs.Pairwise fun first second => first.source < second.source ∧ first.target < second.target
  within : ∀ arc ∈ arcs, low ≤ arc.source ∧ arc.source < high ∧ low < arc.target ∧ arc.target ≤ high

variable {arcs first rest : List Arc} {letters more : List Letter} {low middle high : Nat}

theorem climb_nil (low high : Nat) : Climb [] [] low high := by
  constructor <;> simp

theorem climb_letter (letter : Letter) {start base : Nat} (before : start < base) :
    Climb [⟨start, letter.symbol, base⟩] [letter] start base := by
  constructor <;> simp [before]

theorem Climb.widen {newLow newHigh : Nat} (climb : Climb arcs letters low high) (lower : newLow ≤ low)
    (higher : high ≤ newHigh) : Climb arcs letters newLow newHigh where
  symbols := climb.symbols
  ordered := climb.ordered
  within arc member := by
    have inside := climb.within arc member
    omega

theorem Climb.append (climb : Climb first letters low middle) (restClimb : Climb rest more middle high)
    (above : low ≤ middle) (below : middle ≤ high) : Climb (first ++ rest) (letters ++ more) low high where
  symbols := by rw [List.map_append, List.map_append, climb.symbols, restClimb.symbols]
  ordered := by
    refine List.pairwise_append.2 ⟨climb.ordered, restClimb.ordered, ?_⟩
    intro early earlyMember late lateMember
    have earlyWithin := climb.within early earlyMember
    have lateWithin := restClimb.within late lateMember
    omega
  within := List.forall_mem_append.2
    ⟨(climb.widen (Nat.le_refl _) below).within, (restClimb.widen above (Nat.le_refl _)).within⟩

end Arc

namespace Regex

def letter? : Regex → Option Letter
  | text letter => some letter
  | _ => none

/-- The letters of an expression from left to right. -/
def letters (regex : Regex) : List Letter :=
  regex.nodes.filterMap letter?

theorem letters_alternation (first : Regex) (others : List Regex) :
    (alternation first others).letters = (first :: others).flatMap letters := by
  rw [letters, nodes_alternation, List.filterMap_cons_none rfl, List.filterMap_flatMap]
  rfl

theorem letters_sequence (first : Regex) (others : List Regex) :
    (sequence first others).letters = (first :: others).flatMap letters := by
  rw [letters, nodes_sequence, List.filterMap_cons_none rfl, List.filterMap_flatMap]
  rfl

theorem letters_repetition (mode : Repetition) (body : Regex) : (repetition mode body).letters = body.letters := by
  rw [letters, nodes, List.filterMap_cons_none rfl]
  rfl

/-- Wherever the fragment of an expression is, its letters are read in order. -/
theorem climb_arcs (regex : Regex) (start base : Nat) (before : start < base) :
    Arc.Climb (Arc.readings (regex.arcs start base)) regex.letters start (regex.accept base) := by
  induction regex, start, base, before using Regex.layoutInduction
    (fun parts start base =>
      Arc.Climb (Arc.readings (branchArcs parts start base)) (parts.flatMap letters) base
        (base + statesOfAll parts + parts.length))
    (fun parts start base =>
      Arc.Climb (Arc.readings (chainArcs parts start base)) (parts.flatMap letters) start
        (base + statesOfAll parts - 1)) with
  | empty start base before => exact Arc.climb_nil start base
  | text letter start base before =>
      rw [arcs, Arc.readings_letter]
      exact Arc.climb_letter letter before
  | noBranch start base => exact Arc.climb_nil _ _
  | branch regex rest start base before first others =>
      have endEq := regex.accept_succ (base + 1)
      have bound : base + statesOfAll (regex :: rest) + (regex :: rest).length =
          base + 1 + regex.states + statesOfAll rest + rest.length := by
        simp only [statesOfAll, List.length_cons]
        omega
      rw [branchArcs, Arc.readings_append, Arc.readings_cons_void, List.flatMap_cons, bound]
      exact first.append (others.widen (by omega) (Nat.le_refl _)) (by omega) (by omega)
  | alternation first others start base before parts =>
      have closing : ∀ arc ∈ closingBranches (first :: others) base ((alternation first others).accept base),
          arc.symbol = Symbol.epsilon := by
        intro arc member
        obtain ⟨last, -, rfl⟩ := List.mem_map.1 member
        rfl
      rw [arcs_alternation, Arc.readings_append, Arc.readings_of_void closing, List.append_nil, letters_alternation,
        accept_alternation]
      exact parts.widen (Nat.le_of_lt before) (Nat.le_refl _)
  | noLink start base before => exact Arc.climb_nil _ _
  | link regex rest start base before first others =>
      have endEq := regex.accept_succ base
      have pos := regex.states_pos
      have bound : base + statesOfAll (regex :: rest) - 1 = base + regex.states + statesOfAll rest - 1 := by
        simp only [statesOfAll, Nat.add_assoc]
      rw [chainArcs, Arc.readings_append, List.flatMap_cons, bound]
      exact first.append others (by omega) (by omega)
  | sequence first others start base before parts =>
      rw [arcs_sequence, letters_sequence]
      exact parts
  | repetition mode body start base before inner =>
      have closing : Arc.readings (closingArcs mode start base (body.accept (base + 1)) (base + 1 + body.states)) = [] := by
        apply Arc.readings_of_void
        intro arc member
        rcases mem_closingArcs.1 member with ⟨-, rfl⟩ | rfl | ⟨-, rfl⟩ <;> rfl
      have endEq := body.accept_succ (base + 1)
      rw [arcs, Arc.readings_append, Arc.readings_cons_void, closing, List.append_nil, letters_repetition,
        accept_repetition]
      exact inner.widen (Nat.le_of_lt before) (by omega)

end Regex

/-! ## The automaton of a tree -/

/-- The transitions that read a letter, by the labels of the states that they lead to. -/
def Automaton.readings (automaton : Automaton) : List Arc :=
  (automaton.arcs.filter fun arc => arc.symbol ≠ Symbol.epsilon).mergeSort fun first second =>
    decide (automaton.graph.label first.target ≤ automaton.graph.label second.target)

theorem Regex.label_target_readings {regex : Regex} {arc : Arc} (member : arc ∈ Arc.readings (regex.arcs 0 1)) :
    regex.build.automaton.graph.label arc.target = arc.target :=
  (labels_of_mem_arcs (List.mem_filter.1 member).1).2

/-- The letters of an automaton are read in the order in which they have been built. -/
theorem Regex.readings_build (regex : Regex) :
    regex.build.automaton.readings = Arc.readings (regex.arcs 0 1) := by
  have climb := regex.climb_arcs 0 1 Nat.one_pos
  have targets : ((Arc.readings (regex.arcs 0 1)).map Arc.target).Nodup :=
    List.pairwise_map.2 (climb.ordered.imp fun later => Nat.ne_of_lt later.2)
  have perm : regex.build.automaton.readings.Perm (Arc.readings (regex.arcs 0 1)) :=
    (List.mergeSort_perm _ _).trans (regex.arcs_build_perm.filter _)
  have sorted : regex.build.automaton.readings.Pairwise fun first second =>
      regex.build.automaton.graph.label first.target ≤ regex.build.automaton.graph.label second.target := by
    apply (List.pairwise_mergeSort _ _ _).imp of_decide_eq_true
    · intro first second third
      simpa using Int.le_trans
    · intro first second
      simpa using Int.le_total _ _
  refine perm.eq_of_pairwise ?_ sorted ?_
  · intro first second firstMember secondMember upwards downwards
    have same := Int.le_antisymm upwards downwards
    rw [label_target_readings (perm.mem_iff.1 firstMember), label_target_readings secondMember] at same
    exact List.inj_on_of_nodup_map targets (perm.mem_iff.1 firstMember) secondMember (Int.ofNat.inj same)
  · apply climb.ordered.imp_of_mem
    intro first second firstMember secondMember later
    rw [label_target_readings firstMember, label_target_readings secondMember]
    exact Int.ofNat_le.2 (Nat.le_of_lt later.2)

/-- The transitions of an automaton show the letters, each once, and the sign of the void symbol. -/
theorem Regex.display_arcs_perm (regex : Regex) :
    (regex.build.automaton.arcs.map fun arc => arc.symbol.display).Perm
      (regex.letters.map (fun letter => letter.symbol.text) ++
        List.replicate (regex.build.automaton.arcs.countP fun arc => arc.symbol = Symbol.epsilon) "ε") := by
  have grouped := (List.filter_append_perm (fun arc : Arc => decide (arc.symbol ≠ Symbol.epsilon))
    (regex.arcs 0 1)).symm.map fun arc => arc.symbol.display
  have letters : (Arc.readings (regex.arcs 0 1)).map (fun arc => arc.symbol.display) =
      regex.letters.map fun letter => letter.symbol.text := by
    have symbols := congrArg (List.map Symbol.display) (regex.climb_arcs 0 1 Nat.one_pos).symbols
    rw [List.map_map, List.map_map] at symbols
    exact symbols.trans (List.map_congr_left fun letter _ => Symbol.display_of_ne letter.ne_epsilon)
  have voids : ((regex.arcs 0 1).filter fun arc => !decide (arc.symbol ≠ Symbol.epsilon)).map
        (fun arc => arc.symbol.display) =
      List.replicate (regex.build.automaton.arcs.countP fun arc => arc.symbol = Symbol.epsilon) "ε" := by
    rw [List.eq_replicate_iff, regex.arcs_build_perm.countP_eq, List.length_map, List.countP_eq_length_filter]
    constructor
    · simp
    · intro sign member
      obtain ⟨arc, isVoid, rfl⟩ := List.mem_map.1 member
      have void : arc.symbol = Symbol.epsilon := by simpa using (List.mem_filter.1 isVoid).2
      rw [void, Symbol.display_epsilon]
  rw [List.map_append, voids] at grouped
  rw [← letters]
  exact (regex.arcs_build_perm.map _).trans grouped

namespace Tree

def isText : Tree → Bool
  | node kind _ _ _ => decide (Kind.ofValue? kind = some .text)

theorem text_of_ofText? {text : String} {letter : Letter} (found : Letter.ofText? text = some letter) :
    letter.symbol.text = text := by
  unfold Letter.ofText? at found
  split at found
  · cases found
  · cases found
    rfl

/-- The literal of a text node is the letter that it stands for. Other nodes stand for no letter. -/
theorem literal_of_regex {tree : Tree} {regex : Regex} (stands : tree.regex = .ok regex) :
    (if tree.isText then some tree.literal else none) = regex.letter?.map fun letter => some letter.symbol.text := by
  cases stands_of_regex stands with
  | empty named => simp [isText, named, Regex.letter?]
  | text named spelled =>
      obtain ⟨text, rfl, found⟩ := Option.bind_eq_some_iff.1 spelled
      simp [isText, named, literal, Regex.letter?, text_of_ofText? found]
  | alternation named stand => simp [isText, named, Regex.letter?]
  | sequence named stand => simp [isText, named, Regex.letter?]
  | repetition named bodyStands => simp [isText, named, Regex.letter?]

theorem map_literal_visited {tree : Tree} {regex : Regex} (stands : tree.regex = .ok regex) :
    (tree.visited.filter isText).map literal = regex.letters.map fun letter => some letter.symbol.text := by
  have spelled := congrArg (List.filterMap id) (map_visited literal_of_regex stands)
  rw [List.filterMap_map, List.filterMap_map] at spelled
  rw [Regex.letters, List.map_filterMap, ← List.filterMap_eq_map, List.filterMap_filter]
  exact spelled

theorem literals_visited {tree : Tree} {regex : Regex} (stands : tree.regex = .ok regex) :
    (tree.visited.filter isText).filterMap literal = regex.letters.map fun letter => letter.symbol.text := by
  have spelled := congrArg (List.filterMap id) (map_literal_visited stands)
  rw [List.filterMap_map, List.filterMap_map] at spelled
  rw [← List.filterMap_eq_map]
  exact spelled

/-- The transitions of an automaton that read a letter, by increasing label of the state that they lead to, read the
literals of the text nodes that are looked at from left to right, one for each. No two of them lead to one state or
leave one state. -/
theorem build_readings {tree : Tree} {built : Built} (success : tree.build = .ok built) :
    (built.automaton.readings.map fun arc => some arc.symbol.text) = (tree.visited.filter isText).map literal ∧
      (built.automaton.readings.map fun arc => built.automaton.graph.label arc.target).Nodup ∧
      (built.automaton.readings.map Arc.source).Nodup := by
  obtain ⟨regex, stands, rfl⟩ := regex_of_build success
  have climb := regex.climb_arcs 0 1 Nat.one_pos
  rw [regex.readings_build, map_literal_visited stands]
  refine ⟨?_, ?_, ?_⟩
  · have symbols := congrArg (List.map fun symbol => some symbol.text) climb.symbols
    rw [List.map_map, List.map_map] at symbols
    exact symbols
  · apply List.pairwise_map.2
    apply climb.ordered.imp_of_mem
    intro first second firstMember secondMember later
    rw [Regex.label_target_readings firstMember, Regex.label_target_readings secondMember]
    exact Int.ne_of_lt (Int.ofNat_lt.2 later.2)
  · exact List.pairwise_map.2 (climb.ordered.imp fun later => Nat.ne_of_lt later.1)

/-- The first letter stands at the end as well, behind one that is spelled with the sign of the void symbol. -/
theorem build_readings_repeated :
    let tree := sequence [alternation [text "b", repetition .star (text "a")], text "ε", text "b"]
    ∃ built, tree.build = .ok built ∧
      (built.automaton.readings.map fun arc => some arc.symbol.text) = [some "b", some "a", some "ε", some "b"] ∧
      (built.automaton.readings.map fun arc => built.automaton.graph.label arc.target).Nodup := by
  intro tree
  have stands : ∃ regex, tree.regex = .ok regex := ⟨_, rfl⟩
  obtain ⟨regex, stands⟩ := stands
  have success := build_of_regex stands
  have literals : (tree.visited.filter isText).map literal = [some "b", some "a", some "ε", some "b"] := rfl
  obtain ⟨inOrder, distinct, -⟩ := build_readings success
  exact ⟨regex.build, success, inOrder.trans literals, distinct⟩

end Tree

end RegexAutomaton
