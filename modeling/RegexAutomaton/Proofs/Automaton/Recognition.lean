import RegexAutomaton.Proofs.Automaton.Path
import RegexAutomaton.Proofs.Construction.Hosting
import RegexAutomaton.Proofs.Regex.Language

/-!
# What an automaton recognizes

The words that lead from the initial to the accept state are those of the expression. A path that goes into a
fragment and is not meant to end inside it comes out at the end of the fragment, and up to there it has spelled
a word of the expression. Conversely every word of the expression has a path through the fragment.
-/

set_option autoImplicit false

namespace RegexAutomaton

open Computability

namespace Graph

/-- A path that starts with an arc of a fragment. -/
def Enters (graph : Graph) (arcs : List Arc) (start : Nat) (path : List Transition) (final : Nat) : Prop :=
  ∃ transition rest, path = transition :: rest ∧ transition ∈ Arc.leaving start arcs ∧
    graph.IsPath transition.target rest final

/-- A path that spells one of some words on its way to the end of a fragment. -/
def Crosses (graph : Graph) (words : Language Letter) (accept : Nat) (path : List Transition)
    (final : Nat) : Prop :=
  ∃ before after, path = before ++ after ∧ before ≠ [] ∧ Transition.spelling before ∈ words ∧
    graph.IsPath accept after final

variable {graph : Graph} {path : List Transition} {accept final : Nat}

/-- A path that has not arrived goes on along a transition. -/
theorem IsPath.exists_cons {source : Nat} (isPath : graph.IsPath source path final)
    (moving : source ≠ final) :
    ∃ transition rest, path = transition :: rest ∧ transition ∈ graph.transitions source ∧
      graph.IsPath transition.target rest final := by
  cases path with
  | nil => exact absurd isPath moving
  | cons transition rest => exact ⟨transition, rest, rfl, isPath⟩

theorem IsPath.enters {arcs : List Arc} {source : Nat} (isPath : graph.IsPath source path final)
    (moving : source ≠ final) (transitions : graph.transitions source = Arc.leaving source arcs) :
    graph.Enters arcs source path final := by
  obtain ⟨transition, rest, rfl, member, restPath⟩ := isPath.exists_cons moving
  exact ⟨transition, rest, rfl, transitions ▸ member, restPath⟩

theorem Crosses.mono {words more : Language Letter} (crosses : graph.Crosses words accept path final)
    (sub : ∀ word ∈ words, word ∈ more) : graph.Crosses more accept path final := by
  obtain ⟨before, after, split, nonempty, spelled, rest⟩ := crosses
  exact ⟨before, after, split, nonempty, sub _ spelled, rest⟩

/-- Void transitions in front of a fragment spell nothing. -/
theorem Crosses.cons_void {words : Language Letter} {target : Nat}
    (crosses : graph.Crosses words accept path final) :
    graph.Crosses words accept (⟨Symbol.epsilon, target⟩ :: path) final := by
  obtain ⟨before, after, rfl, -, spelled, rest⟩ := crosses
  refine ⟨⟨Symbol.epsilon, target⟩ :: before, after, rfl, by simp, ?_, rest⟩
  rw [Transition.spelling_cons_void]
  exact spelled

end Graph

namespace Regex

/-- Paths into the fragment of an expression spell words of the expression until they come out. -/
def Sound (regex : Regex) : Prop :=
  ∀ (graph : Graph) (start base final : Nat) (path : List Transition), start < base →
    graph.Hosts (regex.arcs start base) start base (regex.accept base) →
    final < base ∨ regex.accept base ≤ final →
    graph.Enters (regex.arcs start base) start path final →
    graph.Crosses regex.language (regex.accept base) path final

/-- Every word of an expression is spelled by a path through the fragment. -/
def Complete (regex : Regex) : Prop :=
  ∀ (graph : Graph) (start base : Nat) (word : List Letter), start < base →
    graph.Hosts (regex.arcs start base) start base (regex.accept base) →
    word ∈ regex.language →
    ∃ path, graph.IsPath start path (regex.accept base) ∧ Transition.spelling path = word

variable {graph : Graph} {start base final : Nat} {path : List Transition}

/-! ## Soundness -/

theorem crosses_choice (parts : List Regex) (sound : ∀ part ∈ parts, part.Sound) (accept : Nat)
    (before : start < base)
    (hosts : graph.Hosts (choiceArcs parts start base accept) start base
      (base + statesOfAll parts + parts.length))
    (outside : final < base ∨ base + statesOfAll parts + parts.length ≤ final)
    (enters : graph.Enters (choiceArcs parts start base accept) start path final) :
    graph.Crosses (languageOfAny parts) accept path final := by
  induction parts generalizing base with
  | nil =>
      obtain ⟨transition, rest, -, member, -⟩ := enters
      cases member
  | cons regex rest ih =>
      have branch := hostsBranch before hosts
      have pos := regex.states_pos
      simp only [statesOfAll, List.length_cons] at outside
      obtain ⟨transition, tail, rfl, member, isPath⟩ := enters
      rw [branch.leavingStart] at member
      rcases List.mem_cons.1 member with rfl | member
      · -- into the first part, out of it at its end, and from there to the end of the choice
        have endEq := regex.accept_succ (base + 1)
        have inner := sound regex (by simp) graph base (base + 1) final tail (by omega) branch.part
          (by omega) (isPath.enters (by dsimp only; omega) branch.first)
        obtain ⟨word, after, rfl, -, spelled, afterPath⟩ := inner
        obtain ⟨closing, afterClosing, rfl, isClosing, outPath⟩ :=
          afterPath.exists_cons (by omega)
        rw [branch.last] at isClosing
        obtain rfl := List.mem_singleton.1 isClosing
        refine ⟨⟨Symbol.epsilon, base⟩ :: (word ++ [⟨Symbol.epsilon, accept⟩]), afterClosing,
          by simp, by simp, ?_, outPath⟩
        rw [Transition.spelling_cons_void, Transition.spelling_append,
          Transition.spelling_cons_void, Transition.spelling_nil, List.append_nil,
          mem_languageOfAny]
        exact ⟨regex, by simp, spelled⟩
      · have others := ih (fun part later => sound part (by simp [later])) (by omega) branch.rest
          (by omega) ⟨transition, tail, rfl, member, isPath⟩
        refine others.mono fun word spelled => ?_
        rw [languageOfAny]
        exact (Language.mem_add _ _ _).2 (.inr spelled)

theorem crosses_chain (regex : Regex) (rest : List Regex) (sound : ∀ part ∈ regex :: rest, part.Sound)
    (before : start < base)
    (hosts : graph.Hosts (chainArcs (regex :: rest) start base) start base
      (base + statesOfAll (regex :: rest) - 1))
    (outside : final < base ∨ base + statesOfAll (regex :: rest) - 1 ≤ final)
    (enters : graph.Enters (chainArcs (regex :: rest) start base) start path final) :
    graph.Crosses (languageOfAll (regex :: rest)) (base + statesOfAll (regex :: rest) - 1) path
      final := by
  induction rest generalizing regex start base path with
  | nil =>
      simp only [chainArcs, statesOfAll, List.append_nil, Nat.add_zero] at hosts outside enters ⊢
      have crosses := sound regex (by simp) graph start base final path before hosts outside enters
      rw [languageOfAll, languageOfAll, mul_one]
      exact crosses
  | cons next rest ih =>
      have link := hostsLink before hosts
      have pos := regex.states_pos
      have nextPos := next.states_pos
      have endEq := regex.accept_succ base
      have bound : base + statesOfAll (regex :: next :: rest) - 1 =
          base + regex.states + statesOfAll (next :: rest) - 1 := by
        simp only [statesOfAll]
        omega
      have restPos : 0 < statesOfAll (next :: rest) := by
        simp only [statesOfAll]
        omega
      rw [bound] at outside ⊢
      obtain ⟨transition, tail, rfl, member, isPath⟩ := enters
      rw [link.leavingStart] at member
      have first := sound regex (by simp) graph start base final _ before link.first (by omega)
        ⟨transition, tail, rfl, member, isPath⟩
      obtain ⟨word, after, split, nonempty, spelled, afterPath⟩ := first
      have others := ih next (fun part later => sound part (by simp [later])) (by omega) link.rest
        (by omega) (afterPath.enters (by omega) link.middle)
      obtain ⟨moreWord, afterAll, rfl, -, moreSpelled, outPath⟩ := others
      refine ⟨word ++ moreWord, afterAll, by rw [split, List.append_assoc], by simp [nonempty], ?_,
        outPath⟩
      rw [Transition.spelling_append, languageOfAll]
      exact Language.append_mem_mul spelled moreSpelled

/-- A path from the start of the body of a repetition runs through the body once, or if the body loops any
number of times, before it comes to the end. -/
theorem crosses_loop {mode : Repetition} {body : Regex} (sound : body.Sound)
    (hosts : HostsBody graph mode body start base)
    (outside : final < base ∨ (repetition mode body).accept base ≤ final)
    (isPath : graph.IsPath base path final) :
    graph.Crosses (body.language * (if mode.loops then body.language∗ else 1))
      ((repetition mode body).accept base) path final := by
  have acceptEq : body.accept (base + 1) + 1 = (repetition mode body).accept base := by
    rw [accept_succ, accept_repetition]
  have endAbove := body.le_accept (base + 1)
  induction length : path.length using Nat.strong_induction_on generalizing path with
  | _ bound ih =>
      have inner := sound graph base (base + 1) final path (by omega) hosts.part (by omega)
        (isPath.enters (by omega) hosts.first)
      obtain ⟨word, after, rfl, nonempty, spelled, afterPath⟩ := inner
      obtain ⟨closing, afterClosing, rfl, isClosing, outPath⟩ := afterPath.exists_cons (by omega)
      rw [hosts.last] at isClosing
      rcases List.mem_append.1 isClosing with again | leaves
      · -- back to the start of the body: the rest of the path is shorter
        cases loops : mode.loops with
        | false => simp [loops] at again
        | true =>
            rw [loops, if_pos rfl] at again ih
            obtain rfl := List.mem_singleton.1 again
            have shorter : afterClosing.length < bound := by
              rw [← length, List.length_append, List.length_cons]
              omega
            obtain ⟨moreWord, afterAll, rfl, -, moreSpelled, lastPath⟩ :=
              ih afterClosing.length shorter outPath rfl
            refine ⟨word ++ ⟨Symbol.epsilon, base⟩ :: moreWord, afterAll, by simp, by simp, ?_,
              lastPath⟩
            rw [if_pos rfl, Transition.spelling_append, Transition.spelling_cons_void]
            have absorbed : body.language * body.language∗ ≤ body.language∗ := mul_kstar_le_kstar
            exact Language.append_mem_mul spelled (absorbed moreSpelled)
      · obtain rfl := List.mem_singleton.1 leaves
        refine ⟨word ++ [⟨Symbol.epsilon, (repetition mode body).accept base⟩], afterClosing,
          by simp, by simp, ?_, outPath⟩
        have once : [] ∈ (if mode.loops then body.language∗ else 1 : Language Letter) := by
          cases mode.loops with
          | true => exact Language.nil_mem_kstar _
          | false => exact Language.nil_mem_one
        have product := Language.append_mem_mul spelled once
        rw [Transition.spelling_append, Transition.spelling_cons_void, Transition.spelling_nil]
        exact product

theorem sound (regex : Regex) : regex.Sound := by
  induction regex using Regex.induction with
  | empty =>
      rintro graph start base final path before hosts outside ⟨transition, rest, rfl, member, isPath⟩
      obtain rfl : transition = ⟨Symbol.epsilon, base⟩ := by
        simpa [arcs, Arc.leaving, Arc.transition] using member
      exact ⟨[⟨Symbol.epsilon, base⟩], rest, rfl, by simp, Language.nil_mem_one, isPath⟩
  | text letter =>
      rintro graph start base final path before hosts outside ⟨transition, rest, rfl, member, isPath⟩
      obtain rfl : transition = ⟨letter.symbol, base⟩ := by
        simpa [arcs, Arc.leaving, Arc.transition] using member
      refine ⟨[⟨letter.symbol, base⟩], rest, rfl, by simp, ?_, isPath⟩
      rw [Transition.spelling_cons_letter, language]
      exact Set.mem_singleton _
  | alternation first others ih =>
      intro graph start base final path before hosts outside enters
      rw [arcs_alternation, accept_alternation] at hosts enters
      rw [accept_alternation] at outside
      rw [language_alternation, accept_alternation]
      exact crosses_choice (first :: others) ih _ before hosts outside enters
  | sequence first others ih =>
      intro graph start base final path before hosts outside enters
      rw [arcs_sequence] at hosts enters
      rw [language_sequence]
      exact crosses_chain first others ih before hosts outside enters
  | repetition mode body ih =>
      intro graph start base final path before hosts outside enters
      have inner := hostsBody before hosts
      rw [language_repetition]
      obtain ⟨transition, rest, rfl, member, isPath⟩ := enters
      rw [inner.leavingStart] at member
      rcases List.mem_cons.1 member with rfl | member
      · refine (crosses_loop ih inner outside isPath).cons_void.mono fun word spelled => ?_
        exact (Language.mem_add _ _ _).2 (.inr spelled)
      · cases skips : mode.skips with
        | false => simp [skips] at member
        | true =>
            rw [skips, if_pos rfl] at member
            obtain rfl := List.mem_singleton.1 member
            refine ⟨[⟨Symbol.epsilon, (repetition mode body).accept base⟩], rest, rfl, by simp, ?_,
              isPath⟩
            rw [if_pos rfl]
            exact (Language.mem_add _ _ _).2 (.inl Language.nil_mem_one)

/-! ## Completeness -/

theorem exists_path_choice (parts : List Regex) (complete : ∀ part ∈ parts, part.Complete)
    (accept : Nat) (before : start < base)
    (hosts : graph.Hosts (choiceArcs parts start base accept) start base
      (base + statesOfAll parts + parts.length))
    {word : List Letter} (spelled : word ∈ languageOfAny parts) :
    ∃ path, graph.IsPath start path accept ∧ Transition.spelling path = word := by
  induction parts generalizing base with
  | nil => exact absurd spelled (Language.notMem_zero word)
  | cons regex rest ih =>
      have branch := hostsBranch before hosts
      rw [languageOfAny] at spelled
      rcases (Language.mem_add _ _ _).1 spelled with spelled | spelled
      · obtain ⟨path, isPath, rfl⟩ := complete regex (by simp) graph base (base + 1) word (by omega)
          branch.part spelled
        have closing : ⟨Symbol.epsilon, accept⟩ ∈ graph.transitions (regex.accept (base + 1)) := by
          rw [branch.last]
          exact List.mem_singleton_self _
        refine ⟨⟨Symbol.epsilon, base⟩ :: (path ++ [⟨Symbol.epsilon, accept⟩]),
          ⟨branch.entry, Graph.isPath_append isPath (Graph.isPath_single closing)⟩, ?_⟩
        simp
      · exact ih (fun part later => complete part (by simp [later])) (by omega) branch.rest spelled

theorem exists_path_chain (regex : Regex) (rest : List Regex)
    (complete : ∀ part ∈ regex :: rest, part.Complete) (before : start < base)
    (hosts : graph.Hosts (chainArcs (regex :: rest) start base) start base
      (base + statesOfAll (regex :: rest) - 1))
    {word : List Letter} (spelled : word ∈ languageOfAll (regex :: rest)) :
    ∃ path, graph.IsPath start path (base + statesOfAll (regex :: rest) - 1) ∧
      Transition.spelling path = word := by
  induction rest generalizing regex start base word with
  | nil =>
      rw [languageOfAll, languageOfAll, mul_one] at spelled
      simp only [chainArcs, statesOfAll, List.append_nil, Nat.add_zero] at hosts ⊢
      exact complete regex (by simp) graph start base word before hosts spelled
  | cons next rest ih =>
      have link := hostsLink before hosts
      have pos := regex.states_pos
      rw [languageOfAll] at spelled
      obtain ⟨firstWord, firstSpelled, restWord, restSpelled, rfl⟩ := Language.mem_mul.1 spelled
      obtain ⟨firstPath, firstIsPath, rfl⟩ := complete regex (by simp) graph start base firstWord
        before link.first firstSpelled
      obtain ⟨restPath, restIsPath, rfl⟩ := ih next (fun part later => complete part (by simp [later]))
        (by simp only [Regex.accept]; omega) link.rest restSpelled
      have bound : base + regex.states + statesOfAll (next :: rest) - 1 =
          base + statesOfAll (regex :: next :: rest) - 1 := by
        simp only [statesOfAll]
        omega
      rw [bound] at restIsPath
      exact ⟨firstPath ++ restPath, Graph.isPath_append firstIsPath restIsPath, by simp⟩

/-- The words of a looping body, one after the other, have a path from its start to its end. -/
theorem exists_path_loop {mode : Repetition} {body : Regex} (complete : body.Complete)
    (hosts : HostsBody graph mode body start base) (first : List Letter) (words : List (List Letter))
    (spelled : ∀ word ∈ first :: words, word ∈ body.language)
    (loops : words = [] ∨ mode.loops = true) :
    ∃ path, graph.IsPath base path (body.accept (base + 1)) ∧
      Transition.spelling path = (first :: words).flatten := by
  obtain ⟨firstPath, firstIsPath, firstSpelling⟩ := complete graph base (base + 1) first (by omega)
    hosts.part (spelled first (by simp))
  induction words generalizing first firstPath with
  | nil => exact ⟨firstPath, firstIsPath, by simp [firstSpelling]⟩
  | cons next rest ih =>
      have looping : mode.loops = true := loops.resolve_left (by simp)
      obtain ⟨nextPath, nextIsPath, nextSpelling⟩ := complete graph base (base + 1) next (by omega)
        hosts.part (spelled next (by simp))
      obtain ⟨restPath, restIsPath, restSpelling⟩ := ih next
        (fun word later => spelled word (List.mem_cons_of_mem _ later)) (.inr looping) nextPath
        nextIsPath nextSpelling
      have back : ⟨Symbol.epsilon, base⟩ ∈ graph.transitions (body.accept (base + 1)) := by
        rw [hosts.last, looping]
        simp
      refine ⟨firstPath ++ ⟨Symbol.epsilon, base⟩ :: restPath,
        Graph.isPath_append firstIsPath ⟨back, restIsPath⟩, ?_⟩
      rw [Transition.spelling_append, Transition.spelling_cons_void, firstSpelling, restSpelling]
      exact List.flatten_cons.symm

theorem complete (regex : Regex) : regex.Complete := by
  induction regex using Regex.induction with
  | empty =>
      intro graph start base word before hosts spelled
      obtain rfl : word = [] := (Language.mem_one word).1 spelled
      have entry := hosts.entering ⟨Symbol.epsilon, base⟩ (by simp [arcs, Arc.leaving, Arc.transition])
      exact ⟨[⟨Symbol.epsilon, base⟩], Graph.isPath_single entry, by simp⟩
  | text letter =>
      intro graph start base word before hosts spelled
      obtain rfl : word = [letter] := by
        rw [language] at spelled
        exact spelled
      have entry := hosts.entering ⟨letter.symbol, base⟩ (by simp [arcs, Arc.leaving, Arc.transition])
      exact ⟨[⟨letter.symbol, base⟩], Graph.isPath_single entry, by simp⟩
  | alternation first others ih =>
      intro graph start base word before hosts spelled
      rw [arcs_alternation, accept_alternation] at hosts
      rw [language_alternation] at spelled
      rw [accept_alternation]
      exact exists_path_choice (first :: others) ih _ before hosts spelled
  | sequence first others ih =>
      intro graph start base word before hosts spelled
      rw [arcs_sequence] at hosts
      rw [language_sequence] at spelled
      exact exists_path_chain first others ih before hosts spelled
  | repetition mode body ih =>
      intro graph start base word before hosts spelled
      have inner := hostsBody before hosts
      have entering := hosts.entering
      rw [inner.leavingStart] at entering
      rw [language_repetition] at spelled
      rcases (Language.mem_add _ _ _).1 spelled with skipped | taken
      · cases skips : mode.skips with
        | false =>
            rw [skips] at skipped
            exact absurd skipped (Language.notMem_zero word)
        | true =>
            rw [skips, if_pos rfl] at skipped entering
            obtain rfl : word = [] := (Language.mem_one word).1 skipped
            exact ⟨[⟨Symbol.epsilon, (repetition mode body).accept base⟩],
              Graph.isPath_single (entering _ (by simp)), by simp⟩
      · obtain ⟨first, words, rfl, rounds, loops⟩ := exists_rounds taken
        obtain ⟨path, isPath, spells⟩ := exists_path_loop ih inner first words rounds loops
        have closing : ⟨Symbol.epsilon, (repetition mode body).accept base⟩ ∈
            graph.transitions (body.accept (base + 1)) := by
          rw [inner.last]
          simp
        refine ⟨⟨Symbol.epsilon, base⟩ :: (path ++ [⟨Symbol.epsilon, (repetition mode body).accept base⟩]),
          ⟨entering _ (by simp), Graph.isPath_append isPath (Graph.isPath_single closing)⟩, ?_⟩
        rw [Transition.spelling_cons_void, Transition.spelling_append, spells,
          Transition.spelling_cons_void, Transition.spelling_nil, List.append_nil]

/-! ## The automaton of an expression -/

theorem accepts_build_iff (regex : Regex) (word : List Letter) :
    regex.build.automaton.Accepts word ↔ word ∈ regex.language := by
  rw [Automaton.accepts_iff, initial_build, accept_build]
  have endAbove := regex.le_accept 1
  constructor
  · rintro ⟨path, isPath, rfl⟩
    have enters := isPath.enters (by omega) (regex.transitions_build 0)
    obtain ⟨before, after, rfl, -, spelled, afterPath⟩ :=
      regex.sound _ 0 1 (regex.accept 1) path (by omega) regex.hosts_build (.inr (Nat.le_refl _)) enters
    cases after with
    | nil =>
        rw [List.append_nil]
        exact spelled
    | cons transition rest =>
        have leaves := afterPath.1
        rw [transitions_build_eq_nil regex (Nat.le_refl _)] at leaves
        cases leaves
  · intro spelled
    exact regex.complete _ 0 1 word (by omega) regex.hosts_build spelled

end Regex

namespace Tree

/-- Whenever a tree has an automaton, it accepts exactly the words of the expression that the tree stands for. -/
theorem build_recognizes {tree : Tree} {built : Built} (success : tree.build = .ok built) :
    ∃ regex, tree.regex = .ok regex ∧
      ∀ word, built.automaton.Accepts word ↔ word ∈ regex.language := by
  obtain ⟨regex, stands, rfl⟩ := regex_of_build success
  exact ⟨regex, stands, regex.accepts_build_iff⟩

/-- The sign of the void symbol is a letter like any other, here under a repetition. -/
theorem build_recognizes_star :
    let tree := repetition .star (alternation [text "ε", sequence [text "ab", empty]])
    ∃ built, tree.build = .ok built ∧
      ∃ regex, tree.regex = .ok regex ∧
        ∀ word, built.automaton.Accepts word ↔ word ∈ regex.language := by
  intro tree
  have stands : ∃ regex, tree.regex = .ok regex := ⟨_, rfl⟩
  obtain ⟨regex, stands⟩ := stands
  have success : tree.build = .ok regex.build := by
    rw [build_eq_regex, stands]
    rfl
  exact ⟨regex.build, success, build_recognizes success⟩

end Tree

end RegexAutomaton
