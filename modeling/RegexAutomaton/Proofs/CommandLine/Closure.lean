import RegexAutomaton.Proofs.Automaton.States
import RegexAutomaton.Proofs.CommandLine.Answer
import RegexAutomaton.Proofs.CommandLine.Arguments
import RegexAutomaton.Proofs.Construction.Relocation
import RegexAutomaton.Proofs.Walk.Composition

/-!
# Closures on the command line

Every label below the number of states is found, since each state can be reached and has a label of its own. The first
of the other labels fails the whole run. What is printed otherwise are the labels of the states at the ends of paths
whose transitions all have the symbol.
-/

set_option autoImplicit false

namespace RegexAutomaton

/-! ## What is printed -/

theorem Value.writeList_integers (written : String) (first : Int) (rest : List Int) :
    writeList (written ++ toString first) (rest.map integer) =
      written ++ ", ".intercalate ((first :: rest).map toString) := by
  induction rest generalizing written first with
  | nil => rfl
  | cons next rest ih =>
      have later := ih (written ++ toString first ++ ", ") next
      rw [List.map_cons, writeList, write, later]
      simp only [List.map_cons, String.intercalate_cons_cons, String.append_assoc]

theorem Value.written_integers (numbers : List Int) :
    (list (numbers.map integer)).written = "[" ++ ", ".intercalate (numbers.map toString) ++ "]" := by
  cases numbers with
  | nil => rfl
  | cons first rest =>
      have inner := writeList_integers "[" first rest
      rw [written, List.map_cons, write, write]
      exact congrArg (String.push · ']') inner

/-! ## Looking states up -/

namespace Regex

variable (regex : Regex)

theorem toNat_label {vertex : Vertex} (isState : vertex ∈ regex.build.automaton.states) :
    (regex.build.automaton.graph.label vertex).toNat = vertex := by
  rw [regex.label_build ((regex.mem_states_build vertex).1 isState)]
  rfl

theorem label_toNat {label : Label} (inside : 0 ≤ label ∧ label < regex.build.count) :
    label.toNat ∈ regex.build.automaton.states ∧ regex.build.automaton.graph.label label.toNat = label := by
  have allocated : label.toNat < regex.build.count := (Int.toNat_lt inside.1).2 inside.2
  have labeled := regex.label_build allocated
  rw [Int.toNat_of_nonneg inside.1] at labeled
  exact ⟨(regex.mem_states_build _).2 allocated, labeled⟩

theorem state_build_eq_ok {label : Label} (inside : 0 ≤ label ∧ label < regex.build.count) :
    regex.build.automaton.state label = .ok label.toNat := by
  obtain ⟨vertex, isState, found, labeled⟩ := Automaton.state_eq_ok ⟨label.toNat, regex.label_toNat inside⟩
  rw [found, ← labeled, regex.toNat_label isState]

theorem state_build_eq_error {label : Label} (outside : ¬(0 ≤ label ∧ label < regex.build.count)) :
    regex.build.automaton.state label = .error label := by
  apply Automaton.state_eq_error
  intro vertex isState labeled
  have allocated := (regex.mem_states_build vertex).1 isState
  rw [regex.label_build allocated] at labeled
  apply outside
  rw [← labeled]
  exact ⟨Int.natCast_nonneg _, Int.ofNat_lt.2 allocated⟩

end Regex

namespace CommandLine

variable {automaton : Automaton}

theorem findStates_cons (label : Label) (rest : List (Option Label)) :
    findStates automaton (some label :: rest) = (do
      let vertex ← (automaton.state label).mapError some
      let vertices ← findStates automaton rest
      return vertex :: vertices) :=
  List.mapM_cons

theorem findStates_eq_ok {labels : List Label} (vertexOf : Label → Vertex)
    (found : ∀ label ∈ labels, automaton.state label = .ok (vertexOf label)) :
    findStates automaton (labels.map some) = .ok (labels.map vertexOf) := by
  induction labels with
  | nil => rfl
  | cons label rest ih =>
      rw [List.forall_mem_cons] at found
      rw [List.map_cons, findStates_cons, found.1, ih found.2]
      rfl

/-- The first label without a state is the one that is told. -/
theorem findStates_eq_error {before after : List Label} {label : Label} (vertexOf : Label → Vertex)
    (found : ∀ label ∈ before, automaton.state label = .ok (vertexOf label))
    (missing : automaton.state label = .error label) :
    findStates automaton ((before ++ label :: after).map some) = .error (some label) := by
  induction before with
  | nil =>
      rw [List.nil_append, List.map_cons, findStates_cons, missing]
      rfl
  | cons first rest ih =>
      rw [List.forall_mem_cons] at found
      rw [List.cons_append, List.map_cons, findStates_cons, found.1, ih found.2]
      rfl

/-! ## What is reached -/

theorem nodup_eraseDups (vertices : List Vertex) : vertices.eraseDups.Nodup := by
  generalize size : vertices.length = bound
  induction bound using Nat.strongRecOn generalizing vertices with
  | ind bound ih =>
      cases vertices with
      | nil => simp
      | cons vertex rest =>
          have shorter := List.length_filter_le (fun other => !other == vertex) rest
          rw [List.length_cons] at size
          rw [List.eraseDups_cons, List.nodup_cons, List.mem_eraseDups]
          exact ⟨by simp, ih _ (by omega) _ rfl⟩

variable {graph : Graph} {roots : List Vertex} {symbol : Option Symbol}

theorem nodup_reached : (reached graph roots symbol).Nodup := by
  cases symbol with
  | none => exact nodup_eraseDups roots
  | some symbol => exact graph.nodup_closure roots (some symbol)

theorem head?_reached : (reached graph roots symbol).head? = roots.head? := by
  cases roots with
  | nil =>
      cases symbol with
      | none => rfl
      | some symbol =>
          change (graph.closure [] (some symbol)).head? = none
          rw [Graph.closure_nil]
          rfl
  | cons root rest =>
      cases symbol with
      | none => simp [reached, List.eraseDups_cons]
      | some symbol =>
          obtain ⟨others, starts⟩ := graph.exists_closure_singleton (some symbol) root
          have split := graph.closure_append (some symbol) [root] rest
          rw [List.singleton_append, starts] at split
          simp [reached, split]

/-- The vertices reached are those at the ends of paths whose transitions all have the symbol. -/
theorem mem_reached {vertex : Vertex} :
    vertex ∈ reached graph roots symbol ↔
      ∃ root ∈ roots, ∃ path, graph.IsPath root path vertex ∧
        ∀ transition ∈ path, symbol = some transition.symbol := by
  cases symbol with
  | none =>
      unfold reached
      rw [List.mem_eraseDups]
      constructor
      · intro member
        exact ⟨vertex, member, [], rfl, by simp⟩
      · rintro ⟨root, member, path, isPath, follows⟩
        cases path with
        | nil =>
            obtain rfl : root = vertex := isPath
            exact member
        | cons transition rest => cases follows transition List.mem_cons_self
  | some symbol =>
      unfold reached
      have passes (transition : Transition) :
          (transition.passes (some symbol) = true) = (some symbol = some transition.symbol) := by
        rw [Transition.passes, beq_iff_eq, Option.some.injEq]
        exact propext eq_comm
      simp only [Graph.mem_closure, Graph.Reaches, passes]

/-! ## The run -/

variable {text : String} {built : Built} {options : Options} {arguments : List String} {input : String}
  {files : String → Option String}

/-- What is reached from states of a built automaton are states of it. -/
theorem mem_states_of_mem_reached {automaton : Automaton} (areStates : ∀ root ∈ roots, root ∈ automaton.states)
    {vertex : Vertex} (member : vertex ∈ reached automaton.graph roots symbol) : vertex ∈ automaton.states := by
  obtain ⟨root, isRoot, path, isPath, -⟩ := mem_reached.1 member
  have start := automaton.mem_states.1 (areStates root isRoot)
  exact automaton.mem_states.2 (start.trans ⟨path, isPath, fun _ _ => rfl⟩)

variable {regex : Regex} {labels : List Label}

theorem describe_unknown (given : options.closure = labels.map some) {label : Label}
    (isFirst : labels.find? (fun label : Label => ¬(0 ≤ label ∧ label < regex.build.count)) = some label) :
    describe options regex.build.automaton = .error (some label) := by
  obtain ⟨outside, before, after, split, inside⟩ := List.find?_eq_some_iff_append.1 isFirst
  have failure : findStates regex.build.automaton (labels.map some) = .error (some label) := by
    rw [split]
    apply findStates_eq_error Int.toNat
    · intro known member
      apply regex.state_build_eq_ok
      simpa using inside known member
    · exact regex.state_build_eq_error (of_decide_eq_true outside)
  have anyGiven : options.closure.isEmpty = false := by
    rw [given, split]
    simp
  rw [describe, anyGiven, given, failure]
  rfl

theorem describe_closure (given : options.closure = labels.map some) (anyGiven : labels ≠ [])
    (inside : ∀ label ∈ labels, 0 ≤ label ∧ label < regex.build.count) :
    let graph := regex.build.automaton.graph
    let states := regex.build.automaton.states
    ∃ found : List Label,
      describe options regex.build.automaton = .ok (.list (found.map .integer)) ∧
      found.Nodup ∧ found.head? = labels.head? ∧
      ∀ label, label ∈ found ↔
        ∃ root ∈ states, graph.label root ∈ labels ∧ ∃ target path, graph.IsPath root path target ∧
          (∀ transition ∈ path, options.symbol = some transition.symbol) ∧ graph.label target = label := by
  intro graph states
  have roots : findStates regex.build.automaton (labels.map some) = .ok (labels.map Int.toNat) :=
    findStates_eq_ok Int.toNat fun label member => regex.state_build_eq_ok (inside label member)
  have areStates : ∀ root ∈ labels.map Int.toNat, root ∈ states := by
    rw [List.forall_mem_map]
    exact fun label member => (regex.label_toNat (inside label member)).1
  have nonempty : options.closure.isEmpty = false := by
    simpa [given] using anyGiven
  refine ⟨(reached graph (labels.map Int.toNat) options.symbol).map graph.label, ?_, ?_, ?_, ?_⟩
  · rw [describe, nonempty, given, roots, List.map_map]
    rfl
  · apply List.Nodup.map_on
    · intro first firstReached second secondReached same
      rw [← regex.toNat_label (mem_states_of_mem_reached areStates firstReached), same,
        regex.toNat_label (mem_states_of_mem_reached areStates secondReached)]
    · exact nodup_reached
  · rw [List.head?_map, head?_reached]
    cases labels with
    | nil => rfl
    | cons label rest => exact congrArg some (regex.label_toNat (inside label List.mem_cons_self)).2
  · intro label
    rw [List.mem_map]
    constructor
    · rintro ⟨target, isReached, rfl⟩
      obtain ⟨root, isRoot, path, isPath, follows⟩ := mem_reached.1 isReached
      refine ⟨root, areStates root isRoot, ?_, target, path, isPath, follows, rfl⟩
      obtain ⟨known, member, rfl⟩ := List.mem_map.1 isRoot
      rw [(regex.label_toNat (inside known member)).2]
      exact member
    · rintro ⟨root, isState, isGiven, target, path, isPath, follows, rfl⟩
      have isRoot : root ∈ labels.map Int.toNat := List.mem_map.2 ⟨_, isGiven, regex.toNat_label isState⟩
      exact ⟨target, mem_reached.2 ⟨root, isRoot, path, isPath, follows⟩, rfl⟩

/-- How an export is laid out makes no difference to a closure. -/
theorem answer_split (nonempty : options.closure.isEmpty = false) (split : Bool) :
    answer .unlimited { options with split := split } text = answer .unlimited options text := by
  unfold answer describe
  dsimp only
  rw [nonempty]
  rfl

/-- All labels that are not too long, and every symbol, can be asked for. If one of the labels is none of a state, the
run fails and tells the first of them. Otherwise it prints the labels of the states that are reached from states with
one of the labels by transitions with the symbol, each once and the first label first. It does not matter whether an
export would be split. A symbol that reads like the separator is no symbol, so that no transition has it. -/
theorem run_closure (describes : Describes text built) (anyGiven : labels ≠ []) :
    let graph := built.automaton.graph
    let states := built.automaton.states
    (∀ symbol? : Option String, (∀ label ∈ labels, label.magnitude.length ≤ Text.maxDigits) →
      Options.ofArguments (closureArguments labels symbol?) =
        .ok ⟨.standardInput, false, false, labels.map some, symbol?.elim (some Symbol.epsilon) symbolValue⟩) ∧
    ∀ (arguments : List String) (source : Source) (split : Bool) (symbol : Option Symbol) (input : String)
      (files : String → Option String),
      Options.ofArguments arguments = .ok ⟨source, split, false, labels.map some, symbol⟩ →
      source.content input files = .ok text →
      (∀ label, labels.find? (fun label : Label => ¬(0 ≤ label ∧ label < states.length)) = some label →
        run arguments input files = .finished ⟨1, "", "Unknown state: " ++ toString label ++ "\n"⟩) ∧
      ((∀ label ∈ labels, 0 ≤ label ∧ label < states.length) →
        ∃ found : List Label,
          run arguments input files = .finished ⟨0, "[" ++ ", ".intercalate (found.map toString) ++ "]\n", ""⟩ ∧
          found.Nodup ∧ found.head? = labels.head? ∧
          ∀ label, label ∈ found ↔
            ∃ root ∈ states, graph.label root ∈ labels ∧ ∃ target path, graph.IsPath root path target ∧
              (∀ transition ∈ path, symbol = some transition.symbol) ∧ graph.label target = label) ∧
      run ("--split" :: arguments) input files = run arguments input files ∧
      ∀ others otherSplit, Options.ofArguments others = .ok ⟨source, otherSplit, false, labels.map some, symbol⟩ →
        run others input files = run arguments input files := by
  intro graph states
  refine ⟨fun symbol? short => ofArguments_closureArguments short symbol?, ?_⟩
  intro arguments source split symbol input files accepted readable
  obtain ⟨regex, rfl⟩ := describes.regex
  have count : states.length = regex.build.count := by
    rw [regex.count_build]
    exact regex.length_states_build
  have given : Options.closure ⟨source, split, false, labels.map some, symbol⟩ = labels.map some := rfl
  have nonempty : Options.closure ⟨source, split, false, labels.map some, symbol⟩ ≠ [] := by
    simpa using anyGiven
  have sameRun : ∀ others otherSplit,
      Options.ofArguments others = .ok ⟨source, otherSplit, false, labels.map some, symbol⟩ →
        run others input files = answer .unlimited ⟨source, split, false, labels.map some, symbol⟩ text := by
    intro others otherSplit othersAccepted
    rw [run_of_accepted othersAccepted readable]
    exact answer_split (List.isEmpty_eq_false_iff.2 nonempty) otherSplit
  have splitAccepted : Options.ofArguments ("--split" :: arguments) =
      .ok ⟨source, true, false, labels.map some, symbol⟩ := by
    rw [ofArguments_split, accepted]
    simp [Except.map, Options.raise]
  rw [run_of_accepted accepted readable, count]
  refine ⟨?_, ?_, sameRun _ _ splitAccepted, sameRun⟩
  · intro label isFirst
    rw [answer_of_describes describes, describe_unknown given isFirst]
    dsimp only [givenLabel]
    rw [Label.text_eq_toString]
    rfl
  · intro allInside
    obtain ⟨found, shown, about⟩ := describe_closure given anyGiven allInside
    refine ⟨found, ?_, about⟩
    rw [answer_of_describes describes, shown]
    dsimp only
    rw [Value.written_integers, String.append_assoc]
    rfl

/-- A sign that looks like the void symbol is followed, and a label that no state has fails the run. -/
theorem run_closure_lookalike :
    let input := "\x7b\"type\": \"or\", \"parts\": [\x7b\"type\": \"empty\"\x7d, " ++
      "\x7b\"type\": \"text\", \"symbol\": \"ε\"\x7d]\x7d"
    let files : String → Option String := fun _ => none
    run (closureArguments [3, -3, 9] none) input files = .finished ⟨1, "", "Unknown state: -3\n"⟩ ∧
      ∃ found : List Label,
        run (closureArguments [3, 0, 3] (some "ε")) input files =
          .finished ⟨0, "[" ++ ", ".intercalate (found.map toString) ++ "]\n", ""⟩ ∧
        found.Nodup ∧ found.head? = some 3 ∧ 4 ∈ found := by
  intro input files
  have describes : Describes input
      ⟨⟨"NFA", ⟨#[⟨0, [⟨Symbol.epsilon, 1⟩, ⟨Symbol.epsilon, 3⟩]⟩, ⟨1, [⟨Symbol.epsilon, 2⟩]⟩,
        ⟨2, [⟨Symbol.epsilon, 5⟩]⟩, ⟨3, [⟨⟨"ε"⟩, 4⟩]⟩, ⟨4, [⟨Symbol.epsilon, 5⟩]⟩, ⟨5, []⟩]⟩, 0, 5⟩, 6⟩ :=
    describes_of_toOption (by decide +kernel)
  constructor
  · obtain ⟨asked, runs⟩ := run_closure describes (by decide : ([3, -3, 9] : List Label) ≠ [])
    obtain ⟨fails, -⟩ := runs _ _ _ _ input files (asked none (by decide)) rfl
    exact fails (-3) (by decide)
  · obtain ⟨asked, runs⟩ := run_closure describes (by decide : ([3, 0, 3] : List Label) ≠ [])
    obtain ⟨-, succeeds, -⟩ := runs _ _ _ _ input files (asked (some "ε") (by decide)) rfl
    obtain ⟨found, shown, nodup, first, members⟩ := succeeds (by decide)
    refine ⟨found, shown, nodup, first, (members 4).2 ?_⟩
    refine ⟨3, by decide, by decide, 4, [⟨⟨"ε"⟩, 4⟩], ⟨by decide, rfl⟩, ?_, rfl⟩
    intro transition member
    rw [List.mem_singleton.1 member]
    rfl

/-- A value that reads like the separator is no symbol, so that transitions with that very symbol are not followed. -/
theorem separator_follows_nothing :
    let input := "\x7b\"type\": \"text\", \"symbol\": \"--\"\x7d"
    ∃ built, Describes input built ∧
      run ["-c0", "--symbol=--"] input (fun _ => none) = .finished ⟨0, "[0]\n", ""⟩ ∧
      ∃ source ∈ built.automaton.states, built.automaton.graph.label source = 0 ∧
        ∃ target path, built.automaton.graph.IsPath source path target ∧
          (∀ transition ∈ path, transition.symbol = ⟨"--"⟩) ∧ built.automaton.graph.label target = 1 := by
  intro input
  have describes : Describes input ⟨⟨"NFA", ⟨#[⟨0, [⟨⟨"--"⟩, 1⟩]⟩, ⟨1, []⟩]⟩, 0, 1⟩, 2⟩ :=
    describes_of_toOption (by decide +kernel)
  refine ⟨_, describes, by decide +kernel, 0, by decide, rfl, 1, [⟨⟨"--"⟩, 1⟩], ⟨by decide, rfl⟩, ?_, rfl⟩
  intro transition member
  rw [List.mem_singleton.1 member]

end CommandLine

end RegexAutomaton
