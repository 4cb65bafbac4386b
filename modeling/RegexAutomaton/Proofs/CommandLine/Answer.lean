import RegexAutomaton.CommandLine.Run
import RegexAutomaton.Proofs.CommandLine.Options
import RegexAutomaton.Proofs.Construction.Liveness
import RegexAutomaton.Proofs.Tree.Depth
import RegexAutomaton.Proofs.Value.Room

/-!
# What a run depends on

A run for accepted arguments depends on its options and on the text of its source only. The text either describes an
automaton, or it tells why not. Within limits a run is the one without them, as long as the text is not nested deeper.
-/

set_option autoImplicit false

namespace RegexAutomaton.CommandLine

/-- A text holds a tree that an automaton can be built of. -/
def Describes (text : String) (built : Built) : Prop :=
  ∃ value tree, Value.read text = .ok value ∧ Tree.ofValue value = .ok tree ∧ tree.build = .ok built

variable {text : String} {built : Built}

theorem automaton?_unlimited (text : String) :
    automaton? .unlimited text =
      match Value.read text with
      | .error error => .error (.unreadable error)
      | .ok value =>
          match Tree.ofValue value with
          | .error error => .error (.malformed error)
          | .ok tree => tree.build.mapError .malformed := by
  unfold automaton?
  simp only [Limits.unlimited, Value.readWithin_none, Tree.ofValueWithin_none]
  cases Value.read text with
  | error error => rfl
  | ok value =>
      dsimp only
      cases Tree.ofValue value <;> rfl

theorem automaton?_eq_ok_iff : automaton? .unlimited text = .ok built ↔ Describes text built := by
  unfold Describes
  rw [automaton?_unlimited]
  cases Value.read text with
  | error error => simp
  | ok value =>
      cases readTree : Tree.ofValue value with
      | error error => simp [readTree]
      | ok tree => cases built : tree.build <;> simp [readTree, built, Except.mapError]

theorem describes_of_toOption (found : (automaton? .unlimited text).toOption = some built) : Describes text built := by
  apply automaton?_eq_ok_iff.1
  cases answered : automaton? .unlimited text with
  | error error =>
      rw [answered] at found
      cases found
  | ok other =>
      rw [answered] at found
      exact congrArg Except.ok (Option.some.inj found)

theorem Describes.unique {other : Built} (describes : Describes text built) (otherDescribes : Describes text other) :
    built = other := by
  have found := automaton?_eq_ok_iff.2 describes
  rw [automaton?_eq_ok_iff.2 otherDescribes] at found
  exact (Except.ok.inj found).symm

theorem Describes.regex (describes : Describes text built) : ∃ regex : Regex, built = regex.build := by
  obtain ⟨_, tree, -, -, success⟩ := describes
  obtain ⟨regex, -, same⟩ := Tree.regex_of_build success
  exact ⟨regex, same⟩

theorem answer_of_error {limits : Limits} {error : InputError} (found : automaton? limits text = .error error)
    (options : Options) : answer limits options text = error.outcome := by
  rw [answer, found]

theorem answer_of_describes (describes : Describes text built) (options : Options) :
    answer .unlimited options text =
      match describe options built.automaton with
      | .ok value => .finished ⟨0, value.written ++ "\n", if options.verbose then details built else ""⟩
      | .error label =>
          .finished ⟨1, "", (if options.verbose then details built else "") ++ "Unknown state: " ++
            givenLabel label ++ "\n"⟩ := by
  have found := automaton?_eq_ok_iff.2 describes
  cases described : describe options built.automaton <;> simp only [answer, found, described]

/-! ## Limits -/

/-- Within limits the same is found in a text as without, unless it is nested too deep. -/
theorem automaton?_eq_or (limits : Limits) (text : String) :
    automaton? limits text = .error (.unreadable .nested) ∨ automaton? limits text = .error .exhausted ∨
      automaton? limits text = automaton? .unlimited text := by
  rw [automaton?_unlimited]
  unfold automaton?
  rcases Value.readWithin_eq_or limits.values text with spent | same
  · rw [spent]
    exact .inl rfl
  · right
    rw [same]
    cases Value.read text with
    | error error => exact .inr rfl
    | ok value =>
        dsimp only
        rcases Tree.agrees_ofValueWithin limits.nodes value with spent | same
        · rw [spent]
          exact .inl rfl
        · rw [same, Tree.ofValueWithin_none]
          cases Tree.ofValue value <;> exact .inr rfl

variable {arguments : List String} {input : String} {files : String → Option String} {options : Options}

/-- Within limits a run is broken off because its input is nested too deep, or it is the run without limits. -/
theorem runWithin_eq_or (limits : Limits) (arguments : List String) (input : String) (files : String → Option String) :
    runWithin limits arguments input files = .aborted .nested ∨
      runWithin limits arguments input files = run arguments input files := by
  unfold run runWithin
  split
  · exact .inr rfl
  · exact .inr rfl
  · split
    · rename_i text _
      rcases automaton?_eq_or limits text with nested | exhausted | same
      · exact .inl (answer_of_error nested _)
      · exact .inl (answer_of_error exhausted _)
      · right
        rw [answer, same, answer]
    · exact .inr rfl

theorem runWithin_of_accepted (limits : Limits) (accepted : Options.ofArguments arguments = .ok options)
    (readable : options.source.content input files = .ok text) :
    runWithin limits arguments input files = answer limits options text := by
  unfold runWithin
  rw [accepted]
  dsimp only
  rw [readable]

theorem run_of_accepted (accepted : Options.ofArguments arguments = .ok options)
    (readable : options.source.content input files = .ok text) :
    run arguments input files = answer .unlimited options text :=
  runWithin_of_accepted .unlimited accepted readable

end RegexAutomaton.CommandLine
