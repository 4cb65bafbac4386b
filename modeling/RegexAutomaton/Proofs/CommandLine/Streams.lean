import RegexAutomaton.Proofs.CommandLine.Answer
import RegexAutomaton.Proofs.Construction.Size
import RegexAutomaton.Proofs.Value.RoundTrip

/-!
# Streams and notes

Unless its input breaks it off, a run succeeds with one line on its output and nothing beside it, or fails the other way
round. A verbose run differs from it only in the notes on the automaton, which stand in front of what else is told
beside the output. Where the input breaks one of them off, the other one ends in the same way.
-/

set_option autoImplicit false

namespace RegexAutomaton

namespace CommandLine

variable {limits : Limits} {text : String} {built : Built} {options : Options} {outcome : Outcome}

/-! ## Inputs that break a run off -/

/-- Runs on the text leave no report, but end in some other way. -/
inductive BreaksOff (limits : Limits) (text : String) : Outcome → Prop
  | overlong (read : Value.readWithin limits.values text = .error .overlong) :
      BreaksOff limits text (.aborted .overlong)
  | nested (read : Value.readWithin limits.values text = .error .nested) : BreaksOff limits text (.aborted .nested)
  | exhausted {value : Value} (read : Value.readWithin limits.values text = .ok value)
      (shaped : Tree.ofValueWithin limits.nodes value = .error .exhausted) : BreaksOff limits text (.aborted .nested)
  | unpaired (read : Value.readWithin limits.values text = .error .unpaired) : BreaksOff limits text .unsettled

theorem BreaksOff.automaton? (breaks : BreaksOff limits text outcome) :
    ∃ error : InputError, automaton? limits text = .error error ∧ error.outcome = outcome := by
  unfold CommandLine.automaton?
  cases breaks with
  | overlong read => exact ⟨_, by rw [read], rfl⟩
  | nested read => exact ⟨_, by rw [read], rfl⟩
  | exhausted read shaped =>
      refine ⟨.exhausted, ?_, rfl⟩
      rw [read]
      dsimp only
      rw [shaped]
      rfl
  | unpaired read => exact ⟨_, by rw [read], rfl⟩

theorem append_feed_ne (text : String) : text ++ "\n" ≠ "" := by
  intro same
  simpa using congrArg String.toList same

/-- Whatever else is wrong with a text is told beside the output. -/
theorem exists_complaint (settled : ∀ outcome, ¬BreaksOff limits text outcome) {error : InputError}
    (found : automaton? limits text = .error error) :
    ∃ complaint, complaint ≠ "" ∧ error.outcome = .finished ⟨1, "", complaint⟩ := by
  unfold automaton? at found
  split at found
  case h_1 readError read =>
    cases found
    cases readError with
    | malformed => exact ⟨_, by decide, rfl⟩
    | overlong => exact absurd (.overlong read) (settled _)
    | nested => exact absurd (.nested read) (settled _)
    | unpaired => exact absurd (.unpaired read) (settled _)
  case h_2 value read =>
    split at found
    case h_1 treeError shaped =>
      cases found
      cases treeError with
      | malformed error => exact ⟨_, append_feed_ne _, rfl⟩
      | exhausted => exact absurd (.exhausted read shaped) (settled _)
    case h_2 tree shaped =>
      cases success : tree.build with
      | ok built =>
          rw [success] at found
          cases found
      | error error =>
          rw [success] at found
          cases found
          exact ⟨_, append_feed_ne _, rfl⟩

theorem automaton?_of_settled (settled : ∀ outcome, ¬BreaksOff limits text outcome) :
    automaton? limits text = automaton? .unlimited text := by
  rcases automaton?_eq_or limits text with nested | exhausted | same
  · obtain ⟨_, -, finished⟩ := exists_complaint settled nested
    cases finished
  · obtain ⟨_, -, finished⟩ := exists_complaint settled exhausted
    cases finished
  · exact same

/-! ## Reports -/

/-- Success with one line on the output and nothing beside it, or failure the other way round. -/
def Report.Orderly (report : Report) : Prop :=
  (report.status = 0 ∧ (∃ line : String, '\n' ∉ line.toList ∧ report.output = line ++ "\n") ∧ report.errors = "") ∨
    (report.status = 1 ∧ report.output = "" ∧ report.errors ≠ "")

/-- A report with notes in front of what is told beside the output. -/
def Report.noted (notes : String) (report : Report) : Report :=
  { report with errors := notes ++ report.errors }

/-- What a verbose run tells about the automaton of a text, if there is one. -/
def IsNotes (text notes : String) : Prop :=
  ((∀ built, ¬Describes text built) → notes = "") ∧ ∀ built, Describes text built → notes = details built

theorem describe_raise (automaton : Automaton) :
    describe (options.raise false true) automaton = describe options automaton := by
  unfold describe Options.raise
  simp only [Bool.or_false]

/-- A run on a text with an automaton, and the verbose one. -/
theorem exists_report_of_describes (quiet : options.verbose = false) (describes : Describes text built) :
    ∃ plain : Report, plain.Orderly ∧ answer .unlimited options text = .finished plain ∧
      answer .unlimited (options.raise false true) text = .finished (plain.noted (details built)) := by
  have verbose : (options.raise false true).verbose = true := by simp [Options.raise]
  rw [answer_of_describes describes, answer_of_describes describes, describe_raise, verbose, quiet]
  cases describe options built.automaton with
  | ok value =>
      have oneLine : '\n' ∉ value.written.toList := by
        intro member
        exact absurd (value.plain_written '\n' member) (by decide)
      exact ⟨⟨0, value.written ++ "\n", ""⟩, .inl ⟨rfl, ⟨_, oneLine, rfl⟩, rfl⟩, rfl, by simp [Report.noted]⟩
  | error label =>
      refine ⟨⟨1, "", "Unknown state: " ++ givenLabel label ++ "\n"⟩, .inr ⟨rfl, rfl, append_feed_ne _⟩, ?_, ?_⟩
      · simp
      · simp [Report.noted, String.append_assoc]

/-- A run on a text that does not break it off, and the verbose one. -/
theorem exists_report (quiet : options.verbose = false) (settled : ∀ outcome, ¬BreaksOff limits text outcome) :
    ∃ (plain : Report) (notes : String), plain.Orderly ∧ IsNotes text notes ∧
      answer limits options text = .finished plain ∧
      answer limits (options.raise false true) text = .finished (plain.noted notes) := by
  have same := automaton?_of_settled settled
  cases found : automaton? limits text with
  | error error =>
      have nothing : ∀ built, ¬Describes text built := by
        intro built describes
        rw [same, automaton?_eq_ok_iff.2 describes] at found
        cases found
      obtain ⟨complaint, told, finished⟩ := exists_complaint settled found
      refine ⟨⟨1, "", complaint⟩, "", .inr ⟨rfl, rfl, told⟩, ⟨fun _ => rfl, ?_⟩, ?_, ?_⟩
      · exact fun built describes => absurd describes (nothing built)
      · rw [answer_of_error found, finished]
      · rw [answer_of_error found, finished, Report.noted, String.empty_append]
  | ok built =>
      have describes : Describes text built := automaton?_eq_ok_iff.1 (same.symm.trans found)
      have sameAnswer (options : Options) : answer limits options text = answer .unlimited options text := by
        rw [answer, same, answer]
      obtain ⟨plain, orderly, quietly, verbosely⟩ := exists_report_of_describes quiet describes
      refine ⟨plain, details built, orderly, ⟨?_, ?_⟩, ?_, ?_⟩
      · exact fun nothing => absurd describes (nothing built)
      · exact fun other otherDescribes => congrArg details (describes.unique otherDescribes)
      · rw [sameAnswer, quietly]
      · rw [sameAnswer, verbosely]

theorem details_build (regex : Regex) :
    details regex.build =
      "DEBUG:thompson.automatons:Built " ++ toString regex.build.automaton.states.length ++ " states from (0) to (" ++
        toString (regex.build.automaton.states.length - 1) ++ ")\n" ++ regex.build.automaton.mesh := by
  have count : regex.build.automaton.states.length = regex.build.count := by
    rw [regex.length_states_build, regex.count_build]
  unfold details
  apply congrArg (· ++ regex.build.automaton.mesh)
  rw [count, regex.note_build]
  generalize toString regex.build.count = count
  generalize toString (regex.build.count - 1) = last
  simp [← String.toList_inj]

variable {arguments : List String} {input : String} {files : String → Option String}

/-- Runs whose arguments are accepted and whose source can be read. A text that breaks one of them off does so with the
verbose one, too. On any other text a run succeeds with one line on its output and nothing beside it, or fails with
nothing on its output and something beside it. The verbose run has the same status and output. Beside its output there
are first the notes, if there is an automaton, and then what the other run has there. -/
theorem runWithin_verbose (limits : Limits) (accepted : Options.ofArguments arguments = .ok options)
    (quiet : options.verbose = false) (readable : options.source.content input files = .ok text) :
    (∀ outcome, BreaksOff limits text outcome →
      runWithin limits arguments input files = outcome ∧
        runWithin limits ("-v" :: arguments) input files = outcome) ∧
    ((∀ outcome, ¬BreaksOff limits text outcome) →
      ∃ (status : Nat) (output errors notes : String),
        runWithin limits arguments input files = .finished ⟨status, output, errors⟩ ∧
        runWithin limits ("-v" :: arguments) input files = .finished ⟨status, output, notes ++ errors⟩ ∧
        (status = 0 ∨ status = 1) ∧ (output ≠ "" ↔ status = 0) ∧
        (status = 0 → ∃ line : String, '\n' ∉ line.toList ∧ output = line ++ "\n") ∧
        (errors = "" ↔ status = 0) ∧
        ((∀ built, ¬Describes text built) → notes = "") ∧
        ∀ built, Describes text built →
          notes = "DEBUG:thompson.automatons:Built " ++ toString built.automaton.states.length ++
            " states from (0) to (" ++ toString (built.automaton.states.length - 1) ++ ")\n" ++
              built.automaton.mesh) := by
  have raised : Options.ofArguments ("-v" :: arguments) = .ok (options.raise false true) := by
    rw [ofArguments_verbose, accepted]
    rfl
  have raisedReadable : (options.raise false true).source.content input files = .ok text := readable
  rw [runWithin_of_accepted limits accepted readable, runWithin_of_accepted limits raised raisedReadable]
  constructor
  · intro outcome breaks
    obtain ⟨error, found, ends⟩ := breaks.automaton?
    exact ⟨(answer_of_error found _).trans ends, (answer_of_error found _).trans ends⟩
  · intro settled
    obtain ⟨⟨status, output, errors⟩, notes, orderly, ⟨nothing, something⟩, quietly, verbosely⟩ :=
      exists_report quiet settled
    have told : ∀ built, Describes text built →
        notes = "DEBUG:thompson.automatons:Built " ++ toString built.automaton.states.length ++
          " states from (0) to (" ++ toString (built.automaton.states.length - 1) ++ ")\n" ++ built.automaton.mesh := by
      intro built describes
      rw [something built describes]
      obtain ⟨regex, rfl⟩ := describes.regex
      exact details_build regex
    refine ⟨status, output, errors, notes, quietly, verbosely, ?_⟩
    rcases orderly with ⟨rfl, ⟨line, oneLine, rfl⟩, rfl⟩ | ⟨rfl, rfl, failed⟩
    · exact ⟨.inl rfl, iff_of_true (append_feed_ne line) rfl, fun _ => ⟨line, oneLine, rfl⟩, iff_of_true rfl rfl,
        nothing, told⟩
    · exact ⟨.inr rfl, by decide, fun success => absurd success (by decide), iff_of_false failed (by decide),
        nothing, told⟩

/-- A verbose run tells of the automaton before it fails to find a state. Lists that are nested too deep break both runs
off. -/
theorem runWithin_verbose_unknown_state :
    let input := "\x7b\"type\": \"text\", \"symbol\": \"a\"\x7d"
    let files : String → Option String := fun _ => none
    Options.ofArguments ["-c", "7"] = .ok ⟨.standardInput, false, false, [some 7], some Symbol.epsilon⟩ ∧
      (∀ outcome, ¬BreaksOff .standard input outcome) ∧
      runWithin .standard ["-c", "7"] input files = .finished ⟨1, "", "Unknown state: 7\n"⟩ ∧
      runWithin .standard ["-v", "-c", "7"] input files =
        .finished ⟨1, "", "DEBUG:thompson.automatons:Built 2 states from (0) to (1)\n--> (0)\n(0) a (1) -->\n" ++
          "Unknown state: 7\n"⟩ ∧
      BreaksOff ⟨some 1, some 1⟩ "[[]]" (.aborted .nested) ∧
      runWithin ⟨some 1, some 1⟩ ["-v", "-c", "7"] "[[]]" files = .aborted .nested := by
  intro input files
  have accepted : Options.ofArguments ["-c", "7"] =
      .ok ⟨.standardInput, false, false, [some 7], some Symbol.epsilon⟩ := by decide +kernel
  have plain : runWithin .standard ["-c", "7"] input files = .finished ⟨1, "", "Unknown state: 7\n"⟩ := by
    decide +kernel
  have describes : Describes input ⟨⟨"NFA", ⟨#[⟨0, [⟨⟨"a"⟩, 1⟩]⟩, ⟨1, []⟩]⟩, 0, 1⟩, 2⟩ :=
    describes_of_toOption (by decide +kernel)
  have settled : ∀ outcome, ¬BreaksOff .standard input outcome := by
    intro outcome breaks
    obtain ⟨error, failed, -⟩ := breaks.automaton?
    have success : (automaton? .standard input).toBool = true := by decide +kernel
    rw [failed] at success
    cases success
  have breaks : BreaksOff ⟨some 1, some 1⟩ "[[]]" (.aborted .nested) := .nested rfl
  obtain ⟨-, reports⟩ := runWithin_verbose .standard accepted rfl (rfl : _ = Except.ok input)
  obtain ⟨status, output, errors, notes, quietly, verbosely, -, -, -, -, -, told⟩ := reports settled
  obtain ⟨ends, -⟩ := runWithin_verbose ⟨some 1, some 1⟩ accepted rfl (rfl : Source.content "[[]]" files _ = _)
  rw [quietly] at plain
  cases plain
  rw [told _ describes] at verbosely
  exact ⟨accepted, settled, quietly, verbosely.trans (by decide +kernel), breaks, (ends _ breaks).2⟩

/-- An integer with one digit too many breaks every run off, so that there is no report. -/
theorem runWithin_overlong :
    let input := String.ofList (List.replicate 4301 '7')
    let files : String → Option String := fun _ => none
    Options.ofArguments [] = .ok ⟨.standardInput, false, false, [], some Symbol.epsilon⟩ ∧
      ∀ limits, runWithin limits [] input files = .aborted .overlong ∧
        ¬∃ report, runWithin limits [] input files = .finished report := by
  intro input files
  have accepted : Options.ofArguments [] = .ok ⟨.standardInput, false, false, [], some Symbol.epsilon⟩ := by decide
  refine ⟨accepted, fun limits => ?_⟩
  have sevens : Text.AreDigits (List.replicate 4300 '7') := by
    intro digit member
    rw [List.eq_of_mem_replicate member]
    rfl
  have long : Text.maxDigits < (List.replicate 4300 '7').length + 1 := by
    rw [List.length_replicate]
    decide
  have read : Value.readWithin limits.values input = .error .overlong :=
    Value.readWithin_of_lt limits.values rfl (by decide) sevens long
  have ends : runWithin limits [] input files = .aborted .overlong := by
    obtain ⟨error, found, outcome⟩ := (BreaksOff.overlong read).automaton?
    exact (runWithin_of_accepted limits accepted rfl).trans ((answer_of_error found _).trans outcome)
  refine ⟨ends, ?_⟩
  rintro ⟨report, finished⟩
  rw [ends] at finished
  cases finished

end CommandLine

end RegexAutomaton
