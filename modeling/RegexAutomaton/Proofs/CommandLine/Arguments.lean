import Mathlib.Data.List.TakeDrop
import RegexAutomaton.Proofs.CommandLine.Options
import RegexAutomaton.Proofs.Label.Padding

/-!
# Arguments for closures

A label in decimal is read as the same label again, as long as it is not too long to be read at all. So for all such
labels and for every symbol there are arguments that ask for the closure.
-/

set_option autoImplicit false

namespace RegexAutomaton

/-! ## Labels read back -/

namespace Text

theorem digitValue?_of_isDigit {digit : Char} (isDigit : digit.isDigit = true) :
    digitValue? digit = some (digit.toNat - 48) := by
  have bounds := digit_bounds isDigit
  have here : (fun origin => decide (origin ≤ digit.toNat) && decide (digit.toNat < origin + 10)) 0x30 = true := by
    simp only [Bool.and_eq_true, decide_eq_true_eq]
    omega
  have first : zeroDigits.find? (fun origin => origin ≤ digit.toNat && digit.toNat < origin + 10) = some 0x30 :=
    List.find?_cons_of_pos here
  rw [digitValue?, first]
  rfl

theorem digitValues?_of_areDigits {digits : List Char} (areDigits : AreDigits digits) (nonempty : digits ≠ []) :
    digitValues? digits = some (digits.map fun digit => digit.toNat - 48) := by
  induction digits with
  | nil => exact absurd rfl nonempty
  | cons digit rest ih =>
      obtain ⟨isDigit, areRest⟩ := List.forall_mem_cons.1 areDigits
      cases rest with
      | nil =>
          rw [digitValues?, digitValue?_of_isDigit isDigit]
          rfl
      | cons next rest =>
          have later := ih areRest (List.cons_ne_nil _ _)
          rw [digitValues?, digitValue?_of_isDigit isDigit, later]
          · rfl
          · simp
          · intro behind isUnderscore
            cases isUnderscore
            exact absurd (areRest _ List.mem_cons_self) (by decide)

theorem natural?_of_areDigits {digits : List Char} (areDigits : AreDigits digits) (nonempty : digits ≠ [])
    (short : digits.length ≤ maxDigits) : natural? digits = some (value digits) := by
  have number : (digits.map fun digit => digit.toNat - 48).foldl (fun number value => 10 * number + value) 0 =
      value digits := by
    rw [List.foldl_map]
    rfl
  rw [natural?, digitValues?_of_areDigits areDigits nonempty]
  simp [short, ← number]

theorem trimBlanks_of_forall {text : List Char} (solid : ∀ character ∈ text, isBlank character = false) :
    trimBlanks text = text := by
  have whole : ∀ part : List Char, (∀ character ∈ part, isBlank character = false) →
      part.dropWhile isBlank = part := by
    intro part solid
    cases part with
    | nil => rfl
    | cons character rest => simp [solid character List.mem_cons_self]
  rw [trimBlanks, whole text solid, whole text.reverse, List.reverse_reverse]
  intro character member
  exact solid character (List.mem_reverse.1 member)

theorem isBlank_eq_false {character : Char} (visible : character = '-' ∨ character.isDigit = true) :
    isBlank character = false := by
  rcases visible with rfl | isDigit
  · decide
  · have bounds := digit_bounds isDigit
    simp only [isBlank, List.mem_cons, List.not_mem_nil, or_false, Bool.decide_or, Bool.or_eq_false_iff,
      Bool.and_eq_false_imp, decide_eq_true_eq, decide_eq_false_iff_not, Nat.not_le]
    omega

end Text

theorem Label.integer?_text (label : Label) (short : label.magnitude.length ≤ Text.maxDigits) :
    Text.integer? label.text = some label := by
  have areDigits := label.areDigits_magnitude
  have nonempty : label.magnitude ≠ [] := List.ne_nil_of_length_pos Nat.length_toDigits_pos
  have number : Text.natural? label.magnitude = some label.natAbs := by
    rw [Text.natural?_of_areDigits areDigits nonempty short]
    exact congrArg some Nat.ofDigitChars_ten_toDigits
  have solid : ∀ character ∈ label.decimal, Text.isBlank character = false := fun _ member =>
    Text.isBlank_eq_false (Label.sign_or_isDigit_of_mem_decimal member)
  rw [Text.integer?, Label.text, String.toList_ofList, Text.trimBlanks_of_forall solid]
  by_cases negative : label < 0
  · have decimal : label.decimal = '-' :: label.magnitude := by
      rw [Label.decimal, Label.sign, if_pos negative]
      rfl
    rw [decimal]
    change (do let magnitude ← Text.natural? label.magnitude; pure (magnitude : Int)).map (fun number => -number) = _
    rw [number]
    change some (-((Int.natAbs label : Nat) : Int)) = some label
    rw [Int.ofNat_natAbs_of_nonpos (Int.le_of_lt negative), Int.neg_neg]
  · have decimal : label.decimal = label.magnitude := by
      rw [Label.decimal, Label.sign_of_nonneg (Int.not_lt.1 negative), List.nil_append]
    rw [decimal]
    split
    · rename_i signed
      exact absurd (areDigits '-' (by rw [signed]; exact List.mem_cons_self)) (by decide)
    · rename_i signed
      exact absurd (areDigits '+' (by rw [signed]; exact List.mem_cons_self)) (by decide)
    · rw [number]
      exact congrArg some (Int.natAbs_of_nonneg (Int.not_lt.1 negative))

/-! ## Arguments read -/

namespace CommandLine

/-- Arguments for labels and, unless it is the void one, a symbol. -/
def closureArguments (labels : List Label) (symbol? : Option String) : List String :=
  labels.map (fun label => "-c" ++ label.text) ++ (symbol?.map fun symbol => "--symbol=" ++ symbol).toList

theorem ofText?_closure (label : Label) :
    Argument.ofText? ("-c" ++ label.text) = .ok (.short .closure (some label.decimal)) := by
  have characters : ("-c" ++ label.text).toList = '-' :: 'c' :: label.decimal := by
    simp [Label.text]
  have attached : attached? label.decimal = some label.decimal := by
    have noEquals : '=' ∉ label.decimal := by
      intro member
      exact absurd (Label.sign_or_isDigit_of_mem_decimal member) (by decide)
    unfold attached?
    split
    · exact absurd ‹_› label.decimal_ne_nil
    · rename_i same
      rw [same] at noEquals
      exact absurd List.mem_cons_self noEquals
    · rfl
  rw [Argument.ofText?, characters]
  change Except.ok (Argument.short .closure (attached? label.decimal)) = _
  rw [attached]

theorem ofText?_symbol (symbol : String) :
    Argument.ofText? ("--symbol=" ++ symbol) = .ok (.long .symbol (some symbol)) := by
  have characters : ("--symbol=" ++ symbol).toList = '-' :: '-' :: ("symbol".toList ++ '=' :: symbol.toList) := by
    simp
  have cut : ("symbol".toList ++ '=' :: symbol.toList).span (fun character => character != '=') =
      ("symbol".toList, '=' :: symbol.toList) := by
    rw [List.span_eq_takeWhile_dropWhile]
    simp
  rw [Argument.ofText?, characters]
  change Argument.ofLong? ("--symbol=" ++ symbol) ("symbol".toList ++ '=' :: symbol.toList) = _
  rw [Argument.ofLong?, cut]
  have found : (longNames.filter fun entry => "symbol".toList.isPrefixOf entry.1.toList) = [("symbol", .symbol)] := by
    decide
  dsimp only
  rw [found, String.ofList_toList]

theorem arguments?_closureArguments (labels : List Label) (symbol? : Option String) :
    arguments? (closureArguments labels symbol?) =
      .ok (labels.map (fun label => .short .closure (some label.decimal)) ++
        (symbol?.map fun symbol => Argument.long .symbol (some symbol)).toList) := by
  induction labels with
  | nil =>
      cases symbol? with
      | none => rfl
      | some symbol =>
          have notSeparator : "--symbol=" ++ symbol ≠ "--" := by
            intro same
            simpa using congrArg String.toList same
          exact arguments?_cons notSeparator (ofText?_symbol symbol) []
  | cons label rest ih =>
      have notSeparator : "-c" ++ label.text ≠ "--" := by
        intro same
        simpa using congrArg String.toList same
      have later := arguments?_cons notSeparator (ofText?_closure label) (closureArguments rest symbol?)
      rw [ih] at later
      exact later

theorem shortOptions_closure (label : Label) :
    shortOptions .closure (some label.decimal) = .ok ([], .value .closure label.text) := by
  obtain ⟨first, rest, split⟩ := List.exists_cons_of_ne_nil label.decimal_ne_nil
  rw [Label.text, split]
  rfl

theorem applyValue_closure {label : Label} (short : label.magnitude.length ≤ Text.maxDigits) (progress : Progress) :
    applyValue progress .closure label.text =
      .ok { progress with
        options := { progress.options with closure := progress.options.closure ++ [some label] } } := by
  have notSeparator : label.text ≠ "--" := by
    intro same
    have read := label.integer?_text short
    have unread : Text.integer? "--" = none := by decide
    rw [same, unread] at read
    cases read
  have value : labelValue label.text = .ok (some label) := by
    rw [labelValue, if_neg notSeparator, label.integer?_text short]
  rw [applyValue]
  dsimp only
  rw [value]
  rfl

/-- Labels are collected behind those that are there. -/
theorem readArguments_closures {labels : List Label}
    (short : ∀ label ∈ labels, label.magnitude.length ≤ Text.maxDigits) (progress : Progress) (rest : List Argument) :
    readArguments progress (labels.map (fun label => .short .closure (some label.decimal)) ++ rest) =
      readArguments
        { progress with
          options := { progress.options with closure := progress.options.closure ++ labels.map some } } rest := by
  induction labels generalizing progress with
  | nil => rw [List.map_nil, List.map_nil, List.nil_append, List.append_nil]
  | cons label labels ih =>
      rw [List.forall_mem_cons] at short
      have applied := applyValue_closure short.1 progress
      have later := ih short.2 { progress with
        options := { progress.options with closure := progress.options.closure ++ [some label] } }
      rw [List.append_assoc] at later
      rw [List.map_cons, List.cons_append, readArguments.eq_def]
      dsimp only
      rw [shortOptions_closure]
      change (applyValue progress .closure label.text >>= fun next => readArguments next _) = _
      rw [applied]
      exact later

theorem ofArguments_closureArguments {labels : List Label}
    (short : ∀ label ∈ labels, label.magnitude.length ≤ Text.maxDigits) (symbol? : Option String) :
    Options.ofArguments (closureArguments labels symbol?) =
      .ok ⟨.standardInput, false, false, labels.map some, symbol?.elim (some Symbol.epsilon) symbolValue⟩ := by
  unfold Options.ofArguments
  rw [arguments?_closureArguments]
  dsimp only
  rw [readArguments_closures short]
  cases symbol? with
  | none => rfl
  | some symbol => rfl

end CommandLine

end RegexAutomaton
