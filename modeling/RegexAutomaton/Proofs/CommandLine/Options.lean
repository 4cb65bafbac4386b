import RegexAutomaton.CommandLine.Options

/-!
# Switches in front of the arguments

No option turns a switch off or looks at it. So the arguments ask for the same with a switch that is on from the start,
and a switch in front of them does nothing but turn itself on.
-/

set_option autoImplicit false

namespace RegexAutomaton.CommandLine

/-- The options with some of the switches turned on. -/
def Options.raise (split verbose : Bool) (options : Options) : Options :=
  { options with split := options.split || split, verbose := options.verbose || verbose }

def Progress.raise (split verbose : Bool) (progress : Progress) : Progress :=
  { progress with options := progress.options.raise split verbose }

variable {split verbose : Bool}

@[simp]
theorem Progress.raise_taken (progress : Progress) : (progress.raise split verbose).taken = progress.taken :=
  rfl

/-- What begins in the same way but for the switches, and goes on in the same way, ends in the same way. -/
theorem bind_raise {begun : Except Halt Progress} {next : Progress → Except Halt Progress}
    (same : ∀ progress, next (progress.raise split verbose) = (next progress).map (Progress.raise split verbose)) :
    (begun.map (Progress.raise split verbose) >>= next) = (begun >>= next).map (Progress.raise split verbose) := by
  cases begun with
  | error halt => rfl
  | ok progress => exact same progress

theorem applySwitch_raise (progress : Progress) (switch : Switch) :
    applySwitch (progress.raise split verbose) switch =
      (applySwitch progress switch).map (Progress.raise split verbose) := by
  cases switch <;> simp [applySwitch, Progress.raise, Options.raise, Except.map]

theorem applyValue_raise (progress : Progress) (switch : Switch) (text : String) :
    applyValue (progress.raise split verbose) switch text =
      (applyValue progress switch text).map (Progress.raise split verbose) := by
  cases switch with
  | closure =>
      unfold applyValue
      cases labelValue text <;> rfl
  | _ => rfl

theorem foldlM_applySwitch_raise (progress : Progress) (switches : List Switch) :
    switches.foldlM applySwitch (progress.raise split verbose) =
      (switches.foldlM applySwitch progress).map (Progress.raise split verbose) := by
  induction switches generalizing progress with
  | nil => rfl
  | cons switch rest ih =>
      rw [List.foldlM_cons, List.foldlM_cons, applySwitch_raise]
      exact bind_raise ih

theorem applyCluster_raise (progress : Progress) (switches : List Switch) (ending : Ending) :
    applyCluster (progress.raise split verbose) switches ending =
      (applyCluster progress switches ending).map (Progress.raise split verbose) := by
  unfold applyCluster
  rw [foldlM_applySwitch_raise]
  apply bind_raise
  intro next
  cases ending with
  | value switch text => exact applyValue_raise next switch text
  | _ => rfl

theorem readOperands_raise (progress : Progress) (arguments : List Argument) :
    readOperands (progress.raise split verbose) arguments =
      (readOperands progress arguments).raise split verbose := by
  unfold readOperands
  split <;> rfl

theorem readArguments_raise (progress : Progress) (arguments : List Argument) :
    readArguments (progress.raise split verbose) arguments =
      (readArguments progress arguments).map (Progress.raise split verbose) := by
  fun_induction readArguments progress arguments with
  | case1 progress => rfl
  | case2 progress rest =>
      rw [readArguments, Progress.raise_taken, readOperands_raise, Except.map]
      split <;> rfl
  | case3 progress text rest taken ih =>
      rw [readArguments.eq_def]
      dsimp only
      rw [Progress.raise_taken, if_pos taken]
      exact ih
  | case4 progress text taken behind =>
      rw [readArguments, Progress.raise_taken, if_neg taken]
      rfl
  | case5 progress text rest taken unseparated ih =>
      rw [readArguments, Progress.raise_taken, if_neg taken]
      · exact ih
      · exact unseparated
  | case6 progress text rest ih => exact ih
  | case7 progress switch value rest takesValue ih =>
      rw [readArguments, if_pos takesValue, applyValue_raise]
      exact bind_raise ih
  | case8 progress switch value rest takesNone =>
      rw [readArguments, if_neg takesNone]
      rfl
  | case9 progress switch takesValue value rest ih =>
      rw [readArguments, if_pos takesValue, applyValue_raise]
      exact bind_raise ih
  | case10 progress switch rest takesValue missing =>
      rw [readArguments, if_pos takesValue]
      · rfl
      · exact missing
  | case11 progress switch rest takesNone ih =>
      rw [readArguments.eq_def]
      dsimp only
      rw [if_neg takesNone, applySwitch_raise]
      exact bind_raise ih
  | case12 progress switch attached rest error refused =>
      rw [readArguments, refused]
      rfl
  | case13 progress switch attached switches last read value rest ih =>
      rw [readArguments, read]
      dsimp only
      rw [applyCluster_raise]
      exact bind_raise ih
  | case14 progress switch attached rest switches last read missing =>
      rw [readArguments.eq_def]
      dsimp only
      rw [read]
      dsimp only
      split
      · exact absurd rfl (missing _ _)
      · rfl
  | case15 progress switch attached rest switches ending complete read ih =>
      rw [readArguments.eq_def]
      dsimp only
      rw [read]
      cases ending with
      | wantsValue last => exact (complete last rfl).elim
      | _ =>
          dsimp only
          rw [applyCluster_raise]
          exact bind_raise ih

theorem arguments?_cons {text : String} {argument : Argument} (notSeparator : text ≠ "--")
    (found : Argument.ofText? text = .ok argument) (rest : List String) :
    arguments? (text :: rest) = (arguments? rest).map (argument :: ·) := by
  rw [arguments?, found]
  · cases arguments? rest <;> rfl
  · exact notSeparator

theorem ofArguments_cons_raise {text : String} {argument : Argument} (notSeparator : text ≠ "--")
    (found : Argument.ofText? text = .ok argument)
    (raises : ∀ rest, readArguments ⟨Options.default, false, false⟩ (argument :: rest) =
      readArguments (Progress.raise split verbose ⟨Options.default, false, false⟩) rest) (arguments : List String) :
    Options.ofArguments (text :: arguments) = (Options.ofArguments arguments).map (Options.raise split verbose) := by
  unfold Options.ofArguments
  rw [arguments?_cons notSeparator found]
  cases arguments? arguments with
  | error error => rfl
  | ok rest =>
      dsimp only [Except.map]
      rw [raises, readArguments_raise]
      cases readArguments ⟨Options.default, false, false⟩ rest with
      | error halt => rfl
      | ok progress =>
          change (if progress.excess then _ else _) = Except.map _ (if progress.excess then _ else _)
          split <;> rfl

theorem ofArguments_verbose (arguments : List String) :
    Options.ofArguments ("-v" :: arguments) = (Options.ofArguments arguments).map (Options.raise false true) := by
  have found : Argument.ofText? "-v" = .ok (.short .verbose none) := rfl
  exact ofArguments_cons_raise (by decide) found (fun _ => rfl) arguments

theorem ofArguments_split (arguments : List String) :
    Options.ofArguments ("--split" :: arguments) = (Options.ofArguments arguments).map (Options.raise true false) := by
  have found : Argument.ofText? "--split" = .ok (.long .split none) := rfl
  apply ofArguments_cons_raise (by decide) found
  intro rest
  rw [readArguments.eq_def]
  rfl

end RegexAutomaton.CommandLine
