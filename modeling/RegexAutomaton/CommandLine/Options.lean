import RegexAutomaton.CommandLine.Argument
import RegexAutomaton.Label
import RegexAutomaton.Symbol
import RegexAutomaton.Text.Numeral

/-!
# Options of the command line

There may be one operand, the file to read, before, between or behind the options. Without it, and where it
is a dash, standard input is read. Options may be repeated: labels are collected, and of several symbols
the last one counts.

A value that reads like the separator stands for an empty list of values. As a label it is the label of no
state, and as a symbol it is that of no transition.
-/

set_option autoImplicit false

namespace RegexAutomaton.CommandLine

inductive Source where
  | standardInput
  | file (name : String)
deriving DecidableEq, Repr

def Source.ofOperand (operand : String) : Source :=
  if operand = "-" then standardInput else file operand

structure Options where
  source : Source
  split : Bool
  verbose : Bool
  /-- The states whose closure is wanted, in the order of the arguments, or an empty list for one of them. -/
  closure : List (Option Label)
  /-- The symbol that the closure follows, if it is the symbol of any transition. -/
  symbol : Option Symbol
deriving DecidableEq, Repr

namespace Options

def default : Options := ⟨.standardInput, false, false, [], some Symbol.epsilon⟩

end Options

/-- Why there are no options at the end: a mistake, or the wish for help, which comes true unless a source was
named before and cannot be read. -/
inductive Halt where
  | usage (error : UsageError)
  | help (source : Source)
deriving DecidableEq, Repr

/-- The options read so far, whether the operand has been read, and whether there was something that fits
nowhere. That becomes a mistake at the end only. -/
structure Progress where
  options : Options
  taken : Bool
  excess : Bool
deriving DecidableEq, Repr

inductive Ending where
  | complete
  | value (switch : Switch) (text : String)
  | wantsValue (switch : Switch)
deriving DecidableEq, Repr

def cluster (switch : Switch) : List Char → Except UsageError (List Switch × Ending)
  | [] => .ok (if switch.takesValue then ([], .wantsValue switch) else ([switch], .complete))
  | letter :: rest =>
      if switch.takesValue then .ok ([], .value switch (String.ofList (letter :: rest)))
      else
        match short? letter with
        | none => .error (.needlessValue switch)
        | some next => do
            let (switches, ending) ← cluster next rest
            return (switch :: switches, ending)

/-- The options in one argument of short options. Behind an equals sign there may be nothing, which only an
option with a value can do with. -/
def shortOptions (switch : Switch) : Option (List Char) → Except UsageError (List Switch × Ending)
  | none => cluster switch []
  | some [] => if switch.takesValue then .ok ([], .value switch "") else .error (.needlessValue switch)
  | some text => cluster switch text

def applySwitch (progress : Progress) : Switch → Except Halt Progress
  | .help => .error (.help progress.options.source)
  | .split => .ok { progress with options := { progress.options with split := true } }
  | .verbose => .ok { progress with options := { progress.options with verbose := true } }
  | .closure => .ok progress
  | .symbol => .ok progress

def labelValue (text : String) : Except Halt (Option Label) :=
  if text = "--" then .ok none
  else
    match Text.integer? text with
    | some label => .ok (some label)
    | none => .error (.usage (.notInteger text))

def symbolValue (text : String) : Option Symbol :=
  if text = "--" then none else some ⟨text⟩

def applyValue (progress : Progress) (switch : Switch) (text : String) : Except Halt Progress :=
  let options := progress.options
  match switch with
  | .closure => do
      let label ← labelValue text
      return { progress with options := { options with closure := options.closure ++ [label] } }
  | .symbol => .ok { progress with options := { options with symbol := symbolValue text } }
  | _ => .ok progress

def applyCluster (progress : Progress) (switches : List Switch) (ending : Ending) :
    Except Halt Progress := do
  let progress ← switches.foldlM applySwitch progress
  match ending with
  | .complete => return progress
  | .value switch text => applyValue progress switch text
  | .wantsValue _ => return progress

def Progress.take (progress : Progress) (operand : String) : Progress :=
  { progress with
    options := { progress.options with source := Source.ofOperand operand }
    taken := true }

def readOperands (progress : Progress) : List Argument → Progress
  | [] => progress
  | [.operand text] => progress.take text
  | _ => { progress with excess := true }

/-- Reads the arguments. A separator belongs to the operand next to it, or stands alone. -/
def readArguments (progress : Progress) : List Argument → Except Halt Progress
  | [] => .ok progress
  | .separator :: rest =>
      .ok (if progress.taken then { progress with excess := true } else readOperands progress rest)
  | .operand text :: rest =>
      if progress.taken then readArguments { progress with excess := true } rest
      else
        match rest with
        | .separator :: behind =>
            .ok { progress.take text with excess := progress.excess || !behind.isEmpty }
        | _ => readArguments (progress.take text) rest
  | .unknown _ :: rest => readArguments { progress with excess := true } rest
  | .long switch (some value) :: rest =>
      if switch.takesValue then do
        let progress ← applyValue progress switch value
        readArguments progress rest
      else .error (.usage (.needlessValue switch))
  | .long switch none :: rest =>
      if switch.takesValue then
        match rest with
        | .operand value :: rest => do
            let progress ← applyValue progress switch value
            readArguments progress rest
        | _ => .error (.usage (.missingValue switch))
      else do
        let progress ← applySwitch progress switch
        readArguments progress rest
  | .short switch attached :: rest =>
      match shortOptions switch attached with
      | .error error => .error (.usage error)
      | .ok (switches, .wantsValue last) =>
          match rest with
          | .operand value :: rest => do
              let progress ← applyCluster progress switches (.value last value)
              readArguments progress rest
          | _ => .error (.usage (.missingValue last))
      | .ok (switches, ending) => do
          let progress ← applyCluster progress switches ending
          readArguments progress rest

/-- The options that the arguments ask for. All arguments are told apart before the first one counts. -/
def Options.ofArguments (arguments : List String) : Except Halt Options :=
  match arguments? arguments with
  | .error error => .error (.usage error)
  | .ok arguments => do
      let progress ← readArguments ⟨Options.default, false, false⟩ arguments
      if progress.excess then .error (.usage .unrecognized) else .ok progress.options

end RegexAutomaton.CommandLine
