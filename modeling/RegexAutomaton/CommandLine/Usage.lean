import RegexAutomaton.CommandLine.Argument

/-!
# How the command line is used

The texts for those who ask for help and for those whose arguments are refused.
-/

set_option autoImplicit false

namespace RegexAutomaton.CommandLine

def usage : List String :=
  ["usage: [-h] [-s] [-c LABEL] [--symbol SYMBOL] [-v] [tree]",
    "",
    "Builds the automaton of a syntax tree and prints its nodes and edges.",
    "",
    "  tree                 a file with the tree, standard input if omitted",
    "  -h, --help           show these lines",
    "  -s, --split          print nodes and edges apart",
    "  -c, --closure LABEL  print the closure of the state instead",
    "  --symbol SYMBOL      the symbol that the closure follows, none by default",
    "  -v, --verbose        print the automaton itself too"]

def Switch.longName (switch : Switch) : String :=
  match longNames.find? fun entry => entry.2 = switch with
  | some (name, _) => "--" ++ name
  | none => ""

def UsageError.message : UsageError → String
  | ambiguous text => "ambiguous option: " ++ text
  | missingValue switch => switch.longName ++ " needs a value"
  | needlessValue switch => switch.longName ++ " takes no value"
  | notInteger text => "not an integer: " ++ text
  | unrecognized => "there are arguments that fit nowhere"
  | unreadable name => "cannot read " ++ name

end RegexAutomaton.CommandLine
