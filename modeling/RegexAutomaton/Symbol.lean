/-!
# Transition symbols

A transition carries a symbol, which is any text. The empty text is the void symbol: a transition
with it is taken without reading anything. All other symbols are letters, whole words included, and
a letter spelled with the sign that stands for the void symbol is still a letter.
-/

set_option autoImplicit false

namespace RegexAutomaton

structure Symbol where
  text : String
deriving DecidableEq, Repr

namespace Symbol

def epsilon : Symbol := ⟨""⟩

/-- The symbol as people see it: the void symbol has a sign of its own. -/
def display (symbol : Symbol) : String :=
  if symbol = epsilon then "ε" else symbol.text

theorem display_epsilon : epsilon.display = "ε" := if_pos rfl

theorem display_of_ne {symbol : Symbol} (letter : symbol ≠ epsilon) :
    symbol.display = symbol.text := if_neg letter

end Symbol

/-- A symbol that is read: any but the void one. Words are lists of letters. -/
structure Letter where
  symbol : Symbol
  ne_epsilon : symbol ≠ Symbol.epsilon
deriving DecidableEq

def Letter.ofText? (text : String) : Option Letter :=
  if void : (⟨text⟩ : Symbol) = Symbol.epsilon then none else some ⟨⟨text⟩, void⟩

end RegexAutomaton
