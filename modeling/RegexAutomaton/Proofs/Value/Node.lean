import RegexAutomaton.Value.Basic

/-!
# Values as nodes

A tree is read from nested objects, one node from each. The nodes below a node are the members of the list under
`parts` and what stands under `sub`, unless it is null. A property of all values follows when it passes from the nodes
below a node to the node.
-/

set_option autoImplicit false

namespace RegexAutomaton.Value

def isNull : Value → Bool
  | null => true
  | _ => false

def isText : Value → Bool
  | text _ => true
  | _ => false

def isList : Value → Bool
  | list _ => true
  | _ => false

def isObject : Value → Bool
  | object _ => true
  | _ => false

/-- The value of the literal: what stands under `symbol` if that key is there, and else under `text`. -/
def literal? (node : Value) : Option Value :=
  (node.get? "symbol").or (node.get? "text")

def partNodes (node : Value) : List Value :=
  match node.get? "parts" with
  | some (list values) => values
  | _ => []

def subNode? (node : Value) : Option Value :=
  match node.get? "sub" with
  | some null => none
  | found => found

/-- The second value is a node of the first: the root, or a node of one below the root. -/
inductive HasNode : Value → Value → Prop
  | root (value : Value) : HasNode value value
  | part {value part node : Value} (member : part ∈ value.partNodes) (below : part.HasNode node) :
      HasNode value node
  | sub {value sub node : Value} (found : value.subNode? = some sub) (below : sub.HasNode node) :
      HasNode value node

/-! ## Induction -/

variable {key : String} {node part sub value : Value}

theorem sizeOf_entry? {entries : List (String × Value)} (found : entry? key entries = some value) :
    sizeOf value < sizeOf entries := by
  induction entries with
  | nil => cases found
  | cons entry rest ih =>
      obtain ⟨name, first⟩ := entry
      unfold entry? at found
      simp only [List.cons.sizeOf_spec, Prod.mk.sizeOf_spec]
      split at found
      · cases found
        omega
      · have smaller := ih found
        omega

theorem sizeOf_get? (found : node.get? key = some value) : sizeOf value < sizeOf node := by
  cases node with
  | object entries =>
      have smaller := sizeOf_entry? found
      rw [object.sizeOf_spec]
      omega
  | _ => cases found

theorem sizeOf_partNodes (member : part ∈ node.partNodes) : sizeOf part < sizeOf node := by
  unfold partNodes at member
  split at member
  · rename_i values found
    have smaller := sizeOf_get? found
    have inside := List.sizeOf_lt_of_mem member
    rw [list.sizeOf_spec] at smaller
    omega
  · cases member

theorem get?_of_subNode? (found : node.subNode? = some sub) : node.get? "sub" = some sub := by
  unfold subNode? at found
  split at found
  · cases found
  · exact found

theorem sizeOf_subNode? (found : node.subNode? = some sub) : sizeOf sub < sizeOf node :=
  sizeOf_get? (get?_of_subNode? found)

/-- Induction on a value along the nodes below it. -/
@[elab_as_elim]
theorem nodeInduction {motive : Value → Prop}
    (node : ∀ node : Value, (∀ part ∈ node.partNodes, motive part) →
      (∀ sub, node.subNode? = some sub → motive sub) → motive node)
    (value : Value) : motive value := by
  refine node value (fun part member => ?_) (fun sub found => ?_)
  · exact nodeInduction node part
  · exact nodeInduction node sub
termination_by sizeOf value
decreasing_by
  · exact sizeOf_partNodes member
  · exact sizeOf_subNode? found

end RegexAutomaton.Value
