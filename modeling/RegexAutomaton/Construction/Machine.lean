import RegexAutomaton.Construction.Builder
import RegexAutomaton.Tree.Basic
import RegexAutomaton.Tree.Defect

/-!
# Building fragments with a stack

Every node of a tree becomes a fragment of the graph, attached to a state where it starts and ending at a
state of its own:

* the void expression and a letter: one transition to a new state;
* a choice: a void transition to a new state for each part, the part attached there, and then a void
  transition from the end of each part to one new state;
* a sequence: each part attached to the end of the one before it;
* a repetition: a void transition to a new state with the body attached there, a void transition back to it
  if the body may be taken again, then one from the end of the body to a new state, and one around the
  body if it may be left out.

Instead of recursion the machine keeps a stack of the nodes whose parts are under construction, so the depth
of a tree is no limit. A node is looked at when the machine comes to it, and the first one with a defect ends
the construction.
-/

set_option autoImplicit false

namespace RegexAutomaton.Construction

/-- A node that waits for the fragment of one of its parts. -/
inductive Frame where
  /-- A choice, with the ends of its finished parts, latest first, and the parts still to come. -/
  | alternation (start : Vertex) (ends : List Vertex) (rest : List Tree)
  | sequence (rest : List Tree)
  | repetition (mode : Repetition) (start inner : Vertex)

inductive Task where
  | enter (tree : Tree) (start : Vertex)
  /-- Go on with the innermost frame, whose part has ended at a state. -/
  | leave (last : Vertex)

/-- A machine at work: the graph so far, what comes next, and the nodes that wait, innermost first. -/
structure Machine where
  builder : Builder
  task : Task
  frames : List Frame

abbrev Outcome := Except StructureError (Vertex × Builder)

def attachSymbol (builder : Builder) (start : Vertex) (symbol : Symbol) : Vertex × Builder :=
  let (accept, builder) := builder.allocate
  (accept, builder.link start symbol accept)

def closeAlternation (builder : Builder) (ends : List Vertex) : Vertex × Builder :=
  let (accept, builder) := builder.allocate
  (accept, builder.linkAll ends accept)

def closeRepetition (builder : Builder) (mode : Repetition) (start inner last : Vertex) :
    Vertex × Builder :=
  let builder := if mode.loops then builder.link last Symbol.epsilon inner else builder
  let (accept, builder) := builder.allocate
  let builder := builder.link last Symbol.epsilon accept
  (accept, if mode.skips then builder.link start Symbol.epsilon accept else builder)

namespace Machine

/-- Looks at a node for the first time: its fragment is finished at once, or waits for the first of its
parts, unless the node has a defect. -/
def enter (builder : Builder) (start : Vertex) (frames : List Frame) :
    Tree → Except StructureError Machine
  | .node kind literal parts sub =>
      match Kind.ofValue? kind with
      | none => .error (Defect.unknownKind.report kind)
      | some .empty =>
          let (accept, builder) := attachSymbol builder start Symbol.epsilon
          .ok ⟨builder, .leave accept, frames⟩
      | some .text =>
          match literal.bind Letter.ofText? with
          | none => .error (Defect.missingLiteral.report kind)
          | some letter =>
              let (accept, builder) := attachSymbol builder start letter.symbol
              .ok ⟨builder, .leave accept, frames⟩
      | some .alternation =>
          match parts with
          | some (first :: others) =>
              let (entry, builder) := attachSymbol builder start Symbol.epsilon
              .ok ⟨builder, .enter first entry, .alternation start [] others :: frames⟩
          | _ => .error (Defect.missingParts.report kind)
      | some .sequence =>
          match parts with
          | some (first :: others) => .ok ⟨builder, .enter first start, .sequence others :: frames⟩
          | _ => .error (Defect.missingParts.report kind)
      | some (.repetition mode) =>
          match sub with
          | none => .error (Defect.missingSub.report kind)
          | some body =>
              let (inner, builder) := attachSymbol builder start Symbol.epsilon
              .ok ⟨builder, .enter body inner, .repetition mode start inner :: frames⟩

def resume (builder : Builder) (last : Vertex) (frames : List Frame) : Frame → Machine
  | .alternation start ends (next :: rest) =>
      let (entry, builder) := attachSymbol builder start Symbol.epsilon
      ⟨builder, .enter next entry, .alternation start (last :: ends) rest :: frames⟩
  | .alternation _ ends [] =>
      let (accept, builder) := closeAlternation builder (last :: ends).reverse
      ⟨builder, .leave accept, frames⟩
  | .sequence (next :: rest) => ⟨builder, .enter next last, .sequence rest :: frames⟩
  | .sequence [] => ⟨builder, .leave last, frames⟩
  | .repetition mode start inner =>
      let (accept, builder) := closeRepetition builder mode start inner last
      ⟨builder, .leave accept, frames⟩

def step : Machine → Machine ⊕ Outcome
  | ⟨builder, .enter tree start, frames⟩ =>
      match enter builder start frames tree with
      | .ok later => .inl later
      | .error defect => .inr (.error defect)
  | ⟨builder, .leave last, frame :: frames⟩ => .inl (resume builder last frames frame)
  | ⟨builder, .leave last, []⟩ => .inr (.ok (last, builder))

end Machine

/-! ## Every run ends -/

def Task.weight : Task → Nat
  | enter tree _ => 2 * tree.size
  | leave _ => 1

def Frame.weight : Frame → Nat
  | alternation _ _ rest => 2 * Tree.sizeAll rest + 1
  | sequence rest => 2 * Tree.sizeAll rest + 1
  | repetition _ _ _ => 1

def Frame.weightAll : List Frame → Nat
  | [] => 0
  | frame :: outer => frame.weight + weightAll outer

namespace Machine

def weight (machine : Machine) : Nat :=
  machine.task.weight + Frame.weightAll machine.frames

theorem weight_enter {builder : Builder} {start : Vertex} {frames : List Frame} {tree : Tree}
    {later : Machine} (entered : enter builder start frames tree = .ok later) :
    later.weight < 2 * tree.size + Frame.weightAll frames := by
  obtain ⟨kind, literal, parts, sub⟩ := tree
  simp only [enter] at entered
  split at entered
  · cases entered
  · cases entered
    simp only [weight, Task.weight, Tree.size]
    omega
  · split at entered
    · cases entered
    · cases entered
      simp only [weight, Task.weight, Tree.size]
      omega
  · split at entered
    · cases entered
      simp only [weight, Task.weight, Frame.weightAll, Frame.weight, Tree.size, Tree.sizeParts,
        Tree.sizeAll]
      omega
    · cases entered
  · split at entered
    · cases entered
      simp only [weight, Task.weight, Frame.weightAll, Frame.weight, Tree.size, Tree.sizeParts,
        Tree.sizeAll]
      omega
    · cases entered
  · split at entered
    · cases entered
    · cases entered
      simp only [weight, Task.weight, Frame.weightAll, Frame.weight, Tree.size, Tree.sizeSub]
      omega

theorem weight_resume (builder : Builder) (last : Vertex) (frames : List Frame) (frame : Frame) :
    (resume builder last frames frame).weight < 1 + (frame.weight + Frame.weightAll frames) := by
  cases frame with
  | alternation start ends rest =>
      cases rest <;>
        simp only [resume, weight, Task.weight, Frame.weightAll, Frame.weight, Tree.sizeAll] <;>
        omega
  | sequence rest =>
      cases rest <;>
        simp only [resume, weight, Task.weight, Frame.weightAll, Frame.weight, Tree.sizeAll] <;>
        omega
  | repetition mode start inner =>
      simp only [resume, weight, Task.weight, Frame.weight]
      omega

theorem weight_step {machine later : Machine} (stepped : machine.step = .inl later) :
    later.weight < machine.weight := by
  obtain ⟨builder, task, frames⟩ := machine
  cases task with
  | enter tree start =>
      simp only [step] at stepped
      split at stepped
      · rename_i found entered
        cases stepped
        exact weight_enter entered
      · cases stepped
  | leave last =>
      cases frames with
      | nil => cases stepped
      | cons frame frames =>
          cases stepped
          exact weight_resume builder last frames frame

def run (machine : Machine) : Outcome :=
  match _ : machine.step with
  | .inl later => run later
  | .inr outcome => outcome
termination_by machine.weight
decreasing_by exact weight_step ‹_›

end Machine

end RegexAutomaton.Construction
