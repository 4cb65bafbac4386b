import Mathlib.Logic.Relation
import RegexAutomaton.Construction.Basic
import RegexAutomaton.Proofs.Tree.Induction

/-!
# The construction by recursion

The fragment of a node by plain recursion on the tree: `attach` builds the fragments of the parts from left
to right, each with the graph that the one before it has left, and stops at the first defect. The machine
with its stack of suspended nodes takes finitely many steps to the same outcome.
-/

set_option autoImplicit false

namespace RegexAutomaton

namespace Construction

mutual

/-- Attaches the fragment of a tree to a state, by recursion. -/
def attach : Tree → Vertex → Builder → Outcome
  | .node kind literal parts sub, start, builder =>
      match Kind.ofValue? kind with
      | none => .error (Defect.unknownKind.report kind)
      | some .empty => .ok (attachSymbol builder start Symbol.epsilon)
      | some .text =>
          match literal.bind Letter.ofText? with
          | none => .error (Defect.missingLiteral.report kind)
          | some letter => .ok (attachSymbol builder start letter.symbol)
      | some .alternation =>
          match parts with
          | some (first :: others) => do
              let (ends, builder) ← attachBranches (first :: others) start builder
              return closeAlternation builder ends
          | _ => .error (Defect.missingParts.report kind)
      | some .sequence =>
          match parts with
          | some (first :: others) => attachChain (first :: others) start builder
          | _ => .error (Defect.missingParts.report kind)
      | some (.repetition mode) =>
          match sub with
          | none => .error (Defect.missingSub.report kind)
          | some body => do
              let (inner, builder) := attachSymbol builder start Symbol.epsilon
              let (last, builder) ← attach body inner builder
              return closeRepetition builder mode start inner last

/-- Attaches the parts of a choice, each to a new state behind `start`: the ends of the parts, in order. -/
def attachBranches : List Tree → Vertex → Builder → Except StructureError (List Vertex × Builder)
  | [], _, builder => return ([], builder)
  | tree :: rest, start, builder => do
      let (entry, builder) := attachSymbol builder start Symbol.epsilon
      let (last, builder) ← attach tree entry builder
      let (ends, builder) ← attachBranches rest start builder
      return (last :: ends, builder)

/-- Attaches the parts of a sequence, each to the end of the one before it. -/
def attachChain : List Tree → Vertex → Builder → Outcome
  | [], start, builder => .ok (start, builder)
  | tree :: rest, start, builder => do
      let (last, builder) ← attach tree start builder
      attachChain rest last builder

end

namespace Machine

def Leads : Machine → Machine → Prop :=
  Relation.ReflTransGen fun machine later => machine.step = .inl later

/-- The machine takes finitely many steps to an outcome. -/
def Halts (machine : Machine) (outcome : Outcome) : Prop :=
  ∃ final, machine.Leads final ∧ final.step = .inr outcome

/-- The machine gets through a fragment with the given outcome: it comes back to the frames outside with the
end of the fragment, or halts with a defect. -/
def Completes (machine : Machine) (frames : List Frame) : Outcome → Prop
  | .ok (last, builder) => machine.Leads ⟨builder, .leave last, frames⟩
  | .error defect => machine.Halts (.error defect)

theorem run_of_step {machine later : Machine} (stepped : machine.step = .inl later) :
    machine.run = later.run := by
  rw [run]
  split
  · rename_i found foundStep
    rw [stepped] at foundStep
    cases foundStep
    rfl
  · rename_i outcome halted
    rw [stepped] at halted
    cases halted

theorem run_of_leads {machine later : Machine} (leads : machine.Leads later) :
    machine.run = later.run := by
  induction leads with
  | refl => rfl
  | tail _ stepped ih => rw [ih, run_of_step stepped]

theorem run_of_halts {machine : Machine} {outcome : Outcome} (halts : machine.Halts outcome) :
    machine.run = outcome := by
  obtain ⟨final, leads, halted⟩ := halts
  rw [run_of_leads leads, run]
  split
  · rename_i later stepped
    rw [halted] at stepped
    cases stepped
  · rename_i found foundHalted
    rw [halted] at foundHalted
    cases foundHalted
    rfl

variable {machine later : Machine} {frames outer : List Frame} {outcome : Outcome}

theorem Completes.of_leads (leads : machine.Leads later) (completes : later.Completes frames outcome) :
    machine.Completes frames outcome := by
  cases outcome with
  | ok result => exact leads.trans completes
  | error defect =>
      obtain ⟨final, rest, halted⟩ := completes
      exact ⟨final, leads.trans rest, halted⟩

theorem Completes.of_step (stepped : machine.step = .inl later)
    (completes : later.Completes frames outcome) : machine.Completes frames outcome :=
  completes.of_leads (.single stepped)

/-- A fragment and what is built on its end make one fragment. -/
theorem Completes.bind {next : Vertex × Builder → Outcome} (first : machine.Completes frames outcome)
    (rest : ∀ last builder,
      (⟨builder, .leave last, frames⟩ : Machine).Completes outer (next (last, builder))) :
    machine.Completes outer (outcome >>= next) := by
  cases outcome with
  | ok result => exact (rest result.1 result.2).of_leads first
  | error defect => exact first

theorem Completes.halts (completes : machine.Completes [] outcome) : machine.Halts outcome := by
  cases outcome with
  | ok result => exact ⟨_, completes, rfl⟩
  | error defect => exact completes

/-! ## The machine follows the recursion -/

/-- Once a part of a choice has ended, the machine builds the other parts and closes the choice. -/
theorem completes_alternation (rest : List Tree)
    (parts : ∀ tree ∈ rest, ∀ start builder frames,
      (⟨builder, .enter tree start, frames⟩ : Machine).Completes frames (attach tree start builder))
    (start last : Vertex) (ends : List Vertex) (builder : Builder) (frames : List Frame) :
    (⟨builder, .leave last, .alternation start ends rest :: frames⟩ : Machine).Completes frames (do
      let (more, builder) ← attachBranches rest start builder
      return closeAlternation builder ((last :: ends).reverse ++ more)) := by
  induction rest generalizing last ends builder with
  | nil =>
      apply Completes.of_step rfl
      simp only [attachBranches, pure_bind, List.append_nil]
      exact .refl
  | cons tree rest ih =>
      apply Completes.of_step rfl
      have treeCompletes := parts tree (by simp)
      have restCompletes := ih fun tree member => parts tree (by simp [member])
      simp only [attachBranches, bind_assoc, pure_bind]
      refine (treeCompletes _ _ _).bind fun next builder => ?_
      have closed := restCompletes next (last :: ends) builder
      simpa only [List.reverse_cons, List.append_assoc, List.cons_append, List.nil_append]
        using closed

theorem completes_sequence (rest : List Tree)
    (parts : ∀ tree ∈ rest, ∀ start builder frames,
      (⟨builder, .enter tree start, frames⟩ : Machine).Completes frames (attach tree start builder))
    (last : Vertex) (builder : Builder) (frames : List Frame) :
    (⟨builder, .leave last, .sequence rest :: frames⟩ : Machine).Completes frames
      (attachChain rest last builder) := by
  induction rest generalizing last builder with
  | nil =>
      apply Completes.of_step rfl
      exact .refl
  | cons tree rest ih =>
      apply Completes.of_step rfl
      have treeCompletes := parts tree (by simp)
      have restCompletes := ih fun tree member => parts tree (by simp [member])
      simp only [attachChain]
      exact (treeCompletes _ _ _).bind restCompletes

theorem Completes.of_enter {builder : Builder} {start : Vertex} {tree : Tree}
    (entered : enter builder start frames tree = .ok later)
    (completes : later.Completes frames outcome) :
    (⟨builder, .enter tree start, frames⟩ : Machine).Completes frames outcome := by
  apply completes.of_step
  simp only [step, entered]

theorem completes_defect {builder : Builder} {start : Vertex} {tree : Tree} {defect : StructureError}
    (entered : enter builder start frames tree = .error defect) :
    (⟨builder, .enter tree start, frames⟩ : Machine).Completes frames (.error defect) := by
  refine ⟨_, .refl, ?_⟩
  simp only [step, entered]

/-- From the moment it enters a node, the machine gets through the fragment that the recursion builds. -/
theorem completes_enter (tree : Tree) (start : Vertex) (builder : Builder) (frames : List Frame) :
    (⟨builder, .enter tree start, frames⟩ : Machine).Completes frames (attach tree start builder) := by
  induction tree using Tree.induction generalizing start builder frames with
  | node kind literal parts sub partsInduction subInduction =>
      unfold attach
      cases named : Kind.ofValue? kind with
      | none =>
          apply completes_defect
          simp only [enter, named]
      | some known =>
          cases known with
          | empty =>
              have entered : enter builder start frames (.node kind literal parts sub) =
                  .ok ⟨(attachSymbol builder start Symbol.epsilon).2,
                    .leave (attachSymbol builder start Symbol.epsilon).1, frames⟩ := by
                simp only [enter, named]
              exact Completes.of_enter entered .refl
          | text =>
              cases found : literal.bind Letter.ofText? with
              | none =>
                  apply completes_defect
                  simp only [enter, named, found]
              | some letter =>
                  have entered : enter builder start frames (.node kind literal parts sub) =
                      .ok ⟨(attachSymbol builder start letter.symbol).2,
                        .leave (attachSymbol builder start letter.symbol).1, frames⟩ := by
                    simp only [enter, named, found]
                  exact Completes.of_enter entered .refl
          | alternation =>
              rcases parts with _ | ⟨_ | ⟨first, others⟩⟩
              · apply completes_defect
                simp only [enter, named]
              · apply completes_defect
                simp only [enter, named]
              · have firstCompletes := partsInduction _ rfl first (by simp)
                have othersComplete := completes_alternation others fun tree member =>
                  partsInduction _ rfl tree (by simp [member])
                have entered : enter builder start frames (.node kind literal (some (first :: others)) sub) =
                    .ok ⟨(attachSymbol builder start Symbol.epsilon).2,
                      .enter first (attachSymbol builder start Symbol.epsilon).1,
                      .alternation start [] others :: frames⟩ := by
                  simp only [enter, named]
                apply Completes.of_enter entered
                simp only [attachBranches, bind_assoc, pure_bind]
                refine (firstCompletes _ _ _).bind fun last builder => ?_
                exact othersComplete start last [] builder frames
          | sequence =>
              rcases parts with _ | ⟨_ | ⟨first, others⟩⟩
              · apply completes_defect
                simp only [enter, named]
              · apply completes_defect
                simp only [enter, named]
              · have firstCompletes := partsInduction _ rfl first (by simp)
                have othersComplete := completes_sequence others fun tree member =>
                  partsInduction _ rfl tree (by simp [member])
                have entered : enter builder start frames (.node kind literal (some (first :: others)) sub) =
                    .ok ⟨builder, .enter first start, .sequence others :: frames⟩ := by
                  simp only [enter, named]
                apply Completes.of_enter entered
                simp only [attachChain]
                exact (firstCompletes _ _ _).bind fun last builder =>
                  othersComplete last builder frames
          | repetition mode =>
              cases sub with
              | none =>
                  apply completes_defect
                  simp only [enter, named]
              | some body =>
                  have bodyCompletes := subInduction body rfl
                  have entered : enter builder start frames (.node kind literal parts (some body)) =
                      .ok ⟨(attachSymbol builder start Symbol.epsilon).2,
                        .enter body (attachSymbol builder start Symbol.epsilon).1,
                        .repetition mode start (attachSymbol builder start Symbol.epsilon).1 :: frames⟩ := by
                    simp only [enter, named]
                  apply Completes.of_enter entered
                  refine (bodyCompletes _ _ _).bind fun last builder => ?_
                  exact Completes.of_step rfl .refl

end Machine

end Construction

def Tree.buildByRecursion (tree : Tree) : Except StructureError Built := do
  let (initial, builder) := Builder.empty.allocate
  let (accept, builder) ← Construction.attach tree initial builder
  return ⟨⟨"NFA", builder.graph, initial, accept⟩, builder.count⟩

open Construction

theorem Construction.Machine.halts_start (tree : Tree) :
    (Machine.start tree).2.Halts
      (attach tree Builder.empty.allocate.1 Builder.empty.allocate.2) :=
  (Machine.completes_enter tree _ _ []).halts

theorem Tree.build_eq (tree : Tree) : tree.build = tree.buildByRecursion := by
  have ran := Machine.run_of_halts (Machine.halts_start tree)
  simp only [build, buildByRecursion, ran]
  rfl

/-- Whatever the tree, the machine halts after finitely many steps, with the outcome of the recursion, and the
automaton is the same one: states, labels and the order of transitions included. Defects are the same too. -/
theorem Tree.build_refines_recursion (tree : Tree) :
    (Machine.start tree).2.Halts (attach tree Builder.empty.allocate.1 Builder.empty.allocate.2) ∧
      tree.build = tree.buildByRecursion :=
  ⟨Machine.halts_start tree, tree.build_eq⟩

end RegexAutomaton
