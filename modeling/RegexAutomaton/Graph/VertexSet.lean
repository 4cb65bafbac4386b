import RegexAutomaton.Graph.Basic

/-!
# Sets of vertices

A finite set of vertices, kept as the bits of one natural number, so that equal sets are equal
values and a set has no bound.
-/

set_option autoImplicit false

namespace RegexAutomaton

/-- A finite set of vertices: vertex `v` is a member when bit `v` is set. -/
structure VertexSet where
  bits : Nat
deriving DecidableEq

namespace VertexSet

def empty : VertexSet := ⟨0⟩

instance : Membership Vertex VertexSet where
  mem set vertex := set.bits.testBit vertex = true

instance (vertex : Vertex) (set : VertexSet) : Decidable (vertex ∈ set) :=
  inferInstanceAs (Decidable (set.bits.testBit vertex = true))

def insert (set : VertexSet) (vertex : Vertex) : VertexSet :=
  ⟨set.bits ||| 1 <<< vertex⟩

@[simp] theorem not_mem_empty (vertex : Vertex) : vertex ∉ empty := by
  simp [Membership.mem, empty]

@[simp] theorem mem_insert (set : VertexSet) (vertex other : Vertex) :
    other ∈ set.insert vertex ↔ other = vertex ∨ other ∈ set := by
  simp only [Membership.mem, insert, Nat.testBit_or, Nat.one_shiftLeft, Nat.testBit_two_pow,
    Bool.or_eq_true, decide_eq_true_eq]
  exact ⟨fun found => found.symm.imp_left Eq.symm, fun found => (found.imp_left Eq.symm).symm⟩

theorem ext {first second : VertexSet} (same : ∀ vertex, vertex ∈ first ↔ vertex ∈ second) :
    first = second := by
  have bits : first.bits = second.bits :=
    Nat.eq_of_testBit_eq fun vertex => Bool.eq_iff_iff.2 (same vertex)
  cases first
  cases second
  exact congrArg VertexSet.mk bits

end VertexSet

end RegexAutomaton
