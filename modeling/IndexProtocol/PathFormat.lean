import Mathlib.Data.List.Induction

/-! Paths written without separators.

A path is a node and then, for each hop, an edge and the next node. A format writes each node
and each edge in a fixed number of symbols, so that the ends of a path are found from the length
of what is written. -/
namespace IndexProtocol

structure PathFormat (ν ε β : Type) where
  node : ν → List β
  edge : ε → List β
  nodeSize : Nat
  edgeSize : Nat
  length_node : ∀ x, (node x).length = nodeSize
  length_edge : ∀ e, (edge e).length = edgeSize

namespace PathFormat
variable {ν ε β : Type} (f : PathFormat ν ε β) (first : ν) (hops : List (ε × ν))

def pack : List β := f.node first ++ hops.flatMap fun hop => f.edge hop.1 ++ f.node hop.2

/-- Where a path ends. -/
def target (first : ν) (hops : List (ε × ν)) : ν := (hops.map Prod.snd).getLastD first

theorem pack_nil : f.pack first [] = f.node first := List.append_nil _

/-- A path one hop further. -/
theorem pack_concat (e : ε) (x : ν) :
    f.pack first (hops ++ [(e, x)]) = f.pack first hops ++ f.edge e ++ f.node x := by
  simp only [pack, List.flatMap_append, List.flatMap_singleton, List.append_assoc]

theorem target_concat (e : ε) (x : ν) : target first (hops ++ [(e, x)]) = x := by
  rw [target, List.map_append, List.map_singleton, List.getLastD_concat]

theorem length_pack :
    (f.pack first hops).length = f.nodeSize + hops.length * (f.nodeSize + f.edgeSize) := by
  induction hops using List.reverseRecOn with
  | nil => rw [pack_nil, f.length_node, List.length_nil, Nat.zero_mul, Nat.add_zero]
  | append_singleton hops hop ih =>
    rw [pack_concat, List.length_append, List.length_append, ih, f.length_edge, f.length_node,
      List.length_append, List.length_singleton, Nat.add_mul, Nat.one_mul]
    omega

/-- The last node stands where so many hops from the start end. -/
theorem pack_eq_append_target : ∃ before : List β,
    f.pack first hops = before ++ f.node (target first hops) ∧
      before.length = hops.length * (f.nodeSize + f.edgeSize) := by
  induction hops using List.reverseRecOn with
  | nil => exact ⟨[], f.pack_nil first, by rw [List.length_nil, List.length_nil, Nat.zero_mul]⟩
  | append_singleton hops hop ih =>
    refine ⟨f.pack first hops ++ f.edge hop.1, ?_, ?_⟩
    · rw [pack_concat, target_concat]
    · rw [List.length_append, length_pack, f.length_edge, List.length_append,
        List.length_singleton, Nat.add_mul, Nat.one_mul]
      omega

end PathFormat

end IndexProtocol
