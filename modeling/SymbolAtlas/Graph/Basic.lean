/-!
# Finite graphs

Directed graphs on a finite list of nodes, for walks that must end even where there are cycles.
-/

set_option autoImplicit false

namespace SymbolAtlas

/-- A directed graph. Walks enter only what is among the nodes. -/
structure Graph (α : Type) where
  nodes : List α
  next : α → List α

namespace Graph

variable {α : Type} {κ : Type} [DecidableEq κ]

/-- The graph with the edges of the given nodes. Where an edge leads is a node as well. -/
def spanning (sources : List α) (next : α → List α) : Graph α where
  nodes := sources ++ sources.flatMap next
  next

@[simp] theorem next_spanning (sources : List α) (next : α → List α) :
    (spanning sources next).next = next := rfl

theorem mem_nodes_spanning {sources : List α} {x : α} (hx : x ∈ sources) (next : α → List α) :
    x ∈ (spanning sources next).nodes :=
  List.mem_append_left _ hx

theorem mem_nodes_spanning_of_mem_next {sources : List α} {next : α → List α} {x y : α}
    (hx : x ∈ sources) (hy : y ∈ next x) : y ∈ (spanning sources next).nodes :=
  List.mem_append_right _ (List.mem_flatMap.mpr ⟨x, hx, hy⟩)

/-- The sum of the weights of the nodes whose keys are not marked. -/
def unmarkedWeight (weight : α → Nat) (key : α → κ) (marked : List κ) : List α → Nat
  | [] => 0
  | x :: rest =>
    (if key x ∈ marked then 0 else weight x) + unmarkedWeight weight key marked rest

theorem unmarkedWeight_cons_le (weight : α → Nat) (key : α → κ) (k : κ) (marked : List κ)
    (nodes : List α) :
    unmarkedWeight weight key (k :: marked) nodes ≤ unmarkedWeight weight key marked nodes := by
  induction nodes with
  | nil => simp [unmarkedWeight]
  | cons x rest ih =>
    simp only [unmarkedWeight, List.mem_cons]
    by_cases hm : key x ∈ marked
    · simp only [hm, or_true, if_true]
      omega
    · simp only [hm, or_false, if_false]
      split <;> omega

/-- Marking a node that is not marked takes away at least its weight. -/
theorem unmarkedWeight_mark (weight : α → Nat) (key : α → κ) {x : α} {marked : List κ}
    {nodes : List α} (hx : x ∈ nodes) (hm : key x ∉ marked) :
    unmarkedWeight weight key (key x :: marked) nodes + weight x
      ≤ unmarkedWeight weight key marked nodes := by
  induction nodes with
  | nil => simp at hx
  | cons y rest ih =>
    have hle := unmarkedWeight_cons_le weight key (key x) marked rest
    simp only [unmarkedWeight, List.mem_cons]
    rcases List.mem_cons.mp hx with rfl | hx
    · simp only [hm, or_false, if_true, if_false]
      omega
    · have := ih hx
      by_cases hy : key y ∈ marked
      · simp only [hy, or_true, if_true]
        omega
      · simp only [hy, or_false, if_false]
        split <;> omega

end Graph

end SymbolAtlas
