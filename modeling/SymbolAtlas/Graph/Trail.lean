import SymbolAtlas.Graph.Basic

/-!
# Trails

A trail visits every node that can be reached, each once, with the number of edges on the way by
which it was met first. Nodes wait to be visited, and either the one that has waited longest or the
one met last is next.
-/

set_option autoImplicit false

namespace SymbolAtlas

/-- Which of the waiting nodes is visited next. -/
inductive Turn where
  | oldestFirst
  | newestFirst
deriving DecidableEq, Repr

namespace Graph

/-- The waiting nodes together with newly met ones. -/
def enqueue {β : Type} (turn : Turn) (waiting new : List β) : List β :=
  match turn with
  | .oldestFirst => waiting ++ new
  | .newestFirst => new.reverse ++ waiting

theorem length_enqueue {β : Type} (turn : Turn) (waiting new : List β) :
    (enqueue turn waiting new).length = waiting.length + new.length := by
  cases turn <;> simp [enqueue]
  omega

variable {α : Type} [DecidableEq α]

/-- The nodes among the candidates that have not been seen, each once. -/
def fresh (g : Graph α) (seen : List α) : List α → List α
  | [] => []
  | x :: rest =>
    if x ∈ g.nodes ∧ x ∉ seen then x :: g.fresh (x :: seen) rest else g.fresh seen rest

/-- How many nodes have not been seen. -/
def unseen (g : Graph α) (seen : List α) : Nat :=
  unmarkedWeight (fun _ => 1) id seen g.nodes

theorem unseen_fresh (g : Graph α) (seen candidates : List α) :
    g.unseen ((g.fresh seen candidates).reverse ++ seen) + (g.fresh seen candidates).length
      ≤ g.unseen seen := by
  induction candidates generalizing seen with
  | nil => simp [fresh]
  | cons x rest ih =>
    simp only [fresh]
    split
    · next h =>
      have hmark := unmarkedWeight_mark (fun _ => 1) id h.1 h.2
      have := ih (x :: seen)
      simp only [unseen, List.reverse_cons, List.append_assoc, List.cons_append, List.nil_append,
        List.length_cons, id_eq] at this hmark ⊢
      omega
    · exact ih seen

/-- The nodes met from a visited one that is `depth` edges away; none beyond the bound. -/
def met (g : Graph α) (limit : Nat) (seen : List α) (node : α) (depth : Nat) : List α :=
  if 0 < limit ∧ limit < depth + 1 then [] else g.fresh seen (g.next node)

/-- The rest of a trail with the given nodes waiting. -/
def trailFrom (g : Graph α) (turn : Turn) (limit : Nat) (waiting : List (α × Nat))
    (seen : List α) : List (α × Nat) :=
  match waiting with
  | [] => []
  | (node, depth) :: waiting =>
    let new := g.met limit seen node depth
    (node, depth) :: g.trailFrom turn limit
      (enqueue turn waiting (new.map fun x => (x, depth + 1))) (new.reverse ++ seen)
termination_by g.unseen seen + waiting.length
decreasing_by
  have : g.unseen ((g.met limit seen node depth).reverse ++ seen)
      + (g.met limit seen node depth).length ≤ g.unseen seen := by
    unfold met
    split
    · simp
    · exact unseen_fresh g seen (g.next node)
  simp only [length_enqueue, List.length_map, List.length_cons]
  omega

/-- The nodes reached from a start, with the number of edges on the way, in the order in which they
are visited. Nodes at the bound are visited but nothing is met from them; zero means that there is
no bound. -/
def trail (g : Graph α) (turn : Turn) (limit : Nat) (start : α) : List (α × Nat) :=
  g.trailFrom turn limit [(start, 0)] [start]

end Graph

end SymbolAtlas
