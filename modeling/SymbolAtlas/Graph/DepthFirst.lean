import SymbolAtlas.Graph.Basic

/-!
# Depth-first walks

A depth-first walk is told by the list of its steps: every edge that is looked at, with what comes
of it, and every node that is left. What a walk finds, the order in which it finishes nodes, and the
cycles it meets are all read off that list.
-/

set_option autoImplicit false

namespace SymbolAtlas

/-- A step of a depth-first walk. -/
inductive Step (α : Type) where
  /-- The edge leads to a node that is entered. -/
  | enter (source target : α)
  /-- The edge leads back to a node that the walk is still inside of. -/
  | cycle (source target : α)
  /-- The edge leads to a node that is finished or not admitted. -/
  | pass (source target : α)
  /-- The edge would lead deeper than the bound. -/
  | tooDeep (source target : α)
  /-- All edges of the node have been looked at. -/
  | leave (node : α)
deriving DecidableEq, Repr

/-- Where the edge leads that is looked at in a step. -/
def Step.target? {α : Type} : Step α → Option α
  | enter _ target | cycle _ target | pass _ target | tooDeep _ target => some target
  | leave _ => none

/-- What a depth-first walk depends on besides the graph. Nodes with equal keys count as one. -/
structure WalkRule (α κ : Type) where
  key : α → κ
  /-- Nodes that are entered; the start always is. -/
  admits : α → Bool := fun _ => true
  /-- The number of nodes that the walk may be inside of at a time; zero means any number. -/
  limit : Nat := 0

namespace Graph

variable {α : Type} {κ : Type} [DecidableEq α] [DecidableEq κ]

/-- What remains to be done for the nodes that the walk is inside of. -/
def pendingWork : List (α × List α) → Nat
  | [] => 0
  | frame :: rest => frame.2.length + 1 + pendingWork rest

/-- The steps of a walk that is inside of the nodes of `frames`, the innermost one first, each with
the edges still to be looked at. The keys of all nodes entered so far are `marked`. -/
def stepsFrom (g : Graph α) (rule : WalkRule α κ) (frames : List (α × List α)) (marked : List κ) :
    List (Step α) :=
  match frames with
  | [] => []
  | (node, []) :: outer => .leave node :: g.stepsFrom rule outer marked
  | (node, target :: todo) :: outer =>
    if rule.key target ∈ marked then
      let isOnPath := ((node, todo) :: outer).any fun frame => rule.key frame.1 == rule.key target
      (if isOnPath then .cycle node target else .pass node target)
        :: g.stepsFrom rule ((node, todo) :: outer) marked
    else if target ∈ g.nodes ∧ rule.admits target = true then
      if 0 < rule.limit ∧ rule.limit < outer.length + 1 then
        .tooDeep node target :: g.stepsFrom rule ((node, todo) :: outer) marked
      else
        .enter node target :: g.stepsFrom rule ((target, g.next target) :: (node, todo) :: outer)
          (rule.key target :: marked)
    else .pass node target :: g.stepsFrom rule ((node, todo) :: outer) marked
termination_by
  unmarkedWeight (fun x => (g.next x).length + 2) rule.key marked g.nodes + pendingWork frames
decreasing_by
  · simp [pendingWork]
  · simp [pendingWork]
  · simp [pendingWork]
  · next hm hin _ =>
    have := unmarkedWeight_mark (fun x => (g.next x).length + 2) rule.key hin.1 hm
    simp only [pendingWork, List.length_cons] at this ⊢
    omega
  · simp [pendingWork]

/-- The steps of the walk that starts at a node. -/
def steps (g : Graph α) (rule : WalkRule α κ) (start : α) : List (Step α) :=
  g.stepsFrom rule [(start, g.next start)] [rule.key start]

/-- The nodes of a walk in the order in which they are left: a node comes after all that was entered
from it. -/
def finished (steps : List (Step α)) : List α :=
  steps.filterMap fun step =>
    match step with
    | .leave node => some node
    | _ => none

end Graph

end SymbolAtlas
