import SymbolAtlas.Atlas.Basic
import SymbolAtlas.Graph.DepthFirst
import SymbolAtlas.Graph.Trail
import SymbolAtlas.Notice
import SymbolAtlas.Text.Lowercase

/-!
# Ancestry

Inheritance is stored twice: a class lists its bases in the order of declaration, and the classes
derived from it in the order of their names. The questions asked of it are whether one class can be
reached from another, how far away it is, and what remains of a protection on the way.
-/

set_option autoImplicit false

namespace SymbolAtlas.Atlas

/-! ## Linking -/

/-- Whether the class with number `id` and name `name` comes after another one in a list of derived
classes: by lower-cased name, then by number. -/
def isAfter (name : String) (id : EntityId) (name' : String) (id' : EntityId) : Bool :=
  let key := Text.lowercase name
  let key' := Text.lowercase name'
  key' < key || (key == key' && id'.number < id.number)

/-- Puts a derived edge in front of the first one that comes after it. -/
def insertDerived (a : Atlas) (edge : BaseEdge) : List BaseEdge → List BaseEdge
  | [] => [edge]
  | other :: rest =>
    if isAfter (a.name other.target) other.target (a.name edge.target) edge.target then
      edge :: other :: rest
    else other :: a.insertDerived edge rest

/-- Lists a derived class with its base, unless it is private and private entities are left out. -/
def linkDerived (a : Atlas) (parent : EntityId) (edge : BaseEdge) : Atlas :=
  match a.entity? edge.target with
  | none => a
  | some child =>
    if child.protection == .priv && !a.options.extractPrivate then a
    else a.modifyClass parent fun c =>
      { c with derived := a.insertDerived edge c.derived, isSimple := false }

/-- Makes a class derive from another one. A class cannot derive from itself. -/
def linkBase (a : Atlas) (child : EntityId) (edge : BaseEdge) : Noted Atlas := do
  if edge.target = child then
    .give (.selfBase (a.name child))
    return a
  else
    let a := a.modifyClass child fun c => { c with bases := c.bases ++ [edge], isSimple := false }
    return a.linkDerived edge.target { edge with target := child, usedName := none }

/-- Makes a class derive from another one, if both are classes. -/
def insertBase (a : Atlas) (child : EntityId) (edge : BaseEdge) : Except Fault (Noted Atlas) := do
  let _ ← a.requireClass child
  let _ ← a.requireClass edge.target
  return a.linkBase child edge

/-! ## Reaching -/

/-- The graph of base edges. Where `followInstances` is off, an instance of a template is replaced
by the template. -/
def baseGraph (a : Atlas) (followInstances : Bool) : Graph EntityId :=
  .spanning a.entityNumbers fun id => (a.bases id).map fun edge =>
    if followInstances then edge.target
    else ((a.class? edge.target).bind (·.templateMaster)).getD edge.target

/-- The graph of derived edges. -/
def derivedGraph (a : Atlas) : Graph EntityId :=
  .spanning a.entityNumbers fun id => (a.derived id).map (·.target)

/-- Whether a walk comes to the target before it gets too deep. Cycles met before are reported. -/
def meets (a : Atlas) (target : EntityId) : List (Step EntityId) → Noted Bool
  | [] => pure false
  | step :: rest => do
    if step.target? = some target then return true
    match step with
    | .cycle _ through =>
      .give (.searchCycle (a.name through) (a.name target))
      a.meets target rest
    | .tooDeep inside _ =>
      .give (.searchTooDeep (a.name inside) (a.name target))
      return false
    | _ => a.meets target rest

/-- Whether one or more edges of a graph lead from a start to a target, as far as the bound on
inheritance depth lets the walk go. -/
def reaches (a : Atlas) (g : Graph EntityId) (start target : EntityId) : Noted Bool :=
  a.meets target (g.steps { key := id, limit := a.options.maxInheritanceDepth } start)

/-- Whether `base` is a direct or indirect base of `derived`. -/
def isBase (a : Atlas) (derived base : EntityId) (followInstances : Bool) : Noted Bool :=
  a.reaches (a.baseGraph followInstances) derived base

/-- Whether `derived` is derived from `base`, directly or indirectly. -/
def isDerived (a : Atlas) (base derived : EntityId) : Noted Bool :=
  a.reaches a.derivedGraph base derived

/-! ## Distance -/

/-- The class that an entity stands for: a category stands for the class it extends. -/
def extendedClass (a : Atlas) (id : EntityId) : EntityId :=
  ((a.class? id).bind (·.categoryOf)).getD id

/-- Whether a path of a length cannot be made longer under the bound on inheritance depth. -/
def isAtLimit (a : Atlas) (depth : Nat) : Bool :=
  0 < a.options.maxInheritanceDepth && a.options.maxInheritanceDepth < depth + 1

/-- The number of base edges on a shortest path to a class, or to the class that a category extends,
if there is one within the bound. -/
def distance (a : Atlas) (start target : EntityId) : Noted (Option Nat) := do
  let target := a.extendedClass target
  let trail := (a.baseGraph true).trail .oldestFirst a.options.maxInheritanceDepth start
  let passed := trail.takeWhile fun visit => visit.1 != target
  if passed.any fun visit => a.isAtLimit visit.2 then
    .give (.distanceTooDeep (a.name start) (a.name target))
  return (trail.find? fun visit => visit.1 == target).map (·.2)

/-! ## Protection -/

/-- The graph of classes with what remains of a protection there, going up but not into `base`. -/
def cappingGraph (a : Atlas) (base : EntityId) : Graph (EntityId × Protection) where
  nodes := a.entityNumbers.flatMap fun id => Protection.all.map fun p => (id, p)
  next node :=
    ((a.bases node.1).filter fun edge => edge.target != base).map fun edge =>
      (edge.target, node.2.cappedBy edge.protection)

/-- The wider of two protections, one of which may be missing. -/
def widest (best : Option Protection) (p : Protection) : Option Protection :=
  some ((best.map fun current => current.wider p).getD p)

/-- What remains of a protection for members of `base` that are used from `derived`: it is capped
along each path, and the widest result counts. -/
def inheritedProtection? (a : Atlas) (derived base : EntityId) (p : Protection) :
    Option Protection :=
  if derived = base then some p
  else
    let trail :=
      (a.cappingGraph base).trail .newestFirst a.options.maxInheritanceDepth (derived, p)
    let arrivals := (trail.filter fun visit => !a.isAtLimit visit.2).flatMap fun visit =>
      ((a.bases visit.1.1).filter fun edge => edge.target == base).map fun edge =>
        visit.1.2.cappedBy edge.protection
    arrivals.foldl widest none

end SymbolAtlas.Atlas
