import SymbolAtlas.Atlas.Visibility

/-!
# Lookup

What a finished roster is asked for.
-/

set_option autoImplicit false

namespace SymbolAtlas

/-- The members inherited from one class. -/
structure InheritedGroup where
  owner : EntityId
  members : List MemberId
deriving DecidableEq, Repr

namespace Atlas

/-- The roster of a class. -/
def roster? (a : Atlas) (id : EntityId) : Option Roster :=
  (a.class? id).map (·.roster)

/-- The nearer of the best candidate so far and the member of a view. Only a member whose owner has
a page can be better. -/
def nearer (a : Atlas) (id : EntityId) (best : Option (Nat × MemberId)) (view : View) :
    Noted (Option (Nat × MemberId)) := do
  match (a.member? view.member).bind (·.owner) with
  | none => return best
  | some owner =>
    match ← a.distance id owner with
    | none => return best
    | some distance =>
      if (best.all fun (d, _) => distance < d) && a.isLinkable owner then
        return some (distance, view.member)
      else return best

/-- The member with a name that is declared closest to a class; of equally close ones, the first in
the roster. -/
def memberByName (a : Atlas) (id : EntityId) (name : String) : Noted (Option MemberId) := do
  match (a.roster? id).bind (·.get? name) with
  | none => return none
  | some views =>
    let best ← views.foldlM (a.nearer id) none
    return best.map (·.2)

/-- Whether a member is declared in a base of a class. -/
def isAccessible (a : Atlas) (id : EntityId) (m : MemberId) : Noted Bool :=
  match (a.member? m).bind (·.owner) with
  | none => pure false
  | some owner => a.isBase id owner true

/-- The number of inherited views in the roster of a class. -/
def inheritedCount (a : Atlas) (id : EntityId) : Nat :=
  match a.roster? id with
  | none => 0
  | some roster => roster.views.countP (·.isInherited)

/-- Adds a member to the group of its owner. -/
def addToGroup (owner : EntityId) (m : MemberId) : List InheritedGroup → List InheritedGroup
  | [] => [⟨owner, [m]⟩]
  | group :: rest =>
    if group.owner = owner then
      (if group.members.contains m then group
        else { group with members := group.members ++ [m] }) :: rest
    else group :: addToGroup owner m rest

/-- The inherited members of a class by the class that declares them, in no particular order of the
groups. -/
def ownerGroups (a : Atlas) (id : EntityId) : List InheritedGroup :=
  match a.roster? id with
  | none => []
  | some roster =>
    (roster.views.filter (·.isInherited)).foldl
      (fun groups view =>
        match (a.member? view.member).bind (·.owner) with
        | some owner => addToGroup owner view.member groups
        | none => groups)
      []

/-- How far away the class of a group is, and what its name is. A class that is not reached is
farther than any other. -/
def groupRank (a : Atlas) (id : EntityId) (g : InheritedGroup) : Nat × String :=
  ((a.distance id g.owner).value.getD 0xffffffffffffffff, a.name g.owner)

/-- Whether a rank comes before another one or is the same: nearer classes come first, then the
order of names decides. -/
def rankPrecedes (r s : Nat × String) : Bool :=
  r.1 < s.1 || (r.1 == s.1 && r.2 ≤ s.2)

/-- Whether a group may stand before another one. -/
def groupPrecedes (a : Atlas) (id : EntityId) (g h : InheritedGroup) : Bool :=
  rankPrecedes (a.groupRank id g) (a.groupRank id h)

/-- An order in which the groups may come out of the table that holds them. -/
structure Enumeration (groups : List InheritedGroup) where
  order : List InheritedGroup
  perm : order.Perm groups

/-- The order in which the groups have been collected. -/
def Enumeration.collected (groups : List InheritedGroup) : Enumeration groups :=
  ⟨groups, .refl _⟩

/-- The inherited members of a class by the class that declares them, the nearest first. The groups
are sorted as they come out of their table, so that groups of one rank keep that order. -/
def inheritedGroups (a : Atlas) (id : EntityId)
    (enumeration : Enumeration (a.ownerGroups id) := .collected _) : List InheritedGroup :=
  enumeration.order.mergeSort (a.groupPrecedes id)

/-- The ambiguous views in the roster of a class, with their names. -/
def ambiguousViews (a : Atlas) (id : EntityId) : List (String × View) :=
  match a.roster? id with
  | none => []
  | some roster =>
    (roster.toList.flatMap fun (name, views) => views.map fun view => (name, view)).filter
      fun (_, view) => view.isAmbiguous

end Atlas

end SymbolAtlas
