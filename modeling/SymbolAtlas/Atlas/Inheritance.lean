import SymbolAtlas.Atlas.Ancestry
import SymbolAtlas.Atlas.Filing

/-!
# Inheritance of members

Every class ends up with a roster: for each name, one view for each distinct way in which a member
of that name is reached. Bases come before the classes derived from them, and every class takes over
the members of its bases once.
-/

set_option autoImplicit false

namespace SymbolAtlas

/-- The first class on the path of a view, with the separator; empty without a path. -/
def View.firstScope (v : View) (separator : String) : List Char :=
  match Text.cut separator.toList v.path.toList with
  | some (first, _) => first ++ separator.toList
  | none => []

/-- The view with the first class of its path in front of its ambiguity scope, unless it is there
already. -/
def View.markedAmbiguous (v : View) (separator : String) : View :=
  let scope := v.firstScope separator
  if scope.isPrefixOf v.ambiguityScope.toList then v
  else { v with ambiguityScope := String.ofList scope ++ v.ambiguityScope }

/-- What a view on its way into a class means to one that the class already has under the name. -/
inductive Meeting where
  /-- It is the same member, or overridden by the one that is there. -/
  | covered
  /-- It is hidden by the one that is there, which has another signature. -/
  | hidden
  /-- Both are reached, and neither hides the other. -/
  | ambiguous
deriving DecidableEq, Repr

/-- What a view on its way into a class met there. -/
structure Meetings where
  isCovered : Bool := false
  isHidden : Bool := false
  isAmbiguous : Bool := false
deriving DecidableEq, Repr

/-- An edge on the way into a class, with the name of the base and the separator of the class. -/
structure Passage where
  edge : BaseEdge
  baseName : String
  separator : String
deriving DecidableEq, Repr

/-- The path of a view after an edge. -/
def Passage.path (passage : Passage) (v : View) : String :=
  passage.baseName ++ passage.separator ++ v.path

/-- Inherited members that are to be filed in the class as if they were its own. -/
abbrev Inlined := List (MemberId × Protection)

namespace Atlas

/-- Whether the owner of a member is that of another one, or derived from it. -/
def isOwnedBelow (a : Atlas) (present incoming : Member) : Noted Bool :=
  if incoming.owner = present.owner then pure true
  else
    match present.owner, incoming.owner with
    | some d, some b => a.isBase d b true
    | _, _ => pure false

/-- What an incoming view means to one that is present under the same name. -/
def meeting (a : Atlas) (passage : Passage) (incoming : View) (source : Member) (present : View)
    (target : Member) : Noted Meeting := do
  if incoming.member ≠ present.member then
    if ← a.isOwnedBelow target source then
      return if source.signature.isCompatible target.signature then .covered else .hidden
    else return .ambiguous
  else
    let isInterface := (target.owner.bind a.entity?).any fun e => e.kind == .interface
    if (!incoming.virtualness.isNormal && !present.virtualness.isNormal)
        || passage.path incoming == present.path || isInterface then
      return .covered
    else return .ambiguous

/-- Confronts an incoming view with those that are present under its name, up to the first that
covers it. Ambiguous ones are marked. -/
def confront (a : Atlas) (passage : Passage) (incoming : View) (source : Member) :
    List View → Noted (Meetings × List View)
  | [] => return ({}, [])
  | present :: rest => do
    match a.member? present.member with
    | none =>
      let (met, rest) ← a.confront passage incoming source rest
      return (met, present :: rest)
    | some target =>
      match ← a.meeting passage incoming source present target with
      | .covered => return ({ isCovered := true }, present :: rest)
      | .hidden =>
        let (met, rest) ← a.confront passage incoming source rest
        return ({ met with isHidden := true }, present :: rest)
      | .ambiguous =>
        let (met, rest) ← a.confront passage incoming source rest
        return ({ met with isAmbiguous := true },
          present.markedAmbiguous passage.separator :: rest)

/-- A view after an edge, at a protection. -/
def passed (passage : Passage) (v : View) (p : Protection) : View :=
  { v with
    protection := p
    virtualness := v.virtualness.through passage.edge.virtualness
    isInherited := true
    path := passage.path v }

/-- The view that an incoming one becomes in a class that already has its name. -/
def passedAmong (a : Atlas) (passage : Passage) (incoming : View) (p : Protection)
    (met : Meetings) : View :=
  let view := { passed passage incoming p with ambiguityScope := "", ambiguousWith := none }
  let scope := passage.baseName ++ passage.separator
  let view :=
    if met.isAmbiguous && !scope.toList.isPrefixOf incoming.ambiguityScope.toList then
      { view with ambiguityScope := scope ++ incoming.ambiguityScope }
    else view
  if met.isHidden then
    let hider := incoming.ambiguousWith.getD passage.edge.target
    { view with
      ambiguousWith := some hider
      ambiguityScope := a.name hider ++ passage.separator }
  else view

/-- The inlined members with one more, if inherited members are inlined and the member is not a
standard one. -/
def inlining (a : Atlas) (inlined : Inlined) (id : MemberId) (m : Member) (p : Protection) :
    Inlined :=
  if a.options.inlineInheritedMember && !m.isStandard then inlined ++ [(id, p)] else inlined

/-- Takes a view into a class that already has views under its name. Members that are declared
private, friends and covered ones are not taken over. -/
def inheritAmong (a : Atlas) (passage : Passage) (state : List View × Inlined) (incoming : View) :
    Noted (List View × Inlined) := do
  match a.member? incoming.member with
  | none => return state
  | some source =>
    let (met, views) ← a.confront passage incoming source state.1
    if met.isCovered || source.protection == .priv || source.flags.isFriend then
      return (views, state.2)
    else
      let p := source.protection.cappedBy passage.edge.protection
      return (views ++ [a.passedAmong passage incoming p met],
        a.inlining state.2 incoming.member source p)

/-- Takes a view into a class that has no view under its name before the edge. Friends are not taken
over, nor what becomes private while private members are left out. -/
def inheritNew (a : Atlas) (passage : Passage) (state : List View × Inlined) (incoming : View) :
    List View × Inlined :=
  match a.member? incoming.member with
  | none => state
  | some source =>
    let p := incoming.protection.cappedBy passage.edge.protection
    if source.flags.isFriend || (p == .priv && !a.options.extractPrivate) then state
    else
      (state.1 ++ [passed passage incoming p], a.inlining state.2 incoming.member source p)

/-- Takes the views under one name of a base into a roster. -/
def inheritName (a : Atlas) (passage : Passage) (state : Roster × Inlined)
    (entry : String × List View) : Noted (Roster × Inlined) := do
  let (name, incoming) := entry
  let (roster, inlined) := state
  match roster.get? name with
  | some present =>
    let (views, inlined) ← incoming.foldlM (a.inheritAmong passage) (present, inlined)
    return (roster.insert name views, inlined)
  | none =>
    let (views, inlined) := incoming.foldl (a.inheritNew passage) ([], inlined)
    return (if views.isEmpty then roster else roster.insert name views, inlined)

/-- Takes the roster of a base into the roster of a class. -/
def inheritFrom (a : Atlas) (separator : String) (state : Roster × Inlined) (edge : BaseEdge) :
    Noted (Roster × Inlined) :=
  match a.class? edge.target with
  | none => pure state
  | some base =>
    let passage : Passage := { edge, baseName := a.name edge.target, separator }
    base.roster.toList.foldlM (a.inheritName passage) state

/-- Takes the rosters of the direct bases of a class into its own, and files the members that are
inlined. A class that has done so before is left as it is. -/
def mergeOne (a : Atlas) (id : EntityId) : Noted Atlas := do
  match a.class? id with
  | none => return a
  | some c =>
    if c.isMerged then return a
    let a := a.modifyClass id fun c => { c with isMerged := true, roster := .empty }
    let separator := a.separator id
    let inherit (state : Roster × Inlined) (edge : BaseEdge) : Noted (Roster × Inlined) := do
      if edge.target = id then
        .give (.listsItself (a.name id))
        return state
      else a.inheritFrom separator state edge
    let (roster, inlined) ← c.bases.foldlM inherit (c.roster, [])
    let a := a.modifyClass id fun c => { c with roster }
    inlined.foldlM (fun a (m, p) => a.fileInClass id m p false) a

/-- Whether an entity is a class whose bases have not been taken over. -/
def isUnmerged (a : Atlas) (id : EntityId) : Bool :=
  (a.class? id).any fun c => !c.isMerged

/-- The notices of the walk that decides in which order classes are merged. -/
def mergeNotices (a : Atlas) (start : EntityId) (steps : List (Step EntityId)) : List Notice :=
  steps.filterMap fun step =>
    match step with
    | .cycle through base => some (.mergeCycle (a.name base) (a.name through))
    | .tooDeep _ _ => some (.mergeTooDeep (a.name start))
    | _ => none

/-- How classes are visited to find the order of a merge. -/
def mergeRule (a : Atlas) : WalkRule EntityId EntityId :=
  { key := id, admits := a.isUnmerged, limit := a.options.maxInheritanceDepth }

/-- The unmerged classes that a class is derived from, and the class itself, bases first. -/
def mergeOrder (a : Atlas) (start : EntityId) : Noted (List EntityId) :=
  if a.isUnmerged start then
    let steps := (a.baseGraph true).steps a.mergeRule start
    ⟨Graph.finished steps, a.mergeNotices start steps⟩
  else pure []

/-- Merges a class and, before it, the classes it is derived from. The result says how many classes
were merged. -/
def mergeFrom (a : Atlas) (start : EntityId) : Noted (Atlas × Nat) := do
  let order ← a.mergeOrder start
  let a ← order.foldlM mergeOne a
  return (a, order.length)

/-- Builds the roster of a class and, before it, those of its bases. -/
def mergeMembers (a : Atlas) (id : EntityId) : Except Fault (Noted Atlas) := do
  let _ ← a.requireClass id
  return (·.1) <$> a.mergeFrom id

/-- What merging all classes amounted to. -/
structure MergeCount where
  classesMerged : Nat := 0
  inheritedEntries : Nat := 0
  ambiguousEntries : Nat := 0
deriving DecidableEq, Repr, Inhabited

/-- The views in the rosters of all classes. -/
def allViews (a : Atlas) : List View :=
  (a.entities.toList.filterMap (·.class?)).flatMap fun c => c.roster.views

/-- Builds the rosters of all classes, bases first. -/
def mergeAll (a : Atlas) : Noted (Atlas × MergeCount) := do
  let (a, classesMerged) ← a.classIds.foldlM
    (fun (a, count) id => do
      let (a, merged) ← a.mergeFrom id
      return (a, count + merged))
    (a, 0)
  return (a, {
    classesMerged
    inheritedEntries := a.allViews.countP (·.isInherited)
    ambiguousEntries := a.allViews.countP (·.isAmbiguous) })

end Atlas

end SymbolAtlas
