import SymbolAtlas.Atlas.Ancestry
import SymbolAtlas.Atlas.Placement

/-!
# Visibility

Which entities have a page, here or in another project, which members have an anchor, and which
classes are shown in hierarchies.
-/

set_option autoImplicit false

namespace SymbolAtlas.Atlas

/-- The entity whose page is looked at for an entity: an instance of a template has that of the
template. -/
def pageOwner? (a : Atlas) (id : EntityId) : Option Entity :=
  (a.entity? id).bind fun e =>
    match e.templateMaster with
    | some master => a.entity? master
    | none => some e

/-- Whether an entity has a page of its own under the options. -/
def hasPage (options : Options) (e : Entity) : Bool :=
  e.name != "" && !e.flags.isArtificial && !e.flags.isHidden && !e.flags.isAnonymous
    && options.shows e.protection
    && (!e.isLocal || options.extractLocalClasses)
    && (e.flags.isDocumented || !options.hideUndocClasses)
    && (!e.flags.isStatic || options.extractStatic)
    && !e.isReference

/-- Whether this project has a page for an entity. -/
def isLinkableHere (a : Atlas) (id : EntityId) : Bool :=
  (a.pageOwner? id).any (hasPage a.options)

/-- Whether there is a page for an entity, in this project or in the one it was taken from. -/
def isLinkable (a : Atlas) (id : EntityId) : Bool :=
  let owner := a.pageOwner id
  (a.entity? owner).any (·.isReference) || a.isLinkableHere owner

/-- Whether a member has an anchor in this project. -/
def isMemberLinkable (a : Atlas) (id : MemberId) : Bool :=
  match a.member? id with
  | none => false
  | some m =>
    m.owner.any a.isLinkable && !m.flags.isHidden && a.options.shows m.protection
      && (m.flags.isDocumented || !a.options.hideUndocMembers)

/-- The instances of a template, in the order of their arguments. -/
def instances (a : Atlas) (id : EntityId) : List (String × EntityId) :=
  ((a.class? id).map (·.instances.toList)).getD []

/-- The graph that leads from a class to the classes derived from it and to their instances. -/
def hierarchyGraph (a : Atlas) : Graph EntityId where
  nodes := a.entityNumbers
  next id := (a.derived id).flatMap fun edge =>
    edge.target :: (a.instances edge.target).map (·.2)

/-- Whether an entity belongs to this project and has a page in it. -/
def isDocumentedHere (a : Atlas) (id : EntityId) : Bool :=
  ((a.entity? id).any fun e => !e.isReference && !e.flags.isHidden) && a.isLinkableHere id

/-- Whether one of the visited classes is documented in this project. The search ends without a
result at a class that has derived ones beyond the bound. -/
def findsDocumented (a : Atlas) : List (EntityId × Nat) → Noted Bool
  | [] => pure false
  | (id, depth) :: rest => do
    if a.isDocumentedHere id then return true
    match a.derived id with
    | [] => a.findsDocumented rest
    | edge :: _ =>
      if a.isAtLimit depth then
        .give (.searchTooDeep (a.name id) (a.name edge.target))
        return false
      else a.findsDocumented rest

/-- Whether a class, a class derived from it, or an instance of one of these is documented in this
project. -/
def hasDocumentedDescendant (a : Atlas) (id : EntityId) : Noted Bool :=
  a.findsDocumented (a.hierarchyGraph.trail .newestFirst a.options.maxInheritanceDepth id)

/-- Whether a class is shown in hierarchies. -/
def isInHierarchy (a : Atlas) (id : EntityId) : Noted Bool := do
  match a.entity? id with
  | none => return false
  | some e =>
    let isReachable ←
      if a.options.allExternals && !e.flags.isArtificial then pure true
      else a.hasDocumentedDescendant id
    let isMasterDocumented := (e.templateMaster.bind a.entity?).any (·.flags.isDocumented)
    return isReachable && !e.flags.isAnonymous && a.options.shows e.protection
      && (e.flags.isDocumented || !a.options.hideUndocClasses || isMasterDocumented
        || e.isReference)
      && (!e.flags.isStatic || a.options.extractStatic)

end SymbolAtlas.Atlas
