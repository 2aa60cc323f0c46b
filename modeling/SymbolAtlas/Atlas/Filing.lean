import SymbolAtlas.Atlas.Basic
import SymbolAtlas.Atlas.Placement
import SymbolAtlas.Graph.Trail
import SymbolAtlas.Notice

/-!
# Filing members

Putting a member into the sections of its owner. Filing in a class also keeps what the members of a
class say about it: that it is abstract, that it is plain data, and what its arrow operator is.
-/

set_option autoImplicit false

namespace SymbolAtlas

/-- The entity with a member filed where the placement says. -/
def Entity.filed (e : Entity) (placement : Placement) (id : MemberId) : Entity :=
  let sections := e.sections.file placement.declaration id
  let sections :=
    match placement.documentation with
    | some s => sections.file s id
    | none => sections
  let e := { e with sections }
  if placement.keepsSimple then e else e.modifyClass fun c => { c with isSimple := false }

/-- The class with what follows from having a member. The member is listed in the roster if `entry`
is given. -/
def ClassBody.noting (c : ClassBody) (m : Member) (id : MemberId) (entry : Option View) :
    ClassBody :=
  let c := if m.virtualness == .pureVirtual then { c with traits.isAbstract := true } else c
  let c := if m.name == "operator->" then { c with arrowOperator := some id } else c
  match entry with
  | some view => { c with roster := c.roster.append m.name view }
  | none => c

/-- The entity with a member of a namespace listed and filed. -/
def Entity.posting (e : Entity) (m : Member) (id : MemberId) : Entity :=
  let e := e.modifyNamespace fun n => { n with members := n.members.append m.name id }
  match m.kind.namespaceTopic? with
  | some topic =>
    { e with
      sections := (e.sections.file (.namespaceDecls topic) id).file (.namespaceDocs topic) id }
  | none => e

namespace Atlas

/-- Files a member in a class at a protection. Hidden members are left out. The member becomes part
of the roster if `isListed`, unless it is the declaration of a friend class and these are hidden. -/
def fileInClass (a : Atlas) (owner : EntityId) (id : MemberId) (p : Protection) (isListed : Bool) :
    Noted Atlas := do
  match a.member? id, a.entity? owner with
  | some m, some e =>
    if m.flags.isHidden then return a
    let entry :=
      if isListed && !(a.options.hideFriendCompounds && m.isFriendCompound) then
        some (View.direct m p)
      else none
    match Placement.ofMember? m p a.options with
    | some placement =>
      return a.modifyEntity owner fun e =>
        (e.filed placement id).modifyClass fun c => c.noting m id entry
    | none =>
      .give (.unfiledInClass m.name e.name m.kind)
      return a.modifyClass owner fun c => c.noting m id entry
  | _, _ => return a

/-- The namespaces in which a member of a namespace appears: an inline namespace passes it on to the
namespace around it. -/
def publishingGraph (a : Atlas) : Graph EntityId where
  nodes := a.entityNumbers
  next id :=
    match a.entity? id with
    | none => []
    | some e =>
      match e.namespace?, e.outer with
      | some n, some outer => if n.isInline && (a.namespace? outer).isSome then [outer] else []
      | _, _ => []

/-- Files a member in one namespace. -/
def fileInOneNamespace (a : Atlas) (owner : EntityId) (m : Member) (id : MemberId) :
    Noted Atlas := do
  unless m.kind.isInNamespaces do
    .give (.unfiledInNamespace m.name (a.name owner) m.kind)
  return a.modifyEntity owner (·.posting m id)

/-- Files a member in a namespace and in those that the namespace publishes into. Hidden members are
left out. -/
def fileInNamespace (a : Atlas) (owner : EntityId) (id : MemberId) : Noted Atlas := do
  match a.member? id with
  | none => return a
  | some m =>
    if m.flags.isHidden then return a
    let owners := (a.publishingGraph.trail .oldestFirst 0 owner).map (·.1)
    owners.foldlM (fun a owner => a.fileInOneNamespace owner m id) a

/-- Files a member in its owner at the protection it is declared with. -/
def insertMember (a : Atlas) (owner : EntityId) (id : MemberId) : Except Fault (Noted Atlas) := do
  let m ← a.requireMember id
  let e ← a.requireEntity owner
  if e.isClass then return a.fileInClass owner id m.protection true
  else return a.fileInNamespace owner id

end Atlas

end SymbolAtlas
