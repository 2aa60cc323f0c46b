import SymbolAtlas.Entity
import SymbolAtlas.Fault
import SymbolAtlas.Options

/-!
# Atlases

An atlas holds all entities and members of a project. They are numbered, and refer to each other by
their numbers; nothing is ever removed.
-/

set_option autoImplicit false

namespace SymbolAtlas

/-- All entities and members of a project. -/
structure Atlas where
  entities : Array Entity := #[]
  members : Array Member := #[]
  /-- Registered entities by their qualified names. -/
  names : Dict EntityId := .empty
  /-- All members by their names. -/
  memberNames : Dict (List MemberId) := .empty
  options : Options := {}
deriving DecidableEq, Inhabited

namespace Atlas

/-- The atlas without entities. -/
def empty (options : Options) : Atlas :=
  { options }

/-! ## Reading -/

/-- The entity with a number. -/
def entity? (a : Atlas) (id : EntityId) : Option Entity :=
  a.entities[id.slot]?

/-- The member with a number. -/
def member? (a : Atlas) (id : MemberId) : Option Member :=
  a.members[id.slot]?

/-- The class with a number. -/
def class? (a : Atlas) (id : EntityId) : Option ClassBody :=
  (a.entity? id).bind (·.class?)

/-- The namespace with a number. -/
def namespace? (a : Atlas) (id : EntityId) : Option NamespaceBody :=
  (a.entity? id).bind (·.namespace?)

/-- The entity with a number, or the fault that there is none. -/
def requireEntity (a : Atlas) (id : EntityId) : Except Fault Entity :=
  match a.entity? id with
  | some e => .ok e
  | none => .error (.unknownEntity id)

/-- The member with a number, or the fault that there is none. -/
def requireMember (a : Atlas) (id : MemberId) : Except Fault Member :=
  match a.member? id with
  | some m => .ok m
  | none => .error (.unknownMember id)

/-- The entity on whose page an entity is described. An instance is described with its template,
which has an earlier number. -/
def pageOwner (a : Atlas) (id : EntityId) : EntityId :=
  match (a.entity? id).bind (·.templateMaster) with
  | none => id
  | some master => if master.number < id.number then a.pageOwner master else master
termination_by id.number

/-- The class with a number, or the fault that there is none. -/
def requireClass (a : Atlas) (id : EntityId) : Except Fault ClassBody :=
  match a.entity? id with
  | none => .error (.unknownEntity id)
  | some e =>
    match e.class? with
    | some c => .ok c
    | none => .error (.notAClass e.name)

/-- The namespace with a number, or the fault that there is none. -/
def requireNamespace (a : Atlas) (id : EntityId) : Except Fault NamespaceBody :=
  match a.entity? id with
  | none => .error (.unknownEntity id)
  | some e =>
    match e.namespace? with
    | some n => .ok n
    | none => .error (.notANamespace e.name)

/-- The qualified name of an entity; empty if there is none. -/
def name (a : Atlas) (id : EntityId) : String :=
  ((a.entity? id).map (·.name)).getD ""

/-- The entity registered under a qualified name. -/
def find? (a : Atlas) (name : String) : Option EntityId :=
  a.names.get? name

/-- Every member with a name. -/
def membersNamed (a : Atlas) (name : String) : List MemberId :=
  (a.memberNames.get? name).getD []

/-- The base edges of a class; a namespace has none. -/
def bases (a : Atlas) (id : EntityId) : List BaseEdge :=
  ((a.class? id).map (·.bases)).getD []

/-- The derived edges of a class; a namespace has none. -/
def derived (a : Atlas) (id : EntityId) : List BaseEdge :=
  ((a.class? id).map (·.derived)).getD []

/-- The members filed under a section of an entity. -/
def sectionMembers (a : Atlas) (id : EntityId) (s : Section) : List MemberId :=
  ((a.entity? id).map (·.sections.get s)).getD []

/-- What separates the scopes in the names of an entity. -/
def separator (a : Atlas) (id : EntityId) : String :=
  ((a.entity? id).map (·.separator)).getD "::"

/-- The numbers that address the entities of the atlas. -/
def entityNumbers (a : Atlas) : List EntityId :=
  (List.range (a.entities.size + 1)).map EntityId.mk

/-- The numbers of the classes, in order. -/
def classIds (a : Atlas) : List EntityId :=
  (a.entities.toList.filter (·.isClass)).map (·.id)

/-- The numbers of the namespaces, in order. -/
def namespaceIds (a : Atlas) : List EntityId :=
  (a.entities.toList.filter (·.isNamespace)).map (·.id)

/-! ## Changing -/

/-- Changes an entity. -/
def modifyEntity (a : Atlas) (id : EntityId) (f : Entity → Entity) : Atlas :=
  { a with entities := a.entities.modify id.slot f }

/-- Changes a class. -/
def modifyClass (a : Atlas) (id : EntityId) (f : ClassBody → ClassBody) : Atlas :=
  a.modifyEntity id (·.modifyClass f)

/-- Changes a namespace. -/
def modifyNamespace (a : Atlas) (id : EntityId) (f : NamespaceBody → NamespaceBody) : Atlas :=
  a.modifyEntity id (·.modifyNamespace f)

/-- Changes a member. -/
def modifyMember (a : Atlas) (id : MemberId) (f : Member → Member) : Atlas :=
  { a with members := a.members.modify id.slot f }

/-- Adds an entity that is not found by its name. -/
def allocate (a : Atlas) (name : String) (kind : EntityKind) (location : Location) :
    Atlas × EntityId :=
  let id := EntityId.ofSlot a.entities.size
  let entity := Entity.declare id name kind location a.options.inlineSimpleStruct
    a.options.allowSubGrouping
  ({ a with entities := a.entities.push entity }, id)

/-- The entity registered under a name; it is added if there is none. The first registration of a
name decides kind and location. -/
def register (a : Atlas) (name : String) (kind : EntityKind) (location : Location) :
    Atlas × EntityId :=
  match a.find? name with
  | some id => (a, id)
  | none =>
    let (a, id) := a.allocate name kind location
    ({ a with names := a.names.insert name id }, id)

/-- Adds a member. It takes its language from the owner if it has none of its own, and is told to
be a constructor or destructor by its name. -/
def addMember (a : Atlas) (owner : Option EntityId) (m : Member) : Atlas × MemberId :=
  let id := MemberId.ofSlot a.members.size
  let m := { m with id, owner }
  let m :=
    match owner.bind a.entity? with
    | none => m
    | some e =>
      let m := if m.language == .unknown then { m with language := e.language } else m
      if e.isClass then m.inClassNamed e.localName else m
  ({ a with members := a.members.push m, memberNames := a.memberNames.append m.name id }, id)

/-- Puts an entity into the scope of another one. Nothing happens if they are the same or one of
them is unknown. -/
def setOuter (a : Atlas) (inner outer : EntityId) : Atlas :=
  if inner = outer then a
  else
    match a.entity? inner, a.entity? outer with
    | some e, some _ =>
      let enter (ids : List EntityId) := if ids.contains inner then ids else ids ++ [inner]
      (a.modifyEntity inner fun e => { e with outer := some outer }).modifyEntity outer fun o =>
        if e.isClass then { o with innerClasses := enter o.innerClasses }
        else { o with innerNamespaces := enter o.innerNamespaces }
    | _, _ => a

end Atlas

end SymbolAtlas
