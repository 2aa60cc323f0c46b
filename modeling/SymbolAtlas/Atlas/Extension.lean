import SymbolAtlas.Atlas.Filing

/-!
# Categories and extensions

A category adds members to a class that is declared elsewhere; an extension, which is a category
without a name, adds its bases as well.
-/

set_option autoImplicit false

namespace SymbolAtlas.Atlas

/-- Lets the derived edges of a base that lead to one class lead to another one. -/
def retargetDerived (a : Atlas) (base old new : EntityId) : Atlas :=
  a.modifyClass base fun c =>
    { c with
      derived := c.derived.map fun edge =>
        if edge.target = old then { edge with target := new } else edge }

/-- Gives the bases of an extension to the class it extends. -/
def donateBases (a : Atlas) (id extension : EntityId) (bases : List BaseEdge) : Atlas :=
  bases.foldl
    (fun a edge =>
      (a.modifyClass id fun c => { c with bases := c.bases ++ [edge], isSimple := false
        }).retargetDerived edge.target extension id)
    a

/-- Relates the member that a class has under a name to the one that its category has. -/
def relate (a : Atlas) (category : EntityId) (own theirs : List View) : Atlas :=
  match own.head?, theirs.head? with
  | some v, some w =>
    (a.modifyMember v.member fun m =>
      { m with category := some category, categoryRelation := some w.member }).modifyMember
        w.member fun m => { m with categoryRelation := some v.member }
  | _, _ => a

/-- Copies a member of a category into a class. Gives the view of the copy. -/
def adoptView (a : Atlas) (id category : EntityId) (isDetail : Bool) (view : View) :
    Atlas × Option View :=
  match a.member? view.member with
  | none => (a, none)
  | some m =>
    let copy := { m with
      category := some category
      categoryRelation := some view.member
      flags.isImplementationDetail := m.flags.isImplementationDetail || isDetail }
    let (a, new) := a.addMember (some id) copy
    let a := a.modifyMember view.member fun m => { m with categoryRelation := some new }
    (a, some { view with member := new })

/-- Copies the members that a category has under a name that the class does not have. -/
def adoptViews (a : Atlas) (id category : EntityId) (isDetail : Bool) (views : List View) :
    Atlas × List View :=
  views.foldl
    (fun (a, adopted) view =>
      let (a, new) := a.adoptView id category isDetail view
      (a, adopted ++ new.toList))
    (a, [])

/-- Takes the members that a category has under one name into the roster of a class. -/
def adoptName (id category : EntityId) (isDetail : Bool) (state : Atlas × Roster × List View)
    (entry : String × List View) : Atlas × Roster × List View :=
  let (a, roster, adopted) := state
  let (name, views) := entry
  match roster.get? name with
  | some own => (a.relate category own views, roster, adopted)
  | none =>
    let (a, new) := a.adoptViews id category isDetail views
    (a, roster.insert name new, adopted ++ new)

/-- The atlas in which a category is said to extend a class, which has got the bases of an
extension. -/
def withCategory (a : Atlas) (id category : EntityId) (c : ClassBody) : Atlas :=
  let a := a.modifyClass category fun c => { c with categoryOf := some id }
  if c.traits.isExtension then
    (a.modifyEntity category fun e => { e with flags.isArtificial := true }).donateBases
      id category c.bases
  else a

/-- Takes a category or extension into a class. -/
def adopt (a : Atlas) (id category : EntityId) (c : ClassBody) (isLocal : Bool) : Noted Atlas := do
  let a := a.withCategory id category c
  match a.class? id with
  | none => return a
  | some target =>
    let a := a.modifyClass id fun c => { c with roster := .empty }
    let isDetail := isLocal || c.traits.isExtension
    let (a, roster, adopted) :=
      c.roster.toList.foldl (adoptName id category isDetail) (a, target.roster, [])
    let a := a.modifyClass id fun c => { c with roster }
    adopted.foldlM (fun a view => a.fileInClass id view.member view.protection false) a

/-- Takes a category or extension into a class. Local ones are left out unless local methods are
extracted. -/
def mergeCategory (a : Atlas) (id category : EntityId) : Except Fault (Noted Atlas) := do
  let _ ← a.requireClass id
  let c ← a.requireClass category
  let e ← a.requireEntity category
  if e.isLocal && !a.options.extractLocalMethods then return pure a
  else return a.adopt id category c e.isLocal

end SymbolAtlas.Atlas
