import SymbolAtlas.Atlas.Instance
import SymbolAtlas.Atlas.Resolution
import SymbolAtlas.Build.Basic

/-!
# Linking bases

Bases are looked up where they are written. A base that is a template with arguments is replaced by
its instance, once all other edges are there; a base whose arguments mention parameters of the class
itself stays the template.
-/

set_option autoImplicit false

namespace SymbolAtlas.Build

/-- A base that is to be replaced by an instance. -/
structure PendingInstance where
  child : EntityId
  spec : String
  /-- The edge to the template. -/
  edge : BaseEdge
  /-- Whether the child is a template itself. -/
  isFromTemplate : Bool

/-- Whether a text mentions one of the names as a word. -/
def mentionsAny (text : String) (names : List String) : Bool :=
  (Text.runs Text.isWordChar text.toList).any fun word => names.contains (String.ofList word)

/-- The text without the pairs of colons that it begins with. -/
def dropGlobalMarks : List Char → List Char
  | ':' :: ':' :: rest => dropGlobalMarks rest
  | cs => cs

/-- Adds a class for a base that is not declared. It is registered unless its name is taken. -/
def addPlaceholder (a : Atlas) (name : String) : Atlas × EntityId :=
  let name := String.ofList (dropGlobalMarks name.toList)
  let (a, id) :=
    match a.find? name with
    | some _ => a.allocate name .classKind {}
    | none => a.register name .classKind {}
  (a.modifyEntity id fun e =>
    { e with flags.isArtificial := true, flags.isUsedOnly := true }, id)

/-- The class that a base refers to; if there is none, a class is added in its place. -/
def findBase (progress : Progress) (scope : Option EntityId) (name : String) (decl : EntityDecl) :
    Noted (Progress × EntityId) := do
  match progress.atlas.resolve? scope name (·.isClass) with
  | some id => return (progress, id)
  | none =>
    .give (.baseNotFound name decl.name)
    let (a, id) := addPlaceholder progress.atlas name
    return ({ progress with
      atlas := a
      summary.unresolvedBases := progress.summary.unresolvedBases + 1 }, id)

/-- Links a base, unless a declaration names itself. -/
def addEdge (progress : Progress) (child : EntityId) (edge : BaseEdge) : Noted Progress := do
  if edge.target = child then
    .give (.namesItself (progress.atlas.name child))
    return progress
  else
    let a ← progress.atlas.linkBase child edge
    return { progress with atlas := a, summary.baseEdges := progress.summary.baseEdges + 1 }

/-- What the declaration of a base says about the edge, unless a word in it is not understood. -/
def edgeWords (base : BaseDecl) (decl : EntityDecl) :
    Noted (Option (Protection × Virtualness)) := do
  match ← protectionOf base.name base.protection with
  | none => return none
  | some p =>
    let v ← decodeOr Virtualness.decode .normal (.skippedBase base.name decl.name) base.virtualness
    return v.map fun v => (p, v)

/-- Links a base of a declaration, or puts it off until instances are made. -/
def addBase (child : EntityId) (decl : EntityDecl) (scope : Option EntityId)
    (formals : List String) (state : Progress × List PendingInstance) (base : BaseDecl) :
    Noted (Progress × List PendingInstance) := do
  let (progress, pending) := state
  match ← edgeWords base decl with
  | none => return state
  | some (protection, virtualness) =>
    let (name, spec) := QualifiedName.cutTemplateArguments base.name
    let (progress, parent) ← findBase progress scope name decl
    let edge : BaseEdge :=
      { target := parent
        usedName := if name == progress.atlas.name parent then none else some base.name
        protection, virtualness
        templateSpec := spec }
    let isTemplate := (progress.atlas.class? parent).any (·.isTemplate)
    if spec != "" && isTemplate && !mentionsAny spec formals then
      return (progress,
        pending ++ [{ child, spec, edge, isFromTemplate := !formals.isEmpty }])
    else return (← addEdge progress child edge, pending)

/-- Links the bases of a declaration. -/
def addBasesOf (state : Progress × List PendingInstance) (owner : Declared) :
    Noted (Progress × List PendingInstance) :=
  match state.1.atlas.entity? owner.1, state.1.atlas.class? owner.1 with
  | some e, some c =>
    owner.2.bases.foldlM (addBase owner.1 owner.2 e.outer (c.formals.map (·.name))) state
  | _, _ => pure state

/-- Links a base that is an instance. -/
def addPending (progress : Progress) (p : PendingInstance) : Noted Progress := do
  match progress.atlas.instantiate p.edge.target p.spec with
  | .error _ => return progress
  | .ok instantiated =>
    let (a, target, _) ← instantiated
    addEdge { progress with atlas := a } p.child { p.edge with target }

/-- Links the bases of all declarations. Templates get their instances first, so that these are
there when the templates are instantiated themselves. -/
def addBases (progress : Progress) (declared : List Declared) : Noted Progress := do
  let (progress, pending) ← declared.foldlM addBasesOf (progress, [])
  let (first, rest) := pending.partition (·.isFromTemplate)
  (first ++ rest).foldlM addPending progress

end SymbolAtlas.Build
