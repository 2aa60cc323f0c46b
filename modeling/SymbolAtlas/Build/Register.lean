import SymbolAtlas.Atlas.Instance
import SymbolAtlas.Build.Basic

/-!
# Registering entities

One entity is registered for each name; scopes that nobody declares become namespaces.
-/

set_option autoImplicit false

namespace SymbolAtlas

/-- The parts of the name of a category: the class that it extends and its own name, which is empty
for an extension. -/
def QualifiedName.categoryParts? (name : String) : Option (String × String) :=
  match Text.cut ['('] name.toList with
  | none => none
  | some (extended, rest) =>
    (Text.before? [')'] rest).map fun category =>
      (String.ofList (Text.trim extended), String.ofList (Text.trim category))

/-- Where a declaration says that it stands. -/
def EntityDecl.location (decl : EntityDecl) : Location where
  file := decl.file
  line := decl.line
  column := decl.column

namespace Build

/-- The entity with what a declaration of it says. -/
def describe (decl : EntityDecl) (p : Protection) (e : Entity) : Entity :=
  let e := { e with
    language := (decl.language.map Language.ofName).getD e.language
    protection := p
    flags.isDocumented := e.flags.isDocumented || decl.isDocumented
    flags.isHidden := e.flags.isHidden || decl.isHidden
    flags.isStatic := e.flags.isStatic || decl.isStatic }
  e.modifyNamespace fun n => { n with isInline := n.isInline || decl.isInline }

/-- The traits that a declaration gives. Unknown ones are reported. -/
def traitsOf (decl : EntityDecl) (kind : EntityKind) : Noted (List ClassTrait) := do
  let unknown := decl.traits.filter fun name => (ClassTrait.ofName? name).isNone
  .giveAll (unknown.map fun name => .unknownTrait name decl.name)
  let isExtension := kind == .category
    && (QualifiedName.categoryParts? decl.name).any fun (_, name) => name == ""
  return decl.traits.filterMap ClassTrait.ofName? ++ (if isExtension then [.extension] else [])

/-- Gives an entity the formal parameters that a declaration lists; only a class can have some. -/
def declareFormals (a : Atlas) (id : EntityId) (decl : EntityDecl) : Noted Atlas := do
  if decl.formals.isEmpty then return a
  else
    match a.setFormals id decl.formals with
    | .ok a => return a
    | .error fault =>
      .give (.formalsIgnored decl.name fault)
      return a

/-- Registers the entity of a declaration whose kind and protection are known. -/
def registerAs (a : Atlas) (decl : EntityDecl) (kind : EntityKind) (p : Protection) :
    Noted (Atlas × EntityId) := do
  let (a, id) := a.register decl.name kind decl.location
  let a := a.modifyEntity id (describe decl p)
  let traits ← traitsOf decl kind
  let a := a.modifyClass id fun c => { c with traits := c.traits.addAll traits }
  return (← declareFormals a id decl, id)

/-- Registers the entity of a declaration, unless its kind or protection is not understood. -/
def registerOne (state : Progress × List Declared) (decl : EntityDecl) :
    Noted (Progress × List Declared) := do
  let (progress, declared) := state
  let skipped : Progress :=
    { progress with summary.skippedEntities := progress.summary.skippedEntities + 1 }
  match EntityKind.decode decl.kind with
  | .error fault =>
    .give (.skippedEntity decl.name fault)
    return (skipped, declared)
  | .ok kind =>
    match ← protectionOf decl.name decl.protection with
    | none => return (skipped, declared)
    | some p =>
      let (a, id) ← registerAs progress.atlas decl kind p
      return ({ progress with atlas := a }, declared ++ [(id, decl)])

/-- Registers the entities of a document. The result lists the declarations that were understood. -/
def registerAll (progress : Progress) (d : Document) : Noted (Progress × List Declared) :=
  d.entities.foldlM registerOne (progress, [])

/-- Adds a namespace for a scope that nobody declares. -/
def addScope (progress : Progress) (scope : String) : Progress :=
  let (a, id) := progress.atlas.register scope .namespaceKind {}
  { progress with
    atlas := a.modifyEntity id fun e => { e with flags.isArtificial := true }
    summary.artificialScopes := progress.summary.artificialScopes + 1 }

/-- Adds the scopes around a name, from the inside out, up to the first that exists. -/
def addScopesOf (progress : Progress) (name : String) : Progress :=
  let missing := (QualifiedName.enclosing name).takeWhile fun scope =>
    (progress.atlas.find? scope).isNone
  missing.foldl addScope progress

/-- Adds the scopes around all entities. -/
def addScopes (progress : Progress) : Progress :=
  (progress.atlas.entities.toList.map (·.name)).foldl addScopesOf progress

/-- Puts every entity but the instances of templates into the scope that its name says. -/
def linkScopes (progress : Progress) : Progress :=
  let a := progress.atlas
  let pairs := (a.entities.toList.filter fun e => !e.isTemplateInstance).filterMap fun e =>
    ((QualifiedName.scope? e.name).bind a.find?).map fun outer => (e.id, outer)
  { progress with atlas := pairs.foldl (fun a (inner, outer) => a.setOuter inner outer) a }

end Build

end SymbolAtlas
