import SymbolAtlas.Atlas.Extension
import SymbolAtlas.Build.Bases
import SymbolAtlas.Build.Members
import SymbolAtlas.Build.Register

/-!
# The whole build

Entities are there before anything refers to them, members before bases are linked, all edges before
members are inherited; the using relations are closed last.
-/

set_option autoImplicit false

namespace SymbolAtlas.Build

/-- Takes a category into the class that it extends. -/
def mergeCategoryOf (progress : Progress) (owner : Declared) : Noted Progress := do
  let a := progress.atlas
  match a.entity? owner.1 with
  | none => return progress
  | some e =>
    if e.kind != .category then return progress
    match QualifiedName.categoryParts? owner.2.name with
    | none =>
      .give (.categoryUnnamed owner.2.name)
      return progress
    | some (extended, _) =>
      let name := QualifiedName.localName extended
      match a.resolve? e.outer name fun e => e.isClass && e.kind != .category with
      | none =>
        .give (.extendedNotFound name owner.2.name)
        return progress
      | some id =>
        match a.mergeCategory id owner.1 with
        | .error _ => return progress
        | .ok merged =>
          return { progress with
            atlas := ← merged
            summary.categoriesMerged := progress.summary.categoriesMerged + 1 }

/-- Counts a using relation whose target is not found. -/
def missingUsing (progress : Progress) : Progress :=
  { progress with summary.unresolvedUsings := progress.summary.unresolvedUsings + 1 }

/-- Lets a namespace use another one. -/
def addUsedNamespace (owner : Declared) (outer : Option EntityId) (progress : Progress)
    (target : String) : Noted Progress := do
  let a := progress.atlas
  let find (scope : Option EntityId) := a.resolve? scope target (·.isNamespace)
  match (find (some owner.1)).or (find outer) with
  | some used =>
    match a.useNamespace owner.1 used with
    | .ok a => return { progress with atlas := a }
    | .error _ => return progress
  | none =>
    .give (.usedNotFound target owner.2.name)
    return missingUsing progress

/-- What a using-declaration in a namespace refers to, with its qualified name: an entity, or a
member of one. -/
def usingTarget? (a : Atlas) (id : EntityId) (name : String) : Option (String × UsingTarget) :=
  let find (name : String) := a.resolve? (some id) name fun _ => true
  match find name with
  | some target => some (a.name target, .entity target)
  | none => do
    let scope ← QualifiedName.scope? name
    let memberName := QualifiedName.localName name
    let owner ← find scope
    let m ← (a.membersNamed memberName).find? fun m =>
      (a.member? m).any fun m => m.owner = some owner
    return (QualifiedName.inScope (a.name owner) memberName, .member m)

/-- Lets a namespace use a declaration. -/
def addUsedDeclaration (owner : Declared) (progress : Progress) (name : String) :
    Noted Progress := do
  match usingTarget? progress.atlas owner.1 name with
  | some (name, target) =>
    match progress.atlas.useDeclaration owner.1 name target with
    | .ok a => return { progress with atlas := a }
    | .error _ => return progress
  | none =>
    .give (.declarationNotFound name owner.2.name)
    return missingUsing progress

/-- Adds the using relations of a declared namespace. -/
def addUsings (progress : Progress) (owner : Declared) : Noted Progress := do
  match progress.atlas.entity? owner.1 with
  | none => return progress
  | some e =>
    if e.isNamespace then
      let progress ← owner.2.usingNamespaces.foldlM (addUsedNamespace owner e.outer) progress
      owner.2.usingDeclarations.foldlM (addUsedDeclaration owner) progress
    else return progress

/-- Inherits members, closes the using relations and counts what there is. -/
def finish (progress : Progress) : Noted (Atlas × Summary) := do
  let (a, merge) ← progress.atlas.mergeAll
  let a := a.closeAllUsing
  return (a, { progress.summary with
    merge
    entities := a.entities.size
    members := a.members.size
    templateInstances := a.entities.toList.countP (·.isTemplateInstance) })

/-- All that is done before bases are looked up. -/
def prepare (a : Atlas) (d : Document) : Noted (Progress × List Declared) := do
  let (progress, declared) ← registerAll { atlas := a } d
  let progress ← addMembers (linkScopes (addScopes progress)) declared
  return (progress, declared)

/-- All that is added to an atlas before members are inherited. -/
def assemble (a : Atlas) (d : Document) : Noted Progress := do
  let (progress, declared) ← prepare a d
  let progress ← addBases progress declared
  let progress ← declared.foldlM mergeCategoryOf progress
  declared.foldlM addUsings progress

/-- Adds the declarations of a document to an atlas. -/
def extend (a : Atlas) (d : Document) : Noted (Atlas × Summary) :=
  assemble a d >>= finish

/-- Builds an atlas from a document. -/
def run (options : Options) (d : Document) : Noted (Atlas × Summary) :=
  extend (.empty options) d

end SymbolAtlas.Build
