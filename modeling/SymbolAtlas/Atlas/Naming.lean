import SymbolAtlas.Atlas.Basic
import SymbolAtlas.Digest.Sha256
import SymbolAtlas.Text.FileName

/-!
# Naming

How entities are called in titles, file names and links.
-/

set_option autoImplicit false

namespace SymbolAtlas

/-- The word for the kind of an entity in titles and tag files. Fortran has words of its own. -/
def Entity.kindWord (e : Entity) : String :=
  if e.language == .fortran then
    match e.kind with
    | .classKind | .namespaceKind | .moduleKind => "module"
    | .structKind => "type"
    | .union => "union"
    | .interface => "interface"
    | .protocol => "protocol"
    | .category => "category"
    | .exception => "exception"
    | _ => "unknown"
  else
    match e.kind with
    | .classKind => if e.class?.any (·.traits.isJavaEnum) then "enum" else "class"
    | .interface => if e.language == .objc then "class" else "interface"
    | .constantGroup => "constants"
    | kind => kind.name

/-- The qualified name without its anonymous scopes. -/
def QualifiedName.withoutAnonymous (name : String) : String :=
  let parts := (Text.splitOn [':', ':'] name.toList).map String.ofList
  Text.joinWith "::" (parts.filter fun part => !isAnonymous part)

namespace Entity

/-- The qualified name with the names of the template parameters. -/
def nameWithFormals (e : Entity) : String :=
  match e.class? with
  | some c =>
    if c.isTemplate then
      let names := (c.formals.map (·.name)).filter fun name => name != ""
      e.name ++ "<" ++ Text.joinWith ", " names ++ ">"
    else e.name
  | none => e.name

/-- The name as shown to readers: without anonymous scopes, with the separators of the language, and
with the brackets of a protocol. -/
def displayName (e : Entity) (isQualified : Bool) : String :=
  let name := if isQualified then e.nameWithFormals else e.localName
  let name := if e.flags.isAnonymous then QualifiedName.withoutAnonymous name else name
  let separator := e.language.separator false
  let name :=
    if separator == "::" then name
    else String.ofList (Text.replaceAll [':', ':'] separator.toList name.toList)
  if e.kind == .protocol then
    match Text.before? ['-', 'p'] name.toList with
    | some stem => "<" ++ String.ofList stem ++ ">"
    | none => name
  else name

end Entity

namespace Atlas

/-- The name of an entity as shown to readers; empty for an unknown one. -/
def displayName (a : Atlas) (id : EntityId) (isQualified : Bool) : String :=
  ((a.entity? id).map (·.displayName isQualified)).getD ""

/-- The word for the kind of an entity. -/
def kindWord (a : Atlas) (id : EntityId) : String :=
  ((a.entity? id).map (·.kindWord)).getD "unknown"

/-- The name of the file with the page of an entity, without extension. An instance of a template
is described on the page of the template. -/
def fileBase (a : Atlas) (id : EntityId) : String :=
  match a.entity? (a.pageOwner id) with
  | none => ""
  | some e => Text.fileName (e.kindWord ++ e.name) a.options.caseSensitiveFileNames

/-- The anchor of a member on its page. It depends on the owner, the name and the arguments. -/
def anchor (a : Atlas) (id : MemberId) : String :=
  match a.member? id with
  | none => ""
  | some m =>
    let owner := (m.owner.map a.name).getD ""
    String.ofList ('a' :: (Sha256.hex (owner ++ "::" ++ m.name ++ m.argsText)).take 32)

end Atlas

end SymbolAtlas
