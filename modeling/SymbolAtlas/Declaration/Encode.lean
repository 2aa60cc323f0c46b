import SymbolAtlas.Declaration.Basic
import SymbolAtlas.Json.Basic

/-!
# Declarations as JSON values
-/

set_option autoImplicit false

namespace SymbolAtlas

/-- A text that may be absent. -/
def Json.optionalStr (s : Option String) : Json :=
  .option .str s

/-- The declaration of a base as a value: its name, or an object. -/
def BaseDecl.toJson : BaseDecl → Json
  | plain name => .str name
  | detailed name protection virtualness =>
    .record [("name", .str name), ("protection", .optionalStr protection),
      ("virtualness", .optionalStr virtualness)]

/-- The declaration of a member as an object. -/
def MemberDecl.toJson (m : MemberDecl) : Json :=
  .record [
    ("name", .str m.name),
    ("kind", .str m.kind),
    ("protection", .optionalStr m.protection),
    ("virtualness", .optionalStr m.virtualness),
    ("type", .str m.typeText),
    ("args", .str m.args),
    ("static", .bool m.isStatic),
    ("friend", .bool m.isFriend),
    ("related", .bool m.isRelated),
    ("constructor", .bool m.isConstructor),
    ("destructor", .bool m.isDestructor),
    ("documented", .bool m.isDocumented),
    ("hidden", .bool m.isHidden),
    ("file", .optionalStr m.file),
    ("line", .nat m.line)]

/-- The declaration of an entity as an object. -/
def EntityDecl.toJson (e : EntityDecl) : Json :=
  .record [
    ("name", .str e.name),
    ("kind", .str e.kind),
    ("file", .str e.file),
    ("line", .nat e.line),
    ("column", .nat e.column),
    ("language", .optionalStr e.language),
    ("protection", .optionalStr e.protection),
    ("documented", .bool e.isDocumented),
    ("hidden", .bool e.isHidden),
    ("is_static", .bool e.isStatic),
    ("traits", .list .str e.traits),
    ("template_params", .list .str e.formals),
    ("bases", .list BaseDecl.toJson e.bases),
    ("using_namespaces", .list .str e.usingNamespaces),
    ("using_declarations", .list .str e.usingDeclarations),
    ("inline", .bool e.isInline),
    ("members", .list MemberDecl.toJson e.members)]

/-- A batch of declarations as an object. -/
def Document.toJson (d : Document) : Json :=
  .record [("entities", .list EntityDecl.toJson d.entities)]

end SymbolAtlas
