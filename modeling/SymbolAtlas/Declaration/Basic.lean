/-!
# Declarations

Declarations as they come from the reading of source text. Kinds, protections and languages are
still words here, so that a declaration which is not understood can be passed over without giving up
the others.
-/

set_option autoImplicit false

namespace SymbolAtlas

/-- The declaration of a base, by its name alone or with what is said about the edge. -/
inductive BaseDecl where
  | plain (name : String)
  | detailed (name : String) (protection virtualness : Option String)
deriving DecidableEq, Repr

namespace BaseDecl

/-- The name as written, template arguments included. -/
def name : BaseDecl → String
  | plain name | detailed name _ _ => name

/-- The word for the protection of the edge, if there is one. -/
def protection : BaseDecl → Option String
  | plain _ => none
  | detailed _ protection _ => protection

/-- The word for the virtualness of the edge, if there is one. -/
def virtualness : BaseDecl → Option String
  | plain _ => none
  | detailed _ _ virtualness => virtualness

end BaseDecl

/-- The declaration of a member. -/
structure MemberDecl where
  name : String := ""
  kind : String := ""
  protection : Option String := none
  virtualness : Option String := none
  typeText : String := ""
  args : String := ""
  isStatic : Bool := false
  isFriend : Bool := false
  isRelated : Bool := false
  isConstructor : Bool := false
  isDestructor : Bool := false
  isDocumented : Bool := false
  isHidden : Bool := false
  file : Option String := none
  line : Nat := 0
deriving DecidableEq, Repr, Inhabited

/-- The declaration of a class or a namespace. -/
structure EntityDecl where
  /-- The qualified name. -/
  name : String := ""
  kind : String := ""
  file : String := ""
  line : Nat := 0
  column : Nat := 0
  language : Option String := none
  protection : Option String := none
  isDocumented : Bool := false
  isHidden : Bool := false
  isStatic : Bool := false
  traits : List String := []
  formals : List String := []
  bases : List BaseDecl := []
  usingNamespaces : List String := []
  usingDeclarations : List String := []
  /-- Whether a namespace is inline. -/
  isInline : Bool := false
  members : List MemberDecl := []
deriving DecidableEq, Repr, Inhabited

/-- A batch of declarations. -/
structure Document where
  entities : List EntityDecl := []
deriving DecidableEq, Repr, Inhabited

end SymbolAtlas
