import SymbolAtlas.Dict
import SymbolAtlas.Signature.Basic
import SymbolAtlas.Vocabulary.Identifier
import SymbolAtlas.Vocabulary.Language
import SymbolAtlas.Vocabulary.MemberKind
import SymbolAtlas.Vocabulary.Protection

/-!
# Members

A member is a declaration inside a class or a namespace. Members are shared: a class that reaches a
member through an inheritance path has a view of it, and the views of all members that a class can
reach form its roster.
-/

set_option autoImplicit false

namespace SymbolAtlas

/-- Boolean properties of a member. -/
structure MemberFlags where
  isStatic : Bool := false
  isFriend : Bool := false
  /-- Documented with the class but declared elsewhere. -/
  isRelated : Bool := false
  isConstructor : Bool := false
  isDestructor : Bool := false
  isFunctionPointer : Bool := false
  isHidden : Bool := false
  isDocumented : Bool := false
  isArtificial : Bool := false
  /-- Taken over from a local category or an extension. -/
  isImplementationDetail : Bool := false
deriving DecidableEq, Repr, Inhabited

/-- A declaration inside a class or a namespace. -/
structure Member where
  id : MemberId := ⟨0⟩
  name : String
  kind : MemberKind
  protection : Protection := .pub
  virtualness : Virtualness := .normal
  owner : Option EntityId := none
  typeText : String := ""
  argsText : String := ""
  signature : Signature := {}
  flags : MemberFlags := {}
  location : Location := {}
  language : Language := .unknown
  /-- The member of the template that this one was made from. -/
  templateMaster : Option MemberId := none
  /-- The category that contributed the member. -/
  category : Option EntityId := none
  /-- The counterpart of the member in the pair of a class and its category. -/
  categoryRelation : Option MemberId := none
deriving DecidableEq, Repr, Inhabited

namespace Member

/-- The member with an argument list. A list that ends in `= 0` makes the member pure. -/
def withArgs (m : Member) (args : String) : Member :=
  let signature := Signature.read args
  { m with
    argsText := Text.trimmed args
    signature
    virtualness := if signature.isPure then .pureVirtual else m.virtualness }

/-- The member with a type. -/
def withType (m : Member) (type : String) : Member :=
  { m with typeText := Text.trimmed type }

/-- The member at a location, which also tells its language. -/
def withLocation (m : Member) (location : Location) : Member :=
  { m with location, language := Language.ofFile location.file }

/-- Assignment operators, constructors and destructors are never taken over by derived classes. -/
def isStandard (m : Member) : Bool :=
  m.name == "operator=" || m.flags.isConstructor || m.flags.isDestructor

/-- Declarations that make a whole class a friend. -/
def isFriendCompound (m : Member) : Bool :=
  m.flags.isFriend && ["friend class", "friend struct", "friend union"].contains m.typeText

/-- The member of a class with a local name: a function named like the class is a constructor, and
a destructor if a tilde stands in front. Template arguments in the name of the class do not
count. -/
def inClassNamed (m : Member) (className : String) : Member :=
  if !m.kind.isFunctionLike || className == "" then m
  else
    let bare := className.toList.takeWhile fun c => c != '<'
    if m.name.toList == bare then { m with flags.isConstructor := true }
    else if m.name.toList == '~' :: bare then { m with flags.isDestructor := true }
    else m

end Member

/-- A member as seen from one class through one inheritance path. -/
structure View where
  member : MemberId
  /-- What remains of the protection along the path. -/
  protection : Protection
  virtualness : Virtualness
  isInherited : Bool := false
  /-- The classes that the path goes through, each followed by a separator. -/
  path : String := ""
  /-- What has to be written in front of an ambiguous name. -/
  ambiguityScope : String := ""
  /-- The class whose declaration hides this one. -/
  ambiguousWith : Option EntityId := none
deriving DecidableEq, Repr, Inhabited

namespace View

/-- The view of a member from the class that declares it. -/
def direct (m : Member) (protection : Protection) : View :=
  { member := m.id, protection, virtualness := m.virtualness }

/-- Whether the name has to be qualified. -/
def isAmbiguous (v : View) : Bool :=
  v.ambiguityScope != ""

end View

/-- The views of all members that a class can reach, by name. -/
abbrev Roster := Dict (List View)

namespace Roster

/-- All views, in the order of their names. -/
def views (r : Roster) : List View :=
  r.values.flatten

end Roster

end SymbolAtlas
